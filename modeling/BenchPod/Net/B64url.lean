import BenchPod.Library.B64url
import Mathlib.Data.List.GetD
import Mathlib.Logic.Function.Basic

/-!
# b64url_encode and b64url_decode

The encoder shifts three bytes through one word and looks its symbols up, the decoder looks four characters
up in a table of 256 and finds a foreign one among them by the OR of what the table says.  Both write into a
buffer of the caller's.
-/

namespace BenchPod.B64url

/-- A buffer of the caller's, with what lies behind it. -/
abbrev Buffer := Nat → Byte

/-- Bytes into a buffer, from an offset on. -/
def store (out : Buffer) (offset : Nat) : List Byte → Buffer
  | [] => out
  | byte :: bytes => store (Function.update out offset byte) (offset + 1) bytes

def enc : List Byte :=
  "ABCDEFGHIJKLMNOPQRSTUVWXYZabcdefghijklmnopqrstuvwxyz0123456789-_".toList.map fun c => BitVec.ofNat 8 c.toNat

/-- DEC after dec_init. -/
def dec : List Byte :=
  (List.range 64).foldl (fun table i => table.set (enc.getD i 0).toNat (BitVec.ofNat 8 i))
    (List.replicate 256 0xFF)

/-- The symbol of the low six bits. -/
def encAt (v : Word) : Byte := enc.getD (v &&& 0x3F).toNat 0

def decAt (c : Byte) : Byte := dec.getD c.toNat 0

def b64urlEncodedLen (n : Nat) : Nat := (n * 4 + 2) / 3

/-- The loop of b64url_encode and its last group: the symbols written, and the buffer. -/
def encodeGroups : List Byte → Nat → Buffer → Nat × Buffer
  | a :: b :: c :: rest, o, out =>
    let v := a.setWidth 32 <<< 16 ||| b.setWidth 32 <<< 8 ||| c.setWidth 32
    encodeGroups rest (o + 4) (store out o [encAt (v >>> 18), encAt (v >>> 12), encAt (v >>> 6), encAt v])
  | [a, b], o, out =>
    let v := a.setWidth 32 <<< 16 ||| b.setWidth 32 <<< 8
    (o + 3, store out o [encAt (v >>> 18), encAt (v >>> 12), encAt (v >>> 6)])
  | [a], o, out =>
    let v : Word := a.setWidth 32 <<< 16
    (o + 2, store out o [encAt (v >>> 18), encAt (v >>> 12)])
  | [], o, out => (o, out)

/-- b64url_encode: what it returns, and the buffer. -/
def b64urlEncode (input : List Byte) (out : Buffer) (outCap : Nat) : Nat × Buffer :=
  if outCap < b64urlEncodedLen input.length + 1 then (0, out)
  else
    let written := encodeGroups input 0 out
    (written.1, Function.update written.2 written.1 0)

/-- `(uint8_t)((high << up) | (low >> down))`. -/
def joined (high : Byte) (up : Nat) (low : Byte) (down : Nat) : Byte :=
  ((high.setWidth 32 <<< up ||| low.setWidth 32 >>> down : Word)).setWidth 8

/-- The loop of b64url_decode and its last group: the bytes written, or none at a foreign character, and
the buffer. -/
def decodeLoop : List Byte → Nat → Buffer → Option Nat × Buffer
  | c₀ :: c₁ :: c₂ :: c₃ :: rest, o, out =>
    let a := decAt c₀
    let b := decAt c₁
    let c := decAt c₂
    let d := decAt c₃
    if a ||| b ||| c ||| d = 0xFF then (none, out)
    else decodeLoop rest (o + 3) (store out o [joined a 2 b 4, joined b 4 c 2, joined c 6 d 0])
  | [c₀, c₁, c₂], o, out =>
    let a := decAt c₀
    let b := decAt c₁
    let c := decAt c₂
    if a ||| b ||| c = 0xFF then (none, out)
    else (some (o + 2), store out o [joined a 2 b 4, joined b 4 c 2])
  | [c₀, c₁], o, out =>
    let a := decAt c₀
    let b := decAt c₁
    if a ||| b = 0xFF then (none, out) else (some (o + 1), store out o [joined a 2 b 4])
  | _, o, out => (some o, out)

/-- b64url_decode of the text in front of the first NUL: the length where it returns 0, and the buffer. -/
def b64urlDecode (input : List Byte) (out : Buffer) (outCap : Nat) : Option Nat × Buffer :=
  let text := unpadded (input.takeWhile (· ≠ 0))
  if text.length % 4 = 1 then (none, out)
  else
    let decoded := text.length / 4 * 3 + (if text.length % 4 ≠ 0 then text.length % 4 - 1 else 0)
    if outCap < decoded then (none, out) else decodeLoop text 0 out

/-- The bytes of a buffer. -/
def cells (out : Buffer) (count : Nat) : List Byte := (List.range count).map out

variable {out : Buffer} {offset o cap : Nat} {bytes more input text : List Byte} {a b c d : Byte}

/-! ## The buffer -/

theorem store_at (out : Buffer) (offset : Nat) (bytes : List Byte) (i : Nat) :
    store out offset bytes i = if offset ≤ i then bytes.getD (i - offset) (out i) else out i := by
  induction bytes generalizing out offset with
  | nil => simp [store]
  | cons byte bytes ih =>
    rw [store, ih]
    obtain below | here | beyond := Nat.lt_trichotomy i offset
    · rw [if_neg (by omega), if_neg (by omega), Function.update_of_ne (Nat.ne_of_lt below)]
    · subst here
      rw [if_neg (by omega), if_pos (Nat.le_refl i), Function.update_self, Nat.sub_self]
      rfl
    · have step : i - offset = (i - (offset + 1)) + 1 := by omega
      rw [if_pos (by omega), if_pos (by omega), Function.update_of_ne (Nat.ne_of_gt beyond), step,
        List.getD_cons_succ]

theorem store_append (out : Buffer) (offset : Nat) (bytes more : List Byte) :
    store out offset (bytes ++ more) = store (store out offset bytes) (offset + bytes.length) more := by
  induction bytes generalizing out offset with
  | nil => rfl
  | cons byte bytes ih => rw [List.cons_append, store, store, ih, List.length_cons, Nat.add_right_comm, Nat.add_assoc]

theorem store_beyond {i : Nat} (fits : offset + bytes.length ≤ cap) (beyond : cap ≤ i) :
    store out offset bytes i = out i := by
  rw [store_at]
  split
  · exact List.getD_eq_default _ _ (by omega)
  · rfl

theorem cells_store (out : Buffer) (bytes : List Byte) : cells (store out 0 bytes) bytes.length = bytes := by
  apply List.ext_getElem
  · rw [cells, List.length_map, List.length_range]
  · intro i inside inside'
    simp only [cells, List.getElem_map, List.getElem_range, store_at, Nat.zero_le, if_true, Nat.sub_zero]
    rw [List.getD_eq_getElem _ _ inside']

/-! ## The tables -/

theorem encAt_eq (v : Word) {n : Nat} (low : v.toNat % 64 = n) : encAt v = symbol n := by
  have every : ∀ n : Fin 64, enc.getD n.val 0 = symbol n.val := by decide +kernel
  have masked : (v &&& 0x3F).toNat = v.toNat % 64 := by
    rw [BitVec.toNat_and]
    exact Nat.and_two_pow_sub_one_eq_mod v.toNat 6
  have small : n < 64 := low ▸ Nat.mod_lt _ (by decide)
  rw [encAt, masked, low]
  exact every ⟨n, small⟩

theorem decAt_eq (c : Byte) : decAt c = (value c).elim 0xFF (BitVec.ofNat 8) := by
  revert c
  decide +kernel

theorem value_lt {n : Nat} (found : value c = some n) : n < 64 := by
  have every : ∀ c : Byte, ∀ n ∈ value c, n < 64 := by decide +kernel
  exact every c n found

/-! ## Encoding -/

theorem setWidth_shiftLeft (a : Byte) {shift : Nat} (fits : shift ≤ 24) :
    (a.setWidth 32 <<< shift : Word).toNat = a.toNat <<< shift := by
  have most : a.toNat * 2 ^ shift < 256 * 2 ^ 24 :=
    Nat.mul_lt_mul_of_lt_of_le a.isLt (Nat.pow_le_pow_right (by decide) fits) (by decide)
  rw [BitVec.toNat_shiftLeft, BitVec.toNat_setWidth_of_le (by decide), Nat.shiftLeft_eq]
  exact Nat.mod_eq_of_lt (Nat.lt_of_lt_of_le most (by decide))

theorem triple_toNat (a b c : Byte) :
    (a.setWidth 32 <<< 16 ||| b.setWidth 32 <<< 8 ||| c.setWidth 32 : Word).toNat =
      a.toNat * 65536 + b.toNat * 256 + c.toNat := by
  have hb := b.isLt
  have hc := c.isLt
  have low : b.toNat <<< 8 ||| c.toNat = b.toNat * 256 + c.toNat := by
    rw [← Nat.shiftLeft_add_eq_or_of_lt hc, Nat.shiftLeft_eq]
  have high : a.toNat <<< 16 ||| (b.toNat * 256 + c.toNat) = a.toNat * 65536 + (b.toNat * 256 + c.toNat) := by
    rw [← Nat.shiftLeft_add_eq_or_of_lt (by omega), Nat.shiftLeft_eq]
  rw [BitVec.toNat_or, BitVec.toNat_or, setWidth_shiftLeft a (by decide), setWidth_shiftLeft b (by decide),
    BitVec.toNat_setWidth_of_le (by decide), Nat.or_assoc, low, high, Nat.add_assoc]

theorem pair_toNat (a b : Byte) :
    (a.setWidth 32 <<< 16 ||| b.setWidth 32 <<< 8 : Word).toNat = a.toNat * 65536 + b.toNat * 256 := by
  have whole := triple_toNat a b 0#8
  rw [BitVec.setWidth_zero, BitVec.or_zero, BitVec.toNat_zero, Nat.add_zero] at whole
  exact whole

theorem single_toNat (a : Byte) : (a.setWidth 32 <<< 16 : Word).toNat = a.toNat * 65536 := by
  rw [setWidth_shiftLeft a (by decide), Nat.shiftLeft_eq]

/-- The loop writes the symbols of its input. -/
theorem encodeGroups_eq (input : List Byte) (o : Nat) (out : Buffer) :
    encodeGroups input o out = (o + (encode input).length, store out o (encode input)) := by
  induction input using encode.induct generalizing o out with
  | case1 a b c rest ih =>
    have ha := a.isLt
    have hb := b.isLt
    have hc := c.isLt
    rw [encodeGroups, encode]
    simp only [ih]
    rw [encAt_eq (n := a.toNat / 4), encAt_eq (n := a.toNat % 4 * 16 + b.toNat / 16),
      encAt_eq (n := b.toNat % 16 * 4 + c.toNat / 64), encAt_eq (n := c.toNat % 64)]
    · have split := store_append out o [symbol (a.toNat / 4), symbol (a.toNat % 4 * 16 + b.toNat / 16),
          symbol (b.toNat % 16 * 4 + c.toNat / 64), symbol (c.toNat % 64)] (encode rest)
      refine Prod.ext ?_ split.symm
      simp only [List.length_cons]
      omega
    all_goals
      simp only [BitVec.toNat_ushiftRight, triple_toNat, Nat.shiftRight_eq_div_pow]
      omega
  | case2 a b =>
    have ha := a.isLt
    have hb := b.isLt
    rw [encodeGroups, encode]
    rw [encAt_eq (n := a.toNat / 4), encAt_eq (n := a.toNat % 4 * 16 + b.toNat / 16), encAt_eq (n := b.toNat % 16 * 4)]
    · rfl
    all_goals
      simp only [BitVec.toNat_ushiftRight, pair_toNat, Nat.shiftRight_eq_div_pow]
      omega
  | case3 a =>
    have ha := a.isLt
    rw [encodeGroups, encode]
    rw [encAt_eq (n := a.toNat / 4), encAt_eq (n := a.toNat % 4 * 16)]
    · rfl
    all_goals
      simp only [BitVec.toNat_ushiftRight, single_toNat, Nat.shiftRight_eq_div_pow]
      omega
  | case4 => rfl

/-! ## Decoding -/

theorem joined_eq {x y up down : Nat} (fits : y / 2 ^ down < 2 ^ up) (small : x < 256) (low : y < 256)
    (narrow : up ≤ 24) :
    joined (BitVec.ofNat 8 x) up (BitVec.ofNat 8 y) down = BitVec.ofNat 8 (x * 2 ^ up + y / 2 ^ down) := by
  apply BitVec.eq_of_toNat_eq
  rw [joined, BitVec.toNat_setWidth, BitVec.toNat_or, setWidth_shiftLeft _ narrow, BitVec.toNat_ushiftRight,
    BitVec.toNat_setWidth_of_le (by decide), BitVec.toNat_ofNat, BitVec.toNat_ofNat, BitVec.toNat_ofNat,
    Nat.mod_eq_of_lt small, Nat.mod_eq_of_lt low, Nat.shiftRight_eq_div_pow,
    ← Nat.shiftLeft_add_eq_or_of_lt fits, Nat.shiftLeft_eq]

theorem joined_join {x y : Nat} (hx : x < 64) (hy : y < 64) :
    joined (BitVec.ofNat 8 x) 2 (BitVec.ofNat 8 y) 4 = join x 2 y ∧
      joined (BitVec.ofNat 8 x) 4 (BitVec.ofNat 8 y) 2 = join (x % 16) 4 y ∧
      joined (BitVec.ofNat 8 x) 6 (BitVec.ofNat 8 y) 0 = join (x % 4) 6 y := by
  refine ⟨?_, ?_, ?_⟩
  · rw [joined_eq (by omega) (by omega) (by omega) (by decide)]
    rfl
  · rw [joined_eq (by omega) (by omega) (by omega) (by decide), join]
    apply BitVec.eq_of_toNat_eq
    rw [BitVec.toNat_ofNat, BitVec.toNat_ofNat]
    omega
  · rw [joined_eq (by omega) (by omega) (by omega) (by decide), join]
    apply BitVec.eq_of_toNat_eq
    rw [BitVec.toNat_ofNat, BitVec.toNat_ofNat]
    omega

/-- What the table says of characters, and ORs of it. -/
def Coded (x : Byte) : Prop := x = 0xFF ∨ x.getLsbD 7 = false

theorem coded_or {x y : Byte} (hx : Coded x) (hy : Coded y) :
    Coded (x ||| y) ∧ (x ||| y = 0xFF ↔ x = 0xFF ∨ y = 0xFF) := by
  have every : ∀ x : Byte, x ||| 0xFF = 0xFF ∧ 0xFF ||| x = 0xFF := by decide +kernel
  obtain rfl | hx := hx
  · exact ⟨.inl (every y).2, fun _ => .inl rfl, fun _ => (every y).2⟩
  · obtain rfl | hy := hy
    · exact ⟨.inl (every x).1, fun _ => .inr rfl, fun _ => (every x).1⟩
    · have high : (x ||| y).getLsbD 7 = false := by
        rw [BitVec.getLsbD_or, hx, hy]
        rfl
      refine ⟨.inr high, fun full => ?_, fun full => ?_⟩
      · rw [full] at high
        cases high
      · obtain rfl | rfl := full
        · cases hx
        · cases hy

theorem decAt_coded (c : Byte) : Coded (decAt c) ∧ (decAt c = 0xFF ↔ value c = none) := by
  have every : ∀ n : Fin 64, (BitVec.ofNat 8 n.val).getLsbD 7 = false ∧ BitVec.ofNat 8 n.val ≠ 0xFF := by decide +kernel
  rw [decAt_eq]
  cases found : value c with
  | none => exact ⟨.inl rfl, fun _ => rfl, fun _ => rfl⟩
  | some n =>
    obtain ⟨low, other⟩ := every ⟨n, value_lt found⟩
    refine ⟨.inr low, fun foreign => absurd foreign other, fun none => ?_⟩
    cases none

theorem decAt_value {n : Nat} (found : value c = some n) : decAt c = BitVec.ofNat 8 n := by
  rw [decAt_eq, found]
  rfl

theorem group_two (c₀ c₁ : Byte) : decAt c₀ ||| decAt c₁ = 0xFF ↔ value c₀ = none ∨ value c₁ = none := by
  obtain ⟨coded₀, foreign₀⟩ := decAt_coded c₀
  obtain ⟨coded₁, foreign₁⟩ := decAt_coded c₁
  rw [(coded_or coded₀ coded₁).2, foreign₀, foreign₁]

theorem group_three (c₀ c₁ c₂ : Byte) :
    decAt c₀ ||| decAt c₁ ||| decAt c₂ = 0xFF ↔ (value c₀ = none ∨ value c₁ = none) ∨ value c₂ = none := by
  obtain ⟨coded₂, foreign₂⟩ := decAt_coded c₂
  rw [(coded_or (coded_or (decAt_coded c₀).1 (decAt_coded c₁).1).1 coded₂).2, group_two, foreign₂]

theorem group_four (c₀ c₁ c₂ c₃ : Byte) :
    decAt c₀ ||| decAt c₁ ||| decAt c₂ ||| decAt c₃ = 0xFF ↔
      ((value c₀ = none ∨ value c₁ = none) ∨ value c₂ = none) ∨ value c₃ = none := by
  obtain ⟨coded₃, foreign₃⟩ := decAt_coded c₃
  have three := (coded_or (coded_or (decAt_coded c₀).1 (decAt_coded c₁).1).1 (decAt_coded c₂).1).1
  rw [(coded_or three coded₃).2, group_three, foreign₃]

/-- The loop writes the bytes of its groups up to one with a foreign character. -/
theorem decodeLoop_eq (text : List Byte) (o : Nat) (out : Buffer) (whole : text.length % 4 ≠ 1) :
    decodeLoop text o out =
      (if (decodeGroups text).2 then some (o + (decodeGroups text).1.length) else none,
        store out o (decodeGroups text).1) := by
  induction text using decodeGroups.induct generalizing o out with
  | case1 c₀ c₁ c₂ c₃ rest va vb vc vd hd hc hb ha ih =>
    have native : ¬ decAt c₀ ||| decAt c₁ ||| decAt c₂ ||| decAt c₃ = 0xFF := by
      rw [group_four, ha, hb, hc, hd]
      simp
    have whole : rest.length % 4 ≠ 1 := by
      simp only [List.length_cons] at whole
      omega
    have hb' := value_lt hb
    have hc' := value_lt hc
    rw [decodeLoop, decodeGroups]
    simp only [ha, hb, hc, hd, if_neg native, ih _ _ whole]
    rw [decAt_value ha, decAt_value hb, decAt_value hc, decAt_value hd,
      (joined_join (value_lt ha) hb').1, (joined_join hb' hc').2.1, (joined_join hc' (value_lt hd)).2.2]
    have split := store_append out o [join va 2 vb, join (vb % 16) 4 vc, join (vc % 4) 6 vd] (decodeGroups rest).1
    refine Prod.ext ?_ split.symm
    have length_eq : o + 3 + (decodeGroups rest).1.length = o + ((decodeGroups rest).1.length + 1 + 1 + 1) := by omega
    simp only [List.length_cons, length_eq]
  | case2 c₀ c₁ c₂ c₃ rest foreign =>
    have found : decAt c₀ ||| decAt c₁ ||| decAt c₂ ||| decAt c₃ = 0xFF := by
      by_contra native
      simp only [group_four, not_or, Option.ne_none_iff_exists'] at native
      obtain ⟨⟨⟨⟨va, ha⟩, vb, hb⟩, vc, hc⟩, vd, hd⟩ := native
      exact foreign va vb vc vd ha hb hc hd
    have nothing : decodeGroups (c₀ :: c₁ :: c₂ :: c₃ :: rest) = ([], false) := by
      rw [decodeGroups]
      split
      · next va vb vc vd ha hb hc hd => exact (foreign va vb vc vd ha hb hc hd).elim
      · rfl
    rw [decodeLoop, nothing]
    simp only [if_pos found]
    rfl
  | case3 c₀ c₁ c₂ va vb vc hc hb ha =>
    have native : ¬ decAt c₀ ||| decAt c₁ ||| decAt c₂ = 0xFF := by
      rw [group_three, ha, hb, hc]
      simp
    rw [decodeLoop, decodeGroups]
    simp only [ha, hb, hc, if_neg native]
    rw [decAt_value ha, decAt_value hb, decAt_value hc,
      (joined_join (value_lt ha) (value_lt hb)).1, (joined_join (value_lt hb) (value_lt hc)).2.1]
    rfl
  | case4 c₀ c₁ c₂ foreign =>
    have found : decAt c₀ ||| decAt c₁ ||| decAt c₂ = 0xFF := by
      by_contra native
      simp only [group_three, not_or, Option.ne_none_iff_exists'] at native
      obtain ⟨⟨⟨va, ha⟩, vb, hb⟩, vc, hc⟩ := native
      exact foreign va vb vc ha hb hc
    have nothing : decodeGroups [c₀, c₁, c₂] = ([], false) := by
      rw [decodeGroups]
      split
      · next va vb vc ha hb hc => exact (foreign va vb vc ha hb hc).elim
      · rfl
    rw [decodeLoop, nothing]
    simp only [if_pos found]
    rfl
  | case5 c₀ c₁ va vb hb ha =>
    have native : ¬ decAt c₀ ||| decAt c₁ = 0xFF := by
      rw [group_two, ha, hb]
      simp
    rw [decodeLoop, decodeGroups]
    simp only [ha, hb, if_neg native]
    rw [decAt_value ha, decAt_value hb, (joined_join (value_lt ha) (value_lt hb)).1]
    rfl
  | case6 c₀ c₁ foreign =>
    have found : decAt c₀ ||| decAt c₁ = 0xFF := by
      by_contra native
      simp only [group_two, not_or, Option.ne_none_iff_exists'] at native
      obtain ⟨⟨va, ha⟩, vb, hb⟩ := native
      exact foreign va vb ha hb
    have nothing : decodeGroups [c₀, c₁] = ([], false) := by
      rw [decodeGroups]
      split
      · next va vb ha hb => exact (foreign va vb ha hb).elim
      · rfl
    rw [decodeLoop, nothing]
    simp only [if_pos found]
    rfl
  | case7 c₀ => exact absurd rfl whole
  | case8 => rfl

/-- A text is decoded when every character is in the alphabet and no group has one character. -/
theorem decodeGroups_accepts (text : List Byte) :
    (decodeGroups text).2 = true ↔ text.length % 4 ≠ 1 ∧ ∀ c ∈ text, value c ≠ none := by
  induction text using decodeGroups.induct with
  | case1 a b c d rest va vb vc vd hd hc hb ha ih =>
    have length_eq : (a :: b :: c :: d :: rest).length % 4 = rest.length % 4 := by
      simp only [List.length_cons]
      omega
    rw [decodeGroups, length_eq]
    simp only [ha, hb, hc, hd, ih, List.forall_mem_cons]
    simp
  | case2 a b c d rest foreign =>
    have nothing : (decodeGroups (a :: b :: c :: d :: rest)).2 = false := by
      rw [decodeGroups]
      split
      · next va vb vc vd ha hb hc hd => exact (foreign va vb vc vd ha hb hc hd).elim
      · rfl
    rw [nothing]
    refine ⟨fun wrong => (Bool.false_ne_true wrong).elim, ?_⟩
    rintro ⟨-, native⟩
    simp only [List.forall_mem_cons, Option.ne_none_iff_exists'] at native
    obtain ⟨⟨va, ha⟩, ⟨vb, hb⟩, ⟨vc, hc⟩, ⟨vd, hd⟩, _⟩ := native
    exact (foreign va vb vc vd ha hb hc hd).elim
  | case3 a b c va vb vc hc hb ha =>
    rw [decodeGroups]
    simp [ha, hb, hc]
  | case4 a b c foreign =>
    have nothing : (decodeGroups [a, b, c]).2 = false := by
      rw [decodeGroups]
      split
      · next va vb vc ha hb hc => exact (foreign va vb vc ha hb hc).elim
      · rfl
    rw [nothing]
    refine ⟨fun wrong => (Bool.false_ne_true wrong).elim, ?_⟩
    rintro ⟨-, native⟩
    simp only [List.forall_mem_cons, Option.ne_none_iff_exists'] at native
    obtain ⟨⟨va, ha⟩, ⟨vb, hb⟩, ⟨vc, hc⟩, _⟩ := native
    exact (foreign va vb vc ha hb hc).elim
  | case5 a b va vb hb ha =>
    rw [decodeGroups]
    simp [ha, hb]
  | case6 a b foreign =>
    have nothing : (decodeGroups [a, b]).2 = false := by
      rw [decodeGroups]
      split
      · next va vb ha hb => exact (foreign va vb ha hb).elim
      · rfl
    rw [nothing]
    refine ⟨fun wrong => (Bool.false_ne_true wrong).elim, ?_⟩
    rintro ⟨-, native⟩
    simp only [List.forall_mem_cons, Option.ne_none_iff_exists'] at native
    obtain ⟨⟨va, ha⟩, ⟨vb, hb⟩, _⟩ := native
    exact (foreign va vb ha hb).elim
  | case7 a => simp [decodeGroups]
  | case8 => simp [decodeGroups]

theorem decodeGroups_length (accepted : (decodeGroups text).2 = true) :
    (decodeGroups text).1.length = decodedLength text.length := by
  induction text using decodeGroups.induct with
  | case1 a b c d rest va vb vc vd hd hc hb ha ih =>
    rw [decodeGroups] at accepted ⊢
    simp only [ha, hb, hc, hd] at accepted ⊢
    have later := ih accepted
    have groups : (rest.length + 4) % 4 = rest.length % 4 := Nat.add_mod_right _ _
    simp only [List.length_cons, later, decodedLength, Nat.add_assoc, Nat.reduceAdd, groups]
    omega
  | case2 a b c d rest foreign =>
    rw [decodeGroups] at accepted
    split at accepted
    · next va vb vc vd ha hb hc hd => exact (foreign va vb vc vd ha hb hc hd).elim
    · cases accepted
  | case3 a b c va vb vc hc hb ha => simp [decodeGroups, ha, hb, hc, decodedLength]
  | case4 a b c foreign =>
    rw [decodeGroups] at accepted
    split at accepted
    · next va vb vc ha hb hc => exact (foreign va vb vc ha hb hc).elim
    · cases accepted
  | case5 a b va vb hb ha => simp [decodeGroups, ha, hb, decodedLength]
  | case6 a b foreign =>
    rw [decodeGroups] at accepted
    split at accepted
    · next va vb ha hb => exact (foreign va vb ha hb).elim
    · cases accepted
  | case7 a => cases accepted
  | case8 => rfl

/-! ## The functions -/

theorem unpadded_replicate (text : List Byte) (pads : Nat) :
    unpadded (text ++ List.replicate pads 61) = unpadded text := by
  induction pads with
  | zero => rw [List.replicate_zero, List.append_nil]
  | succ pads ih =>
    rw [List.replicate_succ', ← List.append_assoc, unpadded, List.reverse_append, List.reverse_singleton,
      List.singleton_append, List.dropWhile_cons_of_pos rfl]
    exact ih

theorem takeWhile_encode (bytes : List Byte) (pads : Nat) (tail : List Byte) :
    (encode bytes ++ List.replicate pads 61 ++ 0 :: tail).takeWhile (· ≠ 0) = encode bytes ++ List.replicate pads 61 := by
  have symbols : ∀ n : Fin 64, symbol n.val ≠ 0 := by decide +kernel
  have plain : ∀ c ∈ encode bytes ++ List.replicate pads 61, decide (c ≠ 0) = true := by
    intro c member
    rcases List.mem_append.mp member with coded | padding
    · obtain ⟨n, small, rfl⟩ := mem_encode c coded
      exact decide_eq_true (symbols ⟨n, small⟩)
    · rw [List.eq_of_mem_replicate padding]
      rfl
  rw [List.takeWhile_append_of_pos plain, List.takeWhile_cons_of_neg (by decide), List.append_nil]

theorem b64urlEncode_eq (input : List Byte) (out : Buffer) (outCap : Nat) :
    b64urlEncode input out outCap =
      if outCap < (encode input).length + 1 then (0, out)
      else ((encode input).length, store out 0 (encode input ++ [0])) := by
  rw [b64urlEncode, b64urlEncodedLen, Nat.mul_comm, ← encode_length]
  split
  · rfl
  · rw [encodeGroups_eq, store_append, Nat.zero_add]
    rfl

/-- The text that b64url_decode reads: up to the NUL, without the padding. -/
def bare (input : List Byte) : List Byte := unpadded (input.takeWhile (· ≠ 0))

/-- What b64url_decode accepts into so many bytes. -/
def Accepted (text : List Byte) (outCap : Nat) : Prop :=
  (∀ c ∈ text, value c ≠ none) ∧ text.length % 4 ≠ 1 ∧ decodedLength text.length ≤ outCap

theorem b64urlDecode_eq (input : List Byte) (out : Buffer) (outCap : Nat) :
    b64urlDecode input out outCap =
      if (bare input).length % 4 = 1 ∨ outCap < decodedLength (bare input).length then (none, out)
      else
        (if (decodeGroups (bare input)).2 then some (decodeGroups (bare input)).1.length else none,
          store out 0 (decodeGroups (bare input)).1) := by
  have decoded : (bare input).length / 4 * 3 +
      (if (bare input).length % 4 ≠ 0 then (bare input).length % 4 - 1 else 0) = decodedLength (bare input).length := by
    rw [decodedLength, ite_not]
  rw [b64urlDecode, ← bare]
  dsimp only
  rw [decoded]
  rcases Decidable.em ((bare input).length % 4 = 1) with single | whole
  · rw [if_pos single, if_pos (.inl single)]
  · rw [if_neg whole]
    split
    · next short => rw [if_pos (.inr short)]
    · next room =>
        rw [if_neg (not_or.mpr ⟨whole, room⟩), decodeLoop_eq _ _ _ whole, Nat.zero_add]

theorem b64urlDecode_accepts (input : List Byte) (out : Buffer) (outCap : Nat) :
    (b64urlDecode input out outCap).1.isSome = true ↔ Accepted (bare input) outCap := by
  rw [b64urlDecode_eq, Accepted]
  split
  · next refused =>
      refine ⟨fun wrong => (Bool.false_ne_true wrong).elim, fun ⟨_, whole, room⟩ => ?_⟩
      rcases refused with single | short
      · exact absurd single whole
      · exact absurd room (Nat.not_le.mpr short)
  · next taken =>
      rw [not_or, Nat.not_lt] at taken
      have groups := decodeGroups_accepts (bare input)
      constructor
      · intro found
        dsimp only at found
        split at found
        · next accepted => exact ⟨(groups.mp accepted).2, taken⟩
        · cases found
      · rintro ⟨native, whole, _⟩
        dsimp only
        rw [if_pos (groups.mpr ⟨whole, native⟩)]
        rfl

theorem b64urlDecode_beyond (input : List Byte) (out : Buffer) {i : Nat} (beyond : cap ≤ i) :
    (b64urlDecode input out cap).2 i = out i := by
  rw [b64urlDecode_eq]
  split
  · rfl
  · next taken =>
      rw [not_or, Nat.not_lt] at taken
      have most := decodeGroups_length_le (bare input)
      exact store_beyond (by omega) beyond

theorem b64urlEncode_beyond (input : List Byte) (out : Buffer) {i : Nat} (beyond : cap ≤ i) :
    (b64urlEncode input out cap).2 i = out i := by
  rw [b64urlEncode_eq]
  split
  · rfl
  · next room =>
      rw [Nat.not_lt] at room
      exact store_beyond (by rw [List.length_append, Nat.zero_add]; exact room) beyond

theorem b64urlEncode_text (room : (encode bytes).length + 1 ≤ cap) :
    let sent := b64urlEncode bytes out cap
    sent.1 = (encode bytes).length ∧ cells sent.2 sent.1 = encode bytes ∧ sent.2 sent.1 = 0 := by
  rw [b64urlEncode_eq, if_neg (Nat.not_lt.mpr room)]
  refine ⟨rfl, ?_, ?_⟩
  · have whole := cells_store out (encode bytes ++ [0])
    rw [List.length_append, List.length_singleton, cells, List.range_succ, List.map_append] at whole
    exact List.append_inj_left' whole rfl
  · rw [store_append, Nat.zero_add]
    exact Function.update_self ..

theorem b64urlDecode_text (pads : Nat) (tail : List Byte) (fits : bytes.length ≤ cap) :
    let got := b64urlDecode (encode bytes ++ List.replicate pads 61 ++ 0 :: tail) out cap
    got.1 = some bytes.length ∧ cells got.2 bytes.length = bytes := by
  have text : bare (encode bytes ++ List.replicate pads 61 ++ 0 :: tail) = encode bytes := by
    rw [bare, takeWhile_encode, unpadded_replicate, unpadded_encode]
  have whole := (decodeGroups_accepts (encode bytes)).mp (by rw [decodeGroups_encode])
  have room : decodedLength (encode bytes).length = bytes.length := by
    rw [← decodeGroups_length (by rw [decodeGroups_encode]), decodeGroups_encode]
  rw [b64urlDecode_eq, text, room, if_neg (not_or.mpr ⟨whole.1, Nat.not_lt.mpr fits⟩), decodeGroups_encode]
  exact ⟨rfl, cells_store out bytes⟩

/-- b64url_decode inverts b64url_encode, with any padding; it accepts the texts of the alphabet whose groups
and whose decoded length are right, and neither function writes outside the buffer it was given. -/
theorem b64url_inverts :
    (∀ (bytes tail : List Byte) (pads : Nat) (out out' : Buffer) (cap cap' : Nat),
      (4 * bytes.length + 2) / 3 + 1 ≤ cap → bytes.length ≤ cap' →
        let sent := b64urlEncode bytes out cap
        let got := b64urlDecode (cells sent.2 sent.1 ++ List.replicate pads 61 ++ 0 :: tail) out' cap'
        sent.1 = (4 * bytes.length + 2) / 3 ∧ sent.2 sent.1 = 0 ∧
          got.1 = some bytes.length ∧ cells got.2 bytes.length = bytes) ∧
    (∀ (input : List Byte) (out : Buffer) (outCap : Nat),
      (b64urlDecode input out outCap).1.isSome = true ↔ Accepted (bare input) outCap) ∧
    (∀ (input : List Byte) (out : Buffer) (outCap i : Nat), outCap ≤ i →
      (b64urlDecode input out outCap).2 i = out i) ∧
    ∀ (input : List Byte) (out : Buffer) (outCap i : Nat), outCap ≤ i →
      (b64urlEncode input out outCap).2 i = out i := by
  refine ⟨?_, b64urlDecode_accepts, fun input out _ _ => b64urlDecode_beyond input out,
    fun input out _ _ => b64urlEncode_beyond input out⟩
  intro bytes tail pads out out' cap cap' room fits
  rw [← encode_length] at room ⊢
  obtain ⟨length_eq, text, ended⟩ := @b64urlEncode_text out _ _ room
  refine ⟨length_eq, ended, ?_⟩
  rw [text]
  exact b64urlDecode_text pads tail fits

/-- Two bytes through a buffer of four, one character of padding added. -/
theorem b64url_inverts_two :
    let sent := b64urlEncode [0xFB, 0xFF] (fun _ => 0xAA) 4
    let got := b64urlDecode (cells sent.2 sent.1 ++ [61] ++ [0]) (fun _ => 0xAA) 2
    sent.1 = 3 ∧ sent.2 sent.1 = 0 ∧ got.1 = some 2 ∧ cells got.2 2 = [0xFB, 0xFF] :=
  b64url_inverts.1 [0xFB, 0xFF] [] 1 (fun _ => 0xAA) (fun _ => 0xAA) 4 2 (by decide) (by decide)

end BenchPod.B64url
