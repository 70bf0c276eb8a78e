import BenchPod.Library.Fields
import BenchPod.Library.Sha256

/-!
# hmac_sha256.c

A message comes in pieces of any length and is hashed as soon as 64 bytes of it are together; the padding and
the length at its end take the same way.  HMAC runs two such messages, each behind a block made from the key.
-/

namespace BenchPod.HmacSha256

open Endian Fields
open Sha256 (State)

/-- `K` -/
def kTable : List Word :=
  [0x428a2f98, 0x71374491, 0xb5c0fbcf, 0xe9b5dba5, 0x3956c25b, 0x59f111f1, 0x923f82a4, 0xab1c5ed5,
    0xd807aa98, 0x12835b01, 0x243185be, 0x550c7dc3, 0x72be5d74, 0x80deb1fe, 0x9bdc06a7, 0xc19bf174,
    0xe49b69c1, 0xefbe4786, 0x0fc19dc6, 0x240ca1cc, 0x2de92c6f, 0x4a7484aa, 0x5cb0a9dc, 0x76f988da,
    0x983e5152, 0xa831c66d, 0xb00327c8, 0xbf597fc7, 0xc6e00bf3, 0xd5a79147, 0x06ca6351, 0x14292967,
    0x27b70a85, 0x2e1b2138, 0x4d2c6dfc, 0x53380d13, 0x650a7354, 0x766a0abb, 0x81c2c92e, 0x92722c85,
    0xa2bfe8a1, 0xa81a664b, 0xc24b8b70, 0xc76c51a3, 0xd192e819, 0xd6990624, 0xf40e3585, 0x106aa070,
    0x19a4c116, 0x1e376c08, 0x2748774c, 0x34b0bcb5, 0x391c0cb3, 0x4ed8aa4a, 0x5b9cca4f, 0x682e6ff3,
    0x748f82ee, 0x78a5636f, 0x84c87814, 0x8cc70208, 0x90befffa, 0xa4506ceb, 0xbef9a3f7, 0xc67178f2]

/-- `H0` -/
def h0Table : State where
  a := 0x6a09e667
  b := 0xbb67ae85
  c := 0x3c6ef372
  d := 0xa54ff53a
  e := 0x510e527f
  f := 0x9b05688c
  g := 0x1f83d9ab
  h := 0x5be0cd19

def ror (x : Word) (n : Nat) : Word := x >>> n ||| x <<< (32 - n)

/-- The first loop of block: `w[0]` to `w[15]`. -/
def loadWords (p : List Byte) : List Word :=
  (List.range 16).map fun i =>
    (p.getD (4 * i) 0).setWidth 32 <<< 24 ||| (p.getD (4 * i + 1) 0).setWidth 32 <<< 16 |||
      (p.getD (4 * i + 2) 0).setWidth 32 <<< 8 ||| (p.getD (4 * i + 3) 0).setWidth 32

/-- One pass of the second loop. -/
def extendWords (w : List Word) (i : Nat) : List Word :=
  let s0 := ror (w.getD (i - 15) 0) 7 ^^^ ror (w.getD (i - 15) 0) 18 ^^^ w.getD (i - 15) 0 >>> 3
  let s1 := ror (w.getD (i - 2) 0) 17 ^^^ ror (w.getD (i - 2) 0) 19 ^^^ w.getD (i - 2) 0 >>> 10
  w ++ [w.getD (i - 16) 0 + s0 + w.getD (i - 7) 0 + s1]

/-- One pass of the third loop. -/
def turn (w : List Word) (s : State) (i : Nat) : State :=
  let t1 := s.h + (ror s.e 6 ^^^ ror s.e 11 ^^^ ror s.e 25) + ((s.e &&& s.f) ^^^ (~~~s.e &&& s.g)) +
    kTable.getD i 0 + w.getD i 0
  let t2 := (ror s.a 2 ^^^ ror s.a 13 ^^^ ror s.a 22) + ((s.a &&& s.b) ^^^ (s.a &&& s.c) ^^^ (s.b &&& s.c))
  { a := t1 + t2, b := s.a, c := s.b, d := s.c, e := s.d + t1, f := s.e, g := s.f, h := s.g }

def block (h : State) (p : List Byte) : State :=
  let w := (List.range' 16 48).foldl extendWords (loadWords p)
  let last := (List.range 64).foldl (turn w) h
  { a := h.a + last.a, b := h.b + last.b, c := h.c + last.c, d := h.d + last.d, e := h.e + last.e
    f := h.f + last.f, g := h.g + last.g, h := h.h + last.h }

/-- `sha256_ctx_t`; between calls the buffer is never full. -/
structure Sha256Ctx where
  h : State
  len : BitVec 64
  buf : Vector Byte 64
  used : Fin 64

/-- sha256_init over whatever the buffer holds. -/
def sha256Init (buf : Vector Byte 64) : Sha256Ctx where
  h := h0Table
  len := 0
  buf
  used := 0

/-- `memcpy(c->buf + c->used, p, n)`. -/
def fillBuf (buf : Vector Byte 64) (used : Nat) (bytes : List Byte) : Vector Byte 64 :=
  Vector.ofFn fun i => if i < used then buf[i] else bytes.getD (i - used) buf[i]

/-- The loop of sha256_update. -/
def updateLoop (c : Sha256Ctx) (p : List Byte) : Sha256Ctx :=
  match p with
  | [] => c
  | byte :: more =>
    let n := min (64 - c.used.val) (byte :: more).length
    let buf := fillBuf c.buf c.used ((byte :: more).take n)
    if room : c.used.val + n < 64 then
      updateLoop { c with buf, used := ⟨c.used.val + n, room⟩ } ((byte :: more).drop n)
    else updateLoop { c with h := block c.h buf.toList, buf, used := 0 } ((byte :: more).drop n)
termination_by p.length
decreasing_by
  all_goals
    have := c.used.isLt
    simp only [List.length_drop, List.length_cons]
    omega

def sha256Update (c : Sha256Ctx) (data : List Byte) : Sha256Ctx :=
  updateLoop { c with len := c.len + BitVec.ofNat 64 data.length } data

/-- The loop of sha256_final up to where the length goes. -/
def padLoop (c : Sha256Ctx) : Nat → Sha256Ctx
  | 0 => c
  | fuel + 1 => if c.used.val ≠ 56 then padLoop (sha256Update c [0]) fuel else c

def sha256Final (c : Sha256Ctx) : List Byte :=
  let bits := c.len * 8
  let c := padLoop (sha256Update c [0x80]) 64
  let l := (List.range 8).map fun i => (bits >>> (56 - 8 * i)).setWidth 8
  let c := sha256Update c l
  be32 c.h.a ++ be32 c.h.b ++ be32 c.h.c ++ be32 c.h.d ++ be32 c.h.e ++ be32 c.h.f ++ be32 c.h.g ++ be32 c.h.h

variable {c : Sha256Ctx} {message p bytes : List Byte} {h : State} {buf : Vector Byte 64}

/-! ## A block -/

theorem ror_eq (x : Word) {n : Nat} (small : n < 32) : ror x n = x.rotateRight n := by
  rw [ror, BitVec.rotateRight_def, Nat.mod_eq_of_lt small]

theorem kTable_eq : kTable = (List.range 64).map Sha256.k := by decide +kernel

theorem h0Table_eq : h0Table = Sha256.initial := by decide +kernel

theorem kTable_getD {t : Nat} (inside : t < 64) : kTable.getD t 0 = Sha256.k t := by
  rw [kTable_eq, List.getD_eq_getElem _ _ (by simpa using inside), List.getElem_map, List.getElem_range]

theorem quad_toNat (a b c d : Byte) :
    (a.setWidth 32 <<< 24 ||| b.setWidth 32 <<< 16 ||| c.setWidth 32 <<< 8 ||| d.setWidth 32 : Word) =
      getBe32 [a, b, c, d] := by
  have ha := a.isLt
  have hb := b.isLt
  have hc := c.isLt
  have hd := d.isLt
  have wide (x : Byte) {shift : Nat} (fits : shift ≤ 24) : (x.setWidth 32 <<< shift : Word).toNat = x.toNat <<< shift := by
    have most : x.toNat * 2 ^ shift < 256 * 2 ^ 24 :=
      Nat.mul_lt_mul_of_lt_of_le x.isLt (Nat.pow_le_pow_right (by decide) fits) (by decide)
    rw [BitVec.toNat_shiftLeft, BitVec.toNat_setWidth_of_le (by decide), Nat.shiftLeft_eq]
    exact Nat.mod_eq_of_lt (Nat.lt_of_lt_of_le most (by decide))
  have low : c.toNat <<< 8 ||| d.toNat = c.toNat * 256 + d.toNat := by
    rw [← Nat.shiftLeft_add_eq_or_of_lt hd, Nat.shiftLeft_eq]
  have middle : b.toNat <<< 16 ||| (c.toNat * 256 + d.toNat) = b.toNat * 65536 + (c.toNat * 256 + d.toNat) := by
    rw [← Nat.shiftLeft_add_eq_or_of_lt (by omega), Nat.shiftLeft_eq]
  have high : a.toNat <<< 24 ||| (b.toNat * 65536 + (c.toNat * 256 + d.toNat)) =
      a.toNat * 16777216 + (b.toNat * 65536 + (c.toNat * 256 + d.toNat)) := by
    rw [← Nat.shiftLeft_add_eq_or_of_lt (by omega), Nat.shiftLeft_eq]
  apply BitVec.eq_of_toNat_eq
  rw [BitVec.toNat_or, BitVec.toNat_or, BitVec.toNat_or, wide a (by decide), wide b (by decide), wide c (by decide),
    BitVec.toNat_setWidth_of_le (by decide), Nat.or_assoc, Nat.or_assoc, low, middle, high]
  simp only [getBe32, beNat, leNat, List.reverse_cons, List.reverse_nil, List.nil_append, List.cons_append,
    BitVec.toNat_ofNat]
  omega

theorem loadWords_eq (whole : p.length = 64) : loadWords p = (List.range 16).map (Sha256.schedule p) := by
  apply List.map_congr_left
  intro t member
  rw [List.mem_range] at member
  rw [Sha256.schedule, if_pos member, Sha256.blockWord]
  have four : 4 ≤ (p.drop (4 * t)).length := by
    rw [List.length_drop, whole]
    omega
  have shifted (j : Nat) : p.getD (4 * t + j) 0 = (p.drop (4 * t)).getD j 0 := by
    rw [List.getD_eq_getElem?_getD, List.getD_eq_getElem?_getD, List.getElem?_drop]
  rw [shifted 1, shifted 2, shifted 3, ← Nat.add_zero (4 * t), shifted 0, Nat.add_zero]
  match rest : p.drop (4 * t), four with
  | a :: b :: c :: d :: more, _ => exact quad_toNat a b c d

theorem words_eq (whole : p.length = 64) (count : Nat) :
    (List.range' 16 count).foldl extendWords (loadWords p) = (List.range (16 + count)).map (Sha256.schedule p) := by
  induction count with
  | zero => exact loadWords_eq whole
  | succ count ih =>
    rw [List.range'_concat, List.foldl_append, ih, Nat.one_mul, List.foldl_cons, List.foldl_nil, extendWords]
    have known {i : Nat} (before : i < 16 + count) :
        ((List.range (16 + count)).map (Sha256.schedule p)).getD i 0 = Sha256.schedule p i := by
      rw [List.getD_eq_getElem _ _ (by simpa using before), List.getElem_map, List.getElem_range]
    rw [known (by omega), known (by omega), known (by omega), known (by omega), ← Nat.add_assoc, List.range_succ,
      List.map_append]
    congr 1
    rw [List.map_singleton, Sha256.schedule.eq_def p (16 + count), if_neg (by omega), Sha256.smallSigma0,
      Sha256.smallSigma1, ror_eq _ (by decide), ror_eq _ (by decide), ror_eq _ (by decide), ror_eq _ (by decide)]
    congr 1
    ac_rfl

theorem turn_eq (whole : p.length = 64) (s : State) {t : Nat} (inside : t < 64) :
    turn ((List.range' 16 48).foldl extendWords (loadWords p)) s t = Sha256.round (Sha256.schedule p) s t := by
  have word : ((List.range' 16 48).foldl extendWords (loadWords p)).getD t 0 = Sha256.schedule p t := by
    rw [words_eq whole, List.getD_eq_getElem _ _ (by simpa using inside), List.getElem_map, List.getElem_range]
  rw [turn, word, kTable_getD inside, ror_eq _ (by decide), ror_eq _ (by decide), ror_eq _ (by decide),
    ror_eq _ (by decide), ror_eq _ (by decide), ror_eq _ (by decide)]
  rfl

theorem block_eq (whole : p.length = 64) (h : State) : block h p = Sha256.compress h p := by
  have rounds : (List.range 64).foldl (turn ((List.range' 16 48).foldl extendWords (loadWords p))) h =
      (List.range 64).foldl (Sha256.round (Sha256.schedule p)) h := by
    apply List.foldl_ext
    intro s t member
    exact turn_eq whole s (List.mem_range.mp member)
  rw [block, Sha256.compress, rounds]

/-! ## Pieces of a message -/

/-- A context that has taken a message: the hash of its whole blocks, and the rest of it. -/
structure Taken (c : Sha256Ctx) (message : List Byte) : Prop where
  hash : c.h = Sha256.blocks message (message.length / 64)
  used : c.used.val = message.length % 64
  rest : c.buf.toList.take c.used.val = message.drop (64 * (message.length / 64))

theorem fillBuf_take (buf : Vector Byte 64) (used : Nat) (bytes : List Byte) (fits : used + bytes.length ≤ 64) :
    (fillBuf buf used bytes).toList.take (used + bytes.length) = buf.toList.take used ++ bytes := by
  apply List.ext_getElem
  · simp only [List.length_take, List.length_append, Vector.length_toList]
    omega
  · intro i inside inside'
    have below : i < used + bytes.length := by
      rw [List.length_take] at inside
      omega
    have within : i < 64 := by omega
    have cell : (fillBuf buf used bytes)[i] = if i < used then buf[i] else bytes.getD (i - used) buf[i] :=
      Vector.getElem_ofFn ..
    have front : (buf.toList.take used).length = used := List.length_take_of_le (by rw [Vector.length_toList]; omega)
    rw [List.getElem_take, Vector.getElem_toList, cell, List.getElem_append]
    split
    · next old => rw [dif_pos (by rw [front]; exact old), List.getElem_take, Vector.getElem_toList]
    · next new =>
        rw [dif_neg (by rw [front]; exact new), List.getD_eq_getElem _ _ (by omega)]
        simp only [front]

theorem Taken.fill (taken : Taken c message) {bytes : List Byte} (room : c.used.val + bytes.length < 64) :
    Taken { c with buf := fillBuf c.buf c.used bytes, used := ⟨c.used.val + bytes.length, room⟩ } (message ++ bytes) := by
  have used := taken.used
  have count : (message ++ bytes).length / 64 = message.length / 64 := by
    rw [List.length_append]
    omega
  have within : 64 * (message.length / 64) ≤ message.length := by omega
  refine ⟨?_, ?_, ?_⟩
  · rw [count, Sha256.blocks_append _ within, ← taken.hash]
  · rw [List.length_append]
    change c.used.val + bytes.length = _
    omega
  · dsimp only
    rw [fillBuf_take _ _ _ (Nat.le_of_lt room), taken.rest, count, List.drop_append_of_le_length within]

theorem Taken.turn (taken : Taken c message) {bytes : List Byte} (full : c.used.val + bytes.length = 64) :
    Taken
      { c with
        h := block c.h (fillBuf c.buf c.used bytes).toList
        buf := fillBuf c.buf c.used bytes
        used := 0 }
      (message ++ bytes) := by
  have used := taken.used
  have count : (message ++ bytes).length / 64 = message.length / 64 + 1 := by
    rw [List.length_append]
    omega
  have whole : 64 * (message.length / 64 + 1) = (message ++ bytes).length := by
    rw [List.length_append]
    omega
  have within : 64 * (message.length / 64) ≤ message.length := by omega
  have filled : (fillBuf c.buf c.used bytes).toList = (message ++ bytes).drop (64 * (message.length / 64)) := by
    have all := fillBuf_take c.buf c.used bytes (Nat.le_of_eq full)
    rw [full, List.take_of_length_le (Nat.le_of_eq (Vector.length_toList ..)), taken.rest] at all
    rw [all, List.drop_append_of_le_length within]
  have size : (fillBuf c.buf c.used bytes).toList.length = 64 := Vector.length_toList ..
  refine ⟨?_, ?_, ?_⟩
  · dsimp only
    rw [block_eq size, taken.hash, count, Sha256.blocks_succ, Sha256.blocks_append _ within, ← filled,
      List.take_of_length_le (Nat.le_of_eq size)]
  · rw [← whole, Nat.mul_mod_right]
    rfl
  · rw [count, whole, List.drop_length]
    exact List.take_zero

theorem updateLoop_taken (c : Sha256Ctx) (p message : List Byte) (taken : Taken c message) :
    Taken (updateLoop c p) (message ++ p) ∧ (updateLoop c p).len = c.len := by
  induction c, p using updateLoop.induct generalizing message with
  | case1 c =>
    rw [updateLoop, List.append_nil]
    exact ⟨taken, rfl⟩
  | case2 c byte more n buf room ih =>
    have piece : ((byte :: more).take n).length = n := List.length_take_of_le (Nat.min_le_right ..)
    have room' : c.used.val + ((byte :: more).take n).length < 64 := by
      rw [piece]
      exact room
    have filled := taken.fill room'
    have used_eq : (⟨c.used.val + ((byte :: more).take n).length, by rw [piece]; exact room⟩ : Fin 64) =
        ⟨c.used.val + n, room⟩ := Fin.ext (congrArg (c.used.val + ·) piece)
    rw [used_eq] at filled
    have later := ih _ filled
    rw [List.append_assoc, List.take_append_drop] at later
    rw [updateLoop, dif_pos room]
    exact later
  | case3 c byte more n buf full ih =>
    have piece : ((byte :: more).take n).length = n := List.length_take_of_le (Nat.min_le_right ..)
    have below := c.used.isLt
    have whole : c.used.val + ((byte :: more).take n).length = 64 := by
      rw [piece]
      omega
    have later := ih _ (taken.turn whole)
    rw [List.append_assoc, List.take_append_drop] at later
    rw [updateLoop, dif_neg full]
    exact later

/-- A context that holds a message, with its length. -/
structure Holds (c : Sha256Ctx) (message : List Byte) : Prop where
  taken : Taken c message
  len : c.len = BitVec.ofNat 64 message.length

theorem sha256Init_holds (buf : Vector Byte 64) : Holds (sha256Init buf) [] := ⟨⟨h0Table_eq, rfl, rfl⟩, rfl⟩

theorem Holds.update (holds : Holds c message) (data : List Byte) : Holds (sha256Update c data) (message ++ data) := by
  have taken : Taken { c with len := c.len + BitVec.ofNat 64 data.length } message :=
    ⟨holds.taken.hash, holds.taken.used, holds.taken.rest⟩
  obtain ⟨after, len_eq⟩ := updateLoop_taken _ data message taken
  refine ⟨after, ?_⟩
  rw [sha256Update, len_eq, List.length_append, BitVec.ofNat_add, ← holds.len]

theorem Holds.updates (holds : Holds c message) (pieces : List (List Byte)) :
    Holds (pieces.foldl sha256Update c) (message ++ pieces.flatten) := by
  induction pieces generalizing c message with
  | nil =>
    rw [List.flatten_nil, List.append_nil]
    exact holds
  | cons piece pieces ih =>
    have later := ih (holds.update piece)
    rw [List.append_assoc] at later
    exact later

theorem padLoop_holds (holds : Holds c message) {zeros fuel : Nat} (few : zeros < fuel)
    (last : (message.length + zeros) % 64 = 56) (first : ∀ i < zeros, (message.length + i) % 64 ≠ 56) :
    Holds (padLoop c fuel) (message ++ List.replicate zeros 0) := by
  induction fuel generalizing c message zeros with
  | zero => omega
  | succ fuel ih =>
    cases zeros with
    | zero =>
      have done : c.used.val = 56 := holds.taken.used.trans last
      rw [padLoop, if_neg (not_not.mpr done), List.replicate_zero, List.append_nil]
      exact holds
    | succ zeros =>
      have more : c.used.val ≠ 56 := by
        rw [holds.taken.used]
        exact first 0 (Nat.succ_pos _)
      have shift (i : Nat) : (message ++ [0]).length + i = message.length + (i + 1) := by
        rw [List.length_append, List.length_singleton, Nat.add_assoc, Nat.add_comm 1]
      have few' : zeros < fuel := Nat.lt_of_succ_lt_succ few
      have later := ih (holds.update [0]) few' (by rw [shift]; exact last) fun i before => by
        rw [shift]
        exact first (i + 1) (Nat.succ_lt_succ before)
      rw [padLoop, if_pos more]
      rw [List.append_assoc] at later
      exact later

theorem length_bytes (length : Nat) :
    ((List.range 8).map fun i => ((BitVec.ofNat 64 length * 8) >>> (56 - 8 * i)).setWidth 8) =
      beBytes 8 (8 * length) := by
  have byte {shift value : Nat} (here : (length % 2 ^ 64 * 8 % 2 ^ 64) / 2 ^ shift % 256 = value % 256) :
      ((BitVec.ofNat 64 length * 8) >>> shift).setWidth 8 = BitVec.ofNat 8 value := by
    apply BitVec.eq_of_toNat_eq
    rw [BitVec.toNat_setWidth, BitVec.toNat_ushiftRight, BitVec.toNat_mul, BitVec.toNat_ofNat, BitVec.toNat_ofNat,
      Nat.shiftRight_eq_div_pow]
    exact here
  have laid : beBytes 8 (8 * length) = [BitVec.ofNat 8 (8 * length / 256 / 256 / 256 / 256 / 256 / 256 / 256),
        BitVec.ofNat 8 (8 * length / 256 / 256 / 256 / 256 / 256 / 256),
        BitVec.ofNat 8 (8 * length / 256 / 256 / 256 / 256 / 256), BitVec.ofNat 8 (8 * length / 256 / 256 / 256 / 256),
        BitVec.ofNat 8 (8 * length / 256 / 256 / 256), BitVec.ofNat 8 (8 * length / 256 / 256),
        BitVec.ofNat 8 (8 * length / 256), BitVec.ofNat 8 (8 * length)] := rfl
  have positions : List.range 8 = [0, 1, 2, 3, 4, 5, 6, 7] := by decide
  rw [laid, positions]
  simp only [List.map_cons, List.map_nil]
  rw [byte, byte, byte, byte, byte, byte, byte, byte]
  all_goals omega

theorem sha256Final_eq (holds : Holds c message) : sha256Final c = Sha256.hash message := by
  have padded := padLoop_holds (holds.update [0x80]) (Sha256.zeros_lt message.length)
    (by rw [List.length_append, List.length_singleton]; exact Sha256.length_zeros _)
    (by
      intro i before
      rw [List.length_append, List.length_singleton]
      rw [Sha256.zeros] at before
      omega)
  have whole := padded.update (beBytes 8 (8 * message.length))
  have message_eq : message ++ [0x80] ++ List.replicate (Sha256.zeros message.length) 0 ++
      beBytes 8 (8 * message.length) = Sha256.pad message := by
    rw [Sha256.pad, List.append_assoc message]
    rfl
  rw [message_eq] at whole
  rw [sha256Final, holds.len, length_bytes, whole.taken.hash]
  rfl

/-- `hmac_sha256_ctx_t` -/
structure HmacSha256Ctx where
  inner : Sha256Ctx
  opadKey : List Byte

/-- The key that hmac_sha256_init makes from the caller's. -/
def hmacKey (key : List Byte) (buf : Vector Byte 64) : List Byte :=
  let k := List.replicate 64 0
  if 64 < key.length then put k (0, sha256Final (sha256Update (sha256Init buf) key)) else put k (0, key)

/-- hmac_sha256_init over whatever the buffers of its contexts hold. -/
def hmacSha256Init (key : List Byte) (buf buf' : Vector Byte 64) : HmacSha256Ctx :=
  let k := hmacKey key buf
  { inner := sha256Update (sha256Init buf') (k.map (· ^^^ 0x36)), opadKey := k.map (· ^^^ 0x5C) }

def hmacSha256Update (c : HmacSha256Ctx) (data : List Byte) : HmacSha256Ctx :=
  { c with inner := sha256Update c.inner data }

def hmacSha256Final (c : HmacSha256Ctx) (buf : Vector Byte 64) : List Byte :=
  let ih := sha256Final c.inner
  sha256Final (sha256Update (sha256Update (sha256Init buf) c.opadKey) ih)

theorem hmacKey_eq (key : List Byte) (buf : Vector Byte 64) : hmacKey key buf = Sha256.blockKey Sha256.hash 64 key := by
  have filled (short : List Byte) (fits : short.length ≤ 64) :
      put (List.replicate 64 0) (0, short) = short ++ List.replicate (64 - short.length) (0 : Byte) := by
    rw [put, List.take_zero, List.nil_append, Nat.zero_add, List.drop_replicate]
  rw [hmacKey, Sha256.blockKey]
  split
  · have hashed := sha256Final_eq ((sha256Init_holds buf).update key)
    rw [List.nil_append] at hashed
    rw [hashed, filled _ (by rw [Sha256.hash_length]; decide)]
  · next short => exact filled key (Nat.not_lt.mp short)

theorem hmacSha256Final_eq (key : List Byte) (pieces : List (List Byte)) (buf buf' buf'' : Vector Byte 64) :
    hmacSha256Final (pieces.foldl hmacSha256Update (hmacSha256Init key buf buf')) buf'' =
      Sha256.hmac Sha256.hash 64 key pieces.flatten := by
  have apart (c : HmacSha256Ctx) : pieces.foldl hmacSha256Update c =
      { c with inner := pieces.foldl sha256Update c.inner } := by
    induction pieces generalizing c with
    | nil => rfl
    | cons piece pieces ih => exact ih _
  rw [apart, hmacSha256Final, hmacSha256Init, hmacKey_eq, Sha256.hmac]
  generalize Sha256.blockKey Sha256.hash 64 key = k
  have inner := sha256Final_eq (((sha256Init_holds buf').update (k.map (· ^^^ 0x36))).updates pieces)
  rw [List.nil_append] at inner
  have outer := sha256Final_eq (((sha256Init_holds buf'').update (k.map (· ^^^ 0x5C))).update
    (Sha256.hash (k.map (· ^^^ 0x36) ++ pieces.flatten)))
  rw [List.nil_append] at outer
  rw [inner, outer]

/-- However a message is cut into pieces, sha256_final returns its SHA-256 and hmac_sha256_final its HMAC. -/
theorem sha256_standard (message key : List Byte) (pieces : List (List Byte)) (buf buf' buf'' : Vector Byte 64)
    (cut : pieces.flatten = message) :
    sha256Final (pieces.foldl sha256Update (sha256Init buf)) = Sha256.hash message ∧
      hmacSha256Final (pieces.foldl hmacSha256Update (hmacSha256Init key buf buf')) buf'' =
        Sha256.hmac Sha256.hash 64 key message := by
  subst cut
  exact ⟨sha256Final_eq ((sha256Init_holds buf).updates pieces), hmacSha256Final_eq key pieces buf buf' buf''⟩

/-- Four bytes in three pieces, one of them empty. -/
theorem sha256_standard_pieces :
    let buf := Vector.replicate 64 0
    sha256Final ([[1], [], [2, 3, 4]].foldl sha256Update (sha256Init buf)) = Sha256.hash [1, 2, 3, 4] ∧
      hmacSha256Final ([[1], [], [2, 3, 4]].foldl hmacSha256Update (hmacSha256Init [7] buf buf)) buf =
        Sha256.hmac Sha256.hash 64 [7] [1, 2, 3, 4] :=
  sha256_standard [1, 2, 3, 4] [7] [[1], [], [2, 3, 4]] _ _ _ rfl

end BenchPod.HmacSha256
