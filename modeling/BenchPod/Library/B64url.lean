import BenchPod.Library.Word

/-!
# Base64url without padding

Groups of three bytes become four symbols of six bits each, and a last group of one or two bytes
becomes two or three symbols.  A decoder that writes group by group may have written some of them
when it meets a symbol outside the alphabet.
-/

namespace BenchPod.B64url

/-- The symbol of a value below 64. -/
def symbol (value : Nat) : Byte :=
  if value < 26 then BitVec.ofNat 8 (65 + value)
  else if value < 52 then BitVec.ofNat 8 (71 + value)
  else if value < 62 then BitVec.ofNat 8 (value - 4)
  else if value = 62 then 45
  else 95

/-- The value of a symbol. -/
def value (symbol : Byte) : Option Nat :=
  let c := symbol.toNat
  if 65 ≤ c ∧ c ≤ 90 then some (c - 65)
  else if 97 ≤ c ∧ c ≤ 122 then some (c - 71)
  else if 48 ≤ c ∧ c ≤ 57 then some (c + 4)
  else if c = 45 then some 62
  else if c = 95 then some 63
  else none

/-- The symbols of a byte string. -/
def encode : List Byte → List Byte
  | a :: b :: c :: rest =>
    symbol (a.toNat / 4) :: symbol (a.toNat % 4 * 16 + b.toNat / 16) ::
      symbol (b.toNat % 16 * 4 + c.toNat / 64) :: symbol (c.toNat % 64) :: encode rest
  | [a, b] => [symbol (a.toNat / 4), symbol (a.toNat % 4 * 16 + b.toNat / 16), symbol (b.toNat % 16 * 4)]
  | [a] => [symbol (a.toNat / 4), symbol (a.toNat % 4 * 16)]
  | [] => []

/-- The byte that two neighbouring values hold, the first of them shifted up by so many bits. -/
def join (high shift low : Nat) : Byte := BitVec.ofNat 8 (high * 2 ^ shift + low / 2 ^ (6 - shift))

/-- The bytes written group by group, and whether every symbol was in the alphabet. -/
def decodeGroups : List Byte → List Byte × Bool
  | a :: b :: c :: d :: rest =>
    match value a, value b, value c, value d with
    | some a, some b, some c, some d =>
      let after := decodeGroups rest
      (join a 2 b :: join (b % 16) 4 c :: join (c % 4) 6 d :: after.1, after.2)
    | _, _, _, _ => ([], false)
  | [a, b, c] =>
    match value a, value b, value c with
    | some a, some b, some c => ([join a 2 b, join (b % 16) 4 c], true)
    | _, _, _ => ([], false)
  | [a, b] =>
    match value a, value b with
    | some a, some b => ([join a 2 b], true)
    | _, _ => ([], false)
  | [_] => ([], false)
  | [] => ([], true)

/-- The bytes a text of so many symbols decodes to. -/
def decodedLength (symbols : Nat) : Nat := symbols / 4 * 3 + (if symbols % 4 = 0 then 0 else symbols % 4 - 1)

/-- A text without its padding. -/
def unpadded (text : List Byte) : List Byte := (text.reverse.dropWhile (· == 61)).reverse

/-- Decode into a buffer: the bytes written, and whether the text was accepted. -/
def decode (text : List Byte) (cap : Nat) : List Byte × Bool :=
  let text := unpadded text
  if text.length % 4 = 1 ∨ cap < decodedLength text.length then ([], false) else decodeGroups text

theorem value_symbol {n : Nat} (small : n < 64) : value (symbol n) = some n := by
  have every : ∀ n : Fin 64, value (symbol n) = some n.val := by decide
  exact every ⟨n, small⟩

theorem join_of_toNat (byte : Byte) {high shift low : Nat}
    (parts : high * 2 ^ shift + low / 2 ^ (6 - shift) = byte.toNat) : join high shift low = byte := by
  rw [join, parts, BitVec.ofNat_toNat, BitVec.setWidth_eq]

theorem decodeGroups_encode (bytes : List Byte) : decodeGroups (encode bytes) = (bytes, true) := by
  induction bytes using encode.induct with
  | case1 a b c rest ih =>
    have ha := a.isLt
    have hb := b.isLt
    have hc := c.isLt
    rw [encode, decodeGroups, value_symbol (by omega), value_symbol (by omega),
      value_symbol (by omega), value_symbol (by omega), ih]
    dsimp only
    rw [join_of_toNat a (by omega), join_of_toNat b (by omega),
      join_of_toNat c (by omega)]
  | case2 a b =>
    have ha := a.isLt
    have hb := b.isLt
    rw [encode, decodeGroups, value_symbol (by omega), value_symbol (by omega),
      value_symbol (by omega)]
    dsimp only
    rw [join_of_toNat a (by omega), join_of_toNat b (by omega)]
  | case3 a =>
    have ha := a.isLt
    rw [encode, decodeGroups, value_symbol (by omega), value_symbol (by omega)]
    dsimp only
    rw [join_of_toNat a (by omega)]
  | case4 => rfl

theorem encode_length (bytes : List Byte) : (encode bytes).length = (4 * bytes.length + 2) / 3 := by
  induction bytes using encode.induct with
  | case1 a b c rest ih =>
    simp only [encode, List.length_cons, ih]
    omega
  | _ => simp [encode]

theorem mem_encode {bytes : List Byte} : ∀ c ∈ encode bytes, ∃ n < 64, c = symbol n := by
  induction bytes using encode.induct with
  | case1 a b c rest ih =>
    have ha := a.isLt
    have hb := b.isLt
    have hc := c.isLt
    intro s member
    simp only [encode, List.mem_cons] at member
    rcases member with rfl | rfl | rfl | rfl | later
    · exact ⟨_, by omega, rfl⟩
    · exact ⟨_, by omega, rfl⟩
    · exact ⟨_, by omega, rfl⟩
    · exact ⟨_, by omega, rfl⟩
    · exact ih s later
  | case2 a b =>
    have ha := a.isLt
    have hb := b.isLt
    intro s member
    simp only [encode, List.mem_cons, List.not_mem_nil, or_false] at member
    rcases member with rfl | rfl | rfl
    · exact ⟨_, by omega, rfl⟩
    · exact ⟨_, by omega, rfl⟩
    · exact ⟨_, by omega, rfl⟩
  | case3 a =>
    have ha := a.isLt
    intro s member
    simp only [encode, List.mem_cons, List.not_mem_nil, or_false] at member
    rcases member with rfl | rfl
    · exact ⟨_, by omega, rfl⟩
    · exact ⟨_, by omega, rfl⟩
  | case4 => simp [encode]

theorem unpadded_encode (bytes : List Byte) : unpadded (encode bytes) = encode bytes := by
  have plain : ∀ c ∈ encode bytes, (c == 61) = false := by
    intro c member
    obtain ⟨n, small, rfl⟩ := mem_encode c member
    rw [beq_eq_false_iff_ne]
    intro padding
    have found := value_symbol small
    have outside : value 61 = none := by decide
    rw [padding, outside] at found
    cases found
  have kept : (encode bytes).reverse.dropWhile (· == 61) = (encode bytes).reverse := by
    cases turned : (encode bytes).reverse with
    | nil => rfl
    | cons c rest =>
      have member : c ∈ encode bytes := List.mem_reverse.mp (turned ▸ List.mem_cons_self)
      rw [List.dropWhile_cons_of_neg]
      rw [plain c member]
      decide
  rw [unpadded, kept, List.reverse_reverse]

theorem decode_encode {bytes : List Byte} {cap : Nat} (fits : bytes.length ≤ cap) :
    decode (encode bytes) cap = (bytes, true) := by
  unfold decode
  dsimp only
  rw [unpadded_encode, encode_length, decodeGroups_encode]
  refine if_neg ?_
  unfold decodedLength
  split <;> omega

theorem decodeGroups_length_le (text : List Byte) : (decodeGroups text).1.length ≤ decodedLength text.length := by
  induction text using decodeGroups.induct with
  | case1 a b c d rest va vb vc vd ha hb hc hd ih =>
    simp only [decodeGroups, ha, hb, hc, hd, List.length_cons, decodedLength] at ih ⊢
    rw [show rest.length + 1 + 1 + 1 + 1 = rest.length + 4 from rfl, Nat.add_mod_right]
    omega
  | _ => simp [decodeGroups, decodedLength, *]

end BenchPod.B64url
