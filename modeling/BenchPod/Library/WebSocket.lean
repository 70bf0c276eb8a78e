import BenchPod.Library.Word
import Mathlib.Data.Fin.VecNotation

/-!
# WebSocket frames

The base framing of RFC 6455: two bytes with the flags, the opcode and seven bits of length, an extended
length that those seven bits may announce, a masking key that the second flag announces, and the payload.
-/

namespace BenchPod.WebSocket

/-- The bytes of a masking key are numbered. -/
scoped instance numberedBytes : NeZero 4 := ⟨by decide⟩

/-- The field a payload length stands in. -/
inductive Size
  | short (count : Fin 126)
  | medium (count : BitVec 16)
  | long (count : BitVec 64)
  deriving DecidableEq

namespace Size

/-- The payload length. -/
def length : Size → Nat
  | short count => count
  | medium count => count.toNat
  | long count => count.toNat

/-- The seven bits of the second byte. -/
def code : Size → BitVec 7
  | short count => BitVec.ofNat 7 count
  | medium _ => 126
  | long _ => 127

/-- The bytes behind the first two. -/
def extended : Size → List Byte
  | short _ => []
  | medium count => Endian.beBytes 2 count.toNat
  | long count => Endian.beBytes 8 count.toNat

/-- The shortest field a length fits in, which is the one a sender must use. -/
def least (count : Nat) : Size :=
  if fits : count < 126 then short ⟨count, fits⟩
  else if count < 2 ^ 16 then medium (BitVec.ofNat 16 count)
  else long (BitVec.ofNat 64 count)

theorem length_least {count : Nat} (fits : count < 2 ^ 64) : (least count).length = count := by
  unfold least
  split_ifs with few some
  · rfl
  · exact Nat.mod_eq_of_lt some
  · exact Nat.mod_eq_of_lt fits

/-- The field that the seven bits announce, and what is behind it. -/
def read (code : BitVec 7) (bytes : List Byte) : Option (Size × List Byte) :=
  if few : code.toNat < 126 then some (short ⟨code.toNat, few⟩, bytes)
  else if code.toNat = 126 then
    if bytes.length < 2 then none
    else some (medium (BitVec.ofNat 16 (Endian.beNat (bytes.take 2))), bytes.drop 2)
  else if bytes.length < 8 then none
  else some (long (BitVec.ofNat 64 (Endian.beNat (bytes.take 8))), bytes.drop 8)

theorem extended_whole {w n : Nat} (wide : 2 ^ w = 256 ^ n) (count : BitVec w) (rest : List Byte) :
    ¬(Endian.beBytes n count.toNat ++ rest).length < n ∧
      BitVec.ofNat w (Endian.beNat (Endian.beBytes n count.toNat)) = count := by
  constructor
  · rw [List.length_append, Endian.beBytes_length]
    omega
  · rw [Endian.beNat_beBytes, ← wide, Nat.mod_eq_of_lt count.isLt, BitVec.ofNat_toNat, BitVec.setWidth_eq]

theorem read_extended (size : Size) (rest : List Byte) : read size.code (size.extended ++ rest) = some (size, rest) := by
  cases size with
  | short count =>
    have value : (BitVec.ofNat 7 count).toNat = count := Nat.mod_eq_of_lt (Nat.lt_trans count.isLt (by decide))
    simp only [code, extended, read, List.nil_append, value]
    exact dif_pos count.isLt
  | medium count =>
    obtain ⟨enough, value⟩ := @extended_whole 16 2 (by decide) count rest
    rw [code, extended, read, dif_neg (by decide), if_pos (by decide), if_neg enough,
      List.take_left' (Endian.beBytes_length ..), List.drop_left' (Endian.beBytes_length ..), value]
  | long count =>
    obtain ⟨enough, value⟩ := @extended_whole 64 8 (by decide) count rest
    rw [code, extended, read, dif_neg (by decide), if_neg (by decide), if_neg enough,
      List.take_left' (Endian.beBytes_length ..), List.drop_left' (Endian.beBytes_length ..), value]

end Size

/-- What is masked is exclusive-ored with the four bytes of the key in turn. -/
def masked (key : Fin 4 → Byte) (payload : List Byte) : List Byte :=
  payload.mapIdx fun i byte => byte ^^^ key (Fin.ofNat 4 i)

theorem masked_masked (key : Fin 4 → Byte) (payload : List Byte) : masked key (masked key payload) = payload := by
  apply List.ext_getElem
  · simp [masked]
  · intro i _ _
    simp [masked, BitVec.xor_assoc]

/-- The first byte: the final flag, the reserved bits and the opcode. -/
def firstByte (fin : Bool) (rsv : BitVec 3) (opcode : BitVec 4) : Byte := BitVec.ofBool fin ++ rsv ++ opcode

/-- The second byte: the mask flag and seven bits of length. -/
def secondByte (flag : Bool) (code : BitVec 7) : Byte := BitVec.ofBool flag ++ code

theorem firstByte_parts (fin : Bool) (rsv : BitVec 3) (opcode : BitVec 4) :
    (firstByte fin rsv opcode).msb = fin ∧ (firstByte fin rsv opcode).extractLsb' 4 3 = rsv ∧
      (firstByte fin rsv opcode).extractLsb' 0 4 = opcode := by
  refine ⟨?_, ?_, ?_⟩
  · exact BitVec.msb_append.trans (BitVec.msb_append.trans (BitVec.msb_ofBool fin))
  · exact (BitVec.extractLsb'_append_eq_of_le (Nat.le_refl 4)).trans BitVec.extractLsb'_append_eq_right
  · exact BitVec.extractLsb'_append_eq_right

theorem secondByte_parts (flag : Bool) (code : BitVec 7) :
    (secondByte flag code).msb = flag ∧ (secondByte flag code).extractLsb' 0 7 = code :=
  ⟨BitVec.msb_append.trans (BitVec.msb_ofBool flag), BitVec.extractLsb'_append_eq_right⟩

/-- What is in front of the payload. -/
structure Header where
  fin : Bool
  rsv : BitVec 3
  opcode : BitVec 4
  size : Size
  /-- The masking key. -/
  key : Option (Fin 4 → Byte)

namespace Header

section bytes

variable (header : Header)

/-- The masking key as it is sent. -/
def keyBytes : List Byte :=
  match header.key with
  | none => []
  | some key => List.ofFn key

/-- The header as it is sent. -/
def bytes : List Byte :=
  firstByte header.fin header.rsv header.opcode :: secondByte header.key.isSome header.size.code ::
    (header.size.extended ++ header.keyBytes)

/-- The payload as it is sent, and back. -/
def cover (payload : List Byte) : List Byte :=
  match header.key with
  | none => payload
  | some key => masked key payload

/-- A whole frame. -/
def frame (payload : List Byte) : List Byte := header.bytes ++ header.cover payload

end bytes

/-- The masking key that the second flag announces, and what is behind it. -/
def readKey (flag : Bool) (bytes : List Byte) : Option (Option (Fin 4 → Byte) × List Byte) :=
  match flag, bytes with
  | false, rest => some (none, rest)
  | true, k0 :: k1 :: k2 :: k3 :: rest => some (some ![k0, k1, k2, k3], rest)
  | true, _ => none

/-- The header in front of some bytes. -/
def read (bytes : List Byte) : Option (Header × List Byte) :=
  match bytes with
  | b0 :: b1 :: rest => do
      let (size, rest) ← Size.read (b1.extractLsb' 0 7) rest
      let (key, rest) ← readKey b1.msb rest
      some (⟨b0.msb, b0.extractLsb' 4 3, b0.extractLsb' 0 4, size, key⟩, rest)
  | _ => none

theorem readKey_keyBytes (header : Header) (rest : List Byte) :
    readKey header.key.isSome (header.keyBytes ++ rest) = some (header.key, rest) := by
  obtain ⟨fin, rsv, opcode, size, _ | key⟩ := header
  · rfl
  · have same : ![key 0, key 1, key 2, key 3] = key := by
      funext i
      match i with
      | 0 | 1 | 2 | 3 => rfl
    rw [← same]
    rfl

theorem read_bytes (header : Header) (rest : List Byte) : read (header.bytes ++ rest) = some (header, rest) := by
  obtain ⟨fin_eq, rsv_eq, opcode_eq⟩ := firstByte_parts header.fin header.rsv header.opcode
  obtain ⟨flag_eq, code_eq⟩ := secondByte_parts header.key.isSome header.size.code
  rw [bytes, List.cons_append, List.cons_append, List.append_assoc, read, code_eq, Size.read_extended,
    flag_eq, fin_eq, rsv_eq, opcode_eq]
  simp only [Option.bind_eq_bind, Option.bind_some, readKey_keyBytes]

end Header

/-- The frame in front of some bytes: its header, its payload and what follows it. -/
def decode (bytes : List Byte) : Option (Header × List Byte × List Byte) := do
  let (header, rest) ← Header.read bytes
  if rest.length < header.size.length then none
  else some (header, header.cover (rest.take header.size.length), rest.drop header.size.length)

theorem decode_frame {header : Header} {payload : List Byte} (size : payload.length = header.size.length)
    (rest : List Byte) : decode (header.frame payload ++ rest) = some (header, payload, rest) := by
  have sent : (header.cover payload).length = header.size.length := by
    rw [← size, Header.cover]
    split
    · rfl
    · exact List.length_mapIdx
  have back : header.cover (header.cover payload) = payload := by
    unfold Header.cover
    split
    · rfl
    · exact masked_masked _ payload
  have enough : ¬(header.cover payload ++ rest).length < header.size.length := by
    rw [List.length_append]
    omega
  rw [Header.frame, List.append_assoc, decode, Header.read_bytes, Option.bind_eq_bind, Option.bind_some]
  simp only [if_neg enough, List.take_left' sent, List.drop_left' sent, back]

end BenchPod.WebSocket
