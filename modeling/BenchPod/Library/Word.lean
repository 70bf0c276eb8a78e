import Mathlib.Algebra.GroupWithZero.Nat
import Mathlib.Data.List.Basic
import Mathlib.Logic.Function.Iterate

/-!
# Machine words and their byte encodings

Bytes and fixed-width words are bit vectors.  A word is laid out in memory by a little-endian or a
big-endian split of its value; both splits are inverted by the corresponding recombination as long
as the value fits the number of bytes written.
-/

namespace BenchPod

/-- One byte of memory. -/
abbrev Byte := BitVec 8

/-- A 16-bit machine word. -/
abbrev Half := BitVec 16

/-- A 32-bit machine word. -/
abbrev Word := BitVec 32

namespace Endian

/-- The low `count` bytes of a number, least significant first. -/
def leBytes : Nat → Nat → List Byte
  | 0, _ => []
  | count + 1, value => BitVec.ofNat 8 value :: leBytes count (value / 256)

/-- The number a little-endian byte string denotes. -/
def leNat : List Byte → Nat
  | [] => 0
  | byte :: bytes => byte.toNat + 256 * leNat bytes

/-- The low `count` bytes of a number, most significant first. -/
def beBytes (count value : Nat) : List Byte := (leBytes count value).reverse

/-- The number a big-endian byte string denotes. -/
def beNat (bytes : List Byte) : Nat := leNat bytes.reverse

@[simp]
theorem leBytes_length (count value : Nat) : (leBytes count value).length = count := by
  induction count generalizing value with
  | zero => rfl
  | succ count ih => simp [leBytes, ih]

@[simp]
theorem beBytes_length (count value : Nat) : (beBytes count value).length = count := by
  simp [beBytes]

theorem leNat_leBytes (count value : Nat) : leNat (leBytes count value) = value % 256 ^ count := by
  induction count generalizing value with
  | zero => simp [leBytes, leNat, Nat.mod_one]
  | succ count ih =>
    simp only [leBytes, leNat, ih, BitVec.toNat_ofNat]
    change value % 256 + 256 * (value / 256 % 256 ^ count) = value % 256 ^ (count + 1)
    rw [Nat.pow_succ, Nat.mul_comm (256 ^ count) 256, Nat.mod_mul]

theorem leNat_leBytes_of_lt {count value : Nat} (fits : value < 256 ^ count) : leNat (leBytes count value) = value := by
  rw [leNat_leBytes, Nat.mod_eq_of_lt fits]

theorem beNat_beBytes (count value : Nat) : beNat (beBytes count value) = value % 256 ^ count := by
  simp [beNat, beBytes, leNat_leBytes]

theorem leNat_lt (bytes : List Byte) : leNat bytes < 256 ^ bytes.length := by
  induction bytes with
  | nil => simp [leNat]
  | cons byte bytes ih =>
    have byte_lt := byte.isLt
    simp only [leNat, List.length_cons, Nat.pow_succ]
    omega

theorem leBytes_leNat (bytes : List Byte) : leBytes bytes.length (leNat bytes) = bytes := by
  induction bytes with
  | nil => rfl
  | cons byte bytes ih =>
    have byte_lt := byte.isLt
    have low : BitVec.ofNat 8 (byte.toNat + 256 * leNat bytes) = byte := by
      apply BitVec.eq_of_toNat_eq
      simp only [BitVec.toNat_ofNat]
      omega
    have high : (byte.toNat + 256 * leNat bytes) / 256 = leNat bytes := by omega
    simp only [List.length_cons, leNat, leBytes, low, high, ih]

/-- A 32-bit word as it lies in little-endian memory. -/
def le32 (word : Word) : List Byte := leBytes 4 word.toNat

/-- A 16-bit word as it lies in little-endian memory. -/
def le16 (half : Half) : List Byte := leBytes 2 half.toNat

/-- Read back a little-endian 32-bit word. -/
def rd32 (bytes : List Byte) : Word := BitVec.ofNat 32 (leNat bytes)

/-- Read back a little-endian 16-bit word. -/
def rd16 (bytes : List Byte) : Half := BitVec.ofNat 16 (leNat bytes)

@[simp]
theorem le32_length (word : Word) : (le32 word).length = 4 := leBytes_length _ _

@[simp]
theorem le16_length (half : Half) : (le16 half).length = 2 := leBytes_length _ _

@[simp]
theorem rd32_le32 (word : Word) : rd32 (le32 word) = word := by
  apply BitVec.eq_of_toNat_eq
  rw [rd32, le32, leNat_leBytes_of_lt (by simpa using word.isLt)]
  simp

@[simp]
theorem rd16_le16 (half : Half) : rd16 (le16 half) = half := by
  apply BitVec.eq_of_toNat_eq
  rw [rd16, le16, leNat_leBytes_of_lt (by simpa using half.isLt)]
  simp

/-- A 32-bit word in network byte order. -/
def be32 (word : Word) : List Byte := beBytes 4 word.toNat

/-- A 16-bit word in network byte order. -/
def be16 (half : Half) : List Byte := beBytes 2 half.toNat

/-- Read a 32-bit word in network byte order. -/
def getBe32 (bytes : List Byte) : Word := BitVec.ofNat 32 (beNat bytes)

/-- Read a 16-bit word in network byte order. -/
def getBe16 (bytes : List Byte) : Half := BitVec.ofNat 16 (beNat bytes)

@[simp]
theorem be32_length (word : Word) : (be32 word).length = 4 := beBytes_length _ _

@[simp]
theorem be16_length (half : Half) : (be16 half).length = 2 := beBytes_length _ _

@[simp]
theorem getBe32_be32 (word : Word) : getBe32 (be32 word) = word := by
  apply BitVec.eq_of_toNat_eq
  have word_lt := word.isLt
  simp only [getBe32, be32, beNat_beBytes, BitVec.toNat_ofNat]
  omega

@[simp]
theorem getBe16_be16 (half : Half) : getBe16 (be16 half) = half := by
  apply BitVec.eq_of_toNat_eq
  have half_lt := half.isLt
  simp only [getBe16, be16, beNat_beBytes, BitVec.toNat_ofNat]
  omega

theorem be16_getBe16 {bytes : List Byte} (two : bytes.length = 2) : be16 (getBe16 bytes) = bytes := by
  have bound := leNat_lt bytes.reverse
  have inverse := leBytes_leNat bytes.reverse
  rw [List.length_reverse, two] at bound inverse
  have small : leNat bytes.reverse % 2 ^ 16 = leNat bytes.reverse := Nat.mod_eq_of_lt bound
  rw [be16, getBe16, beNat, BitVec.toNat_ofNat, small, beBytes, inverse, List.reverse_reverse]

end Endian
end BenchPod
