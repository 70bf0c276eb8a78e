import BenchPod.Library.Word
import Mathlib.Data.List.Basic

/-!
# The bits of a byte on a wire

A byte goes out least or most significant bit first, and a shift register takes a bit in at the top as one
leaves at the bottom.
-/

namespace BenchPod.Bits

/-- Bit 0 first. -/
def lsbFirst (byte : Byte) : List Bool := (List.range 8).map byte.getLsbD

/-- Bit 7 first. -/
def msbFirst (byte : Byte) : List Bool := (List.range 8).map byte.getMsbD

/-- `{bit, byte[7:1]}`: a shift to the right with `bit` coming in. -/
def shiftIn (bit : Bool) (byte : Byte) : Byte := BitVec.ofBool bit ++ byte.extractLsb' 1 7

@[simp] theorem length_lsbFirst (byte : Byte) : (lsbFirst byte).length = 8 := rfl

theorem lsbFirst_shiftIn (bit : Bool) (byte : Byte) : lsbFirst (shiftIn bit byte) = (lsbFirst byte).tail ++ [bit] := by
  revert bit byte
  decide +kernel

theorem lsbFirst_ofNat (value : Nat) : lsbFirst (BitVec.ofNat 8 value) = (List.range 8).map value.testBit := by
  apply List.map_congr_left
  intro place inside
  rw [BitVec.getLsbD_ofNat, decide_eq_true (List.mem_range.mp inside), Bool.true_and]

theorem leBytes_flatMap (count value : Nat) :
    (Endian.leBytes count value).flatMap lsbFirst = (List.range (8 * count)).map value.testBit := by
  induction count generalizing value with
  | zero => rfl
  | succ count ih =>
    have split : 8 * (count + 1) = 8 + 8 * count := by omega
    rw [Endian.leBytes, List.flatMap_cons, ih, lsbFirst_ofNat, split, List.range_add, List.map_append, List.map_map]
    congr 1
    apply List.map_congr_left
    intro place inside
    rw [show value / 256 = value >>> 8 from (Nat.shiftRight_eq_div_pow value 8).symm, Nat.testBit_shiftRight]
    rfl

/-- The bits of a word, bit 0 first. -/
def wordBits (word : Word) : List Bool := (List.range 32).map word.getLsbD

theorem wordBits_le32 (word : Word) : wordBits word = (Endian.le32 word).flatMap lsbFirst :=
  (leBytes_flatMap 4 word.toNat).symm

end BenchPod.Bits
