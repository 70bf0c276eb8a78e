import BenchPod.Library.Word

/-!
# Cyclic redundancy checks over words

A most-significant-bit-first check with a 32-bit polynomial.  With an odd polynomial one shift loses
nothing, so two inputs that differ in a single word have different checks.
-/

namespace BenchPod.Crc

variable (poly : Word)

/-- One shift of the remainder. -/
def shift (crc : Word) : Word := if crc.msb then (crc <<< 1) ^^^ poly else crc <<< 1

/-- The remainder after one more word. -/
def feed (crc word : Word) : Word := (shift poly)^[32] (crc ^^^ word)

/-- The remainder after a row of words. -/
def digest (start : Word) (words : List Word) : Word := words.foldl (feed poly) start

variable {poly}

theorem shift_low (odd : poly.getLsbD 0 = true) (crc : Word) : (shift poly crc).getLsbD 0 = crc.msb := by
  unfold shift
  split
  · rename_i top
    simp [odd, top]
  · rename_i top
    simp [top]

theorem shift_up (odd : poly.getLsbD 0 = true) (crc : Word) :
    crc <<< 1 = shift poly crc ^^^ (if (shift poly crc).getLsbD 0 then poly else 0) := by
  rw [shift_low odd]
  unfold shift
  split
  · rw [BitVec.xor_assoc, BitVec.xor_self, BitVec.xor_zero]
  · simp

theorem shift_injective (odd : poly.getLsbD 0 = true) : Function.Injective (shift poly) := by
  intro left right same
  have up : left <<< 1 = right <<< 1 := by rw [shift_up odd left, shift_up odd right, same]
  have top : left.msb = right.msb := by rw [← shift_low odd left, ← shift_low odd right, same]
  apply BitVec.eq_of_getLsbD_eq
  intro i within
  by_cases last : i = 31
  · subst last
    simpa [BitVec.msb_eq_getLsbD_last] using top
  · have moved := congrArg (fun word => word.getLsbD (i + 1)) up
    simpa [show i + 1 < 32 by omega, BitVec.getLsbD_eq_getElem within] using moved

theorem feed_injective_left (odd : poly.getLsbD 0 = true) (word : Word) :
    Function.Injective (fun crc => feed poly crc word) := by
  intro left right same
  have crossed := (shift_injective odd).iterate 32 same
  exact BitVec.xor_left_inj word |>.mp crossed

theorem feed_injective_right (odd : poly.getLsbD 0 = true) (crc : Word) : Function.Injective (feed poly crc) := by
  intro left right same
  have crossed := (shift_injective odd).iterate 32 same
  exact BitVec.xor_right_inj crc |>.mp crossed

theorem digest_injective (odd : poly.getLsbD 0 = true) (words : List Word) :
    Function.Injective (fun start => digest poly start words) := by
  induction words with
  | nil => exact fun _ _ same => same
  | cons word words ih =>
    intro left right same
    exact feed_injective_left odd word (ih same)

theorem digest_ne (odd : poly.getLsbD 0 = true) {start left right : Word} (words : List Word)
    (differ : left ≠ right) :
    digest poly start (left :: words) ≠ digest poly start (right :: words) := by
  intro same
  exact differ (feed_injective_right odd start (digest_injective odd words same))

end BenchPod.Crc
