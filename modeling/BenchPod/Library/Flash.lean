import BenchPod.Library.StrideLoop
import BenchPod.Library.Word

/-!
# NOR flash with error-corrected quad-words

Flash is erased by the sector to `0xFF` and programmed by the 16-byte quad-word.  A quad-word whose
error correction no longer matches makes every checked read that touches it fail.  Programming a
quad-word that is not blank has that effect, and so may a power cut during an erase or a program.
-/

namespace BenchPod

/-- Flash contents by byte address, with the quad-words that fail their error correction. -/
structure Flash where
  /-- The byte at an address. -/
  byte : Nat → Byte
  /-- Whether a quad-word, named by its address divided by 16, reads with an uncorrectable error. -/
  torn : Nat → Bool

namespace Flash

/-- Bytes of an erase sector. -/
def sectorSize : Nat := 0x2000

/-- Bytes of a program unit. -/
def quadSize : Nat := 16

/-- No quad-word under the range fails its error correction. -/
def clean (flash : Flash) (off count : Nat) : Bool := (List.range count).all fun i => !flash.torn ((off + i) / quadSize)

/-- The bytes of a range, as the bus would deliver them. -/
def bytes (flash : Flash) (off count : Nat) : List Byte := (List.range count).map fun i => flash.byte (off + i)

/-- Read a range, failing on an error-correction error. -/
def readChecked (flash : Flash) (off count : Nat) : Option (List Byte) :=
  if flash.clean off count then some (flash.bytes off count) else none

@[simp]
theorem bytes_length (flash : Flash) (off count : Nat) : (flash.bytes off count).length = count := by
  simp [bytes]

theorem bytes_add (flash : Flash) (off m n : Nat) :
    flash.bytes off (m + n) = flash.bytes off m ++ flash.bytes (off + m) n := by
  simp [bytes, List.range_add, List.map_append, Nat.add_assoc]

theorem clean_add (flash : Flash) (off m n : Nat) :
    flash.clean off (m + n) = (flash.clean off m && flash.clean (off + m) n) := by
  simp [clean, List.range_add, List.all_append, List.all_map, Function.comp_def, Nat.add_assoc]

theorem clean_eq_true {flash : Flash} {off count : Nat} :
    flash.clean off count = true ↔ ∀ i, i < count → flash.torn ((off + i) / quadSize) = false := by
  simp [clean]

@[simp]
theorem readChecked_zero (flash : Flash) (off : Nat) : flash.readChecked off 0 = some [] := by
  simp [readChecked, clean, bytes]

theorem readChecked_add (flash : Flash) (off m n : Nat) :
    flash.readChecked off (m + n) = do
      let front ← flash.readChecked off m
      let back ← flash.readChecked (off + m) n
      return front ++ back := by
  simp only [readChecked, clean_add, bytes_add]
  cases flash.clean off m <;> cases flash.clean (off + m) n <;> rfl

theorem readChecked_length {flash : Flash} {off count : Nat} {read : List Byte}
    (read_eq : flash.readChecked off count = some read) : read.length = count := by
  simp only [readChecked, Option.ite_none_right_eq_some, Option.some.injEq] at read_eq
  rw [← read_eq.2, bytes_length]

/-- Two flash states that no read of the range can tell apart. -/
def SameOn (before after : Flash) (off count : Nat) : Prop :=
  ∀ i, i < count →
    after.byte (off + i) = before.byte (off + i) ∧ after.torn ((off + i) / quadSize) = before.torn ((off + i) / quadSize)

namespace SameOn

variable {before middle after : Flash} {off count : Nat}

protected theorem refl (flash : Flash) (off count : Nat) : flash.SameOn flash off count := fun _ _ => ⟨rfl, rfl⟩

protected theorem trans (first : before.SameOn middle off count)
    (second : middle.SameOn after off count) : before.SameOn after off count := by
  intro i within
  obtain ⟨byte_first, torn_first⟩ := first i within
  obtain ⟨byte_second, torn_second⟩ := second i within
  exact ⟨byte_second.trans byte_first, torn_second.trans torn_first⟩

theorem mono (same : before.SameOn after off count) {start size : Nat} (above : off ≤ start)
    (below : start + size ≤ off + count) : before.SameOn after start size := by
  intro i within
  obtain ⟨j, rfl⟩ := Nat.exists_eq_add_of_le above
  have moved := same (j + i) (by omega)
  rwa [← Nat.add_assoc] at moved

theorem readChecked_eq (same : before.SameOn after off count) :
    after.readChecked off count = before.readChecked off count := by
  have clean_eq : after.clean off count = before.clean off count := by
    rw [Bool.eq_iff_iff, clean_eq_true, clean_eq_true]
    exact forall₂_congr fun i within => by rw [(same i within).2]
  have bytes_eq : after.bytes off count = before.bytes off count := by
    apply List.map_congr_left
    intro i within
    exact (same i (List.mem_range.mp within)).1
  rw [readChecked, readChecked, clean_eq, bytes_eq]

end SameOn
end Flash

/-- One step of the flash controller. -/
inductive FlashStep where
  /-- Erase the sector that starts at an address. -/
  | erase (off : Nat)
  /-- Program the quad-word at an address. -/
  | program (off : Nat) (quad : List Byte)

namespace FlashStep

/-- First address a step may change. -/
def off : FlashStep → Nat
  | .erase off => off
  | .program off _ => off

/-- Number of bytes a step may change. -/
def size : FlashStep → Nat
  | .erase _ => Flash.sectorSize
  | .program _ _ => Flash.quadSize

/-- The effect of a step that runs to its end. -/
def apply (flash : Flash) : FlashStep → Flash
  | .erase off =>
    { byte x := if off ≤ x ∧ x < off + Flash.sectorSize then 0xFF else flash.byte x
      torn q := if off / Flash.quadSize ≤ q ∧ q < (off + Flash.sectorSize) / Flash.quadSize
        then false else flash.torn q }
  | .program off quad =>
    { byte x := if off ≤ x ∧ x < off + Flash.quadSize
        then flash.byte x &&& quad.getD (x - off) 0xFF else flash.byte x
      torn q := if q = off / Flash.quadSize
        then flash.torn q || (flash.bytes off Flash.quadSize).any (· != 0xFF)
        else flash.torn q }

/-- The step changes nothing but its own sector or quad-word. -/
def Confined (step : FlashStep) (before after : Flash) : Prop :=
  ∀ start count, start + count ≤ step.off ∨ step.off + step.size ≤ start → before.SameOn after start count

theorem apply_confined (flash : Flash) {step : FlashStep} (aligned : Flash.quadSize ∣ step.off) :
    step.Confined flash (step.apply flash) := by
  intro start count apart i within
  obtain ⟨k, off_eq⟩ := aligned
  cases step with
  | erase off =>
    simp only [FlashStep.off, size, Flash.quadSize, Flash.sectorSize] at off_eq apart
    subst off_eq
    simp only [apply, Flash.quadSize, Flash.sectorSize]
    exact ⟨if_neg (by omega), if_neg (by omega)⟩
  | program off quad =>
    simp only [FlashStep.off, size, Flash.quadSize] at off_eq apart
    subst off_eq
    simp only [apply, Flash.quadSize]
    exact ⟨if_neg (by omega), if_neg (by omega)⟩

/-- Run steps in order. -/
def run (steps : List FlashStep) (flash : Flash) : Flash := steps.foldl apply flash

@[simp]
theorem run_cons (step : FlashStep) (steps : List FlashStep) (flash : Flash) :
    run (step :: steps) flash = run steps (step.apply flash) := rfl

theorem run_append (front back : List FlashStep) (flash : Flash) :
    run (front ++ back) flash = run back (run front flash) := List.foldl_append

/-- Every step of the list stays in a range and is aligned. -/
def Inside (steps : List FlashStep) (off count : Nat) : Prop :=
  ∀ step ∈ steps, Flash.quadSize ∣ step.off ∧ off ≤ step.off ∧ step.off + step.size ≤ off + count

/-- A power cut inside a list of steps: some steps ran, and the next one may have left its own
footprint in any state that `tear` allows. -/
inductive Interrupted (tear : Flash → Flash → Prop) : List FlashStep → Flash → Flash → Prop where
  | between {steps : List FlashStep} {flash : Flash} : Interrupted tear steps flash flash
  | inside {step : FlashStep} {steps : List FlashStep} {before after : Flash}
      (confined : step.Confined before after) (torn : tear before after) :
      Interrupted tear (step :: steps) before after
  | later {step : FlashStep} {steps : List FlashStep} {before after : Flash}
      (rest : Interrupted tear steps (step.apply before) after) :
      Interrupted tear (step :: steps) before after

theorem run_sameOn {steps : List FlashStep} {off count : Nat} (inside : Inside steps off count)
    (flash : Flash) {start size : Nat} (apart : start + size ≤ off ∨ off + count ≤ start) :
    flash.SameOn (run steps flash) start size := by
  induction steps generalizing flash with
  | nil => exact .refl _ _ _
  | cons step steps ih =>
    obtain ⟨aligned, above, below⟩ := inside step (List.mem_cons_self ..)
    have first := apply_confined flash aligned start size (by omega)
    exact first.trans (ih (fun other member => inside other (List.mem_cons_of_mem _ member)) _)

theorem interrupted_sameOn {tear : Flash → Flash → Prop} {steps : List FlashStep}
    {off count : Nat} (inside : Inside steps off count) {before after : Flash}
    (cut : Interrupted tear steps before after) {start size : Nat}
    (apart : start + size ≤ off ∨ off + count ≤ start) : before.SameOn after start size := by
  induction cut with
  | between => exact .refl _ _ _
  | inside confined _ =>
    obtain ⟨-, above, below⟩ := inside _ (List.mem_cons_self ..)
    exact confined start size (by omega)
  | @later step steps before after _ ih =>
    obtain ⟨aligned, above, below⟩ := inside step (List.mem_cons_self ..)
    have first := apply_confined before aligned start size (by omega)
    exact first.trans (ih fun other member => inside other (List.mem_cons_of_mem _ member))

theorem interrupted_append {tear : Flash → Flash → Prop} {front back : List FlashStep}
    {before after : Flash} (cut : Interrupted tear (front ++ back) before after) :
    Interrupted tear front before after ∨ Interrupted tear back (run front before) after := by
  induction front generalizing before with
  | nil => exact .inr cut
  | cons step front ih =>
    cases cut with
    | between => exact .inl .between
    | inside confined torn => exact .inl (.inside confined torn)
    | later rest => exact (ih rest).imp .later id

end FlashStep

namespace Flash

/-- The flash with a byte string placed at an address. -/
def written (flash : Flash) (off : Nat) (data : List Byte) : Flash :=
  { flash with byte x := if off ≤ x then (data[x - off]?).getD (flash.byte x) else flash.byte x }

/-- The sector has been erased and nothing programmed since, from an address on. -/
def Blank (flash : Flash) (off count : Nat) : Prop := ∀ x, off ≤ x → x < off + count → flash.byte x = 0xFF

/-- A flash that was never programmed. -/
def erased : Flash where
  byte _ := 0xFF
  torn _ := false

theorem erased_blank (off count : Nat) : erased.Blank off count := fun _ _ _ => rfl

@[simp]
theorem written_nil (flash : Flash) (off : Nat) : flash.written off [] = flash := by
  simp [written]

theorem written_append (flash : Flash) (off : Nat) (front back : List Byte) :
    (flash.written off front).written (off + front.length) back = flash.written off (front ++ back) := by
  simp only [written, mk.injEq, and_true]
  funext x
  by_cases above : off ≤ x
  · by_cases behind : off + front.length ≤ x
    · rw [if_pos behind, if_pos above, if_pos above, List.getElem?_append_right (by omega),
        List.getElem?_eq_none (l := front) (by omega), show x - off - front.length =
          x - (off + front.length) by omega]
      rfl
    · rw [if_neg behind, if_pos above, if_pos above, List.getElem?_append_left (by omega)]
  · rw [if_neg (by omega), if_neg above, if_neg above]

theorem written_blank {flash : Flash} {off size count : Nat} {data : List Byte}
    (blank : flash.Blank off (size + count)) (fits : data.length = size) :
    (flash.written off data).Blank (off + size) count := by
  intro x above below
  simp only [written]
  rw [if_pos (by omega), List.getElem?_eq_none (by omega)]
  exact blank x (by omega) (by omega)

theorem written_sameOn (flash : Flash) (off : Nat) (data : List Byte) {start count : Nat}
    (apart : start + count ≤ off ∨ off + data.length ≤ start) :
    flash.SameOn (flash.written off data) start count := by
  intro i within
  refine ⟨?_, rfl⟩
  simp only [written]
  split
  · rw [List.getElem?_eq_none (by omega)]
    rfl
  · rfl

theorem readChecked_written {flash : Flash} {off : Nat} {data : List Byte}
    (clean : flash.clean off data.length = true) :
    (flash.written off data).readChecked off data.length = some data := by
  have clean_written : (flash.written off data).clean off data.length = true := clean
  rw [readChecked, if_pos clean_written]
  congr 1
  apply List.ext_getElem
  · simp
  · intro i _ within
    simp [bytes, written, within]

end Flash

/-- One quad-word out of a longer buffer, filled up with the erased value. -/
def quadAt (data : List Byte) (pos : Nat) : List Byte :=
  ((data.drop pos).take Flash.quadSize).rightpad Flash.quadSize 0xFF

/-- Program a buffer quad-word by quad-word. -/
def rangeProgram (off : Nat) (data : List Byte) : List FlashStep :=
  (strides data.length Flash.quadSize).map fun pos => .program (off + pos) (quadAt data pos)

theorem program_blank {flash : Flash} {off : Nat} {quad : List Byte}
    (length_eq : quad.length = Flash.quadSize) (aligned : Flash.quadSize ∣ off)
    (blank : flash.Blank off Flash.quadSize) :
    (FlashStep.program off quad).apply flash = flash.written off quad := by
  obtain ⟨k, rfl⟩ := aligned
  have unprogrammed : (flash.bytes (Flash.quadSize * k) Flash.quadSize).any (· != 0xFF) = false := by
    rw [List.any_eq_false]
    intro byte member
    obtain ⟨i, within, rfl⟩ := List.mem_map.mp member
    simp [blank (Flash.quadSize * k + i) (by omega) (by have := List.mem_range.mp within; omega)]
  simp only [FlashStep.apply, Flash.written, unprogrammed, Bool.or_false, ite_self, Flash.mk.injEq, and_true]
  funext x
  by_cases above : Flash.quadSize * k ≤ x
  · by_cases below : x < Flash.quadSize * k + Flash.quadSize
    · have within : x - Flash.quadSize * k < quad.length := by omega
      rw [if_pos ⟨above, below⟩, if_pos above, blank x above below]
      simp only [List.getD, List.getElem?_eq_getElem within, Option.getD_some]
      exact BitVec.allOnes_and
    · rw [if_neg (by omega), if_pos above, List.getElem?_eq_none (by omega)]
      rfl
  · rw [if_neg (by omega), if_neg above]

theorem quadAt_eq {data : List Byte} {pos : Nat} (inside : pos + Flash.quadSize ≤ data.length) :
    quadAt data pos = (data.drop pos).take Flash.quadSize := by
  have full : ((data.drop pos).take Flash.quadSize).length = Flash.quadSize := by
    simp only [List.length_take, List.length_drop]
    omega
  simp [quadAt, List.rightpad, full]

theorem rangeProgram_run {flash : Flash} {off : Nat} {data : List Byte}
    (whole : Flash.quadSize ∣ data.length) (aligned : Flash.quadSize ∣ off)
    (blank : flash.Blank off data.length) :
    FlashStep.run (rangeProgram off data) flash = flash.written off data := by
  rw [FlashStep.run, rangeProgram, List.foldl_map]
  have initial : flash = flash.written off (data.take 0) := by simp
  conv_lhs => rw [initial]
  refine (foldl_strides (by decide) _ (fun pos => flash.written off (data.take pos)) ?_).trans ?_
  · intro pos below divides
    have fits : pos + Flash.quadSize ≤ data.length := by
      obtain ⟨m, length_eq⟩ := whole
      obtain ⟨k, rfl⟩ := divides
      simp only [Flash.quadSize] at *
      omega
    have taken : (data.take pos).length = pos := by simp; omega
    have rest_blank : (flash.written off (data.take pos)).Blank (off + pos) Flash.quadSize :=
      Flash.written_blank (fun x above under => blank x above (by omega)) taken
    have quad_length : (quadAt data pos).length = Flash.quadSize := by
      rw [quadAt_eq fits]
      simp
      omega
    rw [program_blank quad_length (Nat.dvd_add aligned divides) rest_blank, quadAt_eq fits,
      Nat.min_eq_right fits, List.take_add]
    conv_lhs => rw [show off + pos = off + (data.take pos).length by rw [taken]]
    exact Flash.written_append _ _ _ _
  · simp

theorem rangeProgram_inside {off : Nat} {data : List Byte} (whole : Flash.quadSize ∣ data.length)
    (aligned : Flash.quadSize ∣ off) :
    FlashStep.Inside (rangeProgram off data) off data.length := by
  intro step member
  obtain ⟨pos, within, rfl⟩ := List.mem_map.mp member
  obtain ⟨below, divides⟩ := (mem_strides (by decide)).mp within
  refine ⟨Nat.dvd_add aligned divides, Nat.le_add_right _ _, ?_⟩
  obtain ⟨m, length_eq⟩ := whole
  obtain ⟨k, rfl⟩ := divides
  simp only [FlashStep.off, FlashStep.size, Flash.quadSize] at *
  omega

end BenchPod
