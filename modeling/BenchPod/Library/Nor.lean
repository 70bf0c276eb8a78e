import BenchPod.Library.Word

/-!
# NOR flash whose operations may fail

A chip is erased to `0xFF` and programmed by clearing bits.  An operation runs to its end, or it
reports an error, or the power goes; the last two may leave anything in the range of the operation.
-/

namespace BenchPod

/-- One operation of a NOR chip. -/
inductive NorOp
  | erase (off size : Nat)
  | program (off : Nat) (data : List Byte)
  deriving DecidableEq

/-- What an operation meets.  An error and a loss of power leave their own bytes in its range. -/
inductive NorFault
  | none
  | fails (leaves : Nat → Byte)
  | cut (leaves : Nat → Byte)

/-- How an operation ends. -/
inductive NorStatus
  | done
  | failed
  | lost
  deriving DecidableEq

/-- A chip, and what its coming operations meet: nothing after the last fault. -/
structure Nor where
  byte : Nat → Byte
  ahead : List NorFault := []

namespace NorOp

/-- First address of an operation. -/
def off : NorOp → Nat
  | .erase off _ => off
  | .program off _ => off

/-- Number of bytes under an operation. -/
def size : NorOp → Nat
  | .erase _ size => size
  | .program _ data => data.length

/-- The address lies under the operation. -/
def Covers (op : NorOp) (x : Nat) : Prop := op.off ≤ x ∧ x < op.off + op.size

instance (op : NorOp) (x : Nat) : Decidable (op.Covers x) := inferInstanceAs (Decidable (_ ∧ _))

/-- The contents after an operation that ran to its end. -/
def result (byte : Nat → Byte) : NorOp → Nat → Byte
  | .erase off size, x => if off ≤ x ∧ x < off + size then 0xFF else byte x
  | .program off data, x =>
    if off ≤ x ∧ x < off + data.length then byte x &&& data.getD (x - off) 0xFF else byte x

/-- The contents after an operation that did not. -/
def spoiled (op : NorOp) (leaves byte : Nat → Byte) : Nat → Byte := fun x => if op.Covers x then leaves x else byte x

theorem result_outside {op : NorOp} {x : Nat} (outside : ¬op.Covers x) (byte : Nat → Byte) :
    op.result byte x = byte x := by
  cases op with
  | erase off size => exact if_neg outside
  | program off data => exact if_neg outside

theorem spoiled_outside {op : NorOp} {x : Nat} (outside : ¬op.Covers x) (leaves byte : Nat → Byte) :
    op.spoiled leaves byte x = byte x := if_neg outside

/-- All operations of a list lie in a range. -/
def Inside (ops : List NorOp) (start stop : Nat) : Prop := ∀ op ∈ ops, start ≤ op.off ∧ op.off + op.size ≤ stop

/-- The contents after a list of operations that all ran to their end. -/
def results (ops : List NorOp) (byte : Nat → Byte) : Nat → Byte := ops.foldl (fun byte op => op.result byte) byte

theorem results_erased {ops : List NorOp} (erases : ∀ op ∈ ops, ∃ off size, op = .erase off size)
    {x : Nat} (covered : ∃ op ∈ ops, op.Covers x) (byte : Nat → Byte) :
    results ops byte x = 0xFF := by
  have kept : ∀ {ops : List NorOp}, (∀ op ∈ ops, ∃ off size, op = .erase off size) →
      ∀ byte : Nat → Byte, byte x = 0xFF → results ops byte x = 0xFF := by
    intro ops erases
    induction ops with
    | nil => exact fun _ blank => blank
    | cons op ops ih =>
      intro byte blank
      obtain ⟨off, size, rfl⟩ := erases op (List.mem_cons_self ..)
      refine ih (fun other member => erases other (List.mem_cons_of_mem _ member)) _ ?_
      simp only [result, blank, ite_self]
  induction ops generalizing byte with
  | nil => simp at covered
  | cons op ops ih =>
    have rest : ∀ other ∈ ops, ∃ off size, other = NorOp.erase off size :=
      fun other member => erases other (List.mem_cons_of_mem _ member)
    obtain ⟨other, member, covers⟩ := covered
    obtain same | later := List.mem_cons.mp member
    · subst same
      obtain ⟨off, size, rfl⟩ := erases other (List.mem_cons_self ..)
      exact kept rest _ (if_pos covers)
    · exact ih rest ⟨other, later, covers⟩ _

end NorOp

namespace Nor

variable {chip : Nor} {op : NorOp} {ops : List NorOp}

/-- The bytes of a range. -/
def bytes (byte : Nat → Byte) (off count : Nat) : List Byte := (List.range count).map fun i => byte (off + i)

@[simp]
theorem bytes_length (byte : Nat → Byte) (off count : Nat) : (bytes byte off count).length = count := by
  simp [bytes]

theorem bytes_succ (byte : Nat → Byte) (off count : Nat) :
    bytes byte off (count + 1) = byte off :: bytes byte (off + 1) count := by
  simp [bytes, List.range_succ_eq_map, Function.comp_def, Nat.add_right_comm, Nat.add_assoc]

theorem bytes_congr {before after : Nat → Byte} {off count : Nat}
    (same : ∀ x, off ≤ x → x < off + count → after x = before x) :
    bytes after off count = bytes before off count := by
  apply List.map_congr_left
  intro i within
  have below := List.mem_range.mp within
  exact same _ (by omega) (by omega)

theorem byte_eq_of_bytes {first second : Nat → Byte} {off start count i : Nat}
    (same : bytes first off count = bytes second start count) (within : i < count) :
    first (off + i) = second (start + i) := by
  have at_i := congrArg (·[i]?) same
  simpa [bytes, within] using at_i

theorem bytes_slice (byte : Nat → Byte) (off : Nat) {start count total : Nat}
    (inside : start + count ≤ total) :
    bytes byte (off + start) count = ((bytes byte off total).drop start).take count := by
  apply List.ext_getElem
  · simp
    omega
  · intro i _ _
    simp [bytes, Nat.add_assoc]

/-- The next operation, with what it meets. -/
def attempt (chip : Nor) (op : NorOp) : Nor × NorStatus :=
  match chip.ahead with
  | .fails leaves :: ahead => (⟨op.spoiled leaves chip.byte, ahead⟩, .failed)
  | .cut leaves :: ahead => (⟨op.spoiled leaves chip.byte, ahead⟩, .lost)
  | ahead => (⟨op.result chip.byte, ahead.tail⟩, .done)

/-- Go on after a step that ran to its end. -/
def andThen (first : Nor × NorStatus) (next : Nor → Nor × NorStatus) : Nor × NorStatus :=
  match first with
  | (chip, .done) => next chip
  | other => other

/-- Operations in order, up to the first that does not run to its end. -/
def attempts (chip : Nor) : List NorOp → Nor × NorStatus
  | [] => (chip, .done)
  | op :: ops => andThen (chip.attempt op) fun chip => attempts chip ops

theorem attempt_outside {x : Nat} (outside : ¬op.Covers x) : (chip.attempt op).1.byte x = chip.byte x := by
  unfold attempt
  split
  · exact NorOp.spoiled_outside outside _ _
  · exact NorOp.spoiled_outside outside _ _
  · exact NorOp.result_outside outside _

theorem attempt_done (done : (chip.attempt op).2 = .done) : (chip.attempt op).1.byte = op.result chip.byte := by
  unfold attempt at done ⊢
  split at done
  · cases done
  · cases done
  · rfl

theorem andThen_of_ne {first : Nor × NorStatus} {next : Nor → Nor × NorStatus}
    (stopped : first.2 ≠ .done) : andThen first next = first := by
  obtain ⟨chip, status⟩ := first
  cases status with
  | done => exact absurd rfl stopped
  | failed => rfl
  | lost => rfl

theorem andThen_of_done {first : Nor × NorStatus} {next : Nor → Nor × NorStatus}
    (done : first.2 = .done) : andThen first next = next first.1 := by
  obtain ⟨chip, status⟩ := first
  subst done
  rfl

theorem andThen_done {first : Nor × NorStatus} {next : Nor → Nor × NorStatus} :
    (andThen first next).2 = .done ↔ first.2 = .done ∧ (next first.1).2 = .done := by
  by_cases done : first.2 = .done
  · rw [andThen_of_done done, and_iff_right done]
  · rw [andThen_of_ne done]
    exact ⟨fun other => absurd other done, fun both => absurd both.1 done⟩

theorem andThen_keeps {first : Nor × NorStatus} {next : Nor → Nor × NorStatus} {x : Nat} {value : Byte}
    (front : first.1.byte x = value) (back : first.1.byte x = value → (next first.1).1.byte x = value) :
    (andThen first next).1.byte x = value := by
  by_cases done : first.2 = .done
  · rw [andThen_of_done done]
    exact back front
  · rw [andThen_of_ne done]
    exact front

theorem attempts_outside {x : Nat} (outside : ∀ op ∈ ops, ¬op.Covers x) : (chip.attempts ops).1.byte x = chip.byte x := by
  induction ops generalizing chip with
  | nil => rfl
  | cons op ops ih =>
    refine andThen_keeps (attempt_outside (outside op (List.mem_cons_self ..))) ?_
    intro same
    rw [ih fun other member => outside other (List.mem_cons_of_mem _ member), same]

theorem attempts_done (done : (chip.attempts ops).2 = .done) :
    (chip.attempts ops).1.byte = NorOp.results ops chip.byte := by
  induction ops generalizing chip with
  | nil => rfl
  | cons op ops ih =>
    obtain ⟨first, rest⟩ := andThen_done.mp done
    rw [attempts, andThen_of_done first, ih rest, attempt_done first]
    rfl

theorem attempts_calm (calm : chip.ahead = []) : (chip.attempts ops).2 = .done ∧ (chip.attempts ops).1.ahead = [] := by
  induction ops generalizing chip with
  | nil => exact ⟨rfl, calm⟩
  | cons op ops ih =>
    obtain ⟨byte, ahead⟩ := chip
    subst calm
    exact ih rfl

theorem attempts_inside {start stop x : Nat} (inside : NorOp.Inside ops start stop)
    (apart : x < start ∨ stop ≤ x) : (chip.attempts ops).1.byte x = chip.byte x := by
  refine attempts_outside ?_
  rintro op member ⟨above, below⟩
  obtain ⟨low, high⟩ := inside op member
  omega

end Nor
end BenchPod
