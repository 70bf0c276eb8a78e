import Mathlib.Data.List.Basic

/-!
# Fields of a record

A writer puts fields into a record at offsets of its own choice, a reader takes them out again.  Fields that
lie apart and inside the record are read back as they were written, in whatever order that happened.
-/

namespace BenchPod.Fields

variable {α : Type*}

/-- A field as it is written: its offset and its content. -/
abbrev Field (α : Type*) := Nat × List α

/-- Write a field. -/
def put (record : List α) (field : Field α) : List α :=
  record.take field.1 ++ field.2 ++ record.drop (field.1 + field.2.length)

/-- Write fields one after the other. -/
def puts (record : List α) (fields : List (Field α)) : List α := fields.foldl put record

/-- So many items of a record, from an offset on. -/
def part (record : List α) (offset count : Nat) : List α := (record.drop offset).take count

/-- Two fields have no place in common. -/
def Apart (f g : Field α) : Prop := f.1 + f.2.length ≤ g.1 ∨ g.1 + g.2.length ≤ f.1

/-- A field lies inside a record. -/
def Inside (size : Nat) (f : Field α) : Prop := f.1 + f.2.length ≤ size

variable {record : List α} {f : Field α} {fields : List (Field α)} {offset count : Nat}

theorem put_length (inside : Inside record.length f) : (put record f).length = record.length := by
  rw [Inside] at inside
  simp only [put, List.length_append, List.length_take, List.length_drop]
  omega

theorem part_put (inside : Inside record.length f) : part (put record f) f.1 f.2.length = f.2 := by
  rw [Inside] at inside
  have front : (record.take f.1).length = f.1 := List.length_take_of_le (by omega)
  rw [part, put, List.append_assoc, List.drop_left' front, List.take_left' rfl]

theorem part_put_apart (inside : Inside record.length f)
    (apart : f.1 + f.2.length ≤ offset ∨ offset + count ≤ f.1) :
    part (put record f) offset count = part record offset count := by
  rw [Inside] at inside
  have front : (record.take f.1).length = f.1 := List.length_take_of_le (by omega)
  rcases apart with behind | before
  · have upto : (record.take f.1 ++ f.2).length = f.1 + f.2.length := by rw [List.length_append, front]
    have skip : f.1 + f.2.length + (offset - (f.1 + f.2.length)) = offset := by omega
    rw [part, put, List.drop_append, upto, List.drop_eq_nil_of_le (by omega), List.nil_append, List.drop_drop,
      skip, part]
  · have enough : count ≤ (List.drop offset (record.take f.1)).length := by
      rw [List.length_drop, front]
      omega
    rw [part, put, List.append_assoc, List.drop_append_of_le_length (by omega),
      List.take_append_of_le_length enough, List.drop_take, List.take_take, Nat.min_eq_left (by omega), part]

theorem puts_concat (record : List α) (fields : List (Field α)) (last : Field α) :
    puts record (fields ++ [last]) = put (puts record fields) last := by
  rw [puts, List.foldl_append, puts]
  rfl

theorem puts_length (inside : ∀ f ∈ fields, Inside record.length f) : (puts record fields).length = record.length := by
  induction fields generalizing record with
  | nil => rfl
  | cons f fields ih =>
    have here := put_length (inside f List.mem_cons_self)
    rw [puts, List.foldl_cons, ← puts, ih, here]
    intro g member
    rw [here]
    exact inside g (List.mem_cons_of_mem _ member)

theorem part_puts_apart (inside : ∀ f ∈ fields, Inside record.length f)
    (apart : ∀ f ∈ fields, f.1 + f.2.length ≤ offset ∨ offset + count ≤ f.1) :
    part (puts record fields) offset count = part record offset count := by
  induction fields generalizing record with
  | nil => rfl
  | cons f fields ih =>
    have here := put_length (inside f List.mem_cons_self)
    rw [puts, List.foldl_cons, ← puts, ih]
    · exact part_put_apart (inside f List.mem_cons_self) (apart f List.mem_cons_self)
    · intro g member
      rw [here]
      exact inside g (List.mem_cons_of_mem _ member)
    · exact fun g member => apart g (List.mem_cons_of_mem _ member)

theorem part_puts (inside : ∀ f ∈ fields, Inside record.length f) (apart : fields.Pairwise Apart) :
    ∀ f ∈ fields, part (puts record fields) f.1 f.2.length = f.2 := by
  induction fields generalizing record with
  | nil => exact fun f member => absurd member List.not_mem_nil
  | cons g fields ih =>
    have here := put_length (inside g List.mem_cons_self)
    have later : ∀ f ∈ fields, Inside (put record g).length f := by
      intro f member
      rw [here]
      exact inside f (List.mem_cons_of_mem _ member)
    rw [List.pairwise_cons] at apart
    rw [puts, List.foldl_cons, ← puts, List.forall_mem_cons]
    refine ⟨?_, ih later apart.2⟩
    rw [part_puts_apart later]
    · exact part_put (inside g List.mem_cons_self)
    · exact fun f member => (apart.1 f member).symm

end BenchPod.Fields
