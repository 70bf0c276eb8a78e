import Mathlib.Data.List.Basic

/-!
# Traces as edges

A trace sent as its changes: a pair of position and value wherever the value differs from the one before.
The reader holds a value until the next edge.
-/

namespace BenchPod.Edges

variable {α : Type*} {samples more : List α} {edges : List (Nat × α)} {last : Option α}

/-- The trace held on to a position. -/
def holdTo (samples : List α) (upto : Nat) : List α :=
  match samples.getLast? with
  | some value => samples ++ List.replicate (upto - samples.length) value
  | none => samples

/-- One edge taken in. -/
def take (samples : List α) (edge : Nat × α) : List α := holdTo samples edge.1 ++ [edge.2]

/-- A run of edges taken in, and the last value held on to a position. -/
def read (samples : List α) (edges : List (Nat × α)) (upto : Nat) : List α := holdTo (edges.foldl take samples) upto

theorem holdTo_of_le {upto : Nat} (behind : upto ≤ samples.length) : holdTo samples upto = samples := by
  unfold holdTo
  split
  · rw [Nat.sub_eq_zero_of_le behind, List.replicate_zero, List.append_nil]
  · rfl

theorem holdTo_succ {value : α} (held : samples.getLast? = some value) :
    holdTo samples (samples.length + 1) = samples ++ [value] := by
  simp [holdTo, held]

theorem holdTo_holdTo {first second : Nat} (later : first ≤ second) :
    holdTo (holdTo samples first) second = holdTo samples second := by
  cases held : samples.getLast? with
  | none => simp [holdTo, held]
  | some value =>
    have kept : (samples ++ List.replicate (first - samples.length) value).getLast? = some value := by
      rw [List.getLast?_append, List.getLast?_replicate]
      split <;> simp [held]
    simp only [holdTo, held, kept, List.append_assoc, List.replicate_append_replicate,
      List.length_append, List.length_replicate]
    congr 2
    omega

theorem read_holdTo {start upto : Nat} (later : start ≤ upto)
    (behind : ∀ edge ∈ edges, start ≤ edge.1) : read (holdTo samples start) edges upto = read samples edges upto := by
  cases edges with
  | nil => exact holdTo_holdTo later
  | cons edge edges =>
    have same : take (holdTo samples start) edge = take samples edge := by
      rw [take, take, holdTo_holdTo (behind edge List.mem_cons_self)]
    rw [read, read, List.foldl_cons, List.foldl_cons, same]

variable [DecidableEq α]

/-- The changes of a run of values from a position on, after the last value sent. -/
def changes : Option α → Nat → List α → List (Nat × α)
  | _, _, [] => []
  | last, i, value :: values =>
    if last = some value then changes last (i + 1) values
    else (i, value) :: changes (some value) (i + 1) values

theorem changes_behind {i : Nat} {values : List α} : ∀ edge ∈ changes last i values, i ≤ edge.1 := by
  induction values generalizing last i with
  | nil => simp [changes]
  | cons value values ih =>
    intro edge member
    unfold changes at member
    split at member
    · exact Nat.le_of_succ_le (ih edge member)
    · rcases List.mem_cons.mp member with rfl | later
      · exact Nat.le_refl i
      · exact Nat.le_of_succ_le (ih edge later)

theorem changes_shift (start i : Nat) (values : List α) :
    (changes last (start + i) values).map (fun edge => (edge.1 - start, edge.2)) = changes last i values := by
  induction values generalizing last i with
  | nil => rfl
  | cons value values ih =>
    unfold changes
    split
    · exact ih (i + 1)
    · rw [List.map_cons, Nat.add_assoc, ih (i + 1), Nat.add_sub_cancel_left]

theorem read_changes (values : List α) (sent : last = none ∨ last = samples.getLast?) :
    read samples (changes last samples.length values) (samples.length + values.length) = samples ++ values := by
  induction values generalizing samples last with
  | nil => simp [changes, read, holdTo_of_le]
  | cons value values ih =>
    have length : samples.length + (value :: values).length = (samples ++ [value]).length + values.length := by
      simp only [List.length_cons, List.length_append, List.length_nil]
      omega
    have next : samples.length + 1 = (samples ++ [value]).length := by simp
    have rest : read (samples ++ [value]) (changes (some value) (samples ++ [value]).length values)
        ((samples ++ [value]).length + values.length) = (samples ++ [value]) ++ values :=
      ih (.inr (by simp))
    rw [changes, length, next, List.append_cons samples value values]
    split
    · rename_i same
      have held : samples.getLast? = some value := by
        rcases sent with none_yet | last_is
        · rw [none_yet] at same
          cases same
        · rw [← last_is, same]
      rw [same]
      refine Eq.trans (read_holdTo ?_ ?_).symm ((congrArg (read · _ _) (holdTo_succ held)).trans rest)
      · rw [next]
        exact Nat.le_add_right _ _
      · rw [next]
        exact changes_behind
    · have taken : take samples (samples.length, value) = samples ++ [value] := by
        rw [take, holdTo_of_le (Nat.le_refl _)]
      rw [read, List.foldl_cons, taken]
      exact rest

end BenchPod.Edges
