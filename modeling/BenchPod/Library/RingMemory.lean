import Mathlib.Data.List.Basic
import Mathlib.Data.Nat.ModEq
import Mathlib.Logic.Function.Basic

/-!
# A queue in a ring of cells

Values go into the cells one after the other, round and round, and leave in the same order.  All that have gone
in are `fed`, and `taken` of them have left.
-/

namespace BenchPod.RingMemory

theorem count_same {ring n k m : Nat} (inside : k < ring) (inside' : m < ring) :
    (n + k) % ring = (n + m) % ring ↔ k = m := by
  constructor
  · intro same
    have cancelled : k % ring = m % ring := Nat.ModEq.add_left_cancel' n same
    rwa [Nat.mod_eq_of_lt inside, Nat.mod_eq_of_lt inside'] at cancelled
  · intro same
    rw [same]

theorem count_distance {ring n k : Nat} (inside : k < ring) : ((n + k) % ring + ring - n % ring) % ring = k := by
  have positive : 0 < ring := Nat.lt_of_le_of_lt (Nat.zero_le k) inside
  have low := Nat.mod_lt n positive
  have met : (n + ((n + k) % ring + ring - n % ring) % ring) % ring = (n + k) % ring := by
    rw [Nat.add_mod_mod, ← Nat.mod_add_mod, show n % ring + ((n + k) % ring + ring - n % ring) = (n + k) % ring + ring by omega,
      Nat.add_mod_right, Nat.mod_mod]
  exact (count_same (Nat.mod_lt _ positive) inside).mp met

variable {α : Type*} {size taken : Nat} {mem : Nat → α} {fed : List α} {value : α}

/-- The values that have not left lie in their cells. -/
structure Keeps (size : Nat) (mem : Nat → α) (fed : List α) (taken : Nat) : Prop where
  behind : taken ≤ fed.length
  room : fed.length ≤ taken + size
  held : ∀ place, taken ≤ place → fed[place]? = if place < fed.length then some (mem (place % size)) else none

theorem Keeps.empty (size : Nat) (mem : Nat → α) : Keeps size mem [] 0 := ⟨Nat.le_refl 0, Nat.zero_le _, fun _ _ => rfl⟩

theorem Keeps.head (keeps : Keeps size mem fed taken) (more : taken < fed.length) :
    fed[taken]? = some (mem (taken % size)) := by
  rw [keeps.held taken (Nat.le_refl _), if_pos more]

theorem Keeps.push (keeps : Keeps size mem fed taken) (free : fed.length < taken + size) :
    Keeps size (Function.update mem (fed.length % size) value) (fed ++ [value]) taken := by
  refine ⟨?_, ?_, fun place late => ?_⟩
  · rw [List.length_append]
    exact Nat.le_add_right_of_le keeps.behind
  · rw [List.length_append]
    exact free
  · rw [List.length_append, List.length_singleton]
    obtain before | here | after := Nat.lt_trichotomy place fed.length
    · have other : place % size ≠ fed.length % size := by
        intro same
        have apart : fed.length - place < size := by omega
        have whole : (fed.length - place) % size = 0 := by rw [← Nat.sub_mod_eq_zero_of_mod_eq same.symm]
        rw [Nat.mod_eq_of_lt apart] at whole
        omega
      rw [List.getElem?_append_left before, keeps.held place late, if_pos before, if_pos (Nat.lt_succ_of_lt before),
        Function.update_of_ne other]
    · rw [here, List.getElem?_concat_length, if_pos (Nat.lt_succ_self _), Function.update_self]
    · have past : (fed ++ [value]).length ≤ place := by
        rw [List.length_append, List.length_singleton]
        exact after
      rw [List.getElem?_eq_none past, if_neg (by omega)]

theorem Keeps.pop (keeps : Keeps size mem fed taken) (more : taken < fed.length) : Keeps size mem fed (taken + 1) :=
  ⟨more, Nat.le_trans keeps.room (by omega), fun place late => keeps.held place (Nat.le_of_succ_le late)⟩

end BenchPod.RingMemory
