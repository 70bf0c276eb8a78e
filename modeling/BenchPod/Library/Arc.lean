import Mathlib.Data.List.Basic
import Mathlib.Data.List.Nodup
import Mathlib.Data.Nat.ModEq

/-!
# Arcs of a ring

The places of a ring from one place on.  A walk once around that starts somewhere else visits the same
places in the same order, with the arc between the two starts moved to the end.
-/

namespace BenchPod

/-- So many places of a ring from one place on. -/
def arc (size start count : Nat) : List Nat := (List.range count).map fun i => (start + i) % size

variable {size start count place : Nat}

theorem mem_arc : place ∈ arc size start count ↔ ∃ i < count, (start + i) % size = place := by simp [arc]

theorem arc_append (size start first second : Nat) :
    arc size start (first + second) = arc size start first ++ arc size (start + first) second := by
  simp only [arc, List.range_add, List.map_append, List.map_map, Nat.add_assoc]
  rfl

theorem arc_mod (size start count : Nat) : arc size (start % size) count = arc size start count := by
  simp [arc]

theorem arc_turn (size start count : Nat) : arc size (start + size) count = arc size start count := by
  rw [← arc_mod, Nat.add_mod_right, arc_mod]

theorem mem_arc_around (positive : 0 < size) : place ∈ arc size start size ↔ place < size := by
  rw [mem_arc]
  constructor
  · rintro ⟨i, _, rfl⟩
    exact Nat.mod_lt _ positive
  · intro within
    refine ⟨(place + (size - start % size)) % size, Nat.mod_lt _ positive, ?_⟩
    have start_lt := Nat.mod_lt start positive
    rw [Nat.add_mod_mod, ← Nat.mod_add_mod,
      show start % size + (place + (size - start % size)) = place + size by omega, Nat.add_mod_right,
      Nat.mod_eq_of_lt within]

theorem arc_nodup (within : count ≤ size) : (arc size start count).Nodup := by
  refine (List.nodup_range).map_on ?_
  intro i i_mem j j_mem same
  have i_lt := List.mem_range.mp i_mem
  have j_lt := List.mem_range.mp j_mem
  have shifted : i ≡ j [MOD size] := Nat.ModEq.add_left_cancel' start same
  exact shifted.eq_of_lt_of_lt (by omega) (by omega)

theorem arc_around (within : count ≤ size) (start : Nat) :
    arc size (start + count) size = arc size (start + count) (size - count) ++ arc size start count := by
  have whole := arc_append size (start + count) (size - count) count
  rw [Nat.sub_add_cancel within] at whole
  rw [whole, Nat.add_assoc, Nat.add_sub_cancel' within, arc_turn]

theorem arc_split (within : count ≤ size) (start : Nat) :
    arc size start size = arc size start count ++ arc size (start + count) (size - count) := by
  rw [← arc_append, Nat.add_sub_cancel' within]

section FilterMap

variable {α : Type*} {read : Nat → Option α}

theorem filterMap_arc_skip (within : count ≤ size) (nothing : ∀ place ∈ arc size start count, read place = none) :
    (arc size (start + count) size).filterMap read = (arc size start size).filterMap read := by
  have skipped : (arc size start count).filterMap read = [] := List.filterMap_eq_nil_iff.mpr nothing
  rw [arc_around within, arc_split within, List.filterMap_append, List.filterMap_append, skipped, List.append_nil,
    List.nil_append]

end FilterMap

end BenchPod
