import Mathlib.Data.List.Basic
import Mathlib.Logic.Function.Basic

/-!
# Regions of a ring of cells

A region is a first address and a length.  A memory of `size` cells decodes no more of an address than
it has cells, so that what runs past its end comes back at its start.
-/

namespace BenchPod

/-- A range of addresses. -/
structure Region where
  base : Nat
  len : Nat
  deriving DecidableEq

namespace Region

variable {r q : Region} {size : Nat}

/-- The first address behind a region. -/
def top (r : Region) : Nat := r.base + r.len

/-- Two regions have no address in common. -/
def Apart (r q : Region) : Prop := r.len = 0 ∨ q.len = 0 ∨ r.top ≤ q.base ∨ q.top ≤ r.base

instance : DecidableRel Apart := fun r q =>
  inferInstanceAs (Decidable (r.len = 0 ∨ q.len = 0 ∨ r.top ≤ q.base ∨ q.top ≤ r.base))

/-- A region lies below an address; an empty one lies anywhere. -/
def Below (r : Region) (limit : Nat) : Prop := r.len = 0 ∨ r.top ≤ limit

instance (r : Region) (limit : Nat) : Decidable (r.Below limit) :=
  inferInstanceAs (Decidable (r.len = 0 ∨ r.top ≤ limit))

theorem Below.mono {limit more : Nat} (below : r.Below limit) (higher : limit ≤ more) : r.Below more :=
  below.imp_right fun top => Nat.le_trans top higher

theorem Below.apart (below : r.Below q.base) : r.Apart q := by
  obtain empty | before := below
  · exact .inl empty
  · exact .inr (.inr (.inl before))

theorem not_apart_of_mem {a : Nat} (left : r.base ≤ a ∧ a < r.top) (right : q.base ≤ a ∧ a < q.top) : ¬r.Apart q := by
  unfold Apart top at *
  omega

end Region

namespace Ring

variable {β : Type*} (size : Nat)

/-- A cell of the ring set. -/
def put (mem : Nat → β) (address : Nat) (value : β) : Nat → β := Function.update mem (address % size) value

/-- Values written from an address on. -/
def pour : (Nat → β) → Nat → List β → Nat → β
  | mem, _, [] => mem
  | mem, start, value :: values => pour (put size mem start value) (start + 1) values

/-- Values read from an address on. -/
def read (mem : Nat → β) (start count : Nat) : List β := (List.range count).map fun i => mem ((start + i) % size)

variable {size} {mem : Nat → β} {r q : Region}

theorem put_of_ne {address cell : Nat} (other : address % size ≠ cell) (value : β) :
    put size mem address value cell = mem cell := by
  unfold put
  exact Function.update_of_ne (Ne.symm other) value mem

theorem pour_of_ne {start cell : Nat} {values : List β}
    (other : ∀ i < values.length, (start + i) % size ≠ cell) : pour size mem start values cell = mem cell := by
  induction values generalizing mem start with
  | nil => rfl
  | cons value values ih =>
    rw [pour, ih]
    · exact put_of_ne (other 0 (by simp)) value
    · intro i small
      rw [Nat.add_assoc, Nat.add_comm 1]
      exact other (i + 1) (by simpa using small)

theorem read_congr {after : Nat → β} {start count : Nat}
    (same : ∀ i < count, after ((start + i) % size) = mem ((start + i) % size)) :
    read size after start count = read size mem start count := by
  refine List.map_congr_left ?_
  intro i member
  exact same i (List.mem_range.mp member)

theorem read_put (apart : r.Apart q) (within : r.top ≤ size) (inside : q.top ≤ size) {offset : Nat}
    (small : offset < r.len) (value : β) :
    read size (put size mem (r.base + offset) value) q.base q.len = read size mem q.base q.len := by
  refine read_congr ?_
  intro i member
  refine put_of_ne ?_ value
  unfold Region.Apart Region.top at *
  rw [Nat.mod_eq_of_lt (by omega), Nat.mod_eq_of_lt (by omega)]
  omega

theorem read_pour (apart : r.Apart q) (within : r.top ≤ size) (inside : q.top ≤ size) {values : List β}
    (short : values.length ≤ r.len) :
    read size (pour size mem r.base values) q.base q.len = read size mem q.base q.len := by
  refine read_congr ?_
  intro i member
  refine pour_of_ne ?_
  intro j small
  unfold Region.Apart Region.top at *
  rw [Nat.mod_eq_of_lt (by omega), Nat.mod_eq_of_lt (by omega)]
  omega

@[simp]
theorem read_length (mem : Nat → β) (start count : Nat) : (read size mem start count).length = count := by
  simp [read]

theorem read_part {start count skip part : Nat} (inside : skip + part ≤ count) :
    read size mem (start + skip) part = ((read size mem start count).drop skip).take part := by
  apply List.ext_getElem
  · simp
    omega
  · intro i _ _
    simp [read, Nat.add_assoc]

end Ring
end BenchPod
