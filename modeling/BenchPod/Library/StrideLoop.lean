import Mathlib.Data.List.Basic

/-!
# Loops that advance by a fixed stride

`for (pos = 0; pos < limit; pos += stride)` visits the positions `strides limit stride`.  The two
loop rules carry a closed form of the accumulator from one position to the next; the last piece may
be shorter than the stride.
-/

namespace BenchPod

/-- The positions `0, stride, 2 * stride, …` below `limit`. -/
def strides (limit stride : Nat) : List Nat := (List.range ((limit + stride - 1) / stride)).map (· * stride)

theorem strides_count_le {limit stride k : Nat} (positive : 0 < stride)
    (within : k < (limit + stride - 1) / stride) : k * stride < limit := by
  have bound : (k + 1) * stride ≤ limit + stride - 1 := (Nat.le_div_iff_mul_le positive).mp within
  rw [Nat.succ_mul] at bound
  omega

theorem strides_cover (limit stride : Nat) (positive : 0 < stride) : limit ≤ (limit + stride - 1) / stride * stride := by
  have split := Nat.div_add_mod (limit + stride - 1) stride
  have small := Nat.mod_lt (limit + stride - 1) positive
  rw [Nat.mul_comm] at split
  omega

theorem mem_strides {limit stride pos : Nat} (positive : 0 < stride) :
    pos ∈ strides limit stride ↔ pos < limit ∧ stride ∣ pos := by
  simp only [strides, List.mem_map, List.mem_range]
  constructor
  · rintro ⟨k, within, rfl⟩
    exact ⟨strides_count_le positive within, Nat.dvd_mul_left _ _⟩
  · rintro ⟨below, k, rfl⟩
    refine ⟨k, ?_, Nat.mul_comm _ _⟩
    rw [Nat.lt_iff_add_one_le, Nat.le_div_iff_mul_le positive, Nat.succ_mul, Nat.mul_comm k]
    omega

theorem strides_nodup {limit stride : Nat} (positive : 0 < stride) : (strides limit stride).Nodup := by
  refine List.pairwise_map.mpr (List.nodup_range.imp ?_)
  intro i j apart same
  exact apart (Nat.eq_of_mul_eq_mul_right positive same)

theorem foldl_strides {β : Type*} {limit stride : Nat} (positive : 0 < stride)
    (body : β → Nat → β) (closed : Nat → β)
    (step : ∀ pos, pos < limit → stride ∣ pos →
      body (closed pos) pos = closed (min limit (pos + stride))) :
    (strides limit stride).foldl body (closed 0) = closed limit := by
  have prefixes : ∀ k, k ≤ (limit + stride - 1) / stride →
      ((List.range k).map (· * stride)).foldl body (closed 0) = closed (min limit (k * stride)) := by
    intro k
    induction k with
    | zero => simp
    | succ k ih =>
      intro within
      have below := strides_count_le positive within
      rw [List.range_succ, List.map_append, List.foldl_append, ih (by omega),
        Nat.min_eq_right (Nat.le_of_lt below)]
      simp only [List.map_cons, List.map_nil, List.foldl_cons, List.foldl_nil]
      rw [step _ below (Nat.dvd_mul_left _ _), Nat.succ_mul]
  rw [strides, prefixes _ (Nat.le_refl _), Nat.min_eq_left (strides_cover limit stride positive)]

theorem foldlM_strides {β : Type*} (limit stride : Nat) (positive : 0 < stride)
    (body : β → Nat → Option β) (start : β) (closed : Nat → Option β)
    (initial : closed 0 = some start)
    (step : ∀ pos, pos < limit → stride ∣ pos →
      closed pos >>= (fun acc => body acc pos) = closed (min limit (pos + stride))) :
    (strides limit stride).foldlM body start = closed limit := by
  have prefixes : ∀ k, k ≤ (limit + stride - 1) / stride →
      ((List.range k).map (· * stride)).foldlM body start = closed (min limit (k * stride)) := by
    intro k
    induction k with
    | zero => simp [initial]
    | succ k ih =>
      intro within
      have below := strides_count_le positive within
      rw [List.range_succ, List.map_append, List.foldlM_append, ih (by omega),
        Nat.min_eq_right (Nat.le_of_lt below)]
      simp only [List.map_cons, List.map_nil, List.foldlM_cons, List.foldlM_nil, bind_pure]
      rw [step _ below (Nat.dvd_mul_left _ _), Nat.succ_mul]
  rw [strides, prefixes _ (Nat.le_refl _), Nat.min_eq_left (strides_cover limit stride positive)]

theorem foldlM_strides_some {β : Type*} (limit stride : Nat) (positive : 0 < stride)
    (body : β → Nat → Option β) (start result : β) (Good : Nat → β → Prop) (initial : Good 0 start)
    (step : ∀ pos acc next, pos < limit → stride ∣ pos → Good pos acc → body acc pos = some next →
      Good (min limit (pos + stride)) next)
    (done : (strides limit stride).foldlM body start = some result) : Good limit result := by
  have prefixes : ∀ k, k ≤ (limit + stride - 1) / stride → ∀ acc,
      ((List.range k).map (· * stride)).foldlM body start = some acc → Good (min limit (k * stride)) acc := by
    intro k
    induction k with
    | zero =>
      intro _ acc ran
      cases ran
      simpa using initial
    | succ k ih =>
      intro within acc ran
      have below := strides_count_le positive within
      rw [List.range_succ, List.map_append, List.foldlM_append] at ran
      obtain ⟨middle, front, last⟩ := Option.bind_eq_some_iff.mp ran
      have good := ih (by omega) middle front
      rw [Nat.min_eq_right (Nat.le_of_lt below)] at good
      simp only [List.map_cons, List.map_nil, List.foldlM_cons, List.foldlM_nil, bind_pure] at last
      rw [Nat.succ_mul]
      exact step _ _ _ below (Nat.dvd_mul_left _ _) good last
  have good := prefixes _ (Nat.le_refl _) result done
  rwa [Nat.min_eq_left (strides_cover limit stride positive)] at good

end BenchPod
