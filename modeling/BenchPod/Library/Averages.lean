import BenchPod.Library.Rounding

/-!
# Averages of averages

An average that is rounded is within half a unit of the exact one.  The average of two averages, each of equally
many numbers and each within so many halves of a unit, is within one half more of the average of all of them.
-/

namespace BenchPod.Averages

/-- `v` is within so many halves of a unit of the average of `count` numbers with this sum. -/
def Within (halves : Nat) (v sum : Int) (count : Nat) : Prop :=
  2 * (v * count) ≤ 2 * sum + count * halves ∧ 2 * sum ≤ 2 * (v * count) + count * halves

namespace Within

variable {halves more count : Nat} {v w u sum other : Int}

theorem mono (near : Within halves v sum count) (le : halves ≤ more) : Within more v sum count := by
  have scaled : (count : Int) * halves ≤ count * more :=
    Int.mul_le_mul_of_nonneg_left (Int.ofNat_le.mpr le) (Int.natCast_nonneg _)
  exact ⟨by linarith [near.1], by linarith [near.2]⟩

theorem rounded {t : Nat} (some : 0 < count) : Within 1 (t / count : Nat) ((t : Int) - (count / 2 : Nat)) count := by
  have parts := Nat.div_add_mod t count
  have inside := Nat.mod_lt t some
  have same : count * (t / count) = t / count * count := Nat.mul_comm _ _
  have whole : ((t / count * count : Nat) : Int) = (t / count : Nat) * (count : Int) := Int.natCast_mul _ _
  constructor
  · rw [← whole]
    omega
  · rw [← whole]
    omega

theorem exact (near : Within 1 v sum 1) : Within 0 v sum 1 := by
  have same : v * ((1 : Nat) : Int) = v := Int.mul_one _
  rw [Within, same] at near ⊢
  constructor
  · omega
  · omega

theorem neg (near : Within halves v sum count) : Within halves (-v) (-sum) count := by
  constructor
  · linarith [near.2]
  · linarith [near.1]

theorem join (left : Within halves v sum count) (right : Within halves w other count)
    (low : 2 * u ≤ v + w + 1) (high : v + w ≤ 2 * u + 1) :
    Within (halves + 1) u (sum + other) (count + count) := by
  have lowScaled : (2 * u) * (count : Int) ≤ (v + w + 1) * count :=
    Int.mul_le_mul_of_nonneg_right low (Int.natCast_nonneg _)
  have highScaled : (v + w) * (count : Int) ≤ (2 * u + 1) * count :=
    Int.mul_le_mul_of_nonneg_right high (Int.natCast_nonneg _)
  constructor
  · push_cast
    linarith [left.1, right.1]
  · push_cast
    linarith [left.2, right.2]

theorem near_iff {units : Nat} (some : 0 < count) : Within (2 * units) v sum count ↔ |(v : ℚ) - sum / count| ≤ units := by
  have positive : (0 : ℚ) < count := Nat.cast_pos.mpr some
  have scaled : (v : ℚ) - sum / count = (v * count - sum) / count := by field_simp
  rw [scaled, abs_div, abs_of_pos positive, div_le_iff₀ positive, abs_le, Within, ← @Int.cast_le ℚ, ← @Int.cast_le ℚ]
  push_cast
  constructor
  · rintro ⟨low, high⟩
    exact ⟨by linarith, by linarith⟩
  · rintro ⟨low, high⟩
    exact ⟨by linarith, by linarith⟩

theorem apart (near : Within halves v sum count) (far : sum + count * (halves + more) < other) :
    ¬Within more v other count := by
  intro both
  have positive : (0 : Int) ≤ (count : Int) * (halves + more : Nat) := by positivity
  push_cast at positive
  linarith [near.1, both.2]

end Within
end BenchPod.Averages
