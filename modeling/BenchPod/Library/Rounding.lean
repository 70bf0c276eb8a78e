import Mathlib.Algebra.Order.Field.Rat
import Mathlib.Algebra.Order.AbsoluteValue.Basic
import Mathlib.Algebra.Order.Field.Basic
import Mathlib.Tactic.FieldSimp
import Mathlib.Tactic.Linarith
import Mathlib.Tactic.Ring

/-!
# Rounding by half a divisor

A quotient rounded by adding half of the divisor before a division that truncates: fair for what is not negative, and
for what is negative only near zero and where the remainder is the half.
-/

namespace BenchPod.Rounding

theorem up_near {n den : Nat} (some : 0 < den) :
    2 * n ≤ 2 * ((n + den / 2) / den * den) + den ∧ 2 * ((n + den / 2) / den * den) ≤ 2 * n + den := by
  have parts := Nat.div_add_mod (n + den / 2) den
  have inside := Nat.mod_lt (n + den / 2) some
  have same : den * ((n + den / 2) / den) = (n + den / 2) / den * den := Nat.mul_comm _ _
  omega

theorem down_le {n den : Nat} : (n - den / 2) / den * den ≤ n := Nat.le_trans (Nat.div_mul_le_self _ _) (Nat.sub_le _ _)

theorem down_near_iff {n den : Nat} (some : 0 < den) :
    2 * n ≤ 2 * ((n - den / 2) / den * den) + den ↔ n ≤ den / 2 ∨ n % den = den / 2 := by
  obtain low | high := le_or_gt n (den / 2)
  · rw [Nat.sub_eq_zero_of_le low, Nat.zero_div, Nat.zero_mul]
    exact iff_of_true (by omega) (.inl low)
  · have parts := Nat.div_add_mod n den
    have inside := Nat.mod_lt n some
    have split : (n - den / 2) / den = if den / 2 ≤ n % den then n / den else n / den - 1 := by
      have many : den / 2 ≤ n % den ∨ 0 < n / den := by
        obtain less | more := Nat.lt_or_ge n den
        · rw [Nat.mod_eq_of_lt less]
          exact .inl high.le
        · exact .inr (Nat.div_pos more some)
      split
      · next within =>
          rw [show n - den / 2 = n % den - den / 2 + den * (n / den) by omega, Nat.add_mul_div_left _ _ some,
            Nat.div_eq_of_lt (by omega), Nat.zero_add]
      · next below =>
          obtain ⟨q, whole⟩ := Nat.exists_eq_add_of_lt (many.resolve_left below)
          rw [Nat.zero_add] at whole
          rw [whole] at parts ⊢
          have step : den * (q + 1) = den * q + den := Nat.mul_succ _ _
          rw [show n - den / 2 = n % den + den - den / 2 + den * q by omega, Nat.add_mul_div_left _ _ some,
            Nat.div_eq_of_lt (by omega), Nat.zero_add, Nat.add_sub_cancel]
    rw [split]
    split
    · next within =>
        have same : den * (n / den) = n / den * den := Nat.mul_comm _ _
        omega
    · next below =>
        have less : (n / den - 1) * den ≤ n / den * den - den := by rw [Nat.sub_one_mul]
        have same : den * (n / den) = n / den * den := Nat.mul_comm _ _
        omega

theorem near_iff {n q den : Nat} (some : 0 < den) :
    |(q : ℚ) - n / den| ≤ 1 / 2 ↔ 2 * n ≤ 2 * (q * den) + den ∧ 2 * (q * den) ≤ 2 * n + den := by
  have positive : (0 : ℚ) < den := Nat.cast_pos.mpr some
  have scaled : (q : ℚ) - n / den = (q * den - n) / den := by field_simp
  rw [scaled, abs_div, abs_of_pos positive, div_le_iff₀ positive, abs_le, ← @Nat.cast_le ℚ, ← @Nat.cast_le ℚ]
  push_cast
  constructor
  · rintro ⟨low, high⟩
    exact ⟨by linarith, by linarith⟩
  · rintro ⟨low, high⟩
    exact ⟨by linarith, by linarith⟩

theorem up_part {d f den : Nat} (inside : f < den) : (d * f + den / 2) / den ≤ d := by
  obtain none | some := Nat.eq_zero_or_pos d
  · rw [none, Nat.zero_mul, Nat.zero_add, Nat.div_eq_of_lt (by omega)]
  · have bound : d * f ≤ d * (den - 1) := Nat.mul_le_mul_left _ (by omega)
    rw [Nat.mul_sub_one] at bound
    have product : den ≤ d * den := Nat.le_mul_of_pos_left _ some
    refine Nat.le_of_lt_succ ((Nat.div_lt_iff_lt_mul (by omega)).mpr ?_)
    rw [Nat.succ_mul]
    omega

theorem down_part {d f den : Nat} (inside : f < den) : (d * f - den / 2) / den ≤ d := by
  have some : 0 < den := Nat.lt_of_le_of_lt (Nat.zero_le f) inside
  have bound : d * f ≤ d * den := Nat.mul_le_mul_left _ inside.le
  exact Nat.div_le_of_le_mul (by rw [Nat.mul_comm den]; omega)

theorem tdiv_up (n den : Nat) : Int.tdiv ((n : Int) + (den / 2 : Nat)) den = ((n + den / 2) / den : Nat) := by
  rw [← Int.natCast_add, Int.ofNat_tdiv]

theorem tdiv_down {n den : Nat} (some : 0 < den) :
    Int.tdiv (-(n : Int) + (den / 2 : Nat)) den = -((n - den / 2) / den : Nat) := by
  obtain low | high := le_or_gt n (den / 2)
  · have small : (-(n : Int) + (den / 2 : Nat)) = ((den / 2 - n : Nat) : Int) := by omega
    rw [small, Nat.sub_eq_zero_of_le low, ← Int.ofNat_tdiv, Nat.div_eq_of_lt (by omega), Nat.zero_div]
    rfl
  · have negative : (-(n : Int) + (den / 2 : Nat)) = -((n - den / 2 : Nat) : Int) := by omega
    rw [negative, Int.neg_tdiv, ← Int.ofNat_tdiv]

end BenchPod.Rounding
