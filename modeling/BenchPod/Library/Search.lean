import Mathlib.Data.List.Basic

/-!
# The first place in a list

A search walks over a list until what is left begins in a certain way.
-/

namespace BenchPod.Search

variable {α : Type*}

/-- What is left of a list from the first place where it goes on as wanted. -/
def search (wanted : List α → Bool) : List α → Option (List α)
  | [] => none
  | x :: xs => if wanted (x :: xs) then some (x :: xs) else search wanted xs

variable {wanted : List α → Bool} {xs tail : List α}

theorem search_some (found : search wanted xs = some tail) :
    ∃ front, xs = front ++ tail ∧ wanted tail = true ∧
      ∀ before rest, xs = before ++ rest → before.length < front.length → wanted rest = false := by
  induction xs with
  | nil => exact nomatch found
  | cons x xs ih =>
    rw [search] at found
    split at found
    · rename_i here
      obtain rfl := Option.some.inj found
      exact ⟨[], rfl, here, fun before rest _ less => absurd less (Nat.not_lt_zero _)⟩
    · rename_i missed
      obtain ⟨front, rfl, there, first⟩ := ih found
      refine ⟨x :: front, rfl, there, ?_⟩
      intro before rest cut less
      cases before with
      | nil =>
        rw [List.nil_append] at cut
        exact cut ▸ Bool.not_eq_true _ ▸ missed
      | cons y before =>
        obtain ⟨-, cut⟩ := List.cons.inj cut
        exact first before rest cut (Nat.lt_of_succ_lt_succ less)

theorem search_append {size : Nat} (near : ∀ front rest, size ≤ front.length → wanted (front ++ rest) = wanted front)
    (long : ∀ front, wanted front = true → size ≤ front.length) (found : search wanted xs = some tail) (more : List α) :
    search wanted (xs ++ more) = some (tail ++ more) := by
  induction xs with
  | nil => exact nomatch found
  | cons x xs ih =>
    rw [search] at found
    split at found
    · rename_i here
      obtain rfl := Option.some.inj found
      have still : wanted (x :: (xs ++ more)) = true := (near _ more (long _ here)).trans here
      rw [List.cons_append, search, if_pos still]
    · rename_i missed
      obtain ⟨front, cut, there, -⟩ := search_some found
      have room : size ≤ (x :: xs).length := by
        have end' := long tail there
        rw [cut, List.length_cons, List.length_append]
        omega
      have still : ¬wanted (x :: (xs ++ more)) = true := by
        rw [← List.cons_append, near _ more room]
        exact missed
      rw [List.cons_append, search, if_neg still]
      exact ih found

end BenchPod.Search
