import BenchPod.Library.Emitter

/-!
# Runs without an end

A deterministic system that takes one event after another forever: what has been emitted by a time,
and how a falling rank, with turns that keep coming, leads to a goal.
-/

namespace BenchPod
namespace Emitter

variable {σ ε β : Type*} (system : Emitter σ ε β) (start : σ) (events : Nat → ε)

/-- The state after a number of events. -/
def after : Nat → σ
  | 0 => start
  | n + 1 => system.step (after n) (events n)

/-- What an event emits. -/
def shown (n : Nat) : Option β := system.emit (system.after start events n) (events n)

/-- Everything emitted before a time, in order. -/
def history : Nat → List β
  | 0 => []
  | n + 1 => history n ++ (system.shown start events n).toList

/-- Every event comes in a state it is allowed in. -/
def Always (Allowed : σ → ε → Prop) : Prop := ∀ n, Allowed (system.after start events n) (events n)

variable {system start events}

theorem Always.invariant {Allowed : σ → ε → Prop} (always : system.Always start events Allowed)
    (Good : σ → Prop)
    (kept : ∀ {state event}, Good state → Allowed state event → Good (system.step state event))
    (good : Good start) : ∀ n, Good (system.after start events n) := by
  intro n
  induction n with
  | zero => exact good
  | succ n ih => exact kept ih (always n)

end Emitter

/-- What happens again and again. -/
def Recurs (Turn : Nat → Prop) : Prop := ∀ n, ∃ m, n ≤ m ∧ Turn m

theorem Recurs.met {Turn Waiting : Nat → Prop} (recurs : Recurs Turn)
    (stays : ∀ n, Waiting n → ¬ Turn n → Waiting (n + 1)) {n : Nat} (waiting : Waiting n) :
    ∃ m, n ≤ m ∧ Waiting m ∧ Turn m := by
  obtain ⟨m, le, turn⟩ := recurs n
  obtain ⟨gap, rfl⟩ := Nat.exists_eq_add_of_le le
  clear le
  induction gap generalizing n with
  | zero => exact ⟨n, Nat.le_refl n, waiting, turn⟩
  | succ gap ih =>
    by_cases now : Turn n
    · exact ⟨n, Nat.le_refl n, waiting, now⟩
    · have turn : Turn (n + 1 + gap) := by rwa [Nat.add_assoc, Nat.add_comm 1]
      obtain ⟨m, le, met⟩ := ih (stays n waiting now) turn
      exact ⟨m, Nat.le_of_succ_le le, met⟩

theorem Recurs.reaches {Turn Goal : Nat → Prop} {Near : Nat → Nat → Prop} (recurs : Recurs Turn)
    (stays : ∀ rank n, Near rank n → ¬ Turn n → Near rank (n + 1))
    (falls : ∀ rank n, Near rank n → Turn n → Goal n ∨ ∃ less < rank, Near less (n + 1))
    {rank n : Nat} (near : Near rank n) : ∃ m, n ≤ m ∧ Goal m := by
  induction rank using Nat.strongRecOn generalizing n with
  | ind rank ih =>
    obtain ⟨m, le, near, turn⟩ := recurs.met (stays rank) near
    obtain reached | ⟨less, lt, near⟩ := falls rank m near turn
    · exact ⟨m, le, reached⟩
    · obtain ⟨last, later, reached⟩ := ih less lt near
      exact ⟨last, by omega, reached⟩

end BenchPod
