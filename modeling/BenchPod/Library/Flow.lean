import Mathlib.Logic.Basic

/-!
# Loops with breaks

The body of a loop goes on with the next statement or breaks out of the loop; either way it leaves a
state behind.
-/

namespace BenchPod

/-- How a statement of a loop's body ends. -/
inductive Flow (σ : Type*) where
  | next (state : σ)
  | stop (state : σ)

namespace Flow

variable {σ : Type*}

def state : Flow σ → σ
  | .next state => state
  | .stop state => state

/-- The second statement after the first. -/
def andThen (first : Flow σ) (second : σ → Flow σ) : Flow σ :=
  match first with
  | .next state => second state
  | .stop state => .stop state

/-- A body, at most a number of times. -/
def times (body : σ → Flow σ) : Nat → σ → Flow σ
  | 0, state => .next state
  | count + 1, state => (body state).andThen (times body count)

/-- What holds when the next statement is reached, and what holds at a break. -/
def Ends (flow : Flow σ) (Next Stop : σ → Prop) : Prop :=
  match flow with
  | .next state => Next state
  | .stop state => Stop state

variable {Next Middle Stop : σ → Prop} {flow : Flow σ} {body second : σ → Flow σ}

@[simp]
theorem next_andThen (state : σ) : (Flow.next state).andThen second = second state := rfl

@[simp]
theorem stop_andThen (state : σ) : (Flow.stop state).andThen second = .stop state := rfl

theorem andThen_assoc (third : σ → Flow σ) :
    (flow.andThen second).andThen third = flow.andThen fun state => (second state).andThen third := by
  cases flow with
  | next state => rfl
  | stop state => rfl

theorem Ends.andThen (first : flow.Ends Middle Stop)
    (rest : ∀ state, Middle state → (second state).Ends Next Stop) :
    (flow.andThen second).Ends Next Stop := by
  cases flow with
  | next state => exact rest state first
  | stop state => exact first

theorem Ends.imp {Next' Stop' : σ → Prop} (ends : flow.Ends Next Stop)
    (next : ∀ state, Next state → Next' state) (stop : ∀ state, Stop state → Stop' state) :
    flow.Ends Next' Stop' := by
  cases flow with
  | next state => exact next state ends
  | stop state => exact stop state ends

theorem Ends.state (ends : flow.Ends Next Stop) : Next flow.state ∨ Stop flow.state := by
  cases flow with
  | next state => exact .inl ends
  | stop state => exact .inr ends

theorem times_ends {count : Nat} {start : σ} (kept : ∀ state, Next state → (body state).Ends Next Stop)
    (holds : Next start) : (times body count start).Ends Next Stop := by
  induction count generalizing start with
  | zero => exact holds
  | succ count ih => exact (kept start holds).andThen fun state next => ih next

/-- Two flows end the same way, in related states. -/
def Both (R : σ → σ → Prop) (flow other : Flow σ) : Prop :=
  match flow, other with
  | .next state, .next state' => R state state'
  | .stop state, .stop state' => R state state'
  | _, _ => False

theorem Both.andThen {R : σ → σ → Prop} {other : Flow σ} {second' : σ → Flow σ} (first : flow.Both R other)
    (rest : ∀ state state', R state state' → (second state).Both R (second' state')) :
    (flow.andThen second).Both R (other.andThen second') := by
  cases flow with
  | next state =>
    cases other with
    | next state' => exact rest state state' first
    | stop state' => exact first.elim
  | stop state =>
    cases other with
    | next state' => exact first.elim
    | stop state' => exact first

theorem Both.state {R : σ → σ → Prop} {other : Flow σ} (both : flow.Both R other) : R flow.state other.state := by
  cases flow with
  | next state =>
    cases other with
    | next state' => exact both
    | stop state' => exact both.elim
  | stop state =>
    cases other with
    | next state' => exact both.elim
    | stop state' => exact both

theorem times_both {R : σ → σ → Prop} {body' : σ → Flow σ} {count : Nat} {start start' : σ}
    (same : ∀ state state', R state state' → (body state).Both R (body' state')) (related : R start start') :
    (times body count start).Both R (times body' count start') := by
  induction count generalizing start start' with
  | zero => exact related
  | succ count ih => exact (same start start' related).andThen fun state state' => ih

end Flow
end BenchPod
