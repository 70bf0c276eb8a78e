import BenchPod.Library.Emitter
import Mathlib.Data.List.Induction

/-!
# Loops over a buffer

A receiver goes over the buffer it is given in passes, each taking items from its front.  When every
pass does what a system does with the items one by one, so does the loop, and how a stream was cut into
buffers does not matter.
-/

namespace BenchPod

/-- How a pass over a buffer ends: the state, what it emitted, and what it leaves of the buffer. -/
structure Pass (σ ε β : Type*) where
  state : σ
  out : List β
  rest : List ε

namespace Emitter

variable {σ ε β : Type*} (system : Emitter σ ε β)

/-- A pass that takes items from the front of the buffer as the system does one by one. -/
def Serial (state : σ) (buffer : List ε) (pass : Pass σ ε β) : Prop :=
  ∃ front, buffer = front ++ pass.rest ∧ pass.state = system.run state front ∧ pass.out = system.emitted state front

variable {system}

theorem Serial.none {state : σ} {buffer : List ε} : system.Serial state buffer ⟨state, [], buffer⟩ :=
  ⟨[], rfl, rfl, rfl⟩

theorem Serial.closed (need : Nat) (closed : List ε → σ) (out : List ε → List β) (nothing : out [] = [])
    (step : ∀ front item, front.length < need → system.step (closed front) item = closed (front ++ [item]) ∧
      out (front ++ [item]) = out front ++ (system.emit (closed front) item).toList)
    (buffer : List ε) :
    system.Serial (closed []) buffer ⟨closed (buffer.take need), out (buffer.take need), buffer.drop need⟩ := by
  have taken : ∀ front : List ε, front.length ≤ need →
      closed front = system.run (closed []) front ∧ out front = system.emitted (closed []) front := by
    intro front
    induction front using List.reverseRecOn with
    | nil => exact fun _ => ⟨rfl, nothing⟩
    | append_singleton front item ih =>
      intro within
      rw [List.length_append, List.length_singleton] at within
      obtain ⟨ran, emitted⟩ := ih (Nat.le_of_succ_le within)
      obtain ⟨next, more⟩ := step front item within
      rw [system.run_append, system.emitted_append, ← ran, ← next, more, emitted]
      exact ⟨rfl, congrArg _ (List.append_nil _).symm⟩
  obtain ⟨ran, emitted⟩ := taken (buffer.take need) (List.length_take_le ..)
  exact ⟨buffer.take need, (List.take_append_drop ..).symm, ran, emitted⟩

/-- `while (i < len) i += pass(buf + i, len - i)`, for at most so many passes. -/
def loop (pass : σ → List ε → Pass σ ε β) : Nat → σ → List ε → Option (σ × List β)
  | _, state, [] => some (state, [])
  | 0, _, _ :: _ => none
  | passes + 1, state, item :: items =>
    let now := pass state (item :: items)
    (loop pass passes now.state now.rest).map fun done => (done.1, now.out ++ done.2)

theorem loop_serial {pass : σ → List ε → Pass σ ε β} {Good : σ → Prop}
    (kept : ∀ {state event}, Good state → Good (system.step state event))
    (serial : ∀ {state buffer}, Good state → system.Serial state buffer (pass state buffer))
    (takes : ∀ {state item items}, Good state → (pass state (item :: items)).rest.length ≤ items.length)
    {passes : Nat} {state : σ} {buffer : List ε} (good : Good state) (enough : buffer.length ≤ passes) :
    loop pass passes state buffer = some (system.run state buffer, system.emitted state buffer) := by
  induction passes generalizing state buffer with
  | zero =>
    obtain rfl := List.length_eq_zero_iff.mp (Nat.le_zero.mp enough)
    rfl
  | succ passes ih =>
    cases buffer with
    | nil => rfl
    | cons item items =>
      have serial_now : system.Serial state (item :: items) (pass state (item :: items)) := serial good
      have shorter : (pass state (item :: items)).rest.length ≤ items.length := takes good
      have short : items.length + 1 ≤ passes + 1 := enough
      rw [loop]
      generalize pass state (item :: items) = now at serial_now shorter ⊢
      obtain ⟨front, split, ran, out⟩ := serial_now
      have good' : Good now.state := by
        rw [ran]
        exact (system.along_true state front).invariant _ Good (fun good _ => kept good) good
      rw [ih good' (by omega), Option.map_some, split, system.run_append, system.emitted_append, ran, out]

/-- Several buffers, each gone over in one call. -/
def calls (call : σ → List ε → Option (σ × List β)) : σ → List (List ε) → Option (σ × List β)
  | state, [] => some (state, [])
  | state, buffer :: buffers =>
    (call state buffer).bind fun now => (calls call now.1 buffers).map fun done => (done.1, now.2 ++ done.2)

theorem calls_serial {call : σ → List ε → Option (σ × List β)} {Good : σ → Prop}
    (kept : ∀ {state event}, Good state → Good (system.step state event))
    (serial : ∀ {state buffer}, Good state →
      call state buffer = some (system.run state buffer, system.emitted state buffer))
    {state : σ} {buffers : List (List ε)} (good : Good state) :
    calls call state buffers = some (system.run state buffers.flatten, system.emitted state buffers.flatten) := by
  induction buffers generalizing state with
  | nil => rfl
  | cons buffer buffers ih =>
    have good' : Good (system.run state buffer) :=
      (system.along_true state buffer).invariant _ Good (fun good _ => kept good) good
    rw [calls, serial good, Option.bind_some, ih good', Option.map_some, List.flatten_cons,
      system.run_append, system.emitted_append]

end Emitter
end BenchPod
