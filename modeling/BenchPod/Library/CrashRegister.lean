import Mathlib.Data.List.Basic

/-!
# Runs of labelled transition systems

A run performs a list of events one after another.  Invariants and simulations of single steps
extend to runs, and a run over a concatenation splits at any point.
-/

namespace BenchPod

/-- A run that performs the given events in order. -/
inductive Run {σ ε : Type*} (step : σ → ε → σ → Prop) : σ → List ε → σ → Prop where
  | nil {state : σ} : Run step state [] state
  | cons {before middle after : σ} {event : ε} {events : List ε}
      (first : step before event middle) (rest : Run step middle events after) :
      Run step before (event :: events) after

namespace Run

variable {σ ε : Type*} {step : σ → ε → σ → Prop} {before after : σ}

@[simp]
theorem nil_iff : Run step before [] after ↔ after = before := by
  constructor
  · rintro ⟨⟩
    rfl
  · rintro rfl
    exact .nil

@[simp]
theorem cons_iff {event : ε} {events : List ε} :
    Run step before (event :: events) after ↔ ∃ middle, step before event middle ∧ Run step middle events after := by
  constructor
  · intro run
    cases run with
    | cons first rest => exact ⟨_, first, rest⟩
  · rintro ⟨middle, first, rest⟩
    exact .cons first rest

theorem append_iff {front back : List ε} :
    Run step before (front ++ back) after ↔ ∃ middle, Run step before front middle ∧ Run step middle back after := by
  induction front generalizing before with
  | nil => simp
  | cons event front ih =>
    simp only [List.cons_append, cons_iff, ih]
    constructor
    · rintro ⟨next, first, middle, front_run, back_run⟩
      exact ⟨middle, ⟨next, first, front_run⟩, back_run⟩
    · rintro ⟨middle, ⟨next, first, front_run⟩, back_run⟩
      exact ⟨next, first, middle, front_run, back_run⟩

theorem invariant {events : List ε} (run : Run step before events after) (Allowed : ε → Prop)
    (Good : σ → Prop) (allowed : ∀ event ∈ events, Allowed event)
    (preserved : ∀ {source event target}, Allowed event → Good source →
      step source event target → Good target)
    (good : Good before) : Good after := by
  induction run with
  | nil => exact good
  | cons first _ ih =>
    refine ih (fun event member => allowed event (List.mem_cons_of_mem _ member)) ?_
    exact preserved (allowed _ (List.mem_cons_self ..)) good first

theorem simulation {σ' ε' : Type*} {step' : σ' → ε' → σ' → Prop} {Related : σ → σ' → Prop}
    {label : ε → ε'} {events : List ε} {before' : σ'}
    (run : Run step before events after)
    (simulated : ∀ {source event target source'}, Related source source' →
      step source event target → ∃ target', step' source' (label event) target' ∧
        Related target target')
    (related : Related before before') :
    ∃ after', Run step' before' (events.map label) after' ∧ Related after after' := by
  induction run generalizing before' with
  | nil => exact ⟨before', .nil, related⟩
  | cons first _ ih =>
    obtain ⟨middle', first', related'⟩ := simulated related first
    obtain ⟨after', rest', related''⟩ := ih related'
    exact ⟨after', .cons first' rest', related''⟩

end Run
end BenchPod

/-!
## A register that survives power cuts

The register holds one value.  A save replaces it, a refused save leaves it, and a save interrupted
by a power cut does one or the other.  Its runs say what atomic storage promises: the value is the
last one saved, or one whose save was interrupted since.
-/

namespace BenchPod

/-- How one attempt to save a value ended. -/
inductive SaveEvent (α : Type*) where
  /-- The save reported success. -/
  | saved (value : α)
  /-- The save reported failure. -/
  | refused (value : α)
  /-- The power was lost during the save. -/
  | interrupted (value : α)

namespace SaveEvent

/-- Apply a function to the value of an attempt. -/
def map {α β : Type*} (f : α → β) : SaveEvent α → SaveEvent β
  | .saved value => .saved (f value)
  | .refused value => .refused (f value)
  | .interrupted value => .interrupted (f value)

end SaveEvent

/-- One attempt to save into an atomic register. -/
inductive RegisterStep {α : Type*} : α → SaveEvent α → α → Prop where
  | saved {old value : α} : RegisterStep old (.saved value) value
  | refused {old value : α} : RegisterStep old (.refused value) old
  | kept {old value : α} : RegisterStep old (.interrupted value) old
  | landed {old value : α} : RegisterStep old (.interrupted value) value

namespace RegisterStep

variable {α : Type*} {old new : α} {events : List (SaveEvent α)}

theorem run_unsaved (run : Run RegisterStep old events new)
    (unsaved : ∀ value, SaveEvent.saved value ∉ events) :
    new = old ∨ SaveEvent.interrupted new ∈ events := by
  induction run with
  | nil => exact .inl rfl
  | cons first _ ih =>
    have later := ih fun value member => unsaved value (List.mem_cons_of_mem _ member)
    cases first with
    | saved => exact absurd (List.mem_cons_self ..) (unsaved _)
    | refused => exact later.imp_right (List.mem_cons_of_mem _)
    | kept => exact later.imp_right (List.mem_cons_of_mem _)
    | landed =>
      rcases later with rfl | member
      · exact .inr (List.mem_cons_self ..)
      · exact .inr (List.mem_cons_of_mem _ member)

theorem run_saved {front back : List (SaveEvent α)} {value : α}
    (run : Run RegisterStep old (front ++ .saved value :: back) new)
    (last : ∀ later, SaveEvent.saved later ∉ back) :
    new = value ∨ SaveEvent.interrupted new ∈ back := by
  obtain ⟨middle, -, rest⟩ := Run.append_iff.mp run
  obtain ⟨stored, first, rest⟩ := Run.cons_iff.mp rest
  cases first with
  | saved => exact run_unsaved rest last

end RegisterStep
end BenchPod
