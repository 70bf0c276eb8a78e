import Mathlib.Data.List.Basic
import Mathlib.Data.List.Pairwise

/-!
# Deterministic systems that emit values

A step takes an event and may emit a value.  When every step raises a mark over whatever it emits,
the values of a run are strictly increasing.
-/

namespace BenchPod

/-- A deterministic system: where an event leads and what it emits. -/
structure Emitter (σ ε β : Type*) where
  step : σ → ε → σ
  emit : σ → ε → Option β

namespace Emitter

variable {σ ε β : Type*} (system : Emitter σ ε β)

/-- The state a run ends in. -/
def run : σ → List ε → σ := List.foldl system.step

/-- Everything a run emits, in order. -/
def emitted : σ → List ε → List β
  | _, [] => []
  | state, event :: events => (system.emit state event).toList ++ emitted (system.step state event) events

/-- Every step of a run is allowed in the state it is taken in. -/
def Along (Allowed : σ → ε → Prop) : σ → List ε → Prop
  | _, [] => True
  | state, event :: events => Allowed state event ∧ Along Allowed (system.step state event) events

instance Along.decidable {Allowed : σ → ε → Prop} [∀ state event, Decidable (Allowed state event)]
    (state : σ) : ∀ events, Decidable (system.Along Allowed state events)
  | [] => isTrue trivial
  | event :: events =>
    have : Decidable (system.Along Allowed (system.step state event) events) :=
      Along.decidable (system.step state event) events
    inferInstanceAs (Decidable (Allowed state event ∧ _))

variable {Allowed : σ → ε → Prop} {state : σ} {events : List ε}

theorem run_append (front back : List ε) :
    system.run state (front ++ back) = system.run (system.run state front) back := List.foldl_append

theorem emitted_append (front back : List ε) :
    system.emitted state (front ++ back) =
      system.emitted state front ++ system.emitted (system.run state front) back := by
  induction front generalizing state with
  | nil => rfl
  | cons event front ih =>
    simp only [List.cons_append, emitted, ih, List.append_assoc]
    rfl

theorem along_append (front back : List ε) :
    system.Along Allowed state (front ++ back) ↔
      system.Along Allowed state front ∧ system.Along Allowed (system.run state front) back := by
  induction front generalizing state with
  | nil => exact (and_iff_right trivial).symm
  | cons event front ih =>
    rw [List.cons_append, Along, Along, ih, and_assoc]
    rfl

theorem Along.invariant (along : system.Along Allowed state events) (Good : σ → Prop)
    (kept : ∀ {state event}, Good state → Allowed state event → Good (system.step state event))
    (good : Good state) : Good (system.run state events) := by
  induction events generalizing state with
  | nil => exact good
  | cons event events ih => exact ih along.2 (kept good along.1)

theorem Along.emitted_forall {Fine : β → Prop} (along : system.Along Allowed state events)
    (Good : σ → Prop)
    (kept : ∀ {state event}, Good state → Allowed state event → Good (system.step state event))
    (fine : ∀ {state event}, Good state → Allowed state event →
      ∀ value ∈ system.emit state event, Fine value)
    (good : Good state) : ∀ value ∈ system.emitted state events, Fine value := by
  induction events generalizing state with
  | nil => simp [emitted]
  | cons event events ih =>
    intro value member
    obtain now | later := List.mem_append.mp member
    · exact fine good along.1 value (Option.mem_toList.mp now)
    · exact ih along.2 (kept good along.1) value later

/-- A step that keeps the mark above whatever it emits. -/
def Raises (mark : σ → Nat) (rank : β → Nat) (state : σ) (event : ε) : Prop :=
  mark state ≤ mark (system.step state event) ∧
    ∀ value ∈ system.emit state event, mark state < rank value ∧ rank value ≤ mark (system.step state event)

theorem Along.increasing {mark : σ → Nat} {rank : β → Nat}
    (along : system.Along (system.Raises mark rank) state events) :
    (∀ value ∈ system.emitted state events, mark state < rank value) ∧
      (system.emitted state events).Pairwise (fun earlier later => rank earlier < rank later) := by
  induction events generalizing state with
  | nil => exact ⟨by simp [emitted], .nil⟩
  | cons event events ih =>
    obtain ⟨⟨rises, emits⟩, rest⟩ := along
    obtain ⟨above, increasing⟩ := ih rest
    constructor
    · intro value member
      obtain now | later := List.mem_append.mp member
      · exact (emits value (Option.mem_toList.mp now)).1
      · exact Nat.lt_of_le_of_lt rises (above value later)
    · refine List.pairwise_append.mpr ⟨?_, increasing, ?_⟩
      · cases system.emit state event with
        | none => exact .nil
        | some value => exact List.pairwise_singleton ..
      · intro earlier now later member
        exact Nat.lt_of_le_of_lt (emits earlier (Option.mem_toList.mp now)).2 (above later member)

theorem emitted_length {mark : σ → Nat}
    (rises : ∀ state event, mark state + (system.emit state event).toList.length ≤ mark (system.step state event))
    (state : σ) (events : List ε) :
    mark state + (system.emitted state events).length ≤ mark (system.run state events) := by
  induction events generalizing state with
  | nil => exact Nat.le_refl _
  | cons event events ih =>
    have first := rises state event
    have rest := ih (system.step state event)
    rw [emitted, List.length_append]
    exact Nat.le_trans (by omega) rest

theorem along_true (state : σ) (events : List ε) : system.Along (fun _ _ => True) state events := by
  induction events generalizing state with
  | nil => exact trivial
  | cons event events ih => exact ⟨trivial, ih _⟩

/-- The system with the history of what it has emitted. -/
def logged : Emitter (List β × σ) ε β where
  step entry event := (entry.1 ++ (system.emit entry.2 event).toList, system.step entry.2 event)
  emit entry event := system.emit entry.2 event

theorem run_logged (log : List β) :
    system.logged.run (log, state) events = (log ++ system.emitted state events, system.run state events) := by
  induction events generalizing log state with
  | nil => simp only [run, List.foldl_nil, emitted, List.append_nil]
  | cons event events ih =>
    rw [emitted, ← List.append_assoc]
    exact ih (log ++ (system.emit state event).toList)

theorem Along.pairwise {Allowed : List β × σ → ε → Prop} {Related : β → β → Prop}
    (along : system.logged.Along Allowed ([], state) events) (Good : List β × σ → Prop)
    (kept : ∀ {entry event}, Good entry → Allowed entry event → Good (system.logged.step entry event))
    (related : ∀ {entry event}, Good entry → Allowed entry event →
      ∀ value ∈ system.emit entry.2 event, ∀ earlier ∈ entry.1, Related earlier value)
    (good : Good ([], state)) : (system.emitted state events).Pairwise Related := by
  have history : Good (system.logged.run ([], state) events) ∧
      (system.logged.run ([], state) events).1.Pairwise Related := by
    refine along.invariant _ (fun entry => Good entry ∧ entry.1.Pairwise Related) ?_ ⟨good, .nil⟩
    rintro entry event ⟨good, pairwise⟩ allowed
    refine ⟨kept good allowed, List.pairwise_append.mpr ⟨pairwise, ?_, ?_⟩⟩
    · cases system.emit entry.2 event with
      | none => exact .nil
      | some value => exact List.pairwise_singleton ..
    · intro earlier member value emitted
      exact related good allowed value (Option.mem_toList.mp emitted) earlier member
  rw [system.run_logged, List.nil_append] at history
  exact history.2

theorem Along.imp {Allowed' : σ → ε → Prop} (along : system.Along Allowed state events)
    (weaker : ∀ {state event}, Allowed state event → Allowed' state event) :
    system.Along Allowed' state events := by
  induction events generalizing state with
  | nil => exact trivial
  | cons event events ih => exact ⟨weaker along.1, ih along.2⟩

theorem Along.and {Allowed' : σ → ε → Prop} (along : system.Along Allowed state events)
    (other : system.Along Allowed' state events) :
    system.Along (fun state event => Allowed state event ∧ Allowed' state event) state events := by
  induction events generalizing state with
  | nil => exact trivial
  | cons event events ih => exact ⟨⟨along.1, other.1⟩, ih along.2 other.2⟩

theorem Along.imp_good {Allowed' : σ → ε → Prop} (along : system.Along Allowed state events) (Good : σ → Prop)
    (weaker : ∀ {state event}, Good state → Allowed state event → Allowed' state event)
    (kept : ∀ {state event}, Good state → Good (system.step state event)) (good : Good state) :
    system.Along Allowed' state events := by
  induction events generalizing state with
  | nil => exact trivial
  | cons event events ih => exact ⟨weaker good along.1, ih along.2 (kept good)⟩

theorem along_iff {Allowed' : σ → ε → Prop} (Good : σ → Prop)
    (same : ∀ {state event}, Good state → (Allowed state event ↔ Allowed' state event))
    (kept : ∀ {state event}, Good state → Allowed state event → Good (system.step state event))
    (good : Good state) : system.Along Allowed state events ↔ system.Along Allowed' state events := by
  induction events generalizing state with
  | nil => exact Iff.rfl
  | cons event events ih =>
    rw [Along, Along, same good]
    exact and_congr_right fun allowed => ih (kept good ((same good).mpr allowed))

end Emitter
end BenchPod
