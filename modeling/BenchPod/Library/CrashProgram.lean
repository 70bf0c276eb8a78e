import Mathlib.Data.List.Basic

/-!
# Programs whose power may be cut

A program reads its storage, issues commands to it and returns a value.  Every command may fail
without the program noticing, and the power may be lost before, inside or after any command; the
execution relation ranges over all of these runs.
-/

namespace BenchPod

/-- A program over a storage state `σ` with commands `Op`. -/
inductive Prog (σ Op : Type) (α : Type) where
  /-- Stop with a value. -/
  | ret (value : α)
  /-- Inspect the storage and go on. -/
  | read (next : σ → Prog σ Op α)
  /-- Issue one command and go on. -/
  | op (command : Op) (next : Prog σ Op α)

namespace Prog

/-- Run one program after another. -/
def bind {σ Op α β : Type} : Prog σ Op α → (α → Prog σ Op β) → Prog σ Op β
  | .ret value, after => after value
  | .read next, after => .read fun state => (next state).bind after
  | .op command next, after => .op command (next.bind after)

instance {σ Op : Type} : Monad (Prog σ Op) where
  pure := .ret
  bind := bind

/-- A program that only issues one command. -/
def command {σ Op : Type} (command : Op) : Prog σ Op Unit := .op command (.ret ())

/-- A program that only inspects the storage. -/
def inspect {σ Op α : Type} (view : σ → α) : Prog σ Op α := .read fun state => .ret (view state)

end Prog

/-- What the hardware may do to the storage when it is given a command. -/
structure Device (σ Op : Type) where
  /-- The command ran to its end, correctly or not. -/
  finishes : Op → σ → σ → Prop
  /-- The power was lost while the command ran. -/
  tears : Op → σ → σ → Prop

/-- How an execution ended. -/
inductive Outcome (α : Type) where
  /-- The program returned. -/
  | done (value : α)
  /-- The power was lost first. -/
  | cut

/-- The executions of a program on a device. -/
inductive Exec {σ Op α : Type} (device : Device σ Op) :
    Prog σ Op α → σ → Outcome α → σ → Prop where
  | ret {value : α} {state : σ} : Exec device (.ret value) state (.done value) state
  | lost {program : Prog σ Op α} {state : σ} : Exec device program state .cut state
  | read {next : σ → Prog σ Op α} {state after : σ} {outcome : Outcome α}
      (rest : Exec device (next state) state outcome after) :
      Exec device (.read next) state outcome after
  | op {command : Op} {next : Prog σ Op α} {state middle after : σ} {outcome : Outcome α}
      (step : device.finishes command state middle)
      (rest : Exec device next middle outcome after) :
      Exec device (.op command next) state outcome after
  | torn {command : Op} {next : Prog σ Op α} {state after : σ}
      (step : device.tears command state after) :
      Exec device (.op command next) state .cut after

namespace Exec

variable {σ Op α β : Type} {device : Device σ Op} {state after : σ}

theorem ret_done_iff {value result : α} :
    Exec device (.ret value) state (.done result) after ↔ result = value ∧ after = state := by
  constructor
  · rintro ⟨⟩
    exact ⟨rfl, rfl⟩
  · rintro ⟨rfl, rfl⟩
    exact .ret

theorem ret_cut_iff {value : α} : Exec device (.ret value) state .cut after ↔ after = state := by
  constructor
  · rintro ⟨⟩
    rfl
  · rintro rfl
    exact .lost

theorem read_iff {next : σ → Prog σ Op α} {outcome : Outcome α} :
    Exec device (.read next) state outcome after ↔ Exec device (next state) state outcome after := by
  constructor
  · intro execution
    cases execution with
    | lost => exact .lost
    | read rest => exact rest
  · exact .read

theorem op_done_iff {command : Op} {next : Prog σ Op α} {result : α} :
    Exec device (.op command next) state (.done result) after ↔
      ∃ middle, device.finishes command state middle ∧ Exec device next middle (.done result) after := by
  constructor
  · intro execution
    cases execution with
    | op step rest => exact ⟨_, step, rest⟩
  · rintro ⟨middle, step, rest⟩
    exact .op step rest

theorem op_cut_iff {command : Op} {next : Prog σ Op α} :
    Exec device (.op command next) state .cut after ↔
      after = state ∨ device.tears command state after ∨
        ∃ middle, device.finishes command state middle ∧ Exec device next middle .cut after := by
  constructor
  · intro execution
    cases execution with
    | lost => exact .inl rfl
    | torn step => exact .inr (.inl step)
    | op step rest => exact .inr (.inr ⟨_, step, rest⟩)
  · rintro (rfl | step | ⟨middle, step, rest⟩)
    · exact .lost
    · exact .torn step
    · exact .op step rest

theorem cut_of_done {program : Prog σ Op α} {result : α}
    (execution : Exec device program state (.done result) after) :
    Exec device program state .cut after := by
  induction program generalizing state with
  | ret value =>
    obtain ⟨-, rfl⟩ := ret_done_iff.mp execution
    exact .lost
  | read next ih => exact .read (ih _ (read_iff.mp execution))
  | op command next ih =>
    obtain ⟨middle, step, rest⟩ := op_done_iff.mp execution
    exact .op step (ih rest)

theorem bind_done_iff {first : Prog σ Op α} {second : α → Prog σ Op β} {result : β} :
    Exec device (first >>= second) state (.done result) after ↔
      ∃ value middle, Exec device first state (.done value) middle ∧
        Exec device (second value) middle (.done result) after := by
  change Exec device (first.bind second) state (.done result) after ↔ _
  induction first generalizing state with
  | ret value =>
    simp only [Prog.bind, ret_done_iff]
    constructor
    · intro execution
      exact ⟨value, state, ⟨rfl, rfl⟩, execution⟩
    · rintro ⟨_, _, ⟨rfl, rfl⟩, execution⟩
      exact execution
  | read next ih => simp only [Prog.bind, read_iff, ih]
  | op command next ih =>
    simp only [Prog.bind, op_done_iff, ih]
    constructor
    · rintro ⟨middle, step, value, later, front, back⟩
      exact ⟨value, later, ⟨middle, step, front⟩, back⟩
    · rintro ⟨value, later, ⟨middle, step, front⟩, back⟩
      exact ⟨middle, step, value, later, front, back⟩

theorem bind_cut_iff {first : Prog σ Op α} {second : α → Prog σ Op β} :
    Exec device (first >>= second) state .cut after ↔
      Exec device first state .cut after ∨
        ∃ value middle, Exec device first state (.done value) middle ∧
          Exec device (second value) middle .cut after := by
  change Exec device (first.bind second) state .cut after ↔ _
  induction first generalizing state with
  | ret value =>
    simp only [Prog.bind, ret_done_iff, ret_cut_iff]
    constructor
    · intro execution
      exact .inr ⟨value, state, ⟨rfl, rfl⟩, execution⟩
    · rintro (rfl | ⟨_, _, ⟨rfl, rfl⟩, execution⟩)
      · exact .lost
      · exact execution
  | read next ih => simp only [Prog.bind, read_iff, ih]
  | op command next ih =>
    simp only [Prog.bind, op_done_iff, op_cut_iff, ih]
    constructor
    · rintro (same | step | ⟨middle, step, front | ⟨value, later, front, back⟩⟩)
      · exact .inl (.inl same)
      · exact .inl (.inr (.inl step))
      · exact .inl (.inr (.inr ⟨middle, step, front⟩))
      · exact .inr ⟨value, later, ⟨middle, step, front⟩, back⟩
    · rintro ((same | step | ⟨middle, step, front⟩) | ⟨value, later, ⟨middle, step, front⟩, back⟩)
      · exact .inl same
      · exact .inr (.inl step)
      · exact .inr (.inr ⟨middle, step, .inl front⟩)
      · exact .inr (.inr ⟨middle, step, .inr ⟨value, later, front, back⟩⟩)

theorem inspect_done_iff {view : σ → α} {result : α} :
    Exec device (Prog.inspect view) state (.done result) after ↔ result = view state ∧ after = state := by
  rw [Prog.inspect, read_iff, ret_done_iff]

theorem inspect_cut_iff {view : σ → α} : Exec device (Prog.inspect view) state .cut after ↔ after = state := by
  rw [Prog.inspect, read_iff, ret_cut_iff]

theorem command_done_iff {command : Op} {result : Unit} :
    Exec device (Prog.command command) state (.done result) after ↔ device.finishes command state after := by
  simp only [Prog.command, op_done_iff, ret_done_iff]
  constructor
  · rintro ⟨_, step, -, rfl⟩
    exact step
  · intro step
    exact ⟨after, step, trivial, rfl⟩

theorem command_cut_iff {command : Op} :
    Exec device (Prog.command command) state .cut after ↔
      after = state ∨ device.tears command state after ∨ device.finishes command state after := by
  simp only [Prog.command, op_cut_iff, ret_cut_iff]
  constructor
  · rintro (same | step | ⟨_, step, rfl⟩)
    · exact .inl same
    · exact .inr (.inl step)
    · exact .inr (.inr step)
  · rintro (same | step | step)
    · exact .inl same
    · exact .inr (.inl step)
    · exact .inr (.inr ⟨after, step, rfl⟩)

end Exec
end BenchPod
