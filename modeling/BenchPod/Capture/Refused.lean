import BenchPod.Capture.Held

/-!
# What a busy refusal changes

The three captures that take a trigger program it before they ask for the gate.  Refused, they turn
it off again, and the outcome that another capture had staged for its reply is gone.
-/

namespace BenchPod.Capture

open Command

/-- The commands that arm a capture with a trigger. -/
def JsonCommand.triggered : JsonCommand → Bool
  | .capture | .captureDual | .laCapture => true
  | _ => false

/-- What a capture in progress depends on. -/
structure CaptureState where
  heavyOwner : Option Holder
  v2cap : Option V2cap
  lacap : Option Lacap
  dualcap : Option Dualcap
  chgscan : Option Chgscan
  bulk : Option Bulk
  trigwait : Option Trigwait
  trigReply : TrigReply
  setTrigger : SetTrigger
  lastCap : LastCap
  deriving DecidableEq

namespace Pod

variable (s : Pod) (conn : ConnId) (json : List Byte) (answers : Answers)

/-- The capture state of a pod. -/
def captureState : CaptureState :=
  ⟨s.heavyOwner, s.v2cap, s.lacap, s.dualcap, s.chgscan, s.bulk, s.trigwait, s.trigReply, s.setTrigger, s.lastCap⟩

/-- The pod after a capture request that carries a trigger was refused as busy. -/
def refused (fabric : Fabric) (t : LaTrigger) : Pod :=
  { s with
    trigReply := { s.trigReply with present := false }
    setTrigger :=
      if t.present then (if fabric.clearTrigger then ⟨0, 0, false⟩ else t.programmed) else s.setTrigger }

variable {s conn json answers}

theorem fpgaSetTriggerPre_some {t : Pod} {fabric : Fabric} {trig : LaTrigger}
    (written : s.fpgaSetTriggerPre fabric trig = some t) :
    captureTriggerMinGw ≤ fabric.version ∧ t = { s with setTrigger := trig.programmed } := by
  unfold fpgaSetTriggerPre at written
  split at written
  · cases written
  · rename_i able
    split at written
    · exact ⟨Nat.le_of_not_lt fun old => able (.inl old), (Option.some.inj written).symm⟩
    · cases written

theorem captureTriggerBegin_ok {t : Pod} {trig : LaTrigger} {fabric : Fabric} {allowPre : Bool}
    (begun : s.captureTriggerBegin fabric json allowPre = (t, .ok trig)) :
    laTriggerParse json = .ok trig ∧ t.captureTriggerCancel fabric trig = s.refused fabric trig := by
  unfold captureTriggerBegin at begun
  dsimp only at begun
  split at begun
  · cases begun
  · rename_i parsed
    split at begun
    · rename_i absent
      cases begun
      exact ⟨parsed, by simp [captureTriggerCancel, refused, absent]⟩
    · rename_i present
      repeat' split at begun
      all_goals try cases begun
      rename_i written
      obtain ⟨able, rfl⟩ := fpgaSetTriggerPre_some written
      refine ⟨parsed, ?_⟩
      rw [Bool.not_eq_false] at present
      by_cases clears : fabric.clearTrigger = true
      · simp [captureTriggerCancel, fpgaSetTriggerOff, refused, present, able, clears]
      · simp [captureTriggerCancel, fpgaSetTriggerOff, refused, present, clears]

theorem armTriggered_busy {allowPre : Bool} {failed : List Byte} {start : LaTrigger → Pod → Pod}
    (busy : (s.armTriggered conn json answers allowPre failed start).2 = .busy) :
    ∃ trig, laTriggerParse json = .ok trig ∧
      (s.armTriggered conn json answers allowPre failed start).1 = s.refused answers.fabric trig := by
  unfold armTriggered at busy ⊢
  split at busy
  · cases busy
  · rename_i t trig begun
    obtain ⟨parsed, cancelled⟩ := captureTriggerBegin_ok begun
    split at busy
    · exact ⟨trig, parsed, cancelled⟩
    · split at busy <;> cases busy

theorem jsonCommand_busy {command : JsonCommand} (triggered : command.triggered = true)
    (busy : (s.jsonCommand conn json answers command).2 = .busy) :
    ∃ trig, laTriggerParse json = .ok trig ∧
      (s.jsonCommand conn json answers command).1 = s.refused answers.fabric trig := by
  cases command with
  | capture =>
    dsimp only [jsonCommand] at busy ⊢
    unfold handleCapture at busy ⊢
    dsimp only at busy ⊢
    split at busy
    · cases busy
    · rename_i inRange
      rw [if_neg inRange]
      exact armTriggered_busy busy
  | captureDual =>
    dsimp only [jsonCommand] at busy ⊢
    unfold handleCaptureDual at busy ⊢
    dsimp only at busy ⊢
    split at busy
    · cases busy
    · rename_i asked
      rw [if_neg asked]
      split at busy
      · cases busy
      · exact armTriggered_busy busy
  | laCapture =>
    dsimp only [jsonCommand] at busy ⊢
    unfold handleLaCapture at busy ⊢
    dsimp only at busy ⊢
    split at busy
    · cases busy
    · rename_i ready
      rw [if_neg ready]
      split at busy
      · cases busy
      · rename_i inRange
        rw [if_neg inRange]
        exact armTriggered_busy busy
  | _ => cases triggered

/-- The request leaves no trace if it is refused: no outcome is staged, and the fabric's trigger is
already what the handler leaves there. -/
def unnoticed (s : Pod) (json : List Byte) (fabric : Fabric) : Bool :=
  !s.trigReply.present &&
    match laTriggerParse json with
    | .error _ => true
    | .ok t => !t.present || s.setTrigger = (if fabric.clearTrigger then ⟨0, 0, false⟩ else t.programmed)

theorem refused_eq {fabric : Fabric} {t : LaTrigger} (staged : s.trigReply.present = false)
    (same : t.present = true →
      s.setTrigger = if fabric.clearTrigger then ⟨0, 0, false⟩ else t.programmed) :
    s.refused fabric t = s := by
  have reply : { s.trigReply with present := false } = s.trigReply := by rw [← staged]
  unfold refused
  rw [reply]
  split
  · rename_i present
    rw [← same present]
  · rfl

end Pod

/-- A busy refusal changes nothing exactly when no outcome is staged and the fabric's trigger is
already what the handler leaves there. -/
theorem busy_unnoticed (s : Pod) (conn : ConnId) (json : List Byte) (answers : Answers)
    (command : JsonCommand) (triggered : command.triggered = true)
    (busy : (s.jsonCommand conn json answers command).2 = .busy) :
    ((s.jsonCommand conn json answers command).1.captureState = s.captureState ↔
      s.unnoticed json answers.fabric = true) ∧
      (s.unnoticed json answers.fabric = true → (s.jsonCommand conn json answers command).1 = s) := by
  obtain ⟨trig, parsed, after⟩ := Pod.jsonCommand_busy triggered busy
  have unnoticed : s.unnoticed json answers.fabric = true ↔ s.trigReply.present = false ∧
      (trig.present = true →
        s.setTrigger = if answers.fabric.clearTrigger then ⟨0, 0, false⟩ else trig.programmed) := by
    unfold Pod.unnoticed
    rw [parsed]
    cases present : trig.present <;> simp [present]
  rw [after]
  have kept (clean : s.unnoticed json answers.fabric = true) : s.refused answers.fabric trig = s := by
    rw [unnoticed] at clean
    exact Pod.refused_eq clean.1 clean.2
  refine ⟨⟨?_, fun clean => by rw [kept clean]⟩, kept⟩
  intro same
  rw [unnoticed]
  have reply := congrArg (TrigReply.present ∘ CaptureState.trigReply) same
  have trigger := congrArg CaptureState.setTrigger same
  refine ⟨reply.symm, ?_⟩
  intro present
  simpa [Pod.captureState, Pod.refused, present] using trigger.symm

/-- A capture without a trigger on one connection, and the same request on another. -/
def captureTwice : List Event := [.json 0 .capture (Json.cstr "\x7b\"samples\":4\x7d") {}]

theorem busy_unnoticed_plain :
    ((worker.run {} captureTwice).jsonCommand 1 (Json.cstr "\x7b\x7d") {} .capture).2 = .busy ∧
      ((worker.run {} captureTwice).jsonCommand 1 (Json.cstr "\x7b\x7d") {} .capture).1 =
        worker.run {} captureTwice := by
  have busy :
      ((worker.run {} captureTwice).jsonCommand 1 (Json.cstr "\x7b\x7d") {} .capture).2 = .busy := by
    decide +kernel
  have clean : (worker.run {} captureTwice).unnoticed (Json.cstr "\x7b\x7d") ⟨50, true, true⟩ = true := by
    decide +kernel
  exact ⟨busy, (busy_unnoticed _ 1 _ {} .capture rfl busy).2 clean⟩

/-- A capture that waits for a rising edge, before another connection asks for a falling one. -/
def captureRising : List Event :=
  [.json 0 .capture
    (Json.cstr "\x7b\"samples\":4,\"trigger\":\x7b\"la\":1,\"edge\":\"rising\"\x7d\x7d") {}]

/-- The refused request takes the waiting capture's trigger out of the fabric. -/
theorem busy_noticed :
    ¬∀ (events : List Event) (waiting conn : ConnId) (json : List Byte) (answers : Answers)
        (command : JsonCommand),
      waiting ≠ conn → some waiting ∈ (worker.run {} events).users → command.triggered = true →
      ((worker.run {} events).jsonCommand conn json answers command).2 = .busy →
      ((worker.run {} events).jsonCommand conn json answers command).1.captureState =
        (worker.run {} events).captureState := by
  intro same
  have kept := same captureRising 0 1
    (Json.cstr "\x7b\"trigger\":\x7b\"la\":2,\"edge\":\"falling\"\x7d\x7d") {} .laCapture (by decide)
    (by decide +kernel) rfl (by decide +kernel)
  have programmed : (worker.run {} captureRising).setTrigger ≠ ⟨0, 0, false⟩ := by decide +kernel
  have cleared : ((worker.run {} captureRising).jsonCommand 1
      (Json.cstr "\x7b\"trigger\":\x7b\"la\":2,\"edge\":\"falling\"\x7d\x7d") {} .laCapture).1.setTrigger =
      ⟨0, 0, false⟩ := by
    decide +kernel
  refine programmed ?_
  rw [← cleared]
  exact (congrArg CaptureState.setTrigger kept).symm

end BenchPod.Capture
