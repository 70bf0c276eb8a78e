import BenchPod.Capture.Gate

/-!
# What the handlers do to the gate

Each handler is held against the moves of the abstract gate: a command of a connection makes one of
the moves of `Gate.Commanded`, and the steps around a capture leave the gate alone.
-/

namespace BenchPod.Capture

open Command

namespace Pod

variable {s s' : Pod} {holder : Holder} {conn : ConnId}

@[simp]
theorem gate_heavyRelease (s : Pod) (holder : Holder) : (s.heavyRelease holder).gate = s.gate.release holder := by
  unfold heavyRelease Gate.release
  split
  · rw [if_pos (show s.gate.owner = _ by assumption)]
    rfl
  · rw [if_neg (show s.gate.owner ≠ _ by assumption)]

@[simp]
theorem gate_fpgaSetTriggerOff (s : Pod) (fabric : Fabric) : (s.fpgaSetTriggerOff fabric).gate = s.gate := by
  unfold fpgaSetTriggerOff
  split <;> rfl

@[simp]
theorem gate_captureTriggerCancel (s : Pod) (fabric : Fabric) (t : LaTrigger) :
    (s.captureTriggerCancel fabric t).gate = s.gate := by
  unfold captureTriggerCancel
  split
  · exact gate_fpgaSetTriggerOff s fabric
  · rfl

@[simp]
theorem gate_bulkStart (s : Pod) (bulk : Bulk) : (s.bulkStart bulk).gate = { s.gate with bulk := some bulk.connId } := rfl

theorem gate_connProtoSet (runs : connRunsStateMachine conn = true) (proto : Proto) :
    (s.connProtoSet conn proto).gate = s.gate.speak conn proto := by
  rw [connProtoSet, if_pos runs]
  rfl

theorem gate_fpgaSetTriggerPre {fabric : Fabric} {t : LaTrigger}
    (written : s.fpgaSetTriggerPre fabric t = some s') : s'.gate = s.gate := by
  unfold fpgaSetTriggerPre at written
  split at written
  · cases written
  · split at written
    · cases written
      rfl
    · cases written

theorem gate_captureTriggerBegin (s : Pod) (fabric : Fabric) (json : List Byte) (allowPre : Bool) :
    (s.captureTriggerBegin fabric json allowPre).1.gate = s.gate := by
  unfold captureTriggerBegin
  dsimp only
  repeat' split
  all_goals first
    | rfl
    | (rename_i written; exact (gate_fpgaSetTriggerPre written).trans rfl)

theorem heavyTryClaim_some (claimed : s.heavyTryClaim holder = some s') :
    s' = { s with heavyOwner := some holder } ∧ (s.heavyOwner = none ∨ s.heavyOwner = some holder) := by
  unfold heavyTryClaim at claimed
  split at claimed
  · cases claimed
  · rename_i free
    refine ⟨(Option.some.inj claimed).symm, ?_⟩
    by_cases unowned : s.heavyOwner = none
    · exact .inl unowned
    · exact .inr (not_not.mp fun other => free ⟨unowned, other⟩)

theorem freeFor_of_idle (idle : s.captureBusy = false)
    (owner : s.heavyOwner = none ∨ s.heavyOwner = some holder) : s.gate.FreeFor holder := by
  simp only [captureBusy, Bool.or_eq_false_iff, Option.isSome_eq_false_iff, Option.isNone_iff_eq_none] at idle
  obtain ⟨⟨⟨⟨v2cap, lacap⟩, chgscan⟩, dualcap⟩, bulk⟩ := idle
  exact ⟨by simp [gate, v2cap], by simp [gate, lacap], by simp [gate, dualcap], by simp [gate, chgscan],
    by simp [gate, bulk], owner⟩

theorem heavyBegin_some (begun : s.heavyBegin holder = some s') :
    s' = { s with heavyOwner := some holder } ∧ s.gate.FreeFor holder := by
  unfold heavyBegin at begun
  split at begun
  · cases begun
  · rename_i quiet
    obtain ⟨rfl, owner⟩ := heavyTryClaim_some begun
    refine ⟨rfl, freeFor_of_idle ?_ owner⟩
    simp only [heavyInFlight, Bool.or_eq_true, not_or, Bool.not_eq_true] at quiet
    exact quiet.1.1

theorem gate_release_claimed (begun : s.heavyBegin holder = some s') :
    (s'.heavyRelease holder).gate = { s.gate with owner := none } := by
  obtain ⟨rfl, -⟩ := heavyBegin_some begun
  exact (gate_heavyRelease _ holder).trans (Gate.release_of_owner rfl)

theorem commanded_released {t : Pod} (begun : s.heavyBegin (.conn conn) = some s')
    (kept : t.gate = s'.gate) : s.gate.Commanded conn (t.heavyRelease (.conn conn)).gate := by
  rw [gate_heavyRelease, kept, ← gate_heavyRelease, gate_release_claimed begun]
  exact .claimed (heavyBegin_some begun).2 none (.inl rfl)

section Commands

variable (s) (conn) (json : List Byte) (answers : Answers)

theorem gate_captureTriggerArmed (s : Pod) (now : Nat) (conn : ConnId) (t : LaTrigger) :
    ∃ waiting, (waiting = s.gate.waiting ∨ waiting = some conn) ∧
      (s.captureTriggerArmed now conn t).gate = { s.gate with waiting } := by
  unfold captureTriggerArmed
  split
  · exact ⟨_, .inl rfl, rfl⟩
  · exact ⟨some conn, .inr rfl, rfl⟩

theorem armTriggered_commanded {allowPre : Bool} {failed : List Byte} {start : LaTrigger → Pod → Pod}
    (starts : ∀ trig t waiting, s.gate.FreeFor (.conn conn) → (waiting = s.gate.waiting ∨ waiting = some conn) →
      t.gate = { s.gate with owner := some (.conn conn), waiting } → s.gate.Commanded conn (start trig t).gate) :
    s.gate.Commanded conn (s.armTriggered conn json answers allowPre failed start).1.gate := by
  have frame := gate_captureTriggerBegin s answers.fabric json allowPre
  unfold armTriggered
  split
  · rename_i t text begun
    rw [begun] at frame
    rw [frame]
    exact .same
  · rename_i t trig begun
    rw [begun] at frame
    split
    · rw [gate_captureTriggerCancel, frame]
      exact .same
    · rename_i claimed
      obtain ⟨rfl, free⟩ := heavyBegin_some claimed
      rw [frame] at free
      split
      · rw [gate_captureTriggerCancel, gate_release_claimed claimed, frame]
        exact .claimed free none (.inl rfl)
      · obtain ⟨waiting, which, armed⟩ := gate_captureTriggerArmed
          { t with heavyOwner := some (.conn conn) } answers.now conn trig
        have owned : Pod.gate { t with heavyOwner := some (.conn conn) } =
            { s.gate with owner := some (.conn conn) } := by
          rw [← frame]
          rfl
        rw [owned] at which armed
        exact starts trig _ waiting free which armed

theorem handleCapture_commanded : s.gate.Commanded conn (s.handleCapture conn json answers).1.gate := by
  unfold handleCapture
  dsimp only
  split
  · exact .same
  · refine armTriggered_commanded s conn json answers ?_
    intro trig t waiting free which armed
    change s.gate.Commanded conn { t.gate with v2cap := some conn }
    rw [armed]
    exact .v2cap free waiting which

theorem handleCaptureDual_commanded : s.gate.Commanded conn (s.handleCaptureDual conn json answers).1.gate := by
  unfold handleCaptureDual
  dsimp only
  split
  · exact .same
  · split
    · exact .same
    · refine armTriggered_commanded s conn json answers ?_
      intro trig t waiting free which armed
      change s.gate.Commanded conn { t.gate with dualcap := some conn }
      rw [armed]
      exact .dualcap free waiting which

theorem handleLaCapture_commanded : s.gate.Commanded conn (s.handleLaCapture conn json answers).1.gate := by
  unfold handleLaCapture
  dsimp only
  split
  · exact .same
  · split
    · exact .same
    · refine armTriggered_commanded s conn json answers ?_
      intro trig t waiting free which armed
      change s.gate.Commanded conn { t.gate with lacap := some conn }
      rw [armed]
      exact .lacap free waiting which

theorem armPlain_commanded (samples : Nat) (stopDac : Bool) (failed : List Byte) :
    s.gate.Commanded conn (s.armPlain conn json answers samples stopDac failed).1.gate := by
  unfold armPlain
  split
  · exact .same
  · rename_i begun
    split
    · exact commanded_released begun rfl
    · obtain ⟨rfl, free⟩ := heavyBegin_some begun
      exact .v2cap free _ (.inl rfl)

theorem handleStream_commanded : s.gate.Commanded conn (s.handleStream conn json answers).1.gate := by
  unfold handleStream
  dsimp only
  split
  · exact .same
  · exact armPlain_commanded s conn json answers _ _ _

theorem handleMeasure_commanded : s.gate.Commanded conn (s.handleMeasure conn json answers).1.gate := by
  unfold handleMeasure
  dsimp only
  repeat' split
  any_goals exact .same
  exact armPlain_commanded s conn json answers _ _ _

theorem handleTest_commanded : s.gate.Commanded conn (s.handleTest conn json answers).1.gate := by
  unfold handleTest
  dsimp only
  split
  · exact .same
  · split
    · exact .same
    · rename_i begun
      split
      · exact commanded_released begun rfl
      · obtain ⟨rfl, free⟩ := heavyBegin_some begun
        exact .bulk free

theorem readScratch_commanded (count : Nat) (failed : List Byte) :
    s.gate.Commanded conn (s.readScratch conn answers count failed).1.gate := by
  unfold readScratch
  split
  · exact .same
  · rename_i begun
    dsimp only
    split
    · exact commanded_released begun rfl
    · obtain ⟨rfl, free⟩ := heavyBegin_some begun
      exact .bulk free

theorem handleSensorRegs_commanded : s.gate.Commanded conn (s.handleSensorRegs conn json answers).1.gate := by
  unfold handleSensorRegs
  dsimp only
  repeat' split
  any_goals exact .same
  all_goals exact readScratch_commanded s conn answers _ _

theorem handleSensorLa_commanded : s.gate.Commanded conn (s.handleSensorLa conn json answers).1.gate := by
  unfold handleSensorLa
  dsimp only
  split
  · exact .same
  · exact readScratch_commanded s conn answers _ _

theorem handleCaptureRead_commanded : s.gate.Commanded conn (s.handleCaptureRead conn json answers).1.gate := by
  unfold handleCaptureRead
  dsimp only
  split
  · exact .same
  · split
    · exact .same
    · split
      · exact .same
      · split
        · exact .same
        · rename_i begun
          split
          · exact commanded_released begun rfl
          · obtain ⟨rfl, free⟩ := heavyBegin_some begun
            exact .bulk free

theorem gate_loadChunk (s : Pod) (offset : Nat) (text : List Byte) :
    (s.loadChunk conn answers offset text).1.gate = s.gate := by
  unfold loadChunk
  dsimp only
  repeat' split
  all_goals rfl

theorem handleLoad_commanded : s.gate.Commanded conn (s.handleLoad conn json answers).1.gate := by
  unfold handleLoad
  dsimp only
  split
  · exact .same
  · split
    · exact .same
    · rename_i quiet
      split
      · split
        · exact .same
        · rename_i claimed
          obtain ⟨rfl, owner⟩ := heavyTryClaim_some claimed
          simp only [heavyInFlight, Bool.or_eq_true, not_or, Bool.not_eq_true] at quiet
          rw [gate_loadChunk]
          exact .claimed (freeFor_of_idle quiet.1.1 owner) _ (.inr rfl)
      · split
        · exact .same
        · rw [gate_loadChunk]
          exact .same

theorem handleLoadBin_commanded : s.gate.Commanded conn (s.handleLoadBin conn json answers).1.gate := by
  unfold handleLoadBin
  dsimp only
  split
  · exact .same
  · rename_i runs
    rw [Bool.not_eq_false] at runs
    split
    · exact .same
    · split
      · exact .same
      · split
        · exact .same
        · rename_i t begun
          obtain ⟨rfl, free⟩ := heavyBegin_some begun
          rw [gate_connProtoSet runs]
          have uploads := Gate.Commanded.upload free runs
          unfold loadBinPlace
          split
          · exact uploads
          · exact uploads

theorem gate_dropLostTrace (s : Pod) : s.dropLostTrace.gate = s.gate := by
  unfold dropLostTrace
  split <;> rfl

theorem handleReplay_commanded : s.gate.Commanded conn (s.handleReplay conn json answers).1.gate := by
  rw [← gate_dropLostTrace s]
  unfold handleReplay
  dsimp only
  split
  · exact .same
  · split
    · exact .same
    · split
      · exact .same
      · rename_i begun
        exact commanded_released begun rfl

theorem briefCommand_commanded : s.gate.Commanded conn (s.briefCommand (.conn conn)).1.gate := by
  unfold briefCommand
  split
  · exact .same
  · rename_i begun
    exact commanded_released begun rfl

theorem rawMode_commanded (proto : Proto) :
    s.gate.Commanded conn (s.jsonCommand conn json answers (.rawMode proto)).1.gate := by
  dsimp only [jsonCommand]
  split
  · exact .same
  · rename_i other
    by_cases runs : connRunsStateMachine conn = true
    · rw [gate_connProtoSet runs]
      exact .mode proto other
    · rw [connProtoSet, if_neg runs]
      exact .same

theorem jsonCommand_commanded (command : JsonCommand) :
    s.gate.Commanded conn (s.jsonCommand conn json answers command).1.gate := by
  cases command with
  | capture => exact handleCapture_commanded s conn json answers
  | captureDual => exact handleCaptureDual_commanded s conn json answers
  | laCapture => exact handleLaCapture_commanded s conn json answers
  | captureRead => exact handleCaptureRead_commanded s conn json answers
  | stream => exact handleStream_commanded s conn json answers
  | measure => exact handleMeasure_commanded s conn json answers
  | test => exact handleTest_commanded s conn json answers
  | sensorRegs => exact handleSensorRegs_commanded s conn json answers
  | sensorLa => exact handleSensorLa_commanded s conn json answers
  | load => exact handleLoad_commanded s conn json answers
  | loadBin => exact handleLoadBin_commanded s conn json answers
  | replay => exact handleReplay_commanded s conn json answers
  | brief => exact briefCommand_commanded s conn
  | rawMode proto => exact rawMode_commanded s conn json answers proto

theorem scpiCapture_commanded (n : Nat) (bytes : Mem) (got : Option Nat) :
    s.gate.Commanded conn (s.scpiCapture conn n bytes got).1.gate := by
  unfold scpiCapture
  dsimp only
  split
  · exact .same
  · split
    · exact .same
    · rename_i begun
      split <;> exact commanded_released begun rfl

theorem scpiTraceData_commanded (offset : Nat) (text : List Byte) :
    s.gate.Commanded conn (s.scpiTraceData conn offset text).1.gate := by
  unfold scpiTraceData
  dsimp only
  split
  · exact .same
  · split
    · exact .same
    · rename_i begun
      split <;> split <;> exact commanded_released begun rfl

theorem scpiCommand_commanded (bytes : Mem) (command : ScpiCommand) :
    s.gate.Commanded conn (s.scpiCommand conn bytes command).1.gate := by
  cases command with
  | capture n got => exact scpiCapture_commanded s conn n bytes got
  | traceData offset text => exact scpiTraceData_commanded s conn offset text
  | outputUser armed =>
    dsimp only [scpiCommand, scpiOutputUser]
    split <;> exact .same
  | diagnostic data =>
    dsimp only [scpiCommand, scratchCommand]
    split
    · exact .same
    · rename_i begun
      exact commanded_released begun rfl
  | reset => exact .same

end Commands

end Pod
end BenchPod.Capture
