import BenchPod.Capture.Bus

/-!
# Holds of the bus are balanced

Between two events the bus is held exactly while a scan of changes or a read-back from the PSRAM is
active.  Every handler is held against that, part by part for the poll.
-/

namespace BenchPod.Capture

open Command

/-- The bus between two events, held or the iCE40's. -/
def Bus.during (held : Bool) : Bus where
  owner := if held then { owner := some (), depth := 1 } else {}
  ice40 := !held

namespace Bus

variable {before held after : Bool} {front back ops : List BusOp}

/-- Operations that take the bus from one of the two states between events to another. -/
def Fits (before after : Bool) (ops : List BusOp) : Prop := (during before).run ops = during after

theorem Fits.nil : Fits held held [] := rfl

theorem Fits.append (first : Fits before held front) (second : Fits held after back) :
    Fits before after (front ++ back) := by
  unfold Fits at *
  rw [run_append, first, second]

theorem fits_take : Fits false true [.take] := rfl

theorem fits_give : Fits true false [.give] := rfl

theorem fits_access : Fits held held [.take, .give] := by
  cases held <;> rfl

theorem fits_pairs (count : Nat) : Fits held held (pairs count) := by
  induction count with
  | zero => exact .nil
  | succ count ih => exact fits_access.append ih

theorem fits_startOps (stamps : Bool) (reach : Reach) : Fits false false (startOps stamps reach) := by
  cases reach <;> cases stamps <;> rfl

theorem fits_accesses (accesses : List Access) : Fits false false (accesses.flatMap Access.ops) := by
  induction accesses with
  | nil => exact .nil
  | cons access accesses ih =>
    rw [List.flatMap_cons]
    refine Fits.append ?_ ih
    cases access with
    | pairs count => exact fits_pairs count
    | start stamps reach => exact fits_startOps stamps reach

end Bus

/-- The part of the pod that says whether the bus is held. -/
structure Hold where
  scan : Bool
  readBack : Bool
  upload : LoadBin

namespace Pod

/-- The hold of a pod. -/
def hold (s : Pod) : Hold := ⟨s.chgscan.isSome, s.bulk.any (·.fromPsram), s.loadBin⟩

variable {s t u : Pod} {use : Option Use} {conn : ConnId} {holder : Holder} {ops : List BusOp}

theorem holding_eq (s : Pod) : s.holding = (s.hold.scan || s.hold.readBack) := rfl

/-- A step that keeps the upload, and whose operations fit the hold before and after it. -/
def Moves (s t : Pod) (ops : List BusOp) : Prop := t.loadBin = s.loadBin ∧ Bus.Fits s.holding t.holding ops

theorem Moves.keep (same : t.hold = s.hold) (fits : Bus.Fits s.holding s.holding ops) : s.Moves t ops := by
  refine ⟨congrArg Hold.upload same, ?_⟩
  rw [holding_eq t, same]
  exact fits

theorem Moves.same (same : t.hold = s.hold) : s.Moves t [] := .keep same .nil

theorem Moves.trans {front back : List BusOp} (first : s.Moves t front) (second : t.Moves u back) :
    s.Moves u (front ++ back) := ⟨second.1.trans first.1, first.2.append second.2⟩

theorem Moves.free (free : s.holding = false) (same : t.hold = s.hold) (fits : Bus.Fits false false ops) :
    s.Moves t ops := by
  refine .keep same ?_
  rw [free]
  exact fits

section Frames

variable (s)

@[simp]
theorem hold_heavyRelease (holder : Holder) : (s.heavyRelease holder).hold = s.hold := by
  unfold heavyRelease
  split <;> rfl

@[simp]
theorem hold_fpgaSetTriggerOff (fabric : Fabric) : (s.fpgaSetTriggerOff fabric).hold = s.hold := by
  unfold fpgaSetTriggerOff
  split <;> rfl

@[simp]
theorem hold_captureTriggerCancel (fabric : Fabric) (trig : LaTrigger) :
    (s.captureTriggerCancel fabric trig).hold = s.hold := by
  unfold captureTriggerCancel
  split
  · exact hold_fpgaSetTriggerOff s fabric
  · rfl

theorem hold_captureTriggerArmed (now : Nat) (conn : ConnId) (trig : LaTrigger) :
    (s.captureTriggerArmed now conn trig).hold = s.hold := by
  unfold captureTriggerArmed
  split <;> rfl

@[simp]
theorem hold_captureTriggerDone (fabric : Fabric) (fired : Bool) : (s.captureTriggerDone fabric fired).hold = s.hold := by
  unfold captureTriggerDone
  split
  · rfl
  · exact hold_fpgaSetTriggerOff _ fabric

@[simp]
theorem hold_connProtoSet (conn : ConnId) (proto : Proto) : (s.connProtoSet conn proto).hold = s.hold := by
  unfold connProtoSet
  split <;> rfl

theorem hold_captureTriggerBegin (fabric : Fabric) (json : List Byte) (allowPre : Bool) :
    (s.captureTriggerBegin fabric json allowPre).1.hold = s.hold := by
  unfold captureTriggerBegin fpgaSetTriggerPre
  dsimp only
  repeat' split
  all_goals first
    | rfl
    | (rename_i written
       repeat' split at written
       all_goals cases written
       rfl)

@[simp]
theorem hold_captureFailed (pass : Pass) (conn : ConnId) : (s.captureFailed pass conn).hold = s.hold := by
  unfold captureFailed
  rw [hold_heavyRelease]
  exact hold_fpgaSetTriggerOff s pass.fabric

@[simp]
theorem hold_abortTriggerOf (pass : Pass) (conn : ConnId) : (s.abortTriggerOf pass conn).hold = s.hold :=
  hold_fpgaSetTriggerOff s pass.fabric

theorem hold_dropLostTrace : s.dropLostTrace.hold = s.hold := by
  unfold dropLostTrace
  split <;> rfl

end Frames

theorem hold_speaks {proto : Proto} (speaks : s.speaks conn proto = some t) : t.hold = s.hold := by
  unfold Pod.speaks at speaks
  repeat' split at speaks
  · cases speaks
    rfl
  · cases speaks
    exact hold_connProtoSet s conn proto
  · cases speaks

theorem heavyBegin_free (begun : s.heavyBegin holder = some t) : t.hold = s.hold ∧ s.holding = false ∧ s.bulk = none := by
  obtain ⟨rfl, free⟩ := heavyBegin_some begun
  have scan : s.chgscan = none := by simpa [gate] using free.chgscan
  have bulk : s.bulk = none := by simpa [gate] using free.bulk
  exact ⟨rfl, by simp [holding, scan, bulk], bulk⟩

theorem gatedOps_none (refused : s.heavyBegin holder = none) : s.gatedOps holder ops = [] := by
  simp [gatedOps, refused]

theorem gatedOps_some (begun : s.heavyBegin holder = some t) : s.gatedOps holder ops = ops := by
  simp [gatedOps, begun]

section Commands

variable (s) (conn) (json : List Byte) (answers : Answers) (wire : Wire)

theorem armTriggered_moves {allowPre : Bool} {failed : List Byte} {start : LaTrigger → Pod → Pod}
    (starts : ∀ trig t, (start trig t).hold = t.hold) (fits : Bus.Fits false false ops) :
    s.Moves (s.armTriggered conn json answers allowPre failed start).1
      (s.armTriggeredOps conn json answers allowPre ops) := by
  have frame := hold_captureTriggerBegin s answers.fabric json allowPre
  unfold armTriggered armTriggeredOps
  cases begun : s.captureTriggerBegin answers.fabric json allowPre with
  | mk t result =>
    rw [begun] at frame
    cases result with
    | error text => exact .same frame
    | ok trig =>
      dsimp only
      cases claimed : t.heavyBegin (.conn conn) with
      | none =>
        rw [gatedOps_none claimed]
        exact .same ((hold_captureTriggerCancel ..).trans frame)
      | some u =>
        obtain ⟨same, free, -⟩ := heavyBegin_free claimed
        have kept := same.trans frame
        rw [gatedOps_some claimed]
        rw [holding_eq, frame, ← holding_eq] at free
        refine .free free ?_ fits
        dsimp only
        split
        · rw [hold_captureTriggerCancel, hold_heavyRelease, kept]
        · rw [starts]
          exact (hold_captureTriggerArmed u _ conn trig).trans kept

theorem handleCapture_moves :
    s.Moves (s.handleCapture conn json answers).1 (s.handleCaptureOps conn json answers wire) := by
  unfold handleCapture handleCaptureOps
  dsimp only
  split
  · exact .same rfl
  · exact armTriggered_moves s conn json answers (fun _ _ => rfl) (Bus.fits_startOps _ _)

theorem handleCaptureDual_moves :
    s.Moves (s.handleCaptureDual conn json answers).1 (s.handleCaptureDualOps conn json answers wire) := by
  unfold handleCaptureDual handleCaptureDualOps
  dsimp only
  split
  · exact .same rfl
  · cases answers.planRefuses with
    | some text => exact .same rfl
    | none => exact armTriggered_moves s conn json answers (fun _ _ => rfl) (Bus.fits_startOps _ _)

theorem handleLaCapture_moves :
    s.Moves (s.handleLaCapture conn json answers).1 (s.handleLaCaptureOps conn json answers wire) := by
  unfold handleLaCapture handleLaCaptureOps
  dsimp only
  split
  · exact .same rfl
  · split
    · exact .same rfl
    · exact armTriggered_moves s conn json answers (fun _ _ => rfl) (Bus.fits_startOps _ _)

theorem armPlain_moves (samples : Nat) (stopDac : Bool) (failed : List Byte)
    (fits : Bus.Fits false false ops) :
    s.Moves (s.armPlain conn json answers samples stopDac failed).1 (s.gatedOps (.conn conn) ops) := by
  unfold armPlain
  cases begun : s.heavyBegin (.conn conn) with
  | none =>
    rw [gatedOps_none begun]
    exact .same rfl
  | some t =>
    obtain ⟨same, free, -⟩ := heavyBegin_free begun
    rw [gatedOps_some begun]
    refine .free free ?_ fits
    dsimp only
    split
    · rw [hold_heavyRelease, same]
    · exact same

theorem handleStream_moves : s.Moves (s.handleStream conn json answers).1 (s.handleStreamOps conn json answers wire) := by
  unfold handleStream handleStreamOps
  dsimp only
  split
  · exact .same rfl
  · exact armPlain_moves s conn json answers _ _ _ (Bus.fits_startOps _ _)

theorem handleMeasure_moves :
    s.Moves (s.handleMeasure conn json answers).1 (s.handleMeasureOps conn json answers wire) := by
  unfold handleMeasure handleMeasureOps
  dsimp only
  split
  · exact .same rfl
  · split
    · exact .same rfl
    · split
      · exact .same rfl
      · exact armPlain_moves s conn json answers _ _ _ (Bus.fits_startOps _ _)

theorem bulkStart_hold {bulk : Bulk} (pooled : bulk.fromPsram = false) (idle : s.bulk = none)
    (same : t.hold = s.hold) : (t.bulkStart bulk).hold = s.hold := by
  have readBack : s.hold.readBack = false := by simp [hold, idle]
  have started : (t.bulkStart bulk).hold = { t.hold with readBack := false } := by simp [bulkStart, hold, pooled]
  rw [started, same, ← readBack]

theorem handleTest_moves : s.Moves (s.handleTest conn json answers).1 [] := by
  unfold handleTest
  dsimp only
  split
  · exact .same rfl
  · cases begun : s.heavyBegin (.conn conn) with
    | none => exact .same rfl
    | some t =>
      obtain ⟨same, -, idle⟩ := heavyBegin_free begun
      dsimp only
      split
      · exact .same ((hold_heavyRelease t _).trans same)
      · refine .same (bulkStart_hold s rfl idle ?_)
        exact same

theorem readScratch_moves (count : Nat) (failed : List Byte) (fits : Bus.Fits false false ops) :
    s.Moves (s.readScratch conn answers count failed).1 (s.gatedOps (.conn conn) ops) := by
  unfold readScratch
  cases begun : s.heavyBegin (.conn conn) with
  | none =>
    rw [gatedOps_none begun]
    exact .same rfl
  | some t =>
    obtain ⟨same, free, idle⟩ := heavyBegin_free begun
    rw [gatedOps_some begun]
    refine .free free ?_ fits
    dsimp only
    split
    · exact (hold_heavyRelease _ _).trans same
    · refine bulkStart_hold s rfl idle ?_
      exact same

theorem handleSensorRegs_moves : s.Moves (s.handleSensorRegs conn json answers).1 [] := by
  have gated : s.gatedOps (.conn conn) [] = [] := ite_self []
  have reads := readScratch_moves s conn answers (sizeField json "len" 8 256)
    (Json.cstr "read regs failed") (Bus.Fits.nil)
  rw [gated] at reads
  unfold handleSensorRegs
  dsimp only
  repeat' split
  all_goals first
    | exact .same rfl
    | exact reads

theorem handleSensorLa_moves :
    s.Moves (s.handleSensorLa conn json answers).1 (s.handleSensorLaOps conn json answers wire) := by
  unfold handleSensorLa handleSensorLaOps
  dsimp only
  split
  · exact .same rfl
  · exact readScratch_moves s conn answers _ _ ((Bus.fits_startOps _ _).append (Bus.fits_pairs _))

theorem handleCaptureRead_moves :
    s.Moves (s.handleCaptureRead conn json answers).1 (s.handleCaptureReadOps conn json answers) := by
  unfold handleCaptureRead handleCaptureReadOps
  dsimp only
  by_cases valid : s.lastCap.valid = false
  · rw [if_pos valid, if_pos (.inl valid)]
    exact .same rfl
  · rw [if_neg valid]
    cases stale : answers.stale with
    | some why =>
      dsimp only
      rw [if_pos (show _ ∨ (some why).isSome = true ∨ _ from .inr (.inl rfl))]
      exact .same rfl
    | none =>
      dsimp only
      by_cases beyond : s.lastCap.adcSamples + s.lastCap.laSamples < sizeField json "offset" 16 0
      · rw [if_pos beyond, if_pos (.inr (.inr beyond))]
        exact .same rfl
      · rw [if_neg beyond, if_neg (by simp [valid, beyond])]
        cases begun : s.heavyBegin (.conn conn) with
        | none =>
          rw [gatedOps_none begun]
          exact .same rfl
        | some t =>
          obtain ⟨same, free, -⟩ := heavyBegin_free begun
          rw [gatedOps_some begun]
          dsimp only
          split
          · exact .free free ((hold_heavyRelease t _).trans same) .nil
          · refine ⟨congrArg Hold.upload same, ?_⟩
            have held (bulk : Bulk) (deep : bulk.fromPsram = true) :
                ({ t with bulk := some bulk } : Pod).holding = true := by simp [holding, deep]
            rw [free, bulkResume, held _ rfl]
            exact Bus.fits_take

theorem loadChunk_hold (t : Pod) (offset : Nat) (text : List Byte) :
    (t.loadChunk conn answers offset text).1.hold = t.hold := by
  unfold loadChunk
  dsimp only
  repeat' split
  all_goals rfl

theorem handleLoad_moves : s.Moves (s.handleLoad conn json answers).1 [] := by
  refine .same ?_
  unfold handleLoad
  dsimp only
  split
  · rfl
  · split
    · rfl
    · split
      · split
        · rfl
        · rename_i claimed
          obtain ⟨rfl, -⟩ := heavyTryClaim_some claimed
          exact loadChunk_hold conn answers _ _ _
      · split
        · rfl
        · exact loadChunk_hold conn answers _ _ _

theorem handleReplay_moves : s.Moves (s.handleReplay conn json answers).1 (s.handleReplayOps conn json answers wire) := by
  have lost := hold_dropLostTrace s
  unfold handleReplay handleReplayOps
  dsimp only
  by_cases none_left : s.dropLostTrace.replayLen = 0
  · rw [if_pos none_left, if_pos (.inl none_left)]
    exact .same lost
  · rw [if_neg none_left]
    by_cases range : s.replaySamples json = 0 ∨ s.dropLostTrace.replayLen < s.replaySamples json
    · rw [if_pos range, if_pos (.inr (range.imp_right .inl))]
      exact .same lost
    · rw [if_neg range]
      have fits (deep : Prop) [Decidable deep] : Bus.Fits false false
          (if deep then [] else startOps false (wire.reaches answers)) := by
        split
        · exact .nil
        · exact Bus.fits_startOps _ _
      have gated {condition : Prop} [Decidable condition] : (if condition then []
            else s.dropLostTrace.gatedOps (.conn conn) (startOps false (wire.reaches answers))) =
            s.dropLostTrace.gatedOps (.conn conn) (if condition then [] else startOps false (wire.reaches answers)) := by
        split
        · exact (ite_self _).symm
        · rfl
      rw [gated]
      cases begun : s.dropLostTrace.heavyBegin (.conn conn) with
      | none =>
        rw [gatedOps_none begun]
        exact .same lost
      | some t =>
        obtain ⟨same, free, -⟩ := heavyBegin_free begun
        rw [gatedOps_some begun]
        rw [holding_eq, lost, ← holding_eq] at free
        refine .free free ?_ (fits _)
        rw [hold_heavyRelease]
        exact same.trans lost

theorem briefCommand_moves (holder : Holder) (fits : Bus.Fits false false ops) :
    s.Moves (s.briefCommand holder).1 (s.gatedOps holder ops) := by
  unfold briefCommand
  cases begun : s.heavyBegin holder with
  | none =>
    rw [gatedOps_none begun]
    exact .same rfl
  | some t =>
    obtain ⟨same, free, -⟩ := heavyBegin_free begun
    rw [gatedOps_some begun]
    exact .free free ((hold_heavyRelease t holder).trans same) fits

theorem jsonCommand_moves {command : JsonCommand} (short : command ≠ .loadBin) :
    s.Moves (s.jsonCommand conn json answers command).1 (s.jsonCommandOps conn json answers wire command) := by
  cases command with
  | capture => exact handleCapture_moves s conn json answers wire
  | captureDual => exact handleCaptureDual_moves s conn json answers wire
  | laCapture => exact handleLaCapture_moves s conn json answers wire
  | captureRead => exact handleCaptureRead_moves s conn json answers
  | stream => exact handleStream_moves s conn json answers wire
  | measure => exact handleMeasure_moves s conn json answers wire
  | test => exact handleTest_moves s conn json answers
  | sensorRegs => exact handleSensorRegs_moves s conn json answers
  | sensorLa => exact handleSensorLa_moves s conn json answers wire
  | load => exact handleLoad_moves s conn json answers
  | loadBin => exact absurd rfl short
  | replay => exact handleReplay_moves s conn json answers wire
  | brief => exact briefCommand_moves s _ (Bus.fits_accesses _)
  | rawMode proto =>
    refine .same ?_
    dsimp only [jsonCommand]
    split
    · rfl
    · exact hold_connProtoSet s conn proto

theorem scpiCapture_moves (n : Nat) (bytes : Mem) (got : Option Nat) :
    s.Moves (s.scpiCapture conn n bytes got).1 (s.scpiCommandOps conn wire (.capture n got)) := by
  unfold scpiCapture
  dsimp only [scpiCommandOps]
  split
  · exact .same rfl
  · cases begun : s.heavyBegin (.conn conn) with
    | none =>
      rw [gatedOps_none begun]
      exact .same rfl
    | some t =>
      obtain ⟨same, free, -⟩ := heavyBegin_free begun
      rw [gatedOps_some begun]
      refine .free free ?_ ((Bus.fits_startOps _ _).append (Bus.fits_pairs _))
      have released (u : Pod) (points : Nat) (kept : u.hold = s.hold) :
          ({ u.heavyRelease (.conn conn) with scpiReplayBytes := points } : Pod).hold = s.hold :=
        (hold_heavyRelease u _).trans kept
      dsimp only
      split
      · exact released _ _ same
      · exact released _ _ same

theorem scpiTraceData_moves (offset : Nat) (text : List Byte) : s.Moves (s.scpiTraceData conn offset text).1 [] := by
  unfold scpiTraceData
  split
  · exact .same rfl
  · cases begun : s.heavyBegin (.conn conn) with
    | none => exact .same rfl
    | some t =>
      obtain ⟨same, -, -⟩ := heavyBegin_free begun
      have released (u : Pod) (kept : u.hold = t.hold) : (u.heavyRelease (.conn conn)).hold = s.hold :=
        ((hold_heavyRelease u _).trans kept).trans same
      have taken : ({ t.adcPoolTake with scpiTraceGen := t.adcPoolTake.poolGen } : Pod).hold = t.hold := rfl
      refine .same ?_
      dsimp only
      split <;> split
      all_goals exact released _ rfl

theorem scratchCommand_moves (holder : Holder) (data : List Byte) (fits : Bus.Fits false false ops) :
    s.Moves (s.scratchCommand holder data) (s.gatedOps holder ops) := by
  unfold scratchCommand
  cases begun : s.heavyBegin holder with
  | none =>
    rw [gatedOps_none begun]
    exact .same rfl
  | some t =>
    obtain ⟨same, free, -⟩ := heavyBegin_free begun
    rw [gatedOps_some begun]
    exact .free free ((hold_heavyRelease _ holder).trans same) fits

theorem scpiCommand_moves (bytes : Mem) (command : ScpiCommand) :
    s.Moves (s.scpiCommand conn bytes command).1 (s.scpiCommandOps conn wire command) := by
  cases command with
  | capture n got => exact scpiCapture_moves s conn wire n bytes got
  | traceData offset text => exact scpiTraceData_moves s conn offset text
  | outputUser armed =>
    dsimp only [scpiCommand, scpiOutputUser]
    split <;> exact .same rfl
  | diagnostic data => exact scratchCommand_moves s _ data (Bus.fits_accesses _)
  | reset => exact .same rfl

end Commands

section Poll

variable {pass : Pass}

theorem scan_none {kind : Activity} (serves : s.gate.Serves (some ⟨kind, conn⟩)) (other : kind ≠ .chgscan) :
    s.chgscan = none := by
  have scan := serves.chgscan
  rw [Use.of_some, if_neg other] at scan
  simpa [gate] using scan

theorem bulk_none {kind : Activity} (serves : s.gate.Serves (some ⟨kind, conn⟩)) (other : kind ≠ .bulk) :
    s.bulk = none := by
  have bulk := serves.bulk
  rw [Use.of_some, if_neg other] at bulk
  simpa [gate] using bulk

theorem pollTrigger_hold (s : Pod) (pass : Pass) : (s.pollTrigger pass).hold = s.hold := by
  unfold pollTrigger
  split
  · rfl
  · split
    · rfl
    · dsimp only
      split
      · rfl
      · rw [hold_heavyRelease]
        exact hold_fpgaSetTriggerOff s pass.fabric

theorem pollV2cap_moves (serves : s.gate.Serves use) (wire : Wire) :
    s.Moves (s.pollV2cap pass) (s.pollV2capOps wire pass) := by
  unfold pollV2cap pollV2capOps
  cases active : s.v2cap with
  | none => exact .same rfl
  | some cap =>
    obtain rfl : use = some ⟨.v2cap, cap.connId⟩ := by
      rw [← Use.of_eq_some, ← serves.v2cap]
      simp [gate, active]
    have idle := bulk_none serves (by simp)
    cases past : pass.v2 with
    | running => exact .same rfl
    | done =>
      refine .keep (bulkStart_hold s rfl idle ?_) ?_
      · exact hold_captureTriggerDone _ pass.fabric pass.firedAtEnd
      · exact Bus.fits_pairs _
    | failed =>
      refine .keep ?_ (Bus.fits_pairs _)
      exact (hold_captureFailed _ pass _).trans (hold_captureTriggerDone _ pass.fabric pass.firedAtEnd)

theorem Moves.held {t : Pod} (free : s.holding = false) (held : t.holding = true)
    (same : t.loadBin = s.loadBin) : s.Moves t [.take] := by
  refine ⟨same, ?_⟩
  rw [free, held]
  exact Bus.fits_take

theorem holding_scan {t : Pod} {scan : Chgscan} (scans : t.chgscan = some scan) : t.holding = true := by
  simp [holding, scans]

theorem holding_readBack {t : Pod} {bulk : Bulk} (reads : t.bulk = some bulk) (deep : bulk.fromPsram = true) :
    t.holding = true := by
  simp [holding, reads, deep]

theorem holding_bulkStart (s : Pod) (bulk : Bulk) (deep : bulk.fromPsram = true) :
    (s.bulkStart bulk).holding = true := holding_readBack rfl deep

theorem pollLacap_moves (serves : s.gate.Serves use) : s.Moves (s.pollLacap pass) (s.pollLacapOps pass) := by
  unfold pollLacap pollLacapOps
  cases active : s.lacap with
  | none => exact .same rfl
  | some cap =>
    obtain rfl : use = some ⟨.lacap, cap.connId⟩ := by
      rw [← Use.of_eq_some, ← serves.lacap]
      simp [gate, active]
    have free : s.holding = false := by simp [holding, scan_none serves (by simp), bulk_none serves (by simp)]
    have same := hold_captureTriggerDone s pass.fabric pass.firedAtEnd
    have upload : (s.captureTriggerDone pass.fabric pass.firedAtEnd).loadBin = s.loadBin := congrArg Hold.upload same
    cases past : pass.la with
    | running => exact .same rfl
    | failed => exact .same ((hold_captureFailed _ pass _).trans same)
    | done =>
      dsimp only
      rw [if_neg (show ¬Wait.done = .running by simp), if_neg (show ¬Wait.done = .failed by simp),
        if_pos (show (some cap).isSome = true ∧ Wait.done = .done from ⟨rfl, rfl⟩)]
      split
      · exact .held free (holding_scan rfl) upload
      · exact .held free (holding_bulkStart _ _ rfl) upload

theorem pollDualcap_moves (serves : s.gate.Serves use) : s.Moves (s.pollDualcap pass) (s.pollDualcapOps pass) := by
  unfold pollDualcap pollDualcapOps
  cases active : s.dualcap with
  | none => exact .same rfl
  | some cap =>
    obtain rfl : use = some ⟨.dualcap, cap.connId⟩ := by
      rw [← Use.of_eq_some, ← serves.dualcap]
      simp [gate, active]
    have free : s.holding = false := by simp [holding, scan_none serves (by simp), bulk_none serves (by simp)]
    have same := hold_captureTriggerDone s pass.fabric pass.firedAtEnd
    have upload : (s.captureTriggerDone pass.fabric pass.firedAtEnd).loadBin = s.loadBin := congrArg Hold.upload same
    cases past : pass.dual with
    | running => exact .same rfl
    | failed => exact .same ((hold_captureFailed _ pass _).trans same)
    | done =>
      dsimp only
      rw [if_neg (show ¬Wait.done = .running by simp), if_neg (show ¬Wait.done = .failed by simp),
        if_pos (show Wait.done = .done from rfl)]
      split
      · refine .keep ?_ Bus.fits_access
        rw [hold_heavyRelease]
        exact same
      · split
        · exact .held free (holding_scan rfl) upload
        · exact .held free (holding_bulkStart _ _ rfl) upload

theorem Moves.given {t : Pod} (held : s.holding = true) (free : t.holding = false)
    (same : t.loadBin = s.loadBin) : s.Moves t [.give] := by
  refine ⟨same, ?_⟩
  rw [free, held]
  exact Bus.fits_give

theorem pollChgscan_moves (serves : s.gate.Serves use) : s.Moves (s.pollChgscan pass) (s.pollChgscanOps pass) := by
  unfold pollChgscan pollChgscanOps
  cases active : s.chgscan with
  | none => exact .same rfl
  | some scan =>
    obtain rfl : use = some ⟨.chgscan, scan.connId⟩ := by
      rw [← Use.of_eq_some, ← serves.chgscan]
      simp [gate, active]
    have idle := bulk_none serves (by simp)
    have held : s.holding = true := holding_scan active
    dsimp only
    cases chgscanStep s.psram pass.captured pass.readFails scan with
    | more after =>
      refine .same ?_
      simp [hold, active]
    | fails why =>
      have released (t : Pod) (holder : Holder) : (t.heavyRelease holder).holding = t.holding := by
        rw [holding_eq, hold_heavyRelease, ← holding_eq]
      refine .given held ?_ (congrArg Hold.upload (hold_heavyRelease _ _))
      rw [released]
      simp [holding, idle]
    | ready after base pre trunc total =>
      refine ⟨rfl, ?_⟩
      rw [held, holding_bulkStart _ _ rfl]
      exact .nil

theorem bulkPump_moves (serves : s.gate.Serves use) : s.Moves (s.bulkPump pass) (s.bulkPumpOps pass) := by
  unfold bulkPump bulkPumpOps
  cases active : s.bulk with
  | none => exact .same rfl
  | some bulk =>
    obtain rfl : use = some ⟨.bulk, bulk.connId⟩ := by
      rw [← Use.of_eq_some, ← serves.bulk]
      simp [gate, active]
    have idle := scan_none serves (by simp)
    cases past : pass.sent with
    | some sent =>
      rw [if_neg (by simp)]
      refine .same ?_
      simp [hold, active]
    | none =>
      have over_ : ((Pod.heavyRelease { s with bulk := none } (.conn bulk.connId)).hold) =
          { s.hold with readBack := false } := by
        rw [hold_heavyRelease]
        simp [hold]
      have same : (Pod.heavyRelease { s with bulk := none } (.conn bulk.connId)).loadBin = s.loadBin :=
        congrArg Hold.upload over_
      have free : (Pod.heavyRelease { s with bulk := none } (.conn bulk.connId)).holding = false := by
        rw [holding_eq, over_]
        simp [hold, idle]
      dsimp only
      cases deep : bulk.fromPsram with
      | true =>
        rw [if_pos (by simp [deep])]
        exact .given (holding_readBack active deep) free same
      | false =>
        rw [if_neg (by simp [deep])]
        refine ⟨same, ?_⟩
        rw [free, show s.holding = false by simp [holding, idle, active, deep]]
        exact .nil

theorem capturePoll_moves (serves : s.gate.Serves use) (wire : Wire) :
    s.Moves (s.capturePoll pass) (s.capturePollOps wire pass) := by
  obtain ⟨_, triggered⟩ := @pollTrigger_serves _ _ pass serves
  obtain ⟨_, shallow⟩ := @pollV2cap_serves _ _ pass triggered
  obtain ⟨_, analyzed⟩ := @pollLacap_serves _ _ pass shallow
  obtain ⟨_, scanned⟩ := @pollChgscan_serves _ _ pass analyzed
  obtain ⟨_, both⟩ := @pollDualcap_serves _ _ pass scanned
  have front : s.Moves (s.pollTrigger pass) [] := .same (pollTrigger_hold s pass)
  exact front.trans ((pollV2cap_moves triggered wire).trans ((pollLacap_moves shallow).trans
    ((pollChgscan_moves analyzed).trans ((pollDualcap_moves scanned).trans (bulkPump_moves both)))))

end Poll

section Events

variable {pass : Pass} {event : Event}

theorem proto_quiet (serves : s.gate.Serves use) (quiet : s.loadBin.conn = none) (conn : ConnId) :
    s.proto conn ≠ .load := by
  intro load
  have uploads : s.loadBin.conn = some conn := (serves.loads conn).mp load
  rw [quiet] at uploads
  cases uploads

/-- A connection that closes gives back what the bus is held for. -/
theorem captureConnClosed_moves (serves : s.gate.Serves use) (conn : ConnId) :
    s.Moves (s.captureConnClosed pass conn)
      ((if s.chgscan.any (·.connId = conn) then [BusOp.give] else []) ++
        if s.bulk.any fun bulk => bulk.connId = conn && bulk.fromPsram then [.give] else []) := by
  have closed : (s.captureConnClosed pass conn).hold =
      ⟨(s.chgscan.filter (·.connId ≠ conn)).isSome, (s.bulk.filter (·.connId ≠ conn)).any (·.fromPsram), s.loadBin⟩ := by
    have last (t : Pod) : (if t.trigwait.any (·.connId = conn) then t.abortTriggerOf pass conn
        else t).hold = t.hold := by
      split
      · exact hold_abortTriggerOf t pass conn
      · rfl
    have first (t : Pod) (owned : Bool) : ∃ u : Pod,
        (if owned then t.abortTriggerOf pass conn else t) = u ∧ u.chgscan = t.chgscan ∧ u.bulk = t.bulk ∧
          u.loadBin = t.loadBin := by
      refine ⟨_, rfl, ?_⟩
      unfold abortTriggerOf fpgaCaptureAbort fpgaSetTriggerOff
      repeat' split
      all_goals exact ⟨rfl, rfl, rfl⟩
    unfold captureConnClosed
    refine (last _).trans ?_
    obtain ⟨u, same, scan, bulk, upload⟩ := first { s with
      v2cap := s.v2cap.filter (·.connId ≠ conn)
      lacap := s.lacap.filter (·.connId ≠ conn)
      dualcap := s.dualcap.filter (·.connId ≠ conn)
      chgscan := s.chgscan.filter (·.connId ≠ conn) } (s.v2cap.any (·.connId = conn) ||
        s.lacap.any (·.connId = conn) || s.dualcap.any (·.connId = conn))
    rw [same]
    simp only [hold, scan, bulk, upload]
  refine ⟨congrArg Hold.upload closed, ?_⟩
  rw [holding_eq, holding_eq, closed]
  cases scanning : s.chgscan with
  | some scan =>
    obtain rfl : use = some ⟨.chgscan, scan.connId⟩ := by
      rw [← Use.of_eq_some, ← serves.chgscan]
      simp [gate, scanning]
    have idle := bulk_none serves (by simp)
    by_cases mine : scan.connId = conn
    · simp only [hold, scanning, idle]
      simp [mine, Bus.fits_give]
    · simp only [hold, scanning, idle]
      simp [mine, Bus.Fits.nil]
  | none =>
    cases sending : s.bulk with
    | none => simp [hold, scanning, sending, Bus.Fits.nil]
    | some bulk =>
      by_cases mine : bulk.connId = conn
      · cases deep : bulk.fromPsram with
        | true => simp [hold, scanning, sending, mine, deep, Bus.fits_give]
        | false => simp [hold, scanning, sending, mine, deep, Bus.Fits.nil]
      · simp [hold, scanning, sending, mine, Bus.Fits.nil]

theorem connClosed_moves (serves : s.gate.Serves use) (quiet : s.loadBin.conn = none) (conn : ConnId) :
    s.Moves (s.connClosed conn pass) (s.connClosedOps conn) := by
  have apart : ¬(connRunsStateMachine conn = true ∧ (s.proto conn = .load ∨ s.loadBin.conn = some conn)) := by
    rintro ⟨-, load | uploads⟩
    · exact proto_quiet serves quiet conn load
    · simp [quiet] at uploads
  have proto : (s.captureConnClosed pass conn).proto = s.proto :=
    congrArg Gate.proto (gate_captureConnClosed s pass conn)
  have upload : (s.captureConnClosed pass conn).loadBin = s.loadBin := (captureConnClosed_moves serves conn).1
  have released : ((s.captureConnClosed pass conn).heavyRelease (.conn conn)).proto =
      (s.captureConnClosed pass conn).proto := by
    unfold heavyRelease
    split <;> rfl
  have kept : (((s.captureConnClosed pass conn).heavyRelease (.conn conn)).dacConnClosed conn) =
      (s.captureConnClosed pass conn).heavyRelease (.conn conn) := by
    refine if_neg ?_
    have given : ((s.captureConnClosed pass conn).heavyRelease (.conn conn)).loadBin = s.loadBin :=
      (congrArg Hold.upload (hold_heavyRelease _ _)).trans upload
    rw [released, proto, given]
    exact apart
  have same : (s.connClosed conn pass).hold = (s.captureConnClosed pass conn).hold := by
    unfold connClosed
    dsimp only
    rw [kept, hold_connProtoSet, hold_heavyRelease]
  unfold connClosedOps
  dsimp only
  rw [if_neg apart, List.append_nil]
  have first : s.Moves (s.captureConnClosed pass conn) _ := captureConnClosed_moves serves conn
  have closes := first.trans (.same same)
  rwa [List.append_nil] at closes

theorem dacPoll_hold (quiet : s.loadBin.conn = none) (holdNow loadNow : Nat) :
    (s.dacPoll holdNow loadNow).hold = s.hold := by
  have first : (s.pollLoadedHold holdNow).hold = s.hold := by
    unfold pollLoadedHold heavyRelease
    dsimp only
    repeat' split
    all_goals rfl
  unfold dacPoll
  rw [pollLoadBin_idle ((congrArg LoadBin.conn (congrArg Hold.upload first)).trans quiet), first]

/-- Every event of these runs keeps the bus with what it is held for. -/
theorem step_moves (serves : s.gate.Serves use) (quiet : s.loadBin.conn = none) (wire : Wire)
    (captures : event.captures = true) : s.Moves (s.step event) ((s.eventOps wire event).getD []) := by
  unfold step
  cases event with
  | json conn command line answers =>
    have short : command ≠ .loadBin := by
      rintro rfl
      cases captures
    dsimp only [handle, eventOps]
    cases speaks : s.speaks conn .json with
    | none => exact .same rfl
    | some t =>
      have spoken : s.Moves t [] := .same (hold_speaks speaks)
      exact spoken.trans (jsonCommand_moves t conn line answers wire short)
  | scpi conn command bytes =>
    dsimp only [handle, eventOps]
    cases speaks : s.speaks conn .scpi with
    | none => exact .same rfl
    | some t =>
      have spoken : s.Moves t [] := .same (hold_speaks speaks)
      exact spoken.trans (scpiCommand_moves t conn wire bytes command)
  | console data => exact scratchCommand_moves s _ data (Bus.fits_accesses _)
  | bytes conn now data written =>
    have other := proto_quiet serves quiet conn
    dsimp only [handle, eventOps]
    rw [if_neg (fun load => other load.2), if_neg (fun load => other load.2.1)]
    exact .same rfl
  | rawEnd conn proto =>
    refine .same ?_
    dsimp only [handle]
    split
    · rfl
    · exact hold_connProtoSet s conn proto
  | dacPoll holdNow loadNow =>
    dsimp only [handle, eventOps]
    rw [if_neg (by simp [quiet])]
    exact .same (dacPoll_hold quiet holdNow loadNow)
  | capturePoll pass => exact capturePoll_moves serves wire
  | closed conn pass => exact connClosed_moves serves quiet conn
  | reconfigured => cases captures
  | updates ota esp => exact .same rfl
  | psramWrite start data => exact .keep rfl (Bus.fits_pairs _)

theorem timely_quiet (quiet : s.loadBin.conn = none) (event : Event) : s.timely event = true := by
  cases event <;> simp [timely, quiet]

end Events

end Pod

namespace PodOnBus

/-- The bus is held for exactly one scan or read-back from the PSRAM, or free. -/
structure Balanced (p : PodOnBus) : Prop where
  serves : ∃ use, p.pod.gate.Serves use
  quiet : p.pod.loadBin.conn = none
  bus : p.bus = Bus.during p.pod.holding

theorem Balanced.step {p : PodOnBus} (balanced : p.Balanced) {event : Event × Wire}
    (captures : event.1.captures = true) : (workerOnBus.step p event).Balanced := by
  obtain ⟨⟨use, serves⟩, quiet, bus⟩ := balanced
  obtain ⟨upload, fits⟩ := Pod.step_moves serves quiet event.2 captures
  refine ⟨Pod.step_serves serves (Pod.timely_quiet quiet event.1), ?_, ?_⟩
  · exact (congrArg LoadBin.conn upload).trans quiet
  · dsimp only [workerOnBus]
    rw [bus]
    exact fits

end PodOnBus

/-- In every run of commands, polls and closed connections from a pod at rest, the bus is held exactly
while a scan or a read-back from the PSRAM is active, and no hold is dropped, given twice, or open
under an arm. -/
theorem bus_balanced (s : Pod) (rest : s.gate.Serves none) (events : List (Event × Wire))
    (along : workerOnBus.Along (fun _ event => event.1.captures = true) ⟨s, {}⟩ events) :
    let p := workerOnBus.run ⟨s, {}⟩ events
    p.bus.owner.depth = (if p.pod.chgscan.isSome ∨ p.pod.bulk.any (·.fromPsram) then 1 else 0) ∧
      (p.bus.ice40 = true ↔ p.bus.owner.depth = 0) ∧ p.bus.owner.unpaired = 0 ∧
      p.bus.owner.violations = 0 ∧ p.bus.armedHeld = 0 := by
  have free : s.holding = false := by
    have scan : s.chgscan = none := by simpa [Pod.gate] using rest.chgscan
    have bulk : s.bulk = none := by simpa [Pod.gate] using rest.bulk
    simp [Pod.holding, scan, bulk]
  have start : PodOnBus.Balanced ⟨s, {}⟩ := ⟨⟨none, rest⟩, rest.upload, by rw [free]; rfl⟩
  have balanced := along.invariant _ PodOnBus.Balanced (fun balanced captures => balanced.step captures) start
  dsimp only
  rw [balanced.bus]
  cases held : (workerOnBus.run ⟨s, {}⟩ events).pod.holding with
  | false =>
    have idle : ¬((workerOnBus.run ⟨s, {}⟩ events).pod.chgscan.isSome = true ∨
        (workerOnBus.run ⟨s, {}⟩ events).pod.bulk.any (·.fromPsram) = true) := by
      simpa [Pod.holding] using held
    rw [if_neg idle]
    decide
  | true =>
    have busy : (workerOnBus.run ⟨s, {}⟩ events).pod.chgscan.isSome = true ∨
        (workerOnBus.run ⟨s, {}⟩ events).pod.bulk.any (·.fromPsram) = true := by
      simpa [Pod.holding] using held
    rw [if_pos busy]
    decide

/-- A capture that is read back until its connection closes, and one of another connection that fails
to start. -/
def readBackCut : List (Event × Wire) :=
  [(.json 0 .captureDual (Json.cstr "\x7b\"adc_samples\":4\x7d") {}, {}),
    (.capturePoll { dual := .done }, {}),
    (.json 1 .capture (Json.cstr "\x7b\x7d") {}, {}),
    (.closed 0 {}, {}),
    (.json 1 .laCapture (Json.cstr "\x7b\x7d") { armed := false }, { reach := .handedOver })]

theorem bus_balanced_cut :
    (workerOnBus.run {} readBackCut).bus.owner.depth = 0 ∧
      (workerOnBus.run {} (readBackCut.take 3)).bus.owner.depth = 1 := by
  have idle : (workerOnBus.run {} readBackCut).pod.holding = false := by decide +kernel
  have held : (workerOnBus.run {} (readBackCut.take 3)).pod.holding = true := by decide +kernel
  have whole := bus_balanced {} Pod.serves_initial readBackCut (by decide +kernel)
  have front := bus_balanced {} Pod.serves_initial (readBackCut.take 3) (by decide +kernel)
  refine ⟨whole.1.trans (if_neg ?_), front.1.trans (if_pos ?_)⟩
  · simpa [Pod.holding] using idle
  · simpa [Pod.holding] using held

end BenchPod.Capture
