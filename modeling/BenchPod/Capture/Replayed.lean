import BenchPod.Capture.Played

/-!
# Runs that keep the traces

The polls and the connections that close leave a trace alone or complete it.  So in a run that spoils no
trace the tape stays right, and a replay plays the trace of the last capture or upload of its language.
-/

namespace BenchPod.Capture

open Command

namespace Pod

variable {s s' : Pod} {t : Traces} {use : Option Use} {conn : ConnId} {pass : Pass}

theorem tape_pollTrigger (kept : (s.pollTrigger pass).v2cap = s.v2cap) : (s.pollTrigger pass).tape = s.tape := by
  have others : { (s.pollTrigger pass).tape with v2cap := s.v2cap } = s.tape := by
    unfold pollTrigger
    split
    · rfl
    · split
      · rfl
      · dsimp only
        split
        · rfl
        · rename_i wait _ _ _
          rw [tape_heavyRelease]
          exact congrArg (fun p : Tape => { p with v2cap := s.v2cap }) (tape_fpgaSetTriggerOff s pass.fabric)
  rw [← kept] at others
  exact others

theorem pollTrigger_none (idle : s.v2cap = none) : (s.pollTrigger pass).v2cap = none := by
  have filtered (u : Pod) (holder : Holder) : (u.heavyRelease holder).v2cap = u.v2cap := by
    unfold heavyRelease
    split <;> rfl
  unfold pollTrigger
  split
  · exact idle
  · split
    · exact idle
    · dsimp only
      split
      · exact idle
      · rw [filtered]
        have same : (s.fpgaCaptureAbort pass).v2cap = s.v2cap :=
          congrArg Tape.v2cap (tape_fpgaSetTriggerOff s pass.fabric)
        simp [same, idle]

theorem pollV2cap_right (right : Right s.tape t) (serves : s.gate.Serves use)
    (whole : s.v2cap = none ∨ pass.v2 ≠ .failed) :
    Right (s.pollV2cap pass).tape
      (match s.v2cap with
        | some cap => if pass.v2 = .done then { t with json := pass.bytes.read 0 (2 * cap.samples) } else t
        | none => t) := by
  cases busy : s.v2cap with
  | none =>
    rw [pollV2cap, busy]
    exact right
  | some cap =>
    have quiet : s.loadBin.conn = none := by
      obtain rfl : use = some ⟨.v2cap, cap.connId⟩ := by
        rw [← Use.of_eq_some, ← serves.v2cap]
        simp [gate, busy]
      exact serves.upload
    rw [pollV2cap, busy]
    dsimp only
    cases wait : pass.v2 with
    | running => exact right
    | done =>
      refine (right.captured busy quiet (Mem.read_length 0 (2 * cap.samples))).congr ?_
      exact congrArg (fun p : Tape => { p with v2cap := none }) (tape_captureTriggerDone _ _ _)
    | failed =>
      obtain idle | other := whole
      · rw [busy] at idle
        cases idle
      · exact absurd wait other

@[simp]
theorem tape_pollLacap (s : Pod) (pass : Pass) : (s.pollLacap pass).tape = s.tape := by
  unfold pollLacap
  split
  · rfl
  · split
    · rfl
    · have done := tape_captureTriggerDone s pass.fabric pass.firedAtEnd
      dsimp only
      split
      · rw [tape_captureFailed]
        exact done
      · split <;> exact done

@[simp]
theorem tape_pollChgscan (s : Pod) (pass : Pass) : (s.pollChgscan pass).tape = s.tape := by
  unfold pollChgscan
  split
  · rfl
  · split
    · rfl
    · exact tape_heavyRelease _ _
    · rfl

@[simp]
theorem tape_pollDualcap (s : Pod) (pass : Pass) : (s.pollDualcap pass).tape = s.tape := by
  unfold pollDualcap
  split
  · rfl
  · split
    · rfl
    · have done := tape_captureTriggerDone s pass.fabric pass.firedAtEnd
      dsimp only
      split
      · rw [tape_captureFailed]
        exact done
      · split
        · rw [tape_heavyRelease]
          exact done
        · split <;> exact done

@[simp]
theorem tape_bulkPump (s : Pod) (pass : Pass) : (s.bulkPump pass).tape = s.tape := by
  unfold bulkPump
  split
  · rfl
  · split
    · rfl
    · exact tape_heavyRelease _ _

theorem capturePoll_right (right : Right s.tape t) (serves : s.gate.Serves use)
    (keeps : (Event.capturePoll pass).keeps s t = true) :
    Right (s.capturePoll pass).tape (t.next s (.capturePoll pass)) := by
  simp only [Event.keeps, Bool.or_eq_true, Bool.and_eq_true, decide_eq_true_eq, ne_eq] at keeps
  obtain ⟨use', serves'⟩ := @pollTrigger_serves s use pass serves
  have kept : (s.pollTrigger pass).v2cap = s.v2cap := by
    obtain idle | ⟨same, -⟩ := keeps
    · have idle : s.v2cap = none := Option.isNone_iff_eq_none.mp idle
      rw [pollTrigger_none idle, idle]
    · exact same
  have whole : (s.pollTrigger pass).v2cap = none ∨ pass.v2 ≠ .failed := by
    obtain idle | ⟨-, done⟩ := keeps
    · exact .inl (pollTrigger_none (Option.isNone_iff_eq_none.mp idle))
    · exact .inr done
  have polled := pollV2cap_right (right.congr (tape_pollTrigger kept)) serves' whole
  refine Right.congr polled ?_
  unfold capturePoll
  simp only [tape_bulkPump, tape_pollDualcap, tape_pollChgscan, tape_pollLacap]

theorem tape_captureConnClosed (other : s.v2cap.all (·.connId ≠ conn) = true) :
    (s.captureConnClosed pass conn).tape = s.tape := by
  have kept : s.v2cap.filter (·.connId ≠ conn) = s.v2cap := by
    cases busy : s.v2cap with
    | none => rfl
    | some cap =>
      rw [busy] at other
      exact Option.filter_some_pos other
  have last (u : Pod) : (if u.trigwait.any (·.connId = conn) then u.abortTriggerOf pass conn else u).tape = u.tape := by
    split
    · exact tape_abortTriggerOf u pass conn
    · rfl
  unfold captureConnClosed
  rw [kept]
  refine (last _).trans ?_
  split
  · exact tape_abortTriggerOf _ pass conn
  · rfl

theorem connClosed_right (right : Right s.tape t) (other : s.v2cap.all (·.connId ≠ conn) = true) :
    Right (s.connClosed conn pass).tape t := by
  have closed : ((s.captureConnClosed pass conn).heavyRelease (.conn conn)).tape = s.tape :=
    (tape_heavyRelease _ _).trans (tape_captureConnClosed other)
  unfold connClosed
  rw [tape_connProtoSet]
  unfold dacConnClosed
  split
  · exact right.cleared.congr (congrArg (fun p : Tape => { p with loadBin := {} }) closed)
  · exact right.congr closed

theorem reconfigured_right (right : Right s.tape t)
    (keeps : Event.reconfigured.keeps s t = true) :
    Right s.captureOnGatewareReconfigured.tape t := by
  simp only [Event.keeps, Bool.and_eq_true, Bool.not_eq_true', Bool.and_eq_false_iff] at keeps
  obtain ⟨played, uploaded⟩ := keeps
  refine ⟨right.ram, ?_, right.v2cap, right.apart, right.scpi, ?_⟩
  · intro psram some_left
    change s.replayInPsram = true at psram
    change s.replayLen ≠ 0 at some_left
    change s.replayInPsram = false ∨ decide (s.replayLen ≠ 0) = false at played
    simp [psram, some_left] at played
  · intro uploads
    obtain ⟨empty, ram, had, within, stored⟩ := right.upload uploads
    refine ⟨empty, ram, had, within, ?_⟩
    change s.loadBin.conn.isSome = true at uploads
    change s.loadBin.conn.isSome = false ∨ s.loadBin.psram = false at uploaded
    have shallow : s.loadBin.psram = false := by simpa [uploads] using uploaded
    change if s.loadBin.psram then _ else _ at stored
    change if s.loadBin.psram then _ else _
    simp only [shallow] at stored ⊢
    exact stored

/-- A JSON command that spoils no trace. -/
theorem json_right (right : Right s.tape t) (serves : s.gate.Serves use) {command : JsonCommand}
    {line : List Byte} {answers : Answers} (keeps : (Event.json conn command line answers).keeps s t = true) :
    Right (s.step (.json conn command line answers)).tape (t.next s (.json conn command line answers)) := by
  unfold step
  cases speaks : s.speaks conn .json with
  | none =>
    have same : s.handle (.json conn command line answers) = (s, none) := by rw [handle, speaks]
    cases command <;> simpa [Traces.next, same] using right
  | some u =>
    have handled : s.handle (.json conn command line answers) =
        ((u.jsonCommand conn line answers command).1, some (u.jsonCommand conn line answers command).2) := by
      rw [handle, speaks]
    obtain ⟨serves, apart⟩ := speaks_serves serves (by simp) speaks
    have tape := tape_speaks speaks
    have right_then : Right u.tape t := right.congr tape
    simp only [Event.keeps, handled, ← tape] at keeps
    simp only [Traces.next, handled]
    cases command with
    | capture =>
      refine captures_right right_then serves apart (handleCapture_captures conn line answers u) ?_
      simpa using keeps
    | stream =>
      refine captures_right right_then serves apart (handleStream_captures conn line answers u) ?_
      simpa using keeps
    | measure =>
      refine captures_right right_then serves apart (handleMeasure_captures conn line answers u) ?_
      simpa using keeps
    | captureDual => exact right_then.congr (handleCaptureDual_tape conn line answers u)
    | laCapture => exact right_then.congr (handleLaCapture_tape conn line answers u)
    | captureRead => exact right_then.congr (handleCaptureRead_tape conn line answers u)
    | test =>
      dsimp only [jsonCommand] at keeps ⊢
      refine handleTest_right right_then serves apart ?_
      simpa using keeps
    | sensorRegs => exact handleSensorRegs_right right_then
    | sensorLa => exact handleSensorLa_right right_then
    | load =>
      dsimp only [jsonCommand] at keeps ⊢
      have loaded := handleLoad_right right_then serves apart keeps
      simpa using loaded
    | loadBin =>
      dsimp only [jsonCommand] at keeps ⊢
      have begun := handleLoadBin_right right_then serves apart (by simpa using keeps)
      simpa using begun
    | replay =>
      have dropped := dropLostTrace_right right_then
      exact dropped.congr (handleReplay_tape u conn line answers)
    | brief =>
      refine right_then.congr ?_
      dsimp only [jsonCommand, briefCommand]
      split
      · rfl
      · rename_i begun
        exact (tape_heavyRelease _ _).trans (tape_heavyBegin begun)
    | rawMode proto =>
      refine right_then.congr ?_
      dsimp only [jsonCommand]
      split
      · rfl
      · exact tape_connProtoSet u conn proto

theorem scpi_right (right : Right s.tape t) (serves : s.gate.Serves use) {command : ScpiCommand}
    {bytes : Mem} (keeps : (Event.scpi conn command bytes).keeps s t = true) :
    Right (s.step (.scpi conn command bytes)).tape (t.next s (.scpi conn command bytes)) := by
  unfold step
  cases speaks : s.speaks conn .scpi with
  | none =>
    have same : s.handle (.scpi conn command bytes) = (s, none) := by rw [handle, speaks]
    cases command <;> simpa [Traces.next, same] using right
  | some u =>
    have handled : s.handle (.scpi conn command bytes) =
        ((u.scpiCommand conn bytes command).1, some (u.scpiCommand conn bytes command).2) := by
      rw [handle, speaks]
    obtain ⟨serves, apart⟩ := speaks_serves serves (by simp) speaks
    have tape := tape_speaks speaks
    have right_then : Right u.tape t := right.congr tape
    simp only [Event.keeps, handled, ← tape] at keeps
    simp only [Traces.next, handled]
    cases command with
    | capture n got =>
      dsimp only [scpiCommand] at keeps ⊢
      rw [← heavyBegin_isNone_of_speaks speaks] at keeps
      have captured := @scpiCapture_right u t use conn right_then serves apart n got bytes keeps
      simpa using captured
    | traceData offset text =>
      dsimp only [scpiCommand] at keeps ⊢
      have loaded := scpiTraceData_right right_then serves apart keeps
      simpa using loaded
    | outputUser armed =>
      refine right_then.congr ?_
      dsimp only [scpiCommand, scpiOutputUser]
      split <;> rfl
    | diagnostic data => exact scratchCommand_right right_then data
    | reset => exact scpiReset_right right_then

/-- Every event that spoils no trace keeps what a replay would play right. -/
theorem step_right (right : Right s.tape t) (serves : s.gate.Serves use) {event : Event}
    (keeps : event.keeps s t = true) : Right (s.step event).tape (t.next s event) := by
  cases event with
  | json conn command line answers => exact json_right right serves keeps
  | scpi conn command bytes => exact scpi_right right serves keeps
  | console data => exact scratchCommand_right right data
  | bytes conn now data written =>
    dsimp only [step, handle, Traces.next]
    by_cases load : connRunsStateMachine conn = true ∧ s.proto conn = .load
    · rw [if_pos load, if_pos load]
      have uploads : s.loadBin.conn = some conn := (serves.loads conn).mp load.2
      have idle : s.tape.v2cap = none := by
        obtain rfl : use = some ⟨.upload, conn⟩ := by
          rw [← Use.of_eq_some, ← serves.upload]
          exact uploads
        exact Option.map_eq_none_iff.mp serves.v2cap
      refine loadBinReceive_right right idle (by simp [uploads]) ?_
      intro deep
      change s.tape.loadBin.psram = true at deep
      simp only [Event.keeps, load.1, load.2, deep, decide_true, Bool.and_self, Bool.not_true,
        Bool.or_self, Bool.false_or, decide_eq_true_eq] at keeps
      exact keeps
    · rw [if_neg load, if_neg load]
      exact right
  | rawEnd conn proto =>
    refine right.congr ?_
    dsimp only [step, handle]
    split
    · rfl
    · exact tape_connProtoSet s conn proto
  | dacPoll holdNow loadNow => exact pollLoadBin_right (pollLoadedHold_right right holdNow) loadNow
  | capturePoll pass => exact capturePoll_right right serves keeps
  | closed conn pass => exact connClosed_right right keeps
  | reconfigured => exact reconfigured_right right keeps
  | updates ota esp => exact right
  | psramWrite start data =>
    simp only [Event.keeps, Bool.or_eq_true, decide_eq_true_eq] at keeps
    by_cases empty : data = []
    · subst empty
      refine right.congr ?_
      have same : s.psram.write start [] = s.psram := Mem.write_nil
      exact congrArg (fun psram : Mem => { s.tape with psram }) same
    · refine right.psramWritten ?_
      simpa [empty, or_assoc] using keeps

theorem right_initial : Right (Pod.tape {}) {} where
  ram _ held := absurd held (by decide)
  psram held := absurd held (by decide)
  v2cap := by simp [tape]
  apart held := absurd held (by decide)
  scpi held := absurd held (by decide)
  upload uploads := by simp [tape] at uploads

theorem handleReplay_playing {line played : List Byte} {answers : Answers}
    (plays : (s.handleReplay conn line answers).2 = .playing played) :
    s.tape.v2cap = none ∧ (s.replayInPsram = true ∨ s.adcPoolHolds s.jsonTraceGen = true) ∧
      s.replayLen ≠ 0 ∧ s.replaySamples line ≤ s.replayLen ∧ s.replayFits (s.replaySamples line) = true ∧
      played = s.replayBytes (s.replaySamples line) := by
  unfold handleReplay at plays
  dsimp only at plays
  split at plays
  · cases plays
  · rename_i some_left
    split at plays
    · cases plays
    · rename_i fits
      obtain ⟨-, enough⟩ := not_or.mp fits
      rw [Nat.not_lt] at enough
      split at plays
      · cases plays
      · rename_i u begun
        have lost : ¬(s.replayInPsram = false ∧ s.adcPoolHolds s.jsonTraceGen = false) := by
          intro lost
          rw [dropLostTrace, if_pos lost] at some_left
          exact some_left rfl
        have kept : s.dropLostTrace = s := by rw [dropLostTrace, if_neg lost]
        rw [kept] at begun some_left enough
        obtain ⟨rfl, free⟩ := heavyBegin_some begun
        split at plays
        · rename_i plays_fits
          cases plays
          refine ⟨Option.map_eq_none_iff.mp free.v2cap, ?_, some_left, enough, plays_fits.2, rfl⟩
          simpa [imp_iff_not_or, or_comm] using lost
        · cases plays

end Pod

/-- The samples that a `replay` of a trace asks for. -/
def Traces.samples (t : Traces) (line : List Byte) : Nat :=
  match Json.bpJsonGet line (Json.cstr "samples") 16 with
  | some (c :: text) => (Json.strtoul (c :: text)).toNat
  | _ => t.json.length / 2

namespace Right

variable {s : Pod} {t : Traces} {conn : ConnId} {line played : List Byte} {answers : Answers}

theorem replay (right : Right s.tape t) (plays : (s.handleReplay conn line answers).2 = .playing played) :
    2 * t.samples line ≤ t.json.length ∧ played = t.json.take (2 * t.samples line) := by
  obtain ⟨idle, kept, some_left, enough, fits, rfl⟩ := Pod.handleReplay_playing plays
  have asked (length : s.replayLen = t.json.length / 2) : s.replaySamples line = t.samples line := by
    rw [Pod.replaySamples, length]
    rfl
  by_cases psram : s.replayInPsram = true
  · obtain ⟨length, stored⟩ := right.psram psram some_left
    change s.replayLen = _ at length
    rw [Pod.replayBytes, if_pos psram]
    rw [asked length] at enough ⊢
    refine ⟨by omega, stored.read ?_ (by omega)⟩
    exact Nat.mul_le_mul_left 2 enough
  · have held : s.tape.jsonHeld = true := by
      rw [Tape.jsonHeld_iff]
      exact ⟨Bool.not_eq_true _ ▸ psram, some_left, kept.resolve_left psram⟩
    obtain ⟨length, stored⟩ := right.ram idle held
    change s.replayLen = _ at length
    rw [Pod.replayBytes, if_neg psram]
    rw [Pod.replayFits, if_neg psram, decide_eq_true_eq] at fits
    rw [asked length] at enough fits ⊢
    exact ⟨by omega, stored.read (by omega) (by omega)⟩

theorem outputUser (right : Right s.tape t) {armed : Bool}
    (plays : (s.scpiOutputUser armed).2 = .playing played) :
    played = t.scpi.take (t.scpi.length / 2 * 2) := by
  unfold Pod.scpiOutputUser at plays
  dsimp only at plays
  split at plays
  · cases plays
  · rename_i fits
    obtain ⟨some_left, held, -, within⟩ := by simpa only [not_or] using fits
    cases plays
    have playable : s.tape.scpiHeld = true := Bool.not_eq_false _ ▸ held
    obtain ⟨length, stored⟩ := right.scpi playable
    change s.scpiReplayBytes = _ at length
    rw [length] at within ⊢
    exact stored.read (by omega) (by omega)

end Right

/-- A pod beside the traces that were put there. -/
structure Tracked where
  pod : Pod := {}
  traces : Traces := {}

/-- The worker's system beside the traces. -/
def tracked : Emitter Tracked Event Reply where
  step s event := ⟨s.pod.step event, s.traces.next s.pod event⟩
  emit s event := (s.pod.handle event).2

/-- The event keeps the gate in order and spoils no trace. -/
def Tracked.keeps (s : Tracked) (event : Event) : Bool := s.pod.timely event && event.keeps s.pod s.traces

/-- In every run that spoils no trace, a replay plays the trace of the last JSON capture or upload and
the USER output that of the last SCPI one. -/
theorem replay_right (events : List Event)
    (along : tracked.Along (fun s event => s.keeps event = true) {} events) :
    (∀ conn line answers played,
        ((tracked.run {} events).pod.handleReplay conn line answers).2 = .playing played →
        2 * (tracked.run {} events).traces.samples line ≤ (tracked.run {} events).traces.json.length ∧
          played = (tracked.run {} events).traces.json.take
            (2 * (tracked.run {} events).traces.samples line)) ∧
      ∀ armed played, ((tracked.run {} events).pod.scpiOutputUser armed).2 = .playing played →
        played = (tracked.run {} events).traces.scpi.take
          ((tracked.run {} events).traces.scpi.length / 2 * 2) := by
  have good : Right (tracked.run {} events).pod.tape (tracked.run {} events).traces ∧
      ∃ use, (tracked.run {} events).pod.gate.Serves use := by
    refine along.invariant tracked
      (fun s => Right s.pod.tape s.traces ∧ ∃ use, s.pod.gate.Serves use) ?_
      ⟨Pod.right_initial, none, Pod.serves_initial⟩
    rintro s event ⟨right, use, serves⟩ keeps
    obtain ⟨timely, keeps⟩ := Bool.and_eq_true _ _ ▸ keeps
    exact ⟨Pod.step_right right serves keeps, Pod.step_serves serves timely⟩
  exact ⟨fun _ _ _ _ plays => good.1.replay plays, fun _ _ plays => good.1.outputUser plays⟩

/-- An upload into the PSRAM with its replay, then a SCPI capture on another connection. -/
def uploadThenCapture : List Event :=
  [.json 0 .loadBin (Json.cstr "\x7b\"total\":4,\"psram\":true\x7d") {}, .bytes 0 1000 [1, 2, 3, 4] 4,
    .json 0 .replay (Json.cstr "\x7b\x7d") {}, .scpi 1 (.capture 2 none) fun i => BitVec.ofNat 8 (i + 5)]

theorem replay_right_both :
    (∃ played, ((tracked.run {} uploadThenCapture).pod.handleReplay 0 (Json.cstr "\x7b\x7d") {}).2 =
        .playing played ∧ played = [1, 2, 3, 4]) ∧
      ∃ played, ((tracked.run {} uploadThenCapture).pod.scpiOutputUser true).2 = .playing played ∧
        played = [5, 6, 7, 8] := by
  have along : tracked.Along (fun s event => s.keeps event = true) {} uploadThenCapture := by decide +kernel
  obtain ⟨replays, outputs⟩ := replay_right uploadThenCapture along
  have json : (tracked.run {} uploadThenCapture).traces.json = [1, 2, 3, 4] := by decide +kernel
  have scpi : (tracked.run {} uploadThenCapture).traces.scpi = [5, 6, 7, 8] := by decide +kernel
  have asked : (tracked.run {} uploadThenCapture).traces.samples (Json.cstr "\x7b\x7d") = 2 := by decide +kernel
  constructor
  · have plays : ((tracked.run {} uploadThenCapture).pod.handleReplay 0 (Json.cstr "\x7b\x7d") {}).2 =
        .playing [1, 2, 3, 4] := by
      decide +kernel
    obtain ⟨-, same⟩ := replays _ _ _ _ plays
    rw [json, asked] at same
    exact ⟨_, plays, same⟩
  · have plays : ((tracked.run {} uploadThenCapture).pod.scpiOutputUser true).2 = .playing [5, 6, 7, 8] := by
      decide +kernel
    have same := outputs _ _ plays
    rw [scpi] at same
    exact ⟨_, plays, same⟩

/-- A test pattern over an uploaded trace. -/
def testOverLoad : List Event :=
  [.json 0 .load (Json.cstr "\x7b\"data\":\"AQIDBA\"\x7d") {},
    .json 0 .test (Json.cstr "\x7b\"pattern\":\"counter\",\"samples\":2\x7d") {}, .capturePoll { sent := none }]

/-- The test pattern takes the pool without its generation, so the replay of the upload plays it. -/
theorem replay_wrong :
    ¬∀ events conn line answers played,
      ((tracked.run {} events).pod.handleReplay conn line answers).2 = .playing played →
      2 * (tracked.run {} events).traces.samples line ≤ (tracked.run {} events).traces.json.length ∧
        played = (tracked.run {} events).traces.json.take
          (2 * (tracked.run {} events).traces.samples line) := by
  intro right
  have plays : ((tracked.run {} testOverLoad).pod.handleReplay 0 (Json.cstr "\x7b\x7d") {}).2 =
      .playing [0, 0, 1, 0] := by
    decide +kernel
  have other : (tracked.run {} testOverLoad).traces.json.take
      (2 * (tracked.run {} testOverLoad).traces.samples (Json.cstr "\x7b\x7d")) ≠ [0, 0, 1, 0] := by
    decide +kernel
  exact other (right _ _ _ _ _ plays).2.symm

end BenchPod.Capture
