import BenchPod.Capture.Right

/-!
# What a replay plays

Every event that spoils no kept trace keeps the tape right, so a replay plays the trace of the last
capture or upload of its language, or nothing.
-/

namespace BenchPod.Capture

open Command

namespace Pod

variable {s s' : Pod} {t : Traces} {use : Option Use} {conn : ConnId} {holder : Holder}

@[simp]
theorem tape_heavyRelease (s : Pod) (holder : Holder) : (s.heavyRelease holder).tape = s.tape := by
  unfold heavyRelease
  split <;> rfl

theorem tape_heavyBegin (begun : s.heavyBegin holder = some s') : s'.tape = s.tape := by
  obtain ⟨rfl, -⟩ := heavyBegin_some begun
  rfl

@[simp]
theorem tape_fpgaSetTriggerOff (s : Pod) (fabric : Fabric) : (s.fpgaSetTriggerOff fabric).tape = s.tape := by
  unfold fpgaSetTriggerOff
  split <;> rfl

@[simp]
theorem tape_captureTriggerCancel (s : Pod) (fabric : Fabric) (trig : LaTrigger) :
    (s.captureTriggerCancel fabric trig).tape = s.tape := by
  unfold captureTriggerCancel
  split
  · exact tape_fpgaSetTriggerOff s fabric
  · rfl

theorem tape_captureTriggerArmed (s : Pod) (now : Nat) (conn : ConnId) (trig : LaTrigger) :
    (s.captureTriggerArmed now conn trig).tape = s.tape := by
  unfold captureTriggerArmed
  split <;> rfl

theorem tape_captureTriggerDone (s : Pod) (fabric : Fabric) (fired : Bool) :
    (s.captureTriggerDone fabric fired).tape = s.tape := by
  unfold captureTriggerDone
  split
  · rfl
  · exact tape_fpgaSetTriggerOff _ fabric

@[simp]
theorem tape_connProtoSet (s : Pod) (conn : ConnId) (proto : Proto) : (s.connProtoSet conn proto).tape = s.tape := by
  unfold connProtoSet
  split <;> rfl

theorem tape_fpgaSetTriggerPre {fabric : Fabric} {trig : LaTrigger}
    (written : s.fpgaSetTriggerPre fabric trig = some s') : s'.tape = s.tape := by
  unfold fpgaSetTriggerPre at written
  repeat' split at written
  · cases written
  · cases written
    rfl
  · cases written

theorem tape_captureTriggerBegin (s : Pod) (fabric : Fabric) (json : List Byte) (allowPre : Bool) :
    (s.captureTriggerBegin fabric json allowPre).1.tape = s.tape := by
  unfold captureTriggerBegin
  dsimp only
  repeat' split
  all_goals first
    | rfl
    | (rename_i written; exact (tape_fpgaSetTriggerPre written).trans rfl)

theorem tape_captureFailed (s : Pod) (pass : Pass) (conn : ConnId) : (s.captureFailed pass conn).tape = s.tape := by
  unfold captureFailed
  rw [tape_heavyRelease]
  exact tape_fpgaSetTriggerOff s pass.fabric

theorem tape_abortTriggerOf (s : Pod) (pass : Pass) (conn : ConnId) :
    (s.abortTriggerOf pass conn).tape = s.tape := tape_fpgaSetTriggerOff s pass.fabric

theorem tape_speaks {proto : Proto} (speaks : s.speaks conn proto = some s') : s'.tape = s.tape := by
  unfold Pod.speaks at speaks
  repeat' split at speaks
  · cases speaks
    rfl
  · cases speaks
    exact tape_connProtoSet s conn proto
  · cases speaks

theorem heavyBegin_isNone_of_speaks {proto : Proto} (speaks : s.speaks conn proto = some s')
    (holder : Holder) : (s'.heavyBegin holder).isNone = (s.heavyBegin holder).isNone := by
  have same (t : Pod) (proto : Proto) :
      ((t.connProtoSet conn proto).heavyBegin holder).isNone = (t.heavyBegin holder).isNone := by
    unfold connProtoSet
    split
    · unfold heavyBegin heavyTryClaim
      change Option.isNone (if t.heavyInFlight then none else if _ then none else some _) = _
      repeat' split
      all_goals rfl
    · rfl
  unfold Pod.speaks at speaks
  repeat' split at speaks
  · cases speaks
    rfl
  · cases speaks
    exact same s proto
  · cases speaks

theorem rests (serves : s.gate.Serves use) (apart : ∀ conn, holder = .conn conn → s.gate.upload ≠ some conn)
    (free : s.gate.FreeFor holder) : s.tape.v2cap = none ∧ s.tape.loadBin.conn = none := by
  have idle := serves.free free apart
  subst idle
  exact ⟨Option.map_eq_none_iff.mp serves.v2cap, serves.upload⟩

section Handlers

variable (conn) (json : List Byte) (answers : Answers)

theorem armTriggered_tape (s : Pod) (allowPre : Bool) (failed : List Byte) (start : LaTrigger → Pod → Pod) :
    ((s.armTriggered conn json answers allowPre failed start).2 ≠ .later ∧
        (s.armTriggered conn json answers allowPre failed start).1.tape = s.tape) ∨
      (s.armTriggered conn json answers allowPre failed start).2 = .later ∧
        s.gate.FreeFor (.conn conn) ∧
        ∃ trig u, u.tape = s.tape ∧ (s.armTriggered conn json answers allowPre failed start).1 = start trig u := by
  unfold armTriggered
  have tape := tape_captureTriggerBegin s answers.fabric json allowPre
  have gate := gate_captureTriggerBegin s answers.fabric json allowPre
  split
  · rename_i u text begun
    rw [begun] at tape
    exact .inl ⟨by simp, tape⟩
  · rename_i u trig begun
    rw [begun] at tape gate
    split
    · exact .inl ⟨by simp, (tape_captureTriggerCancel ..).trans tape⟩
    · rename_i v claimed
      have same := (tape_heavyBegin claimed).trans tape
      split
      · refine .inl ⟨by simp, ?_⟩
        rw [tape_captureTriggerCancel, tape_heavyRelease, same]
      · refine .inr ⟨rfl, gate ▸ (heavyBegin_some claimed).2, trig, _, ?_, rfl⟩
        exact (tape_captureTriggerArmed v _ conn trig).trans same

/-- What a JSON command that captures into the pool does to the tape. -/
def Captures (s : Pod) (conn : ConnId) (result : Pod × Reply) : Prop :=
  (result.2 ≠ .later ∧ result.1.tape = s.tape) ∨
    result.2 = .later ∧ s.gate.FreeFor (.conn conn) ∧ ∃ cap, result.1.tape = s.tape.capturing cap

theorem handleCapture_captures (s : Pod) : s.Captures conn (s.handleCapture conn json answers) := by
  unfold handleCapture
  dsimp only
  split
  · exact .inl ⟨by simp, rfl⟩
  · obtain same | ⟨later, free, trig, u, tape, start⟩ := armTriggered_tape conn json answers s false
      (Json.cstr "capture failed") (fun _ s => Pod.dacTraceNoteCapture
        { s with v2cap := some ⟨conn, sizeField json "samples" 16 256, false, wantsB64 json⟩ }
        (sizeField json "samples" 16 256))
    · exact .inl same
    · refine .inr ⟨later, free, ⟨conn, sizeField json "samples" 16 256, false, wantsB64 json⟩, ?_⟩
      rw [start, ← tape]
      rfl

theorem armPlain_captures (s : Pod) (samples : Nat) (stopDac : Bool) (failed : List Byte) :
    s.Captures conn (s.armPlain conn json answers samples stopDac failed) := by
  unfold armPlain
  split
  · exact .inl ⟨by simp, rfl⟩
  · rename_i u begun
    have tape := tape_heavyBegin begun
    split
    · exact .inl ⟨by simp, (tape_heavyRelease u _).trans tape⟩
    · refine .inr ⟨rfl, (heavyBegin_some begun).2, ⟨conn, samples, stopDac, wantsB64 json⟩, ?_⟩
      rw [← tape]
      rfl

theorem handleStream_captures (s : Pod) : s.Captures conn (s.handleStream conn json answers) := by
  unfold handleStream
  dsimp only
  split
  · exact .inl ⟨by simp, rfl⟩
  · exact armPlain_captures conn json answers s _ _ _

theorem handleMeasure_captures (s : Pod) : s.Captures conn (s.handleMeasure conn json answers) := by
  unfold handleMeasure
  dsimp only
  repeat' split
  all_goals first
    | exact .inl ⟨by simp, rfl⟩
    | exact armPlain_captures conn json answers s _ _ _

theorem handleCaptureDual_tape (s : Pod) : (s.handleCaptureDual conn json answers).1.tape = s.tape := by
  unfold handleCaptureDual
  dsimp only
  split
  · rfl
  · split
    · rfl
    · obtain ⟨-, same⟩ | ⟨-, -, trig, u, tape, start⟩ := armTriggered_tape conn json answers s false
        (Json.cstr "capture failed") (fun _ s => { s with dualcap := some _ })
      · exact same
      · rw [start]
        exact tape

theorem handleLaCapture_tape (s : Pod) : (s.handleLaCapture conn json answers).1.tape = s.tape := by
  unfold handleLaCapture
  dsimp only
  split
  · rfl
  · split
    · rfl
    · obtain ⟨-, same⟩ | ⟨-, -, trig, u, tape, start⟩ := armTriggered_tape conn json answers s true
        (Json.cstr "la capture failed") (fun trig s => { s with lacap := some _ })
      · exact same
      · rw [start]
        exact tape

theorem handleCaptureRead_tape (s : Pod) : (s.handleCaptureRead conn json answers).1.tape = s.tape := by
  unfold handleCaptureRead
  dsimp only
  split
  · rfl
  · split
    · rfl
    · split
      · rfl
      · split
        · rfl
        · rename_i u begun
          have tape := tape_heavyBegin begun
          split
          · exact (tape_heavyRelease u _).trans tape
          · exact tape

theorem readScratch_tape (s : Pod) (count : Nat) (failed : List Byte) :
    (s.readScratch conn answers count failed).1.tape = s.tape ∨
      ∃ data, (s.readScratch conn answers count failed).1.tape = s.tape.poured adcPoolTraceBytes data := by
  unfold readScratch
  split
  · exact .inl rfl
  · rename_i u begun
    rw [← tape_heavyBegin begun]
    refine .inr ⟨answers.bytes.read 0 count, ?_⟩
    dsimp only
    split
    · exact tape_heavyRelease _ _
    · rfl

theorem handleTest_tape (s : Pod) :
    ((s.handleTest conn json answers).2 ≠ .later ∧ (s.handleTest conn json answers).1.tape = s.tape) ∨
      (s.handleTest conn json answers).2 = .later ∧ s.gate.FreeFor (.conn conn) ∧
        ∃ data, (s.handleTest conn json answers).1.tape = s.tape.poured 0 data := by
  unfold handleTest
  dsimp only
  split
  · exact .inl ⟨by simp, rfl⟩
  · generalize testPattern _ _ _ _ = pattern
    split
    · exact .inl ⟨by simp, rfl⟩
    · rename_i u begun
      have tape := tape_heavyBegin begun
      cases pattern with
      | none => exact .inl ⟨by simp, (tape_heavyRelease u _).trans tape⟩
      | some data =>
        rw [← tape]
        exact .inr ⟨rfl, (heavyBegin_some begun).2, data, rfl⟩

theorem loadChunk_tape (s : Pod) (offset : Nat) (text : List Byte) :
    ((s.loadChunk conn answers offset text).2 ≠ .ok ∧
        (s.loadChunk conn answers offset text).2 ≠ .error (Json.cstr "invalid data") ∧
        (s.loadChunk conn answers offset text).1.tape = s.tape) ∨
      ((s.loadChunk conn answers offset text).2 = .error (Json.cstr "invalid data") ∧
        (s.loadChunk conn answers offset text).1.tape =
          s.tape.poured offset (B64url.decode text (replayCap - offset)).1) ∨
      ((s.loadChunk conn answers offset text).2 = .ok ∧
        (s.loadChunk conn answers offset text).1.tape =
          s.tape.loaded offset (B64url.decode text (replayCap - offset)).1) := by
  unfold loadChunk
  split
  · exact .inl ⟨by simp, by simp only [ne_eq, Reply.error.injEq]; decide, rfl⟩
  · split
    · exact .inl ⟨by simp, by simp only [ne_eq, Reply.error.injEq]; decide, rfl⟩
    · dsimp only
      split
      · exact .inr (.inl ⟨rfl, rfl⟩)
      · exact .inr (.inr ⟨rfl, rfl⟩)

/-- A chunk that gets to the pool was sent by who holds the gate, with no capture in flight; the
first one drops the JSON trace. -/
theorem handleLoad_tape (s : Pod) :
    ((s.handleLoad conn json answers).2 ≠ .ok ∧
        (s.handleLoad conn json answers).2 ≠ .error (Json.cstr "invalid data") ∧
        (s.handleLoad conn json answers).1.tape = s.tape) ∨
      s.gate.FreeFor (.conn conn) ∧ ∃ q, q = (if loadOffset json = 0 then { s.tape with replayLen := 0 } else s.tape) ∧
          (((s.handleLoad conn json answers).2 ≠ .ok ∧
              (s.handleLoad conn json answers).2 ≠ .error (Json.cstr "invalid data") ∧
              (s.handleLoad conn json answers).1.tape = q) ∨
            ((s.handleLoad conn json answers).2 = .error (Json.cstr "invalid data") ∧
              (s.handleLoad conn json answers).1.tape = q.poured (loadOffset json) (loadDecoded json)) ∨
            ((s.handleLoad conn json answers).2 = .ok ∧
              (s.handleLoad conn json answers).1.tape = q.loaded (loadOffset json) (loadDecoded json))) := by
  unfold handleLoad
  dsimp only
  split
  · exact .inl ⟨by simp, by simp only [ne_eq, Reply.error.injEq]; decide, rfl⟩
  · rename_i text found
    have decoded : loadDecoded json = (B64url.decode text (replayCap - loadOffset json)).1 := by
      rw [loadDecoded, found]
      rfl
    change _ ∨ _ ∧ ∃ q, q = _ ∧ _
    split
    · exact .inl ⟨by simp, by simp, rfl⟩
    · rename_i quiet
      simp only [heavyInFlight, Bool.or_eq_true, not_or, Bool.not_eq_true] at quiet
      split
      · rename_i first
        split
        · exact .inl ⟨by simp, by simp, rfl⟩
        · rename_i u claimed
          obtain ⟨rfl, owner⟩ := heavyTryClaim_some claimed
          refine .inr ⟨freeFor_of_idle quiet.1.1 owner, { s.tape with replayLen := 0 }, (if_pos first).symm, ?_⟩
          rw [decoded]
          exact loadChunk_tape conn answers _ _ text
      · rename_i later
        split
        · exact .inl ⟨by simp, by simp only [ne_eq, Reply.error.injEq]; decide, rfl⟩
        · rename_i owned
          refine .inr ⟨freeFor_of_idle quiet.1.1 (.inr (Decidable.not_not.mp owned)), s.tape, (if_neg later).symm, ?_⟩
          rw [decoded]
          exact loadChunk_tape conn answers s _ text

theorem handleLoadBin_tape (s : Pod) :
    ((s.handleLoadBin conn json answers).2 ≠ .ok ∧ (s.handleLoadBin conn json answers).1.tape = s.tape) ∨
      (s.handleLoadBin conn json answers).2 = .ok ∧ s.gate.FreeFor (.conn conn) ∧
        ∃ upload : LoadBin, upload.psram = asksPsram json ∧ upload.haveBytes = 0 ∧
          ((asksPsram json = true ∧ ∃ base, (s.handleLoadBin conn json answers).1.tape =
              { s.tape with
                loadBin := upload, replayLen := 0, replayInPsram := false, dacBase := base }) ∨
            (asksPsram json = false ∧ (s.handleLoadBin conn json answers).1.tape = { s.tape with
                poolGen := s.tape.taken, jsonTraceGen := s.tape.taken, loadBin := upload, replayLen := 0,
                replayInPsram := false })) := by
  unfold handleLoadBin
  split
  · exact .inl ⟨by simp, rfl⟩
  · split
    · exact .inl ⟨by simp, rfl⟩
    · rename_i text _
      dsimp only
      split
      · exact .inl ⟨by simp, rfl⟩
      · split
        · exact .inl ⟨by simp, rfl⟩
        · rename_i u begun
          have free := (heavyBegin_some begun).2
          rw [← tape_heavyBegin begun]
          let upload : LoadBin :=
            { conn := some conn, total := (Json.strtoul text).toNat, psram := asksPsram json,
              deadline := answers.now + loadBinTimeoutUs }
          refine .inr ⟨rfl, free, upload, rfl, rfl, ?_⟩
          rw [tape_connProtoSet]
          by_cases deep : asksPsram json = true
          · rw [loadBinPlace, if_pos deep]
            exact .inl ⟨deep, _, rfl⟩
          · rw [loadBinPlace, if_neg deep]
            exact .inr ⟨by simpa using deep, rfl⟩

end Handlers

theorem dropLostTrace_tape (s : Pod) :
    s.dropLostTrace.tape = s.tape ∨
      s.tape.replayInPsram = false ∧ s.tape.holds s.tape.jsonTraceGen = false ∧
        s.dropLostTrace.tape = { s.tape with replayLen := 0 } := by
  unfold dropLostTrace
  split
  · rename_i lost
    exact .inr ⟨lost.1, lost.2, rfl⟩
  · exact .inl rfl

theorem handleReplay_tape (s : Pod) (conn : ConnId) (json : List Byte) (answers : Answers) :
    (s.handleReplay conn json answers).1.tape = s.dropLostTrace.tape := by
  unfold handleReplay
  dsimp only
  split
  · rfl
  · split
    · rfl
    · split
      · rfl
      · rename_i u begun
        have tape := tape_heavyBegin begun
        rw [tape_heavyRelease]
        exact tape

theorem dropLostTrace_right (right : Right s.tape t) : Right s.dropLostTrace.tape t := by
  obtain same | ⟨ram, lost, same⟩ := dropLostTrace_tape s
  · exact right.congr same
  · refine (right.dropped ?_).congr same
    cases busy : s.tape.v2cap with
    | none => rfl
    | some cap => exact absurd ((right.v2cap cap busy).2.2.symm.trans lost) (by decide)

theorem captures_right (right : Right s.tape t) (serves : s.gate.Serves use)
    (apart : s.gate.upload ≠ some conn) {result : Pod × Reply} (captures : s.Captures conn result)
    (keeps : (result.2 ≠ .later || (!s.tape.replayInPsram && s.tape.fresh)) = true) :
    Right result.1.tape t := by
  obtain ⟨-, same⟩ | ⟨later, free, cap, tape⟩ := captures
  · exact right.congr same
  · obtain ⟨-, quiet⟩ := rests serves (fun other same => by cases same; exact apart) free
    simp only [later, ne_eq, not_true_eq_false, decide_false, Bool.false_or, Bool.and_eq_true, Bool.not_eq_true'] at keeps
    rw [tape]
    exact .capturing keeps.1 keeps.2 quiet cap

theorem handleTest_right (right : Right s.tape t) (serves : s.gate.Serves use)
    (apart : s.gate.upload ≠ some conn) {json : List Byte} {answers : Answers}
    (keeps : ((s.handleTest conn json answers).2 ≠ .later ||
      (!s.tape.jsonHeld && !s.tape.scpiHeld)) = true) :
    Right (s.handleTest conn json answers).1.tape t := by
  obtain ⟨-, same⟩ | ⟨later, free, data, tape⟩ := handleTest_tape conn json answers s
  · exact right.congr same
  · obtain ⟨idle, quiet⟩ := rests serves (fun other same => by cases same; exact apart) free
    simp only [later, ne_eq, not_true_eq_false, decide_false, Bool.false_or, Bool.and_eq_true, Bool.not_eq_true'] at keeps
    rw [tape]
    exact right.poured keeps.1 keeps.2 idle quiet 0 data

theorem handleLoad_right (right : Right s.tape t) (serves : s.gate.Serves use)
    (apart : s.gate.upload ≠ some conn) {json : List Byte} {answers : Answers}
    (keeps : keepsLoad s.tape t (some (s.handleLoad conn json answers).2) json = true) :
    Right (s.handleLoad conn json answers).1.tape
      (if (s.handleLoad conn json answers).2 = .ok then
        { t with json := t.json.take (loadOffset json) ++ loadDecoded json } else t) := by
  obtain ⟨refused, -, same⟩ | ⟨free, q, dropped, cases_⟩ := handleLoad_tape conn json answers s
  · rw [if_neg refused]
    exact right.congr same
  · obtain ⟨idle, quiet⟩ := rests serves (fun other same => by cases same; exact apart) free
    have kept : Right q t := by
      rw [dropped]
      split
      · exact right.dropped idle
      · exact right
    have idle_q : q.v2cap = none := by
      rw [dropped]
      split <;> exact idle
    have quiet_q : q.loadBin.conn = none := by
      rw [dropped]
      split <;> exact quiet
    unfold keepsLoad at keeps
    obtain ⟨refused, -, same⟩ | ⟨invalid, tape⟩ | ⟨ok, tape⟩ := cases_
    · rw [if_neg refused]
      exact kept.congr same
    · rw [if_neg (by rw [invalid]; simp), tape]
      simp only [invalid, ne_eq, Option.some.injEq, reduceCtorEq, not_false_eq_true, decide_true,
        Bool.true_or, Bool.true_and, not_true_eq_false, decide_false, Bool.false_or, Bool.or_eq_true,
        decide_eq_true_eq, Bool.and_eq_true, Bool.not_eq_true'] at keeps
      obtain nothing | ⟨scpi, json⟩ := keeps
      · rw [nothing]
        exact kept.congr (Right.poured_nil _)
      · have scpi_q : q.scpiHeld = false := by
          rw [dropped]
          split <;> exact scpi
        refine kept.poured ?_ scpi_q idle_q quiet_q _ _
        rw [dropped]
        obtain first | json := json
        · rw [if_pos first]
          simp [Tape.jsonHeld]
        · split
          · simp [Tape.jsonHeld]
          · exact json
    · rw [if_pos ok, tape]
      simp only [ok, ne_eq, not_true_eq_false, decide_false, Bool.false_or, Option.some.injEq,
        reduceCtorEq, not_false_eq_true, decide_true, Bool.true_or, Bool.and_true, Bool.and_eq_true,
        Bool.not_eq_true', Bool.or_eq_true, decide_eq_true_eq] at keeps
      obtain ⟨⟨ram, fresh⟩, continues⟩ := keeps
      have ram_q : q.replayInPsram = false := by
        rw [dropped]
        split <;> exact ram
      have fresh_q : q.fresh = true := by
        rw [dropped]
        split <;> exact fresh
      refine kept.loaded ram_q fresh_q idle_q quiet_q ?_
      by_cases first : loadOffset json = 0
      · exact .inl first
      · rw [dropped, if_neg first]
        exact .inr (continues.resolve_left first)

theorem handleLoadBin_right (right : Right s.tape t) (serves : s.gate.Serves use)
    (apart : s.gate.upload ≠ some conn) {json : List Byte} {answers : Answers}
    (keeps : ((s.handleLoadBin conn json answers).2 ≠ .ok || asksPsram json || s.tape.fresh) = true) :
    Right (s.handleLoadBin conn json answers).1.tape
      (if (s.handleLoadBin conn json answers).2 = .ok then { t with upload := [] } else t) := by
  obtain ⟨refused, same⟩ | ⟨ok, free, upload, psram, empty, begun⟩ := handleLoadBin_tape conn json answers s
  · rw [if_neg refused]
    exact right.congr same
  · obtain ⟨idle, -⟩ := rests serves (fun other same => by cases same; exact apart) free
    rw [if_pos ok]
    obtain ⟨deep, base, tape⟩ | ⟨shallow, tape⟩ := begun
    · rw [tape]
      exact right.begunPsram idle (psram.trans deep) empty
    · rw [tape]
      simp only [ok, ne_eq, not_true_eq_false, decide_false, Bool.false_or, shallow] at keeps
      exact .begun idle keeps (psram.trans shallow) empty

theorem readScratch_right (right : Right s.tape t) {answers : Answers} (count : Nat)
    (failed : List Byte) : Right (s.readScratch conn answers count failed).1.tape t := by
  obtain same | ⟨data, tape⟩ := readScratch_tape conn answers s count failed
  · exact right.congr same
  · rw [tape]
    exact right.scratch data

theorem handleSensorRegs_right (right : Right s.tape t) {json : List Byte} {answers : Answers} :
    Right (s.handleSensorRegs conn json answers).1.tape t := by
  unfold handleSensorRegs
  dsimp only
  repeat' split
  all_goals first
    | exact right
    | exact readScratch_right right _ _

theorem handleSensorLa_right (right : Right s.tape t) {json : List Byte} {answers : Answers} :
    Right (s.handleSensorLa conn json answers).1.tape t := by
  unfold handleSensorLa
  dsimp only
  split
  · exact right
  · exact readScratch_right right _ _

theorem scratchCommand_right (right : Right s.tape t) (data : List Byte) :
    Right (s.scratchCommand holder data).tape t := by
  unfold scratchCommand
  split
  · exact right
  · rename_i u begun
    rw [tape_heavyRelease]
    exact ((right.congr (tape_heavyBegin begun)).scratch data).congr rfl

theorem tape_released (s : Pod) (holder : Holder) (points : Nat) :
    Pod.tape { s.heavyRelease holder with scpiReplayBytes := points } = { s.tape with scpiReplayBytes := points } := by
  unfold heavyRelease
  split <;> rfl

theorem scpiCapture_tape (s : Pod) (conn : ConnId) (n : Nat) (bytes : Mem) (got : Option Nat) :
    ((s.scpiCapture conn n bytes got).2 ≠ .ok ∧ (s.scpiCapture conn n bytes got).1.tape = s.tape) ∨
      s.gate.FreeFor (.conn conn) ∧ (s.heavyBegin (.conn conn)).isSome = true ∧
        ¬(n = 0 ∨ signalBufSize < n) ∧
        ∃ count points, (s.scpiCapture conn n bytes got).1.tape =
            { s.tape with
              poolGen := s.tape.taken, scpiTraceGen := s.tape.taken,
              pool := s.tape.pool.write 0 (bytes.read 0 count), scpiReplayBytes := points } ∧
          (((s.scpiCapture conn n bytes got).2 ≠ .ok ∧ points = 0) ∨
            (s.scpiCapture conn n bytes got).2 = .ok ∧ count = 2 * n ∧ points = min n signalMaxSamples * 2) := by
  unfold scpiCapture
  split
  · exact .inl ⟨by simp, rfl⟩
  · rename_i range
    split
    · exact .inl ⟨by simp, rfl⟩
    · rename_i u begun
      refine .inr ⟨(heavyBegin_some begun).2, by simp [begun], range, ?_⟩
      rw [← tape_heavyBegin begun]
      cases got with
      | none => exact ⟨2 * n, _, tape_released _ _ _, .inr ⟨rfl, rfl, rfl⟩⟩
      | some got => exact ⟨min got (2 * n), _, tape_released _ _ _, .inl ⟨by simp, rfl⟩⟩

theorem scpiCapture_right (right : Right s.tape t) (serves : s.gate.Serves use)
    (apart : s.gate.upload ≠ some conn) {n : Nat} {got : Option Nat} {bytes : Mem}
    (keeps : (n = 0 || decide (signalBufSize < n) || (s.heavyBegin (.conn conn)).isNone ||
      s.tape.fresh) = true) :
    Right (s.scpiCapture conn n bytes got).1.tape
      (if (s.scpiCapture conn n bytes got).2 = .ok then
        { t with scpi := bytes.read 0 (min n signalMaxSamples * 2) } else t) := by
  obtain ⟨refused, same⟩ | ⟨free, begun, range, count, points, tape, kept⟩ := scpiCapture_tape s conn n bytes got
  · rw [if_neg refused]
    exact right.congr same
  · obtain ⟨idle, quiet⟩ := rests serves (fun other same => by cases same; exact apart) free
    have fresh : s.tape.fresh = true := by
      rw [not_or] at range
      simpa [range.1, range.2, Option.isNone_eq_false_iff.mpr begun] using keeps
    rw [tape]
    obtain ⟨failed, none_left⟩ | ⟨ok, all, some_left⟩ := kept
    · rw [if_neg failed]
      exact right.scpiCaptured fresh idle quiet fun some_left => absurd none_left some_left
    · rw [if_pos ok]
      refine right.scpiCaptured fresh idle quiet fun _ => ⟨by simp [some_left], ?_⟩
      rw [all]
      exact Mem.read_prefix 0 (by omega)

theorem scpiTraceData_tape (s : Pod) (conn : ConnId) (offset : Nat) (text : List Byte) :
    ((s.scpiTraceData conn offset text).2 ≠ .ok ∧
        (s.scpiTraceData conn offset text).1.tape = s.tape) ∨
      s.gate.FreeFor (.conn conn) ∧
        ∃ q, q = (if s.tape.holds s.tape.scpiTraceGen then s.tape
            else { s.tape with poolGen := s.tape.taken, scpiTraceGen := s.tape.taken }) ∧
          (((s.scpiTraceData conn offset text).2 = .error (Json.cstr "-224") ∧ (s.scpiTraceData conn offset text).1.tape =
                q.poured offset (B64url.decode text (signalBufSize - offset)).1) ∨
            (s.scpiTraceData conn offset text).2 = .ok ∧ (s.scpiTraceData conn offset text).1.tape =
                { q.poured offset (B64url.decode text (signalBufSize - offset)).1 with
                  scpiReplayBytes := offset + (B64url.decode text (signalBufSize - offset)).1.length }) := by
  unfold scpiTraceData
  split
  · exact .inl ⟨by simp, rfl⟩
  · split
    · exact .inl ⟨by simp, rfl⟩
    · rename_i u begun
      refine .inr ⟨(heavyBegin_some begun).2, _, rfl, ?_⟩
      rw [← tape_heavyBegin begun]
      dsimp only
      have held : (if u.adcPoolHolds u.scpiTraceGen then u
          else { u.adcPoolTake with scpiTraceGen := u.adcPoolTake.poolGen }).tape =
          if u.tape.holds u.tape.scpiTraceGen then u.tape
          else { u.tape with poolGen := u.tape.taken, scpiTraceGen := u.tape.taken } := by
        change Pod.tape (ite (u.adcPoolHolds u.scpiTraceGen = true) _ _) = ite (u.adcPoolHolds u.scpiTraceGen = true) _ _
        split <;> rfl
      rw [← held]
      split
      · exact .inl ⟨rfl, tape_heavyRelease _ _⟩
      · exact .inr ⟨rfl, tape_released _ _ _⟩

theorem scpiTraceData_right (right : Right s.tape t) (serves : s.gate.Serves use)
    (apart : s.gate.upload ≠ some conn) {offset : Nat} {text : List Byte}
    (keeps : keepsTraceData s.tape (some (s.scpiTraceData conn offset text).2) offset text = true) :
    Right (s.scpiTraceData conn offset text).1.tape
      (if (s.scpiTraceData conn offset text).2 = .ok then
        { t with scpi := t.scpi.take offset ++ (B64url.decode text (signalBufSize - offset)).1 }
      else t) := by
  obtain ⟨refused, same⟩ | ⟨free, q, took, cases_⟩ := scpiTraceData_tape s conn offset text
  · rw [if_neg refused]
    exact right.congr same
  · obtain ⟨idle, quiet⟩ := rests serves (fun other same => by cases same; exact apart) free
    unfold keepsTraceData at keeps
    dsimp only at keeps
    generalize (B64url.decode text (signalBufSize - offset)).1 = data at cases_ keeps ⊢
    obtain ⟨failed, tape⟩ | ⟨ok, tape⟩ := cases_
    · rw [if_neg (by rw [failed]; simp), tape]
      simp only [failed, ne_eq, Option.some.injEq, reduceCtorEq, not_false_eq_true, decide_true,
        Bool.true_or, Bool.true_and, not_true_eq_false, decide_false, Bool.false_or, Bool.and_eq_true,
        Bool.or_eq_true, decide_eq_true_eq] at keeps
      obtain ⟨ours, harmless⟩ := keeps
      by_cases mine : s.tape.holds s.tape.scpiTraceGen = true
      · rw [if_pos mine] at took
        subst took
        obtain empty | ⟨-, rfl⟩ := harmless
        · have lost : s.tape.jsonHeld = false := by
            cases held : s.tape.jsonHeld with
            | false => rfl
            | true =>
              have other := right.apart (Tape.jsonHeld_iff.mp held).2.2
              exact absurd (mine.symm.trans other) (by decide)
          exact right.poured lost (by simp [Tape.scpiHeld, empty]) idle quiet _ _
        · exact right.congr (Right.poured_nil _)
      · rw [if_neg mine] at took
        subst took
        have fresh := ours.resolve_left mine
        have empty := harmless.resolve_right fun both => mine both.1
        have other := (Tape.fresh_iff.mp fresh).1
        refine (right.scpiTook fresh idle quiet empty).poured ?_ ?_ idle quiet _ _
        · have lost : Tape.holds { s.tape with poolGen := s.tape.taken, scpiTraceGen := s.tape.taken }
              s.tape.jsonTraceGen = false := Tape.holds_of_ne other
          simp [Tape.jsonHeld, lost]
        · simp [Tape.scpiHeld, empty]
    · rw [if_pos ok, tape]
      simp only [ok, ne_eq, not_true_eq_false, decide_false, Bool.false_or, Option.some.injEq,
        reduceCtorEq, not_false_eq_true, decide_true, Bool.true_or, Bool.and_true, Bool.and_eq_true,
        Bool.or_eq_true, decide_eq_true_eq] at keeps
      obtain ⟨ours, continues⟩ := keeps
      by_cases mine : s.tape.holds s.tape.scpiTraceGen = true
      · rw [if_pos mine] at took
        subst took
        refine right.scpiLoaded idle quiet mine (continues.imp id ?_)
        rintro ⟨held, inside⟩
        exact ⟨held, (right.scpi held).1 ▸ inside⟩
      · rw [if_neg mine] at took
        subst took
        have first : offset = 0 := continues.resolve_right fun both => mine (Tape.scpiHeld_iff.mp both.1).2
        subst first
        rw [List.take_zero, List.nil_append, Nat.zero_add]
        exact right.scpiCaptured (ours.resolve_left mine) idle quiet fun _ => ⟨rfl, List.prefix_rfl⟩

theorem scpiReset_right (right : Right s.tape t) : Right s.scpiReset.tape t := by
  have none_held : Tape.holds s.scpiReset.tape 0 = false := by simp [Tape.holds]
  refine ⟨right.ram, right.psram, right.v2cap, fun _ => none_held, ?_, right.upload⟩
  intro held
  exact absurd rfl (Tape.scpiHeld_iff.mp held).1

/-- Bytes of an upload, stored and counted. -/
theorem loadBinStore_tape (s : Pod) (now : Nat) (data : List Byte) (written : Nat)
    (uploads : s.loadBin.conn.isSome = true)
    (through : s.loadBin.psram = true → (s.loadBin.taken data).length ≤ written) :
    ∃ upload : LoadBin, upload.total = s.loadBin.total ∧ upload.psram = s.loadBin.psram ∧
      upload.conn = s.loadBin.conn ∧
      upload.haveBytes = s.loadBin.haveBytes + (s.loadBin.taken data).length ∧
      (s.loadBinStore now data written).tape =
        { s.tape with
          pool := if s.loadBin.psram then s.pool
            else s.pool.write s.loadBin.haveBytes (s.loadBin.taken data)
          psram := if s.loadBin.psram then
              s.psram.write (s.dacBase + s.loadBin.haveBytes) (s.loadBin.taken data) else s.psram
          loadBin := upload } := by
  unfold loadBinStore
  dsimp only
  change ∃ upload : LoadBin, _ ∧ _ ∧ _ ∧ _ ∧ (ite (s.loadBin.taken data = []) _ _ : Pod).tape = _
  by_cases nothing : s.loadBin.taken data = []
  · rw [if_pos nothing]
    refine ⟨s.loadBin, rfl, rfl, rfl, by simp [nothing], ?_⟩
    rw [nothing, Mem.write_nil, Mem.write_nil, ite_self, ite_self]
    rfl
  · rw [if_neg nothing]
    let upload : LoadBin :=
      { s.loadBin with haveBytes := s.loadBin.haveBytes + (s.loadBin.taken data).length }
    let rearmed : LoadBin :=
      if loadBinStride ≤ upload.haveBytes - upload.rearmAt then
        { upload with deadline := now + loadBinTimeoutUs, rearmAt := upload.haveBytes }
      else upload
    have same : rearmed.total = upload.total ∧ rearmed.psram = upload.psram ∧
        rearmed.conn = upload.conn ∧ rearmed.haveBytes = upload.haveBytes := by
      unfold rearmed
      split <;> exact ⟨rfl, rfl, rfl, rfl⟩
    refine ⟨rearmed, same.1, same.2.1, same.2.2.1, same.2.2.2, ?_⟩
    by_cases deep : s.loadBin.psram = true
    · have all : (s.loadBin.taken data).take written = s.loadBin.taken data :=
        List.take_of_length_le (through deep)
      change Pod.tape { (ite (s.loadBin.psram = true)
        { s with psram := s.psram.write (s.dacBase + s.loadBin.haveBytes) ((s.loadBin.taken data).take written) }
        _ : Pod) with loadBin := rearmed } = _
      rw [if_pos deep, if_pos deep, if_pos deep, all]
      rfl
    · have owned : s.loadBin.conn ≠ none := by
        intro unowned
        rw [unowned] at uploads
        cases uploads
      change Pod.tape { (ite (s.loadBin.psram = true) _ (ite (s.loadBin.conn = none) s
        { s with pool := s.pool.write s.loadBin.haveBytes (s.loadBin.taken data) }) : Pod) with
          loadBin := rearmed } = _
      rw [if_neg deep, if_neg deep, if_neg deep, if_neg owned]
      rfl

theorem loadBinReceive_right (right : Right s.tape t) (idle : s.tape.v2cap = none)
    (uploads : s.loadBin.conn.isSome = true) {now : Nat} {data : List Byte} {written : Nat}
    (through : s.loadBin.psram = true → (s.loadBin.taken data).length ≤ written) :
    Right (s.loadBinReceive conn now data written).tape
      { t with
        upload := t.upload ++ s.loadBin.taken data
        json := if (t.upload ++ s.loadBin.taken data).length < s.loadBin.total then t.json
          else t.upload ++ s.loadBin.taken data } := by
  obtain ⟨upload, total, psram, owner, counted, tape⟩ := loadBinStore_tape s now data written uploads through
  have stored : Right (s.loadBinStore now data written).tape { t with upload := t.upload ++ s.loadBin.taken data } :=
    (right.received idle uploads data total psram counted).congr tape
  have busy : (s.loadBinStore now data written).tape.loadBin = upload := by rw [tape]
  have had := (right.upload uploads).2.2.1
  have length : (s.loadBinStore now data written).loadBin.haveBytes = (t.upload ++ s.loadBin.taken data).length := by
    change (s.loadBinStore now data written).tape.loadBin.haveBytes = _
    change s.loadBin.haveBytes = _ at had
    rw [busy, counted, had, List.length_append]
  have whole : (s.loadBinStore now data written).loadBin.total = s.loadBin.total := by
    change (s.loadBinStore now data written).tape.loadBin.total = _
    rw [busy, total]
  unfold loadBinReceive
  dsimp only
  rw [whole, length]
  split
  · exact stored
  · rename_i complete
    have idle_then : (s.loadBinStore now data written).tape.v2cap = none := by
      rw [tape]
      exact idle
    have uploads_then : (s.loadBinStore now data written).tape.loadBin.conn.isSome = true := by
      rw [busy, owner]
      exact uploads
    refine (stored.uploaded idle_then uploads_then ?_).congr ?_
    · change (s.loadBinStore now data written).loadBin.total ≤ (s.loadBinStore now data written).loadBin.haveBytes
      rw [whole, length]
      exact Nat.le_of_not_lt complete
    · unfold loadBinDone loadBinClear holdLoaded
      dsimp only
      unfold connProtoSet
      split <;> rfl

theorem pollLoadedHold_right (right : Right s.tape t) (now : Nat) : Right (s.pollLoadedHold now).tape t := by
  unfold pollLoadedHold
  split
  · exact right
  · split
    · exact right
    · dsimp only
      split
      · rename_i free
        have rested := free.2
        have idle : s.tape.v2cap = none := by
          simp only [heavyInFlight, captureBusy, Bool.or_eq_false_iff] at rested
          exact Option.isSome_eq_false_iff.mp rested.1.1.1.1.1.1 |> Option.isNone_iff_eq_none.mp
        split
        · exact right.congr (tape_heavyRelease _ _)
        · refine (right.dropped idle).congr ?_
          exact congrArg (fun p : Tape => { p with replayLen := 0 }) (tape_heavyRelease _ _)
      · exact right

theorem pollLoadBin_right (right : Right s.tape t) (now : Nat) : Right (s.pollLoadBin now).tape t := by
  unfold pollLoadBin
  split
  · exact right
  · split
    · exact right
    · refine right.cleared.congr ?_
      refine (congrArg (fun p : Tape => { p with loadBin := {} }) (tape_heavyRelease _ _)).trans ?_
      split
      · exact congrArg (fun p : Tape => { p with loadBin := {} }) (tape_connProtoSet _ _ _)
      · rfl

end Pod
end BenchPod.Capture
