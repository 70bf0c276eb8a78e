import BenchPod.Library.Emitter
import BenchPod.Ota.Outcome

/-!
# A verified image is the image that was asked for

Over every interleaving of calls, a session is only verified when the bytes that were staged at its
end have the digest of the last accepted begin.
-/

namespace BenchPod.Ota

/-- What the calls so far have told. -/
structure History where
  /-- The last accepted begin. -/
  begun : Option Request := none
  /-- The bytes staged when its end succeeded. -/
  checked : Option (List Byte) := none

def History.next (h : History) (s : Session) (call : Call) (rc : Int) : History :=
  if rc ≠ 0 then h
  else if call.isBegin then { begun := call.request s, checked := none }
  else if call.isEnd then { h with checked := some s.image }
  else h

/-- The session with its history. -/
def Session.recorded (board : Board) : Emitter (Session × History) (Answers × Call) Int where
  step entry event :=
    let (after, rc) := entry.1.call board event.1 event.2
    (after, entry.2.next entry.1 event.2 rc)
  emit entry event := some (entry.1.call board event.1 event.2).2

/-- The session's upload is the one of an admitted begin, and the bytes staged at its end are whole and
have its digest. -/
structure Vouched (board : Board) (s : Session) (request : Request) (image : List Byte) : Prop where
  admitted : request.Admitted board
  target : s.target = request.target
  size : s.size = request.size
  expect : s.expect = request.digest
  received : s.received = s.size
  whole : image.length = request.size.toNat
  digest : board.prims.sha256 image = request.digest

/-- What is received is what the last accepted begin asked for. -/
structure Tracked (board : Board) (s : Session) (h : History) : Prop where
  receiving : s.state = .receiving → ∃ request, h.begun = some request ∧ request.Admitted board ∧
    s.target = request.target ∧ s.size = request.size ∧ s.expect = request.digest ∧
    s.received ≤ s.size
  verified : s.state = .verified → ∃ request image, h.begun = some request ∧
    h.checked = some image ∧ Vouched board s request image

theorem History.next_quiet (h : History) (s : Session) {call : Call} {rc : Int}
    (quiet : call.Quiet rc) : h.next s call rc = h := by
  unfold next
  split
  · rfl
  · rename_i accepted
    rw [not_not] at accepted
    have none_of : ¬ (call.isBegin = true ∨ call.isEnd = true) := fun settles => quiet settles accepted
    rw [not_or] at none_of
    rw [if_neg none_of.1, if_neg none_of.2]

theorem Tracked.of_inactive {board : Board} {s : Session} {h : History}
    (inactive : s.active = false) : Tracked board s h := by
  refine ⟨fun receiving => ?_, fun verified => ?_⟩
  · simp [Session.active, receiving] at inactive
  · simp [Session.active, verified] at inactive

theorem Tracked.of_same {board : Board} {s s' : Session} {h : History} (tracked : Tracked board s h)
    (state : s'.state = s.state) (upload : s'.upload = s.upload) : Tracked board s' h := by
  simp only [Session.upload, Upload.mk.injEq] at upload
  obtain ⟨target, size, expect, received⟩ := upload
  refine ⟨fun receiving => ?_, fun verified => ?_⟩
  · rw [target, size, expect, received]
    exact tracked.receiving (state.symm.trans receiving)
  · obtain ⟨request, image, begun, checked, vouched⟩ := tracked.verified (state.symm.trans verified)
    refine ⟨request, image, begun, checked, vouched.admitted, ?_, ?_, ?_, ?_, vouched.whole, vouched.digest⟩
    · rw [target, vouched.target]
    · rw [size, vouched.size]
    · rw [expect, vouched.expect]
    · rw [received, size, vouched.received]

/-- Every call keeps the upload what the last accepted begin asked for. -/
theorem Tracked.call {board : Board} {s s' : Session} {h : History} {call : Call} {rc : Int}
    (tracked : Tracked board s h) (outcome : Outcome board s call s' rc) :
    Tracked board s' (h.next s call rc) := by
  cases outcome with
  | stays quiet state upload marks =>
    rw [h.next_quiet s quiet]
    exact tracked.of_same state upload
  | passed quiet inactive marks => exact .of_inactive inactive
  | begins request asked admitted accepted state upload marks =>
    have begun : (h.next s call rc).begun = some request := by
      rw [History.next, if_neg (not_not.mpr accepted), if_pos (Call.isBegin_of_request asked), asked]
    simp only [Session.upload, Upload.mk.injEq] at upload
    obtain ⟨target, size, expect, received⟩ := upload
    refine ⟨fun _ => ⟨request, begun, admitted, target, size, expect, ?_⟩, fun verified => ?_⟩
    · rw [received]
      exact BitVec.le_def.mpr (Nat.zero_le _)
    · rw [state] at verified
      cases verified
  | stages quiet before state upload within marks =>
    rw [h.next_quiet s quiet]
    simp only [Session.upload, Upload.mk.injEq] at upload
    obtain ⟨target, size, expect, _⟩ := upload
    obtain ⟨request, begun, admitted, target_eq, size_eq, expect_eq, bounded⟩ := tracked.receiving before
    refine ⟨fun _ => ⟨request, begun, admitted, target.trans target_eq, size.trans size_eq,
      expect.trans expect_eq, ?_⟩, fun verified => ?_⟩
    · rw [size]
      exact within bounded
    · rw [state] at verified
      cases verified
  | verifies ended accepted before state complete digest upload staged marks =>
    simp only [Session.upload, Upload.mk.injEq] at upload
    obtain ⟨target, size, expect, received⟩ := upload
    obtain ⟨request, begun, admitted, target_eq, size_eq, expect_eq, bounded⟩ := tracked.receiving before
    have no_begin : call.isBegin = false := Call.isBegin_of_isEnd ended
    have next_eq : h.next s call rc = { h with checked := some s.image } := by
      rw [History.next, if_neg (not_not.mpr accepted), if_neg (Bool.eq_false_iff.mp no_begin), if_pos ended]
    refine ⟨fun receiving => ?_, fun _ => ?_⟩
    · rw [state] at receiving
      cases receiving
    · rw [next_eq]
      refine ⟨request, s.image, begun, rfl, admitted, target.trans target_eq, size.trans size_eq,
        expect.trans expect_eq, ?_, ?_, ?_⟩
      · rw [received, size]
        exact BitVec.le_antisymm bounded complete
      · rw [Session.image, readStaged, List.length_map, List.length_range, size_eq]
      · rw [digest, expect_eq]

theorem Tracked.watchdog {board : Board} {s : Session} {h : History} (tracked : Tracked board s h)
    (now : Word) : Tracked board (s.otaWatchdog now) h := by
  obtain ⟨_, ⟨state, upload⟩ | inactive⟩ := s.watchdog_cases now
  · exact tracked.of_same state upload
  · exact .of_inactive inactive

theorem Tracked.step {board : Board} {entry : Session × History} (tracked : Tracked board entry.1 entry.2)
    (event : Answers × Call) :
    Tracked board ((Session.recorded board).step entry event).1 ((Session.recorded board).step entry event).2 := by
  obtain ⟨answers, call⟩ := event
  by_cases watchdog : ∃ now, call = .watchdog now
  · obtain ⟨now, rfl⟩ := watchdog
    have next_eq : entry.2.next entry.1 (.watchdog now) 0 = entry.2 :=
      entry.2.next_quiet entry.1 (Call.quiet_of rfl rfl 0)
    change Tracked board (entry.1.otaWatchdog now) (entry.2.next entry.1 (.watchdog now) 0)
    rw [next_eq]
    exact tracked.watchdog now
  · exact tracked.call (entry.1.call_outcome board answers call fun now eq => watchdog ⟨now, eq⟩)

/-- A call that carries a chunk. -/
def Call.isData : Call → Bool
  | .dataBy .. | .data .. => true
  | _ => false

theorem otaData_staged {s : Session} (verified : s.state = .verified) (answers : Answers)
    (offset : Word) (bytes : List Byte) : (s.otaData answers offset bytes).1.staged = s.staged := by
  have passed : s.state ≠ .receiving := by
    rw [verified]
    decide
  rw [Session.otaData, if_pos passed]
  rfl

theorem verified_staged (board : Board) {s : Session} (verified : s.state = .verified)
    (answers : Answers) {call : Call} (changes : call.isData = true ∨ call.isBegin = true) :
    (s.call board answers call).1.staged = s.staged := by
  cases call with
  | data offset bytes => exact otaData_staged verified answers offset bytes
  | dataBy who offset bytes =>
    simp only [Session.call, Session.otaDataBy, Session.busyFor]
    by_cases acts : s.mayAct who = true
    · rw [if_pos acts]
      obtain ⟨owner, orphan, adopted⟩ := s.adopt_eq who
      rw [adopted]
      have adopted_verified : ({ s with owner, orphan } : Session).state = .verified := verified
      exact otaData_staged adopted_verified answers offset bytes
    · rw [if_neg acts]
      exact (s.refuse_cases who s.busyMsg false).1
  | beginOwned who size hex target version sig =>
    simp only [Session.call, Session.beginOwned, Session.busyReplaceFor]
    by_cases replaces : s.mayReplace who = true
    · rw [if_pos replaces]
      obtain ⟨refOwner, refErr, cleared⟩ := s.clearRefusal_eq who
      rw [cleared]
      exact (Session.beginSigned_cases board _ size hex target version sig who).1
    · rw [if_neg replaces]
      exact (s.refuse_cases who s.busyMsg true).1
  | _ => simp [Call.isData, Call.isBegin] at changes

theorem verified_upload (board : Board) {s : Session} (verified : s.state = .verified)
    (answers : Answers) {call : Call} (changes : call.isData = true ∨ call.isBegin = true)
    (still : (s.call board answers call).1.state = .verified) :
    (s.call board answers call).1.upload = s.upload := by
  have other : ∀ now, call ≠ .watchdog now := by
    rintro now rfl
    simp [Call.isData, Call.isBegin] at changes
  cases s.call_outcome board answers call other with
  | stays _ _ upload _ => exact upload
  | passed _ inactive _ => simp [Session.active, still] at inactive
  | begins _ _ _ _ state _ _ => cases state.symm.trans still
  | stages _ _ state _ _ _ => cases state.symm.trans still
  | verifies _ _ before _ _ _ _ _ _ => cases before.symm.trans verified

/-- Whatever calls come, a verified session has a whole image that had the digest of the last accepted
begin when its end ran, and no chunk or begin changes the staged bytes or the upload while it stays
verified. -/
theorem verified_sound (board : Board) (staged : Nat → Byte) (policy : FwSigPolicy)
    (calls : List (Answers × Call)) :
    let entry := (Session.recorded board).run ({ staged, policy }, {}) calls
    entry.1.state = .verified →
      (∃ request image, entry.2.begun = some request ∧ entry.2.checked = some image ∧
        Vouched board entry.1 request image) ∧
      ∀ answers (call : Call), call.isData = true ∨ call.isBegin = true →
        (entry.1.call board answers call).1.staged = entry.1.staged ∧
        ((entry.1.call board answers call).1.state = .verified →
          (entry.1.call board answers call).1.upload = entry.1.upload) := by
  intro entry verified
  have tracked : Tracked board entry.1 entry.2 := by
    refine ((Session.recorded board).along_true _ calls).invariant _
      (fun entry => Tracked board entry.1 entry.2) (fun tracked _ => tracked.step _) ?_
    exact .of_inactive rfl
  refine ⟨tracked.verified verified, fun answers call changes => ⟨?_, ?_⟩⟩
  · exact verified_staged board verified answers changes
  · exact verified_upload board verified answers changes

theorem verified_sound_sample :
    let calls : List (Answers × Call) :=
      [({}, sampleBegin .cloud), ({}, .data 0 [0, 0]), ({}, .data 2 [0, 0]), ({}, .endBy .cloud)]
    let entry := (Session.recorded sampleBoard).run ({}, {}) calls
    entry.1.state = .verified ∧
      ∃ request image, entry.2.begun = some request ∧ entry.2.checked = some image ∧
        Vouched sampleBoard entry.1 request image := by
  intro calls entry
  have verified : entry.1.state = .verified := by decide +kernel
  exact ⟨verified, (verified_sound sampleBoard (fun _ => 0) .audit calls verified).1⟩

end BenchPod.Ota
