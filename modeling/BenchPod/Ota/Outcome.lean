import BenchPod.Ota.Session

/-!
# What a call does to a session

Every call leaves the upload alone, ends it, begins one, stages a chunk of it or finds it complete.
The results on sessions follow from this list.
-/

namespace BenchPod.Ota

/-- What is being received. -/
structure Upload where
  target : Target
  size : Word
  expect : List Byte
  received : Word
  deriving DecidableEq

/-- What the watchdog remembers. -/
structure Marks where
  wdSeen : Word
  wdMark : Word
  verifiedMark : Word
  deriving DecidableEq

namespace Session

def upload (s : Session) : Upload where
  target := s.target
  size := s.size
  expect := s.expect
  received := s.received

def marks (s : Session) : Marks where
  wdSeen := s.wdSeen
  wdMark := s.wdMark
  verifiedMark := s.verifiedMark

/-- The staged image. -/
def image (s : Session) : List Byte := readStaged s.staged 0 s.size.toNat

end Session

/-- What a begin asks for, under the policy in force. -/
structure Request where
  target : Target
  size : Word
  digest : List Byte
  sig : Option (List Byte)
  policy : FwSigPolicy

/-- A request whose target, size and signature are accepted. -/
structure Request.Admitted (board : Board) (request : Request) : Prop where
  known : board.targetKnown request.target = true
  size_ne : request.size ≠ 0
  size_le : request.size ≤ board.targetMaxSize request.target
  signed : request.target.isConfig = true ∨
    let result := fwSignCheckKeys board.prims request.sig request.target.code request.size
      request.digest board.keys
    if request.target = .bridge then result = .ok else fwSignAccept result request.policy = true

def Call.request (s : Session) : Call → Option Request
  | .beginOwned _ size hex target _ sig => do
      let target ← target
      let digest ← parseSha256Hex hex
      some { target, size, digest, sig, policy := s.policy }
  | _ => none

/-- A call that ends a session's upload. -/
def Call.isEnd : Call → Bool
  | .endBy _ | .finish => true
  | _ => false

def Call.isBegin : Call → Bool
  | .beginOwned .. => true
  | _ => false

/-- A begin or an end that is refused, or another call. -/
def Call.Quiet (call : Call) (rc : Int) : Prop := call.isBegin = true ∨ call.isEnd = true → rc ≠ 0

theorem Call.isBegin_of_request {call : Call} {s : Session} {request : Request}
    (asked : call.request s = some request) : call.isBegin = true := by
  cases call with
  | beginOwned => rfl
  | _ => cases asked

theorem Call.isBegin_of_isEnd {call : Call} (ended : call.isEnd = true) : call.isBegin = false := by
  cases call with
  | beginOwned => cases ended
  | _ => rfl

theorem Call.refused (call : Call) : call.Quiet (-1) := fun _ => by decide

theorem Call.quiet_of {call : Call} (no_begin : call.isBegin = false) (no_end : call.isEnd = false)
    (rc : Int) : call.Quiet rc := by
  rintro (begins | ends)
  · exact absurd begins (no_begin ▸ Bool.false_ne_true)
  · exact absurd ends (no_end ▸ Bool.false_ne_true)

/-- What a call other than the watchdog's does to a session, with what it returns. -/
inductive Outcome (board : Board) (s : Session) (call : Call) (s' : Session) (rc : Int) : Prop where
  /-- The upload stays as it is. -/
  | stays (quiet : call.Quiet rc) (state : s'.state = s.state) (upload : s'.upload = s.upload) (marks : s'.marks = s.marks)
  /-- No upload is left. -/
  | passed (quiet : call.Quiet rc) (inactive : s'.active = false) (marks : s'.marks = s.marks)
  | begins (request : Request) (asked : call.request s = some request)
      (admitted : request.Admitted board) (accepted : rc = 0) (state : s'.state = .receiving)
      (upload : s'.upload = { target := request.target, size := request.size
                              expect := request.digest, received := 0 })
      (marks : s'.marks = { wdSeen := 0, wdMark := 0, verifiedMark := 0 })
  /-- A chunk is staged. -/
  | stages (quiet : call.Quiet rc) (before : s.state = .receiving) (state : s'.state = .receiving)
      (upload : s'.upload = { s.upload with received := s'.received })
      (within : s.received ≤ s.size → s'.received ≤ s.size) (marks : s'.marks = s.marks)
  /-- The staged image is complete and has the expected digest. -/
  | verifies (ended : call.isEnd = true) (accepted : rc = 0) (before : s.state = .receiving)
      (state : s'.state = .verified) (complete : s.size ≤ s.received) (digest : board.prims.sha256 s.image = s.expect)
      (upload : s'.upload = s.upload) (staged : s'.staged = s.staged) (marks : s'.marks = s.marks)

namespace Session

variable (board : Board) (s : Session) (answers : Answers)

theorem adopt_eq (who : Owner) : ∃ owner orphan, s.adopt who = { s with owner, orphan } := by
  unfold adopt
  simp only
  split
  · split
    · exact ⟨who, false, rfl⟩
    · exact ⟨who, s.orphan, rfl⟩
  · split
    · exact ⟨s.owner, false, rfl⟩
    · exact ⟨s.owner, s.orphan, rfl⟩

theorem clearRefusal_eq (who : Owner) : ∃ refOwner refErr, s.clearRefusal who = { s with refOwner, refErr } := by
  unfold clearRefusal
  split
  · exact ⟨.none, "", rfl⟩
  · exact ⟨s.refOwner, s.refErr, rfl⟩

theorem refuse_cases (who : Owner) (why : String) (fresh : Bool) :
    (s.refuse who why fresh).staged = s.staged ∧ (s.refuse who why fresh).marks = s.marks ∧
      (((s.refuse who why fresh).state = s.state ∧ (s.refuse who why fresh).upload = s.upload) ∨
        (s.refuse who why fresh).active = false) := by
  unfold refuse
  simp only
  split
  · obtain ⟨refOwner, refErr, cleared⟩ := s.clearRefusal_eq who
    rw [cleared]
    refine ⟨?_, ?_, .inr rfl⟩
    · cases fresh <;> rfl
    · cases fresh <;> rfl
  · split
    · exact ⟨rfl, rfl, .inl ⟨rfl, rfl⟩⟩
    · exact ⟨rfl, rfl, .inl ⟨rfl, rfl⟩⟩

theorem checkSignature_cases (sig : Option (List Byte)) (expect : List Byte) :
    let checked := s.checkSignature board sig expect
    let result := fwSignCheckKeys board.prims sig s.target.code s.size expect board.keys
    checked.1.staged = s.staged ∧ checked.1.marks = s.marks ∧ checked.1.target = s.target ∧ ((checked.2 = 0 ∧
          if s.target = .bridge then result = .ok else fwSignAccept result s.policy = true) ∨
        (checked.2 = -1 ∧ checked.1.active = false)) := by
  intro checked result
  simp only [checked, checkSignature]
  split
  · split
    · rename_i ok
      exact ⟨rfl, rfl, rfl, .inl ⟨rfl, ok⟩⟩
    · exact ⟨rfl, rfl, rfl, .inr ⟨rfl, rfl⟩⟩
  · split
    · rename_i accepted
      exact ⟨rfl, rfl, rfl, .inl ⟨rfl, accepted⟩⟩
    · exact ⟨rfl, rfl, rfl, .inr ⟨rfl, rfl⟩⟩

/-- A begin accepts an admitted request, or fails. -/
theorem beginSigned_cases (size : Word) (hex : Option String) (target : Option Target)
    (version : Word) (sig : Option (List Byte)) (who : Owner) :
    let after := s.beginSigned board size hex target version sig
    after.1.staged = s.staged ∧ ((after.2 = 0 ∧ ∃ request,
        (Call.beginOwned who size hex target version sig).request s = some request ∧
          request.Admitted board ∧ after.1.state = .receiving ∧
          after.1.upload = { target := request.target, size := request.size
                             expect := request.digest, received := 0 } ∧
          after.1.marks = { wdSeen := 0, wdMark := 0, verifiedMark := 0 }) ∨
        (after.2 = -1 ∧ after.1.active = false ∧ after.1.marks = s.marks)) := by
  intro after
  simp only [after, beginSigned]
  cases filtered : target.filter board.targetKnown with
  | none => exact ⟨rfl, .inr ⟨rfl, rfl, rfl⟩⟩
  | some wanted =>
    obtain ⟨rfl, known⟩ := Option.filter_eq_some_iff.mp filtered
    simp only
    split
    · exact ⟨rfl, .inr ⟨rfl, rfl, rfl⟩⟩
    · rename_i sized
      rw [not_or, gt_iff_lt, BitVec.not_lt] at sized
      cases parsed : parseSha256Hex hex with
      | none => exact ⟨rfl, .inr ⟨rfl, rfl, rfl⟩⟩
      | some digest =>
        have asked : (Call.beginOwned who size hex (some wanted) version sig).request s =
            some { target := wanted, size, digest, sig, policy := s.policy } := by
          simp [Call.request, parsed]
        simp only
        by_cases config : wanted.isConfig = true
        · rw [if_pos config]
          refine ⟨rfl, .inl ⟨rfl, _, asked, ⟨known, sized.1, sized.2, .inl config⟩, rfl, rfl, rfl⟩⟩
        · rw [if_neg config]
          obtain ⟨staged, marks, target_eq, accepted | refused⟩ :=
            checkSignature_cases board { s with sig := .none, sigKey := [], target := wanted, version, size } sig digest
          · obtain ⟨rc, signed⟩ := accepted
            rw [rc, if_neg (not_not.mpr rfl)]
            refine ⟨staged, .inl ⟨rfl, _, asked, ⟨known, sized.1, sized.2, .inr signed⟩, rfl, ?_, rfl⟩⟩
            simp only [upload, target_eq]
          · obtain ⟨rc, inactive⟩ := refused
            rw [rc, if_pos (by decide)]
            exact ⟨staged, .inr ⟨rfl, inactive, marks⟩⟩

theorem readImage_eq {image : List Byte} (read : s.readImage answers = some image) : image = s.image := by
  refine foldlM_strides_some _ otaChunk (by decide) _ _ _
    (fun pos acc => acc = readStaged s.staged 0 pos) rfl ?_ read
  intro pos acc next below _ good chunk
  split at chunk
  · cases chunk
    rw [good, readStaged, readStaged, readStaged]
    have total : min s.size.toNat (pos + otaChunk) = pos + min otaChunk (s.size.toNat - pos) := by omega
    rw [total, List.range_add, List.map_append, List.map_map]
    simp only [Nat.zero_add]
    rfl
  · cases chunk

theorem stagedHashCheck_cases :
    s.stagedHashCheck board answers = (s.setErr "psram read failed", -1) ∨
      s.stagedHashCheck board answers = (s, 1) ∨
      (s.stagedHashCheck board answers = (s, 0) ∧ board.prims.sha256 s.image = s.expect) := by
  unfold stagedHashCheck
  cases read : s.readImage answers with
  | none => exact .inl rfl
  | some image =>
    by_cases equal : board.prims.sha256 image = s.expect
    · refine .inr (.inr ⟨if_pos equal, ?_⟩)
      rwa [readImage_eq s answers read] at equal
    · exact .inr (.inl (if_neg equal))

theorem stagedFitsThisFlash_cases :
    s.stagedFitsThisFlash board answers = (s, 0) ∨ ∃ text, s.stagedFitsThisFlash board answers = (s.setErr text, -1) := by
  unfold stagedFitsThisFlash
  simp only
  split
  · exact .inr ⟨_, rfl⟩
  · split
    · exact .inr ⟨_, rfl⟩
    · exact .inl rfl

theorem stagedKeepsEnforcement_cases :
    s.stagedKeepsEnforcement answers = (s, 0) ∨ ∃ text, s.stagedKeepsEnforcement answers = (s.setErr text, -1) := by
  unfold stagedKeepsEnforcement
  split
  · exact .inl rfl
  · split
    · exact .inr ⟨_, rfl⟩
    · split
      · exact .inl rfl
      · exact .inr ⟨_, rfl⟩

/-- An end finds a complete image with its digest, or fails the session. -/
theorem otaEnd_cases : (s.otaEnd board answers = ({ s with state := .verified }, 0) ∧ s.state = .receiving ∧
        s.size ≤ s.received ∧ board.prims.sha256 s.image = s.expect) ∨
      ∃ text, s.otaEnd board answers = (s.setErr text, -1) := by
  unfold otaEnd
  by_cases receiving : s.state = .receiving
  · rw [if_neg (not_not.mpr receiving)]
    by_cases complete : s.received < s.size
    · exact .inr ⟨_, if_pos complete⟩
    · rw [if_neg complete]
      obtain hashed | hashed | ⟨hashed, digest⟩ := s.stagedHashCheck_cases board answers
      · rw [hashed]
        exact .inr ⟨_, rfl⟩
      · rw [hashed]
        exact .inr ⟨_, rfl⟩
      · rw [hashed]
        have fits : (if s.target = .firmware then s.stagedFitsThisFlash board answers
            else (s, 0)) = (s, 0) ∨
            ∃ text, (if s.target = .firmware then s.stagedFitsThisFlash board answers
              else (s, 0)) = (s.setErr text, -1) := by
          split
          · exact s.stagedFitsThisFlash_cases board answers
          · exact .inl rfl
        have kept : (if s.target = .firmware then s.stagedKeepsEnforcement answers
            else (s, 0)) = (s, 0) ∨
            ∃ text, (if s.target = .firmware then s.stagedKeepsEnforcement answers
              else (s, 0)) = (s.setErr text, -1) := by
          split
          · exact s.stagedKeepsEnforcement_cases answers
          · exact .inl rfl
        obtain fits | ⟨text, fits⟩ := fits
        · obtain kept | ⟨text, kept⟩ := kept
          · simp only [fits, kept]
            cases invalid : (if s.target.isConfig = true then answers.invalid else none) with
            | none => exact .inl ⟨rfl, receiving, BitVec.not_lt.mp complete, digest⟩
            | some why => exact .inr ⟨_, rfl⟩
          · simp only [fits, kept]
            exact .inr ⟨_, rfl⟩
        · simp only [fits]
          exact .inr ⟨_, rfl⟩
  · exact .inr ⟨_, if_pos receiving⟩

theorem otaData_outcome (offset : Word) (bytes : List Byte) (call : Call) (rc : Int)
    (quiet : call.Quiet rc) : Outcome board s call (s.otaData answers offset bytes).1 rc := by
  unfold otaData
  split
  · exact .passed quiet rfl rfl
  · rename_i receiving
    have receiving : s.state = .receiving := not_not.mp receiving
    simp only
    split
    · exact .stays quiet rfl rfl rfl
    · split
      · exact .passed quiet rfl rfl
      · rename_i within
        rw [not_or, gt_iff_lt, gt_iff_lt, BitVec.not_lt, Nat.not_lt] at within
        split
        · exact .passed quiet rfl rfl
        · refine .stages quiet receiving receiving rfl ?_ rfl
          intro bounded
          simp only
          split
          · have top := s.size.isLt
            have below := BitVec.le_def.mp within.1
            have room := within.2
            rw [BitVec.toNat_sub_of_le within.1] at room
            rw [BitVec.le_def, BitVec.toNat_add, BitVec.toNat_ofNat]
            omega
          · exact bounded

theorem otaEnd_outcome (call : Call) (ended : call.isEnd = true) :
    Outcome board s call (s.otaEnd board answers).1 (s.otaEnd board answers).2 := by
  obtain ⟨eq, receiving, complete, digest⟩ | ⟨text, eq⟩ := s.otaEnd_cases board answers
  · rw [eq]
    exact .verifies ended rfl receiving rfl complete digest rfl rfl rfl
  · rw [eq]
    exact .passed call.refused rfl rfl

theorem refuse_outcome (who : Owner) (why : String) (fresh : Bool) (call : Call) (rc : Int)
    (quiet : call.Quiet rc) : Outcome board s call (s.refuse who why fresh) rc := by
  obtain ⟨_, marks, ⟨state, upload⟩ | inactive⟩ := s.refuse_cases who why fresh
  · exact .stays quiet state upload marks
  · exact .passed quiet inactive marks

theorem adopt_outcome (who : Owner) {call : Call} {s' : Session} {rc : Int}
    (unasked : ∀ s, call.request s = none)
    (outcome : Outcome board (s.adopt who) call s' rc) : Outcome board s call s' rc := by
  obtain ⟨owner, orphan, adopted⟩ := s.adopt_eq who
  rw [adopted] at outcome
  cases outcome with
  | stays quiet state upload marks => exact .stays quiet state upload marks
  | passed quiet inactive marks => exact .passed quiet inactive marks
  | begins request asked => cases (unasked _).symm.trans asked
  | stages quiet before state upload within marks => exact .stages quiet before state upload within marks
  | verifies ended accepted before state complete digest upload staged marks =>
    exact .verifies ended accepted before state complete digest upload staged marks

theorem otaDataBy_outcome (who : Owner) (offset : Word) (bytes : List Byte) (rc : Int) :
    Outcome board s (.dataBy who offset bytes) (s.otaDataBy answers who offset bytes).1 rc := by
  have quiet : (Call.dataBy who offset bytes).Quiet rc := Call.quiet_of rfl rfl rc
  unfold otaDataBy busyFor
  by_cases acts : s.mayAct who = true
  · rw [if_pos acts]
    exact adopt_outcome board s who (fun _ => rfl) (otaData_outcome board _ answers offset bytes _ rc quiet)
  · rw [if_neg acts]
    exact s.refuse_outcome board who s.busyMsg false _ rc quiet

theorem otaEndBy_outcome (who : Owner) :
    Outcome board s (.endBy who) (s.otaEndBy board answers who).1 (s.otaEndBy board answers who).2 := by
  unfold otaEndBy busyFor
  by_cases acts : s.mayAct who = true
  · rw [if_pos acts]
    refine adopt_outcome board s who (fun _ => rfl) ?_
    have outcome := (s.adopt who).otaEnd_outcome board answers (.endBy who) rfl
    cases outcome with
    | stays quiet state upload marks => exact .stays quiet state upload marks
    | passed quiet inactive marks => exact .passed quiet inactive marks
    | begins request asked => cases asked
    | stages quiet before state upload within marks => exact .stages quiet before state upload within marks
    | verifies ended accepted before state complete digest upload staged marks =>
      exact .verifies ended accepted before state complete digest upload staged marks
  · rw [if_neg acts]
    exact s.refuse_outcome board who s.busyMsg false _ _ (Call.refused _)

theorem beginOwned_outcome (who : Owner) (size : Word) (hex : Option String)
    (target : Option Target) (version : Word) (sig : Option (List Byte)) :
    Outcome board s (.beginOwned who size hex target version sig)
      (s.beginOwned board who size hex target version sig).1
      (s.beginOwned board who size hex target version sig).2 := by
  unfold beginOwned busyReplaceFor
  by_cases replaces : s.mayReplace who = true
  · rw [if_pos replaces]
    obtain ⟨refOwner, refErr, cleared⟩ := s.clearRefusal_eq who
    rw [cleared]
    obtain ⟨_, ⟨rc, request, asked, admitted, state, upload, marks⟩ | ⟨rc, inactive, marks⟩⟩ :=
      beginSigned_cases board { s with refOwner, refErr, owner := who, orphan := false } size hex target version sig who
    · exact .begins request asked admitted rc state upload marks
    · refine .passed (fun _ => ?_) inactive marks
      rw [rc]
      decide
  · rw [if_neg replaces]
    exact s.refuse_outcome board who s.busyMsg true _ _ (Call.refused _)

/-- What every call but the watchdog's does to a session. -/
theorem call_outcome (call : Call) (other : ∀ now, call ≠ .watchdog now) :
    Outcome board s call (s.call board answers call).1 (s.call board answers call).2 := by
  cases call with
  | beginOwned who size hex target version sig => exact s.beginOwned_outcome board who size hex target version sig
  | dataBy who offset bytes => exact s.otaDataBy_outcome board answers who offset bytes _
  | data offset bytes => exact s.otaData_outcome board answers offset bytes _ _ (Call.quiet_of rfl rfl _)
  | endBy who => exact s.otaEndBy_outcome board answers who
  | finish => exact s.otaEnd_outcome board answers _ rfl
  | busyFor who =>
    simp only [call, busyFor]
    split
    · obtain ⟨owner, orphan, adopted⟩ := s.adopt_eq who
      rw [adopted]
      exact .stays (Call.quiet_of rfl rfl _) rfl rfl rfl
    · exact .stays (Call.quiet_of rfl rfl _) rfl rfl rfl
  | abortBy who =>
    simp only [call, otaAbortBy]
    split
    · obtain ⟨refOwner, refErr, cleared⟩ := s.clearRefusal_eq who
      rw [cleared]
      exact .passed (Call.quiet_of rfl rfl _) rfl rfl
    · exact .stays (Call.quiet_of rfl rfl _) rfl rfl rfl
  | abort => exact .passed (Call.quiet_of rfl rfl _) rfl rfl
  | refuseFor who why => exact s.refuse_outcome board who why true _ _ (Call.quiet_of rfl rfl _)
  | ownerGone who =>
    simp only [call, otaOwnerGone]
    split
    · exact .stays (Call.quiet_of rfl rfl _) rfl rfl rfl
    · exact .stays (Call.quiet_of rfl rfl _) rfl rfl rfl
  | watchdog now => exact absurd rfl (other now)
  | reverifyHeld =>
    simp only [call, otaReverifyHeld]
    split
    · exact .stays (Call.quiet_of rfl rfl _) rfl rfl rfl
    · obtain hashed | hashed | ⟨hashed, _⟩ := s.stagedHashCheck_cases board answers
      · rw [hashed]
        exact .passed (Call.quiet_of rfl rfl _) rfl rfl
      · rw [hashed]
        exact .passed (Call.quiet_of rfl rfl _) rfl rfl
      · rw [hashed]
        exact .stays (Call.quiet_of rfl rfl _) rfl rfl rfl
  | installBlob =>
    simp only [call, otaInstallBlob]
    split
    · exact .passed (Call.quiet_of rfl rfl _) rfl rfl
    · split
      · exact .passed (Call.quiet_of rfl rfl _) rfl rfl
      · split
        · exact .passed (Call.quiet_of rfl rfl _) rfl rfl
        · exact .passed (Call.quiet_of rfl rfl _) rfl rfl
  | setPolicy policy => exact .stays (Call.quiet_of rfl rfl _) rfl rfl rfl
  | overwrite staged => exact .stays (Call.quiet_of rfl rfl _) rfl rfl rfl

theorem watchdog_cases (now : Word) :
    (s.otaWatchdog now).staged = s.staged ∧
      (((s.otaWatchdog now).state = s.state ∧ (s.otaWatchdog now).upload = s.upload) ∨
        (s.otaWatchdog now).active = false) := by
  unfold otaWatchdog
  simp only
  split
  · split
    · exact ⟨rfl, .inl ⟨rfl, rfl⟩⟩
    · split
      · exact ⟨rfl, .inl ⟨rfl, rfl⟩⟩
      · exact ⟨rfl, .inr rfl⟩
  · split
    · exact ⟨rfl, .inl ⟨rfl, rfl⟩⟩
    · split
      · exact ⟨rfl, .inl ⟨rfl, rfl⟩⟩
      · split
        · exact ⟨rfl, .inl ⟨rfl, rfl⟩⟩
        · exact ⟨rfl, .inr rfl⟩

end Session
end BenchPod.Ota
