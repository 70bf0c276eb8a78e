import BenchPod.Library.Recent
import BenchPod.Library.Emitter
import BenchPod.Ota.Outcome

/-!
# The watchdog's patience

The watchdog reads a clock of 32 bits that wraps.  It remembers when it last saw progress as a clock
value, and stands 1 in for 0, which means that nothing is remembered.  It ends a session too early
exactly when it is called twice in one millisecond at the clock value 0.
-/

namespace BenchPod.Ota

/-- A clock value as the watchdog remembers it. -/
def remembered (now : Word) : Word := if now = 0 then 1 else now

/-- What has been seen of a session, in real time. -/
structure Watch where
  /-- The time of the last watchdog call. -/
  time : Nat := 0
  /-- How much the last watchdog call that saw progress saw received, and when. -/
  seen : Option (Word × Nat) := none
  /-- When a watchdog call first saw the image verified. -/
  held : Option Nat := none

/-- A watchdog call at some time, or another call. -/
inductive Beat where
  | watchdog (time : Nat)
  | other (answers : Answers) (call : Call)

/-- A watchdog call sees progress when it is the first of a receiving session or finds more received
than the last one that did; the first that finds the image verified starts its hold. -/
def Watch.look (w : Watch) (s : Session) (time : Nat) : Watch where
  time
  seen :=
    if s.state = .receiving ∧ w.seen.map Prod.fst ≠ some s.received then some (s.received, time)
    else w.seen
  held := if s.state = .verified then some (w.held.getD time) else w.held

/-- An accepted begin starts anew. -/
def Watch.after (w : Watch) (call : Call) (rc : Int) : Watch :=
  if call.isBegin ∧ rc = 0 then { w with seen := none, held := none } else w

/-- The session under a clock, watched. -/
def Session.watched (board : Board) (start : Word) : Emitter (Session × Watch) Beat Int where
  step entry
    | .watchdog time => (entry.1.otaWatchdog (clockAt start time), entry.2.look entry.1 time)
    | .other answers call =>
      let (after, rc) := entry.1.call board answers call
      (after, entry.2.after call rc)
  emit entry
    | .watchdog _ => none
    | .other answers call => some (entry.1.call board answers call).2

/-- Time does not run backwards, and only the watchdog's own calls are its calls. -/
def Beat.Timely (entry : Session × Watch) : Beat → Prop
  | .watchdog time => entry.2.time ≤ time
  | .other _ call => ∀ now, call ≠ .watchdog now

/-- The watchdog ends a receiving session only after its idle time since progress was last seen, and a
verified image only after its hold time since it was first seen. -/
structure Patient (start : Word) (s : Session) (w : Watch) (time : Nat) : Prop where
  receiving : s.state = .receiving → (s.otaWatchdog (clockAt start time)).state ≠ .receiving →
    ∃ since, w.seen = some (s.received, since) ∧ since + stageIdleMs.toNat ≤ time
  verified : s.state = .verified → (s.otaWatchdog (clockAt start time)).state ≠ .verified →
    ∃ since, w.held = some since ∧ since + verifiedHoldMs.toNat ≤ time

/-- A watchdog call at the clock value 0, in the same millisecond as the one that saw progress last or
that first saw the image verified. -/
def Slips (start : Word) (s : Session) (w : Watch) (time : Nat) : Prop :=
  clockAt start time = 0 ∧
    (s.state = .receiving ∧ w.seen = some (s.received, time) ∨ s.state = .verified ∧ w.held = some time)

/-- What is remembered of a call in the past. -/
def Remembers (start : Word) (mark : Word) (now : Nat) : Option Nat → Prop
  | none => mark = 0
  | some since => mark = remembered (clockAt start since) ∧ since ≤ now

/-- The watchdog's marks are what it has seen. -/
structure Kept (start : Word) (s : Session) (w : Watch) : Prop where
  receiving : s.state = .receiving → s.verifiedMark = 0 ∧ w.held = none ∧
    Remembers start s.wdMark w.time (w.seen.map Prod.snd) ∧
    ∀ seen ∈ w.seen, s.wdSeen = seen.1
  verified : s.state = .verified → Remembers start s.verifiedMark w.time w.held

theorem remembered_ne (now : Word) : remembered now ≠ 0 := by
  unfold remembered
  split
  · decide
  · assumption

theorem elapsed_le {start : Word} {since time : Nat} (past : since ≤ time) {limit : Word}
    (elapsed : limit ≤ clockAt start time - remembered (clockAt start since)) :
    since + limit.toNat ≤ time ∨ clockAt start time = 0 ∧ since = time := by
  by_cases zero : clockAt start since = 0
  · have limit_lt := limit.isLt
    have now_eq := clockAt_toNat start time
    have then_eq := clockAt_toNat start since
    rw [remembered, if_pos zero, BitVec.le_def, BitVec.toNat_sub] at elapsed
    change limit.toNat ≤ (4294967296 - 1 + _) % 4294967296 at elapsed
    rw [zero] at then_eq
    have then_zero : (0 : Word).toNat = 0 := rfl
    by_cases now_zero : clockAt start time = 0
    · by_cases same : since = time
      · exact .inr ⟨now_zero, same⟩
      · rw [now_zero] at now_eq
        left
        omega
    · have now_ne : (clockAt start time).toNat ≠ 0 := fun eq => now_zero (BitVec.eq_of_toNat_eq eq)
      left
      omega
  · rw [remembered, if_neg zero] at elapsed
    exact .inl (clockAt_elapsed past elapsed)

theorem watchdog_receiving {s : Session} (receiving : s.state = .receiving) (now : Word) :
    (s.otaWatchdog now).state ≠ .receiving ↔ s.received = s.wdSeen ∧ s.wdMark ≠ 0 ∧ stageIdleMs ≤ now - s.wdMark := by
  have unverified : s.state ≠ .verified := by
    rw [receiving]
    decide
  simp only [Session.otaWatchdog]
  rw [if_neg unverified, if_neg (not_not.mpr receiving)]
  by_cases progress : s.received ≠ s.wdSeen ∨ s.wdMark = 0
  · rw [if_pos progress]
    simp only [receiving, ne_eq, not_true_eq_false, false_iff]
    rintro ⟨same, set, _⟩
    exact progress.elim (· same) set
  · rw [if_neg progress]
    rw [not_or, not_not] at progress
    split
    · rename_i early
      simp only [receiving, ne_eq, not_true_eq_false, false_iff]
      rintro ⟨_, _, late⟩
      exact BitVec.not_lt.mpr late early
    · rename_i late
      exact ⟨fun _ => ⟨progress.1, progress.2, BitVec.not_lt.mp late⟩, fun _ => by simp [Session.otaAbort]⟩

theorem watchdog_verified {s : Session} (verified : s.state = .verified) (now : Word) :
    (s.otaWatchdog now).state ≠ .verified ↔ s.verifiedMark ≠ 0 ∧ verifiedHoldMs ≤ now - s.verifiedMark := by
  simp only [Session.otaWatchdog]
  rw [if_pos verified]
  by_cases unset : s.verifiedMark = 0
  · rw [if_pos unset]
    simp [verified, unset]
  · rw [if_neg unset]
    split
    · rename_i early
      simp only [verified, ne_eq, not_true_eq_false, false_iff]
      rintro ⟨_, late⟩
      exact BitVec.not_lt.mpr late early
    · rename_i late
      exact ⟨fun _ => ⟨unset, BitVec.not_lt.mp late⟩, fun _ => by simp [Session.otaAbort]⟩

theorem Remembers.elapsed {start mark limit : Word} {before time : Nat} {since : Option Nat}
    (remembers : Remembers start mark before since) (past : before ≤ time) (set : mark ≠ 0)
    (late : limit ≤ clockAt start time - mark) :
    ∃ at_time, since = some at_time ∧ (at_time + limit.toNat ≤ time ∨ clockAt start time = 0 ∧ at_time = time) := by
  cases since with
  | none => exact absurd remembers set
  | some at_time =>
    obtain ⟨mark_eq, earlier⟩ := remembers
    rw [mark_eq] at late
    exact ⟨at_time, rfl, elapsed_le (Nat.le_trans earlier past) late⟩

theorem Remembers.slipped {start mark : Word} {before time : Nat}
    (remembers : Remembers start mark before (some time)) (zero : clockAt start time = 0) :
    mark ≠ 0 ∧ clockAt start time - mark = 0xffffffff := by
  obtain ⟨mark_eq, _⟩ := remembers
  rw [mark_eq, remembered, if_pos zero, zero]
  decide

/-- The watchdog is patient exactly when it does not slip. -/
theorem Kept.patient_iff {start : Word} {s : Session} {w : Watch} (kept : Kept start s w) {time : Nat}
    (later : w.time ≤ time) : Patient start s w time ↔ ¬ Slips start s w time := by
  constructor
  · rintro patient ⟨zero, ⟨receiving, seen⟩ | ⟨verified, held⟩⟩
    · obtain ⟨_, _, remembers, seen_eq⟩ := kept.receiving receiving
      rw [seen] at remembers
      obtain ⟨set, ages⟩ := remembers.slipped zero
      have ends : (s.otaWatchdog (clockAt start time)).state ≠ .receiving := by
        rw [watchdog_receiving receiving, ages]
        exact ⟨(seen_eq _ seen).symm, set, by decide⟩
      obtain ⟨since, seen_again, idle⟩ := patient.receiving receiving ends
      rw [seen] at seen_again
      cases seen_again
      exact absurd idle (Nat.not_le.mpr (Nat.lt_add_of_pos_right (by decide)))
    · have remembers := kept.verified verified
      rw [held] at remembers
      obtain ⟨set, ages⟩ := remembers.slipped zero
      have ends : (s.otaWatchdog (clockAt start time)).state ≠ .verified := by
        rw [watchdog_verified verified, ages]
        exact ⟨set, by decide⟩
      obtain ⟨since, held_again, hold⟩ := patient.verified verified ends
      rw [held] at held_again
      cases held_again
      exact absurd hold (Nat.not_le.mpr (Nat.lt_add_of_pos_right (by decide)))
  · intro steady
    refine ⟨fun receiving ends => ?_, fun verified ends => ?_⟩
    · obtain ⟨same, set, late⟩ := (watchdog_receiving receiving _).mp ends
      obtain ⟨_, _, remembers, seen_eq⟩ := kept.receiving receiving
      obtain ⟨since, mapped, past⟩ := remembers.elapsed later set late
      obtain ⟨⟨amount, _⟩, seen, rfl⟩ := Option.map_eq_some_iff.mp mapped
      have amount_eq : s.received = amount := same.trans (seen_eq _ seen)
      rw [← amount_eq] at seen
      obtain idle | ⟨zero, rfl⟩ := past
      · exact ⟨_, seen, idle⟩
      · exact absurd ⟨zero, .inl ⟨receiving, seen⟩⟩ steady
    · obtain ⟨set, late⟩ := (watchdog_verified verified _).mp ends
      obtain ⟨since, held, hold | ⟨zero, rfl⟩⟩ := (kept.verified verified).elapsed later set late
      · exact ⟨since, held, hold⟩
      · exact absurd ⟨zero, .inr ⟨verified, held⟩⟩ steady

theorem Remembers.later {start mark : Word} {before time : Nat} {since : Option Nat}
    (remembers : Remembers start mark before since) (past : before ≤ time) :
    Remembers start mark time since := by
  cases since with
  | none => exact remembers
  | some since => exact ⟨remembers.1, Nat.le_trans remembers.2 past⟩

theorem Remembers.eq_zero_iff {start mark : Word} {now : Nat} {since : Option Nat}
    (remembers : Remembers start mark now since) : mark = 0 ↔ since = none := by
  cases since with
  | none => exact iff_of_true remembers rfl
  | some since =>
    refine iff_of_false ?_ (Option.some_ne_none _)
    rw [remembers.1]
    exact remembered_ne _

theorem Kept.of_inactive {start : Word} {s : Session} {w : Watch} (inactive : s.active = false) :
    Kept start s w := by
  refine ⟨fun receiving => ?_, fun verified => ?_⟩
  · simp [Session.active, receiving] at inactive
  · simp [Session.active, verified] at inactive

theorem Kept.look_verified {start : Word} {s : Session} {w : Watch} (kept : Kept start s w)
    {time : Nat} (later : w.time ≤ time) (verified : s.state = .verified) :
    Kept start (s.otaWatchdog (clockAt start time)) (w.look s time) := by
  have remembers := (kept.verified verified).later later
  have held_eq : (w.look s time).held = some (w.held.getD time) := if_pos verified
  simp only [Session.otaWatchdog]
  rw [if_pos verified]
  by_cases unset : s.verifiedMark = 0
  · rw [if_pos unset]
    refine ⟨fun receiving => ?_, fun _ => ?_⟩
    · cases verified.symm.trans receiving
    · rw [held_eq, remembers.eq_zero_iff.mp unset]
      exact ⟨rfl, Nat.le_refl _⟩
  · rw [if_neg unset]
    split
    · refine ⟨fun receiving => ?_, fun _ => ?_⟩
      · cases verified.symm.trans receiving
      · obtain ⟨since, held⟩ := Option.ne_none_iff_exists'.mp (mt remembers.eq_zero_iff.mpr unset)
        rw [held] at remembers
        rw [held_eq, held]
        exact remembers
    · exact .of_inactive rfl

/-- A watchdog call remembers when it last sees progress. -/
theorem Kept.look_receiving {start : Word} {s : Session} {w : Watch} (kept : Kept start s w)
    {time : Nat} (later : w.time ≤ time) (receiving : s.state = .receiving) :
    Kept start (s.otaWatchdog (clockAt start time)) (w.look s time) := by
  obtain ⟨_, held, remembers, seen_eq⟩ := kept.receiving receiving
  have remembers := remembers.later later
  have unverified : s.state ≠ .verified := by
    rw [receiving]
    decide
  have held_eq : (w.look s time).held = none := (if_neg unverified).trans held
  have progress_iff : s.received ≠ s.wdSeen ∨ s.wdMark = 0 ↔
      s.state = .receiving ∧ w.seen.map Prod.fst ≠ some s.received := by
    rw [remembers.eq_zero_iff, and_iff_right receiving]
    cases seen : w.seen with
    | none => simp
    | some entry =>
      have same := seen_eq entry seen
      simp [same, eq_comm]
  simp only [Session.otaWatchdog]
  rw [if_neg unverified, if_neg (not_not.mpr receiving)]
  by_cases progress : s.received ≠ s.wdSeen ∨ s.wdMark = 0
  · have look_seen : (w.look s time).seen = some (s.received, time) :=
      if_pos (progress_iff.mp progress)
    rw [if_pos progress]
    refine ⟨fun _ => ⟨rfl, held_eq, ?_, ?_⟩, fun verified => absurd verified unverified⟩
    · rw [look_seen]
      exact ⟨rfl, Nat.le_refl _⟩
    · rw [look_seen]
      rintro entry ⟨⟩
      rfl
  · have look_seen : (w.look s time).seen = w.seen := if_neg (mt progress_iff.mpr progress)
    rw [if_neg progress]
    split
    · refine ⟨fun _ => ⟨rfl, held_eq, ?_, ?_⟩, fun verified => absurd verified unverified⟩
      · rw [look_seen]
        exact remembers
      · rw [look_seen]
        exact seen_eq
    · exact .of_inactive rfl

theorem Kept.look {start : Word} {s : Session} {w : Watch} (kept : Kept start s w) {time : Nat}
    (later : w.time ≤ time) :
    Kept start (s.otaWatchdog (clockAt start time)) (w.look s time) := by
  by_cases verified : s.state = .verified
  · exact kept.look_verified later verified
  · by_cases receiving : s.state = .receiving
    · exact kept.look_receiving later receiving
    · refine .of_inactive ?_
      simp only [Session.otaWatchdog]
      rw [if_neg verified, if_pos receiving]
      simp [Session.active, verified, receiving]

theorem Watch.after_quiet (w : Watch) {call : Call} {rc : Int}
    (no_begin : call.isBegin = true → rc ≠ 0) : w.after call rc = w := by
  refine if_neg ?_
  rintro ⟨begins, accepted⟩
  exact no_begin begins accepted

theorem Kept.of_same {start : Word} {s s' : Session} {w : Watch} (kept : Kept start s w)
    (state : s'.state = s.state) (marks : s'.marks = s.marks) : Kept start s' w := by
  simp only [Session.marks, Marks.mk.injEq] at marks
  obtain ⟨seen, mark, verified⟩ := marks
  constructor
  · rw [state, seen, mark, verified]
    exact kept.receiving
  · rw [state, verified]
    exact kept.verified

theorem Kept.call {board : Board} {start : Word} {s s' : Session} {w : Watch} {call : Call} {rc : Int}
    (kept : Kept start s w) (outcome : Outcome board s call s' rc) :
    Kept start s' (w.after call rc) := by
  cases outcome with
  | stays quiet state upload marks =>
    rw [w.after_quiet fun begins => quiet (.inl begins)]
    exact kept.of_same state marks
  | passed quiet inactive marks => exact .of_inactive inactive
  | begins request asked admitted accepted state upload marks =>
    have anew : w.after call rc = { w with seen := none, held := none } :=
      if_pos ⟨Call.isBegin_of_request asked, accepted⟩
    simp only [Session.marks, Marks.mk.injEq] at marks
    obtain ⟨seen, mark, verified⟩ := marks
    rw [anew]
    refine ⟨fun _ => ⟨verified, rfl, mark, ?_⟩, fun _ => verified⟩
    rintro entry ⟨⟩
  | stages quiet before state upload within marks =>
    rw [w.after_quiet fun begins => quiet (.inl begins)]
    exact kept.of_same (state.trans before.symm) marks
  | verifies ended accepted before state complete digest upload staged marks =>
    have no_begin : call.isBegin = false := Call.isBegin_of_isEnd ended
    rw [w.after_quiet fun begins => absurd begins (no_begin ▸ Bool.false_ne_true)]
    simp only [Session.marks, Marks.mk.injEq] at marks
    obtain ⟨unset, unheld, _⟩ := kept.receiving before
    refine ⟨fun receiving => ?_, fun _ => ?_⟩
    · cases state.symm.trans receiving
    · rw [unheld, marks.2.2]
      exact unset

theorem Kept.step {board : Board} {start : Word} {entry : Session × Watch} {beat : Beat}
    (kept : Kept start entry.1 entry.2) (timely : beat.Timely entry) :
    Kept start ((Session.watched board start).step entry beat).1 ((Session.watched board start).step entry beat).2 := by
  cases beat with
  | watchdog time => exact kept.look timely
  | other answers call => exact kept.call (entry.1.call_outcome board answers call timely)

/-- Wherever the clock starts and whatever calls have come, the watchdog ends no session early exactly
when it is not called at the clock value 0 in the millisecond it remembers. -/
theorem watchdog_patient (board : Board) (start : Word) (staged : Nat → Byte) (policy : FwSigPolicy)
    (beats : List Beat)
    (timely : (Session.watched board start).Along (fun entry beat => beat.Timely entry)
      ({ staged, policy }, {}) beats)
    (time : Nat)
    (later : ((Session.watched board start).run ({ staged, policy }, {}) beats).2.time ≤ time) :
    let entry := (Session.watched board start).run ({ staged, policy }, {}) beats
    Patient start entry.1 entry.2 time ↔ ¬ Slips start entry.1 entry.2 time := by
  have kept := timely.invariant _ (fun entry => Kept start entry.1 entry.2)
    (fun kept timely => kept.step timely) (.of_inactive rfl)
  exact kept.patient_iff later

/-- The clock wraps 1 s after it is first looked at; an upload has begun just then. -/
def sampleBeats : List Beat := [.watchdog 0, .other {} (sampleBegin .cloud), .watchdog 1000]

theorem sampleBeats_timely (start : Word) :
    (Session.watched sampleBoard start).Along (fun entry beat => beat.Timely entry) ({}, {})
      sampleBeats := by
  refine ⟨Nat.zero_le _, ?_, Nat.zero_le _, trivial⟩
  rintro now ⟨⟩

theorem watchdog_patient_sample :
    let entry := (Session.watched sampleBoard 0xfffffc18).run ({}, {}) sampleBeats
    Patient 0xfffffc18 entry.1 entry.2 121000 := by
  intro entry
  have later : entry.2.time ≤ 121000 := by decide +kernel
  refine (watchdog_patient sampleBoard 0xfffffc18 (fun _ => 0) .audit sampleBeats
    (sampleBeats_timely _) 121000 later).mpr ?_
  rintro ⟨zero, _⟩
  exact absurd zero (by decide)

/-- A second call in the millisecond in which the clock wraps abandons the upload at once. -/
theorem watchdog_slips :
    let entry := (Session.watched sampleBoard 0xfffffc18).run ({}, {}) sampleBeats
    entry.1.state = .receiving ∧ entry.2.seen = some (entry.1.received, 1000) ∧
      (entry.1.otaWatchdog (clockAt 0xfffffc18 1000)).state = .idle ∧
      ¬ Patient 0xfffffc18 entry.1 entry.2 1000 := by
  intro entry
  have receiving : entry.1.state = .receiving := by decide +kernel
  have seen : entry.2.seen = some (entry.1.received, 1000) := by decide +kernel
  have ended : (entry.1.otaWatchdog (clockAt 0xfffffc18 1000)).state = .idle := by decide +kernel
  refine ⟨receiving, seen, ended, fun patient => ?_⟩
  obtain ⟨since, seen_again, idle⟩ := patient.receiving receiving (by rw [ended]; decide)
  cases seen.symm.trans seen_again
  exact absurd idle (by decide)

end BenchPod.Ota
