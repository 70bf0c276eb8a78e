import BenchPod.DacStream.Stream

/-!
# Static frames

A request waits for a slot, is fetched and shifted out.  `Asked` follows one request through these phases, whatever the
playback, other requests, starts and stops do meanwhile.
-/

namespace BenchPod.DacStream

section Phases

variable (b : Bench)

/-- A request has not got a slot. -/
def Waiting : Prop := b.e.wpend = true ∨ b.wrP = true

/-- The slot at which a request is taken, unless a start or a stop comes with it. -/
def Taking : Prop := b.e.st = .idle ∧ b.e.runI = true ∧ b.e.dz = true ∧ b.e.wpend = true

/-- The static frame is being fetched. -/
def Fetching : Prop := b.e.wfr = true ∧ (b.e.st = .rdlo ∨ b.e.st = .rdhi ∨ b.e.st = .lat)

/-- A static frame is in the shifter. -/
def Loaded : Prop := b.e.wfr = true ∧ (b.e.st = .shift ∨ b.e.st = .idle ∧ b.e.sync = false)

end Phases

variable {b : Bench} {i : Edge}

/-- A fetch goes on, or starts where a request is taken. -/
theorem fetching_step (framed : Framed b) (fetching : Fetching (b.step i)) :
    i.stop = false ∧ b.startP = false ∧ (Fetching b ∧ b.e.st ≠ .lat ∨ Taking b) := by
  obtain ⟨frame, state⟩ := fetching
  have frame : (b.e.main (b.ports i)).wfr = true := frame
  have state : (b.e.main (b.ports i)).st = .rdlo ∨ (b.e.main (b.ports i)).st = .rdhi ∨
    (b.e.main (b.ports i)).st = .lat := state
  cases stop : i.stop with
  | true =>
    rw [@Engine.main_stop b.e (b.ports i) stop] at state
    simp at state
  | false =>
  cases start : b.startP with
  | true =>
    rw [@Engine.main_start b.e (b.ports i) stop start] at state
    simp at state
  | false =>
  refine ⟨rfl, rfl, ?_⟩
  cases on : b.e.runI with
  | false =>
    rw [@Engine.main_off b.e (b.ports i) stop start on] at state
    have idle : b.e.st = .idle := by
      by_contra other
      exact Bool.false_ne_true (on.symm.trans (framed.on other))
    simp [idle] at state
  | true =>
  rw [@Engine.main_on b.e (b.ports i) stop start on] at state frame
  cases st : b.e.st with
  | idle =>
    rw [Engine.act_idle st] at state frame
    cases dz : b.e.dz with
    | false =>
      rw [dz, if_neg Bool.false_ne_true] at frame
      exact nomatch frame
    | true =>
      rw [if_pos dz] at frame
      obtain ⟨-, pend⟩ | ⟨slot, -⟩ | ⟨slot, -⟩ := @Engine.slot_cases b.e (b.ports i) { b.e.toFsm with
        strmPop := false, sync := true, sclk := false, wfr := false, runI := b.e.running || b.e.wpend }
      · exact .inr ⟨st, on, dz, pend⟩
      · rw [slot] at frame
        exact nomatch frame
      · rw [slot] at frame
        exact nomatch frame
  | rdlo =>
    rw [Engine.act_rdlo st] at frame
    exact .inl ⟨⟨frame, .inl st⟩, by simp⟩
  | rdhi =>
    rw [Engine.act_rdhi st] at frame
    exact .inl ⟨⟨frame, .inr (.inl st)⟩, by simp⟩
  | lat => simp [Engine.act_lat st] at state
  | plo =>
    rw [Engine.act_plo st] at state
    split at state
    · simp at state
    · simp [st] at state
  | plw => simp [Engine.act_plw st] at state
  | phi =>
    rw [Engine.act_phi st] at state
    split at state
    · simp at state
    · simp [st] at state
  | shift =>
    rw [Engine.act_shift st] at state
    split at state
    · cases last : b.e.last <;> simp [last] at state
    · simp [st] at state

theorem loaded_step (steady : Steady b) (loaded : Loaded (b.step i)) :
    i.stop = false ∧ b.startP = false ∧ (Fetching b ∧ b.e.st = .lat ∨ Loaded b ∧ b.e.st = .shift) := by
  obtain ⟨frame, state⟩ := loaded
  obtain ⟨stop, start, on, from_state⟩ := shifter_step steady.framed state
  have kept (busy : b.e.st ≠ .idle) : b.e.wfr = true := by
    have frame : (b.e.main (b.ports i)).wfr = true := frame
    rw [@Engine.main_on b.e (b.ports i) stop start on, (Engine.act_kept busy).1] at frame
    exact frame
  refine ⟨stop, start, ?_⟩
  obtain lat | ⟨phi, -⟩ | shift := from_state
  · exact .inl ⟨⟨kept (by simp [lat]), .inr (.inr lat)⟩, lat⟩
  · exact absurd ((steady.sound.stream (.inr (.inr phi))).symm.trans (kept (by simp [phi]))) Bool.false_ne_true
  · exact .inr ⟨⟨kept (by simp [shift]), .inl shift⟩, shift⟩

/-- A request waits on until its slot is taken. -/
theorem main_wpend : ((b.e.main (b.ports i)).wpend = true → b.e.wpend = true) ∧
    (b.e.wpend = true → (b.e.main (b.ports i)).wpend = true ∨
      Taking b ∧ (b.e.main (b.ports i)).wfr = true ∧ (b.e.main (b.ports i)).st = .rdlo) := by
  cases stop : i.stop with
  | true =>
    rw [@Engine.main_stop b.e (b.ports i) stop]
    exact ⟨id, .inl⟩
  | false =>
  cases start : b.startP with
  | true =>
    rw [@Engine.main_start b.e (b.ports i) stop start]
    exact ⟨id, .inl⟩
  | false =>
  cases on : b.e.runI with
  | false =>
    rw [@Engine.main_off b.e (b.ports i) stop start on]
    exact ⟨id, .inl⟩
  | true =>
  rw [@Engine.main_on b.e (b.ports i) stop start on]
  by_cases st : b.e.st = .idle
  · rw [Engine.act_idle st]
    cases dz : b.e.dz with
    | false =>
      rw [if_neg Bool.false_ne_true]
      exact ⟨id, .inl⟩
    | true =>
      rw [if_pos rfl]
      obtain ⟨slot, pend⟩ | ⟨slot, none, -⟩ | ⟨slot, none, -⟩ := @Engine.slot_cases b.e (b.ports i) { b.e.toFsm with
        strmPop := false
        sync := true
        sclk := false
        wfr := false
        dz := true
        runI := b.e.running || b.e.wpend }
      · rw [slot]
        exact ⟨nofun, fun _ => .inr ⟨⟨st, on, dz, pend⟩, rfl, rfl⟩⟩
      · rw [slot]
        exact ⟨id, .inl⟩
      · rw [slot]
        exact ⟨id, .inl⟩
  · rw [(Engine.act_kept st).2.1]
    exact ⟨id, .inl⟩

theorem sent_loaded (framed : Framed b) {frame : Sent} (sent : b.sent i = some frame) {r : Nat}
    (own : frame.static = some r) : Loaded b ∧ b.shId = r := by
  rw [Bench.sent] at sent
  split at sent
  · next rises =>
      obtain rfl := Option.some.inj sent
      simp only [Bool.and_eq_true, Bool.not_eq_true'] at rises
      cases wfr : b.e.wfr with
      | false => simp [wfr] at own
      | true =>
        rw [wfr] at own
        refine ⟨⟨wfr, ?_⟩, Option.some.inj own⟩
        by_contra other
        obtain ⟨shift, idle⟩ := not_or.mp other
        have high := framed.high shift fun st => idle ⟨st, rises.1⟩
        exact Bool.false_ne_true (rises.1.symm.trans high)
  · cases sent

/-- Request `r` for the frame `word`, until that has been sent. -/
inductive Due (r : Nat) (word : BitVec 24) (b : Bench) : Prop
  | waiting (id : b.wrId = r) (held : b.wrFrame = word) (waits : Waiting b) (rest : ¬ Fetching b)
      (alone : ¬ (b.wrP = true ∧ Taking b)) (other : Loaded b → b.shId ≠ r)
  | fetching (id : b.wrId = r) (held : b.wrFrame = word) (fetches : Fetching b) (alone : ¬ Waiting b)
  | loaded (id : b.shId = r) (known : r ≤ b.wrId) (held : b.word = word) (loads : Loaded b)
      (alone : b.wrId = r → ¬ Waiting b)

/-- The frame of request `r` is on its way. -/
def InFlight (r : Nat) (b : Bench) : Prop := Fetching b ∨ Loaded b ∧ b.shId = r

/-- Request `r` after its frame. -/
structure Past (r : Nat) (b : Bench) : Prop where
  known : r ≤ b.wrId
  rest : b.wrId = r → ¬ Waiting b ∧ ¬ Fetching b
  other : Loaded b → b.shId ≠ r

/-- An edge that leaves request `r` alone: a newer request comes when the frame is loaded, at the latest, and no start
or stop comes during the frame. -/
def Undisturbed (r : Nat) (b : Bench) (i : Edge) : Prop :=
  (i.wrLatch.isSome = true → b.wrId = r → ¬ Waiting b ∧ (Fetching b → b.e.st = .lat)) ∧
    (i.stop = true ∨ b.startP = true → (b.wrId = r → ¬ Fetching b) ∧ (b.shId = r → ¬ Loaded b))

section Step

variable {r : Nat} {word : BitVec 24}

theorem held_step (none : ¬ i.wrLatch.isSome = true) :
    (b.step i).wrId = b.wrId ∧ (b.step i).wrFrame = b.wrFrame ∧ (b.step i).wrP = false := by
  have none : i.wrLatch = .none := Option.not_isSome_iff_eq_none.mp none
  refine ⟨?_, ?_, ?_⟩
  · show b.wrId + i.wrLatch.isSome.toNat = b.wrId
    rw [none]
    rfl
  · show i.wrLatch.getD b.wrFrame = b.wrFrame
    rw [none]
    rfl
  · show i.wrLatch.isSome = false
    rw [none]
    rfl

theorem wrId_le : b.wrId ≤ (b.step i).wrId := Nat.le_add_right ..

theorem latest_step (known : r ≤ b.wrId) (same : (b.step i).wrId = r) : b.wrId = r ∧ ¬ i.wrLatch.isSome = true := by
  have grown : b.wrId + i.wrLatch.isSome.toNat = r := same
  cases latch : i.wrLatch.isSome with
  | true =>
    rw [latch, Bool.toNat_true] at grown
    omega
  | false =>
    rw [latch, Bool.toNat_false] at grown
    exact ⟨grown, Bool.false_ne_true⟩

theorem not_waiting_step (rest : ¬ Waiting b) (none : ¬ i.wrLatch.isSome = true) : ¬ Waiting (b.step i) := by
  obtain ⟨pend, pulse⟩ := not_or.mp rest
  rintro (waits | asks)
  · have waits : ((b.e.main (b.ports i)).wpend || b.wrP) = true := waits
    obtain waits | asked := Bool.or_eq_true_iff.mp waits
    · exact pend (main_wpend.1 waits)
    · exact pulse asked
  · exact none asks

theorem Past.step (steady : Steady b) (past : Past r b) :
    Past r (b.step i) ∧ ∀ frame, b.sent i = some frame → frame.static ≠ some r := by
  obtain ⟨known, rest, other⟩ := past
  refine ⟨⟨Nat.le_trans known wrId_le, fun same => ?_, fun loaded => ?_⟩, fun frame sent own => ?_⟩
  · obtain ⟨last, none⟩ := latest_step known same
    obtain ⟨quiet, idle⟩ := rest last
    refine ⟨not_waiting_step quiet none, fun fetching => ?_⟩
    obtain ⟨-, -, ⟨before, -⟩ | taking⟩ := fetching_step steady.framed fetching
    · exact idle before
    · exact quiet (.inl taking.2.2.2)
  · obtain ⟨-, -, ⟨fetching, lat⟩ | ⟨before, shift⟩⟩ := loaded_step steady loaded
    · intro same
      have taken : (b.step i).shId = b.wrId := if_pos lat
      exact (rest (taken.symm.trans same)).2 fetching
    · have kept : (b.step i).shId = b.shId := if_neg (by simp [shift])
      rw [kept]
      exact other before
  · obtain ⟨loaded, same⟩ := sent_loaded steady.framed sent own
    exact other loaded same

theorem Due.step_waiting (steady : Steady b) (undisturbed : Undisturbed r b i) (id : b.wrId = r)
    (held : b.wrFrame = word) (waits : Waiting b) (rest : ¬ Fetching b) (alone : ¬ (b.wrP = true ∧ Taking b))
    (other : Loaded b → b.shId ≠ r) : Due r word (b.step i) := by
  have none : ¬ i.wrLatch.isSome = true := fun newer => (undisturbed.1 newer id).1 waits
  obtain ⟨same, frame, pulse⟩ := held_step none
  have pend : (b.step i).e.wpend = ((b.e.main (b.ports i)).wpend || b.wrP) := rfl
  cases still : (b.step i).e.wpend with
  | true =>
    refine .waiting (same.trans id) (frame.trans held) (.inl still) (fun fetching => ?_) ?_ (fun loaded => ?_)
    · obtain ⟨stop, start, ⟨before, -⟩ | taking⟩ := fetching_step steady.framed fetching
      · exact rest before
      · -- the slot was taken, so it was the pulse that set the flag again
        rw [still] at pend
        obtain kept | asked := Bool.or_eq_true_iff.mp pend.symm
        · have main := @Engine.main_on b.e (b.ports i) stop start taking.2.1
          rw [main, Engine.act_idle taking.1, if_pos taking.2.2.1, Engine.slot] at kept
          simp [taking.2.2.2] at kept
        · exact alone ⟨asked, taking⟩
    · rw [pulse]
      exact fun both => Bool.false_ne_true both.1
    · obtain ⟨-, -, ⟨fetching, -⟩ | ⟨before, shift⟩⟩ := loaded_step steady loaded
      · exact absurd fetching rest
      · have kept : (b.step i).shId = b.shId := if_neg (by simp [shift])
        rw [kept]
        exact other before
  | false =>
    rw [still] at pend
    obtain ⟨gone, unasked⟩ := Bool.or_eq_false_iff.mp pend.symm
    have waited : b.e.wpend = true := waits.resolve_right (by simp [unasked])
    obtain kept | ⟨-, wfr, state⟩ := (@main_wpend b i).2 waited
    · exact absurd (gone.symm.trans kept) Bool.false_ne_true
    · refine .fetching (same.trans id) (frame.trans held) ⟨wfr, .inl state⟩ ?_
      rintro (waits | asks)
      · exact Bool.false_ne_true (still.symm.trans waits)
      · exact Bool.false_ne_true (pulse.symm.trans asks)

/-- A frame that is fetched goes on being fetched, or is loaded. -/
theorem Due.step_fetching (steady : Steady b) (undisturbed : Undisturbed r b i) (id : b.wrId = r)
    (held : b.wrFrame = word) (fetches : Fetching b) (alone : ¬ Waiting b) :
    Due r word (b.step i) ∧ InFlight r (b.step i) := by
  have quiet : ¬ (i.stop = true ∨ b.startP = true) := fun cut => (undisturbed.2 cut).1 id fetches
  obtain ⟨stop, start⟩ := not_or.mp quiet
  have stop : i.stop = false := by simpa using stop
  have start : b.startP = false := by simpa using start
  obtain ⟨wfr, state⟩ := fetches
  have idle : b.e.st ≠ .idle := by
    rintro idle
    simp [idle] at state
  have main := @Engine.main_on b.e (b.ports i) stop start (steady.framed.on idle)
  have static : (b.step i).e.wfr = true := by
    show (b.e.main (b.ports i)).wfr = true
    rw [main, (Engine.act_kept idle).1]
    exact wfr
  obtain rdlo | rdhi | lat := state
  · have none : ¬ i.wrLatch.isSome = true := fun newer => nomatch rdlo.symm.trans ((undisturbed.1 newer id).2 ⟨wfr, .inl rdlo⟩)
    obtain ⟨same, frame, -⟩ := held_step none
    have next : (b.step i).e.st = .rdhi := congrArg Fsm.st (main.trans (Engine.act_rdlo rdlo))
    have fetches : Fetching (b.step i) := ⟨static, .inr (.inl next)⟩
    exact ⟨.fetching (same.trans id) (frame.trans held) fetches (not_waiting_step alone none), .inl fetches⟩
  · have none : ¬ i.wrLatch.isSome = true := fun newer =>
      nomatch rdhi.symm.trans ((undisturbed.1 newer id).2 ⟨wfr, .inr (.inl rdhi)⟩)
    obtain ⟨same, frame, -⟩ := held_step none
    have next : (b.step i).e.st = .lat := congrArg Fsm.st (main.trans (Engine.act_rdhi rdhi))
    have fetches : Fetching (b.step i) := ⟨static, .inr (.inr next)⟩
    exact ⟨.fetching (same.trans id) (frame.trans held) fetches (not_waiting_step alone none), .inl fetches⟩
  · have next : (b.step i).e.st = .shift := congrArg Fsm.st (main.trans (Engine.act_lat lat))
    have number : (b.step i).shId = b.wrId := if_pos lat
    have loads : (b.step i).word = (b.step i).e.sh := if_pos (.inl lat)
    have sh : (b.step i).e.sh = if b.e.wfr then b.wrFrame else b.ctl.ctrl ++ (b.wave ++ b.e.lo) :=
      congrArg Datapath.sh (Engine.datapath_lat lat)
    have loaded : Loaded (b.step i) := ⟨static, .inl next⟩
    refine ⟨.loaded (number.trans id) (id ▸ wrId_le) ?_ loaded fun same => ?_, .inr ⟨loaded, number.trans id⟩⟩
    · rw [loads, sh, if_pos wfr, held]
    · exact not_waiting_step alone (latest_step (Nat.le_of_eq id.symm) same).2

/-- A frame that is loaded is shifted out, and SYNC rises over it. -/
theorem Due.step_loaded (steady : Steady b) (undisturbed : Undisturbed r b i) (id : b.shId = r) (known : r ≤ b.wrId)
    (held : b.word = word) (loads : Loaded b) (alone : b.wrId = r → ¬ Waiting b) :
    (Due r word (b.step i) ∧ InFlight r (b.step i)) ∧ b.e.st = .shift ∨
      Past r (b.step i) ∧ b.sent i = some ⟨frameBits word, false, some r⟩ := by
  have quiet : ¬ (i.stop = true ∨ b.startP = true) := fun cut => (undisturbed.2 cut).2 id loads
  obtain ⟨stop, start⟩ := not_or.mp quiet
  have stop : i.stop = false := by simpa using stop
  have start : b.startP = false := by simpa using start
  have settled (same : (b.step i).wrId = r) : ¬ Waiting (b.step i) := by
    obtain ⟨last, none⟩ := latest_step known same
    exact not_waiting_step (alone last) none
  obtain ⟨wfr, shift | ⟨idle, low⟩⟩ := loads
  · have on := steady.framed.on (by simp [shift])
    have main := @Engine.main_on b.e (b.ports i) stop start on
    obtain ⟨state, static, -⟩ := @main_shift b.e (b.ports i) shift stop start on
    have sync : (b.step i).e.sync = false := by
      show (b.e.main (b.ports i)).sync = false
      rw [main, Engine.act_shift shift]
      split <;> exact (steady.framed.shifting shift).1
    have number : (b.step i).shId = b.shId := if_neg (by simp [shift])
    have word : (b.step i).word = b.word := if_neg (by simp [shift])
    suffices loaded : Loaded (b.step i) from .inl ⟨⟨.loaded (number.trans id) (Nat.le_trans known wrId_le)
      (word.trans held) loaded settled, .inr ⟨loaded, number.trans id⟩⟩, shift⟩
    refine ⟨static.trans wfr, ?_⟩
    cases passed : b.e.ph && b.e.last with
    | true =>
      rw [passed, if_pos rfl] at state
      exact .inr ⟨state, sync⟩
    | false =>
      rw [passed, if_neg Bool.false_ne_true] at state
      exact .inl state
  · refine .inr ⟨⟨Nat.le_trans known wrId_le, fun same => ⟨settled same, fun fetching => ?_⟩, fun loaded => ?_⟩, ?_⟩
    · obtain ⟨-, -, ⟨⟨-, state⟩, -⟩ | taking⟩ := fetching_step steady.framed fetching
      · simp [idle] at state
      · exact alone (latest_step known same).1 (.inl taking.2.2.2)
    · obtain ⟨-, -, ⟨-, lat⟩ | ⟨-, shift⟩⟩ := loaded_step steady loaded
      · exact nomatch idle.symm.trans lat
      · exact nomatch idle.symm.trans shift
    · rw [steady.framed.sent stop start, if_pos ⟨idle, low⟩, wfr, if_pos rfl, held, id]

theorem Due.step (steady : Steady b) (due : Due r word b) (undisturbed : Undisturbed r b i) :
    Due r word (b.step i) ∧ (∀ frame, b.sent i = some frame → frame.static ≠ some r) ∨
      Past r (b.step i) ∧ b.sent i = some ⟨frameBits word, false, some r⟩ := by
  cases due with
  | waiting id held waits rest alone other =>
    refine .inl ⟨Due.step_waiting steady undisturbed id held waits rest alone other, fun frame sent own => ?_⟩
    obtain ⟨loaded, same⟩ := sent_loaded steady.framed sent own
    exact other loaded same
  | fetching id held fetches alone =>
    refine .inl ⟨(Due.step_fetching steady undisturbed id held fetches alone).1, fun frame sent own => ?_⟩
    obtain ⟨⟨-, shift | ⟨idle, -⟩⟩, -⟩ := sent_loaded steady.framed sent own
    · simp [Fetching, shift] at fetches
    · simp [Fetching, idle] at fetches
  | loaded id known held loads alone =>
    obtain ⟨⟨due, -⟩, shift⟩ | past := Due.step_loaded steady undisturbed id known held loads alone
    · refine .inl ⟨due, fun frame sent _ => ?_⟩
      have quiet : ¬ (i.stop = true ∨ b.startP = true) := fun cut => (undisturbed.2 cut).2 id loads
      obtain ⟨stop, start⟩ := not_or.mp quiet
      rw [steady.framed.sent (by simpa using stop) (by simpa using start), if_neg (by simp [shift])] at sent
      exact nomatch sent
    · exact .inr past

end Step

/-- The frames of request `r`. -/
def own (r : Nat) (frames : List Sent) : List Sent := frames.filter fun frame => frame.static == some r

theorem own_cons {r : Nat} {frame : Option Sent} {frames : List Sent}
    (other : ∀ sent, frame = some sent → sent.static ≠ some r) : own r (frame.toList ++ frames) = own r frames := by
  cases frame with
  | none => rfl
  | some sent =>
    rw [own, Option.toList_some, List.singleton_append, List.filter_cons_of_neg (by simpa using other sent rfl)]
    rfl

section Run

variable {r : Nat} {word : BitVec 24} {edges : List Edge}

theorem Past.run (steady : Steady b) (past : Past r b) : own r (sequencer.emitted b edges) = [] := by
  induction edges generalizing b with
  | nil => rfl
  | cons i edges ih =>
    obtain ⟨next, other⟩ := @Past.step b i r steady past
    exact (own_cons other).trans (ih steady.step next)

theorem Due.run (steady : Steady b) (due : Due r word b) (along : sequencer.Along (Undisturbed r) b edges) :
    Due r word (sequencer.run b edges) ∧ own r (sequencer.emitted b edges) = [] ∨
      own r (sequencer.emitted b edges) = [⟨frameBits word, false, some r⟩] := by
  induction edges generalizing b with
  | nil => exact .inl ⟨due, rfl⟩
  | cons i edges ih =>
    have head : sequencer.emitted b (i :: edges) = (b.sent i).toList ++ sequencer.emitted (b.step i) edges := rfl
    rw [head]
    obtain ⟨next, other⟩ | ⟨past, sent⟩ := due.step steady along.1
    · rw [own_cons other]
      exact ih steady.step next along.2
    · refine .inr ?_
      rw [sent, own, Option.toList_some, List.filter_append]
      have rest := @Past.run (b.step i) r edges steady.step past
      rw [own] at rest
      rw [rest]
      simp

end Run

/-- What an undisturbed clock brings: no start, no stop and no newer request. -/
def Quiet (b : Bench) (i : Edge) : Prop := i.stop = false ∧ b.startP = false ∧ i.wrLatch.isSome = false

/-- A fetch that waits for data. -/
def Stalled (b : Bench) (i : Edge) : Prop := (b.e.st = .plo ∨ b.e.st = .phi) ∧ i.valid = false

instance (b : Bench) (i : Edge) : Decidable (Stalled b i) := inferInstanceAs (Decidable (_ ∧ _))

/-- The clocks in which no fetch waits for data. -/
def worked : Bench → List Edge → Nat
  | _, [] => 0
  | b, i :: edges => (if Stalled b i then 0 else 1) + worked (b.step i) edges

/-- The clocks to the end of the frame, but for those that wait for data. -/
def frameLeft (b : Bench) : Nat :=
  match b.e.st with
  | .idle => 0
  | .plo => 51
  | .plw => 50
  | .phi => 49
  | .rdlo => 51
  | .rdhi => 50
  | .lat => 49
  | .shift => 48 - (2 * b.e.bitc + b.e.ph.toNat)

/-- The clocks to the next slot. -/
def slotLeft (b : Bench) : Nat := frameLeft b + if b.e.dz then 0 else b.e.divCnt

section Progress

variable {r : Nat} {word : BitVec 24} {edges : List Edge}

/-- A clock of a frame. -/
theorem frameLeft_step (steady : Steady b) (stop : i.stop = false) (start : b.startP = false) (busy : b.e.st ≠ .idle) :
    frameLeft (b.step i) + (if Stalled b i then 0 else 1) ≤ frameLeft b := by
  have main := @Engine.main_on b.e (b.ports i) stop start (steady.framed.on busy)
  cases st : b.e.st with
  | idle => exact absurd st busy
  | rdlo =>
    have state : (b.step i).e.st = .rdhi := congrArg Fsm.st (main.trans (Engine.act_rdlo st))
    simp [frameLeft, Stalled, st, state]
  | rdhi =>
    have state : (b.step i).e.st = .lat := congrArg Fsm.st (main.trans (Engine.act_rdhi st))
    simp [frameLeft, Stalled, st, state]
  | plw =>
    have state : (b.step i).e.st = .phi := congrArg Fsm.st (main.trans (Engine.act_plw st))
    simp [frameLeft, Stalled, st, state]
  | lat =>
    have state : (b.step i).e.st = .shift := congrArg Fsm.st (main.trans (Engine.act_lat st))
    have bitc : (b.step i).e.bitc = 0 := congrArg Datapath.bitc (Engine.datapath_lat st)
    have ph : (b.step i).e.ph = false := congrArg Datapath.ph (Engine.datapath_lat st)
    simp [frameLeft, Stalled, st, state, bitc, ph]
  | plo =>
    have act := main.trans (Engine.act_plo st)
    cases valid : i.valid with
    | false =>
      rw [show (b.ports i).strmValid = i.valid from rfl, valid, if_neg Bool.false_ne_true] at act
      have state : (b.step i).e.st = .plo := (congrArg Fsm.st act).trans st
      simp [frameLeft, Stalled, st, state, valid]
    | true =>
      rw [show (b.ports i).strmValid = i.valid from rfl, valid, if_pos rfl] at act
      have state : (b.step i).e.st = .plw := congrArg Fsm.st act
      simp [frameLeft, Stalled, st, state, valid]
  | phi =>
    have act := main.trans (Engine.act_phi st)
    cases valid : i.valid with
    | false =>
      rw [show (b.ports i).strmValid = i.valid from rfl, valid, if_neg Bool.false_ne_true] at act
      have state : (b.step i).e.st = .phi := (congrArg Fsm.st act).trans st
      simp [frameLeft, Stalled, st, state, valid]
    | true =>
      rw [show (b.ports i).strmValid = i.valid from rfl, valid, if_pos rfl] at act
      have state : (b.step i).e.st = .shift := congrArg Fsm.st act
      have frame := @Engine.datapath_phi b.e (b.ports i) st valid
      have bitc : (b.step i).e.bitc = 0 := congrArg Datapath.bitc frame
      have ph : (b.step i).e.ph = false := congrArg Datapath.ph frame
      simp [frameLeft, Stalled, st, state, bitc, ph, valid]
  | shift =>
    obtain ⟨-, few, -, -, -, -, last⟩ := steady.framed.shifting st
    obtain ⟨state, -, -⟩ := @main_shift b.e (b.ports i) st stop start (steady.framed.on busy)
    have state : (b.step i).e.st = if b.e.ph && b.e.last then .idle else .shift := state
    have working : ¬ Stalled b i := by simp [Stalled, st]
    rw [if_neg working]
    have frame := @Engine.datapath_shift b.e (b.ports i) st
    cases ph : b.e.ph with
    | false =>
      rw [ph, if_neg Bool.false_ne_true] at frame
      rw [ph, Bool.false_and, if_neg Bool.false_ne_true] at state
      have count : frameLeft (b.step i) = 48 - (2 * (b.step i).e.bitc + (b.step i).e.ph.toNat) := by
        simp only [frameLeft, state]
      have halves : (b.e.datapath (b.ports i)).bitc = b.e.bitc ∧ (b.e.datapath (b.ports i)).ph = true := by
        rw [frame]
        exact ⟨rfl, rfl⟩
      rw [count, show (b.step i).e.bitc = b.e.bitc from halves.1, show (b.step i).e.ph = true from halves.2,
        frameLeft, st, ph, Bool.toNat_true, Bool.toNat_false]
      show 48 - (2 * b.e.bitc + 1) + 1 ≤ 48 - (2 * b.e.bitc + 0)
      omega
    | true =>
      rw [ph, if_pos rfl] at frame
      rw [ph, Bool.true_and, last] at state
      rw [show frameLeft b = 48 - (2 * b.e.bitc + 1) by rw [frameLeft, st, ph]; rfl]
      by_cases final : b.e.bitc = 23
      · rw [decide_eq_true final, if_pos rfl] at state
        have none : frameLeft (b.step i) = 0 := by rw [frameLeft, state]
        omega
      · rw [decide_eq_false final, if_neg Bool.false_ne_true] at state
        have count : frameLeft (b.step i) = 48 - (2 * (b.step i).e.bitc + (b.step i).e.ph.toNat) := by
          simp only [frameLeft, state]
        have halves : (b.e.datapath (b.ports i)).bitc = (b.e.bitc + 1) % 32 ∧ (b.e.datapath (b.ports i)).ph = false := by
          rw [frame]
          exact ⟨rfl, rfl⟩
        rw [count, show (b.step i).e.bitc = (b.e.bitc + 1) % 32 from halves.1,
          show (b.step i).e.ph = false from halves.2, Bool.toNat_false]
        omega

theorem frameLeft_le (b : Bench) : frameLeft b ≤ 51 := by
  rw [frameLeft]
  cases b.e.st <;> simp only
  all_goals omega

theorem slotLeft_step (steady : Steady b) (quiet : Quiet b i) (on : b.e.runI = true)
    (later : b.e.st ≠ .idle ∨ b.e.dz = false) :
    slotLeft (b.step i) + (if Stalled b i then 0 else 1) ≤ slotLeft b := by
  obtain ⟨stop, start, -⟩ := quiet
  have main := @Engine.main_on b.e (b.ports i) stop start on
  by_cases st : b.e.st = .idle
  · have dz := later.resolve_left fun other => other st
    have act := main.trans ((Engine.act_idle st).trans (if_neg (by simp [dz])))
    have state : (b.step i).e.st = .idle := (congrArg Fsm.st act).trans st
    have count : (b.e.main (b.ports i)).divCnt = (b.e.divCnt + 65535) % 65536 := by rw [act]
    have count : (b.step i).e.divCnt = (b.e.divCnt + 65535) % 65536 := count
    have zero : (b.step i).e.dz = (b.e.divCnt == 1) := congrArg Fsm.dz act
    have least := steady.sound.nonzero dz
    have most := steady.sound.small
    have working : ¬ Stalled b i := by simp [Stalled, st]
    rw [if_neg working, slotLeft, slotLeft, frameLeft, frameLeft, state, st, count, zero, dz, if_neg Bool.false_ne_true]
    by_cases final : b.e.divCnt = 1
    · simp [final]
    · rw [beq_false_of_ne final, if_neg Bool.false_ne_true]
      show 0 + (b.e.divCnt + 65535) % 65536 + 1 ≤ 0 + b.e.divCnt
      omega
  · have left := frameLeft_step steady stop start st
    have kept : (b.step i).e.dz = b.e.dz ∧ (b.step i).e.divCnt = b.e.divCnt := by
      show (b.e.main (b.ports i)).dz = b.e.dz ∧ (b.e.main (b.ports i)).divCnt = b.e.divCnt
      rw [main]
      exact ⟨(Engine.act_kept st).2.2.1, (Engine.act_kept st).2.2.2⟩
    rw [slotLeft, slotLeft, kept.1, kept.2]
    omega

/-- A request that is due is sent within `N` clocks. -/
def Within (r N : Nat) (b : Bench) : Prop := InFlight r b ∧ frameLeft b + 1 ≤ N ∨ slotLeft b + 54 ≤ N

theorem Within.frame {N : Nat} (within : Within r N b) : frameLeft b + 1 ≤ N := by
  obtain ⟨-, left⟩ | left := within
  · exact left
  · rw [slotLeft] at left
    omega

theorem quiet_undisturbed (quiet : Quiet b i) : Undisturbed r b i := by
  obtain ⟨stop, start, none⟩ := quiet
  refine ⟨fun newer => absurd (none.symm.trans newer) Bool.false_ne_true, ?_⟩
  rintro (cut | cut)
  · exact absurd (stop.symm.trans cut) Bool.false_ne_true
  · exact absurd (start.symm.trans cut) Bool.false_ne_true

/-- A clock without a start, a stop or a newer request brings the frame closer. -/
theorem Due.closer {N : Nat} (steady : Steady b) (due : Due r word b) (asked : b.wrP = false) (quiet : Quiet b i)
    (within : Within r N b) :
    (∃ M, M + (if Stalled b i then 0 else 1) ≤ N ∧ Within r M (b.step i)) ∨
      b.sent i = some ⟨frameBits word, false, some r⟩ := by
  have undisturbed : Undisturbed r b i := quiet_undisturbed quiet
  have in_flight (busy : b.e.st ≠ .idle) (flight : InFlight r (b.step i)) :
      ∃ M, M + (if Stalled b i then 0 else 1) ≤ N ∧ Within r M (b.step i) := by
    have left := frameLeft_step steady quiet.1 quiet.2.1 busy
    have bound := within.frame
    exact ⟨frameLeft (b.step i) + 1, by omega, .inl ⟨flight, Nat.le_refl _⟩⟩
  cases due with
  | waiting id held waits rest alone other =>
    refine .inl ?_
    have pend : b.e.wpend = true := waits.resolve_right (by simp [asked])
    have on := steady.sound.awake pend
    have bound : slotLeft b + 54 ≤ N := by
      obtain ⟨fetches | ⟨loaded, same⟩, -⟩ | bound := within
      · exact absurd fetches rest
      · exact absurd same (other loaded)
      · exact bound
    by_cases now : b.e.st = .idle ∧ b.e.dz = true
    · have main := @Engine.main_on b.e (b.ports i) quiet.1 quiet.2.1 on
      obtain kept | ⟨-, wfr, state⟩ := (@main_wpend b i).2 pend
      · rw [main, Engine.act_idle now.1, if_pos now.2, Engine.slot] at kept
        simp [pend] at kept
      · have state : (b.step i).e.st = .rdlo := state
        have left : frameLeft (b.step i) = 51 := by rw [frameLeft, state]
        have working : ¬ Stalled b i := by simp [Stalled, now.1]
        refine ⟨52, by rw [if_neg working]; omega, .inl ⟨.inl ⟨wfr, .inl state⟩, by omega⟩⟩
    · have left := slotLeft_step steady quiet on (by
        obtain busy | counting := not_and_or.mp now
        · exact .inl busy
        · exact .inr (by simpa using counting))
      exact ⟨slotLeft (b.step i) + 54, by omega, .inr (Nat.le_refl _)⟩
  | fetching id held fetches alone =>
    refine .inl (in_flight ?_ (Due.step_fetching steady undisturbed id held fetches alone).2)
    rintro idle
    simp [Fetching, idle] at fetches
  | loaded id known held loads alone =>
    obtain ⟨⟨-, flight⟩, shift⟩ | past := Due.step_loaded steady undisturbed id known held loads alone
    · exact .inl (in_flight (by simp [shift]) flight)
    · exact .inr past.2

theorem Due.arrives {N : Nat} (steady : Steady b) (due : Due r word b) (asked : b.wrP = false)
    (along : sequencer.Along Quiet b edges) (within : Within r N b) (enough : N ≤ worked b edges) :
    own r (sequencer.emitted b edges) = [⟨frameBits word, false, some r⟩] := by
  induction edges generalizing b N with
  | nil =>
    have := within.frame
    rw [worked] at enough
    omega
  | cons i edges ih =>
    obtain ⟨quiet, rest⟩ := along
    rw [worked] at enough
    have head : sequencer.emitted b (i :: edges) = (b.sent i).toList ++ sequencer.emitted (b.step i) edges := rfl
    rw [head]
    obtain ⟨next, other⟩ | ⟨past, sent⟩ := due.step steady (quiet_undisturbed quiet)
    · rw [own_cons other]
      obtain ⟨M, bound, within⟩ | sent := due.closer steady asked quiet within
      · exact ih steady.step next (held_step (by simp [quiet.2.2])).2.2 rest within (by omega)
      · exact absurd rfl (other _ sent)
    · have none := @Past.run (b.step i) r edges steady.step past
      rw [own] at none
      rw [sent, own, Option.toList_some, List.filter_append, none]
      simp

theorem within_bound (steady : Steady b) : Within r 65640 b := by
  have small := steady.sound.small
  have frame := frameLeft_le b
  refine .inr ?_
  rw [slotLeft]
  split <;> omega

theorem Due.sent (steady : Steady b) (due : Due r word b) (along : sequencer.Along Quiet b edges)
    (enough : 65641 ≤ worked b edges) : own r (sequencer.emitted b edges) = [⟨frameBits word, false, some r⟩] := by
  cases edges with
  | nil => exact nomatch enough
  | cons i edges =>
    obtain ⟨quiet, rest⟩ := along
    rw [worked] at enough
    have head : sequencer.emitted b (i :: edges) = (b.sent i).toList ++ sequencer.emitted (b.step i) edges := rfl
    rw [head]
    have asked := (@held_step b i (by simp [quiet.2.2])).2.2
    obtain ⟨next, other⟩ | ⟨past, sent⟩ := due.step steady (quiet_undisturbed quiet)
    · rw [own_cons other]
      exact next.arrives steady.step asked rest (within_bound steady.step) (by split at enough <;> omega)
    · have none := @Past.run (b.step i) r edges steady.step past
      rw [own] at none
      rw [sent, own, Option.toList_some, List.filter_append, none]
      simp

end Progress

end BenchPod.DacStream
