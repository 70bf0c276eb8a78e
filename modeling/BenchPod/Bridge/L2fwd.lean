import BenchPod.Library.Emitter
import BenchPod.Library.Word
import Mathlib.Data.List.Induction

/-!
# The forwarding rules of the bridge

`l2fwd.c` decides for every frame whether the bridge passes it on between its cable and its radio.  It
learns the address of the pod from control frames on the cable only, forwards for that address only,
and forgets that the pod is there when the cable goes down.
-/

namespace BenchPod

/-- An Ethernet address. -/
abbrev Mac := Vector Byte 6

namespace Mac

def zero : Mac := Vector.replicate 6 0

def l2IsMulticast (mac : Mac) : Bool := mac[0].getLsbD 0

/-- The address at an offset of a frame. -/
def at_ (frame : List Byte) (offset : Nat) : Mac := Vector.ofFn fun i => frame.getD (offset + i) 0

end Mac

def bwpEthertype : Half := 0x88b5

def ethertype (frame : List Byte) : Half := frame.getD 12 0 ++ frame.getD 13 0

/-- `l2_action_t`. -/
inductive L2Action
  | drop
  | forward
  | control
  deriving DecidableEq

/-- `l2_event_t`. -/
inductive L2Event
  | none
  | learned
  | changed
  deriving DecidableEq

/-- `l2_why_t`. -/
inductive L2Why
  | none
  | runt
  | badSrc
  | ownSrc
  | otherMac
  | notForPod
  | control
  | toBridge
  | noPod
  | wifiDown
  | reflected
  deriving DecidableEq

/-- `l2fwd_t`; the default is what `l2fwd_init` leaves. -/
structure L2fwd where
  bridgeMac : Mac
  podMac : Mac := Mac.zero
  podKnown : Bool := false
  relearn : Bool := false
  lastWhy : L2Why := .none
  deriving DecidableEq

/-- What is decided about a frame. -/
structure Verdict where
  action : L2Action
  event : L2Event := .none
  deriving DecidableEq

namespace L2fwd

section Definitions

variable (s : L2fwd) (frame : List Byte)

def drop (why : L2Why) : L2fwd × Verdict := ({ s with lastWhy := why }, ⟨.drop, .none⟩)

def l2fwdLinkDown : L2fwd := { s with relearn := true }

/-- What a control frame teaches, and the event for its caller. -/
def learn (src : Mac) : L2fwd × L2Event :=
  if s.podKnown = false ∨ s.relearn then
    let event : L2Event :=
      if s.podKnown = false then .learned else if s.podMac ≠ src then .changed else .none
    ({ s with podMac := src, podKnown := true, relearn := false }, event)
  else (s, .none)

/-- `l2fwd_from_eth`, with a place for the event. -/
def l2fwdFromEth (wifiUp : Bool) : L2fwd × Verdict :=
  let dst := Mac.at_ frame 0
  let src := Mac.at_ frame 6
  let s := { s with lastWhy := .none }
  if frame.length < 14 then s.drop .runt
  else if src.l2IsMulticast ∨ src = Mac.zero then s.drop .badSrc
  else if src = s.bridgeMac then s.drop .ownSrc
  else if ethertype frame = bwpEthertype then
    if dst ≠ s.bridgeMac ∧ dst.l2IsMulticast = false then s.drop .control
    else
      let (s, event) := s.learn src
      if src ≠ s.podMac then ({ s with lastWhy := .otherMac }, ⟨.drop, event⟩) else (s, ⟨.control, event⟩)
  else if s.podKnown = false then s.drop .noPod
  else if src ≠ s.podMac then s.drop .otherMac
  else if dst = s.bridgeMac then s.drop .toBridge
  else if wifiUp = false then s.drop .wifiDown
  else (s, ⟨.forward, .none⟩)

def l2fwdFromWifi : L2fwd × Verdict :=
  let dst := Mac.at_ frame 0
  let src := Mac.at_ frame 6
  let s := { s with lastWhy := .none }
  if frame.length < 14 then s.drop .runt
  else if ethertype frame = bwpEthertype then s.drop .control
  else if s.podKnown = false ∨ s.relearn then s.drop .noPod
  else if src = s.podMac then s.drop .reflected
  else if dst.l2IsMulticast ∨ dst = s.podMac then (s, ⟨.forward, .none⟩)
  else s.drop .notForPod

end Definitions

end L2fwd

/-- What the bridge sees. -/
inductive BridgeEvent
  | eth (frame : List Byte) (wifiUp : Bool)
  | wifi (frame : List Byte)
  | linkDown
  deriving DecidableEq

/-- What an event does, and what is decided about its frame. -/
def L2fwd.handle (s : L2fwd) : BridgeEvent → L2fwd × Option Verdict
  | .eth frame wifiUp => (s.l2fwdFromEth frame wifiUp).map id some
  | .wifi frame => (s.l2fwdFromWifi frame).map id some
  | .linkDown => (s.l2fwdLinkDown, none)

/-- The forwarding of the bridge, with its verdicts. -/
def forwarding : Emitter L2fwd BridgeEvent Verdict :=
  ⟨fun s event => (s.handle event).1, fun s event => (s.handle event).2⟩

namespace L2fwd

variable {s : L2fwd} {frame : List Byte} {wifiUp : Bool}

/-- A control frame that the bridge takes: its source is the pod from then on. -/
structure Accepts (s : L2fwd) (frame : List Byte) (after : L2fwd) : Prop where
  control : ethertype frame = bwpEthertype
  pod : after.podMac = Mac.at_ frame 6
  known : after.podKnown = true
  relearn : after.relearn = false
  bridgeMac : after.bridgeMac = s.bridgeMac
  unicast : (Mac.at_ frame 6).l2IsMulticast = false
  nonzero : Mac.at_ frame 6 ≠ Mac.zero
  foreign : Mac.at_ frame 6 ≠ s.bridgeMac

/-- What stands behind a frame of the cable that is forwarded. -/
structure FromPod (s : L2fwd) (frame : List Byte) : Prop where
  plain : ethertype frame ≠ bwpEthertype
  known : s.podKnown = true
  pod : Mac.at_ frame 6 = s.podMac
  away : Mac.at_ frame 0 ≠ s.bridgeMac

/-- What stands behind a frame of the radio that is forwarded. -/
structure ForPod (s : L2fwd) (frame : List Byte) : Prop where
  plain : ethertype frame ≠ bwpEthertype
  known : s.podKnown = true
  shown : s.relearn = false
  other : Mac.at_ frame 6 ≠ s.podMac

theorem learn_event (s : L2fwd) (src : Mac) :
    let event : L2Event := if s.podKnown = false then .learned else if s.podMac ≠ src then .changed else .none
    (event = .none ↔ s.podKnown = true ∧ src = s.podMac) ∧ (event = .learned ↔ s.podKnown = false) := by
  dsimp only
  split
  · rename_i unknown
    simp [unknown]
  · rename_i known
    split
    · rename_i other
      simp [known, Ne.symm other]
    · rename_i same
      simp [known, (not_not.mp same).symm]

/-- A frame of the cable is dropped, forwarded or accepted, and only the last teaches anything. -/
theorem l2fwdFromEth_cases (s : L2fwd) (frame : List Byte) (wifiUp : Bool) :
    (∃ why, s.l2fwdFromEth frame wifiUp = ({ s with lastWhy := why }, ⟨.drop, .none⟩)) ∨
      s.l2fwdFromEth frame wifiUp = ({ s with lastWhy := .none }, ⟨.forward, .none⟩) ∧ s.FromPod frame ∨
      ∃ after event, s.l2fwdFromEth frame wifiUp = (after, ⟨.control, event⟩) ∧ s.Accepts frame after ∧
        (event = .none ↔ s.podKnown = true ∧ after.podMac = s.podMac) ∧
        (event = .learned ↔ s.podKnown = false) := by
  unfold l2fwdFromEth drop
  dsimp only
  split
  · exact .inl ⟨_, rfl⟩
  · split
    · exact .inl ⟨_, rfl⟩
    · rename_i fine
      split
      · exact .inl ⟨_, rfl⟩
      · rename_i foreign
        split
        · rename_i control
          split
          · exact .inl ⟨_, rfl⟩
          · rw [not_or, Bool.not_eq_true] at fine
            unfold learn
            dsimp only
            split
            · have event := learn_event s (Mac.at_ frame 6)
              rw [if_neg (by simp)]
              exact .inr (.inr ⟨_, _, rfl, ⟨control, rfl, rfl, rfl, rfl, fine.1, fine.2, foreign⟩, event⟩)
            · rename_i steady
              rw [not_or, Bool.not_eq_false, Bool.not_eq_true] at steady
              split
              · exact .inl ⟨_, rfl⟩
              · rename_i pod
                have same := not_not.mp pod
                exact .inr (.inr ⟨_, _, rfl, ⟨control, same.symm, steady.1, steady.2, rfl, fine.1, fine.2, foreign⟩,
                  by simp [steady.1], by simp [steady.1]⟩)
        · rename_i plain
          split
          · exact .inl ⟨_, rfl⟩
          · rename_i known
            split
            · exact .inl ⟨_, rfl⟩
            · rename_i pod
              split
              · exact .inl ⟨_, rfl⟩
              · rename_i away
                split
                · exact .inl ⟨_, rfl⟩
                · exact .inr (.inl ⟨rfl, plain, Bool.of_not_eq_false known, not_not.mp pod, away⟩)

theorem l2fwdFromWifi_cases (s : L2fwd) (frame : List Byte) :
    ∃ why verdict, s.l2fwdFromWifi frame = ({ s with lastWhy := why }, verdict) ∧ verdict.event = .none ∧
      verdict.action ≠ .control ∧ (verdict.action = .forward → s.ForPod frame) := by
  unfold l2fwdFromWifi drop
  dsimp only
  split
  · exact ⟨_, _, rfl, rfl, by simp, by simp⟩
  · split
    · exact ⟨_, _, rfl, rfl, by simp, by simp⟩
    · rename_i plain
      split
      · exact ⟨_, _, rfl, rfl, by simp, by simp⟩
      · rename_i shown
        rw [not_or, Bool.not_eq_false, Bool.not_eq_true] at shown
        split
        · exact ⟨_, _, rfl, rfl, by simp, by simp⟩
        · rename_i other
          split
          · exact ⟨_, _, rfl, rfl, by simp, fun _ => ⟨plain, shown.1, shown.2, other⟩⟩
          · exact ⟨_, _, rfl, rfl, by simp, by simp⟩

/-- A control frame with this source was accepted in a run, and then no link-down followed. -/
def Shown (mac : Mac) (events : List BridgeEvent) (src : Mac) (steady : Bool) : Prop :=
  ∃ front frame wifiUp back, events = front ++ .eth frame wifiUp :: back ∧
    ((forwarding.run { bridgeMac := mac } front).l2fwdFromEth frame wifiUp).2.action = .control ∧
    Mac.at_ frame 6 = src ∧ (steady = true → BridgeEvent.linkDown ∉ back)

theorem Shown.later {mac src : Mac} {events : List BridgeEvent} {event : BridgeEvent} {steady : Bool}
    (shown : Shown mac events src steady) (quiet : steady = true → event ≠ .linkDown) :
    Shown mac (events ++ [event]) src steady := by
  obtain ⟨front, frame, wifiUp, back, rfl, accepted, pod, none⟩ := shown
  refine ⟨front, frame, wifiUp, back ++ [event], by simp, accepted, pod, ?_⟩
  intro still member
  obtain earlier | now := List.mem_append.mp member
  · exact none still earlier
  · exact quiet still (List.mem_singleton.mp now).symm

/-- What a run keeps: the pod's address was shown, and is the address of one other station. -/
structure Learned (mac : Mac) (events : List BridgeEvent) (s : L2fwd) : Prop where
  own : s.bridgeMac = mac
  shown : s.podKnown = true → Shown mac events s.podMac !s.relearn
  unicast : s.podKnown = true → s.podMac.l2IsMulticast = false
  nonzero : s.podKnown = true → s.podMac ≠ Mac.zero
  foreign : s.podKnown = true → s.podMac ≠ mac

theorem Learned.marked {mac : Mac} {events : List BridgeEvent} {event : BridgeEvent} {after : L2fwd}
    (learned : Learned mac events s) (bridge : after.bridgeMac = s.bridgeMac)
    (podMac : after.podMac = s.podMac) (known : after.podKnown = s.podKnown)
    (relearn : after.relearn = true ∨ after.relearn = s.relearn ∧ event ≠ .linkDown) :
    Learned mac (events ++ [event]) after := by
  refine ⟨bridge.trans learned.own, ?_, ?_, ?_, ?_⟩
  · intro before
    have shown := learned.shown (known ▸ before)
    rw [podMac]
    obtain down | ⟨same, other⟩ := relearn
    · obtain ⟨front, frame, wifiUp, back, split, accepted, pod, -⟩ := shown
      rw [down]
      exact Shown.later ⟨front, frame, wifiUp, back, split, accepted, pod, by simp⟩ (by simp)
    · rw [same]
      exact shown.later fun _ => other
  · rw [known, podMac]
    exact learned.unicast
  · rw [known, podMac]
    exact learned.nonzero
  · rw [known, podMac]
    exact learned.foreign

theorem Learned.step {mac : Mac} {events : List BridgeEvent} (event : BridgeEvent)
    (learned : Learned mac events (forwarding.run { bridgeMac := mac } events)) :
    Learned mac (events ++ [event]) (forwarding.run { bridgeMac := mac } (events ++ [event])) := by
  rw [Emitter.run_append]
  generalize run : forwarding.run { bridgeMac := mac } events = s at learned ⊢
  show Learned mac _ (s.handle event).1
  cases event with
  | linkDown => exact learned.marked rfl rfl rfl (.inl rfl)
  | wifi frame =>
    obtain ⟨why, verdict, decided, -, -, -⟩ := l2fwdFromWifi_cases s frame
    show Learned mac _ (s.l2fwdFromWifi frame).1
    rw [decided]
    exact learned.marked rfl rfl rfl (.inr ⟨rfl, by simp⟩)
  | eth frame wifiUp =>
    show Learned mac _ (s.l2fwdFromEth frame wifiUp).1
    obtain ⟨why, decided⟩ | ⟨decided, -⟩ | ⟨after, event, decided, accepts, -⟩ := l2fwdFromEth_cases s frame wifiUp
    · rw [decided]
      exact learned.marked rfl rfl rfl (.inr ⟨rfl, by simp⟩)
    · rw [decided]
      exact learned.marked rfl rfl rfl (.inr ⟨rfl, by simp⟩)
    · have foreign := accepts.foreign
      rw [learned.own] at foreign
      rw [decided]
      refine ⟨accepts.bridgeMac.trans learned.own, fun _ => ?_, ?_, ?_, ?_⟩
      · refine ⟨events, frame, wifiUp, [], rfl, ?_, accepts.pod.symm, by simp⟩
        rw [run, decided]
      · exact fun _ => accepts.pod ▸ accepts.unicast
      · exact fun _ => accepts.pod ▸ accepts.nonzero
      · exact fun _ => accepts.pod ▸ foreign

theorem learned_run (mac : Mac) (events : List BridgeEvent) :
    Learned mac events (forwarding.run { bridgeMac := mac } events) := by
  induction events using List.reverseRecOn with
  | nil => exact ⟨rfl, by simp [forwarding, Emitter.run], by simp [forwarding, Emitter.run],
      by simp [forwarding, Emitter.run], by simp [forwarding, Emitter.run]⟩
  | append_singleton events event ih => exact ih.step event

theorem handle_learns (s : L2fwd) (event : BridgeEvent) :
    (s.handle event).1.podMac = s.podMac ∧ (s.handle event).1.podKnown = s.podKnown ∧
        (∀ verdict ∈ (s.handle event).2, verdict.event = .none) ∨
      ∃ frame wifiUp after verdict, event = .eth frame wifiUp ∧
        s.l2fwdFromEth frame wifiUp = (after, ⟨.control, verdict⟩) ∧ s.Accepts frame after ∧
        (verdict = .none ↔ s.podKnown = true ∧ after.podMac = s.podMac) ∧
        (verdict = .learned ↔ s.podKnown = false) := by
  cases event with
  | linkDown => exact .inl ⟨rfl, rfl, by simp [handle]⟩
  | wifi frame =>
    obtain ⟨why, verdict, decided, none, -, -⟩ := l2fwdFromWifi_cases s frame
    have handled : s.handle (.wifi frame) = ({ s with lastWhy := why }, some verdict) :=
      congrArg (Prod.map id some) decided
    rw [handled]
    refine .inl ⟨rfl, rfl, ?_⟩
    intro v member
    rw [← Option.some.inj member]
    exact none
  | eth frame wifiUp =>
    obtain ⟨why, decided⟩ | ⟨decided, -⟩ | ⟨after, event, decided, accepts, events⟩ := l2fwdFromEth_cases s frame wifiUp
    · have handled : s.handle (.eth frame wifiUp) = ({ s with lastWhy := why }, some ⟨.drop, .none⟩) :=
        congrArg (Prod.map id some) decided
      rw [handled]
      refine .inl ⟨rfl, rfl, ?_⟩
      intro v member
      rw [← Option.some.inj member]
    · have handled : s.handle (.eth frame wifiUp) = ({ s with lastWhy := .none }, some ⟨.forward, .none⟩) :=
        congrArg (Prod.map id some) decided
      rw [handled]
      refine .inl ⟨rfl, rfl, ?_⟩
      intro v member
      rw [← Option.some.inj member]
    · exact .inr ⟨frame, wifiUp, after, event, rfl, decided, accepts, events⟩

/-- In every run nothing of the control channel is forwarded; the cable's frames only from the learned
pod and not to the bridge; the radio's only while a control frame was accepted after the last
link-down.  The pod's address is the source of an accepted control frame, and an event says just that
it was set or changed. -/
theorem never_leaks (mac : Mac) (events : List BridgeEvent) :
    let s := forwarding.run { bridgeMac := mac } events
    (∀ frame wifiUp, (s.l2fwdFromEth frame wifiUp).2.action = .forward →
      ethertype frame ≠ bwpEthertype ∧ s.podKnown = true ∧ Mac.at_ frame 6 = s.podMac ∧
        Mac.at_ frame 0 ≠ mac) ∧
    (∀ frame, (s.l2fwdFromWifi frame).2.action = .forward →
      ethertype frame ≠ bwpEthertype ∧ Shown mac events s.podMac true) ∧
    (s.podKnown = true → Shown mac events s.podMac false ∧ s.podMac.l2IsMulticast = false ∧
      s.podMac ≠ Mac.zero ∧ s.podMac ≠ mac) ∧
    (∀ event, (s.handle event).1.podMac ≠ s.podMac ∨ (s.handle event).1.podKnown ≠ s.podKnown →
      ∃ frame wifiUp, event = .eth frame wifiUp ∧ (s.l2fwdFromEth frame wifiUp).2.action = .control ∧
        (s.handle event).1.podMac = Mac.at_ frame 6 ∧ (s.handle event).1.podKnown = true) ∧
    ∀ event, ∀ verdict ∈ (s.handle event).2,
      (verdict.event = .learned ↔ s.podKnown = false ∧ (s.handle event).1.podKnown = true) ∧
      (verdict.event = .changed ↔ s.podKnown = true ∧ (s.handle event).1.podMac ≠ s.podMac) := by
  have learned := learned_run mac events
  generalize forwarding.run { bridgeMac := mac } events = s at learned ⊢
  refine ⟨?_, ?_, ?_, ?_, ?_⟩
  · intro frame wifiUp forwards
    obtain ⟨why, decided⟩ | ⟨-, fromPod⟩ | ⟨after, event, decided, -⟩ := l2fwdFromEth_cases s frame wifiUp
    · rw [decided] at forwards
      cases forwards
    · exact ⟨fromPod.plain, fromPod.known, fromPod.pod, learned.own ▸ fromPod.away⟩
    · rw [decided] at forwards
      cases forwards
  · intro frame forwards
    obtain ⟨why, verdict, decided, -, -, forPod⟩ := l2fwdFromWifi_cases s frame
    rw [decided] at forwards
    have forPod := forPod forwards
    have shown := learned.shown forPod.known
    rw [forPod.shown] at shown
    exact ⟨forPod.plain, shown⟩
  · intro known
    obtain ⟨front, frame, wifiUp, back, split, accepted, pod, -⟩ := learned.shown known
    exact ⟨⟨front, frame, wifiUp, back, split, accepted, pod, by simp⟩, learned.unicast known,
      learned.nonzero known, learned.foreign known⟩
  · intro event moved
    obtain ⟨same, known, -⟩ | ⟨frame, wifiUp, after, verdict, rfl, decided, accepts, -⟩ := handle_learns s event
    · obtain other | other := moved
      · exact absurd same other
      · exact absurd known other
    · refine ⟨frame, wifiUp, rfl, ?_, ?_, ?_⟩
      · rw [decided]
      · show (s.l2fwdFromEth frame wifiUp).1.podMac = _
        rw [decided]
        exact accepts.pod
      · show (s.l2fwdFromEth frame wifiUp).1.podKnown = _
        rw [decided]
        exact accepts.known
  · intro event verdict member
    obtain ⟨same, known, none⟩ | ⟨frame, wifiUp, after, event, rfl, decided, accepts, unmoved, first⟩ :=
      handle_learns s event
    · rw [none verdict member, same, known]
      simp
    · have handled : s.handle (.eth frame wifiUp) = (after, some ⟨.control, event⟩) :=
        congrArg (Prod.map id some) decided
      rw [handled] at member ⊢
      rw [← Option.some.inj member]
      show (event = .learned ↔ s.podKnown = false ∧ after.podKnown = true) ∧
        (event = .changed ↔ s.podKnown = true ∧ after.podMac ≠ s.podMac)
      rw [accepts.known]
      refine ⟨by simpa using first, ?_⟩
      cases event with
      | none =>
        have steady := unmoved.mp rfl
        simp [steady.2]
      | learned => simp [first.mp rfl]
      | changed =>
        have known : s.podKnown = true := Bool.of_not_eq_false fun unknown => by cases first.mpr unknown
        have other : after.podMac ≠ s.podMac := fun same => by cases unmoved.mpr ⟨known, same⟩
        simp [known, other]

end L2fwd
end BenchPod
