import BenchPod.Dap.Kept

/-!
# What a packet asks for

Without match-value reads the loops take no decision on what the target says, but to stop at the first
operation that is not answered OK.  A packet is then a plan: positions noted, operations issued, match
masks set.
-/

namespace BenchPod.Dap

/-- A step of a plan. -/
inductive Act where
  | cur (count rp : Nat)
  | mask (mask : Word)
  /-- An operation, issued at a count and a position; `keep` says whether the word goes there. -/
  | issue (count rp : Nat) (request : Byte) (value : Word) (keep : Bool)

/-- The steps of a packet, and what it answers when all is answered OK. -/
structure Plan where
  acts : List Act
  count : Nat
  rp : Nat
  ack : Byte

/-- A step before a plan. -/
def Plan.after (act : Act) (plan : Plan) : Plan := { plan with acts := act :: plan.acts }

namespace State

variable (t : Target)

/-- The steps of a plan, up to an operation that is not answered OK, with its count, position and ACK. -/
def acts : List Act → State → State × Option (Nat × Nat × Byte)
  | [], d => (d, none)
  | .cur count rp :: rest, d => acts rest (d.setCur count rp)
  | .mask mask :: rest, d => acts rest (d.setMask mask)
  | .issue count rp request value keep :: rest, d =>
    let done := d.xfer t request value
    if done.2.1 = ackOk then acts rest (if keep then done.1.store rp done.2.2 else done.1)
    else (done.1, some (count, rp, done.2.1))

end State

namespace Plan

variable (req : Request)

/-- The trailing posted read. -/
def finish (rp count : Nat) (ack : Byte) (posted : Bool) : Plan :=
  after (.cur count rp) <|
    if posted then after (.issue count rp rdbuffRead 0 true) ⟨[], count, rp + 4, ackOk⟩
    else ⟨[], count, rp, ack⟩

/-- A posted read is finished. -/
def flush (rp count : Nat) (posted : Bool) (plan : Plan) : Plan :=
  if posted then after (.issue count rp rdbuffRead 0 true) plan else plan

/-- A DAP_Transfer without match-value reads. -/
def transfers : Nat → Nat → Nat → Nat → Byte → Bool → Plan
  | 0, _, rp, count, ack, posted => finish rp count ack posted
  | more + 1, p, rp, count, ack, posted =>
    if req.len ≤ p then finish rp count ack posted
    else if packetSize < rp + 12 then finish rp count ack posted
    else
      let request := req.byte p
      after (.cur count rp) <|
        if isRead request then
          if isAp request then
            after (.issue count rp request 0 posted) <|
              transfers more (p + 1) (if posted then rp + 4 else rp) (count + 1) ackOk true
          else
            let next := if posted then rp + 4 else rp
            flush rp count posted <| after (.issue count next request 0 true) <|
              transfers more (p + 1) (next + 4) (count + 1) ackOk false
        else
          let next := if posted then rp + 4 else rp
          let ack := if posted then ackOk else ack
          flush rp count posted <|
            if req.len < p + 5 then finish next count ack false
            else if isMatchMask request then
              after (.mask (req.word (p + 1))) <| transfers more (p + 5) next (count + 1) ack false
            else
              after (.issue count next request (req.word (p + 1)) false) <|
                transfers more (p + 5) next (count + 1) ackOk false

/-- The words of a block read. -/
def blockReads (request : Byte) : Nat → Nat → Nat → Byte → Plan
  | 0, rp, count, ack => ⟨[], count, rp, ack⟩
  | left + 1, rp, count, _ =>
    let rq := if isAp request && left == 0 then rdbuffRead else request
    after (.cur count rp) <| after (.issue count rp rq 0 true) <|
      blockReads request left (rp + 4) (count + 1) ackOk

/-- The words of a block write. -/
def blockWrites (request : Byte) : Nat → Nat → Nat → Nat → Byte → Plan
  | 0, _, rp, count, ack => ⟨[], count, rp, ack⟩
  | more + 1, p, rp, count, ack =>
    if req.len < p + 4 then ⟨[], count, rp, ack⟩
    else
      after (.cur count rp) <| after (.issue count rp request (req.word p) false) <|
        blockWrites request more (p + 4) rp (count + 1) ackOk

/-- A DAP_TransferBlock. -/
def block (request : Byte) (count : Nat) : Plan :=
  if isRead request then
    let words := blockReads request (min count ((packetSize - 4) / 4)) 4 0 ackOk
    after (.cur 0 4) <| if isAp request then after (.issue 0 4 request 0 false) words else words
  else blockWrites req request count 5 4 0 ackOk

end Plan

/-- A loop does what a plan says: the state, up to the position noted, and what it answers. -/
def Loop.Follows (t : Target) (d : State) (plan : Plan) (l : Loop) : Prop :=
  (∃ count rp, l.d = { (d.acts t plan.acts).1 with curCnt := count, curRp := rp }) ∧
    (l.count, l.rp, l.ack) = ((d.acts t plan.acts).2.getD (plan.count, plan.rp, plan.ack))

variable {t : Target} {req : Request} {l : Loop} {d : State} {plan : Plan}

/-! ## The loops follow their plans -/

theorem Loop.Follows.cur {count rp : Nat} (follows : l.Follows t (d.setCur count rp) plan) :
    l.Follows t d (plan.after (.cur count rp)) := follows

theorem Loop.Follows.mask {mask : Word} (follows : l.Follows t (d.setMask mask) plan) :
    l.Follows t d (plan.after (.mask mask)) := follows

/-- What is done after a loop; a loop that stopped has at most its position noted. -/
def Ending (last : Loop → Loop) : Prop :=
  ∀ l, l.ack ≠ ackOk → ∃ count rp, last l = { l with d := { l.d with curCnt := count, curRp := rp } }

theorem Loop.follows_issue {last : Loop → Loop} (ending : Ending last) {request : Byte} {value : Word}
    {keep : Bool} {rest : Loop → Flow Loop}
    (follows : (l.d.xfer t request value).2.1 = ackOk →
      (last (rest
        { l with
          d := (l.d.xfer t request value).1, ack := ackOk
          data := (l.d.xfer t request value).2.2 }).state).Follows t
        (if keep then (l.d.xfer t request value).1.store l.rp (l.d.xfer t request value).2.2
          else (l.d.xfer t request value).1) plan) :
    (last ((l.xfer t request value).andThen rest).state).Follows t l.d
      (plan.after (.issue l.count l.rp request value keep)) := by
  simp only [Loop.xfer, Loop.Follows, Plan.after, State.acts]
  by_cases ok : (l.d.xfer t request value).2.1 = ackOk
  · simp only [if_pos ok, Flow.next_andThen]
    rw [ok]
    exact follows ok
  · simp only [if_neg ok, Flow.stop_andThen, Flow.state]
    obtain ⟨count, rp, eq⟩ := ending { l with
        d := (l.d.xfer t request value).1, ack := (l.d.xfer t request value).2.1
        data := (l.d.xfer t request value).2.2 } ok
    rw [eq]
    exact ⟨⟨count, rp, rfl⟩, rfl⟩

theorem id_ending : Ending id := fun l _ => ⟨l.d.curCnt, l.d.curRp, rfl⟩

theorem transferEnd_ending : Ending (fun l => l.transferEnd t) := by
  intro l wrong
  refine ⟨l.count, some l.rp, ?_⟩
  simp only [Loop.transferEnd, beq_eq_false_iff_ne.mpr wrong, Bool.and_false]
  rfl

theorem Loop.transferEnd_follows (posted : l.postRead = true → l.ack = ackOk) :
    (l.transferEnd t).Follows t l.d (Plan.finish l.rp l.count l.ack l.postRead) := by
  rw [Plan.finish]
  by_cases on : l.postRead = true
  · have flush : (l.postRead && l.ack == ackOk) = true := by
      rw [on, posted on]
      rfl
    simp only [Loop.transferEnd, if_pos flush, if_pos on]
    refine Loop.Follows.cur (Loop.follows_issue (l := { l with d := l.d.setCur l.count l.rp }) id_ending ?_)
    exact fun ok => ⟨⟨_, _, rfl⟩, rfl⟩
  · have flush : ¬ (l.postRead && l.ack == ackOk) = true := by
      rw [Bool.eq_false_iff.mpr on]
      exact Bool.false_ne_true
    simp only [Loop.transferEnd, if_neg flush, if_neg on]
    exact ⟨⟨l.count, some l.rp, rfl⟩, rfl⟩

theorem Loop.follows_flush {last : Loop → Loop} (ending : Ending last) {rest : Loop → Flow Loop}
    (follows : ∀ d data,
      (last (rest
        { l with
          d, data, rp := if l.postRead then l.rp + 4 else l.rp
          ack := if l.postRead then ackOk else l.ack, postRead := false }).state).Follows t d plan) :
    (last ((l.flushPosted t).andThen rest).state).Follows t l.d (Plan.flush l.rp l.count l.postRead plan) := by
  obtain ⟨d, p, rp, count, ack, postRead, data⟩ := l
  cases postRead with
  | false => exact follows d data
  | true =>
    simp only [Loop.flushPosted, Plan.flush, if_true, Flow.andThen_assoc, Flow.next_andThen]
    refine Loop.follows_issue (l := ⟨d, p, rp, count, ack, true, data⟩) ending fun _ => ?_
    exact follows _ _

theorem Loop.finishPosted_dp {request : Byte} (dp : isAp request = false) :
    l.finishPosted t request = l.flushPosted t := by
  rw [Loop.finishPosted, Loop.flushPosted, dp]
  rfl

/-- What follows a request of a DAP_Transfer. -/
def Loop.Rest (t : Target) (req : Request) (more p : Nat) (rest : Loop → Flow Loop) : Prop :=
  ∀ l : Loop, l.p = p → (l.postRead = true → l.ack = ackOk) →
    ((rest l).state.transferEnd t).Follows t l.d
      (Plan.transfers req more p l.rp l.count l.ack l.postRead)

theorem Loop.readAp_follows {more p : Nat} {request : Byte} {rest : Loop → Flow Loop}
    (ap : isAp request = true) (plain : isMatchValue request = false)
    (follows : Loop.Rest t req more p rest) (at_p : l.p = p) :
    (((l.readOne t req request).andThen fun l => rest { l with count := l.count + 1 }).state.transferEnd
      t).Follows t l.d (.after (.issue l.count l.rp request 0 l.postRead)
          (Plan.transfers req more p (if l.postRead then l.rp + 4 else l.rp) (l.count + 1) ackOk true)) := by
  obtain ⟨d, p, rp, count, ack, postRead, data⟩ := l
  cases postRead with
  | false =>
    simp only [Loop.readOne, Loop.finishPosted, ap, plain, Bool.false_eq_true, if_false, if_true,
      Flow.next_andThen, Flow.andThen_assoc]
    refine Loop.follows_issue (l := ⟨d, p, rp, count, ack, false, data⟩) transferEnd_ending fun _ => ?_
    exact follows _ at_p fun _ => rfl
  | true =>
    simp only [Loop.readOne, Loop.finishPosted, ap, plain, Bool.not_false, Bool.and_self, if_true,
      Flow.next_andThen, Flow.andThen_assoc, Bool.false_eq_true, if_false]
    refine Loop.follows_issue (l := ⟨d, p, rp, count, ack, true, data⟩) transferEnd_ending fun _ => ?_
    exact follows _ at_p fun _ => rfl

theorem Loop.readDp_follows {more p : Nat} {request : Byte} {rest : Loop → Flow Loop}
    (dp : isAp request = false) (plain : isMatchValue request = false)
    (follows : Loop.Rest t req more p rest) (at_p : l.p = p) :
    (((l.readOne t req request).andThen fun l => rest { l with count := l.count + 1 }).state.transferEnd
      t).Follows t l.d (Plan.flush l.rp l.count l.postRead <|
          .after (.issue l.count (if l.postRead then l.rp + 4 else l.rp) request 0 true) <|
            Plan.transfers req more p ((if l.postRead then l.rp + 4 else l.rp) + 4) (l.count + 1) ackOk false) := by
  simp only [Loop.readOne, Loop.finishPosted_dp dp, dp, plain, Bool.false_eq_true, if_false,
    Flow.andThen_assoc, Flow.next_andThen]
  refine Loop.follows_flush transferEnd_ending fun d data => ?_
  refine Loop.follows_issue (l := { l with
    d, data, rp := if l.postRead then l.rp + 4 else l.rp
    ack := if l.postRead then ackOk else l.ack, postRead := false }) transferEnd_ending fun _ => ?_
  exact follows _ at_p fun _ => rfl

theorem Loop.write_follows {more p : Nat} {request : Byte} {rest : Loop → Flow Loop}
    (follows : Loop.Rest t req more (p + 4) rest) (at_p : l.p = p) :
    (((l.writeOne t req request).andThen fun l => rest { l with count := l.count + 1 }).state.transferEnd
      t).Follows t l.d (let next := if l.postRead then l.rp + 4 else l.rp
        let ack := if l.postRead then ackOk else l.ack
        Plan.flush l.rp l.count l.postRead <| if req.len < p + 4 then .finish next l.count ack false
          else if isMatchMask request then
            .after (.mask (req.word p)) (Plan.transfers req more (p + 4) next (l.count + 1) ack false)
          else
            .after (.issue l.count next request (req.word p) false)
              (Plan.transfers req more (p + 4) next (l.count + 1) ackOk false)) := by
  subst at_p
  rw [Loop.writeOne, Flow.andThen_assoc]
  refine Loop.follows_flush transferEnd_ending fun d data => ?_
  simp only
  split
  · simp only [Flow.stop_andThen, Flow.state]
    exact Loop.transferEnd_follows fun on => absurd on Bool.false_ne_true
  · split
    · simp only [Flow.next_andThen]
      refine Loop.Follows.mask (follows _ rfl fun on => absurd on Bool.false_ne_true)
    · refine Loop.follows_issue (l := { l with
        d, data, p := l.p + 4, rp := if l.postRead then l.rp + 4 else l.rp
        ack := if l.postRead then ackOk else l.ack, postRead := false }) transferEnd_ending fun _ => ?_
      exact follows _ rfl fun _ => rfl

/-- A DAP_Transfer without match-value reads follows its plan. -/
theorem Loop.transfers_follows {more : Nat} (posted : l.postRead = true → l.ack = ackOk)
    (noMatch : State.matchReadFrom req more l.p = false) :
    (l.transfers t req more).Follows t l.d (Plan.transfers req more l.p l.rp l.count l.ack l.postRead) := by
  induction more generalizing l with
  | zero => exact Loop.transferEnd_follows posted
  | succ more ih =>
    rw [Loop.transfers, Flow.times, Loop.transferOne, Plan.transfers]
    by_cases ended : req.len ≤ l.p
    · rw [if_pos ended, if_pos ended]
      exact Loop.transferEnd_follows posted
    · rw [if_neg ended, if_neg ended]
      by_cases full : packetSize < l.rp + 12
      · rw [if_pos full, if_pos full]
        exact Loop.transferEnd_follows posted
      · rw [if_neg full, if_neg full]
        have rest (p : Nat) (noMatch : State.matchReadFrom req more p = false) :
            Loop.Rest t req more p (Flow.times (fun l => l.transferOne t req) more) := by
          rintro l rfl posted
          exact ih posted noMatch
        rw [State.matchReadFrom, if_pos (Nat.lt_of_not_le ended)] at noMatch
        simp only [Flow.andThen_assoc, Flow.next_andThen]
        refine Loop.Follows.cur ?_
        cases read : isRead (req.byte l.p) with
        | true =>
          cases plain : isMatchValue (req.byte l.p) with
          | true => simp [read, plain] at noMatch
          | false =>
            simp only [read, plain, Bool.and_false, Bool.not_true, Bool.or_false, Bool.false_eq_true, if_false] at noMatch
            simp only [if_true]
            cases ap : isAp (req.byte l.p) with
            | true =>
              simp only [if_true]
              exact Loop.readAp_follows (l := { l with d := l.d.setCur l.count l.rp, p := l.p + 1 }) ap plain
                (rest _ noMatch) rfl
            | false =>
              simp only [Bool.false_eq_true, if_false]
              exact Loop.readDp_follows (l := { l with d := l.d.setCur l.count l.rp, p := l.p + 1 }) ap plain
                (rest _ noMatch) rfl
        | false =>
          simp only [read, Bool.false_and, Bool.not_false, Bool.true_or, Bool.false_eq_true, if_false,
            if_true] at noMatch ⊢
          exact Loop.write_follows (l := { l with d := l.d.setCur l.count l.rp, p := l.p + 1 }) (rest _ noMatch) rfl

theorem Loop.blockReads_follows {request : Byte} {left : Nat} :
    (Loop.blockReads t request left l).state.Follows t l.d (Plan.blockReads request left l.rp l.count l.ack) := by
  induction left generalizing l with
  | zero => exact ⟨⟨l.d.curCnt, l.d.curRp, rfl⟩, rfl⟩
  | succ left ih =>
    simp only [Loop.blockReads, Loop.blockReadOne, Plan.blockReads, Flow.andThen_assoc, Flow.next_andThen]
    refine Loop.Follows.cur ?_
    refine Loop.follows_issue (l := { l with d := l.d.setCur l.count l.rp }) id_ending fun _ => ?_
    exact @ih ⟨_, l.p, l.rp + 4, l.count + 1, ackOk, l.postRead, _⟩

theorem Loop.blockWrites_follows {request : Byte} {more : Nat} :
    (Flow.times (fun l => l.blockWriteOne t req request) more l).state.Follows t l.d
      (Plan.blockWrites req request more l.p l.rp l.count l.ack) := by
  induction more generalizing l with
  | zero => exact ⟨⟨l.d.curCnt, l.d.curRp, rfl⟩, rfl⟩
  | succ more ih =>
    rw [Flow.times, Loop.blockWriteOne, Plan.blockWrites]
    split
    · exact ⟨⟨l.d.curCnt, l.d.curRp, rfl⟩, rfl⟩
    · simp only [Flow.andThen_assoc, Flow.next_andThen]
      refine Loop.Follows.cur ?_
      refine Loop.follows_issue (l := { l with d := l.d.setCur l.count l.rp, p := l.p + 4 }) id_ending fun _ => ?_
      exact @ih ⟨_, l.p + 4, l.rp, l.count + 1, ackOk, l.postRead, _⟩

theorem Loop.block_follows {request : Byte} {count : Nat} :
    (({ d, p := 5, rp := 4, ack := ackOk } : Loop).block t req request count).Follows t d
      (Plan.block req request count) := by
  rw [Loop.block, Plan.block]
  split
  · refine Loop.Follows.cur ?_
    split
    · exact Loop.follows_issue (l := ⟨d.setCur 0 4, 5, 4, 0, ackOk, false, 0⟩) id_ending fun _ =>
        Loop.blockReads_follows
    · exact Loop.blockReads_follows
  · exact Loop.blockWrites_follows

end BenchPod.Dap
