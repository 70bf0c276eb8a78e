import BenchPod.Dap.Plan
import BenchPod.Dap.Recording

/-!
# What a packet needs, and what it spends

A packet needs its operations once each, a match-value read tried once among them.  One by one, every
transfer beyond these is a retry that has taken one from the budget.
-/

namespace BenchPod.Dap

def Wire.isTransfer : Wire → Bool
  | .transfer _ => true
  | _ => false

/-- The transfers sent so far. -/
def State.sent (d : State) : Nat := d.seen.countP Wire.isTransfer

/-- The operation that a step issues. -/
def Act.op? : Act → Option Op
  | .issue _ _ request value _ => some (Op.of request value)
  | _ => none

def Plan.ops (plan : Plan) : List Op := plan.acts.filterMap Act.op?

/-- The operation that finishes a posted read. -/
def flushOps (posted : Bool) : List Op := if posted then [Op.of rdbuffRead 0] else []

/-- The operations of a match-value read. -/
def matchOps (request : Byte) : List Op :=
  if isAp request then [Op.of request 0, Op.of rdbuffRead 0] else [Op.of request 0]

/-- The operations of a DAP_Transfer, each once. -/
def transferOps (req : Request) : Nat → Nat → Nat → Bool → List Op
  | 0, _, _, posted => flushOps posted
  | more + 1, p, rp, posted =>
    if req.len ≤ p then flushOps posted
    else if packetSize < rp + 12 then flushOps posted
    else
      let request := req.byte p
      let next := if posted then rp + 4 else rp
      if isRead request then
        if isMatchValue request then
          flushOps posted ++
            if req.len < p + 5 then []
            else matchOps request ++ transferOps req more (p + 5) next false
        else if isAp request then Op.of request 0 :: transferOps req more (p + 1) next true
        else flushOps posted ++ Op.of request 0 :: transferOps req more (p + 1) (next + 4) false
      else
        flushOps posted ++
          if req.len < p + 5 then []
          else if isMatchMask request then transferOps req more (p + 5) next false
          else Op.of request (req.word (p + 1)) :: transferOps req more (p + 5) next false

/-- The operations that a packet needs, each once. -/
def Packet.needs (p : Packet) : List Op :=
  if p.req.len = 0 ∨ p.respCap < packetSize then []
  else
    match (p.req.byte 0).toNat with
    | 0x05 => transferOps p.req (p.req.byteOr 2).toNat 3 3 false
    | 0x06 =>
      if p.req.len < 5 ∨ p.req.half 2 = 0 then []
      else (Plan.block p.req (p.req.byte 4) (p.req.half 2)).ops
    | 0x08 => if 6 ≤ p.req.len then [Op.of abortWrite (p.req.word 2)] else []
    | _ => []

variable {t : Target} {req : Request} {d : State} {l : Loop} {request : Byte} {value : Word}
  {c c' p rp more total : Nat} {posted : Bool}

/-! ## One by one -/

/-- The transfers sent and what is left of the budget come to no more than a number. -/
structure Within (c : Nat) (d : State) : Prop where
  off : d.recording = false
  paid : d.sent + d.budget ≤ c

theorem sent_transfer (seen : List Wire) (op : Op) :
    (seen ++ [Wire.transfer op]).countP Wire.isTransfer = seen.countP Wire.isTransfer + 1 := by
  rw [List.countP_append]
  rfl

theorem xferTry_paid (op : Op) (retry : Nat) (d : State) :
    (State.xferTry t op retry d).1.sent + (State.xferTry t op retry d).1.budget = d.sent + d.budget + 1 := by
  induction retry generalizing d with
  | zero =>
    simp only [State.xferTry, State.swdLlTransfer, State.sent, sent_transfer]
    omega
  | succ retry ih =>
    simp only [State.xferTry]
    split
    · simp only [State.swdLlTransfer, State.sent, sent_transfer]
      omega
    · next again =>
        have left : d.budget ≠ 0 := fun none => again (.inr none)
        rw [ih]
        simp only [State.swdLlTransfer, State.sent, sent_transfer]
        omega

namespace Within

theorem mono (le : c ≤ c') (within : Within c d) : Within c' d := ⟨within.off, Nat.le_trans within.paid le⟩

theorem xfer (t : Target) (request : Byte) (value : Word) (within : Within c d) :
    Within (c + 1) (d.xfer t request value).1 := by
  obtain ⟨off, paid⟩ := within
  obtain ⟨count, budget, shape⟩ := xferTry_seen t (Op.of request value) d.settings.waitRetry d
  have spent := @xferTry_paid t (Op.of request value) d.settings.waitRetry d
  have off' : (State.xferTry t (Op.of request value) d.settings.waitRetry d).1.recording = false := by
    rw [shape]
    exact off
  simp only [State.xfer, if_neg (Bool.eq_false_iff.mp off)]
  split
  · refine ⟨off', ?_⟩
    simp only [State.answerOk]
    change (State.xferTry t (Op.of request value) d.settings.waitRetry d).1.sent + _ ≤ _
    omega
  · exact ⟨off', by omega⟩

theorem store (rp : Nat) (value : Word) (within : Within c d) : Within c (d.store rp value) := by
  rw [State.store, if_neg (Bool.eq_false_iff.mp within.off)]
  exact ⟨within.off, within.paid⟩

theorem setCur (count rp : Nat) (within : Within c d) : Within c (d.setCur count rp) := ⟨within.off, within.paid⟩

theorem acts (acts : List Act) (within : Within c d) :
    Within (c + (acts.filterMap Act.op?).length) (d.acts t acts).1 := by
  induction acts generalizing c d with
  | nil => exact within
  | cons act acts ih =>
    cases act with
    | cur count rp => exact ih (within.setCur count rp)
    | mask mask =>
      have masked : Within c (d.setMask mask) := ⟨within.off, within.paid⟩
      exact ih masked
    | issue count rp request value keep =>
      have sent := within.xfer t request value
      have behind : c + 1 + (acts.filterMap Act.op?).length =
          c + ((Act.issue count rp request value keep :: acts).filterMap Act.op?).length := by
        exact (Nat.add_right_comm ..).trans (Nat.add_assoc ..)
      rw [State.acts, ← behind]
      split
      · split
        · exact ih (sent.store rp _)
        · exact ih sent
      · exact sent.mono (Nat.le_add_right ..)

end Within

/-- A loop one by one, and where it is. -/
structure At (c p rp : Nat) (posted : Bool) (l : Loop) : Prop where
  within : Within c l.d
  p_eq : l.p = p
  rp_eq : l.rp = rp
  posted_eq : l.postRead = posted

/-- A loop that has stopped finishes no posted read. -/
def Stopped (c : Nat) (l : Loop) : Prop := Within c l.d ∧ (l.postRead = true → l.ack ≠ ackOk)

theorem Stopped.mono (le : c ≤ c') (stopped : Stopped c l) : Stopped c' l := ⟨stopped.1.mono le, stopped.2⟩

namespace At

theorem xfer (t : Target) (request : Byte) (value : Word) (here : At c p rp posted l) :
    (l.xfer t request value).Ends (At (c + 1) p rp posted) (Stopped (c + 1)) := by
  have sent := here.within.xfer t request value
  simp only [Loop.xfer]
  split
  · exact ⟨sent, here.p_eq, here.rp_eq, here.posted_eq⟩
  · next wrong => exact ⟨sent, fun _ => wrong⟩

theorem store (here : At c p rp posted l) : At c p (rp + 4) posted l.store :=
  ⟨here.within.store l.rp l.data, here.p_eq, congrArg (· + 4) here.rp_eq, here.posted_eq⟩

theorem flushPosted (t : Target) (here : At c p rp posted l) :
    (l.flushPosted t).Ends (At (c + (flushOps posted).length) p (if posted then rp + 4 else rp) false)
      (Stopped (c + (flushOps posted).length)) := by
  rw [Loop.flushPosted, here.posted_eq]
  cases posted with
  | false => exact here
  | true =>
    refine (here.xfer t rdbuffRead 0).andThen fun l here => ?_
    exact ⟨here.store.within, here.store.p_eq, here.store.rp_eq, rfl⟩

theorem matchReads {retry : Nat} (here : At c p rp posted l) :
    (Loop.matchReads t request value retry l).Ends (At (c + 1) p rp posted) (Stopped (c + 1)) := by
  induction retry generalizing l with
  | zero =>
    rw [Loop.matchReads]
    exact (here.xfer t _ 0).andThen fun _ here => here
  | succ retry ih =>
    rw [Loop.matchReads]
    refine (here.xfer t _ 0).andThen fun l here => ?_
    simp only
    split
    · exact here
    · next again =>
        have left : l.d.budget ≠ 0 := fun none => again (.inr none)
        have paid : l.d.sent + l.d.budget ≤ c + 1 := here.within.paid
        apply ih
        refine ⟨⟨here.within.off, ?_⟩, here.p_eq, here.rp_eq, here.posted_eq⟩
        change l.d.sent + (l.d.budget - 1) ≤ c
        omega

theorem matchRead (long : ¬ req.len < p + 4) (here : At c p rp posted l) :
    (l.matchRead t req request).Ends (At (c + (matchOps request).length) (p + 4) rp posted)
      (Stopped (c + (matchOps request).length)) := by
  have past : At c (p + 4) rp posted { l with p := l.p + 4 } :=
    ⟨here.within, congrArg (· + 4) here.p_eq, here.rp_eq, here.posted_eq⟩
  simp only [Loop.matchRead]
  rw [if_neg (by rw [here.p_eq]; exact long), matchOps]
  have tried (c : Nat) (l : Loop) (value : Word) (here : At c (p + 4) rp posted l) :
      ((Loop.matchReads t request value l.d.settings.matchRetry l).andThen fun l =>
        if l.data &&& l.d.settings.matchMask ≠ value then .next { l with ack := l.ack ||| xferMatchValue }
        else .next l).Ends (At (c + 1) (p + 4) rp posted) (Stopped (c + 1)) := by
    refine here.matchReads.andThen fun l here => ?_
    split
    · exact ⟨here.within, here.p_eq, here.rp_eq, here.posted_eq⟩
    · exact here
  by_cases ap : isAp request = true
  · rw [if_pos ap, if_pos ap]
    refine ((past.xfer t request 0).imp (fun _ => id) fun _ stopped => stopped.mono ?_).andThen ?_
    · exact Nat.le_succ _
    · exact fun l here => tried (c + 1) l _ here
  · rw [if_neg ap, if_neg ap, Flow.next_andThen]
    exact tried c _ _ past

end At

/-- What is still to be done is within a number. -/
def Owes (req : Request) (more total : Nat) (l : Loop) : Prop :=
  ∃ c p rp posted, At c p rp posted l ∧ c + (transferOps req more p rp posted).length ≤ total

/-- The loop has stopped, or only the posted read is left. -/
def Over (req : Request) (total : Nat) (l : Loop) : Prop := Stopped total l ∨ Owes req 0 total l

theorem At.owes (here : At c p rp posted l)
    (le : c + (transferOps req more p rp posted).length ≤ total) : Owes req more total l :=
  ⟨c, p, rp, posted, here, le⟩

namespace At

variable {second : Loop → Flow Loop} {Next : Loop → Prop}

theorem xfer_then (t : Target) (request : Byte) (value : Word) (here : At c p rp posted l) (le : c + 1 ≤ total)
    (rest : ∀ l, At (c + 1) p rp posted l → (second l).Ends Next (Over req total)) :
    ((l.xfer t request value).andThen second).Ends Next (Over req total) :=
  ((here.xfer t request value).imp (fun _ => id) fun _ stopped => .inl (stopped.mono le)).andThen rest

theorem flush_then (t : Target) (here : At c p rp posted l) (le : c + (flushOps posted).length ≤ total)
    (rest : ∀ l, At (c + (flushOps posted).length) p (if posted then rp + 4 else rp) false l →
      (second l).Ends Next (Over req total)) :
    ((l.flushPosted t).andThen second).Ends Next (Over req total) :=
  ((here.flushPosted t).imp (fun _ => id) fun _ stopped => .inl (stopped.mono le)).andThen rest

theorem passed (here : At c p rp false l) (le : c ≤ total) : Over req total l := by
  refine .inl ⟨here.within.mono le, fun on => ?_⟩
  cases here.posted_eq.symm.trans on

theorem finishPosted_flush (plain : (isAp request && !isMatchValue request) = false) :
    l.finishPosted t request = l.flushPosted t := by
  rw [Loop.finishPosted, Loop.flushPosted, plain]
  rfl

/-- A read of a DAP_Transfer. -/
theorem readOne (here : At c (p + 1) rp posted l) (inside : ¬ req.len ≤ p) (room : ¬ packetSize < rp + 12)
    (read : isRead (req.byte p) = true)
    (le : c + (transferOps req (more + 1) p rp posted).length ≤ total) :
    (l.readOne t req (req.byte p)).Ends (Owes req more total) (Over req total) := by
  rw [transferOps, if_neg inside, if_neg room] at le
  simp only [if_pos read] at le
  rw [Loop.readOne]
  cases matched : isMatchValue (req.byte p) with
  | true =>
    rw [if_pos matched, List.length_append] at le
    rw [finishPosted_flush (by rw [matched, Bool.not_true, Bool.and_false])]
    refine here.flush_then t (by omega) fun l here => ?_
    rw [if_pos rfl]
    by_cases short : req.len < p + 5
    · rw [Loop.matchRead, if_pos (by rw [here.p_eq]; omega)]
      exact here.passed (by omega)
    · rw [if_neg short, List.length_append] at le
      refine (here.matchRead (by omega)).imp (fun l here => ?_) fun l stopped => .inl (stopped.mono (by omega))
      have past : At _ (p + 5) _ false l := here
      exact past.owes (by omega)
  | false =>
    rw [if_neg (Bool.eq_false_iff.mp matched)] at le
    simp only [Bool.false_eq_true, if_false]
    cases ap : isAp (req.byte p) with
    | true =>
      rw [if_pos ap, List.length_cons] at le
      simp only [if_true]
      cases posted with
      | false =>
        simp only [Bool.false_eq_true, if_false] at le
        have nothing : l.finishPosted t (req.byte p) = .next l := by
          rw [Loop.finishPosted, here.posted_eq]
          rfl
        rw [nothing, Flow.next_andThen, here.posted_eq]
        refine here.xfer_then t _ 0 (by omega) fun l here => ?_
        have first : At (c + 1) (p + 1) rp true { l with postRead := true } := ⟨here.within, here.p_eq, here.rp_eq, rfl⟩
        exact first.owes (by omega)
      | true =>
        simp only [if_true] at le
        have finished : l.finishPosted t (req.byte p) = (l.xfer t (req.byte p) 0).andThen fun l => .next l.store := by
          rw [Loop.finishPosted, here.posted_eq, ap, matched]
          rfl
        rw [finished, Flow.andThen_assoc]
        refine here.xfer_then t _ 0 (by omega) fun l here => ?_
        have next := here.store
        simp only [Flow.next_andThen, if_pos next.posted_eq]
        exact next.owes (by omega)
    | false =>
      rw [if_neg (Bool.eq_false_iff.mp ap), List.length_append, List.length_cons] at le
      simp only [Bool.false_eq_true, if_false]
      rw [finishPosted_flush (by rw [ap, Bool.false_and])]
      refine here.flush_then t (by omega) fun l here => here.xfer_then t _ 0 (by omega) fun l here => ?_
      exact here.store.owes (by omega)

theorem writeOne (here : At c (p + 1) rp posted l) (inside : ¬ req.len ≤ p) (room : ¬ packetSize < rp + 12)
    (write : isRead (req.byte p) = false)
    (le : c + (transferOps req (more + 1) p rp posted).length ≤ total) :
    (l.writeOne t req (req.byte p)).Ends (Owes req more total) (Over req total) := by
  rw [transferOps, if_neg inside, if_neg room] at le
  simp only [if_neg (Bool.eq_false_iff.mp write), List.length_append] at le
  rw [Loop.writeOne]
  refine here.flush_then t (by omega) fun l here => ?_
  simp only
  by_cases short : req.len < p + 5
  · rw [if_pos (by rw [here.p_eq]; omega)]
    exact here.passed (by omega)
  · rw [if_neg short] at le
    rw [if_neg (by rw [here.p_eq]; omega)]
    have past : At (c + (flushOps posted).length) (p + 5) (if posted then rp + 4 else rp) false
        { l with p := l.p + 4 } := ⟨here.within, congrArg (· + 4) here.p_eq, here.rp_eq, here.posted_eq⟩
    split
    · next mask =>
        rw [if_pos mask] at le
        have masked : At (c + (flushOps posted).length) (p + 5) (if posted then rp + 4 else rp) false
            { l with d := l.d.setMask (req.word l.p), p := l.p + 4 } :=
          ⟨⟨here.within.off, here.within.paid⟩, past.p_eq, past.rp_eq, past.posted_eq⟩
        exact masked.owes (by omega)
    · next plain =>
        rw [if_neg plain, List.length_cons] at le
        exact (past.xfer t _ _).imp (fun l here => here.owes (by omega)) fun l stopped =>
          .inl (stopped.mono (by omega))

end At

/-- A request of a DAP_Transfer. -/
theorem Owes.transferOne (owes : Owes req (more + 1) total l) :
    (l.transferOne t req).Ends (Owes req more total) (Over req total) := by
  obtain ⟨c, p, rp, posted, here, le⟩ := owes
  have ends : req.len ≤ p ∨ packetSize < rp + 12 → Over req total l := by
    intro ends
    refine .inr ⟨c, p, rp, posted, here, ?_⟩
    change c + (flushOps posted).length ≤ total
    rw [transferOps] at le
    obtain ended | full := ends
    · rw [if_pos ended] at le
      exact le
    · rw [if_pos full, ite_self] at le
      exact le
  rw [Loop.transferOne]
  split
  · next ended => exact ends (.inl (here.p_eq ▸ ended))
  · next inside =>
      split
      · next full => exact ends (.inr (here.rp_eq ▸ full))
      · next room =>
          rw [here.p_eq] at inside
          rw [here.rp_eq] at room
          have noted : At c (p + 1) rp posted { l with d := l.d.setCur l.count l.rp, p := l.p + 1 } :=
            ⟨here.within.setCur l.count l.rp, congrArg (· + 1) here.p_eq, here.rp_eq, here.posted_eq⟩
          simp only [here.p_eq]
          have counted (l : Loop) (owes : Owes req more total l) :
              Owes req more total { l with count := l.count + 1 } := by
            obtain ⟨c, p, rp, posted, here, le⟩ := owes
            exact ⟨c, p, rp, posted, ⟨here.within, here.p_eq, here.rp_eq, here.posted_eq⟩, le⟩
          have one : (if isRead (req.byte p)
              then ({ l with d := l.d.setCur l.count l.rp, p := p + 1 } : Loop).readOne t req (req.byte p)
              else ({ l with d := l.d.setCur l.count l.rp, p := p + 1 } : Loop).writeOne t req
                (req.byte p)).Ends (Owes req more total) (Over req total) := by
            rw [here.p_eq] at noted
            split
            · next read => exact noted.readOne inside room read le
            · next write => exact noted.writeOne inside room (Bool.eq_false_iff.mpr write) le
          exact one.andThen fun l owes => counted l owes

theorem Over.transferEnd (passed : Over req total l) : Within total (l.transferEnd t).d := by
  simp only [Loop.transferEnd]
  obtain stopped | ⟨c, p, rp, posted, here, le⟩ := passed
  · rw [if_neg]
    · exact stopped.1.setCur l.count l.rp
    · rintro both
      rw [Bool.and_eq_true, beq_iff_eq] at both
      exact stopped.2 both.1 both.2
  · have noted : At c p rp posted { l with d := l.d.setCur l.count l.rp } :=
      ⟨here.within.setCur l.count l.rp, here.p_eq, here.rp_eq, here.posted_eq⟩
    cases posted with
    | false =>
      rw [here.posted_eq]
      exact noted.within.mono (by omega)
    | true =>
      have le : c + 1 ≤ total := le
      split
      · have last : ((({ l with d := l.d.setCur l.count l.rp } : Loop).xfer t rdbuffRead 0).andThen
            fun l => .next l.store).Ends (At (c + 1) p (rp + 4) true) (Stopped (c + 1)) :=
          (noted.xfer t rdbuffRead 0).andThen fun l here => here.store
        obtain here | stopped := last.state
        · exact here.within.mono le
        · exact stopped.1.mono le
      · exact noted.within.mono (by omega)

theorem Owes.transfers (owes : Owes req more total l) : Within total (l.transfers t req more).d := by
  have loop : (Flow.times (fun l => l.transferOne t req) more l).Ends (Owes req 0 total) (Over req total) := by
    induction more generalizing l with
    | zero => exact owes
    | succ more ih =>
      rw [Flow.times]
      exact owes.transferOne.andThen fun l owes => ih owes
  rw [Loop.transfers]
  obtain owes | passed := loop.state
  · exact Over.transferEnd (.inr owes)
  · exact passed.transferEnd

/-! ## A plan's operations -/

theorem Plan.ops_issue (count rp : Nat) (request : Byte) (value : Word) (keep : Bool) (plan : Plan) :
    (plan.after (.issue count rp request value keep)).ops = Op.of request value :: plan.ops := rfl

theorem Plan.ops_cur (count rp : Nat) (plan : Plan) : (plan.after (.cur count rp)).ops = plan.ops := rfl

theorem Plan.ops_mask (mask : Word) (plan : Plan) : (plan.after (.mask mask)).ops = plan.ops := rfl

theorem Plan.finish_ops (rp count : Nat) (ack : Byte) (posted : Bool) :
    (Plan.finish rp count ack posted).ops = flushOps posted := by
  cases posted with
  | false => rfl
  | true => rfl

theorem Plan.flush_ops (rp count : Nat) (posted : Bool) (plan : Plan) :
    (Plan.flush rp count posted plan).ops = flushOps posted ++ plan.ops := by
  cases posted with
  | false => rfl
  | true => rfl

/-- A DAP_Transfer without match-value reads plans what it needs. -/
theorem Plan.transfers_ops {count : Nat} {ack : Byte} (noMatch : State.matchReadFrom req more p = false) :
    (Plan.transfers req more p rp count ack posted).ops = transferOps req more p rp posted := by
  induction more generalizing p rp count ack posted with
  | zero => exact Plan.finish_ops rp count ack posted
  | succ more ih =>
    rw [Plan.transfers, transferOps]
    by_cases ended : req.len ≤ p
    · rw [if_pos ended, if_pos ended, Plan.finish_ops]
    · rw [if_neg ended, if_neg ended]
      by_cases full : packetSize < rp + 12
      · rw [if_pos full, if_pos full, Plan.finish_ops]
      · rw [if_neg full, if_neg full]
        rw [State.matchReadFrom, if_pos (Nat.lt_of_not_le ended)] at noMatch
        simp only [Plan.ops_cur]
        cases read : isRead (req.byte p) with
        | true =>
          cases plain : isMatchValue (req.byte p) with
          | true => simp [read, plain] at noMatch
          | false =>
            simp only [read, plain, Bool.and_false, Bool.not_true, Bool.or_false, Bool.false_eq_true, if_false] at noMatch
            simp only [if_true, Bool.false_eq_true, if_false]
            cases ap : isAp (req.byte p) with
            | true =>
              simp only [if_true]
              rw [Plan.ops_issue, ih noMatch]
            | false =>
              simp only [Bool.false_eq_true, if_false]
              rw [Plan.flush_ops, Plan.ops_issue, ih noMatch]
        | false =>
          simp only [read, Bool.false_and, Bool.not_false, Bool.true_or, Bool.false_eq_true, if_false,
            if_true] at noMatch ⊢
          rw [Plan.flush_ops]
          apply congrArg
          split
          · exact Plan.finish_ops ..
          · split
            · rw [Plan.ops_mask, ih noMatch]
            · rw [Plan.ops_issue, ih noMatch]

end BenchPod.Dap
