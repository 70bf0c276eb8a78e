import BenchPod.Dap.AsSingle
import BenchPod.Dap.Needs
import BenchPod.Dap.Waits

/-!
# The retries of a packet

One by one, WAIT and match-value retries come out of one budget.  A recorded packet's batches take none
from it: each of its operations can have all the WAITs that the host has set.
-/

namespace BenchPod.Dap

/-- What the WAITs of a record can take.  The record is run when it is full, and at its end. -/
def bill (waitRetry : Nat) : List Op → List Op → Nat
  | record, [] => due waitRetry 0 record
  | record, op :: ops =>
    if record.length = recMax then due waitRetry 0 record + bill waitRetry [op] ops
    else bill waitRetry (record ++ [op]) ops

/-- The answers that take it all. -/
def billed (waitRetry : Nat) : List Op → List Op → List Bool
  | record, [] => stalls waitRetry 0 record
  | record, op :: ops =>
    if record.length = recMax then stalls waitRetry 0 record ++ billed waitRetry [op] ops
    else billed waitRetry (record ++ [op]) ops

/-- The packet's operations are recorded, and run in batches. -/
def Batches (d : State) (p : Packet) : Prop :=
  d.batchSupported p.queue = true ∧ (p.req.byte 0 = 0x05 ∧ State.hasMatchRead p.req = false ∨ p.req.byte 0 = 0x06)

variable {t : Target} {d flushed : State} {acts : List Act} {count rp : Nat} {request : Byte} {value : Word}
  {keep : Bool} {waitsAt : Nat → Bool} {waitRetry : Nat} {record ops : List Op}

/-! ## Flushing a record -/

/-- The batch of a record. -/
def State.batch (d : State) (t : Target) : Batch := swdLlBatch t d.settings.batchRetry d.seen (d.ops.map Recorded.op)

theorem recFlush_whole (fine : d.failed = false) (filled : d.ops ≠ [])
    (whole : d.ops.length ≤ (d.batch t).done) :
    ∃ resp, d.recFlush t = ({ d with seen := (d.batch t).seen, resp, ops := [] }, ackOk) := by
  obtain ⟨resp, placed⟩ := placeReads_only_resp (d.ops.take (d.batch t).done) (d.batch t).rdata d
  have beyond : d.ops[(d.batch t).done]? = none := List.getElem?_eq_none whole
  refine ⟨resp, ?_⟩
  rw [State.recFlush, if_neg (Bool.eq_false_iff.mp fine), if_neg filled]
  simp only [State.batch] at beyond placed ⊢
  simp only [beyond, placed]

theorem recFlush_part (fine : d.failed = false) (filled : d.ops ≠ []) (part : (d.batch t).done < d.ops.length) :
    ∃ flushed, d.recFlush t = (flushed, (d.batch t).ack) ∧ flushed.seen = (d.batch t).seen ∧
      flushed.recording = d.recording ∧ flushed.failed = true ∧ flushed.failAck = (d.batch t).ack := by
  obtain ⟨resp, placed⟩ := placeReads_only_resp (d.ops.take (d.batch t).done) (d.batch t).rdata d
  have stopped : d.ops[(d.batch t).done]? = some d.ops[(d.batch t).done] := List.getElem?_eq_getElem part
  rw [State.recFlush, if_neg (Bool.eq_false_iff.mp fine), if_neg filled]
  simp only [State.batch] at stopped placed ⊢
  simp only [stopped, placed]
  exact ⟨_, rfl, rfl, rfl, rfl, rfl⟩

/-! ## Issuing operations to a record -/

theorem acts_room (t : Target) (count rp : Nat) (request : Byte) (value : Word) (keep : Bool) (acts : List Act)
    (on : d.recording = true) (fine : d.failed = false) (room : d.ops.length ≠ recMax) :
    ∃ acked curRp, d.acts t (.issue count rp request value keep :: acts) =
      ({ d with ops := d.ops ++ [d.issued request value rp keep], acked, curRp } : State).acts t acts := by
  obtain ⟨ok, acked, eq⟩ := xfer_recorded t request value rp keep on fine room
  refine ⟨acked, if keep then some (rp + 4) else d.curRp, ?_⟩
  rw [State.acts]
  simp only [if_pos ok]
  rw [eq]

theorem acts_full (on : d.recording = true) (fine : d.failed = false) (full : d.ops.length = recMax)
    (flush : d.recFlush t = (flushed, ackOk)) (on' : flushed.recording = true) (fine' : flushed.failed = false)
    (empty : flushed.ops = []) :
    d.acts t (.issue count rp request value keep :: acts) =
      flushed.acts t (.issue count rp request value keep :: acts) := by
  rw [State.acts, State.acts]
  simp only [xfer_full on fine full flush on' fine' empty]

theorem acts_stop {ack : Byte} (on : d.recording = true) (fine : d.failed = false) (full : d.ops.length = recMax)
    (flush : d.recFlush t = (flushed, ack)) (wrong : ack ≠ ackOk)
    (failAck : flushed.failAck = ack) :
    (d.acts t (.issue count rp request value keep :: acts)).1 = flushed := by
  have stopped : d.xfer t request value = (flushed, flushed.failAck, 0) := by
    rw [State.xfer, if_pos on, if_neg (Bool.eq_false_iff.mp fine), if_pos full, flush]
    exact if_pos wrong
  rw [State.acts]
  simp only [stopped, failAck, if_neg wrong]

/-! ## What a recorded plan sends -/

theorem sent_append (sent : List Op) (seen : List Wire) :
    (seen ++ sent.map Wire.transfer).countP Wire.isTransfer = seen.countP Wire.isTransfer + sent.length := by
  have all : (sent.map Wire.transfer).countP Wire.isTransfer = (sent.map Wire.transfer).length := by
    rw [List.countP_eq_length]
    intro wire mem
    obtain ⟨op, -, rfl⟩ := List.mem_map.mp mem
    rfl
  rw [List.countP_append, all, List.length_map]

theorem batch_sent (t : Target) (few : d.ops.length ≤ recMax) :
    ∃ sent : List Op, (d.batch t).seen = d.seen ++ sent.map Wire.transfer ∧
      sent.length ≤ d.ops.length + due d.settings.batchRetry 0 (d.ops.map Recorded.op) := by
  have few : (d.ops.map Recorded.op).length ≤ recMax := by
    rw [List.length_map]
    exact few
  obtain ⟨sent, seen_eq, le⟩ : ∃ sent : List Op, (d.batch t).seen = d.seen ++ sent.map Wire.transfer ∧
      sent.length ≤ (d.ops.map Recorded.op).length + due d.settings.batchRetry 0 (d.ops.map Recorded.op) :=
    batchLoop_due few (Nat.zero_le _)
  rw [List.length_map] at le
  exact ⟨sent, seen_eq, le⟩

theorem recEnd_seen (t : Target) (d : State) :
    (d.recEnd t).seen = if d.failed ∨ d.ops = [] then d.seen else (d.batch t).seen := by
  cases fine : d.failed with
  | true => rw [if_pos (.inl rfl), State.recEnd, State.recFlush, if_pos fine]
  | false =>
    by_cases empty : d.ops = []
    · rw [if_pos (.inr empty), State.recEnd, State.recFlush, if_neg (Bool.eq_false_iff.mp fine), if_pos empty]
    · rw [if_neg (by simp [empty])]
      obtain part | whole := Nat.lt_or_ge (d.batch t).done d.ops.length
      · obtain ⟨flushed, flush, seen_eq, -⟩ := recFlush_part fine empty part
        rw [State.recEnd, flush]
        exact seen_eq
      · obtain ⟨resp, flush⟩ := recFlush_whole fine empty whole
        rw [State.recEnd, flush]

/-- A recorded plan sends its operations and what the WAITs of its records take, at most. -/
theorem acts_most (acts : List Act) (on : d.recording = true) (fine : d.failed = false)
    (few : d.ops.length ≤ recMax) :
    (d.acts t acts).1.recording = true ∧
      ((d.acts t acts).1.recEnd t).sent ≤ d.sent + d.ops.length + (acts.filterMap Act.op?).length +
        bill d.settings.batchRetry (d.ops.map Recorded.op) (acts.filterMap Act.op?) := by
  induction acts generalizing d with
  | nil =>
    refine ⟨on, ?_⟩
    change (d.recEnd t).sent ≤ _
    rw [State.sent, recEnd_seen]
    obtain ⟨sent, seen_eq, le⟩ := batch_sent t few
    rw [List.filterMap_nil, bill, List.length_nil]
    split
    · change d.sent ≤ _
      omega
    · rw [seen_eq, sent_append]
      change d.sent + _ ≤ _
      omega
  | cons act acts ih =>
    cases act with
    | cur count rp => exact @ih (d.setCur count rp) on fine few
    | mask mask => exact @ih (d.setMask mask) on fine few
    | issue count rp request value keep =>
      have ops_eq : (Act.issue count rp request value keep :: acts).filterMap Act.op? =
          Op.of request value :: acts.filterMap Act.op? := rfl
      rw [ops_eq, bill, List.length_map, List.length_cons]
      by_cases full : d.ops.length = recMax
      · rw [if_pos full]
        have filled : d.ops ≠ [] := by
          intro empty
          rw [empty] at full
          cases full
        obtain ⟨sent, seen_eq, le⟩ := batch_sent t few
        obtain part | whole := Nat.lt_or_ge (d.batch t).done d.ops.length
        · obtain ⟨flushed, flush, seen_eq', on', failed, failAck⟩ := recFlush_part fine filled part
          have wrong : (d.batch t).ack ≠ ackOk := by
            obtain ⟨-, -, -, -, wrong⟩ := swdLlBatch_sends t d.settings.batchRetry d.seen (d.ops.map Recorded.op)
            rw [List.length_map] at wrong
            exact wrong part
          rw [acts_stop on fine full flush wrong failAck]
          refine ⟨on'.trans on, ?_⟩
          rw [State.sent, recEnd_seen, if_pos (.inl failed), seen_eq', seen_eq, sent_append]
          change d.sent + _ ≤ _
          omega
        · obtain ⟨resp, flush⟩ := recFlush_whole fine filled whole
          rw [acts_full on fine full flush on fine rfl]
          obtain ⟨acked, curRp, eq⟩ := acts_room t count rp request value keep acts
            (d := { d with seen := (d.batch t).seen, resp, ops := [] }) on fine (Nat.ne_of_lt (Nat.succ_pos 127))
          rw [eq]
          obtain ⟨on', most⟩ := @ih { d with
              seen := (d.batch t).seen, resp
              ops := [] ++ [({ d with seen := (d.batch t).seen, resp, ops := [] } : State).issued request value rp keep]
              acked, curRp } on fine (by simp [recMax])
          refine ⟨on', Nat.le_trans most ?_⟩
          have sent_eq : (d.batch t).seen.countP Wire.isTransfer = d.sent + sent.length := by
            rw [seen_eq, sent_append]
            rfl
          simp only [State.sent] at sent_eq ⊢
          rw [sent_eq]
          simp only [List.nil_append, List.length_singleton, List.map_cons, List.map_nil, State.issued]
          omega
      · rw [if_neg full]
        obtain ⟨acked, curRp, eq⟩ := acts_room t count rp request value keep acts on fine full
        rw [eq]
        obtain ⟨on', most⟩ := @ih { d with ops := d.ops ++ [d.issued request value rp keep], acked, curRp } on fine (by
            rw [List.length_append, List.length_singleton]
            omega)
        refine ⟨on', Nat.le_trans most (Nat.le_of_eq ?_)⟩
        simp only [State.sent, List.map_append, List.map_cons, List.map_nil, List.length_append,
          List.length_singleton, State.issued]
        omega

theorem batch_stalls (positive : 0 < d.settings.batchRetry) (few : d.ops.length ≤ recMax)
    (scripted : Scripted waitsAt d.seen.length (stalls d.settings.batchRetry 0 (d.ops.map Recorded.op))) :
    ∃ sent : List Op, (d.batch (timed waitsAt)).seen = d.seen ++ sent.map Wire.transfer ∧
      sent.length = (stalls d.settings.batchRetry 0 (d.ops.map Recorded.op)).length ∧
      (d.batch (timed waitsAt)).done = d.ops.length := by
  obtain ⟨sent, seen_eq, -⟩ := batch_sent (timed waitsAt) few
  have few : (d.ops.map Recorded.op).length ≤ recMax := by
    rw [List.length_map]
    exact few
  obtain ⟨length_eq, done_eq⟩ : (d.batch (timed waitsAt)).seen.length =
          d.seen.length + (stalls d.settings.batchRetry 0 (d.ops.map Recorded.op)).length ∧
        (d.batch (timed waitsAt)).done = 0 + (d.ops.map Recorded.op).length :=
    batchLoop_stalls positive few (Nat.zero_le _) (Nat.lt_succ_self _) scripted
  refine ⟨sent, seen_eq, ?_, ?_⟩
  · rw [seen_eq, List.length_append, List.length_map] at length_eq
    omega
  · rw [done_eq, List.length_map, Nat.zero_add]

theorem billed_length (positive : 0 < waitRetry) :
    (billed waitRetry record ops).length = record.length + ops.length + bill waitRetry record ops := by
  induction ops generalizing record with
  | nil => exact stalls_length positive
  | cons op ops ih =>
    rw [billed, bill]
    split
    · rw [List.length_append, stalls_length positive, ih, List.length_singleton, List.length_cons]
      omega
    · rw [ih, List.length_append, List.length_singleton, List.length_cons]
      omega

/-- With these answers a recorded plan sends it all. -/
theorem acts_billed (acts : List Act) (on : d.recording = true) (fine : d.failed = false)
    (few : d.ops.length ≤ recMax) (positive : 0 < d.settings.batchRetry)
    (scripted : Scripted waitsAt d.seen.length
      (billed d.settings.batchRetry (d.ops.map Recorded.op) (acts.filterMap Act.op?))) :
    ∃ sent : List Op,
      ((d.acts (timed waitsAt) acts).1.recEnd (timed waitsAt)).seen = d.seen ++ sent.map Wire.transfer ∧
      sent.length = (billed d.settings.batchRetry (d.ops.map Recorded.op) (acts.filterMap Act.op?)).length := by
  induction acts generalizing d with
  | nil =>
    change ∃ sent : List Op, (d.recEnd (timed waitsAt)).seen = _ ∧ _
    rw [recEnd_seen]
    rw [List.filterMap_nil, billed] at scripted ⊢
    split
    · next ended =>
        obtain failed | empty := ended
        · cases fine.symm.trans failed
        · rw [empty]
          exact ⟨[], (List.append_nil _).symm, rfl⟩
    · obtain ⟨sent, seen_eq, length_eq, -⟩ := batch_stalls positive few scripted
      exact ⟨sent, seen_eq, length_eq⟩
  | cons act acts ih =>
    cases act with
    | cur count rp => exact @ih (d.setCur count rp) on fine few positive scripted
    | mask mask => exact @ih (d.setMask mask) on fine few positive scripted
    | issue count rp request value keep =>
      have ops_eq : (Act.issue count rp request value keep :: acts).filterMap Act.op? =
          Op.of request value :: acts.filterMap Act.op? := rfl
      rw [ops_eq, billed, List.length_map] at scripted ⊢
      by_cases full : d.ops.length = recMax
      · rw [if_pos full] at scripted ⊢
        have filled : d.ops ≠ [] := by
          intro empty
          rw [empty] at full
          cases full
        obtain ⟨now, rest⟩ := scripted_append.mp scripted
        obtain ⟨sent, seen_eq, length_eq, done_eq⟩ := batch_stalls positive few now
        obtain ⟨resp, flush⟩ := recFlush_whole fine filled (Nat.le_of_eq done_eq.symm)
        rw [acts_full on fine full flush on fine rfl]
        obtain ⟨acked, curRp, eq⟩ := acts_room (timed waitsAt) count rp request value keep acts
          (d := { d with seen := (d.batch (timed waitsAt)).seen, resp, ops := [] }) on fine
          (Nat.ne_of_lt (Nat.succ_pos 127))
        have behind : (d.batch (timed waitsAt)).seen.length =
            d.seen.length + (stalls d.settings.batchRetry 0 (d.ops.map Recorded.op)).length := by
          rw [seen_eq, List.length_append, List.length_map, length_eq]
        rw [← behind] at rest
        rw [eq]
        obtain ⟨more, more_eq, more_length⟩ := @ih { d with
            seen := (d.batch (timed waitsAt)).seen, resp
            ops := [] ++ [({ d with seen := (d.batch (timed waitsAt)).seen, resp, ops := [] } : State).issued
              request value rp keep]
            acked, curRp } on fine (by simp [recMax]) positive rest
        refine ⟨sent ++ more, ?_, ?_⟩
        · rw [more_eq]
          simp only [seen_eq, List.map_append, List.append_assoc]
        · rw [List.length_append, List.length_append, length_eq, more_length]
          rfl
      · rw [if_neg full] at scripted ⊢
        obtain ⟨acked, curRp, eq⟩ := acts_room (timed waitsAt) count rp request value keep acts on fine full
        have same : (d.ops ++ [d.issued request value rp keep]).map Recorded.op =
            d.ops.map Recorded.op ++ [Op.of request value] := by
          rw [List.map_append]
          rfl
        rw [← same] at scripted ⊢
        rw [eq]
        refine @ih { d with ops := d.ops ++ [d.issued request value rp keep], acked, curRp } on fine ?_ positive scripted
        rw [List.length_append, List.length_singleton]
        omega

/-! ## Packets -/

variable {l : Loop} {plan : Plan} {p : Packet}

theorem finish_sent (t : Target) (l : Loop) :
    (State.finish t l).d.sent = if l.d.recording then (l.d.recEnd t).sent else l.d.sent := by
  rw [State.finish]
  split
  · simp only
    split <;> rfl
  · rfl

theorem Loop.Follows.ended (follows : l.Follows t d plan) :
    l.d.recording = (d.acts t plan.acts).1.recording ∧ (l.d.recEnd t).seen = ((d.acts t plan.acts).1.recEnd t).seen := by
  obtain ⟨⟨count, rp, eq⟩, -⟩ := follows
  rw [eq, recEnd_seen, recEnd_seen]
  exact ⟨rfl, rfl⟩

theorem recorded_most (follows : l.Follows t d.recBegin plan) :
    (State.finish t l).d.sent ≤ d.sent + plan.ops.length + bill d.settings.batchRetry [] plan.ops := by
  obtain ⟨on, most⟩ := acts_most (t := t) plan.acts (d := d.recBegin) rfl rfl (Nat.zero_le _)
  obtain ⟨recording, seen_eq⟩ := follows.ended
  rw [finish_sent, if_pos (recording.trans on), State.sent, seen_eq]
  exact most

theorem recorded_billed (positive : 0 < d.settings.batchRetry)
    (follows : l.Follows (timed waitsAt) d.recBegin plan)
    (scripted : Scripted waitsAt d.seen.length (billed d.settings.batchRetry [] plan.ops)) :
    (State.finish (timed waitsAt) l).d.sent = d.sent + plan.ops.length + bill d.settings.batchRetry [] plan.ops := by
  have few : d.recBegin.ops.length ≤ recMax := Nat.zero_le _
  obtain ⟨on, -⟩ := acts_most (t := timed waitsAt) plan.acts (d := d.recBegin) rfl rfl few
  obtain ⟨sent, sent_eq, length_eq⟩ := acts_billed plan.acts (d := d.recBegin) rfl rfl few positive scripted
  obtain ⟨recording, seen_eq⟩ := follows.ended
  rw [finish_sent, if_pos (recording.trans on), State.sent, seen_eq, sent_eq, sent_append, length_eq]
  have total := @billed_length d.settings.batchRetry [] plan.ops positive
  rw [List.length_nil, Nat.zero_add] at total
  exact (congrArg (d.sent + ·) total).trans (Nat.add_assoc ..).symm

theorem Within.finish {c : Nat} (within : Within c l.d) : (State.finish t l).d.sent ≤ c := by
  rw [finish_sent, if_neg (Bool.eq_false_iff.mp within.off)]
  exact Nat.le_trans (Nat.le_add_right ..) within.paid

theorem doTransfer_within (t : Target) (req : Request) (off : d.recording = false) :
    (d.doTransfer t req).1.sent ≤ d.sent + d.budget + (transferOps req (req.byteOr 2).toNat 3 3 false).length := by
  have owes : Owes req (req.byteOr 2).toNat (d.sent + d.budget + (transferOps req (req.byteOr 2).toNat 3 3 false).length)
      { d, p := 3, rp := 3, ack := 0 } :=
    ⟨_, 3, 3, false, ⟨⟨off, Nat.le_refl _⟩, rfl, rfl, rfl⟩, Nat.le_refl _⟩
  exact owes.transfers.finish

theorem block_within (t : Target) (req : Request) (request : Byte) (count : Nat) (off : d.recording = false) :
    (State.finish t (({ d, p := 5, rp := 4, ack := ackOk } : Loop).block t req request count)).d.sent ≤
      d.sent + d.budget + (Plan.block req request count).ops.length := by
  have follows := @Loop.block_follows t req d request count
  obtain ⟨⟨curCnt, curRp, eq⟩, -⟩ := follows
  have within : Within (d.sent + d.budget) d := ⟨off, Nat.le_refl _⟩
  have acts := within.acts (t := t) (Plan.block req request count).acts
  apply Within.finish
  rw [eq]
  exact ⟨acts.off, acts.paid⟩

/-- A packet that sends at most the retry budget more than the transfers it needs. -/
def SpendsWithin (t : Target) (d : State) (p : Packet) : Prop :=
  (d.after t p).sent ≤ d.sent + p.needs.length + retryBudget

/-- The packet's operations go into a record that an earlier packet has left open. -/
def IntoOpen (d : State) (p : Packet) : Prop :=
  d.recording = true ∧ ¬ Batches d p ∧ (p.req.byte 0 = 0x05 ∨ p.req.byte 0 = 0x06 ∨ p.req.byte 0 = 0x08)

theorem later_none (ops : List Op) : later 0 ops = 0 := by
  induction ops with
  | nil => rfl
  | cons op ops ih =>
    rw [later, ih]
    simp only [Nat.zero_min, Nat.zero_sub, Nat.zero_mul]

theorem due_none (ops : List Op) : due 0 0 ops = 0 := by
  cases ops with
  | nil => rfl
  | cons op ops => simp only [due, later_none, Nat.zero_sub, Nat.zero_mul]

theorem bill_none (record ops : List Op) : bill 0 record ops = 0 := by
  induction ops generalizing record with
  | nil => exact due_none record
  | cons op ops ih =>
    rw [bill, ih, ih, due_none]
    exact ite_self 0

theorem line_sent {wire : Wire} (other : wire.isTransfer = false) : (d.line wire).sent = d.sent := by
  rw [State.sent, State.line, List.countP_append, List.countP_singleton, if_neg (Bool.eq_false_iff.mp other)]
  rfl

theorem doSwdSequence_sent (t : Target) (req : Request) (d : State) : (d.doSwdSequence t req).1.sent = d.sent := by
  have ends : (Flow.times (State.sequenceOne t req) (req.byteOr 1).toNat
      { d := d.put 1 [0], p := 2, rp := 2, ack := 0 }).Ends
      (fun l => l.d.sent = d.sent) (fun l => l.d.sent = d.sent) := by
    refine Flow.times_ends (fun l same => ?_) rfl
    rw [State.sequenceOne]
    split
    · exact same
    · extract_lets info next nbits nbytes
      split
      · split
        · exact same
        · exact (line_sent rfl).trans same
      · split
        · exact same
        · exact (line_sent rfl).trans same
  obtain same | same := ends.state <;> exact same

section Taken

variable (taken : ¬ (p.req.len = 0 ∨ p.respCap < packetSize))

include taken

theorem needs_transfer (byte : (p.req.byte 0).toNat = 0x05) :
    p.needs = transferOps p.req (p.req.byteOr 2).toNat 3 3 false := by
  rw [Packet.needs, if_neg taken, byte]
  rfl

theorem needs_block (byte : (p.req.byte 0).toNat = 0x06) (long : ¬ (p.req.len < 5 ∨ p.req.half 2 = 0)) :
    p.needs = (Plan.block p.req (p.req.byte 4) (p.req.half 2)).ops := by
  rw [Packet.needs, if_neg taken, byte]
  exact if_neg long

theorem transfer_batched (batches : Batches d p) (byte : (p.req.byte 0).toNat = 0x05) :
    ∃ loop : Target → Loop,
      (∀ t, (loop t).Follows t (d.accept p.req).recBegin (transferPlan p.req)) ∧
      (∀ t, (d.after t p).sent = (State.finish t (loop t)).d.sent) ∧ (transferPlan p.req).ops = p.needs := by
  obtain ⟨supported, kind⟩ := batches
  have noMatch : State.hasMatchRead p.req = false := by
    obtain ⟨-, noMatch⟩ | block := kind
    · exact noMatch
    · rw [block] at byte
      cases byte
  have recorded : ((d.accept p.req).batchSupported p.queue && !State.hasMatchRead p.req) = true := by
    rw [noMatch, Bool.not_false, Bool.and_true]
    exact supported
  refine ⟨fun t =>
    ({ d := (d.accept p.req).recBegin, p := 3, rp := 3, ack := 0 } : Loop).transfers t p.req
      (p.req.byteOr 2).toNat, fun t => ?_, fun t => ?_, ?_⟩
  · refine Loop.transfers_follows ?_ noMatch
    intro posted
    cases posted
  · rw [State.after, State.process, if_neg taken, State.command, byte]
    simp only [if_pos recorded]
    rfl
  · rw [needs_transfer taken byte]
    exact Plan.transfers_ops noMatch

theorem block_batched (batches : Batches d p) (byte : (p.req.byte 0).toNat = 0x06)
    (long : ¬ (p.req.len < 5 ∨ p.req.half 2 = 0)) :
    ∃ loop : Target → Loop,
      (∀ t, (loop t).Follows t (d.accept p.req).recBegin (Plan.block p.req (p.req.byte 4) (p.req.half 2))) ∧
      (∀ t, (d.after t p).sent = (State.finish t (loop t)).d.sent) ∧
      (Plan.block p.req (p.req.byte 4) (p.req.half 2)).ops = p.needs := by
  have supported : (d.accept p.req).batchSupported p.queue = true := batches.1
  refine ⟨fun t =>
    ({ d := (d.accept p.req).recBegin, p := 5, rp := 4, ack := ackOk } : Loop).block t p.req (p.req.byte 4)
      (p.req.half 2), fun t => Loop.block_follows, fun t => ?_, (needs_block taken byte long).symm⟩
  rw [State.after, State.process, if_neg taken, State.command, byte]
  simp only [if_pos supported]
  rw [State.doTransferBlock, if_neg fun short => long (.inl short)]
  simp only [if_neg fun none => long (.inr none)]
  rfl

theorem batched (batches : Batches d p) :
    (∃ (loop : Target → Loop) (plan : Plan),
      (∀ t, (loop t).Follows t (d.accept p.req).recBegin plan) ∧
        (∀ t, (d.after t p).sent = (State.finish t (loop t)).d.sent) ∧ plan.ops = p.needs) ∨
      (∀ t, (d.after t p).sent = d.sent) ∧ p.needs = [] := by
  obtain ⟨transfer, -⟩ | block := batches.2
  · have byte : (p.req.byte 0).toNat = 0x05 := congrArg BitVec.toNat transfer
    obtain ⟨loop, runs⟩ := transfer_batched taken batches byte
    exact .inl ⟨loop, _, runs⟩
  · have byte : (p.req.byte 0).toNat = 0x06 := congrArg BitVec.toNat block
    by_cases short : p.req.len < 5 ∨ p.req.half 2 = 0
    · refine .inr ⟨fun t => ?_, ?_⟩
      · rw [State.after, State.process, if_neg taken, State.command, byte]
        simp only [if_pos (show (d.accept p.req).batchSupported p.queue = true from batches.1)]
        rw [State.doTransferBlock]
        by_cases few : p.req.len < 5
        · rw [if_pos few]
          rfl
        · rw [if_neg few]
          simp only [if_pos (short.resolve_left few)]
          rfl
      · rw [Packet.needs, if_neg taken, byte]
        exact if_pos short
    · obtain ⟨loop, runs⟩ := block_batched taken batches byte short
      exact .inl ⟨loop, _, runs⟩

theorem batched_most (t : Target) (batches : Batches d p) :
    (d.after t p).sent ≤ d.sent + p.needs.length + bill d.settings.batchRetry [] p.needs := by
  obtain ⟨loop, plan, follows, sends, needs⟩ | ⟨sends, -⟩ := batched taken batches
  · rw [sends, ← needs]
    exact recorded_most (d := d.accept p.req) (follows t)
  · rw [sends]
    omega

theorem batched_billed (batches : Batches d p) (positive : 0 < d.settings.batchRetry)
    (scripted : Scripted waitsAt d.seen.length (billed d.settings.batchRetry [] p.needs)) :
    (d.after (timed waitsAt) p).sent = d.sent + p.needs.length + bill d.settings.batchRetry [] p.needs := by
  obtain ⟨loop, plan, follows, sends, needs⟩ | ⟨sends, none⟩ := batched taken batches
  · rw [← needs] at scripted ⊢
    rw [sends]
    exact recorded_billed (d := d.accept p.req) positive (follows (timed waitsAt)) scripted
  · rw [sends, none]
    rfl

/-- A packet that is not recorded spends its retries from the budget. -/
theorem unbatched (t : Target) (single : ¬ Batches d p) (closed : ¬ IntoOpen d p) : SpendsWithin t d p := by
  have off (kind : p.req.byte 0 = 0x05 ∨ p.req.byte 0 = 0x06 ∨ p.req.byte 0 = 0x08) : d.recording = false :=
    Bool.eq_false_iff.mpr fun on => closed ⟨on, single, kind⟩
  have nothing : d.sent ≤ d.sent + p.needs.length + retryBudget := by omega
  rw [SpendsWithin, State.after, State.process, if_neg taken, State.command]
  split
  · have same : ((d.accept p.req).doInfo p.req).1.sent = d.sent := by
      simp only [State.doInfo]
      split <;> rfl
    rw [same]
    exact nothing
  · exact nothing
  · exact nothing
  · exact nothing
  · have same : (((d.accept p.req).doTransferConfigure p.req).put 1 [0]).sent = d.sent := by
      simp only [State.doTransferConfigure]
      split
      · exact line_sent rfl
      · rfl
    rw [same]
    exact nothing
  · next byte =>
      have kind : p.req.byte 0 = 0x05 := BitVec.eq_of_toNat_eq byte
      have apart : ¬ ((d.accept p.req).batchSupported p.queue && !State.hasMatchRead p.req) = true := by
        intro both
        rw [Bool.and_eq_true, Bool.not_eq_true'] at both
        exact single ⟨both.1, .inl ⟨kind, both.2⟩⟩
      simp only [if_neg apart]
      rw [needs_transfer taken byte]
      exact Nat.le_trans (doTransfer_within t p.req (d := d.accept p.req) (off (.inl kind)))
        (Nat.le_of_eq (Nat.add_right_comm ..))
  · next byte =>
      have kind : p.req.byte 0 = 0x06 := BitVec.eq_of_toNat_eq byte
      have apart : ¬ (d.accept p.req).batchSupported p.queue = true := fun on => single ⟨on, .inr kind⟩
      rw [if_neg apart, State.doTransferBlock]
      by_cases few : p.req.len < 5
      · rw [if_pos few]
        exact nothing
      · rw [if_neg few]
        by_cases none : p.req.half 2 = 0
        · simp only [if_pos none]
          exact nothing
        · simp only [if_neg none]
          rw [needs_block taken byte (not_or.mpr ⟨few, none⟩)]
          exact Nat.le_trans
            (block_within t p.req (p.req.byte 4) (p.req.half 2) (d := d.accept p.req) (off (.inr (.inl kind))))
            (Nat.le_of_eq (Nat.add_right_comm ..))
  · next byte =>
      have kind : p.req.byte 0 = 0x08 := BitVec.eq_of_toNat_eq byte
      have within : Within (d.sent + retryBudget) (d.accept p.req) := ⟨off (.inr (.inr kind)), Nat.le_refl _⟩
      rw [State.doWriteAbort]
      split
      · next long =>
          have sent := within.xfer t abortWrite (p.req.word 2)
          have needs : p.needs.length = 1 := by
            rw [Packet.needs, if_neg taken, byte]
            simp only [if_pos long]
            rfl
          rw [needs]
          exact Nat.le_trans (Nat.le_add_right ..) (Nat.le_trans sent.paid (Nat.le_of_eq (Nat.add_right_comm ..)))
      · exact nothing
  · exact nothing
  · exact nothing
  · have same : ((d.accept p.req).doSwjPins p.req).sent = d.sent := by
      simp only [State.doSwjPins]
      split
      · exact line_sent rfl
      · rfl
    rw [same]
    exact nothing
  · have same : ((if 5 ≤ p.req.len then (d.accept p.req).line (.setClock (p.req.word 1))
        else d.accept p.req).put 1 [0]).sent = d.sent := by
      split
      · exact line_sent rfl
      · rfl
    rw [same]
    exact nothing
  · have same : ((d.accept p.req).doSwjSequence p.req).sent = d.sent := by
      simp only [State.doSwjSequence]
      split
      · exact line_sent rfl
      · rfl
    rw [same]
    exact nothing
  · exact nothing
  · rw [doSwdSequence_sent]
    exact nothing
  · exact nothing

end Taken

/-- In a packet whose operations go into no record left open, the transfers stay within the retry budget
whatever the target answers, exactly when it is not recorded or its records' WAITs take no more. -/
theorem spends_within_iff (d : State) (p : Packet) (closed : ¬ IntoOpen d p) :
    (∀ t, SpendsWithin t d p) ↔ (Batches d p → bill d.settings.batchRetry [] p.needs ≤ retryBudget) := by
  by_cases taken : p.req.len = 0 ∨ p.respCap < packetSize
  · have none : p.needs = [] := if_pos taken
    have sends (t : Target) : (d.after t p).sent = d.sent := by
      rw [State.after, State.process, if_pos taken]
      rfl
    constructor
    · intro _ _
      rw [none]
      exact Nat.zero_le _
    · intro _ t
      rw [SpendsWithin, sends, none]
      exact Nat.le_trans (Nat.le_add_right ..) (Nat.le_add_right ..)
  · constructor
    · intro within batches
      obtain idle | positive := Nat.eq_zero_or_pos d.settings.batchRetry
      · rw [idle, bill_none]
        exact Nat.zero_le _
      · obtain ⟨waitsAt, scripted⟩ :=
          scripted_exists d.seen.length (billed d.settings.batchRetry [] p.needs)
        have most : (d.after (timed waitsAt) p).sent ≤ d.sent + p.needs.length + retryBudget := within (timed waitsAt)
        rw [batched_billed taken batches positive scripted] at most
        exact Nat.le_of_add_le_add_left most
    · intro cheap t
      by_cases batches : Batches d p
      · exact Nat.le_trans (batched_most taken t batches) (Nat.add_le_add_left (cheap batches) _)
      · exact unbatched taken t batches closed

/-- Reads of a DP register in one packet. -/
def dpReads (count : Nat) : Packet := queued (0x05 :: 0 :: BitVec.ofNat 8 count :: List.replicate count 0x02)

/-- A target that answers each transfer OK at the hundred-and-first try, from the second wire on. -/
def hundredWaits : Target := timed fun n => decide ((n - 1) % 101 < 100)

/-- With the hundred retries of a reset, twenty reads stay within the budget. -/
theorem twenty_reads_within : SpendsWithin hundredWaits ({} : State).reset (dpReads 20) := by
  refine (spends_within_iff _ (dpReads 20) ?_).mpr (fun _ => ?_) hundredWaits
  · rintro ⟨on, -⟩
    cases on
  · decide +kernel

/-- One more read takes its hundred retries beyond it. -/
theorem reads_beyond_budget :
    (({} : State).reset.after hundredWaits (dpReads 21)).sent = 21 + 2100 ∧
      ¬ SpendsWithin hundredWaits ({} : State).reset (dpReads 21) := by
  have noMatch : State.hasMatchRead (dpReads 21).req = false := by decide +kernel
  have batches : Batches ({} : State).reset (dpReads 21) := ⟨by decide +kernel, .inl ⟨by decide +kernel, noMatch⟩⟩
  have taken : ¬ ((dpReads 21).req.len = 0 ∨ (dpReads 21).respCap < packetSize) := by decide +kernel
  have positive : 0 < ({} : State).reset.settings.batchRetry := by decide +kernel
  have scripted : Scripted (fun n => decide ((n - 1) % 101 < 100)) ({} : State).reset.seen.length
      (billed ({} : State).reset.settings.batchRetry [] (dpReads 21).needs) := by
    decide +kernel
  have all := @batched_billed ({} : State).reset (fun n => decide ((n - 1) % 101 < 100)) (dpReads 21) taken
    batches positive scripted
  have start : ({} : State).reset.sent = 0 := by decide +kernel
  have needs_eq : (dpReads 21).needs.length = 21 := by decide +kernel
  have bill_eq : bill ({} : State).reset.settings.batchRetry [] (dpReads 21).needs = 2100 := by decide +kernel
  rw [start, needs_eq, bill_eq] at all
  refine ⟨all, ?_⟩
  intro within
  have within : (({} : State).reset.after hundredWaits (dpReads 21)).sent ≤
      ({} : State).reset.sent + (dpReads 21).needs.length + retryBudget := within
  rw [hundredWaits, all, start, needs_eq, retryBudget] at within
  omega

end BenchPod.Dap
