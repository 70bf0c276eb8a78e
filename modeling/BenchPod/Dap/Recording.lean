import BenchPod.Dap.Kept
import Mathlib.Data.List.Induction
import Mathlib.Data.List.ModifyLast

/-!
# Nothing answered OK stays recorded

A record that is ended has been run.  The invariant of a packet says that the operations answered OK are
those sent to the target and, behind them, those recorded.  A DAP_TransferBlock that is too short or
asks for no word begins a record and answers without ending it.
-/

namespace BenchPod.Dap

/-- A packet, and what dap_process is called with. -/
structure Packet where
  req : Request
  queue : Bool
  respCap : Nat

namespace State

variable (t : Target) (d : State)

def after (p : Packet) : State := (d.process t p.req p.queue p.respCap).1

def run (packets : List Packet) : State := packets.foldl (after t) d

end State

/-- Nothing is recorded and recording is off, and all that is answered OK has been sent. -/
structure Executed (before after : State) : Prop where
  recording : after.recording = false
  ops : after.ops = []
  sent : ∃ news, after.seen = before.seen ++ news ∧ (after.acked.map Wire.transfer).Sublist news

/-- A DAP_TransferBlock that begins a record and does not end it. -/
def Leaves (d : State) (p : Packet) : Prop :=
  p.req.len ≠ 0 ∧ packetSize ≤ p.respCap ∧ d.batchSupported p.queue = true ∧ p.req.byte 0 = 0x06 ∧
    (p.req.len < 5 ∨ p.req.half 2 = 0)

/-- Within a packet, the operations answered OK have been sent or are recorded. -/
structure Sound (start : List Wire) (d : State) : Prop where
  sent : ∃ front news, d.acked = front ++ d.ops.map Recorded.op ∧ d.seen = start ++ news ∧
    (front.map Wire.transfer).Sublist news
  idle : d.recording = false → d.ops = []
  failed : d.failed = true → d.ops = []

variable {t : Target} {d : State} {start : List Wire} {req : Request}

theorem map_modifyLast {entries : List Recorded} {f : Recorded → Recorded}
    (same : ∀ entry, (f entry).op = entry.op) :
    (entries.modifyLast f).map Recorded.op = entries.map Recorded.op := by
  obtain rfl | ⟨front, last, rfl⟩ := List.eq_nil_or_concat' entries
  · rfl
  · rw [List.modifyLast_concat, List.map_append, List.map_append, List.map_singleton, same]
    rfl

theorem placeReads_only_resp (entries : List Recorded) (rdata : List Word) (d : State) :
    ∃ resp, State.placeReads entries rdata d = { d with resp } := by
  induction entries generalizing rdata d with
  | nil => exact ⟨d.resp, rfl⟩
  | cons entry entries ih =>
    simp only [State.placeReads]
    split
    · split
      · next dst _ =>
          obtain ⟨resp, eq⟩ := ih rdata.tail (d.put dst (Endian.le32 (rdata.headD 0)))
          exact ⟨resp, eq⟩
      · exact ih rdata.tail d
    · exact ih rdata d

theorem xferTry_seen (t : Target) (op : Op) (retry : Nat) (d : State) :
    ∃ count budget, (State.xferTry t op retry d).1 =
      { d with budget, seen := d.seen ++ List.replicate (count + 1) (.transfer op) } := by
  induction retry generalizing d with
  | zero => exact ⟨0, d.budget, rfl⟩
  | succ retry ih =>
    simp only [State.xferTry]
    split
    · exact ⟨0, d.budget, rfl⟩
    · obtain ⟨count, budget, eq⟩ := ih { (d.swdLlTransfer t op).1 with budget := d.budget - 1 }
      refine ⟨count + 1, budget, eq.trans ?_⟩
      simp only [State.swdLlTransfer, List.append_assoc, List.singleton_append, List.replicate_succ (n := count + 1)]

/-- A flush runs the record: what stays answered OK has been sent. -/
theorem Sound.recFlush (sound : Sound start d) :
    Sound start (d.recFlush t).1 ∧ (d.recFlush t).1.ops = [] ∧
      (d.recFlush t).1.recording = d.recording ∧
      (d.failed = false → (d.recFlush t).2 = ackOk → (d.recFlush t).1.failed = false) := by
  obtain ⟨front, news, acked_eq, seen_eq, sent⟩ := sound.sent
  simp only [State.recFlush]
  split
  · next failed =>
      refine ⟨sound, sound.failed failed, rfl, fun fine => ?_⟩
      rw [failed] at fine
      cases fine
  · split
    · next failed empty => exact ⟨sound, empty, rfl, fun fine _ => fine⟩
    · next fine some =>
        obtain ⟨wires, batch_seen, le, done_sent, wrong⟩ :=
          swdLlBatch_sends t d.settings.batchRetry d.seen (d.ops.map Recorded.op)
        generalize swdLlBatch t d.settings.batchRetry d.seen (d.ops.map Recorded.op) = batch at *
        obtain ⟨resp, placed⟩ := placeReads_only_resp (d.ops.take batch.done) batch.rdata d
        rw [List.length_map] at le wrong
        have all_seen : batch.seen = start ++ (news ++ wires) := by rw [batch_seen, seen_eq, List.append_assoc]
        rw [placed]
        split
        · next entry at_done =>
            have less : batch.done < d.ops.length := (List.getElem?_eq_some_iff.mp at_done).1
            have kept_eq : d.acked.take (d.acked.length - (d.ops.length - batch.done)) =
                front ++ (d.ops.map Recorded.op).take batch.done := by
              have length_eq : d.acked.length - (d.ops.length - batch.done) = front.length + batch.done := by
                rw [acked_eq, List.length_append, List.length_map]
                omega
              rw [length_eq, acked_eq, List.take_length_add_append]
            refine ⟨⟨⟨front ++ (d.ops.map Recorded.op).take batch.done, news ++ wires, ?_, all_seen, ?_⟩,
              fun _ => rfl, fun _ => rfl⟩, rfl, rfl, fun _ ok => absurd ok (wrong less)⟩
            · simp only [kept_eq, List.map_nil, List.append_nil]
            · rw [List.map_append]
              exact sent.append done_sent
        · next beyond =>
            have whole : (d.ops.map Recorded.op).take batch.done = d.ops.map Recorded.op := by
              rw [List.take_of_length_le]
              rw [List.length_map]
              exact List.getElem?_eq_none_iff.mp beyond
            rw [whole] at done_sent
            refine ⟨⟨⟨d.acked, news ++ wires, (List.append_nil _).symm, all_seen, ?_⟩,
              fun _ => rfl, fun _ => rfl⟩, rfl, rfl, fun fine _ => fine⟩
            rw [acked_eq, List.map_append]
            exact sent.append done_sent

theorem Sound.store {rp : Nat} (value : Word) (sound : Sound start d) : Sound start (d.store rp value) := by
  rw [State.store]
  split
  · next on =>
      have same (entry : Recorded) : { entry with dst := some rp }.op = entry.op := rfl
      have nil (empty : d.ops = []) : d.ops.modifyLast (fun entry => { entry with dst := some rp }) = [] := by
        rw [empty]
        rfl
      obtain ⟨front, news, acked_eq, seen_eq, sent⟩ := sound.sent
      refine ⟨⟨front, news, ?_, seen_eq, sent⟩, fun off => nil (sound.idle off), fun failed => nil (sound.failed failed)⟩
      simp only [map_modifyLast same]
      exact acked_eq
  · exact ⟨sound.sent, sound.idle, sound.failed⟩

theorem Sound.record {entry : Recorded} (sound : Sound start d) (on : d.recording = true)
    (fine : d.failed = false) :
    Sound start (({ d with ops := d.ops ++ [entry] } : State).answerOk entry.op) := by
  obtain ⟨front, news, acked_eq, seen_eq, sent⟩ := sound.sent
  refine ⟨⟨front, news, ?_, seen_eq, sent⟩, fun off => ?_, fun failed => ?_⟩
  · simp only [State.answerOk, acked_eq, List.map_append, List.map_singleton, List.append_assoc]
  · cases on.symm.trans off
  · cases fine.symm.trans failed

theorem Sound.tried {op : Op} {count budget : Nat} (sound : Sound start d)
    (off : d.recording = false) (ok : Bool) :
    Sound start
      { d with
        budget, seen := d.seen ++ List.replicate (count + 1) (.transfer op)
        acked := if ok then d.acked ++ [op] else d.acked } := by
  obtain ⟨front, news, acked_eq, seen_eq, sent⟩ := sound.sent
  rw [sound.idle off, List.map_nil, List.append_nil] at acked_eq
  refine ⟨⟨if ok then front ++ [op] else front, news ++ List.replicate (count + 1) (.transfer op),
    ?_, ?_, ?_⟩, sound.idle, sound.failed⟩
  · simp only [acked_eq, sound.idle off, List.map_nil, List.append_nil]
  · simp only [seen_eq, List.append_assoc]
  · cases ok with
    | false => exact sent.trans (List.sublist_append_left news _)
    | true =>
      have one : [Wire.transfer op].Sublist (List.replicate (count + 1) (.transfer op)) := by
        rw [List.replicate_succ]
        exact List.singleton_sublist.mpr (List.mem_cons_self ..)
      simp only [if_true, List.map_append, List.map_singleton]
      exact sent.append one

theorem Sound.xfer (request : Byte) (value : Word) (sound : Sound start d) :
    Sound start (d.xfer t request value).1 ∧ (d.xfer t request value).1.recording = d.recording := by
  simp only [State.xfer]
  split
  · next on =>
      split
      · exact ⟨sound, rfl⟩
      · next fine =>
          have fine : d.failed = false := Bool.eq_false_iff.mpr fine
          have flush : ∀ flushed : State × Byte, flushed = (if d.ops.length = recMax then d.recFlush t else (d, ackOk)) →
              Sound start flushed.1 ∧ flushed.1.recording = d.recording ∧
                (flushed.2 = ackOk → flushed.1.failed = false) := by
            rintro _ rfl
            split
            · obtain ⟨sound, -, recording, passed⟩ := sound.recFlush (t := t)
              exact ⟨sound, recording, passed fine⟩
            · exact ⟨sound, rfl, fun _ => fine⟩
          generalize (if d.ops.length = recMax then d.recFlush t else (d, ackOk)) = flushed at *
          obtain ⟨sound, recording, passed⟩ := flush flushed rfl
          split
          · exact ⟨sound, recording⟩
          · next ok =>
              exact ⟨sound.record (recording.trans on) (passed (Decidable.not_not.mp ok)), recording⟩
  · next off =>
      obtain ⟨count, budget, tried⟩ := xferTry_seen t (Op.of request value) d.settings.waitRetry d
      have off : d.recording = false := Bool.eq_false_iff.mpr off
      split
      · rw [tried]
        exact ⟨sound.tried off true, rfl⟩
      · rw [tried]
        exact ⟨sound.tried off false, rfl⟩

theorem Sound.kept (start : List Wire) : Kept t (Sound start) (Sound start) where
  between := id
  xfer request value sound := (sound.xfer request value).1
  store value _ sound := sound.store value
  setCur _ _ sound := ⟨sound.sent, sound.idle, sound.failed⟩
  setMask _ sound := ⟨sound.sent, sound.idle, sound.failed⟩
  budget _ sound := ⟨sound.sent, sound.idle, sound.failed⟩

/-- The invariant between commands. -/
def Fine (start : List Wire) (d : State) : Prop := Sound start d ∧ d.recording = false

theorem Sound.finish {l : Loop} (sound : Sound start l.d) : Fine start (State.finish t l).d := by
  simp only [State.finish]
  split
  · obtain ⟨flushed, empty, -⟩ := sound.recFlush (t := t)
    have ended : Sound start (l.d.recEnd t) := ⟨flushed.sent, fun _ => empty, flushed.failed⟩
    split
    · exact ⟨ended, rfl⟩
    · exact ⟨ended, rfl⟩
  · next off => exact ⟨sound, Bool.eq_false_iff.mpr off⟩

theorem Sound.recBegin (sound : Sound start d) (empty : d.ops = []) : Sound start d.recBegin := by
  obtain ⟨front, news, acked_eq, seen_eq, sent⟩ := sound.sent
  rw [empty] at acked_eq
  exact ⟨⟨front, news, acked_eq, seen_eq, sent⟩, fun _ => rfl, fun _ => rfl⟩

namespace Fine

theorem executed {before : State} (fine : Fine before.seen d) : Executed before d := by
  obtain ⟨sound, off⟩ := fine
  obtain ⟨front, news, acked_eq, seen_eq, sent⟩ := sound.sent
  have empty := sound.idle off
  rw [empty, List.map_nil, List.append_nil] at acked_eq
  refine ⟨off, empty, news, seen_eq, ?_⟩
  rw [acked_eq]
  exact sent

theorem put {offset : Nat} {bytes : List Byte} (fine : Fine start d) : Fine start (d.put offset bytes) :=
  ⟨⟨fine.1.sent, fine.1.idle, fine.1.failed⟩, fine.2⟩

theorem set (settings : Settings) (fine : Fine start d) : Fine start { d with settings } :=
  ⟨⟨fine.1.sent, fine.1.idle, fine.1.failed⟩, fine.2⟩

theorem line (wire : Wire) (fine : Fine start d) : Fine start (d.line wire) := by
  obtain ⟨front, news, acked_eq, seen_eq, sent⟩ := fine.1.sent
  refine ⟨⟨⟨front, news ++ [wire], acked_eq, ?_, ?_⟩, fine.1.idle, fine.1.failed⟩, fine.2⟩
  · simp only [State.line, seen_eq, List.append_assoc]
  · exact sent.trans (List.sublist_append_left news _)

theorem doInfo (fine : Fine start d) : Fine start (d.doInfo req).1 := by
  simp only [State.doInfo]
  split <;> exact fine.put

theorem doTransfer (sound : Sound start d) : Fine start (d.doTransfer t req).1 :=
  ((Sound.kept start).transfers sound rfl).1.finish.put

theorem doTransferBlock (sound : Sound start d)
    (ends : req.len < 5 ∨ req.half 2 = 0 → d.recording = false) :
    Fine start (d.doTransferBlock t req).1 := by
  simp only [State.doTransferBlock]
  split
  · next short => exact put ⟨sound, ends (.inl short)⟩
  · split
    · next none => exact put ⟨sound, ends (.inr none)⟩
    · exact ((Sound.kept start).block sound rfl).1.finish.put

theorem doSwdSequence (fine : Fine start d) : Fine start (d.doSwdSequence t req).1 := by
  have ends : (Flow.times (State.sequenceOne t req) (req.byteOr 1).toNat
      { d := d.put 1 [0], p := 2, rp := 2, ack := 0 }).Ends
      (fun l => Fine start l.d) (fun l => Fine start l.d) := by
    refine Flow.times_ends (fun l fine => ?_) fine.put
    rw [State.sequenceOne]
    split
    · exact fine
    · extract_lets info next nbits nbytes
      split
      · split
        · exact fine.put
        · exact (fine.line _).put
      · split
        · exact fine
        · exact fine.line _
  obtain fine | fine := ends.state <;> exact fine

end Fine

/-- A packet that ends its record leaves nothing recorded and off, and has sent what it answers OK. -/
theorem process_executed {p : Packet} (off : d.recording = false) (empty : d.ops = [])
    (ends : ¬ Leaves d p) : Executed d (d.after t p) := by
  have start : Fine d.seen { d with acked := [] } := by
    refine ⟨⟨⟨[], [], ?_, (List.append_nil _).symm, List.Sublist.refl _⟩, fun _ => empty, fun _ => empty⟩, off⟩
    simp only [empty, List.map_nil, List.append_nil]
  simp only [State.after, State.process]
  split
  · exact start.put.executed
  · next accepted =>
      have begun : Fine d.seen (d.accept p.req) := by
        have put : Fine d.seen (({ d with acked := [] } : State).put 0 [p.req.byte 0]) := start.put
        exact ⟨⟨put.1.sent, put.1.idle, put.1.failed⟩, off⟩
      apply Fine.executed
      rw [State.command]
      split
      · exact begun.doInfo
      · exact begun.put
      · exact begun.put
      · exact begun.put
      · refine Fine.put ?_
        rw [State.doTransferConfigure]
        split
        · exact (begun.set _).line _
        · exact begun
      · refine Fine.doTransfer ?_
        split
        · exact begun.1.recBegin empty
        · exact begun.1
      · next block =>
          refine Fine.doTransferBlock ?_ fun short => ?_
          · split
            · exact begun.1.recBegin empty
            · exact begun.1
          · rw [if_neg]
            · exact off
            · intro recorded
              refine ends ⟨fun zero => accepted (.inl zero), ?_, recorded, BitVec.eq_of_toNat_eq block, ?_⟩
              · exact Nat.le_of_not_lt fun less => accepted (.inr less)
              · exact short
      · rw [State.doWriteAbort]
        split
        · have done := begun.1.xfer (t := t) abortWrite (p.req.word 2)
          exact Fine.put ⟨done.1, done.2.trans off⟩
        · exact begun.put
      · exact begun.put
      · exact begun.put
      · rw [State.doSwjPins]
        refine Fine.put ?_
        split
        · exact begun.line _
        · exact begun
      · refine Fine.put ?_
        split
        · exact begun.line _
        · exact begun
      · rw [State.doSwjSequence]
        refine Fine.put ?_
        split
        · exact begun.line _
        · exact begun
      · exact (begun.set _).put
      · exact begun.doSwdSequence
      · exact begun.put

theorem leaves_on {p : Packet} (leaves : Leaves d p) : (d.after t p).recording = true := by
  obtain ⟨some, cap, recorded, block, short⟩ := leaves
  have accepted : ¬ (p.req.len = 0 ∨ p.respCap < packetSize) := by omega
  have block : (p.req.byte 0).toNat = 6 := by rw [block]; rfl
  have supported : (d.accept p.req).batchSupported p.queue = true := recorded
  rw [State.after, State.process, if_neg accepted, State.command, block]
  simp only [if_pos supported]
  rw [State.doTransferBlock]
  split
  · rfl
  · rw [if_pos (short.resolve_left ‹_›)]
    rfl

theorem run_quiet {packets : List Packet} (off : d.recording = false) (empty : d.ops = [])
    (ends : ∀ front p, front ++ [p] <+: packets → ¬ Leaves (d.run t front) p) :
    (d.run t packets).recording = false ∧ (d.run t packets).ops = [] := by
  induction packets using List.reverseRecOn with
  | nil => exact ⟨off, empty⟩
  | append_singleton packets p ih =>
    obtain ⟨off, empty⟩ := ih fun front last before => ends front last (before.trans (List.prefix_append ..))
    have executed := process_executed (t := t) off empty (ends packets p (List.prefix_refl _))
    rw [State.run, List.foldl_append]
    exact ⟨executed.recording, executed.ops⟩

/-- After every packet of a run nothing is recorded, recording is off and all that is answered OK has been
sent, exactly when no packet is a DAP_TransferBlock that leaves its record open. -/
theorem answered_sent (t : Target) (start : State) (packets : List Packet)
    (off : start.recording = false) (empty : start.ops = []) :
    (∀ front p, front ++ [p] <+: packets →
        Executed (start.run t front) ((start.run t front).after t p)) ↔
      ∀ front p, front ++ [p] <+: packets → ¬ Leaves (start.run t front) p := by
  constructor
  · intro executed front p before leaves
    cases (leaves_on leaves).symm.trans (executed front p before).recording
  · intro ends front p before
    obtain ⟨off, empty⟩ := run_quiet (t := t) off empty fun front' p' earlier =>
      ends front' p' (earlier.trans ((List.prefix_append front [p]).trans before))
    exact process_executed off empty (ends front p before)

/-- A target that answers every transfer OK. -/
def willing : Target := ⟨fun _ _ => ⟨1, 0, true⟩, fun _ _ => false⟩

/-- A packet of the bytes, with the gateware's queue. -/
def queued (bytes : List Byte) : Packet := ⟨⟨fun i => bytes.getD i 0, bytes.length⟩, true, packetSize⟩

theorem prefix_single {front : List Packet} {p only : Packet} (before : front ++ [p] <+: [only]) :
    front = [] ∧ p = only := by
  cases front with
  | nil => exact ⟨rfl, (List.cons_prefix_cons.mp before).1⟩
  | cons first front =>
    have length := before.length_le
    simp only [List.cons_append, List.length_cons, List.length_append, List.length_nil] at length
    omega

theorem answered_sent_one :
    Executed ({} : State).reset (({} : State).reset.after willing (queued [0x08, 0, 1, 0, 0, 0])) := by
  refine (answered_sent willing ({} : State).reset [queued [0x08, 0, 1, 0, 0, 0]] rfl rfl).mpr ?_ [] _
    (List.prefix_refl _)
  rintro front p before ⟨-, -, -, block, -⟩
  rw [(prefix_single before).2] at block
  exact absurd block (by decide)

/-- Behind a DAP_TransferBlock of one byte, an abort is answered OK and recorded: the target sees
nothing. -/
theorem short_block_keeps_abort :
    let left := ({} : State).reset.after willing (queued [0x06])
    let aborted := left.after willing (queued [0x08, 0, 1, 0, 0, 0])
    aborted.resp 1 = 0 ∧ aborted.acked = [⟨abortWrite, 1⟩] ∧ aborted.seen = left.seen ∧
      ¬ Executed ({} : State).reset left ∧ ¬ Executed left aborted := by
  refine ⟨by decide, by decide, by decide, ?_, ?_⟩
  · intro executed
    exact absurd executed.recording (by decide)
  · intro executed
    exact absurd executed.recording (by decide)

end BenchPod.Dap
