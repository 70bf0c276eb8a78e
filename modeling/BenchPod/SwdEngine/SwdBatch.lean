import BenchPod.SwdEngine.SwdLl

/-!
# A batch of SWD operations

`swd_ll_batch` and the engine together: queue after queue until the operations are done or one of them stops.
-/

namespace BenchPod.SwdEngine

open Engine

/-- What a batch has come to: the operations done, the ACK and the words read. -/
structure Report where
  count : Nat
  ack : Byte
  words : List Word

/-- The ACK of the operation that stopped. -/
def stopAck (r : Reply) : Byte := if r.ack = 0b001#3 then swdAckOk ||| swdAckPerr else r.ack.setWidth 8

/-- What a batch is for: the transfers on the wire, and what they come to.  A transfer answered WAIT is sent
again at most `retry` times in a row. -/
inductive Performs (retry : Nat) : List Op → Nat → List (Op × Reply) → Report → Prop
  | done (waits : Nat) : Performs retry [] waits [] ⟨0, swdAckOk, []⟩
  | ok {o : Op} {r : Reply} {rest : List Op} {waits : Nat} {sent : List (Op × Reply)} {out : Report}
      (good : r.ok o = true) (later : Performs retry rest 0 sent out) :
      Performs retry (o :: rest) waits ((o, r) :: sent)
        ⟨out.count + 1, out.ack, if o.read then r.data :: out.words else out.words⟩
  | wait {o : Op} {r : Reply} {rest : List Op} {waits : Nat} {sent : List (Op × Reply)} {out : Report}
      (asked : r.ack = 0b010#3) (more : waits < retry) (later : Performs retry (o :: rest) (waits + 1) sent out) :
      Performs retry (o :: rest) waits ((o, r) :: sent) out
  | stop {o : Op} {r : Reply} {rest : List Op} {waits : Nat} (bad : r.ok o = false)
      (last : r.ack = 0b010#3 → retry ≤ waits) :
      Performs retry (o :: rest) waits [(o, r)] ⟨0, stopAck r, if r.ack = 0b001#3 then [r.data] else []⟩

/-- One queue on the engine: the edge its feed starts on, those until the status, and those until the next feed. -/
structure Visit where
  feed : Input
  ticks : List Input
  gap : List Input

/-- The engine at the status. -/
def Visit.status (v : Visit) (e : Engine) : Engine := swdWire.run e (v.feed :: v.ticks)

/-- The engine at the next feed. -/
def Visit.left (v : Visit) (e : Engine) : Engine := swdWire.run (v.status e) v.gap

/-- The cycles on the wires. -/
def Visit.clocks (v : Visit) (e : Engine) : List Clock :=
  swdWire.emitted e (v.feed :: v.ticks) ++ swdWire.emitted (v.status e) v.gap

/-- The engine takes a queue until a status finds it not busy. -/
structure Visit.Serves (queue : List Byte) (e : Engine) (v : Visit) : Prop where
  feed : QueueFeed queue e v.feed v.ticks
  passed : (v.status e).qBusy = false
  quiet : ∀ i ∈ v.gap, i.Quiet

/-- The operations the firmware queues next. -/
def Batch.queued (ops : List Op) (s : Batch) : List Op := (ops.drop s.i).take (fill (ops.drop s.i) [] 0 0).2

/-- The bytes of the next queue. -/
def Batch.queue (ops : List Op) (s : Batch) : List Byte := (fill (ops.drop s.i) [] 0 0).1

/-- A round of `swd_ll_batch` with the engine. -/
def Batch.turn (retry : Nat) (ops : List Op) (s : Batch) (e : Engine) (v : Visit) : Batch ⊕ Result :=
  s.round retry (s.queued ops) (poll (v.status e).qDone (v.status e).qFlags) (v.left e).rmem

/-- Rounds that go on. -/
inductive Steps (retry : Nat) (ops : List Op) : Batch → Engine → List Visit → Batch → Engine → Prop
  | refl (s : Batch) (e : Engine) : Steps retry ops s e [] s e
  | head {s next last : Batch} {e final : Engine} {v : Visit} {visits : List Visit} (more : s.i < ops.length)
      (serves : v.Serves (s.queue ops) e) (on : s.turn retry ops e v = .inl next)
      (later : Steps retry ops next (v.left e) visits last final) : Steps retry ops s e (v :: visits) last final

/-- `swd_ll_batch` to its end, with the queues it takes and the cycles on the wires. -/
inductive Runs (retry : Nat) (ops : List Op) : Batch → Engine → List Visit → List Clock → Result → Prop
  | done {s : Batch} {e : Engine} (all : ops.length ≤ s.i) : Runs retry ops s e [] [] ⟨ops.length, swdAckOk, s.rdata⟩
  | head {s next : Batch} {e : Engine} {v : Visit} {visits : List Visit} {clocks : List Clock} {result : Result}
      (more : s.i < ops.length) (serves : v.Serves (s.queue ops) e) (on : s.turn retry ops e v = .inl next)
      (later : Runs retry ops next (v.left e) visits clocks result) :
      Runs retry ops s e (v :: visits) (v.clocks e ++ clocks) result
  | stop {s : Batch} {e : Engine} {v : Visit} {result : Result} (more : s.i < ops.length)
      (serves : v.Serves (s.queue ops) e) (ends : s.turn retry ops e v = .inr result) :
      Runs retry ops s e [v] (v.clocks e) result

/-- The cycles are those of a queue of 512 bytes that stops at its last operation, a read. -/
def Wraps (idle : Nat) (queued : List Op) (clocks : List Clock) : Prop :=
  (queueBytes queued).length = swdqBytesMax ∧ ∃ done o r, queued = done.map Prod.fst ++ [o] ∧ o.read = true ∧
    AllOk done ∧ r.ok o = false ∧ clocks = answeredClocks idle (done ++ [(o, r)])

/-- No queue of the run fills the 512 bytes and stops at a read at its end. -/
inductive Clear (retry idle : Nat) (ops : List Op) : Batch → Engine → List Visit → Prop
  | nil (s : Batch) (e : Engine) : Clear retry idle ops s e []
  | cons {s : Batch} {e : Engine} {v : Visit} {visits : List Visit}
      (clear : ¬Wraps idle (s.queued ops) (v.clocks e))
      (later : ∀ next, s.turn retry ops e v = .inl next → Clear retry idle ops next (v.left e) visits) :
      Clear retry idle ops s e (v :: visits)

variable {half idle retry : Nat} {ops rest : List Op} {done sent : List (Op × Reply)} {o : Op} {r : Reply} {e : Engine}
variable {s : Batch} {v : Visit} {out : Report} {result : Result} {words : List Word}

theorem Batch.fits (s : Batch) (ops : List Op) : Queued (ops.drop s.i) (fill (ops.drop s.i) [] 0 0) :=
  @fill_queued (ops.drop s.i) [] (Nat.zero_le _) (Nat.zero_le _)

theorem Batch.queue_eq (s : Batch) (ops : List Op) : s.queue ops = queueBytes (s.queued ops) := (s.fits ops).bytes

theorem Batch.queue_short (s : Batch) (ops : List Op) : (queueBytes (s.queued ops)).length ≤ depth := by
  rw [← s.queue_eq]
  exact (s.fits ops).short

theorem Batch.drop_eq (s : Batch) (ops : List Op) :
    ops.drop s.i = s.queued ops ++ ops.drop (s.i + (s.queued ops).length) := by
  have length : (s.queued ops).length = (fill (ops.drop s.i) [] 0 0).2 := by
    rw [queued, List.length_take, Nat.min_eq_left (s.fits ops).few]
  rw [← List.drop_drop, length, queued, List.take_append_drop]

theorem Batch.queued_ne_nil (more : s.i < ops.length) : s.queued ops ≠ [] := by
  rw [queued, List.drop_eq_getElem_cons more]
  have some := fill_pos ops[s.i] (ops.drop (s.i + 1))
  cases count : (fill (ops[s.i] :: ops.drop (s.i + 1)) [] 0 0).2 with
  | zero => exact absurd count (Nat.ne_of_gt some)
  | succ n => exact List.cons_ne_nil _ _

theorem Visit.Serves.outcome (serves : v.Serves (s.queue ops) e) (ready : SwdReady half idle e) (least : 2 ≤ half)
    (most : half ≤ 63) (slack : idle ≤ 31) :
    Outcome idle (s.queued ops) (v.clocks e) (v.status e) ∧ SwdReady half idle (v.left e) ∧
      (v.left e).rmem = (v.status e).rmem := by
  have feed := serves.feed
  rw [s.queue_eq] at feed
  obtain ⟨outcome, rests, mode⟩ :=
    feed.outcome serves.passed ready least most slack (s.queue_short ops) (s.fits ops).reads
  obtain ⟨last, -, silent, kept⟩ := rests.run mode serves.quiet
  refine ⟨?_, last, kept⟩
  have clocks : v.clocks e = swdWire.emitted e (v.feed :: v.ticks) := by
    rw [Visit.clocks, Visit.status, silent, List.append_nil]
  rw [clocks]
  exact outcome

/-- The variables after the operations `done`, with the words stored. -/
def Batch.gain (s : Batch) (done : List (Op × Reply)) (words : List Word) : Batch :=
  { s.keep words with
    rd := s.rd + (readWords done).length
    i := s.i + done.length
    waits := if done.length = 0 then s.waits else 0 }

theorem Batch.turn_all {queued : List Op} (same : s.queued ops = queued) (passed : (v.status e).qBusy = false)
    (kept : (v.left e).rmem = (v.status e).rmem) (split : queued = done.map Prod.fst)
    (few : readCount queued ≤ swdqReadsMax) (going : (v.status e).qstop = false)
    (holds : Holds4 (readWords done) (v.status e).rmem) :
    s.turn retry ops e v = .inl (s.gain done (readWords done)) := by
  obtain ⟨consumed, status, -⟩ := poll_status passed
  have all : doneOps queued consumed (v.status e).qFlags = queued.length := if_pos ((flags_stopped passed).mpr going)
  have right : parityStop queued consumed (v.status e).qFlags = false := by
    rw [parityStop, all, decide_eq_false (Nat.lt_irrefl _), Bool.and_false]
  have count : (readWords done).length = readCount queued := by rw [length_readWords, ← split]
  rw [turn, status, kept, same, round_done holds (by rw [count]; exact few), after, if_pos all, all]
  · rw [gain, List.take_length, count, split, List.length_map]
    rfl
  · rw [all, right, List.take_length, count]
    rfl

/-- A queue that stopped. -/
theorem Batch.turn_stopped {queued : List Op} (same : s.queued ops = queued) (passed : (v.status e).qBusy = false)
    (kept : (v.left e).rmem = (v.status e).rmem) (split : queued = done.map Prod.fst ++ o :: rest)
    (few : readCount queued ≤ swdqReadsMax) (bad : r.ok o = false) (stop : (v.status e).qstop = true)
    (ack : (v.status e).ack = r.ack) (taken : (v.status e).qptr = (queueBytes (done.map Prod.fst)).length + 1)
    (inside : (queueBytes (done.map Prod.fst)).length + 1 < depth) (perr : (v.status e).perr = (r.ack == 0b001#3))
    (brought : words = readWords done ++ if r.ack = 0b001#3 then [r.data] else [])
    (holds : Holds4 words (v.status e).rmem) :
    s.turn retry ops e v =
      if r.ack = 0b010#3 ∧ (s.gain done words).waits < retry then
        .inl { s.gain done words with waits := (s.gain done words).waits + 1 }
      else .inr ⟨s.i + done.length, stopAck r, (s.gain done words).rdata⟩ := by
  obtain ⟨consumed, status, exact⟩ := poll_status passed
  have pointer : consumed = (queueBytes (done.map Prod.fst)).length + 1 := (exact (taken ▸ inside)).trans taken
  have front : doneOps queued consumed (v.status e).qFlags = done.length := by
    have stopped : ¬(v.status e).qFlags &&& 0x02 = 0 := by
      rw [flags_stopped passed, stop]
      exact Bool.noConfusion
    have counted := countDone_front (done.map Prod.fst) o rest 0
    rw [Nat.zero_add, List.length_map] at counted
    rw [doneOps, if_neg stopped, pointer, split, counted]
  have fewer : done.length < queued.length := by
    rw [split, List.length_append, List.length_map, List.length_cons]
    omega
  have parity : parityStop queued consumed (v.status e).qFlags = (r.ack == 0b001#3) := by
    rw [parityStop, front, decide_eq_true fewer, Bool.and_true, ← perr, Bool.eq_iff_iff, decide_eq_true_eq]
    exact flags_perr passed
  have taken : queued.take done.length = done.map Prod.fst := by
    rw [split]
    exact List.take_left' (List.length_map _)
  have count : words.length = readCount (done.map Prod.fst) + (r.ack == 0b001#3).toNat := by
    rw [brought, List.length_append, length_readWords]
    split
    · next ok => rw [ok]; rfl
    · next other => rw [beq_eq_false_iff_ne.mpr other]; rfl
  have room : words.length ≤ swdqReadsMax := by
    rw [split, readCount, List.countP_append] at few
    rw [count, readCount]
    cases ok : r.ack == 0b001#3 with
    | false => exact Nat.le_trans (Nat.le_add_right _ _) few
    | true =>
      rw [List.countP_cons_of_pos (Reply.read_of_bad bad (beq_iff_eq.mp ok))] at few
      simp only [Bool.toNat_true]
      omega
  rw [turn, status, kept, same, round_done holds room (by rw [front, parity, taken, count]), front, parity, after, taken,
    if_neg (Nat.ne_of_lt fewer), flags_ack passed, ack, stopAck]
  by_cases ok : r.ack = 0b001#3
  · have other : ¬(r.ack = 0b010#3 ∧ (s.gain done words).waits < retry) := by
      rintro ⟨wait, -⟩
      exact absurd (ok.symm.trans wait) (by decide)
    rw [if_pos (beq_iff_eq.mpr ok), if_neg other, if_pos ok]
    rfl
  · have same : r.ack.setWidth 8 = swdAckWait ↔ r.ack = 0b010#3 := by
      generalize r.ack = a
      revert a
      decide
    rw [if_neg (by simpa using ok), if_neg ok]
    simp only [same, gain, length_readWords]
    rfl

/-- The words at their reads' own indices, below what came before. -/
structure Reports (s : Batch) (out : Report) (result : Result) : Prop where
  done : result.done = s.i + out.count
  ack : result.ack = out.ack
  before : ∀ k < s.rd, result.rdata k = s.rdata k
  words : ∀ k (inside : k < out.words.length), result.rdata (s.rd + k) = out.words[k]

theorem Batch.keep_before (s : Batch) (words : List Word) {k : Nat} (before : k < s.rd) :
    (s.keep words).rdata k = s.rdata k := by
  rw [keep]
  exact if_neg fun within => Nat.not_lt.mpr within.1 before

theorem Batch.keep_word (s : Batch) {words : List Word} {k : Nat} (inside : k < words.length) :
    (s.keep words).rdata (s.rd + k) = words[k] := by
  rw [keep]
  simp only [Nat.le_add_right, Nat.add_lt_add_left inside s.rd, and_self, if_true, Nat.add_sub_cancel_left]
  rw [List.getD_eq_getElem?_getD, List.getElem?_eq_getElem inside]
  rfl

theorem Reports.stopped (s : Batch) (count : Nat) (ack : Byte) (words : List Word) :
    Reports s ⟨count, ack, words⟩ ⟨s.i + count, ack, (s.keep words).rdata⟩ :=
  ⟨rfl, rfl, fun _ => s.keep_before words, fun _ => s.keep_word⟩

theorem Reports.front {next : Batch} (later : Reports next out result) (place : next.i = s.i + done.length)
    (reads : next.rd = s.rd + (readWords done).length) {extra : List Word}
    (kept : next.rdata = (s.keep (readWords done ++ extra)).rdata) :
    Reports s ⟨done.length + out.count, out.ack, readWords done ++ out.words⟩ result := by
  refine ⟨?_, later.ack, ?_, ?_⟩
  · rw [later.done, place, Nat.add_assoc]
  · intro k before
    rw [later.before k (by omega), kept, s.keep_before _ before]
  · intro k inside
    rw [List.length_append] at inside
    by_cases own : k < (readWords done).length
    · rw [later.before _ (by omega), kept, List.getElem_append_left own,
        s.keep_word (by rw [List.length_append]; exact Nat.lt_add_right _ own), List.getElem_append_left own]
    · have rest := Nat.le_of_not_lt own
      have after := later.words (k - (readWords done).length) (by omega)
      rw [List.getElem_append_right rest, ← after, reads]
      congr 1
      omega

theorem Performs.front {waits : Nat} (ok : AllOk done)
    (later : Performs retry rest (if done.length = 0 then waits else 0) sent out) :
    Performs retry (done.map Prod.fst ++ rest) waits (done ++ sent)
      ⟨done.length + out.count, out.ack, readWords done ++ out.words⟩ := by
  induction done generalizing waits with
  | nil =>
    rw [List.length_nil, Nat.zero_add]
    exact later
  | cons p done ih =>
    obtain ⟨o, r⟩ := p
    have rest : (if done.length = 0 then 0 else 0) = 0 := ite_self 0
    have tail := @ih 0 (fun p member => ok p (List.mem_cons_of_mem _ member)) (by rw [rest]; exact later)
    have whole := @Performs.ok retry o r _ waits _ _ (ok (o, r) List.mem_cons_self) tail
    have words : readWords ((o, r) :: done) ++ out.words =
        if o.read then r.data :: (readWords done ++ out.words) else readWords done ++ out.words := by
      cases read : o.read <;> simp [readWords, read]
    have count : ((o, r) :: done).length + out.count = done.length + out.count + 1 := by
      rw [List.length_cons]
      omega
    rw [words, count]
    exact whole

theorem answeredClocks_append (front back : List (Op × Reply)) :
    answeredClocks idle (front ++ back) = answeredClocks idle front ++ answeredClocks idle back := List.flatMap_append

theorem taken_of_clear {queued : List Op} {clocks : List Clock} (clear : ¬Wraps idle queued clocks)
    (short : (queueBytes queued).length ≤ depth) (split : queued = done.map Prod.fst ++ o :: rest) (ok : AllOk done)
    (bad : r.ok o = false) (same : clocks = answeredClocks idle (done ++ [(o, r)])) :
    (queueBytes (done.map Prod.fst)).length + 1 < depth := by
  have length : (queueBytes queued).length =
      (queueBytes (done.map Prod.fst)).length + (o.bytes.length + (queueBytes rest).length) := by
    rw [split, queueBytes_append, queueBytes_cons, List.length_append, List.length_append]
  refine Nat.lt_of_not_le fun full => clear ⟨?_, done, o, r, ?_, ?_, ok, bad, same⟩
  · have one : 0 < o.bytes.length := Nat.succ_pos _
    simp only [swdqBytesMax, depth] at *
    omega
  · cases rest with
    | nil => exact split
    | cons p rest =>
      have one : 0 < o.bytes.length := Nat.succ_pos _
      have some := length_queueBytes_pos (List.cons_ne_nil p rest)
      omega
  · cases read : o.read with
    | true => rfl
    | false =>
      rw [length_bytes_write read] at length
      omega

/-- What a run of `swd_ll_batch` puts on the wires and returns. -/
theorem Runs.performs {visits : List Visit} {clocks : List Clock} (run : Runs retry ops s e visits clocks result)
    (clear : Clear retry idle ops s e visits) (ready : SwdReady half idle e) (least : 2 ≤ half) (most : half ≤ 63)
    (slack : idle ≤ 31) (inside : s.i ≤ ops.length) :
    ∃ sent out, Performs retry (ops.drop s.i) s.waits sent out ∧ clocks = answeredClocks idle sent ∧
      Reports s out result := by
  induction run with
  | @done s e all =>
    refine ⟨[], ⟨0, swdAckOk, []⟩, ?_, rfl, Nat.le_antisymm all inside, rfl, fun _ _ => rfl,
      fun _ none => absurd none (Nat.not_lt_zero _)⟩
    rw [List.drop_eq_nil_of_le all]
    exact .done s.waits
  | @head s next e v visits clocks result more serves on later ih =>
    obtain ⟨outcome, last, kept⟩ := serves.outcome ready least most slack
    cases clear with | cons clear after
    have onward := after next on
    generalize same : s.queued ops = queued at outcome clear
    have few : readCount queued ≤ swdqReadsMax := same ▸ (s.fits ops).reads
    have short : (queueBytes queued).length ≤ depth := same ▸ s.queue_short ops
    have whole := s.drop_eq ops
    rw [same] at whole
    cases outcome with
    | all done split ok wires going holds =>
      rw [s.turn_all same serves.passed kept split few going holds] at on
      obtain rfl := Sum.inl.inj on
      have place : (s.gain done (readWords done)).i = s.i + queued.length := by rw [split, List.length_map]; rfl
      have within : (s.gain done (readWords done)).i ≤ ops.length := by
        have lengths := congrArg List.length whole
        rw [List.length_append, List.length_drop, List.length_drop] at lengths
        have some := List.length_pos_iff.mpr (same ▸ s.queued_ne_nil more)
        omega
      obtain ⟨sent, out, performs, rest, reports⟩ := ih onward last within
      have stored : (s.gain done (readWords done)).rdata = (s.keep (readWords done ++ [])).rdata := by
        rw [List.append_nil]
        rfl
      refine ⟨done ++ sent, _, ?_, ?_, reports.front rfl rfl stored⟩
      · rw [place] at performs
        rw [whole, split]
        exact .front ok (by rw [← split]; exact performs)
      · rw [wires, rest, answeredClocks_append]
    | stopped done o r rest split ok bad wires stop ack taken perr holds =>
      have room := taken_of_clear clear short split ok bad wires
      generalize brought : readWords done ++ (if r.ack = 0b001#3 then [r.data] else []) = words at holds
      rw [s.turn_stopped same serves.passed kept split few bad stop ack (taken.trans (Nat.mod_eq_of_lt room)) room perr
        brought.symm holds] at on
      split at on
      · next again =>
          obtain rfl := Sum.inl.inj on
          generalize ops.drop (s.i + queued.length) = unsent at whole
          have place : ops.drop (s.i + done.length) = o :: rest ++ unsent := by
            rw [← List.drop_drop, whole, split, List.append_assoc]
            exact List.drop_left' (List.length_map _)
          have within : s.i + done.length ≤ ops.length := by
            refine Nat.le_of_not_lt fun past => ?_
            rw [List.drop_eq_nil_of_le (Nat.le_of_lt past)] at place
            exact nomatch place
          obtain ⟨sent, out, performs, further, reports⟩ := ih onward last within
          refine ⟨done ++ (o, r) :: sent, _, ?_, ?_, reports.front rfl rfl (by rw [brought]; rfl)⟩
          · have tail : Performs retry (ops.drop (s.i + done.length)) _ sent out := performs
            rw [place] at tail
            rw [whole, split, List.append_assoc]
            exact .front ok (.wait again.1 again.2 tail)
          · rw [wires, further, ← answeredClocks_append, List.append_assoc]
            rfl
      · exact nomatch on
  | @stop s e v result more serves ends =>
    obtain ⟨outcome, -, kept⟩ := serves.outcome ready least most slack
    cases clear with | cons clear _
    generalize same : s.queued ops = queued at outcome clear
    have few : readCount queued ≤ swdqReadsMax := same ▸ (s.fits ops).reads
    have short : (queueBytes queued).length ≤ depth := same ▸ s.queue_short ops
    have whole := s.drop_eq ops
    rw [same] at whole
    cases outcome with
    | all done split ok wires going holds =>
      rw [s.turn_all same serves.passed kept split few going holds] at ends
      exact nomatch ends
    | stopped done o r rest split ok bad wires stop ack taken perr holds =>
      have room := taken_of_clear clear short split ok bad wires
      generalize brought : readWords done ++ (if r.ack = 0b001#3 then [r.data] else []) = words at holds
      rw [s.turn_stopped same serves.passed kept split few bad stop ack (taken.trans (Nat.mod_eq_of_lt room)) room perr
        brought.symm holds] at ends
      split at ends
      · exact nomatch ends
      · next passed =>
          obtain rfl := Sum.inr.inj ends
          refine ⟨done ++ [(o, r)], _, ?_, wires, .stopped s done.length _ words⟩
          rw [whole, split, List.append_assoc, ← brought]
          exact .front ok (.stop bad fun wait => Nat.le_of_not_lt fun more => passed ⟨wait, more⟩)

theorem countDone_le (consumed : Nat) (queued : List Op) (off : Nat) : countDone consumed queued off ≤ queued.length := by
  induction queued generalizing off with
  | nil => exact Nat.le_refl _
  | cons o rest ih =>
    rw [countDone]
    split
    · exact Nat.zero_le _
    · exact Nat.succ_le_succ (ih _)

theorem doneOps_le (queued : List Op) (consumed : Nat) (flags : Byte) : doneOps queued consumed flags ≤ queued.length := by
  rw [doneOps]
  split
  · exact Nat.le_refl _
  · exact countDone_le _ _ _

/-- The rounds a batch has used up: those of its operations, and the waits. -/
def Batch.used (retry : Nat) (s : Batch) : Nat := s.i * (retry + 1) + s.waits

theorem Batch.after_on {queued : List Op} {flags : Byte} {count : Nat} {perr : Bool} {next : Batch}
    (on : s.after retry queued flags count perr = .inl next) (inside : count ≤ queued.length) (some : queued ≠ [])
    (waits : s.waits ≤ retry) :
    s.used retry < next.used retry ∧ next.waits ≤ retry ∧ next.i ≤ s.i + queued.length := by
  have grows {done : Nat} (positive : 0 < done) : s.used retry < (s.i + done) * (retry + 1) := by
    have more := Nat.mul_le_mul_right (retry + 1) (Nat.succ_le_of_lt positive)
    rw [used, Nat.add_mul]
    omega
  simp only [after] at on
  split at on
  · next all =>
      obtain rfl := Sum.inl.inj on
      have positive : 0 < count := all ▸ List.length_pos_iff.mpr some
      refine ⟨?_, ?_, Nat.add_le_add_left inside _⟩
      · exact Nat.lt_of_lt_of_le (grows positive) (Nat.le_add_right _ _)
      · rw [if_neg (Nat.ne_of_gt positive)]
        exact Nat.zero_le _
  · split at on
    · exact nomatch on
    · generalize kept : (if count = 0 then s.waits else 0) = waited at on
      split at on
      · next again =>
          obtain rfl := Sum.inl.inj on
          refine ⟨?_, again.2, Nat.add_le_add_left inside _⟩
          rw [← kept]
          obtain none | positive := Nat.eq_zero_or_pos count
          · simp only [used, none, Nat.add_zero, if_true]
            exact Nat.lt_succ_self _
          · exact Nat.lt_of_lt_of_le (grows positive) (Nat.le_add_right _ _)
      · exact nomatch on

theorem Batch.turn_on {next : Batch} (on : s.turn retry ops e v = .inl next) (more : s.i < ops.length)
    (waits : s.waits ≤ retry) : s.used retry < next.used retry ∧ next.waits ≤ retry ∧ next.i ≤ ops.length := by
  have some := Batch.queued_ne_nil more
  have room : s.i + (s.queued ops).length ≤ ops.length := by
    have lengths := congrArg List.length (s.drop_eq ops)
    rw [List.length_append, List.length_drop, List.length_drop] at lengths
    have positive := List.length_pos_iff.mpr some
    omega
  rw [turn] at on
  generalize poll (v.status e).qDone (v.status e).qFlags = status at on
  cases status with
  | failed => cases on
  | busy => cases on
  | done consumed flags =>
    simp only [round] at on
    split at on
    · obtain ⟨less, few, place⟩ := after_on on (doneOps_le _ _ _) some waits
      exact ⟨less, few, Nat.le_trans place room⟩
    · split at on
      · obtain ⟨less, few, place⟩ := after_on on (doneOps_le _ _ _) some waits
        exact ⟨less, few, Nat.le_trans place room⟩
      · cases on

theorem Steps.stands {visits : List Visit} {last : Batch} {final : Engine} (steps : Steps retry ops s e visits last final)
    (ready : SwdReady half idle e) (least : 2 ≤ half) (most : half ≤ 63) (slack : idle ≤ 31) (waits : s.waits ≤ retry)
    (inside : s.i ≤ ops.length) :
    SwdReady half idle final ∧ last.waits ≤ retry ∧ last.i ≤ ops.length ∧
      s.used retry + visits.length ≤ last.used retry := by
  induction steps with
  | refl s e => exact ⟨ready, waits, inside, Nat.le_refl _⟩
  | head more serves on later ih =>
    obtain ⟨-, rests, -⟩ := serves.outcome ready least most slack
    obtain ⟨less, few, within⟩ := Batch.turn_on on more waits
    obtain ⟨rested, counted, placed, rounds⟩ := ih rests few within
    refine ⟨rested, counted, placed, ?_⟩
    rw [List.length_cons]
    omega

/-- `SWDQ_IDLE_TIMEOUT_US` of the 24 MHz clock. -/
abbrev swdqIdleTimeout : Nat := 250000 * 24

theorem ticksForQueue_le {count : Nat} (short : count ≤ depth) (most : half ≤ 63) (slack : idle ≤ 31) :
    ticksForQueue half idle count ≤ swdqIdleTimeout := by
  have unit : (46 + idle) * (2 * half) ≤ 77 * 126 := Nat.mul_le_mul (by omega) (by omega)
  have whole : (count + 1) * ((46 + idle) * (2 * half) + 2) ≤ 513 * (77 * 126 + 2) :=
    Nat.mul_le_mul (Nat.succ_le_succ short) (Nat.add_le_add_right unit 2)
  exact Nat.le_trans whole (by decide)

/-- `fpga_swdq_config`: the half period is kept within 2 to 63. -/
def swdqHalf (half : Nat) : Nat :=
  let half := if half < 2 then 2 else half
  if half > 63 then 63 else half

/-- `fpga_swdq_config`: at most 31 idle cycles. -/
def swdqIdle (idle : Nat) : Nat := if idle > 31 then 31 else idle

structure Input.SwdArm (i : Input) : Prop where
  arm : i.armStb = true
  disarm : i.disarmStb = false
  config : i.qCfgStb = false
  begin : i.feedBegin = false
  feed : i.feedStb = false

/-- `SWD_QCONFIG` as `fpga_swdq_config` sends it. -/
structure Input.QConfig (half idle : Nat) (i : Input) : Prop where
  config : i.qCfgStb = true
  half : i.qCfgHalf = swdqHalf half
  idle : i.qCfgIdle = swdqIdle idle
  arm : i.armStb = false
  spiArm : i.spiArmStb = false
  disarm : i.disarmStb = false
  begin : i.feedBegin = false
  feed : i.feedStb = false

theorem tick_still {i : Input} (still : e.run = true → e.qst = .idle ∧ (!e.qstop && e.qready) = false) :
    e.tick i = e.reads i { e.enqueue i <| e.bitBang i <| Engine.begin i <| configure i <| arms i <| e.sync i e with
      qready := (e.qptr != e.fptr) && !i.feedBegin } := by
  rw [Engine.tick, sequencer]
  cases run : e.run with
  | false => rw [if_neg Bool.false_ne_true]
  | true =>
    obtain ⟨rest, held⟩ := still run
    simp only [rest, held, if_true, Bool.false_eq_true, if_false]

theorem SwdReady.arm {i : Input} (arm : i.SwdArm) (resting : e.armed = false) : SwdReady e.half 8 (e.tick i) := by
  have still : e.run = false := by rw [Engine.run, resting, Bool.false_and]
  rw [tick_still fun run => absurd (still.symm.trans run) Bool.false_ne_true]
  simp only [reads, enqueue, bitBang, Engine.begin, configure, arms, sync, arm.arm, arm.disarm, arm.config, arm.begin, arm.feed,
    Bool.false_and, Bool.false_eq_true, if_false, if_true]
  cases i.spiCsStb <;> exact ⟨rfl, rfl, rfl, rfl, rfl, rfl, by rintro ⟨⟩⟩

theorem swdqHalf_lt (half : Nat) : 2 ≤ swdqHalf half ∧ swdqHalf half ≤ 63 := by
  simp only [swdqHalf]
  split <;> split <;> omega

theorem swdqIdle_le (idle : Nat) : swdqIdle idle ≤ 31 := by
  rw [swdqIdle]
  split <;> omega

theorem SwdReady.config {i : Input} {halfBefore idleBefore : Nat} (ready : SwdReady halfBefore idleBefore e)
    (config : i.QConfig half idle) : SwdReady (swdqHalf half) (swdqIdle idle) (e.tick i) := by
  have rate : swdqHalf half % 64 = swdqHalf half := Nat.mod_eq_of_lt (Nat.lt_succ_of_le (swdqHalf_lt half).2)
  have unit : (45 + swdqIdle idle % 32) % 128 = 45 + swdqIdle idle := by
    have few := swdqIdle_le idle
    omega
  have settled : e.qmode = true → e.qstop = true ∨ (e.qptr = e.fptr ∧ ((e.qptr != e.fptr) && !false) = false) := by
    intro swd
    obtain stopped | ⟨same, -⟩ := ready.quiet swd
    · exact .inl stopped
    · exact .inr ⟨same, by rw [same, bne_self_eq_false, Bool.false_and]⟩
  rw [tick_still ready.held]
  simp only [reads, enqueue, bitBang, Engine.begin, configure, arms, sync, config.arm, config.spiArm, config.disarm,
    config.config, config.begin, config.feed, config.half, config.idle, Bool.false_and, Bool.false_eq_true, if_false, if_true,
    rate, unit]
  cases i.spiCsStb <;> exact ⟨ready.armed, ready.spi, rfl, ready.cpol, rfl, ready.rest, settled⟩

theorem Steps.ends {visits : List Visit} {last : Batch} {final : Engine} {feed : Input} {front back : List Input}
    (steps : Steps retry ops s e visits last final) (ready : SwdReady half idle e) (least : 2 ≤ half) (most : half ≤ 63)
    (slack : idle ≤ 31) (waits : s.waits ≤ retry) (inside : s.i ≤ ops.length)
    (run : QueueFeed (last.queue ops) final feed (front ++ back))
    (arrived : front.filterMap Input.fed = last.queue ops) (enough : swdqIdleTimeout ≤ back.length) :
    (swdWire.run final (feed :: (front ++ back))).qBusy = false := by
  obtain ⟨rests, -, -, -⟩ := steps.stands ready least most slack waits inside
  rw [last.queue_eq] at run arrived
  have short := last.queue_short ops
  exact run.ends rests least most slack short (last.fits ops).reads arrived
    (Nat.le_trans (ticksForQueue_le short most slack) enough)

end BenchPod.SwdEngine
