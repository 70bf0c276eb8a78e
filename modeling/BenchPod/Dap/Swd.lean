import BenchPod.Library.Word

/-!
# SWD transfers, one by one and in the gateware's queue

A target answers every operation as it likes, from all it has seen.  A transfer is bit-banged, or many
are queued as bytes in the gateware, which stops at the first ACK other than OK and says how many bytes
it took.
-/

namespace BenchPod.Dap

def ackOk : Byte := 1
def ackWait : Byte := 2
def ackNone : Byte := 7
/-- The parity flag of an ACK. -/
def ackParity : Byte := 8

/-- The request bits. -/
def isAp (request : Byte) : Bool := request.getLsbD 0
def isRead (request : Byte) : Bool := request.getLsbD 1

/-- A transfer: its request bits, and the value of a write. -/
structure Op where
  req : Byte
  data : Word
  deriving DecidableEq

/-- The operation that a request and a value make. -/
def Op.of (request : Byte) (value : Word) : Op := ⟨request &&& 0x0F, if isRead request then 0 else value⟩

def Op.read (op : Op) : Bool := isRead op.req

/-- What is done on the line. -/
inductive Wire where
  | transfer (op : Op)
  | seqOut (bits : List Bool)
  | seqIn (nbits : Nat)
  | nreset (asserted : Bool)
  | setIdle (cycles : Byte)
  | setClock (hz : Word)
  deriving DecidableEq

/-- A target's answer to a transfer: three bits of ACK, and the word of a read with whether its parity
is right. -/
structure Answer where
  ack : BitVec 3
  data : Word
  parity : Bool
  deriving DecidableEq

/-- A target: what it answers depends on what it has seen. -/
structure Target where
  answer : List Wire → Op → Answer
  /-- The samples of an input sequence. -/
  sample : List Wire → Nat → Bool

/-- The ACK that swd_ll_transfer returns. -/
def Answer.code (answer : Answer) (op : Op) : Byte :=
  if op.read && answer.ack == 1 && !answer.parity then ackOk ||| ackParity
  else answer.ack.setWidth 8

/-- The bytes of an operation in the gateware's queue. -/
def Op.size (op : Op) : Nat := if op.read then 1 else 5

/-- What the gateware reports of a run of its queue, with the reads' words. -/
structure QueueRun where
  seen : List Wire
  /-- The bytes the engine took; a transfer that stops it takes its request byte only. -/
  taken : Nat
  stopped : Bool
  ack : BitVec 3
  perr : Bool
  reads : List Word

/-- The gateware runs its queue. -/
def queueRun (t : Target) : List Wire → Nat → List Word → List Op → QueueRun
  | seen, taken, reads, [] => ⟨seen, taken, false, 1, false, reads⟩
  | seen, taken, reads, op :: ops =>
    let answer := t.answer seen op
    let seen := seen ++ [.transfer op]
    if answer.ack ≠ 1 then ⟨seen, taken + 1, true, answer.ack, false, reads⟩
    else if op.read then
      if answer.parity then queueRun t seen (taken + 1) (reads ++ [answer.data]) ops
      else ⟨seen, taken + 1, true, 1, true, reads ++ [answer.data]⟩
    else queueRun t seen (taken + 5) reads ops

def swdqBytesMax : Nat := 512
def swdqReadsMax : Nat := 128

/-- The pointer that the gateware reports has nine bits. -/
def QueueRun.consumed (run : QueueRun) : Nat := run.taken % 512

/-- How many operations fit the queue behind those already in it. -/
def chunk : List Op → Nat → Nat → Nat → Nat
  | [], _, nops, _ => nops
  | op :: ops, qlen, nops, nrd =>
    if nops < 255 then
      if swdqBytesMax < qlen + op.size || (op.read && decide (swdqReadsMax ≤ nrd)) then nops
      else chunk ops (qlen + op.size) (nops + 1) (nrd + op.read.toNat)
    else nops

/-- The operations whose bytes lie whole before the last byte taken. -/
def opsBefore (consumed : Nat) : List Op → Nat → Nat
  | [], _ => 0
  | op :: ops, offset =>
    if consumed ≤ offset + 1 then 0 else opsBefore consumed ops (offset + op.size) + 1

/-- What swd_ll_batch returns. -/
structure Batch where
  seen : List Wire
  done : Nat
  rdata : List Word
  ack : Byte

def readCount (ops : List Op) : Nat := (ops.filter Op.read).length

/-- The loop of swd_ll_batch: `done` operations are completed and `ops` are left. -/
def batchLoop (t : Target) (waitRetry : Nat) :
    Nat → List Wire → Nat → Nat → List Word → List Op → Batch
  | 0, seen, _, done, rdata, _ => ⟨seen, done, rdata, ackNone⟩
  | fuel + 1, seen, waits, done, rdata, ops =>
    if ops = [] then ⟨seen, done, rdata, ackOk⟩
    else
      let nops := chunk ops 0 0 0
      let queue := ops.take nops
      let run := queueRun t seen 0 [] queue
      let now := if run.stopped then opsBefore run.consumed queue 0 else nops
      let perr := run.perr && decide (now < nops)
      -- a read that fails its parity check has stored its word
      let rdata := rdata ++ run.reads.take (readCount (queue.take now) + perr.toNat)
      let waits := if 0 < now then 0 else waits
      if now = nops then batchLoop t waitRetry fuel run.seen waits (done + now) rdata (ops.drop now)
      else if perr then ⟨run.seen, done + now, rdata, ackOk ||| ackParity⟩
      else if run.ack = 2 ∧ waits < waitRetry then
        batchLoop t waitRetry fuel run.seen (waits + 1) (done + now) rdata (ops.drop now)
      else ⟨run.seen, done + now, rdata, run.ack.setWidth 8⟩

/-- How often the loop can still go round. -/
def rounds (waitRetry waits : Nat) (ops : List Op) : Nat := ops.length * (waitRetry + 1) + (waitRetry - waits)

def swdLlBatch (t : Target) (waitRetry : Nat) (seen : List Wire) (ops : List Op) : Batch :=
  batchLoop t waitRetry (rounds waitRetry 0 ops + 1) seen 0 0 [] ops

variable {t : Target} {seen : List Wire} {taken : Nat} {reads : List Word} {ops : List Op}

theorem Op.size_pos (op : Op) : 0 < op.size := by
  rw [size]
  split <;> omega

/-- What a run of the queue has done on the line, and where it stopped. -/
theorem queueRun_spec :
    ∃ count ≤ ops.length,
      (queueRun t seen taken reads ops).seen = seen ++ (ops.take count).map .transfer ∧
      ((queueRun t seen taken reads ops).stopped = false → count = ops.length) ∧
      ((queueRun t seen taken reads ops).stopped = true →
        taken < (queueRun t seen taken reads ops).taken ∧
        opsBefore (queueRun t seen taken reads ops).taken ops taken + 1 = count ∧
        ((queueRun t seen taken reads ops).ack ≠ 1 ∨ (queueRun t seen taken reads ops).perr = true)) := by
  induction ops generalizing seen taken reads with
  | nil =>
    refine ⟨0, Nat.le_refl 0, (List.append_nil _).symm, fun _ => rfl, ?_⟩
    intro stopped
    cases stopped
  | cons op ops ih =>
    have here (seen : List Wire) (ack : BitVec 3) (perr : Bool) (reads : List Word) (why : ack ≠ 1 ∨ perr = true) :
        ∃ count ≤ (op :: ops).length, seen ++ [.transfer op] = seen ++ ((op :: ops).take count).map .transfer ∧
          (true = false → count = (op :: ops).length) ∧
          (true = true → taken < taken + 1 ∧ opsBefore (taken + 1) (op :: ops) taken + 1 = count ∧
            (ack ≠ 1 ∨ perr = true)) := by
      refine ⟨1, Nat.succ_le_succ (Nat.zero_le _), rfl, ?_, fun _ => ⟨Nat.lt_succ_self _, ?_, why⟩⟩
      · intro stopped
        cases stopped
      · rw [opsBefore, if_pos (Nat.le_refl _)]
    have goes (run : QueueRun) (size : Nat) (size_eq : op.size = size) (rest : ∃ count ≤ ops.length,
          run.seen = (seen ++ [.transfer op]) ++ (ops.take count).map .transfer ∧
          (run.stopped = false → count = ops.length) ∧
          (run.stopped = true → taken + size < run.taken ∧
            opsBefore run.taken ops (taken + size) + 1 = count ∧ (run.ack ≠ 1 ∨ run.perr = true))) :
        ∃ count ≤ (op :: ops).length, run.seen = seen ++ ((op :: ops).take count).map .transfer ∧
          (run.stopped = false → count = (op :: ops).length) ∧
          (run.stopped = true → taken < run.taken ∧
            opsBefore run.taken (op :: ops) taken + 1 = count ∧ (run.ack ≠ 1 ∨ run.perr = true)) := by
      obtain ⟨count, le, seen_eq, through, stop⟩ := rest
      refine ⟨count + 1, Nat.succ_le_succ le, ?_, fun run => congrArg (· + 1) (through run), ?_⟩
      · rw [seen_eq, List.append_assoc]
        rfl
      · intro stopped
        obtain ⟨far, before, why⟩ := stop stopped
        have positive := op.size_pos
        refine ⟨by omega, ?_, why⟩
        rw [opsBefore, if_neg (by omega), size_eq, before]
    simp only [queueRun]
    split
    · next wrong => exact here seen _ false reads (.inl wrong)
    · split
      · next read =>
          split
          · exact goes _ 1 (if_pos read) ih
          · exact here seen 1 true (reads ++ [(t.answer seen op).data]) (.inr rfl)
      · next write => exact goes _ 5 (if_neg write) ih

theorem opsBefore_mono {near far offset : Nat} (le : near ≤ far) :
    opsBefore near ops offset ≤ opsBefore far ops offset := by
  induction ops generalizing offset with
  | nil => exact Nat.le_refl 0
  | cons op ops ih =>
    simp only [opsBefore]
    split
    · exact Nat.zero_le _
    · next reaches =>
        rw [if_neg (by omega)]
        exact Nat.succ_le_succ ih

theorem chunk_count (ops : List Op) (qlen nops nrd : Nat) :
    ∃ count ≤ ops.length, chunk ops qlen nops nrd = nops + count := by
  induction ops generalizing qlen nops nrd with
  | nil => exact ⟨0, Nat.le_refl 0, rfl⟩
  | cons op ops ih =>
    rw [chunk]
    split
    · split
      · exact ⟨0, Nat.zero_le _, rfl⟩
      · obtain ⟨count, le, eq⟩ := ih (qlen + op.size) (nops + 1) (nrd + op.read.toNat)
        exact ⟨count + 1, Nat.succ_le_succ le, by omega⟩
    · exact ⟨0, Nat.zero_le _, rfl⟩

theorem setWidth_ne_ackOk : ∀ ack : BitVec 3, ack ≠ 1 → ack.setWidth 8 ≠ ackOk := by decide

theorem sends_more {batch : Batch} {sent wires : List Wire} {done now count : Nat}
    (fits : now ≤ ops.length) (first : ((ops.take now).map Wire.transfer).Sublist sent)
    (seen_eq : batch.seen = (seen ++ sent) ++ wires) (done_eq : batch.done = done + now + count)
    (le : count ≤ (ops.drop now).length)
    (rest : (((ops.drop now).take count).map Wire.transfer).Sublist wires)
    (short : count < (ops.drop now).length → batch.ack ≠ ackOk) :
    ∃ wires count, batch.seen = seen ++ wires ∧ batch.done = done + count ∧ count ≤ ops.length ∧
      ((ops.take count).map Wire.transfer).Sublist wires ∧
      (count < ops.length → batch.ack ≠ ackOk) := by
  rw [List.length_drop] at le short
  refine ⟨sent ++ wires, now + count, ?_, ?_, by omega, ?_, fun less => short (by omega)⟩
  · rw [seen_eq, List.append_assoc]
  · rw [done_eq, Nat.add_assoc]
  · rw [List.take_add, List.map_append]
    exact first.append rest

/-- Every operation that a batch completes has been done on the line, and a batch that does not complete
all of them ends with another ACK than OK. -/
theorem batchLoop_sends {waitRetry fuel waits done : Nat} {rdata : List Word} :
    ∃ wires count,
      (batchLoop t waitRetry fuel seen waits done rdata ops).seen = seen ++ wires ∧
      (batchLoop t waitRetry fuel seen waits done rdata ops).done = done + count ∧
      count ≤ ops.length ∧ ((ops.take count).map Wire.transfer).Sublist wires ∧
      (count < ops.length → (batchLoop t waitRetry fuel seen waits done rdata ops).ack ≠ ackOk) := by
  induction fuel generalizing seen waits done rdata ops with
  | zero =>
    have none_ne : ackNone ≠ ackOk := by decide
    exact ⟨[], 0, (List.append_nil _).symm, rfl, Nat.zero_le _, List.Sublist.refl _, fun _ => none_ne⟩
  | succ fuel ih =>
    by_cases empty : ops = []
    · subst empty
      exact ⟨[], 0, (List.append_nil _).symm, rfl, Nat.le_refl 0, List.Sublist.refl _,
        fun less => absurd less (Nat.lt_irrefl 0)⟩
    · rw [batchLoop, if_neg empty]
      extract_lets nops queue run now perr rdata' waits'
      have most : nops ≤ ops.length := by
        obtain ⟨count, le, eq⟩ := chunk_count ops 0 0 0
        omega
      have queue_length : queue.length = nops := by rw [List.length_take, Nat.min_eq_left most]
      obtain ⟨count, count_le, seen_eq, through, stop⟩ :
          ∃ count ≤ queue.length, run.seen = seen ++ (queue.take count).map .transfer ∧
            (run.stopped = false → count = queue.length) ∧
            (run.stopped = true → 0 < run.taken ∧ opsBefore run.taken queue 0 + 1 = count ∧
              (run.ack ≠ 1 ∨ run.perr = true)) := queueRun_spec
      have sent : now ≤ nops ∧ ((ops.take now).map Wire.transfer).Sublist ((queue.take count).map Wire.transfer) ∧
          (now ≠ nops → run.stopped = true ∧ now < nops) := by
        have part (n : Nat) (le : n ≤ count) (fits : n ≤ nops) :
            ((ops.take n).map Wire.transfer).Sublist ((queue.take count).map Wire.transfer) := by
          have same : ops.take n = queue.take n := by rw [List.take_take, Nat.min_eq_left fits]
          rw [same]
          exact (List.take_sublist_take_left le).map _
        cases stopped : run.stopped with
        | false =>
          have now_eq : now = nops := if_neg (by rw [stopped]; exact Bool.false_ne_true)
          have whole := through stopped
          rw [now_eq]
          exact ⟨Nat.le_refl _, part nops (by omega) (Nat.le_refl _), fun ne => absurd rfl ne⟩
        | true =>
          obtain ⟨-, before, -⟩ := stop stopped
          have now_eq : now = opsBefore run.consumed queue 0 := if_pos stopped
          have less : opsBefore run.consumed queue 0 ≤ opsBefore run.taken queue 0 := opsBefore_mono (Nat.mod_le ..)
          rw [now_eq]
          exact ⟨by omega, part _ (by omega) (by omega), fun _ => ⟨rfl, by omega⟩⟩
      obtain ⟨now_le, first, early⟩ := sent
      have fits : now ≤ ops.length := by omega
      have again (waits : Nat) : ∃ wires count,
            (batchLoop t waitRetry fuel run.seen waits (done + now) rdata' (ops.drop now)).seen = seen ++ wires ∧
            (batchLoop t waitRetry fuel run.seen waits (done + now) rdata' (ops.drop now)).done = done + count ∧
            count ≤ ops.length ∧ ((ops.take count).map Wire.transfer).Sublist wires ∧
            (count < ops.length → (batchLoop t waitRetry fuel run.seen waits (done + now) rdata' (ops.drop now)).ack ≠
                ackOk) := by
        obtain ⟨wires, later, seen_eq', done_eq, le, rest, short⟩ :=
          @ih run.seen (ops.drop now) waits (done + now) rdata'
        exact sends_more fits first (by rw [seen_eq', seen_eq]) done_eq le rest short
      have ends (ack : Byte) (wrong : ack ≠ ackOk) :
          ∃ wires count, run.seen = seen ++ wires ∧ done + now = done + count ∧ count ≤ ops.length ∧
            ((ops.take count).map Wire.transfer).Sublist wires ∧ (count < ops.length → ack ≠ ackOk) :=
        ⟨_, now, seen_eq, rfl, fits, first, fun _ => wrong⟩
      split
      · exact again _
      · next part =>
          obtain ⟨stopped, less⟩ := early part
          obtain ⟨-, -, why⟩ := stop stopped
          split
          · exact ends (ackOk ||| ackParity) (by decide)
          · next even =>
              split
              · exact again _
              · refine ends _ (setWidth_ne_ackOk run.ack (why.resolve_right fun odd => even ?_))
                rw [Bool.and_eq_true]
                exact ⟨odd, decide_eq_true less⟩

theorem swdLlBatch_sends (t : Target) (waitRetry : Nat) (seen : List Wire) (ops : List Op) :
    ∃ wires, (swdLlBatch t waitRetry seen ops).seen = seen ++ wires ∧
      (swdLlBatch t waitRetry seen ops).done ≤ ops.length ∧
      ((ops.take (swdLlBatch t waitRetry seen ops).done).map Wire.transfer).Sublist wires ∧
      ((swdLlBatch t waitRetry seen ops).done < ops.length → (swdLlBatch t waitRetry seen ops).ack ≠ ackOk) := by
  obtain ⟨wires, count, seen_eq, done_eq, le, sent, short⟩ :
      ∃ wires count, (swdLlBatch t waitRetry seen ops).seen = seen ++ wires ∧
        (swdLlBatch t waitRetry seen ops).done = 0 + count ∧ count ≤ ops.length ∧
        ((ops.take count).map Wire.transfer).Sublist wires ∧
        (count < ops.length → (swdLlBatch t waitRetry seen ops).ack ≠ ackOk) := batchLoop_sends
  rw [Nat.zero_add] at done_eq
  rw [done_eq]
  exact ⟨wires, seen_eq, le, sent, short⟩

end BenchPod.Dap
