import BenchPod.Dap.Swd

/-!
# A batch is its operations one by one

With a target that never answers WAIT the gateware's queue does what single transfers do, up to the
first operation that is not answered OK.  The exception is a read that stops the queue as its 512th
byte: the engine's pointer is then reported as 0.
-/

namespace BenchPod.Dap

/-- What operations done one by one leave, up to the first that is not answered OK. -/
structure Serial where
  seen : List Wire
  /-- The operations answered OK. -/
  done : Nat
  /-- The words of the completed reads. -/
  words : List Word
  /-- The ACK of the operation that is not answered OK. -/
  stop : Option Byte

def serial (t : Target) : List Wire → List Op → Serial
  | seen, [] => ⟨seen, 0, [], none⟩
  | seen, op :: ops =>
    let answer := t.answer seen op
    if answer.code op = ackOk then
      let rest := serial t (seen ++ [.transfer op]) ops
      ⟨rest.seen, rest.done + 1, if op.read then answer.data :: rest.words else rest.words, rest.stop⟩
    else ⟨seen ++ [.transfer op], 0, [], some (answer.code op)⟩

/-- The bytes of the queue with one more operation, which goes into a new queue where it does not fit. -/
def queueWith (taken : Nat) (op : Op) : Nat :=
  if swdqBytesMax < taken + op.size then op.size else taken + op.size

/-- The operation that is not answered OK is no read that fills its queue. -/
def NoWrap (t : Target) : List Wire → Nat → List Op → Prop
  | _, _, [] => True
  | seen, taken, op :: ops =>
    if (t.answer seen op).code op = ackOk then NoWrap t (seen ++ [.transfer op]) (queueWith taken op) ops
    else ¬ (op.read = true ∧ queueWith taken op = swdqBytesMax)

def NeverWaits (t : Target) : Prop := ∀ seen op, (t.answer seen op).ack ≠ 2

/-- The operations of a queue before these. -/
def Serial.behind (count : Nat) (words : List Word) (rest : Serial) : Serial :=
  ⟨rest.seen, count + rest.done, words ++ rest.words, rest.stop⟩

variable {t : Target} {seen : List Wire} {taken nops nrd : Nat} {reads : List Word} {ops : List Op}

theorem code_ok {answer : Answer} {op : Op} (ok : answer.ack = 1)
    (even : op.read = true → answer.parity = true) : answer.code op = ackOk := by
  rw [Answer.code, if_neg]
  · rw [ok]
    rfl
  · rw [Bool.and_eq_true, Bool.and_eq_true]
    rintro ⟨⟨read, -⟩, odd⟩
    rw [even read] at odd
    cases odd

theorem code_parity {answer : Answer} {op : Op} (ok : answer.ack = 1) (read : op.read = true)
    (odd : answer.parity ≠ true) : answer.code op = ackOk ||| ackParity := by
  rw [Answer.code, if_pos]
  rw [ok, read, Bool.eq_false_iff.mpr odd]
  rfl

theorem code_wrong {answer : Answer} {op : Op} (wrong : answer.ack ≠ 1) : answer.code op = answer.ack.setWidth 8 := by
  rw [Answer.code, if_neg]
  rw [Bool.and_eq_true, Bool.and_eq_true]
  rintro ⟨⟨-, ok⟩, -⟩
  exact wrong (eq_of_beq ok)

/-- A run of the queue that takes all of it. -/
structure Through (t : Target) (seen : List Wire) (reads : List Word) (ops : List Op) (count : Nat)
    (run : QueueRun) : Prop where
  stopped : run.stopped = false
  serial : ∃ words, run.reads = reads ++ words ∧ words.length = readCount (ops.take count) ∧
    Dap.serial t seen ops = (Dap.serial t run.seen (ops.drop count)).behind count words
  noWrap : NoWrap t run.seen 0 (ops.drop count)

/-- A run of the queue that stops. -/
structure Halts (t : Target) (seen : List Wire) (taken : Nat) (reads : List Word) (ops : List Op)
    (count : Nat) (run : QueueRun) : Prop where
  stopped : run.stopped = true
  inside : taken < run.taken ∧ run.taken < swdqBytesMax
  serial : ∃ done words extra code, done < count ∧ opsBefore run.taken (ops.take count) taken = done ∧
    run.reads = reads ++ words ++ extra ∧ words.length = readCount (ops.take done) ∧
    extra.length = run.perr.toNat ∧ Dap.serial t seen ops = ⟨run.seen, done, words, some code⟩ ∧
    (run.perr = true ∧ code = ackOk ||| ackParity ∨
      run.perr = false ∧ run.ack ≠ 1 ∧ run.ack ≠ 2 ∧ code = run.ack.setWidth 8)

theorem readCount_cons (op : Op) (ops : List Op) : readCount (op :: ops) = op.read.toNat + readCount ops := by
  rw [readCount, readCount, List.filter_cons]
  cases op.read with
  | true => rw [if_pos rfl, List.length_cons, Bool.toNat_true, Nat.add_comm]
  | false => rw [if_neg Bool.false_ne_true, Bool.toNat_false, Nat.zero_add]

theorem Op.size_le (op : Op) : op.size ≤ 5 := by
  rw [size]
  split <;> omega

theorem Serial.behind_nothing (rest : Serial) : rest.behind 0 [] = rest := by
  rw [behind, Nat.zero_add, List.nil_append]

theorem serial_ok {op : Op} (ok : (t.answer seen op).code op = ackOk) :
    serial t seen (op :: ops) = (serial t (seen ++ [.transfer op]) ops).behind 1
      (if op.read then [(t.answer seen op).data] else []) := by
  rw [serial, Serial.behind]
  simp only [if_pos ok, Nat.add_comm]
  cases op.read with
  | true => rfl
  | false => rfl

theorem serial_stop {op : Op} (stop : (t.answer seen op).code op ≠ ackOk) :
    serial t seen (op :: ops) = ⟨seen ++ [.transfer op], 0, [], some ((t.answer seen op).code op)⟩ := by
  rw [serial]
  simp only [if_neg stop]

variable {op : Op} {count : Nat} {run : QueueRun}

theorem Through.cons (ok : (t.answer seen op).code op = ackOk)
    (through : Through t (seen ++ [.transfer op])
      (reads ++ if op.read then [(t.answer seen op).data] else []) ops count run) :
    Through t seen reads (op :: ops) (count + 1) run := by
  obtain ⟨words, reads_eq, length_eq, serial_eq⟩ := through.serial
  refine ⟨through.stopped, ⟨(if op.read then [(t.answer seen op).data] else []) ++ words, ?_, ?_, ?_⟩, through.noWrap⟩
  · rw [reads_eq, List.append_assoc]
  · rw [List.take_succ_cons, readCount_cons, List.length_append, length_eq]
    cases op.read with
    | true => rfl
    | false => rfl
  · rw [serial_ok ok, serial_eq, List.drop_succ_cons]
    simp only [Serial.behind, List.append_assoc, Serial.mk.injEq, true_and, and_true]
    omega

theorem Halts.cons (ok : (t.answer seen op).code op = ackOk)
    (halts : Halts t (seen ++ [.transfer op]) (taken + op.size)
      (reads ++ if op.read then [(t.answer seen op).data] else []) ops count run) :
    Halts t seen taken reads (op :: ops) (count + 1) run := by
  obtain ⟨done, words, extra, code, less, before, reads_eq, length_eq, extra_eq, serial_eq, why⟩ := halts.serial
  have inside := halts.inside
  have positive := op.size_pos
  refine ⟨halts.stopped, ⟨by omega, inside.2⟩, done + 1,
    (if op.read then [(t.answer seen op).data] else []) ++ words, extra, code, by omega, ?_, ?_, ?_,
    extra_eq, ?_, why⟩
  · rw [List.take_succ_cons, opsBefore, if_neg (by omega), before]
  · simp only [reads_eq, List.append_assoc]
  · rw [List.take_succ_cons, readCount_cons, List.length_append, length_eq]
    cases op.read with
    | true => rfl
    | false => rfl
  · rw [serial_ok ok, serial_eq]
    simp only [Serial.behind, Nat.add_comm]

theorem queueRun_ok {queue : List Op} (ok : (t.answer seen op).code op = ackOk) :
    queueRun t seen taken reads (op :: queue) =
      queueRun t (seen ++ [.transfer op]) (taken + op.size)
        (reads ++ if op.read then [(t.answer seen op).data] else []) queue := by
  have right : (t.answer seen op).ack = 1 := by
    by_contra wrong
    exact setWidth_ne_ackOk _ wrong ((code_wrong wrong).symm.trans ok)
  rw [queueRun]
  simp only [right, ne_eq, not_true_eq_false, if_false]
  split
  · next read =>
      have even : (t.answer seen op).parity = true := by
        by_contra odd
        cases (code_parity right read odd).symm.trans ok
      rw [if_pos even, Op.size, if_pos read]
  · next write => rw [Op.size, if_neg write, List.append_nil]

theorem halts_here {queue : List Op} (never : NeverWaits t) (wrong : (t.answer seen op).code op ≠ ackOk)
    (room : taken + 1 < swdqBytesMax) :
    Halts t seen taken reads (op :: queue) (count + 1)
      (queueRun t seen taken reads ((op :: queue).take (count + 1))) := by
  have before : opsBefore (taken + 1) (op :: queue.take count) taken = 0 := by rw [opsBefore, if_pos (Nat.le_refl _)]
  rw [List.take_succ_cons, queueRun]
  split
  · next bad =>
      refine ⟨rfl, ⟨Nat.lt_succ_self _, room⟩, 0, [], [], _, Nat.succ_pos _, before, ?_, rfl, rfl,
        serial_stop wrong, .inr ⟨rfl, bad, never seen op, code_wrong bad⟩⟩
      rw [List.append_nil, List.append_nil]
  · next right =>
      have right : (t.answer seen op).ack = 1 := Decidable.not_not.mp right
      split
      · next read =>
          split
          · next even => exact absurd (code_ok right fun _ => even) wrong
          · next odd =>
              refine ⟨rfl, ⟨Nat.lt_succ_self _, room⟩, 0, [], [(t.answer seen op).data], _, Nat.succ_pos _, before, ?_, rfl, rfl,
                serial_stop wrong, .inl ⟨rfl, code_parity right read odd⟩⟩
              rw [List.append_nil]
      · next write => exact absurd (code_ok right fun read => absurd read write) wrong

/-- A queue holds the operations that fit, and its run is theirs one by one. -/
theorem queueRun_serial (reads : List Word) (never : NeverWaits t) (few : nops + ops.length ≤ 128) (reads_le : nrd ≤ nops)
    (fits : taken ≤ swdqBytesMax) (noWrap : NoWrap t seen taken ops) :
    ∃ count ≤ ops.length, chunk ops taken nops nrd = nops + count ∧
      (Through t seen reads ops count (queueRun t seen taken reads (ops.take count)) ∨
        Halts t seen taken reads ops count (queueRun t seen taken reads (ops.take count))) := by
  induction ops generalizing seen taken nops nrd reads with
  | nil => refine ⟨0, Nat.le_refl 0, rfl, .inl ⟨rfl, ⟨[], (List.append_nil _).symm, rfl, rfl⟩, trivial⟩⟩
  | cons op ops ih =>
    rw [List.length_cons] at few
    have size_le := op.size_le
    by_cases past : swdqBytesMax < taken + op.size
    · -- the operation opens the next queue
      have anew : queueWith taken op = queueWith 0 op := by
        rw [queueWith, queueWith, if_pos past, if_neg (by rw [swdqBytesMax]; omega), Nat.zero_add]
      refine ⟨0, Nat.zero_le _, ?_, .inl ⟨rfl, ⟨[], (List.append_nil _).symm, rfl, ?_⟩, ?_⟩⟩
      · rw [chunk, if_pos (by omega), if_pos (by rw [decide_eq_true past, Bool.true_or])]
        rfl
      · exact (Serial.behind_nothing _).symm
      · simp only [NoWrap, anew] at noWrap
        exact noWrap
    · have room : ¬ (decide (swdqBytesMax < taken + op.size) || (op.read && decide (swdqReadsMax ≤ nrd))) = true := by
        rw [decide_eq_false past, decide_eq_false (by rw [swdqReadsMax]; omega), Bool.and_false]
        exact Bool.false_ne_true
      have fits_with : queueWith taken op = taken + op.size := if_neg past
      have chunk_eq : chunk (op :: ops) taken nops nrd =
          chunk ops (taken + op.size) (nops + 1) (nrd + op.read.toNat) := by
        rw [chunk, if_pos (by omega), if_neg room]
      rw [NoWrap, fits_with] at noWrap
      split at noWrap
      · next ok =>
          have read_le := op.read.toNat_le
          obtain ⟨count, le, rest_eq, outcome⟩ :=
            @ih (seen ++ [.transfer op]) (taken + op.size) (nops + 1) (nrd + op.read.toNat)
              (reads ++ if op.read then [(t.answer seen op).data] else []) (by omega) (by omega)
              (by omega) noWrap
          refine ⟨count + 1, Nat.succ_le_succ le, by omega, ?_⟩
          rw [List.take_succ_cons, queueRun_ok ok]
          exact outcome.imp (fun through => through.cons ok) fun halts => halts.cons ok
      · next wrong =>
          obtain ⟨count, le, rest_eq⟩ := chunk_count ops (taken + op.size) (nops + 1) (nrd + op.read.toNat)
          refine ⟨count + 1, Nat.succ_le_succ le, by omega, .inr (halts_here never wrong ?_)⟩
          rw [Op.size] at past noWrap
          split at noWrap
          · next read =>
              rw [if_pos read] at past
              have unfilled : taken + 1 ≠ swdqBytesMax := fun eq => noWrap ⟨read, eq⟩
              omega
          · next write =>
              rw [if_neg write] at past
              omega

theorem chunk_pos (some : ops ≠ []) : 0 < chunk ops 0 0 0 := by
  obtain ⟨op, ops, rfl⟩ := List.exists_cons_of_ne_nil some
  have size_le := op.size_le
  have room : ¬ (decide (swdqBytesMax < 0 + op.size) || (op.read && decide (swdqReadsMax ≤ 0))) = true := by
    rw [decide_eq_false (by rw [swdqBytesMax]; omega), decide_eq_false (by decide), Bool.and_false]
    exact Bool.false_ne_true
  obtain ⟨count, -, eq⟩ := chunk_count ops (0 + op.size) (0 + 1) (0 + op.read.toNat)
  rw [chunk, if_pos (by decide), if_neg room, eq]
  omega

/-- A batch does its operations one by one. -/
theorem batchLoop_serial {fuel : Nat} (waitRetry waits done : Nat) (rdata : List Word) (never : NeverWaits t)
    (few : ops.length ≤ 128) (enough : ops.length < fuel) (noWrap : NoWrap t seen 0 ops) :
    (batchLoop t waitRetry fuel seen waits done rdata ops).seen = (serial t seen ops).seen ∧
      (batchLoop t waitRetry fuel seen waits done rdata ops).done = done + (serial t seen ops).done ∧
      (∃ extra, (batchLoop t waitRetry fuel seen waits done rdata ops).rdata =
        rdata ++ (serial t seen ops).words ++ extra) ∧
      (batchLoop t waitRetry fuel seen waits done rdata ops).ack = (serial t seen ops).stop.getD ackOk := by
  induction fuel generalizing seen waits done rdata ops with
  | zero => exact absurd enough (Nat.not_lt_zero _)
  | succ fuel ih =>
    by_cases empty : ops = []
    · subst empty
      refine ⟨rfl, rfl, ⟨[], ?_⟩, rfl⟩
      simp only [serial, List.append_nil]
      rfl
    · have positive := chunk_pos empty
      obtain ⟨count, le, chunk_eq, outcome⟩ :=
        queueRun_serial [] never (by omega : 0 + ops.length ≤ 128) (Nat.le_refl 0)
          (by decide : 0 ≤ swdqBytesMax) noWrap
      rw [Nat.zero_add] at chunk_eq
      rw [batchLoop, if_neg empty, chunk_eq]
      extract_lets nops queue run now perr rdata' waits'
      obtain through | halts := outcome
      · obtain ⟨words, reads_eq, length_eq, serial_eq⟩ := through.serial
        have now_eq : now = nops := if_neg (Bool.eq_false_iff.mp through.stopped)
        have perr_eq : perr = false := by simp only [perr, now_eq, Nat.lt_irrefl, decide_false, Bool.and_false]
        have rdata_eq : rdata' = rdata ++ words := by
          have reads_eq : run.reads = words := reads_eq
          have whole : readCount (queue.take now) + perr.toNat = words.length := by
            rw [now_eq, perr_eq, List.take_take, Nat.min_self]
            exact length_eq.symm
          simp only [rdata', reads_eq, whole, List.take_length]
        rw [if_pos now_eq, now_eq, rdata_eq]
        simp only [nops]
        have fewer : (ops.drop count).length = ops.length - count := List.length_drop
        obtain ⟨seen_eq, done_eq, ⟨extra, rdata_eq⟩, ack_eq⟩ :=
          @ih run.seen (ops.drop count) waits' (done + count) (rdata ++ words) (by omega) (by omega)
            through.noWrap
        rw [serial_eq]
        refine ⟨seen_eq, ?_, ⟨extra, ?_⟩, ack_eq⟩
        · rw [done_eq, Serial.behind, Nat.add_assoc]
        · rw [rdata_eq, Serial.behind, List.append_assoc rdata words]
      · obtain ⟨stop, words, extra, code, less, before, reads_eq, length_eq, extra_eq, serial_eq, why⟩ :=
          halts.serial
        have now_eq : now = stop := by
          have taken_eq : run.consumed = run.taken := Nat.mod_eq_of_lt halts.inside.2
          have now_eq : now = opsBefore run.consumed queue 0 := if_pos halts.stopped
          rw [now_eq, taken_eq]
          exact before
        have perr_eq : perr = run.perr := by simp only [perr, now_eq, nops, decide_eq_true less, Bool.and_true]
        have rdata_eq : rdata' = rdata ++ words ++ extra := by
          have reads_eq : run.reads = words ++ extra := reads_eq
          have whole : readCount (queue.take now) + perr.toNat = (words ++ extra).length := by
            rw [now_eq, perr_eq, List.take_take, Nat.min_eq_left (Nat.le_of_lt less), List.length_append, length_eq]
            exact congrArg _ extra_eq.symm
          simp only [rdata', reads_eq, whole, List.take_length, List.append_assoc]
        have early : ¬ now = nops := by
          rw [now_eq]
          exact Nat.ne_of_lt less
        rw [if_neg early, serial_eq, rdata_eq, now_eq]
        obtain ⟨odd, code_eq⟩ | ⟨even, wrong, waiting, code_eq⟩ := why
        · rw [if_pos (perr_eq.trans odd), code_eq]
          exact ⟨rfl, rfl, ⟨extra, rfl⟩, rfl⟩
        · have even : ¬ perr = true := by
            rw [perr_eq]
            exact Bool.eq_false_iff.mp even
          rw [if_neg even, if_neg (fun wait => waiting wait.1), code_eq]
          exact ⟨rfl, rfl, ⟨extra, rfl⟩, rfl⟩

theorem swdLlBatch_serial (waitRetry : Nat) (never : NeverWaits t) (few : ops.length ≤ 128)
    (noWrap : NoWrap t seen 0 ops) :
    (swdLlBatch t waitRetry seen ops).seen = (serial t seen ops).seen ∧
      (swdLlBatch t waitRetry seen ops).done = (serial t seen ops).done ∧
      (∃ extra, (swdLlBatch t waitRetry seen ops).rdata = (serial t seen ops).words ++ extra) ∧
      (swdLlBatch t waitRetry seen ops).ack = (serial t seen ops).stop.getD ackOk := by
  have enough : ops.length < rounds waitRetry 0 ops + 1 := by
    have each : ops.length * 1 ≤ ops.length * (waitRetry + 1) :=
      Nat.mul_le_mul_left _ (Nat.succ_le_succ (Nat.zero_le _))
    rw [rounds]
    omega
  obtain ⟨seen_eq, done_eq, ⟨extra, rdata_eq⟩, ack_eq⟩ := batchLoop_serial waitRetry 0 0 [] never few enough noWrap
  exact ⟨seen_eq, done_eq.trans (Nat.zero_add _), ⟨extra, rdata_eq⟩, ack_eq⟩

end BenchPod.Dap
