import BenchPod.SwdEngine.SwdWork

/-!
# The firmware's side of a queue

`swd_ll_batch` queues as many operations as fit, and maps the bytes the engine took back to operations.
-/

namespace BenchPod.SwdEngine

open Engine

variable {half idle retry : Nat} {ops rest : List Op} {done : List (Op × Reply)} {o : Op} {r : Reply} {e : Engine}
variable {log : List Clock}

abbrev swdqBytesMax : Nat := 512

abbrev swdAckOk : Byte := 0x01

abbrev swdAckWait : Byte := 0x02

abbrev swdAckNoAck : Byte := 0x07

abbrev swdAckPerr : Byte := 0x08

/-- The bytes an operation takes in the queue. -/
def Op.size (o : Op) : Nat := if o.read then 1 else 5

/-- The operations that go into one queue, after `q` with `nops` operations and `nrd` reads. -/
def fill : List Op → List Byte → Nat → Nat → List Byte × Nat
  | [], q, nops, _ => (q, nops)
  | o :: rest, q, nops, nrd =>
    if nops < 255 then
      if swdqBytesMax < q.length + o.size ∨ (o.read = true ∧ swdqReadsMax ≤ nrd) then (q, nops)
      else fill rest (q ++ o.bytes) (nops + 1) (if o.read then nrd + 1 else nrd)
    else (q, nops)

/-- What a poll of `fpga_swdq_run` makes of the two bytes of `SWD_QSTATUS`. -/
inductive Poll
  | failed
  | busy
  | done (consumed : Nat) (flags : Byte)
  deriving DecidableEq

/-- A status as `fpga_swdq_run` takes it. -/
def poll (st0 st1 : Byte) : Poll :=
  if st1 &&& 0x80 ≠ 0 then .failed
  else if st1 &&& 0x01 ≠ 0 then .busy
  else .done (st0.toNat ||| (st1 &&& 0x40).toNat <<< 2) st1

/-- Whole operations inside the consumed bytes. -/
def countDone (consumed : Nat) : List Op → Nat → Nat
  | [], _ => 0
  | o :: rest, off => if consumed ≤ off + 1 then 0 else countDone consumed rest (off + o.size) + 1

/-- The bytes `SWD_READ` sends: the first one comes twice. -/
def swdReadBytes (rmem : Nat → Byte) (want : Nat) : List Byte := rmem 0 :: (List.range (want - 1)).map rmem

/-- `fpga_swdq_read`: one byte more is asked for, and the first dropped. -/
def fpgaSwdqRead (rmem : Nat → Byte) (n : Nat) : Option (List Byte) :=
  if n = 0 ∨ 4 * swdqReadsMax < n then none else some ((swdReadBytes rmem (n + 1)).drop 1)

/-- The variables of `swd_ll_batch`. -/
structure Batch where
  i : Nat := 0
  rd : Nat := 0
  waits : Nat := 0
  rdata : Nat → Word := fun _ => 0

/-- What `swd_ll_batch` returns. -/
structure Result where
  done : Nat
  ack : Byte
  rdata : Nat → Word

/-- The words read are stored from `rd` on. -/
def Batch.store (s : Batch) (rb : List Byte) (rget : Nat) : Batch :=
  { s with rdata := fun k =>
      if s.rd ≤ k ∧ k < s.rd + rget then Endian.rd32 ((rb.drop (4 * (k - s.rd))).take 4) else s.rdata k }

/-- The operations done, from the bytes consumed. -/
def doneOps (queued : List Op) (consumed : Nat) (flags : Byte) : Nat :=
  if flags &&& 0x02 = 0 then queued.length else countDone consumed queued 0

/-- The read that stopped the queue had the wrong parity. -/
def parityStop (queued : List Op) (consumed : Nat) (flags : Byte) : Bool :=
  decide (flags &&& 0x20 ≠ 0) && decide (doneOps queued consumed flags < queued.length)

/-- The end of one round of the loop: it goes on, or returns. -/
def Batch.after (retry : Nat) (s : Batch) (queued : List Op) (flags : Byte) (done : Nat) (perr : Bool) :
    Batch ⊕ Result :=
  let s := { s with
    rd := s.rd + readCount (queued.take done)
    i := s.i + done
    waits := if done = 0 then s.waits else 0 }
  if done = queued.length then .inl s
  else if perr then .inr ⟨s.i, swdAckOk ||| swdAckPerr, s.rdata⟩
  else
    let a := (flags >>> 2) &&& 7
    if a = swdAckWait ∧ s.waits < retry then .inl { s with waits := s.waits + 1 }
    else .inr ⟨s.i, a, s.rdata⟩

/-- One round of the loop, from the status on, with the reply buffer as it is read. -/
def Batch.round (retry : Nat) (s : Batch) (queued : List Op) (status : Poll) (rmem : Nat → Byte) : Batch ⊕ Result :=
  match status with
  | .done consumed flags =>
    let done := doneOps queued consumed flags
    let perr := parityStop queued consumed flags
    let rget := readCount (queued.take done) + perr.toNat
    if rget = 0 then s.after retry queued flags done perr
    else
      match fpgaSwdqRead rmem (4 * rget) with
      | some rb => (s.store rb rget).after retry queued flags done perr
      | none => .inr ⟨s.i, swdAckNoAck, s.rdata⟩
  | _ => .inr ⟨s.i, swdAckNoAck, s.rdata⟩

theorem Op.length_bytes (o : Op) : o.bytes.length = o.size := by
  rw [Op.size]
  cases read : o.read with
  | true => exact length_bytes_read read
  | false => exact length_bytes_write read

theorem queueBytes_concat (ops : List Op) (o : Op) : queueBytes (ops ++ [o]) = queueBytes ops ++ o.bytes := by
  rw [queueBytes_append, queueBytes_cons]
  exact congrArg _ (List.append_nil _)

theorem readCount_concat (ops : List Op) (o : Op) :
    readCount (ops ++ [o]) = if o.read then readCount ops + 1 else readCount ops := by
  rw [readCount, readCount, List.countP_append, List.countP_singleton]
  split <;> rfl

/-- A queue holds the first operations, and no more than fit. -/
structure Queued (ops : List Op) (filled : List Byte × Nat) : Prop where
  few : filled.2 ≤ ops.length
  bytes : filled.1 = queueBytes (ops.take filled.2)
  short : filled.1.length ≤ swdqBytesMax
  reads : readCount (ops.take filled.2) ≤ swdqReadsMax

theorem Queued.front {front : List Op} (short : (queueBytes front).length ≤ swdqBytesMax)
    (reads : readCount front ≤ swdqReadsMax) (rest : List Op) :
    Queued (front ++ rest) (queueBytes front, front.length) := by
  refine ⟨?_, ?_, short, ?_⟩
  · rw [List.length_append]
    exact Nat.le_add_right _ _
  · rw [List.take_left]
  · rw [List.take_left]
    exact reads

theorem fill_queued {front : List Op} (short : (queueBytes front).length ≤ swdqBytesMax)
    (reads : readCount front ≤ swdqReadsMax) :
    Queued (front ++ rest) (fill rest (queueBytes front) front.length (readCount front)) := by
  induction rest generalizing front with
  | nil => exact .front short reads []
  | cons o rest ih =>
    rw [fill]
    split
    · split
      · exact .front short reads _
      · next fits =>
          rw [not_or] at fits
          have length : front.length + 1 = (front ++ [o]).length := by rw [List.length_append, List.length_singleton]
          rw [← queueBytes_concat, ← readCount_concat, length, List.append_cons]
          apply ih
          · rw [queueBytes_concat, List.length_append, o.length_bytes]
            exact Nat.le_of_not_lt fits.1
          · rw [readCount_concat]
            split
            · next read => exact Nat.not_le.mp fun full => fits.2 ⟨read, full⟩
            · exact reads
    · exact .front short reads _

theorem fill_pos (o : Op) (rest : List Op) : 0 < (fill (o :: rest) [] 0 0).2 := by
  have grows (rest : List Op) (q : List Byte) (nops nrd : Nat) : nops ≤ (fill rest q nops nrd).2 := by
    induction rest generalizing q nops nrd with
    | nil => exact Nat.le_refl _
    | cons o rest ih =>
      rw [fill]
      split
      · split
        · exact Nat.le_refl _
        · exact Nat.le_of_succ_le (ih _ _ _)
      · exact Nat.le_refl _
  rw [fill, if_pos (by decide), if_neg]
  · exact grows rest _ 1 _
  · rintro (long | ⟨-, many⟩)
    · rw [Op.size] at long
      simp only [List.length_nil, Nat.zero_add, swdqBytesMax] at long
      split at long
      · exact absurd long (by decide)
      · exact absurd long (by decide)
    · exact absurd many (by decide)

theorem countDone_front (front : List Op) (o : Op) (rest : List Op) (off : Nat) :
    countDone (off + (queueBytes front).length + 1) (front ++ o :: rest) off = front.length := by
  induction front generalizing off with
  | nil =>
    rw [List.nil_append, countDone, if_pos]
    · rfl
    · exact Nat.le_refl _
  | cons p front ih =>
    have some : 0 < p.size := by
      rw [Op.size]
      split <;> decide
    rw [queueBytes_cons, List.length_append, p.length_bytes, List.cons_append, countDone, if_neg, ← Nat.add_assoc, ih]
    · rfl
    · omega

theorem poll_status (passed : e.qBusy = false) :
    ∃ consumed, poll e.qDone e.qFlags = .done consumed e.qFlags ∧ (e.qptr < depth → consumed = e.qptr) := by
  have bits (high perr stop : Bool) (ack : BitVec 3) :
      let flags : Byte := BitVec.ofBool false ++ BitVec.ofBool high ++ BitVec.ofBool perr ++ ack ++ BitVec.ofBool stop ++
        BitVec.ofBool false
      flags &&& 0x80 = 0 ∧ flags &&& 0x01 = 0 ∧ (flags &&& 0x40).toNat <<< 2 = if high then 256 else 0 := by
    revert high perr stop ack
    decide
  have pointer (n : Fin depth) : (BitVec.ofNat 8 n).toNat ||| (if n.val.testBit 8 then 256 else 0) = n.val := by
    revert n
    decide +kernel
  obtain ⟨top, idle, high⟩ := bits (e.qptr.testBit 8) e.perr e.qstop e.ack
  refine ⟨e.qDone.toNat ||| (if e.qptr.testBit 8 then 256 else 0), ?_, fun inside => pointer ⟨e.qptr, inside⟩⟩
  rw [poll, qFlags, passed, if_neg (not_not.mpr top), if_neg (not_not.mpr idle), high]

theorem flags_stopped (passed : e.qBusy = false) : e.qFlags &&& 0x02 = 0 ↔ e.qstop = false := by
  rw [qFlags, passed]
  generalize e.qptr.testBit 8 = high, e.perr = perr, e.ack = ack, e.qstop = stop
  revert high perr ack stop
  decide

theorem flags_perr (passed : e.qBusy = false) : e.qFlags &&& 0x20 ≠ 0 ↔ e.perr = true := by
  rw [qFlags, passed]
  generalize e.qptr.testBit 8 = high, e.perr = perr, e.ack = ack, e.qstop = stop
  revert high perr ack stop
  decide

theorem flags_ack (passed : e.qBusy = false) : (e.qFlags >>> 2) &&& 7 = e.ack.setWidth 8 := by
  rw [qFlags, passed]
  generalize e.qptr.testBit 8 = high, e.perr = perr, e.ack = ack, e.qstop = stop
  revert high perr ack stop
  decide

theorem fpgaSwdqRead_some {rmem : Nat → Byte} {n : Nat} (some : 0 < n) (few : n ≤ 4 * swdqReadsMax) :
    fpgaSwdqRead rmem n = Option.some ((List.range n).map rmem) := by
  rw [fpgaSwdqRead, if_neg (by omega)]
  rfl

theorem take_le32s (words : List Word) (k : Nat) (inside : k < words.length) :
    ((words.flatMap Endian.le32).drop (4 * k)).take 4 = Endian.le32 words[k] := by
  induction words generalizing k with
  | nil => exact absurd inside (Nat.not_lt_zero _)
  | cons word words ih =>
    rw [List.flatMap_cons]
    cases k with
    | zero => exact List.take_left' (Endian.le32_length word)
    | succ k =>
      rw [Nat.mul_succ, Nat.add_comm, ← List.drop_drop, List.drop_left' (Endian.le32_length word)]
      exact ih k (Nat.lt_of_succ_lt_succ inside)

/-- The firmware's variables with words stored. -/
def Batch.keep (s : Batch) (words : List Word) : Batch :=
  { s with rdata := fun k => if s.rd ≤ k ∧ k < s.rd + words.length then words.getD (k - s.rd) 0 else s.rdata k }

theorem Batch.store_keep (s : Batch) {words : List Word} {rmem : Nat → Byte} (holds : Holds4 words rmem) :
    s.store ((List.range (4 * words.length)).map rmem) words.length = s.keep words := by
  rw [store, keep, holds]
  congr 1
  funext k
  split
  · next within =>
      have inside : k - s.rd < words.length := by omega
      rw [take_le32s words _ inside, Endian.rd32_le32, List.getD_eq_getElem?_getD, List.getElem?_eq_getElem inside]
      rfl
  · rfl

theorem Batch.keep_nil (s : Batch) : s.keep [] = s := by
  have none (k : Nat) : ¬(s.rd ≤ k ∧ k < s.rd + ([] : List Word).length) := by
    rw [List.length_nil]
    omega
  simp only [keep, none, if_false]

theorem Batch.round_done {s : Batch} {queued : List Op} {consumed : Nat} {flags : Byte} {rmem : Nat → Byte}
    {words : List Word} (holds : Holds4 words rmem) (few : words.length ≤ swdqReadsMax)
    (count : words.length = readCount (queued.take (doneOps queued consumed flags)) +
      (parityStop queued consumed flags).toNat) :
    s.round retry queued (.done consumed flags) rmem =
      (s.keep words).after retry queued flags (doneOps queued consumed flags) (parityStop queued consumed flags) := by
  rw [round]
  simp only [← count]
  split
  · next none => rw [List.length_eq_zero_iff.mp none, keep_nil]
  · next some =>
      have read := @fpgaSwdqRead_some rmem (4 * words.length) (by omega) (Nat.mul_le_mul_left 4 few)
      rw [read]
      simp only [s.store_keep holds]

end BenchPod.SwdEngine
