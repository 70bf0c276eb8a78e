import BenchPod.SwdEngine.Course

/-!
# A queue of transfers

The sequencer runs the operations of a queue in order and stops at the first that is not answered well.
-/

namespace BenchPod.SwdEngine

open Bits

variable {idle : Nat} {ops rest : List Op} {o : Op} {r : Reply} {done : List (Op × Reply)} {base c : Core}
variable {log got : List Clock} {bit : Bool}

/-- The bytes `swd_ll_batch` queues. -/
def queueBytes (ops : List Op) : List Byte := ops.flatMap Op.bytes

/-- The cycles of operations and their answers. -/
def answeredClocks (idle : Nat) (done : List (Op × Reply)) : List Clock :=
  done.flatMap fun (o, r) => transferClocks idle o r

/-- What the reads have brought. -/
def readWords (done : List (Op × Reply)) : List Word :=
  done.filterMap fun (o, r) => if o.read then some r.data else none

abbrev swdqReadsMax : Nat := 128

/-- The reads among operations. -/
def readCount (ops : List Op) : Nat := ops.countP Op.read

/-- All of these are answered well. -/
def AllOk (done : List (Op × Reply)) : Prop := ∀ p ∈ done, p.2.ok p.1 = true

/-- After the operations `done`. -/
structure After (done : List (Op × Reply)) (c : Core) : Prop where
  taken : c.taken = (queueBytes (done.map Prod.fst)).length
  bytes : c.bytes = (readWords done).flatMap Endian.le32

/-- How far a queue has come. -/
inductive Progress (idle : Nat) (ops : List Op) (log : List Clock) (c : Core) : Prop
  | rest (done : List (Op × Reply)) (rest : List Op) (split : ops = done.map Prod.fst ++ rest) (ok : AllOk done)
      (clocks : log = answeredClocks idle done) (after : After done c) (idle : c.running = false)
      (going : c.qstop = false) (perr : c.perr = false)
  | within (done : List (Op × Reply)) (o : Op) (rest : List Op) (split : ops = done.map Prod.fst ++ o :: rest)
      (ok : AllOk done) (base : Core) (after : After done base) (got : List Clock)
      (clocks : log = answeredClocks idle done ++ got) (course : Course idle o base got c)
  | stopped (done : List (Op × Reply)) (o : Op) (r : Reply) (rest : List Op)
      (split : ops = done.map Prod.fst ++ o :: rest) (ok : AllOk done) (bad : r.ok o = false) (base : Core)
      (after : After done base) (clocks : log = answeredClocks idle (done ++ [(o, r)])) (final : Final o r base c)
      (idle : c.running = false) (stop : c.qstop = true)

theorem Course.running (course : Course idle o base got c) : c.running = true := by
  cases course with
  | request _ _ _ common => exact common.running
  | turn _ common => exact common.running
  | ack _ _ _ _ common => exact common.running
  | data _ _ _ _ _ common => exact common.running
  | check _ _ _ _ common => exact common.running
  | byte _ _ _ common => exact common.running
  | write _ _ _ _ _ _ common => exact common.running
  | last _ _ running => exact running
  | idle _ _ _ _ running => exact running

theorem queueBytes_append (front back : List Op) :
    queueBytes (front ++ back) = queueBytes front ++ queueBytes back := List.flatMap_append

theorem queueBytes_cons (o : Op) (rest : List Op) : queueBytes (o :: rest) = o.bytes ++ queueBytes rest :=
  List.flatMap_cons

theorem getD_queueBytes (split : ops = done.map Prod.fst ++ o :: rest) (after : After done base) {place : Nat}
    (inside : place < o.bytes.length) : (queueBytes ops).getD (base.taken + place) 0 = o.bytes.getD place 0 := by
  rw [split, queueBytes_append, queueBytes_cons, List.getD_eq_getElem?_getD, List.getD_eq_getElem?_getD, after.taken,
    List.getElem?_append_right (Nat.le_add_right _ _), Nat.add_sub_cancel_left, List.getElem?_append_left inside]

theorem After.behind (after : After done base) (split : ops = done.map Prod.fst ++ o :: rest) :
    Behind (queueBytes ops) o base := by
  intro write m inside
  have place : 1 + m < o.bytes.length := by
    rw [length_bytes_write write]
    omega
  rw [Nat.add_assoc, getD_queueBytes split after place, Op.bytes, write, if_neg Bool.false_ne_true, Nat.add_comm 1 m]
  rfl

theorem length_readWords (done : List (Op × Reply)) : (readWords done).length = readCount (done.map Prod.fst) := by
  induction done with
  | nil => rfl
  | cons p done ih =>
    obtain ⟨o, r⟩ := p
    rw [readWords] at ih
    cases read : o.read <;> simp [readWords, readCount, read, ih]

theorem length_le32s (words : List Word) : (words.flatMap Endian.le32).length = 4 * words.length := by
  induction words with
  | nil => rfl
  | cons word words ih =>
    rw [List.flatMap_cons, List.length_append, Endian.le32_length, ih, List.length_cons]
    omega

theorem After.room (after : After done base) (split : ops = done.map Prod.fst ++ o :: rest)
    (few : readCount ops ≤ swdqReadsMax) (read : o.read = true) : base.stored + 4 ≤ depth := by
  have count : base.stored = 4 * readCount (done.map Prod.fst) := by
    rw [← base.length_bytes, after.bytes, length_le32s, length_readWords]
  rw [split, readCount, List.countP_append, List.countP_cons, if_pos read] at few
  rw [readCount] at count
  simp only [swdqReadsMax, depth] at few ⊢
  omega

theorem answeredClocks_concat (done : List (Op × Reply)) (o : Op) (r : Reply) :
    answeredClocks idle (done ++ [(o, r)]) = answeredClocks idle done ++ transferClocks idle o r := by
  rw [answeredClocks, List.flatMap_append, List.flatMap_singleton]
  rfl

theorem readWords_concat (done : List (Op × Reply)) (o : Op) (r : Reply) :
    readWords (done ++ [(o, r)]) = readWords done ++ if o.read then [r.data] else [] := by
  rw [readWords, List.filterMap_append]
  cases read : o.read <;> simp [read, readWords]

theorem Reply.ack_of_ok (ok : r.ok o = true) : r.ack = 0b001#3 := by
  rw [Reply.ok, Bool.and_eq_true, beq_iff_eq] at ok
  exact ok.1

theorem After.concat (after : After done base) (final : Final o r base c) (ok : r.ok o = true) :
    After (done ++ [(o, r)]) c := by
  have ack := Reply.ack_of_ok ok
  constructor
  · rw [final.taken, if_pos ack, after.taken, List.map_append, queueBytes_append, List.length_append]
    simp only [queueBytes, List.map_cons, List.map_nil, List.flatMap_singleton]
  · rw [final.bytes, after.bytes, readWords_concat, List.flatMap_append]
    cases read : o.read <;> simp [ack]

theorem Progress.passed (split : ops = done.map Prod.fst ++ o :: rest) (ok : AllOk done) (after : After done base)
    (passed : Over idle o r base got c) : Progress idle ops (answeredClocks idle done ++ got) c := by
  have clocks : answeredClocks idle done ++ got = answeredClocks idle (done ++ [(o, r)]) := by
    rw [answeredClocks_concat, passed.clocks]
  have stops := passed.stops
  cases good : r.ok o with
  | true =>
    rw [good] at stops
    refine .rest (done ++ [(o, r)]) rest ?_ ?_ clocks (after.concat passed.final good) passed.rest stops ?_
    · rw [split, List.map_append, List.append_assoc]
      rfl
    · intro p member
      obtain earlier | now := List.mem_append.mp member
      · exact ok p earlier
      · rw [List.mem_singleton.mp now]
        exact good
    · rw [passed.final.perr]
      rw [Reply.ok] at good
      revert good
      cases o.read <;> cases r.ack == 0b001#3 <;> simp
  | false =>
    rw [good] at stops
    exact .stopped done o r rest split ok good base after clocks passed.final passed.rest stops

theorem Course.first (after : After done c) (split : ops = done.map Prod.fst ++ o :: rest) (idle_ : c.running = false)
    (going : c.qstop = false) (perr : c.perr = false) :
    Course idle o c [] (c.enter (queueBytes ops)) := by
  have byte : (queueBytes ops).getD c.taken 0 = swdPacket o.req := by
    have inside : 0 < o.bytes.length := Nat.succ_pos _
    exact getD_queueBytes split after inside
  rw [Core.enter, idle_, if_neg Bool.false_ne_true, byte]
  refine .request 0 (by decide) rfl ⟨rfl, read_swdPacket o, rfl, perr, going, rfl⟩ rfl rfl ?_
  rw [List.drop_zero, List.replicate_zero, List.append_nil]
  exact lsbFirst_swdPacket o.req

theorem Core.beat_enter (queue : List Byte) (endIdx : Nat) :
    (c.enter queue).beat queue endIdx bit = c.beat queue endIdx bit := by
  rw [Core.beat, Core.beat, Core.enter_running (c.running_enter queue)]

theorem Progress.within_step (split : ops = done.map Prod.fst ++ o :: rest) (ok : AllOk done) (after : After done base)
    (few : readCount ops ≤ swdqReadsMax) (short : idle ≤ 31) (course : Course idle o base got c) :
    Progress idle ops (answeredClocks idle done ++ got ++ [c.clock bit]) (c.beat (queueBytes ops) (45 + idle) bit) := by
  have step := @Course.step idle o base c (queueBytes ops) got bit (after.behind split) (after.room split few) short course
  rw [List.append_assoc]
  obtain on | ⟨r, passed⟩ := step
  · exact .within done o rest split ok base after _ rfl on
  · exact .passed split ok after passed

theorem Progress.step (few : readCount ops ≤ swdqReadsMax) (short : idle ≤ 31) (progress : Progress idle ops log c)
    (goes : c.Goes (queueBytes ops)) :
    Progress idle ops (log ++ [(c.enter (queueBytes ops)).clock bit]) (c.beat (queueBytes ops) (45 + idle) bit) := by
  cases progress with
  | rest done rest split ok clocks after resting going perr =>
    obtain running | ⟨-, more⟩ := goes
    · exact absurd (resting.symm.trans running) Bool.false_ne_true
    · cases rest with
      | nil =>
        rw [split, List.append_nil, after.taken] at more
        exact absurd more (Nat.lt_irrefl _)
      | cons o rest =>
        have first := @Course.first idle ops rest o done c after split resting going perr
        have step := @Progress.within_step idle ops rest o done c _ [] bit split ok after few short first
        rw [List.append_nil, Core.beat_enter, ← clocks] at step
        exact step
  | within done o rest split ok base after got clocks course =>
    rw [Core.enter_running course.running, clocks]
    exact .within_step split ok after few short course
  | stopped done o r rest split ok bad base after clocks final resting stop =>
    obtain running | ⟨going, -⟩ := goes
    · exact absurd (resting.symm.trans running) Bool.false_ne_true
    · exact absurd (going.symm.trans stop) Bool.false_ne_true

end BenchPod.SwdEngine
