import BenchPod.SwdEngine.SwdTarget

/-!
# Batches are exact

Every batch puts its transfers on the wires and reports what they came to, unless a queue of 512 bytes stops at
a read at its end: the read pointer has nine bits, and reports that no byte was taken.
-/

namespace BenchPod.SwdEngine

open Engine

variable {half idle : Nat} {ops front : List Op} {done : List (Op × Reply)} {o : Op} {log got : List Clock}
variable {base c : Core} {e : Engine} {bit : Bool} {byte : Byte} {endIdx : Nat}

theorem Course.taken_mem (course : Course idle o base got c) :
    base.taken < c.taken ∧ c.taken ≤ base.taken + o.bytes.length ∧ (c.isrd = false → o.read = false) := by
  have one : 1 ≤ o.bytes.length := Nat.succ_pos _
  have head (common : Common o c (base.taken + 1)) :
      base.taken < c.taken ∧ c.taken ≤ base.taken + o.bytes.length ∧ (c.isrd = false → o.read = false) := by
    refine ⟨?_, ?_, common.read.symm.trans⟩ <;> rw [common.taken] <;> omega
  have tail {r : Reply} (final : Final o r base c) :
      base.taken < c.taken ∧ c.taken ≤ base.taken + o.bytes.length ∧ (c.isrd = false → o.read = false) := by
    refine ⟨?_, ?_, fun write => ?_⟩
    · rw [final.taken]
      split <;> omega
    · rw [final.taken]
      split <;> omega
    · have parts := final.isrd.symm.trans write
      rw [Bool.or_eq_false_iff] at parts
      exact parts.1
  cases course with
  | request k inside place common => exact head common
  | turn place common => exact head common
  | ack trn bits few place common => exact head common
  | data trn bits few read place common => exact head common
  | check trn word read place common => exact head common
  | byte trn write place common => exact head common
  | write trn turn n few write place common =>
    have five := length_bytes_write write
    refine ⟨?_, ?_, common.read.symm.trans⟩ <;> rw [common.taken] <;> omega
  | last r place running going final => exact tail final
  | idle r k fewer place running going final => exact tail final

theorem Course.going (course : Course idle o base got c) : c.qstop = false := by
  cases course with
  | request k inside place common => exact common.going
  | turn place common => exact common.going
  | ack trn bits few place common => exact common.going
  | data trn bits few read place common => exact common.going
  | check trn word read place common => exact common.going
  | byte trn write place common => exact common.going
  | write trn turn n few write place common => exact common.going
  | last r place running going => exact going
  | idle r k fewer place running going => exact going

/-- The unit that runs in the next cycle, when the queue ends with a read. -/
structure Underway (queue : List Byte) (endIdx : Nat) (c : Core) : Prop where
  running : c.running = true
  going : c.qstop = false
  inside : c.idx ≤ endIdx
  some : 0 < c.taken
  taken : c.taken ≤ queue.length
  write : c.isrd = false → c.taken < queue.length

theorem Progress.underway (progress : Progress idle ops log c) (goes : c.Goes (queueBytes ops))
    (last : ops = front ++ [o]) (read : o.read = true) :
    Underway (queueBytes ops) (45 + idle) (c.enter (queueBytes ops)) := by
  obtain ⟨done, p, rest, base, got, split, after, course⟩ := progress.course goes
  obtain ⟨more, room, writes⟩ := course.taken_mem
  have length := congrArg List.length (congrArg queueBytes split)
  rw [queueBytes_append, queueBytes_cons, List.length_append, List.length_append, ← after.taken] at length
  refine ⟨course.running, course.going, course.idx_le, by omega, by omega, fun write => ?_⟩
  cases rest with
  | nil =>
    have same : p = o := by
      have ends := congrArg List.getLast? (split.symm.trans last)
      rw [List.getLast?_append, List.getLast?_append] at ends
      exact Option.some.inj ends
    exact absurd (writes write) (by rw [same, read]; exact Bool.noConfusion)
  | cons q rest =>
    have some := length_queueBytes_pos (List.cons_ne_nil q rest)
    omega

/-- Everything is acknowledged, reads bring zeros, and the parity is wrong when all of the 512 bytes are taken. -/
def wrapPolicy (idx qptr : Nat) : Bool := decide (idx = 9) || (decide (idx = 44) && decide (qptr = 0))

/-- What the policy makes of the registers. -/
structure Marked (c : Core) : Prop where
  fail : c.running = true → c.fail = false
  second : c.running = true → c.idx = 10 → c.ack.getLsbD 2 = true
  third : c.running = true → c.idx = 11 → c.ack.getLsbD 2 = false ∧ c.ack.getLsbD 1 = true
  even : c.running = true → c.isrd = true → c.idx ≤ 44 → c.par = false
  perr : c.perr = true → c.taken % depth = 0
  last : c.running = true → c.isrd = true → 45 ≤ c.idx → c.taken % depth = 0 → c.perr = true
  stop : c.qstop = true → c.perr = true
  rest : c.running = false → 0 < c.taken → c.taken % depth = 0 → c.qstop = true

theorem Marked.start (going : c.qstop = false) (perr : c.perr = false) : Marked (c.start byte) := by
  refine ⟨fun _ => rfl, ?_, ?_, fun _ _ _ => rfl, ?_, ?_, ?_, fun rest => nomatch rest⟩
  · exact fun _ place => nomatch place
  · exact fun _ place => nomatch place
  · exact fun wrong => nomatch perr.symm.trans wrong
  · exact fun _ _ late => nomatch late
  · exact fun stop => nomatch going.symm.trans stop

theorem Marked.beat {queue : List Byte} (full : queue.length = depth) (unit : 45 ≤ endIdx) (few : endIdx < 127)
    (marked : Marked c) (under : Underway queue endIdx c) (told : Says wrapPolicy c bit) :
    Marked ((c.rise bit).fall byte endIdx) := by
  have inside := under.inside
  have okay : (c.rise bit).refused = false := by
    rw [Core.refused]
    by_cases place : c.idx = 11
    · obtain ⟨high, low⟩ := marked.third under.running place
      have down : bit = false := by rw [told, wrapPolicy, place]; rfl
      have ack : (c.rise bit).ack = 0b001#3 := by
        rw [Core.rise, down]
        simp only [place]
        revert high low
        generalize c.ack = ack
        revert ack
        decide
      rw [ack]
      exact Bool.and_false _
    · rw [Core.idx_rise, decide_eq_false place, Bool.false_and]
  have next : ((c.rise bit).fall byte endIdx).idx = c.idx + 1 := by
    simp only [Core.fall, okay, Bool.false_eq_true, if_false, Core.idx_rise]
    exact Nat.mod_eq_of_lt (by omega)
  have isrd : ((c.rise bit).fall byte endIdx).isrd = c.isrd := by
    simp only [Core.fall, okay, Bool.or_false, Core.isrd_rise]
  have all (taken : c.taken % depth = 0) : c.isrd = true := by
    cases write : c.isrd with
    | true => rfl
    | false =>
      have less := under.write write
      have some := under.some
      rw [full] at less
      rw [Nat.mod_eq_of_lt less] at taken
      omega
  have stays (read : c.isrd = true) : ((c.rise bit).fall byte endIdx).taken = c.taken := by
    have none : c.byteIn = false := by rw [Core.byteIn, read, Bool.not_true, Bool.false_and]
    simp only [Core.fall, Core.byteIn_rise, none, Bool.false_eq_true, if_false, Core.taken_rise]
  have going : ((c.rise bit).fall byte endIdx).qstop = (decide (c.idx = endIdx) && (c.isrd && c.perr)) := by
    have flags : (c.rise bit).qstop = false ∧ (c.rise bit).fail = false := ⟨under.going, marked.fail under.running⟩
    simp only [Core.fall, flags, Bool.false_or, Core.idx_rise, Core.isrd_rise]
    by_cases passed : c.idx = endIdx
    · have late : c.idx ≠ 44 := by omega
      simp only [Core.rise, late, decide_false, Bool.and_false, Bool.false_eq_true, if_false]
      rfl
    · simp only [passed, decide_false, Bool.false_and]
  have perr : ((c.rise bit).fall byte endIdx).perr = if c.isrd && decide (c.idx = 44) then c.par ^^ bit else c.perr := rfl
  have parity (read : c.isrd = true) (place : c.idx = 44) :
      ((c.rise bit).fall byte endIdx).perr = decide (c.taken % depth = 0) := by
    rw [perr, read, place, marked.even under.running read (by omega), told, wrapPolicy, place]
    simp
  refine ⟨?_, ?_, ?_, ?_, ?_, ?_, ?_, ?_⟩
  · intro _
    simp only [Core.fall, okay, Bool.or_false]
    exact marked.fail under.running
  · intro _ place
    have nine : c.idx = 9 := by omega
    have up : bit = true := by rw [told, wrapPolicy, nine]; rfl
    simp only [Core.fall, Core.rise, nine, up]
    generalize c.ack = ack
    revert ack
    decide
  · intro _ place
    have ten : c.idx = 10 := by omega
    have down : bit = false := by rw [told, wrapPolicy, ten]; rfl
    have before := marked.second under.running ten
    simp only [Core.fall, Core.rise, ten, down]
    revert before
    generalize c.ack = ack
    revert ack
    decide
  · intro _ read place
    rw [isrd] at read
    have even := marked.even under.running read (by omega)
    have down (late : 12 ≤ c.idx) : bit = false := by
      have early : c.idx ≠ 9 ∧ c.idx ≠ 44 := by omega
      rw [told, wrapPolicy, decide_eq_false early.1, decide_eq_false early.2, Bool.false_and, Bool.or_false]
    simp only [Core.fall, read, Bool.not_true, Bool.false_and, Bool.false_eq_true, if_false, Core.rise,
      Core.reading, Bool.true_and, decide_eq_true_eq]
    split
    · next reading => rw [even, down reading.1]; rfl
    · exact even
  · intro wrong
    by_cases place : c.isrd = true ∧ c.idx = 44
    · rw [parity place.1 place.2, decide_eq_true_eq] at wrong
      rw [stays place.1]
      exact wrong
    · have old : c.perr = true := by
        rw [perr, if_neg (by simpa using place)] at wrong
        exact wrong
      have taken := marked.perr old
      rw [stays (all taken)]
      exact taken
  · intro _ read place taken
    rw [isrd] at read
    rw [stays read] at taken
    by_cases last : c.idx = 44
    · rw [parity read last, decide_eq_true taken]
    · rw [perr, decide_eq_false last, Bool.and_false, if_neg Bool.false_ne_true]
      exact marked.last under.running read (by omega) taken
  · intro stop
    rw [going, Bool.and_eq_true, Bool.and_eq_true, decide_eq_true_eq] at stop
    have late : c.idx ≠ 44 := by omega
    rw [perr, decide_eq_false late, Bool.and_false, if_neg Bool.false_ne_true]
    exact stop.2.2
  · intro rest _ taken
    have passed : c.idx = endIdx := by
      simp only [Core.fall, Core.idx_rise] at rest
      exact Decidable.not_not.mp (of_decide_eq_false rest)
    have none : c.byteIn = false := by
      have late : ¬(c.idx = 12 ∨ c.idx = 20 ∨ c.idx = 28 ∨ c.idx = 36) := by omega
      rw [Core.byteIn, decide_eq_false late, Bool.and_false]
    have same : ((c.rise bit).fall byte endIdx).taken = c.taken := by
      simp only [Core.fall, Core.byteIn_rise, none, Bool.false_eq_true, if_false, Core.taken_rise]
    rw [same] at taken
    have read := all taken
    rw [going, decide_eq_true passed, read, marked.last under.running read (by omega) taken]
    rfl

theorem Marked.first (e : Engine) : Marked e.core := by
  refine ⟨?_, ?_, ?_, ?_, ?_, ?_, ?_, ?_⟩
  · exact fun running => nomatch running
  · exact fun running => nomatch running
  · exact fun running => nomatch running
  · exact fun running => nomatch running
  · exact fun wrong => nomatch wrong
  · exact fun running => nomatch running
  · exact fun stop => nomatch stop
  · exact fun _ some => absurd some (Nat.lt_irrefl 0)

theorem Progress.perr (progress : Progress idle ops log c) (resting : c.running = false) (going : c.qstop = false) :
    c.perr = false := by
  cases progress with
  | rest done rest split ok clocks after resting going perr => exact perr
  | within done o rest split ok base after got clocks course =>
    exact absurd (resting.symm.trans course.running) Bool.false_ne_true
  | stopped done o r rest split ok bad base after clocks final resting stop =>
    exact absurd (going.symm.trans stop) Bool.false_ne_true

theorem Marked.keeps (few : readCount ops ≤ swdqReadsMax) (slack : idle ≤ 31) (last : ops = front ++ [o])
    (read : o.read = true) (full : (queueBytes ops).length = depth) :
    Keeps (queueBytes ops) (45 + idle) (Says wrapPolicy) fun log c => Progress idle ops log c ∧ Marked c := by
  rintro log c bit ⟨progress, marked⟩ goes told
  refine ⟨progress.step few slack goes, ?_⟩
  have under := progress.underway goes last read
  have entered : Marked (c.enter (queueBytes ops)) := by
    rw [Core.enter]
    split
    · exact marked
    · next resting =>
        rw [Bool.not_eq_true] at resting
        obtain running | ⟨going, -⟩ := goes
        · exact absurd (resting.symm.trans running) Bool.false_ne_true
        · exact .start going (progress.perr resting going)
  exact entered.beat full (Nat.le_add_right 45 idle) (by omega) under told

/-- 96 writes and 32 reads: 512 bytes, and a read at the end. -/
def wrapOps : List Op := List.replicate 96 ⟨0x00, 0⟩ ++ List.replicate 32 ⟨0x02, 0⟩

theorem fill_wrapOps : fill wrapOps [] 0 0 = (queueBytes wrapOps, 128) := by
  decide +kernel

theorem wrapOps_last : wrapOps = (List.replicate 96 ⟨0x00, 0⟩ ++ List.replicate 31 ⟨0x02, 0⟩) ++ [⟨0x02, 0⟩] := by
  rw [List.append_assoc, wrapOps]
  rfl

theorem wrap_status (ready : SwdReady half idle e) (least : 2 ≤ half) (most : half ≤ 63) (slack : idle ≤ 31) :
    let v := targetVisit wrapPolicy e (queueBytes wrapOps)
    (v.status e).qBusy = false ∧ (v.status e).qstop = true ∧ (v.status e).perr = true ∧ (v.status e).qptr = 0 := by
  have full : (queueBytes wrapOps).length = depth := by decide +kernel
  have few : readCount wrapOps ≤ swdqReadsMax := by decide +kernel
  obtain ⟨serves, suits⟩ := ready.targetVisit least most slack (Nat.le_of_eq full) few wrapPolicy
  obtain ⟨reached, linked⟩ := serves.feed.reaches suits (Marked.keeps few slack wrapOps_last rfl full)
    ⟨Progress.first e, .first e⟩ ready least most (Nat.le_of_eq full)
  obtain ⟨c, ⟨progress, marked⟩, shows, resting, all⟩ := reached.passed linked serves.passed
  have stop : c.qstop = true := by
    obtain stopped | ⟨taken, -⟩ := all
    · exact stopped
    · rw [full] at taken
      refine marked.rest resting ?_ ?_
      · rw [taken]
        exact Nat.zero_lt_succ _
      · rw [taken]
        exact Nat.mod_self depth
  refine ⟨serves.passed, shows.qstop.trans stop, shows.perr.trans (marked.stop stop), ?_⟩
  exact shows.taken.trans (marked.perr (marked.stop stop))

theorem Batch.turn_wrapped {retry : Nat} {s : Batch} {v : Visit} {rest : List Op} (same : s.queued ops = o :: rest)
    (passed : (v.status e).qBusy = false) (stop : (v.status e).qstop = true) (perr : (v.status e).perr = true)
    (head : (v.status e).qptr = 0) :
    ∃ words, s.turn retry ops e v = .inr ⟨s.i, swdAckOk ||| swdAckPerr, words⟩ := by
  obtain ⟨consumed, status, exact⟩ := poll_status passed
  obtain rfl : consumed = 0 := (exact (by rw [head]; exact Nat.zero_lt_succ _)).trans head
  have stopped : ¬(v.status e).qFlags &&& 0x02 = 0 := by
    rw [flags_stopped passed, stop]
    exact Bool.noConfusion
  have none : doneOps (o :: rest) 0 (v.status e).qFlags = 0 := by
    rw [doneOps, if_neg stopped, countDone, if_pos (Nat.zero_le _)]
  have wrong : parityStop (o :: rest) 0 (v.status e).qFlags = true := by
    rw [parityStop, none, decide_eq_true ((flags_perr passed).mpr perr)]
    rfl
  have differ : 0 ≠ (o :: rest).length := Nat.ne_of_lt (Nat.succ_pos _)
  have read := @fpgaSwdqRead_some (v.left e).rmem (4 * 1) (by decide) (by decide)
  refine ⟨((s.store ((List.range (4 * 1)).map (v.left e).rmem) 1)).rdata, ?_⟩
  rw [turn, status, same, round]
  simp only [none, wrong, List.take_zero, Bool.toNat_true]
  rw [if_neg (by decide), show readCount [] + 1 = 1 from rfl, read]
  simp only [after, if_neg differ]
  rfl

theorem Performs.not_parity {retry waits : Nat} {rest : List Op} {sent : List (Op × Reply)} {out : Report}
    (write : o.read = false) (performs : Performs retry (o :: rest) waits sent out) (none : out.count = 0) :
    out.ack ≠ swdAckOk ||| swdAckPerr := by
  generalize start : o :: rest = ops at performs
  induction performs with
  | done waits => exact nomatch start
  | ok good later => exact nomatch none
  | wait asked more later ih => exact ih none start
  | @stop p r later waits bad last =>
    obtain rfl := (List.cons.inj start).1
    have refused : r.ack ≠ 0b001#3 := fun ok => absurd (write.symm.trans (Reply.read_of_bad bad ok)) Bool.noConfusion
    rw [stopAck, if_neg refused]
    change r.ack.setWidth 8 ≠ _
    revert refused
    generalize r.ack = ack
    revert ack
    decide

/-- Whatever the target answers and whenever the bytes come: every queue of a batch is over by its deadline and the
rounds are bounded, and a batch puts on the wires the transfers of its operations in order, up to the one that stops,
and returns what they came to, unless a queue of 512 bytes stops at a read at its end. -/
theorem batch_exact (retry : Nat) (ops : List Op) (rdata : Nat → Word) (ready : SwdReady half idle e) (least : 2 ≤ half)
    (most : half ≤ 63) (slack : idle ≤ 31) :
    (∀ visits s final, Steps retry ops { rdata := rdata } e visits s final →
      visits.length ≤ ops.length * (retry + 1) + retry ∧
      ∀ feed front back, QueueFeed (s.queue ops) final feed (front ++ back) → front.filterMap Input.fed = s.queue ops →
        swdqIdleTimeout ≤ back.length → (swdWire.run final (feed :: (front ++ back))).qBusy = false) ∧
    ∀ visits clocks result, Runs retry ops { rdata := rdata } e visits clocks result →
      Clear retry idle ops { rdata := rdata } e visits →
      ∃ sent out, Performs retry ops 0 sent out ∧ clocks = answeredClocks idle sent ∧ result.done = out.count ∧
        result.ack = out.ack ∧ ∀ k (inside : k < out.words.length), result.rdata k = out.words[k] := by
  constructor
  · intro visits s final steps
    constructor
    · obtain ⟨-, waits, place, rounds⟩ := steps.stands ready least most slack (Nat.zero_le _) (Nat.zero_le _)
      have used : s.used retry ≤ ops.length * (retry + 1) + retry :=
        Nat.add_le_add (Nat.mul_le_mul_right (retry + 1) place) waits
      rw [Batch.used, Nat.zero_mul, Nat.zero_add, Nat.zero_add] at rounds
      exact Nat.le_trans rounds used
    · intro feed front back run arrived enough
      exact steps.ends ready least most slack (Nat.zero_le _) (Nat.zero_le _) run arrived enough
  · intro visits clocks result run clear
    obtain ⟨sent, out, performs, wires, reports⟩ := run.performs clear ready least most slack (Nat.zero_le _)
    refine ⟨sent, out, performs, wires, ?_, reports.ack, fun k inside => ?_⟩
    · rw [reports.done, Nat.zero_add]
    · rw [← reports.words k inside, Nat.zero_add]

theorem swdReady_armed : SwdReady 4 8 { armed := true } := ⟨rfl, rfl, rfl, rfl, rfl, rfl, fun swd => nomatch swd⟩

theorem batch_exact_armed :
    SwdReady 4 8 { armed := true } ∧ ∀ visits clocks result, Runs 100 wrapOps {} { armed := true } visits clocks result →
      Clear 100 8 wrapOps {} { armed := true } visits →
      ∃ sent out, Performs 100 wrapOps 0 sent out ∧ clocks = answeredClocks 8 sent ∧ result.done = out.count ∧
        result.ack = out.ack ∧ ∀ k (inside : k < out.words.length), result.rdata k = out.words[k] :=
  ⟨swdReady_armed, (batch_exact 100 wrapOps (fun _ => 0) swdReady_armed (by decide) (by decide) (by decide)).2⟩

/-- 128 operations, 512 bytes in one queue, the last read answered with a wrong parity: the batch returns operation 0. -/
theorem wrapped_batch :
    let v := targetVisit wrapPolicy { armed := true } (queueBytes wrapOps)
    ∃ result, Runs 100 wrapOps {} { armed := true } [v] (v.clocks { armed := true }) result ∧
      ¬∃ sent out, Performs 100 wrapOps 0 sent out ∧ v.clocks { armed := true } = answeredClocks 8 sent ∧
        result.done = out.count ∧ result.ack = out.ack ∧
        ∀ k (inside : k < out.words.length), result.rdata k = out.words[k] := by
  intro v
  have full : (queueBytes wrapOps).length = depth := by decide +kernel
  have few : readCount wrapOps ≤ swdqReadsMax := by decide +kernel
  obtain ⟨serves, -⟩ :=
    swdReady_armed.targetVisit (by decide) (by decide) (by decide) (Nat.le_of_eq full) few wrapPolicy
  obtain ⟨passed, stop, perr, head⟩ := wrap_status swdReady_armed (by decide) (by decide) (by decide)
  have queue : Batch.queue wrapOps {} = queueBytes wrapOps := congrArg Prod.fst fill_wrapOps
  have queued : Batch.queued wrapOps {} = wrapOps := by
    have all : (fill (wrapOps.drop 0) [] 0 0).2 = 128 := congrArg Prod.snd fill_wrapOps
    rw [Batch.queued, all]
    rfl
  have first : wrapOps = ⟨0x00, 0⟩ :: wrapOps.tail := rfl
  obtain ⟨words, ends⟩ := @Batch.turn_wrapped wrapOps _ _ 100 _ v _ (queued.trans first) passed stop perr head
  have more : 0 < wrapOps.length := by decide +kernel
  have taken : v.Serves (Batch.queue wrapOps {}) { armed := true } := by
    rw [queue]
    exact serves
  refine ⟨_, .stop more taken ends, ?_⟩
  rintro ⟨sent, out, performs, -, count, ack, -⟩
  rw [first] at performs
  exact performs.not_parity rfl count.symm ack.symm

end BenchPod.SwdEngine
