import BenchPod.SwdEngine.Clocks
import BenchPod.SwdEngine.Progress

/-!
# A queue run of the engine

From a feed on, the engine runs the queue's operations; once it is not busy, its registers tell how far it came.
-/

namespace BenchPod.SwdEngine

open Engine

variable {half idle : Nat} {ops : List Op} {fed queue : List Byte} {log : List Clock} {c : Core} {e : Engine} {i : Input}
variable {ticks : List Input} {Fits : Core → Bool → Prop} {Kept : List Clock → Core → Prop}

/-- The engine is armed for SWD and rests. -/
structure SwdReady (half idle : Nat) (e : Engine) : Prop where
  armed : e.armed = true
  spi : e.spi = false
  half : e.half = half
  cpol : e.cpol = true
  unit : e.endIdx = 45 + idle
  rest : e.qst = .idle
  quiet : e.qmode = true → e.qstop = true ∨ (e.qptr = e.fptr ∧ e.qready = false)

theorem SwdReady.held (ready : SwdReady half idle e) (run : e.run = true) :
    e.qst = .idle ∧ (!e.qstop && e.qready) = false := by
  refine ⟨ready.rest, ?_⟩
  rw [Engine.run, ready.armed, ready.spi, Bool.true_and, Bool.false_or] at run
  obtain stopped | ⟨-, empty⟩ := ready.quiet run
  · rw [stopped, Bool.not_true, Bool.false_and]
  · rw [empty, Bool.and_false]

/-- The registers of a transfer before a queue. -/
def Engine.core (e : Engine) : Core := ⟨e.sh, e.isrd, e.par, e.fail, false, false, 0, e.idx, 0, 0, e.rmem, false⟩

theorem SwdReady.begin (ready : SwdReady half idle e) (feed : i.Begin) (swd : i.feedQ = true)
    (kept : Kept [] e.core) :
    swdWire.emit e i = none ∧ Link half idle queue [] (e.tick i) ∧ Stands half queue [] Fits Kept [] (e.tick i) := by
  have after := tick_begin feed ready.held
  refine ⟨swd_emit_same ((congrArg Engine.swclkLvl after).trans rfl), ?_, ?_⟩
  · rw [after]
    exact ⟨⟨ready.armed, ready.spi, swd⟩, ready.half, ready.cpol, ready.unit, .empty _, List.nil_prefix⟩
  · rw [after]
    refine .idle e.core kept ⟨rfl, rfl, rfl, rfl, rfl, rfl, rfl, rfl, rfl, rfl, rfl, rfl⟩ rfl (Nat.le_refl 0) ?_ ?_
    · exact fun started => nomatch started
    · exact fun _ => ⟨Nat.zero_le _, rfl⟩

/-- Once the queue is not busy a unit has been completed, and the queue stopped or all of it taken. -/
theorem Stands.passed (stands : Stands half queue fed Fits Kept log e) (link : Link half idle queue fed e)
    (passed : e.qBusy = false) :
    ∃ c, Kept log c ∧ Shows c e ∧ c.running = false ∧ (c.qstop = true ∨ (c.taken = fed.length ∧ e.qready = false)) := by
  simp only [qBusy, link.mode.qActive, Bool.true_and] at passed
  have active {c : Core} (shows : Shows c e) (running : c.running = true) (going : c.qstop = false) : False := by
    rw [shows.qstop, going, shows.running, running, if_pos rfl] at passed
    simp at passed
  cases stands with
  | idle c kept shows rest behind primed early =>
    refine ⟨c, kept, shows, rest, ?_⟩
    cases stopped : c.qstop with
    | true => exact .inl rfl
    | false =>
      right
      have same : e.qptr = e.fptr := by
        rw [shows.qstop, stopped] at passed
        simp only [Bool.not_false, Bool.true_and, Bool.or_eq_false_iff, bne_eq_false_iff_eq] at passed
        exact passed.1
      have all : c.taken = fed.length := by
        have short := link.filled.short
        have few : c.taken = 0 → fed.length ≤ 2 := by
          intro none
          have few := (early none).1
          have one : e.qready.toNat ≤ 1 := Bool.toNat_le e.qready
          omega
        rw [shows.taken, link.filled.tail] at same
        simp only [depth] at same short
        omega
      refine ⟨all, ?_⟩
      obtain started | empty := Bool.eq_false_or_eq_true e.qready
      · have more := primed started
        rw [all, List.getElem?_eq_none (Nat.le_refl _)] at more
        exact nomatch more
      · exact empty
  | low c kept goes shows going behind some low level count settled =>
    exact (active shows (c.running_enter queue) (by rw [Core.enter]; split <;> exact going)).elim
  | high c bit before split fits kept goes shows going behind some high level count primed =>
    exact (active shows ((Core.running_rise _ _).trans (c.running_enter queue))
      (by rw [show ((c.enter queue).rise bit).qstop = (c.enter queue).qstop from rfl, Core.enter]; split <;> exact going)).elim

theorem Stands.ready (stands : Stands half queue fed Fits Kept log e) (link : Link half idle queue fed e)
    (passed : e.qBusy = false) : SwdReady half idle e := by
  obtain ⟨c, progress, shows, resting, all⟩ := stands.passed link passed
  refine ⟨link.mode.armed, link.mode.spi, link.half, link.cpol, link.unit, ?_, fun _ => ?_⟩
  · exact shows.running.trans (by rw [resting, if_neg Bool.false_ne_true])
  · obtain stopped | ⟨taken, empty⟩ := all
    · exact .inl (shows.qstop.trans stopped)
    · refine .inr ⟨?_, empty⟩
      exact shows.taken.trans (by rw [taken]; exact link.filled.tail.symm)

/-- The words the reply buffer holds after a queue. -/
def Holds4 (words : List Word) (rmem : Nat → Byte) : Prop :=
  (List.range (4 * words.length)).map rmem = words.flatMap Endian.le32

/-- What the registers tell of a queue that is not busy. -/
inductive Outcome (idle : Nat) (ops : List Op) (log : List Clock) (e : Engine) : Prop
  | all (done : List (Op × Reply)) (split : ops = done.map Prod.fst) (ok : AllOk done)
      (clocks : log = answeredClocks idle done) (going : e.qstop = false) (holds : Holds4 (readWords done) e.rmem)
  | stopped (done : List (Op × Reply)) (o : Op) (r : Reply) (rest : List Op)
      (split : ops = done.map Prod.fst ++ o :: rest) (ok : AllOk done) (bad : r.ok o = false)
      (clocks : log = answeredClocks idle (done ++ [(o, r)])) (stop : e.qstop = true) (ack : e.ack = r.ack)
      (taken : e.qptr = ((queueBytes (done.map Prod.fst)).length + 1) % depth)
      (perr : e.perr = (r.ack == 0b001#3))
      (holds : Holds4 (readWords done ++ if r.ack = 0b001#3 then [r.data] else []) e.rmem)

theorem Reply.read_of_bad {o : Op} {r : Reply} (bad : r.ok o = false) (ack : r.ack = 0b001#3) : o.read = true := by
  rw [Reply.ok, ack, beq_self_eq_true, Bool.true_and, Bool.or_eq_false_iff] at bad
  simpa using bad.1

theorem Reply.parity_of_bad {o : Op} {r : Reply} (bad : r.ok o = false) (ack : r.ack = 0b001#3) :
    (r.parity != oddParity (Bits.wordBits r.data)) = true := by
  rw [Reply.ok, ack, beq_self_eq_true, Bool.true_and, Bool.or_eq_false_iff] at bad
  rw [bne, bad.2]
  rfl

theorem holds4_of_bytes {c : Core} {words : List Word} (shows : Shows c e)
    (bytes : c.bytes = words.flatMap Endian.le32) : Holds4 words e.rmem := by
  have count : c.stored = 4 * words.length := by rw [← c.length_bytes, bytes, length_le32s]
  rw [Holds4, shows.rmem, ← count]
  exact bytes

theorem length_queueBytes_pos {ops : List Op} (some : ops ≠ []) : 0 < (queueBytes ops).length := by
  cases ops with
  | nil => exact absurd rfl some
  | cons o ops =>
    rw [queueBytes_cons, List.length_append]
    exact Nat.add_pos_left (Nat.succ_pos _) _

theorem Progress.outcome (progress : Progress idle ops log c) (shows : Shows c e) (resting : c.running = false)
    (passed : c.qstop = true ∨ c.taken = (queueBytes ops).length) : Outcome idle ops log e := by
  cases progress with
  | rest done rest split ok clocks after idle going perr =>
    obtain stopped | all := passed
    · exact absurd (going.symm.trans stopped) Bool.false_ne_true
    · cases rest with
      | nil =>
        rw [List.append_nil] at split
        exact .all done split ok clocks (shows.qstop.trans going) (holds4_of_bytes shows after.bytes)
      | cons o rest =>
        have some := length_queueBytes_pos (List.cons_ne_nil o rest)
        rw [split, queueBytes_append, List.length_append, after.taken] at all
        omega
  | within done o rest split ok base after got clocks course =>
    exact absurd (resting.symm.trans course.running) Bool.false_ne_true
  | stopped done o r rest split ok bad base after clocks final idle stop =>
    refine .stopped done o r rest split ok bad clocks (shows.qstop.trans stop) (shows.ack.trans final.ack) ?_ ?_ ?_
    · rw [shows.taken, final.taken, after.taken]
      by_cases ack : r.ack = 0b001#3
      · rw [if_pos ack, length_bytes_read (Reply.read_of_bad bad ack)]
      · rw [if_neg ack]
    · rw [shows.perr, final.perr]
      by_cases ack : r.ack = 0b001#3
      · rw [Reply.read_of_bad bad ack, Reply.parity_of_bad bad ack, Bool.and_true, Bool.true_and]
      · rw [beq_eq_false_iff_ne.mpr ack, Bool.and_false, Bool.false_and]
    · apply holds4_of_bytes shows
      rw [final.bytes, after.bytes, List.flatMap_append]
      by_cases ack : r.ack = 0b001#3
      · rw [if_pos ack, if_pos ⟨Reply.read_of_bad bad ack, ack⟩, List.flatMap_singleton]
      · rw [if_neg ack, if_neg fun both => ack both.2]
        rfl

theorem Progress.first (e : Engine) : Progress idle ops [] e.core :=
  .rest [] ops rfl (fun _ member => nomatch member) rfl ⟨rfl, rfl⟩ rfl rfl rfl

/-- An edge without a command or a byte. -/
def Input.Quiet (i : Input) : Prop := i.Plain ∧ i.fed = none

theorem Progress.keeps (few : readCount ops ≤ swdqReadsMax) (slack : idle ≤ 31) :
    Keeps (queueBytes ops) (45 + idle) Fits (Progress idle ops) :=
  fun _ _ _ progress goes _ => progress.step few slack goes

/-- The feed of a queue: the edge it starts on and those after it, with the bytes at any times. -/
structure QueueFeed (queue : List Byte) (e : Engine) (feed : Input) (ticks : List Input) : Prop where
  begin : feed.Begin
  swd : feed.feedQ = true
  plain : ∀ i ∈ ticks, i.Plain
  bytes : ticks.filterMap Input.fed = queue
  answers : swdWire.Along Answers e (feed :: ticks)

theorem suits_any (e : Engine) (events : List Input) : swdWire.Along (Suits fun _ _ => True) e events :=
  (swdWire.along_true e events).imp swdWire fun _ _ _ _ _ => trivial

theorem QueueFeed.reaches {feed : Input} (run : QueueFeed queue e feed ticks)
    (suits : swdWire.Along (Suits Fits) e (feed :: ticks)) (keeps : Keeps queue (45 + idle) Fits Kept)
    (kept : Kept [] e.core) (ready : SwdReady half idle e) (least : 2 ≤ half) (most : half ≤ 63)
    (short : queue.length ≤ depth) :
    Stands half queue queue Fits Kept (swdWire.emitted e (feed :: ticks)) (swdWire.run e (feed :: ticks)) ∧
      Link half idle queue queue (swdWire.run e (feed :: ticks)) := by
  obtain ⟨silent, link, stands⟩ := @SwdReady.begin half idle queue e feed Fits Kept ready run.begin run.swd kept
  have sent : [] ++ ticks.filterMap Input.fed <+: queue := ⟨[], by rw [List.append_nil, List.nil_append, run.bytes]⟩
  have obeys : swdWire.Along (Obeys Fits) (e.tick feed) ticks := run.answers.2.and swdWire suits.2
  obtain ⟨reached, linked⟩ := stands.run keeps link short least most run.plain obeys sent
  rw [List.nil_append, run.bytes] at reached linked
  rw [List.nil_append] at reached
  have clocks : swdWire.emitted e (feed :: ticks) = swdWire.emitted (e.tick feed) ticks := by
    rw [Emitter.emitted, silent]
    rfl
  rw [clocks]
  exact ⟨reached, linked⟩

theorem QueueFeed.outcome {feed : Input} (run : QueueFeed (queueBytes ops) e feed ticks)
    (passed : (swdWire.run e (feed :: ticks)).qBusy = false) (ready : SwdReady half idle e) (least : 2 ≤ half)
    (most : half ≤ 63) (slack : idle ≤ 31) (short : (queueBytes ops).length ≤ depth)
    (few : readCount ops ≤ swdqReadsMax) :
    Outcome idle ops (swdWire.emitted e (feed :: ticks)) (swdWire.run e (feed :: ticks)) ∧
      SwdReady half idle (swdWire.run e (feed :: ticks)) ∧ (swdWire.run e (feed :: ticks)).IsSwd := by
  obtain ⟨reached, linked⟩ := run.reaches (suits_any e _) (Progress.keeps few slack) (Progress.first e) ready least most short
  obtain ⟨c, progress, shows, resting, all⟩ := reached.passed linked passed
  exact ⟨progress.outcome shows resting (all.imp_right And.left), reached.ready linked passed, linked.mode⟩

end BenchPod.SwdEngine
