import BenchPod.SwdEngine.SwdQueue

/-!
# A queue comes to its end

Once every byte has arrived, each edge leaves less to do until the queue is not busy.
-/

namespace BenchPod.SwdEngine

open Engine

variable {half idle : Nat} {ops : List Op} {fed queue : List Byte} {log got : List Clock} {c base : Core} {e : Engine}
variable {i : Input} {ticks : List Input} {o : Op} {Fits : Core → Bool → Prop}

theorem Course.idx_le (course : Course idle o base got c) : c.idx ≤ 45 + idle := by
  cases course <;> omega

theorem Course.taken_lt (course : Course idle o base got c) (taking : c.byteIn = true) :
    o.read = false ∧ c.taken < base.taken + 5 := by
  rw [Core.byteIn, Bool.and_eq_true, Bool.not_eq_true', decide_eq_true_eq] at taking
  obtain ⟨write, place⟩ := taking
  cases course with
  | byte trn read at_ common => exact ⟨read, by rw [common.taken]; omega⟩
  | write trn turn n few read at_ common => exact ⟨read, by rw [common.taken]; omega⟩
  | data trn bits few read at_ common => exact absurd (write.symm.trans (common.read.trans read)) Bool.false_ne_true
  | request => omega
  | turn => omega
  | ack => omega
  | check => omega
  | last => omega
  | idle => omega

theorem Progress.course (progress : Progress idle ops log c) (goes : c.Goes (queueBytes ops)) :
    ∃ done o rest base got, ops = done.map Prod.fst ++ o :: rest ∧ After done base ∧
      Course idle o base got (c.enter (queueBytes ops)) := by
  cases progress with
  | rest done rest split ok clocks after resting going perr =>
    obtain running | ⟨-, more⟩ := goes
    · exact absurd (resting.symm.trans running) Bool.false_ne_true
    · cases rest with
      | nil =>
        rw [split, List.append_nil, after.taken] at more
        exact absurd more (Nat.lt_irrefl _)
      | cons o rest => exact ⟨done, o, rest, c, [], split, after, Course.first after split resting going perr⟩
  | within done o rest split ok base after got clocks course =>
    rw [Core.enter_running course.running]
    exact ⟨done, o, rest, base, got, split, after, course⟩
  | stopped done o r rest split ok bad base after clocks final resting stop =>
    obtain running | ⟨going, -⟩ := goes
    · exact absurd (resting.symm.trans running) Bool.false_ne_true
    · exact absurd (going.symm.trans stop) Bool.false_ne_true

theorem Progress.entered (progress : Progress idle ops log c) (goes : c.Goes (queueBytes ops)) :
    (c.enter (queueBytes ops)).idx ≤ 45 + idle ∧
      ((c.enter (queueBytes ops)).byteIn = true → (c.enter (queueBytes ops)).taken < (queueBytes ops).length) := by
  obtain ⟨done, o, rest, base, got, split, after, course⟩ := progress.course goes
  refine ⟨course.idx_le, fun taking => ?_⟩
  obtain ⟨write, early⟩ := course.taken_lt taking
  have length := congrArg List.length (congrArg queueBytes split)
  rw [queueBytes_append, queueBytes_cons, List.length_append, List.length_append, length_bytes_write write,
    ← after.taken] at length
  omega

namespace Engine

/-- The edges left in the unit that runs, at most. -/
def unitWork (half idle : Nat) (e : Engine) : Nat :=
  match e.qst with
  | .idle => 0
  | .run => (45 + idle - e.idx) * (2 * half) + (if e.ph then 0 else half) + e.hcnt + 2

/-- A byte is there that the sequencer does not see yet. -/
def unseen (e : Engine) : Nat := if e.pending ≠ 0 ∧ e.qready = false then 1 else 0

/-- The edges left until the queue is not busy, at most. -/
def swdWork (half idle : Nat) (e : Engine) : Nat :=
  e.pending * ((46 + idle) * (2 * half) + 2) + e.unitWork half idle + e.unseen

end Engine

theorem unitWork_idle (rest : e.qst = .idle) : e.unitWork half idle = 0 := by
  simp only [unitWork, rest]

theorem unitWork_run (running : e.qst = .run) :
    e.unitWork half idle = (45 + idle - e.idx) * (2 * half) + (if e.ph then 0 else half) + e.hcnt + 2 := by
  simp only [unitWork, running]

theorem unseen_tick {after : Engine} (outer : after.outer = (e.fetch i).outer) (less : after.pending ≤ e.pending) :
    after.unseen = 0 := by
  refine if_neg ?_
  rintro ⟨some, empty⟩
  have flag : after.qready = (e.qptr != e.fptr) := congrArg Outer.qready outer
  rw [flag, bne_eq_false_iff_eq] at empty
  have none : e.pending = 0 := by rw [Engine.pending, empty, Nat.add_sub_cancel_left, Nat.mod_self]
  omega

theorem filled_tick (link : Link half idle queue fed e) (plain : i.Plain) (quiet : i.fed = none) :
    Filled fed (e.tick i).tmem (e.tick i).fptr := by
  have same : fed ++ i.fed.toList = fed := by rw [quiet, Option.toList_none, List.append_nil]
  have fetched := link.filled.fetch (i := i) (by rw [same]; exact link.filled.short)
  have outer := @outer_tick e i link.mode plain
  have tmem : (e.tick i).tmem = (e.fetch i).tmem := congrArg Outer.tmem outer
  have fptr : (e.tick i).fptr = (e.fetch i).fptr := congrArg Outer.fptr outer
  rwa [same, ← tmem, ← fptr] at fetched

theorem swd_works_start (link : Link half idle queue fed e) (shows : Shows c e) (resting : e.qst = .idle)
    (more : c.taken < fed.length) (early : c.taken = 0 → fed.length < depth) (ready : e.qready = true)
    (going : e.qstop = false) (least : 2 ≤ half) (most : half ≤ 63) (plain : i.Plain) (quiet : i.fed = none) :
    (e.tick i).swdWork half idle < e.swdWork half idle := by
  have after := tick_start link.mode.run plain resting ready going
  have running : (e.tick i).qst = .run := congrArg Engine.qst after
  have reload := link.reload least most
  have before : e.pending = (fed.length - c.taken - 1) + 1 := by
    rw [pending_of_taken link.filled shows.taken (Nat.le_of_lt more) early]
    omega
  have left : (e.tick i).pending = fed.length - c.taken - 1 := by
    have head : (e.tick i).qptr = (c.taken + 1) % depth := by
      rw [after]
      simp only [Engine.start, shows.taken, Nat.mod_add_mod]
    exact pending_of_taken (filled_tick link plain quiet) head more (fun none => absurd none (Nat.succ_ne_zero _))
  have seen : (e.tick i).unseen = 0 := by
    refine unseen_tick (e := e) (i := i) ?_ (by omega)
    rw [after, outer_start]
  have unit : (46 + idle) * (2 * half) = (45 + idle) * (2 * half) + 2 * half := by
    rw [← Nat.succ_mul]
    congr 1
    omega
  rw [Engine.swdWork, Engine.swdWork, seen, unitWork_run running, unitWork_idle resting, left, before,
    Nat.add_one_mul (fed.length - c.taken - 1), unit]
  simp only [after, Engine.start, reload, Bool.false_eq_true, if_false, Nat.sub_zero]
  omega

/-- An edge within a unit leaves less work. -/
theorem swd_works_run (link : Link half idle queue fed e) (shows : Shows c e) (running : c.running = true)
    (behind : c.taken ≤ fed.length) (some : 0 < c.taken) (inside : c.idx ≤ 45 + idle)
    (bytes : c.byteIn = true → c.taken < fed.length) (slack : idle ≤ 31) (least : 2 ≤ half) (most : half ≤ 63)
    (plain : i.Plain) (quiet : i.fed = none) : (e.tick i).swdWork half idle < e.swdWork half idle := by
  have run : e.qst = .run := by rw [shows.running, running, if_pos rfl]
  have reload := link.reload least most
  have before := pending_of_taken link.filled shows.taken behind (fun none => absurd none (Nat.ne_of_gt some))
  have kept := @pending_fetch e i quiet
  have outer := @outer_tick e i link.mode plain
  have place : e.idx ≤ 45 + idle := by rw [shows.idx]; exact inside
  rw [Engine.swdWork, Engine.swdWork, unitWork_run run]
  obtain passed | left := Nat.eq_zero_or_pos e.hcnt
  · obtain high | low := Bool.eq_false_or_eq_true e.ph
    · cases moves : e.qByteIn && !e.qready with
      | true =>
        have after := tick_stall link.mode.run plain run passed high moves
        rw [Bool.and_eq_true, Bool.not_eq_true'] at moves
        have same : (e.tick i).pending = e.pending := by rw [after]; exact kept
        have unit : (e.tick i).unitWork half idle = e.unitWork half idle := by rw [after]; rfl
        have waits : e.unseen = 1 := by
          have more := bytes ((shows.byteIn link.mode.spi).symm.trans moves.1)
          exact if_pos ⟨by omega, moves.2⟩
        rw [unseen_tick outer (Nat.le_of_eq same), same, unit, unitWork_run run, waits]
        omega
      | false =>
        have after := tick_fall link.mode.run plain run passed high moves
        have fallen := shows.fall (i := i) link.mode.spi running
        rw [← after] at fallen
        have taken : (c.fall e.tRd e.endIdx).taken ≤ fed.length ∧ c.taken ≤ (c.fall e.tRd e.endIdx).taken := by
          cases taking : c.byteIn with
          | true =>
            simp only [Core.fall, taking, if_true]
            exact ⟨bytes taking, Nat.le_succ _⟩
          | false =>
            simp only [Core.fall, taking, Bool.false_eq_true, if_false]
            exact ⟨behind, Nat.le_refl _⟩
        have left := pending_of_taken (filled_tick link plain quiet) fallen.taken taken.1 (by omega)
        have less : (e.tick i).pending ≤ e.pending := by omega
        have fewer := Nat.mul_le_mul_right ((46 + idle) * (2 * half) + 2) less
        rw [unseen_tick outer less, high, if_pos rfl, passed]
        cases on : (c.fall e.tRd e.endIdx).running with
        | false =>
          have rest : (e.tick i).qst = .idle := by rw [fallen.running, on, if_neg Bool.false_ne_true]
          rw [unitWork_idle rest]
          omega
        | true =>
          have next : (e.tick i).qst = .run := by rw [fallen.running, on, if_pos rfl]
          have not_last : c.idx ≠ e.endIdx := of_decide_eq_true on
          have unit := link.unit
          have moved : c.idx + 1 ≤ (e.tick i).idx := by
            rw [fallen.idx]
            simp only [Core.fall]
            cases refused : c.refused with
            | true =>
              have eleven : c.idx = 11 := of_decide_eq_true (Bool.and_eq_true_iff.mp refused).1
              rw [if_pos rfl]
              omega
            | false => exact Nat.le_of_eq (by rw [if_neg Bool.false_ne_true, Nat.mod_eq_of_lt (by omega)])
          have shorter : 45 + idle - (e.tick i).idx ≤ 45 + idle - e.idx - 1 := by rw [shows.idx]; omega
          have rest := Nat.mul_le_mul_right (2 * half) shorter
          have whole : 45 + idle - e.idx = (45 + idle - e.idx - 1) + 1 := by rw [shows.idx]; omega
          have phase : (e.tick i).ph = false := by rw [after, fall_eq link.mode.spi]
          have count : (e.tick i).hcnt = half - 1 := by rw [after, fall_eq link.mode.spi]; exact reload
          rw [unitWork_run next, phase, count, if_neg Bool.false_ne_true, whole, Nat.add_one_mul (45 + idle - e.idx - 1)]
          omega
    · have after := tick_rise link.mode.run plain run passed low
      have same : (e.tick i).pending = e.pending := by
        rw [after, rise_eq]
        exact kept
      have unit : (e.tick i).unitWork half idle = (45 + idle - e.idx) * (2 * half) + 0 + (half - 1) + 2 := by
        have next : (e.tick i).qst = .run := by rw [after, rise_eq]; exact run
        rw [unitWork_run next, after, rise_eq]
        simp only [reload, if_true]
        rfl
      rw [unseen_tick outer (Nat.le_of_eq same), same, unit, low, if_neg Bool.false_ne_true, passed]
      omega
  · have after := tick_count link.mode.run plain run (Nat.ne_of_gt left)
    have same : (e.tick i).pending = e.pending := by rw [after]; exact kept
    have unit : (e.tick i).unitWork half idle =
        (45 + idle - e.idx) * (2 * half) + (if e.ph then 0 else half) + (e.hcnt - 1) + 2 := by
      have next : (e.tick i).qst = .run := by rw [after]; exact run
      rw [unitWork_run next, after]
      rfl
    rw [unseen_tick outer (Nat.le_of_eq same), same, unit]
    omega

/-- An edge of a busy queue leaves less work once every byte has come. -/
theorem Stands.works (stands : Stands half (queueBytes ops) (queueBytes ops) Fits (Progress idle ops) log e)
    (link : Link half idle (queueBytes ops) (queueBytes ops) e) (slack : idle ≤ 31) (least : 2 ≤ half)
    (most : half ≤ 63) (plain : i.Plain) (quiet : i.fed = none) (busy : e.qBusy = true) :
    (e.tick i).swdWork half idle < e.swdWork half idle := by
  cases stands with
  | idle c kept shows rest behind primed early =>
    have resting : e.qst = .idle := by rw [shows.running, rest, if_neg Bool.false_ne_true]
    simp only [qBusy, link.mode.qActive, resting, bne_self_eq_false, Bool.or_false, Bool.true_and, Bool.and_eq_true,
      Bool.not_eq_true'] at busy
    obtain ⟨going, differ⟩ := busy
    have few : c.taken = 0 → (queueBytes ops).length < depth := by
      intro none
      have few := (early none).1
      have one : e.qready.toNat ≤ 1 := Bool.toNat_le e.qready
      simp only [depth]
      omega
    obtain ready | empty := Bool.eq_false_or_eq_true e.qready
    · obtain ⟨more, -⟩ := List.getElem?_eq_some_iff.mp (primed ready)
      exact swd_works_start link shows resting more few ready going least most plain quiet
    · have after := tick_wait link.mode.run plain resting (by rw [empty, Bool.and_false])
      have same : (e.tick i).pending = e.pending := by rw [after]; exact pending_fetch quiet
      have unit : (e.tick i).unitWork half idle = e.unitWork half idle := by rw [after]; rfl
      have waits : e.unseen = 1 := by
        have left := pending_of_taken link.filled shows.taken behind few
        refine if_pos ⟨fun none => ?_, empty⟩
        have all : c.taken = (queueBytes ops).length := by omega
        rw [shows.taken, link.filled.tail, all] at differ
        simp at differ
      rw [Engine.swdWork, Engine.swdWork, unseen_tick (outer_tick link.mode plain) (Nat.le_of_eq same), same, unit, waits]
      exact Nat.lt_succ_self _
  | low c kept goes shows going behind some low level count settled =>
    obtain ⟨inside, bytes⟩ := kept.entered goes
    exact swd_works_run link shows (c.running_enter _) behind some inside bytes slack least most plain quiet
  | high c bit before split fits kept goes shows going behind some high level count primed =>
    obtain ⟨inside, bytes⟩ := kept.entered goes
    exact swd_works_run link shows ((Core.running_rise _ _).trans (c.running_enter _)) behind some inside bytes slack least
      most plain quiet

/-- The edges a queue of this many bytes may take. -/
def ticksForQueue (half idle count : Nat) : Nat := (count + 1) * ((46 + idle) * (2 * half) + 2)

/-- The work of a queue is bounded by its length. -/
theorem Stands.work_le (stands : Stands half queue fed Fits (Progress idle ops) log e) (link : Link half idle queue fed e) :
    e.swdWork half idle ≤ ticksForQueue half idle fed.length := by
  have seen : e.unseen ≤ 1 := by
    rw [Engine.unseen]
    split <;> decide
  have unit : (46 + idle) * (2 * half) = (45 + idle) * (2 * half) + 2 * half := by
    rw [← Nat.succ_mul]
    congr 1
    omega
  have within {taken : Nat} (head : e.qptr = taken % depth) (behind : taken ≤ fed.length)
      (early : taken = 0 → fed.length < depth) (count : e.qst = .run → e.hcnt < half) :
      e.swdWork half idle ≤ ticksForQueue half idle fed.length := by
    have few : e.pending ≤ fed.length := by
      rw [pending_of_taken link.filled head behind early]
      exact Nat.sub_le _ _
    have bytes := Nat.mul_le_mul_right ((46 + idle) * (2 * half) + 2) few
    rw [Engine.swdWork, ticksForQueue, Nat.add_one_mul fed.length]
    cases running : e.qst with
    | idle =>
      rw [unitWork_idle running]
      omega
    | run =>
      have cycles := Nat.mul_le_mul_right (2 * half) (Nat.sub_le (45 + idle) e.idx)
      have less := count running
      rw [unitWork_run running]
      split <;> omega
  cases stands with
  | idle c kept shows rest behind primed early =>
    refine within shows.taken behind ?_ ?_
    · intro none
      have few := (early none).1
      have one : e.qready.toNat ≤ 1 := Bool.toNat_le e.qready
      simp only [depth]
      omega
    · intro running
      rw [shows.running, rest, if_neg Bool.false_ne_true] at running
      exact nomatch running
  | low c kept goes shows going behind some low level count settled =>
    exact within shows.taken behind (fun none => absurd none (Nat.ne_of_gt some)) fun _ => count
  | high c bit before split fits kept goes shows going behind some high level count primed =>
    exact within shows.taken behind (fun none => absurd none (Nat.ne_of_gt some)) fun _ => count

theorem SwdReady.tick (ready : SwdReady half idle e) (mode : e.IsSwd) (quiet : i.Quiet) :
    SwdReady half idle (e.tick i) ∧ (e.tick i).IsSwd ∧ swdWire.emit e i = none ∧ (e.tick i).rmem = e.rmem := by
  have after := tick_wait mode.run quiet.1 ready.rest (ready.held mode.run).2
  refine ⟨?_, ?_, swd_emit_same ((congrArg Engine.swclkLvl after).trans rfl), by rw [after]; rfl⟩ <;> rw [after]
  · refine ⟨ready.armed, ready.spi, ready.half, ready.cpol, ready.unit, ready.rest, fun swd => ?_⟩
    obtain stopped | ⟨same, -⟩ := ready.quiet swd
    · exact .inl stopped
    · right
      simp only [Engine.fetch, Input.fed_none quiet.2, Bool.false_eq_true, if_false, same, bne_self_eq_false, and_self]
  · exact ⟨mode.armed, mode.spi, mode.qmode⟩

theorem SwdReady.run (ready : SwdReady half idle e) (mode : e.IsSwd) (quiet : ∀ i ∈ ticks, i.Quiet) :
    SwdReady half idle (swdWire.run e ticks) ∧ (swdWire.run e ticks).IsSwd ∧ swdWire.emitted e ticks = [] ∧
      (swdWire.run e ticks).rmem = e.rmem := by
  induction ticks generalizing e with
  | nil => exact ⟨ready, mode, rfl, rfl⟩
  | cons i ticks ih =>
    obtain ⟨next, swd, silent, kept⟩ := ready.tick mode (quiet i List.mem_cons_self)
    obtain ⟨last, serving, rest, same⟩ := ih next swd fun later member => quiet later (List.mem_cons_of_mem i member)
    refine ⟨last, serving, ?_, same.trans kept⟩
    rw [Emitter.emitted, silent, Option.toList_none, List.nil_append]
    exact rest

theorem SwdReady.not_busy (ready : SwdReady half idle e) (mode : e.IsSwd) : e.qBusy = false := by
  rw [qBusy, mode.qActive, ready.rest, Bool.true_and]
  obtain stopped | ⟨same, -⟩ := ready.quiet mode.qmode
  · rw [stopped, Bool.not_true, Bool.false_and]
  · rw [same, bne_self_eq_false, bne_self_eq_false, Bool.or_self, Bool.and_false]

theorem Stands.drains (stands : Stands half (queueBytes ops) (queueBytes ops) Fits (Progress idle ops) log e)
    (link : Link half idle (queueBytes ops) (queueBytes ops) e) (few : readCount ops ≤ swdqReadsMax)
    (slack : idle ≤ 31) (least : 2 ≤ half) (most : half ≤ 63) (quiet : ∀ i ∈ ticks, i.Quiet)
    (obeys : swdWire.Along (Obeys Fits) e ticks) (enough : e.swdWork half idle ≤ ticks.length) :
    (swdWire.run e ticks).qBusy = false := by
  induction ticks generalizing log e with
  | nil =>
    obtain busy | passed := Bool.eq_false_or_eq_true e.qBusy
    · have less := stands.works (i := {}) link slack least most ⟨rfl, rfl, rfl, rfl, rfl⟩ rfl busy
      exact absurd (Nat.lt_of_lt_of_le less enough) (Nat.not_lt_zero _)
    · exact passed
  | cons i ticks ih =>
    have now := quiet i List.mem_cons_self
    obtain busy | passed := Bool.eq_false_or_eq_true e.qBusy
    · have less := stands.works link slack least most now.1 now.2 busy
      have same : queueBytes ops ++ i.fed.toList = queueBytes ops := by rw [now.2, Option.toList_none, List.append_nil]
      have step := stands.step (Progress.keeps few slack) link least most now.1 obeys.1
      have linked := link.tick link.filled.short ⟨[], by rw [List.append_nil, same]⟩ now.1
      rw [same] at step linked
      refine ih step linked (fun later member => quiet later (List.mem_cons_of_mem i member)) obeys.2 ?_
      exact Nat.le_of_lt_succ (Nat.lt_of_lt_of_le less enough)
    · obtain ⟨ready, mode, -, -⟩ := (stands.ready link passed).run link.mode quiet
      exact ready.not_busy mode

theorem QueueFeed.ends {feed : Input} {front back : List Input}
    (run : QueueFeed (queueBytes ops) e feed (front ++ back)) (ready : SwdReady half idle e) (least : 2 ≤ half)
    (most : half ≤ 63) (slack : idle ≤ 31) (short : (queueBytes ops).length ≤ depth)
    (few : readCount ops ≤ swdqReadsMax) (arrived : front.filterMap Input.fed = queueBytes ops)
    (enough : ticksForQueue half idle (queueBytes ops).length ≤ back.length) :
    (swdWire.run e (feed :: (front ++ back))).qBusy = false := by
  have later : back.filterMap Input.fed = [] := by
    have all := run.bytes
    rw [List.filterMap_append, arrived] at all
    exact List.append_right_eq_self.mp all
  have split := (swdWire.along_append front back).mp run.answers.2
  have fed : QueueFeed (queueBytes ops) e feed front :=
    ⟨run.begin, run.swd, fun i member => run.plain i (List.mem_append_left back member), arrived, run.answers.1, split.1⟩
  obtain ⟨reached, linked⟩ := fed.reaches (suits_any e _) (Progress.keeps few slack) (Progress.first e) ready least most short
  have quiet : ∀ i ∈ back, i.Quiet := fun i member =>
    ⟨run.plain i (List.mem_append_right front member), List.filterMap_eq_nil_iff.mp later i member⟩
  have done := reached.drains linked few slack least most quiet (split.2.and swdWire (suits_any _ back))
    (Nat.le_trans (reached.work_le linked) enough)
  rw [← swdWire.run_append] at done
  exact done

end BenchPod.SwdEngine
