import BenchPod.SwdEngine.SpiBytes

/-!
# Transfers of the SPI master

A transfer starts from a resting engine, follows the bytes fed and comes to rest again: the work left goes down
by one with each edge.
-/

namespace BenchPod.SwdEngine

open Bits Engine

variable {half taken : Nat} {cpol : Bool} {fed tx : List Byte} {pulses : List Pulse} {e : Engine} {i : Input}
variable {byte : Byte} {front done : List Pulse} {ticks : List Input}

/-- The queue is empty and SCK rests at its idle level. -/
structure Ready (half : Nat) (cpol : Bool) (e : Engine) : Prop where
  mode : e.IsSpi
  level : e.swclkLvl = cpol
  half : e.half = half
  cpol : e.cpol = cpol
  unit : e.endIdx = 7
  going : e.qstop = false
  idle : e.qst = .idle
  empty : e.qready = false
  drained : e.qptr = e.fptr

theorem Ready.tick (ready : Ready half cpol e) (plain : i.Plain) (quiet : i.fed = none) : Ready half cpol (e.tick i) := by
  rw [ready.mode.tick_wait plain ready.idle ready.empty]
  refine ⟨⟨ready.mode.armed, ready.mode.spi⟩, ready.level, ready.half, ready.cpol, ready.unit, ready.going, ready.idle,
    ?_, ?_⟩ <;> simp only [Engine.fetch, Input.fed_none quiet, ready.drained, bne_self_eq_false, Bool.false_eq_true, if_false]

theorem Ready.run (ready : Ready half cpol e) (quiet : ∀ i ∈ ticks, i.Plain ∧ i.fed = none) :
    Ready half cpol (wire.run e ticks) := by
  induction ticks generalizing e with
  | nil => exact ready
  | cons i ticks ih =>
    obtain ⟨plain, silent⟩ := quiet i List.mem_cons_self
    exact ih (ready.tick plain silent) fun later member => quiet later (List.mem_cons_of_mem i member)

theorem Ready.begin (ready : Ready half cpol e) (feed : i.Begin) :
    wire.emit e i = none ∧ Follows half cpol [] [] (e.tick i) := by
  have after := tick_begin feed fun _ => ⟨ready.idle, by rw [ready.empty, Bool.and_false]⟩
  refine ⟨emit_same ((congrArg Engine.swclkLvl after).trans rfl), ?_⟩
  rw [after]
  exact .between 0
    ⟨⟨ready.mode.armed, ready.mode.spi⟩, ready.half, ready.cpol, ready.unit, rfl, .empty _, Nat.le_refl 0, rfl⟩
    ⟨rfl, rfl, rfl⟩ rfl ready.level (fun started => nomatch started) fun _ => Nat.zero_le _

theorem Queue.pending_zero (queue : Queue half cpol fed taken e) (early : taken = 0 → fed.length < depth)
    (same : e.qptr = e.fptr) : taken = fed.length := by
  have behind := queue.behind
  have short := queue.filled.short
  rw [queue.head, queue.filled.tail] at same
  simp only [depth] at same short early
  omega

theorem early_lt {ready : Bool} (early : taken = 0 → fed.length ≤ 1 + ready.toNat) : taken = 0 → fed.length < depth := by
  intro none
  have few := early none
  have one : ready.toNat ≤ 1 := Bool.toNat_le ready
  simp only [depth]
  omega

theorem Clocked.transferred (clocked : Clocked fed taken pulses e) (level : e.swclkLvl = cpol)
    (sent : fed <+: tx.map rev8) (behind : taken ≤ fed.length) :
    Transferred cpol (tx.take taken) pulses e := by
  have bytes : fed.take taken = (tx.take taken).map rev8 := by
    obtain ⟨later, whole⟩ := sent
    rw [List.map_take, ← whole, List.take_append_of_le_length behind]
  have length : (tx.take taken).length = taken := by
    have fits := sent.length_le
    rw [List.length_map] at fits
    exact List.length_take_of_le (Nat.le_trans behind fits)
  refine ⟨?_, ?_, level⟩
  · rw [clocked.heard, bytes, List.flatMap_map]
    exact congrArg (List.flatMap · _) (funext lsbFirst_rev8)
  · rw [clocked.answered, length, rx, List.flatMap_map]
    exact congrArg (List.flatMap · _) (funext fun place => (msbFirst_rev8 (e.rmem place)).symm)

theorem Follows.whole (follows : Follows half cpol fed pulses e) (idle : e.qst = .idle) (sent : fed <+: tx.map rev8) :
    ∃ k ≤ tx.length, Transferred cpol (tx.take k) pulses e := by
  cases follows with
  | between taken queue clocked idle level primed early =>
    have fits := sent.length_le
    rw [List.length_map] at fits
    exact ⟨taken, Nat.le_trans queue.behind fits, clocked.transferred level sent queue.behind⟩
  | low taken byte front done split shifting low => exact absurd (idle.symm.trans shifting.running) nofun
  | high taken byte front done last split shifting high risen sampled settled =>
    exact absurd (idle.symm.trans shifting.running) nofun

theorem not_busy (mode : e.IsSpi) (passed : e.spiBusy = false) : e.qptr = e.fptr ∧ e.qst = .idle := by
  simp only [spiBusy, spiMode, spiPending, mode.armed, mode.spi, Bool.and_self, Bool.true_and, Bool.or_eq_false_iff,
    bne_eq_false_iff_eq] at passed
  exact ⟨passed.1.symm, passed.2⟩

theorem Follows.passed (follows : Follows half cpol fed pulses e) (passed : e.spiBusy = false)
    (sent : fed = tx.map rev8) : Transferred cpol tx pulses e ∧ Ready half cpol e := by
  cases follows with
  | between taken queue clocked idle level primed early =>
    obtain ⟨same, -⟩ := not_busy queue.mode passed
    have all := queue.pending_zero (early_lt early) same
    have count : taken = tx.length := by rw [all, sent, List.length_map]
    have transferred := clocked.transferred level ⟨[], (List.append_nil fed).trans sent⟩ queue.behind
    rw [count, List.take_length] at transferred
    refine ⟨transferred, queue.mode, level, queue.half, queue.cpol, queue.unit, queue.going, idle, ?_, same⟩
    obtain started | empty := Bool.eq_false_or_eq_true e.qready
    · have more := primed started
      rw [all, List.getElem?_eq_none (Nat.le_refl _)] at more
      exact nomatch more
    · exact empty
  | low taken byte front done split shifting low =>
    exact absurd ((not_busy shifting.queue.mode passed).2.symm.trans shifting.running) nofun
  | high taken byte front done last split shifting high risen sampled settled =>
    exact absurd ((not_busy shifting.queue.mode passed).2.symm.trans shifting.running) nofun

namespace Engine

/-- The edges left before the queue is empty, at most. -/
def work (half : Nat) (e : Engine) : Nat :=
  e.pending * (16 * half + 2) + (match e.qst with
    | .idle => if e.qready then 0 else 1
    | .run => (7 - e.idx) * (2 * half) + (if e.ph then 0 else half) + e.hcnt + 2)

end Engine

theorem Queue.pending_eq (queue : Queue half cpol fed taken e) (early : taken = 0 → fed.length < depth) :
    e.pending = fed.length - taken :=
  pending_of_taken queue.filled queue.head queue.behind early

theorem work_idle (idle : e.qst = .idle) : e.work half = e.pending * (16 * half + 2) + (if e.qready then 0 else 1) := by
  simp only [work, idle]

theorem work_run (running : e.qst = .run) :
    e.work half = e.pending * (16 * half + 2) + ((7 - e.idx) * (2 * half) + (if e.ph then 0 else half) + e.hcnt + 2) := by
  simp only [work, running]

theorem works_start (queue : Queue half cpol fed taken e) (early : taken = 0 → fed.length < depth)
    (idle : e.qst = .idle) (more : taken < fed.length) (ready : e.qready = true) (least : 2 ≤ half) (most : half ≤ 63)
    (plain : i.Plain) (quiet : i.fed = none) : (e.tick i).work half < e.work half := by
  have after := tick_start queue.mode.run plain idle ready queue.going
  have running : (e.tick i).qst = .run := congrArg Engine.qst after
  have reload := queue.reload least most
  have before : e.pending = (fed.length - taken - 1) + 1 := by
    rw [queue.pending_eq early]
    omega
  have left : (e.tick i).pending = fed.length - taken - 1 := by
    have short := queue.filled.short
    rw [after]
    simp only [Engine.pending, Engine.start, Engine.fetch, Input.fed_none quiet, Bool.false_eq_true, if_false, queue.filled.tail,
      queue.head]
    simp only [depth] at early short ⊢
    omega
  rw [work_run running, work_idle idle, left, before, ready, if_pos rfl, Nat.add_one_mul (fed.length - taken - 1)]
  simp only [after, Engine.start, reload, Bool.false_eq_true, if_false, Nat.sub_zero]
  omega

/-- An edge within a byte leaves less work. -/
theorem works_shift (shifting : Shifting half cpol fed taken byte front done e) (least : 2 ≤ half) (most : half ≤ 63)
    (plain : i.Plain) (quiet : i.fed = none) : (e.tick i).work half < e.work half := by
  have mode := shifting.queue.mode
  have reload := shifting.queue.reload least most
  have same := @pending_fetch e i quiet
  rw [work_run shifting.running]
  obtain passed | left := Nat.eq_zero_or_pos e.hcnt
  · obtain high | low := Bool.eq_false_or_eq_true e.ph
    · obtain inside | last := Nat.lt_or_eq_of_le (Nat.le_of_lt_succ shifting.inside)
      · have after := mode.tick_shift plain shifting.running passed high inside shifting.queue.unit
        have running : (e.tick i).qst = .run := (congrArg Engine.qst after).trans shifting.running
        have next : 7 - e.idx = (7 - (e.idx + 1)) + 1 := by omega
        have kept : (e.tick i).pending = e.pending := by rw [after]; exact same
        rw [work_run running, kept, next, Nat.add_one_mul (7 - (e.idx + 1)), high, if_pos rfl, passed]
        simp only [after, Bool.false_eq_true, if_false, reload]
        omega
      · have after := mode.tick_store plain shifting.running passed high last shifting.queue.unit
        have idle : (e.tick i).qst = .idle := congrArg Engine.qst after
        have kept : (e.tick i).pending = e.pending := by rw [after]; exact same
        rw [work_idle idle, kept]
        split <;> omega
    · have after := mode.tick_rise plain shifting.running passed low
      have running : (e.tick i).qst = .run := (congrArg Engine.qst after).trans shifting.running
      have kept : (e.tick i).pending = e.pending := by rw [after]; exact same
      have place : (e.tick i).idx = e.idx := by rw [after]; rfl
      rw [work_run running, kept, place, low, if_neg Bool.false_ne_true, passed]
      simp only [after, if_true, reload]
      omega
  · have after := tick_count mode.run plain shifting.running (Nat.ne_of_gt left)
    have running : (e.tick i).qst = .run := (congrArg Engine.qst after).trans shifting.running
    have kept : (e.tick i).pending = e.pending := by rw [after]; exact same
    have place : (e.tick i).idx = e.idx := by rw [after]; rfl
    have phase : (e.tick i).ph = e.ph := by rw [after]; rfl
    rw [work_run running, kept, place, phase]
    simp only [after]
    omega

theorem Follows.works (follows : Follows half cpol fed pulses e) (least : 2 ≤ half) (most : half ≤ 63)
    (plain : i.Plain) (quiet : i.fed = none) (busy : e.spiBusy = true) : (e.tick i).work half < e.work half := by
  cases follows with
  | between taken queue clocked idle level primed early =>
    have left := queue.pending_eq (early_lt early)
    obtain ready | empty := Bool.eq_false_or_eq_true e.qready
    · obtain ⟨more, -⟩ := List.getElem?_eq_some_iff.mp (primed ready)
      exact works_start queue (early_lt early) idle more ready least most plain quiet
    · have after := queue.mode.tick_wait plain idle empty
      have waiting : (e.tick i).qready = true := by
        simp only [spiBusy, spiMode, spiPending, queue.mode.armed, queue.mode.spi, idle, Bool.and_self, Bool.true_and,
          bne_self_eq_false, Bool.or_false] at busy
        rw [after, Engine.fetch]
        simpa only [bne_iff_ne, ne_comm] using busy
      rw [work_idle ((congrArg Engine.qst after).trans idle), work_idle idle, waiting, empty, after,
        pending_fetch quiet, if_pos rfl, if_neg Bool.false_ne_true]
      exact Nat.lt_succ_self _
  | low taken byte front done split shifting low => exact works_shift shifting least most plain quiet
  | high taken byte front done last split shifting high risen sampled settled =>
    exact works_shift shifting least most plain quiet

theorem Follows.work_le (follows : Follows half cpol fed pulses e) (least : 2 ≤ half) :
    e.work half ≤ (fed.length + 1) * (16 * half + 2) := by
  rw [Nat.add_one_mul fed.length]
  have within {taken : Nat} {byte : Byte} {front done : List Pulse}
      (shifting : Shifting half cpol fed taken byte front done e) :
      e.work half ≤ fed.length * (16 * half + 2) + (16 * half + 2) := by
    have few : e.pending ≤ fed.length := by
      rw [shifting.queue.pending_eq fun none => absurd none (Nat.succ_ne_zero _)]
      exact Nat.sub_le _ _
    have bytes := Nat.mul_le_mul_right (16 * half + 2) few
    have bits := Nat.mul_le_mul_right (2 * half) (Nat.sub_le 7 e.idx)
    have count := shifting.count
    rw [work_run shifting.running]
    split <;> omega
  cases follows with
  | between taken queue clocked idle level primed early =>
    have few : e.pending ≤ fed.length := by
      rw [queue.pending_eq (early_lt early)]
      exact Nat.sub_le _ _
    have bytes := Nat.mul_le_mul_right (16 * half + 2) few
    rw [work_idle idle]
    split <;> omega
  | low taken byte front done split shifting low => exact within shifting
  | high taken byte front done last split shifting high risen sampled settled => exact within shifting

theorem Follows.drains (follows : Follows half cpol fed pulses e) (least : 2 ≤ half) (most : half ≤ 63)
    (sent : fed = tx.map rev8) (quiet : ∀ i ∈ ticks, i.Plain ∧ i.fed = none) (holds : wire.Along Holds e ticks)
    (enough : e.work half ≤ ticks.length) : (wire.run e ticks).spiBusy = false := by
  have resting {e : Engine} {ticks : List Input} (quiet : ∀ i ∈ ticks, i.Plain ∧ i.fed = none)
      (ready : Ready half cpol e) : (wire.run e ticks).spiBusy = false := by
    have rest := ready.run quiet
    simp only [spiBusy, spiPending, rest.idle, rest.drained, bne_self_eq_false, Bool.or_self, Bool.and_false]
  induction ticks generalizing pulses e with
  | nil =>
    obtain busy | passed := Bool.eq_false_or_eq_true e.spiBusy
    · have unfed : ({} : Input).fed = none := rfl
      have less := follows.works (i := {}) least most ⟨rfl, rfl, rfl, rfl, rfl⟩ unfed busy
      exact absurd (Nat.lt_of_lt_of_le less enough) (Nat.not_lt_zero _)
    · exact passed
  | cons i ticks ih =>
    obtain busy | passed := Bool.eq_false_or_eq_true e.spiBusy
    · obtain ⟨plain, silent⟩ := quiet i List.mem_cons_self
      have less := follows.works least most plain silent busy
      have same : fed ++ i.fed.toList = fed := by rw [silent, Option.toList_none, List.append_nil]
      have room : (fed ++ i.fed.toList).length ≤ depth := by
        rw [same]
        cases follows with
        | between taken queue => exact queue.filled.short
        | low taken byte front done split shifting => exact shifting.queue.filled.short
        | high taken byte front done last split shifting => exact shifting.queue.filled.short
      have step := follows.step least most plain holds.1 room
      rw [same] at step
      refine ih step (fun later member => quiet later (List.mem_cons_of_mem i member)) holds.2 ?_
      exact Nat.le_of_lt_succ (Nat.lt_of_lt_of_le less enough)
    · exact resting quiet (follows.passed passed sent).2

/-- From a resting engine every stage does what it should. -/
theorem Ready.exact {period : Nat} (ready : Ready (spiArmHalf period) cpol e) (stages : List Stage) :
    Exact period cpol e stages := by
  have least := two_le_spiArmHalf period
  have most := spiArmHalf_le period
  induction stages generalizing e with
  | nil => exact trivial
  | cons stage stages ih =>
    cases stage with
    | still ticks =>
      intro quiet
      refine ⟨?_, ih (ready.run quiet)⟩
      rintro front ⟨back, rfl⟩
      exact (ready.run fun i member => quiet i (List.mem_append_left back member)).level
    | xfer tx feed ticks =>
      intro some short feeding plain sent holds
      obtain ⟨silent, follows⟩ := ready.begin feeding
      have room : ([] ++ ticks.filterMap Input.fed).length ≤ depth := by
        have fits := sent.length_le
        rw [List.length_map] at fits
        exact Nat.le_trans fits short
      have reached := follows.run least most plain holds.2 room
      have pulses : wire.emitted e (feed :: ticks) = wire.emitted (e.tick feed) ticks := by
        rw [Emitter.emitted, silent]
        rfl
      rw [List.nil_append, List.nil_append, ← pulses] at reached
      refine ⟨fun idle => Follows.whole reached idle sent, fun all => ⟨fun passed => ?_, ?_⟩⟩
      · obtain ⟨transferred, rest⟩ := Follows.passed reached passed all
        exact ⟨transferred, ih rest⟩
      · rintro front back rfl arrived enough
        have later : back.filterMap Input.fed = [] := by
          rw [List.filterMap_append, arrived] at all
          exact List.append_right_eq_self.mp all
        have split := (wire.along_append front back).mp holds.2
        have begun := follows.run least most (fun i member => plain i (List.mem_append_left back member)) split.1
          (by rwa [List.filterMap_append, later, List.append_nil] at room)
        rw [List.nil_append] at begun
        have bound := begun.work_le least
        rw [arrived, List.length_map] at bound
        have done := begun.drains least most arrived
          (fun i member => ⟨plain i (List.mem_append_right front member), List.filterMap_eq_nil_iff.mp later i member⟩)
          split.2 (Nat.le_trans bound enough)
        rw [← wire.run_append] at done
        exact done

theorem Ready.arm {period : Nat} (off : e.armed = false) (same : e.fptr = e.qptr) (arm : i.SpiArm period cpol) :
    Ready (spiArmHalf period) cpol (e.tick i) := by
  rw [tick_arm off arm]
  refine ⟨⟨rfl, rfl⟩, rfl, rfl, rfl, rfl, rfl, rfl, ?_, rfl⟩
  simp only [same, bne_self_eq_false]

theorem arm_starts {period : Nat} (off : e.armed = false) (left : e.fptr ≠ e.qptr) (arm : i.SpiArm period cpol) :
    ((e.tick i).tick {}).clkVal = false := by
  have after := tick_arm off arm
  have mode : (e.tick i).IsSpi := ⟨by rw [after], by rw [after]⟩
  have ready : (e.tick i).qready = true := by
    rw [after]
    exact bne_iff_ne.mpr (Ne.symm left)
  have started := tick_start (i := {}) mode.run ⟨rfl, rfl, rfl, rfl, rfl⟩ (by rw [after]) ready (by rw [after])
  rw [clkVal, started]
  rfl

/-- Whatever the engine did before, the SPI master is exact in every session from `SPI_ARM` on if and only if the
pointers of the queue are equal then. -/
theorem spi_exact_iff (off : e.armed = false) :
    (∀ (half : Nat) (cpol : Bool) (arm : Input), arm.SpiArm half cpol →
      ∀ stages, Exact half cpol (e.tick arm) stages) ↔ e.fptr = e.qptr := by
  constructor
  · intro exact
    by_contra left
    have arm : Input.SpiArm 2 true { spiArmStb := true, spiHalf := 2, spiCpol := true } :=
      ⟨rfl, rfl, rfl, rfl, rfl, rfl, rfl, rfl⟩
    have still := exact 2 true _ arm [.still [{}]]
    have rests := (still (by decide)).1 [{}] (List.prefix_refl _)
    have starts : (wire.run (e.tick _) [{}]).clkVal = false := arm_starts off left arm
    exact Bool.false_ne_true (starts.symm.trans rests)
  · intro same half cpol arm arming stages
    exact (Ready.arm off same arming).exact stages

/-- From power-on every session is exact. -/
theorem spi_exact_power_on :
    ({} : Engine).fptr = ({} : Engine).qptr ∧ ∀ (half : Nat) (cpol : Bool) (arm : Input), arm.SpiArm half cpol →
      ∀ stages, Exact half cpol (Engine.tick {} arm) stages :=
  ⟨rfl, (@spi_exact_iff {} rfl).mpr rfl⟩

/-- Two SWD reads queued to a target that does not answer: the queue stops at the first, and SWD is disarmed. -/
def noAnswer : List Input :=
  [{ armStb := true, armDioCh := 1 }, { qCfgStb := true, qCfgHalf := 2 }, { feedBegin := true, feedQ := true },
    { feedStb := true, feedByte := 0xA5, feedQ := true }, { feedStb := true, feedByte := 0xA5, feedQ := true }] ++
    List.replicate 60 ({} : Input) ++ [{ disarmStb := true }]

/-- SPI is armed next and the chip select moves: SCK runs with nothing queued. -/
theorem stale_queue_clocks :
    (wire.run {} noAnswer).armed = false ∧
      ¬∀ (half : Nat) (cpol : Bool) (arm : Input), arm.SpiArm half cpol →
        ∀ stages, Exact half cpol ((wire.run {} noAnswer).tick arm) stages := by
  refine ⟨by decide +kernel, fun exact => ?_⟩
  have still := exact 2 false { spiArmStb := true, spiHalf := 2 } ⟨rfl, rfl, rfl, rfl, rfl, rfl, rfl, rfl⟩
    [.still ({ spiCsStb := true, spiCsAssert := true } :: List.replicate 2 ({} : Input))]
  have rests := (still (by decide)).1 _ (List.prefix_refl _)
  exact absurd rests (by decide +kernel)

end BenchPod.SwdEngine
