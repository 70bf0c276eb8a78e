import BenchPod.SwdEngine.Spi

/-!
# Edges of the running engine

A plain edge does one of six things: nothing, start a unit, count down, raise the clock, hold it high for a byte
that has not come, or end the high half.
-/

namespace BenchPod
namespace SwdEngine
namespace Engine

open Bits

variable {e : Engine} {i : Input} {new : Engine}

theorem arms_plain (plain : i.Plain) : arms i new = new := by
  simp only [arms, plain.disarm, plain.arm, plain.spiArm, Bool.false_eq_true, if_false]

theorem configure_plain (plain : i.Plain) :
    configure i new = { new with csN := if i.spiCsStb then !i.spiCsAssert else new.csN } := by
  simp only [configure, plain.config, Bool.false_eq_true, if_false]
  split <;> rfl

theorem begin_plain (plain : i.Plain) : begin i new = new := by
  simp only [begin, plain.begin, Bool.false_eq_true, if_false]

theorem bitBang_run (run : e.run = true) : bitBang e i new = new := by
  have mode : (e.armed && !e.spi && !e.qmode) = false := by
    simp only [Engine.run] at run
    revert run
    cases e.armed <;> cases e.spi <;> cases e.qmode <;> decide
  rw [bitBang, Bool.and_assoc i.feedStb, Bool.and_assoc i.feedStb, mode, Bool.and_false, if_neg Bool.false_ne_true]

theorem enqueue_run (run : e.run = true) :
    enqueue e i new = { new with
      tmem := if i.feedStb then Function.update e.tmem e.fptr i.feedByte else new.tmem
      fptr := if i.feedStb then (e.fptr + 1) % depth else new.fptr } := by
  simp only [enqueue, run, Bool.and_true]
  split <;> rfl

/-- A plain edge but for the sequencer: the synchroniser, the queue and the registered reads. -/
def fetch (e : Engine) (i : Input) : Engine :=
  { e with
    csN := if i.spiCsStb then !i.spiCsAssert else e.csN
    dioS0 := i.dioIn
    dioS1 := e.dioS0
    tmem := if i.feedStb then Function.update e.tmem e.fptr i.feedByte else e.tmem
    fptr := if i.feedStb then (e.fptr + 1) % depth else e.fptr
    qready := e.qptr != e.fptr
    rdData := e.rmem i.rdAddr
    tRd := e.tmem e.qptr }

theorem fetch_eq (run : e.run = true) (plain : i.Plain) :
    e.reads i { e.enqueue i <| e.bitBang i <| begin i <| configure i <| arms i <| e.sync i e with
      qready := (e.qptr != e.fptr) && !i.feedBegin } = e.fetch i := by
  rw [arms_plain plain, configure_plain plain, begin_plain plain, bitBang_run run, enqueue_run run, plain.begin]
  simp only [sync, reads, fetch, Bool.not_false, Bool.and_true]

theorem reads_takeAck : e.reads i (e.takeAck new) = e.takeAck (e.reads i new) := by
  rw [takeAck, takeAck]
  split <;> rfl

theorem reads_takeData : e.reads i (e.takeData new) = e.takeData (e.reads i new) := by
  rw [takeData, takeData]
  split
  · split <;> rfl
  · rfl

theorem reads_takeParity : e.reads i (e.takeParity new) = e.takeParity (e.reads i new) := by
  rw [takeParity, takeParity]
  split <;> rfl

theorem reads_rise : e.reads i (e.rise new) = e.rise (e.reads i new) := by
  rw [rise, rise, ← reads_takeAck, ← reads_takeData, ← reads_takeParity]
  rfl

theorem reads_fallSpi : e.reads i (e.fallSpi new) = e.fallSpi (e.reads i new) := by
  simp only [fallSpi]
  split <;> rfl

theorem reads_fallRequest : e.reads i (e.fallRequest new) = e.fallRequest (e.reads i new) := by
  rw [fallRequest, fallRequest]
  split <;> rfl

theorem reads_fallAck : e.reads i (e.fallAck new) = e.fallAck (e.reads i new) := by
  rw [fallAck, fallAck]
  split <;> rfl

theorem reads_fallParity : e.reads i (e.fallParity new) = e.fallParity (e.reads i new) := by
  rw [fallParity, fallParity]
  split <;> rfl

theorem reads_fallData : e.reads i (e.fallData new) = e.fallData (e.reads i new) := by
  rw [fallData, fallData]
  split
  · rfl
  · split <;> rfl

theorem reads_finish : e.reads i (e.finish new) = e.finish (e.reads i new) := by
  rw [finish, finish]
  split
  · simp only
    split <;> rfl
  · rfl

theorem reads_fall : e.reads i (e.fall new) = e.fall (e.reads i new) := by
  rw [fall, fall, reads_finish]
  congr 1
  split
  · exact reads_fallSpi
  · rw [fallSwd, fallSwd, reads_fallData, reads_fallParity, reads_fallAck, reads_fallRequest]
    rfl

theorem tick_wait (run : e.run = true) (plain : i.Plain) (idle : e.qst = .idle)
    (held : (!e.qstop && e.qready) = false) : e.tick i = e.fetch i := by
  rw [tick, sequencer, run, if_pos rfl, idle, ← fetch_eq run plain]
  simp only [held, Bool.false_eq_true, if_false]

theorem tick_start (run : e.run = true) (plain : i.Plain) (idle : e.qst = .idle) (ready : e.qready = true)
    (going : e.qstop = false) : e.tick i = e.start (e.fetch i) := by
  rw [tick, sequencer, run, if_pos rfl, idle, ← fetch_eq run plain]
  simp only [ready, going, Bool.not_false, Bool.and_self, if_true, start, reads]

theorem tick_count (run : e.run = true) (plain : i.Plain) (running : e.qst = .run) (left : e.hcnt ≠ 0) :
    e.tick i = { e.fetch i with hcnt := e.hcnt - 1 } := by
  rw [tick, sequencer, run, if_pos rfl, running, ← fetch_eq run plain]
  simp only [if_pos left, reads]

theorem tick_rise (run : e.run = true) (plain : i.Plain) (running : e.qst = .run) (passed : e.hcnt = 0)
    (low : e.ph = false) : e.tick i = e.rise (e.fetch i) := by
  rw [tick, sequencer, run, if_pos rfl, running, ← fetch_eq run plain, ← reads_rise]
  simp only [passed, low, ne_eq, not_true_eq_false, if_false, Bool.not_false, if_true]

theorem tick_stall (run : e.run = true) (plain : i.Plain) (running : e.qst = .run) (passed : e.hcnt = 0)
    (high : e.ph = true) (stalled : (e.qByteIn && !e.qready) = true) : e.tick i = e.fetch i := by
  rw [tick, sequencer, run, if_pos rfl, running, ← fetch_eq run plain]
  simp only [passed, high, ne_eq, not_true_eq_false, if_false, Bool.not_true, Bool.false_eq_true, stalled]

theorem tick_fall (run : e.run = true) (plain : i.Plain) (running : e.qst = .run) (passed : e.hcnt = 0)
    (high : e.ph = true) (going : (e.qByteIn && !e.qready) = false) : e.tick i = e.fall (e.fetch i) := by
  rw [tick, sequencer, run, if_pos rfl, running, ← fetch_eq run plain, ← reads_fall]
  simp only [passed, high, ne_eq, not_true_eq_false, if_false, Bool.not_true, Bool.false_eq_true, going, Bool.not_false,
    if_true]

/-- The engine after the edge a feed starts on, with nothing ready for the sequencer. -/
def begun (e : Engine) (i : Input) : Engine :=
  { e with
    wptr := 0
    fptr := 0
    qptr := 0
    qmode := i.feedQ
    qst := .idle
    qstop := false
    ack := 0
    perr := false
    csN := if i.spiCsStb then !i.spiCsAssert else e.csN
    dioS0 := i.dioIn
    dioS1 := e.dioS0
    qready := false
    rdData := e.rmem i.rdAddr
    tRd := e.tmem e.qptr }

theorem tick_begin (feed : i.Begin)
    (quiet : e.run = true → e.qst = .idle ∧ (!e.qstop && e.qready) = false) : e.tick i = e.begun i := by
  have front : e.reads i { e.enqueue i <| e.bitBang i <| begin i <| configure i <| arms i <| e.sync i e with
      qready := (e.qptr != e.fptr) && !i.feedBegin } = e.begun i := by
    simp only [reads, enqueue, bitBang, feed.feed, Bool.false_and, Bool.false_eq_true, if_false, Engine.begin, feed.begin,
      if_true, configure, feed.config, arms, feed.disarm, feed.arm, feed.spiArm, sync, Bool.not_true, Bool.and_false, begun]
    cases i.spiCsStb <;> simp only [Bool.false_eq_true, if_true, if_false]
  rw [tick, sequencer, ← front]
  cases run : e.run with
  | false => simp only [Bool.false_eq_true, if_false]
  | true =>
    obtain ⟨idle, held⟩ := quiet run
    simp only [if_true, idle, held, Bool.false_eq_true, if_false]

end Engine

theorem Input.length_fed (i : Input) : i.fed.toList.length = i.feedStb.toNat := by
  simp only [Input.fed]
  cases i.feedStb <;> rfl

theorem fed_cons (i : Input) (ticks : List Input) :
    (i :: ticks).filterMap Input.fed = i.fed.toList ++ ticks.filterMap Input.fed := by
  rw [List.filterMap_cons]
  cases i.fed <;> rfl

/-- The bytes still in the queue. -/
def Engine.pending (e : Engine) : Nat := (e.fptr + depth - e.qptr) % depth

theorem Input.fed_none {i : Input} (quiet : i.fed = none) : i.feedStb = false := by
  cases feeding : i.feedStb with
  | false => rfl
  | true =>
    rw [Input.fed, feeding, if_pos rfl] at quiet
    exact nomatch quiet

theorem pending_fetch {e : Engine} {i : Input} (quiet : i.fed = none) : (e.fetch i).pending = e.pending := by
  simp only [Engine.pending, Engine.fetch, Input.fed_none quiet, Bool.false_eq_true, if_false]

/-- The bytes fed lie in the transmit queue from its start. -/
structure Filled (fed : List Byte) (tmem : Nat → Byte) (fptr : Nat) : Prop where
  short : fed.length ≤ depth
  tail : fptr = fed.length % depth
  held : ∀ place < fed.length, fed[place]? = some (tmem place)

theorem Filled.empty (tmem : Nat → Byte) : Filled [] tmem 0 :=
  ⟨Nat.zero_le _, rfl, fun place inside => absurd inside (Nat.not_lt_zero place)⟩

theorem Filled.fetch {fed : List Byte} {e : Engine} {i : Input} (filled : Filled fed e.tmem e.fptr)
    (room : (fed ++ i.fed.toList).length ≤ depth) :
    Filled (fed ++ i.fed.toList) (e.fetch i).tmem (e.fetch i).fptr := by
  refine ⟨room, ?_, ?_⟩
  · simp only [Engine.fetch, List.length_append, Input.length_fed, filled.tail]
    cases i.feedStb
    · rfl
    · simp only [if_true, Bool.toNat_true, Nat.mod_add_mod]
  · intro place inside
    have held := filled.held place
    simp only [List.length_append, Input.length_fed] at room inside
    simp only [Engine.fetch, Input.fed]
    cases feeding : i.feedStb with
    | false =>
      rw [feeding] at inside
      simpa using held inside
    | true =>
      rw [feeding, Bool.toNat_true] at inside room
      have fits : fed.length % depth = fed.length := Nat.mod_eq_of_lt (by simp only [depth] at room ⊢; omega)
      simp only [if_true, Option.toList_some, filled.tail, fits]
      obtain older | newest := Nat.lt_succ_iff_lt_or_eq.mp inside
      · rw [List.getElem?_append_left older, held older, Function.update_of_ne (Nat.ne_of_lt older)]
      · rw [newest, List.getElem?_concat_length, Function.update_self]

theorem pending_of_taken {taken : Nat} {fed : List Byte} {e : Engine} (filled : Filled fed e.tmem e.fptr) (head : e.qptr = taken % depth)
    (behind : taken ≤ fed.length) (some : taken = 0 → fed.length < depth) : e.pending = fed.length - taken := by
  have short := filled.short
  simp only [Engine.pending, filled.tail, head]
  simp only [depth] at some short ⊢
  omega

end SwdEngine
end BenchPod

/-!
## Edges of the SPI master

In SPI mode the rising edge takes nothing, the falling edge shifts MISO in, and the last one of a byte stores it.
-/

namespace BenchPod
namespace SwdEngine
namespace Engine

open Bits

variable {e : Engine} {i : Input}

/-- The engine is armed as an SPI master. -/
structure IsSpi (e : Engine) : Prop where
  armed : e.armed = true
  spi : e.spi = true

namespace IsSpi

theorem run (mode : e.IsSpi) : e.run = true := by
  simp only [Engine.run, mode.armed, mode.spi, Bool.true_or, Bool.and_self]

theorem tick_wait (mode : e.IsSpi) (plain : i.Plain) (idle : e.qst = .idle) (empty : e.qready = false) :
    e.tick i = e.fetch i :=
  Engine.tick_wait mode.run plain idle (by rw [empty, Bool.and_false])

theorem tick_rise (mode : e.IsSpi) (plain : i.Plain) (running : e.qst = .run) (passed : e.hcnt = 0)
    (low : e.ph = false) :
    e.tick i = { e.fetch i with swclkLvl := true, ph := true, hcnt := e.reload } := by
  rw [Engine.tick_rise mode.run plain running passed low]
  simp only [rise, takeAck, takeData, takeParity, mode.spi, Bool.not_true, Bool.false_and, Bool.false_eq_true, if_false]

theorem tick_fall (mode : e.IsSpi) (plain : i.Plain) (running : e.qst = .run) (passed : e.hcnt = 0)
    (high : e.ph = true) : e.tick i = e.fall (e.fetch i) :=
  Engine.tick_fall mode.run plain running passed high (by simp only [qByteIn, mode.spi, Bool.not_true, Bool.false_and])

theorem tick_shift (mode : e.IsSpi) (plain : i.Plain) (running : e.qst = .run) (passed : e.hcnt = 0)
    (high : e.ph = true) (inside : e.idx < 7) (unit : e.endIdx = 7) :
    e.tick i = { e.fetch i with
      ph := false
      hcnt := e.reload
      swclkLvl := false
      idx := e.idx + 1
      sh := shiftIn e.dioS1 e.sh } := by
  have next : (e.idx + 1) % 128 = e.idx + 1 := Nat.mod_eq_of_lt (by omega)
  rw [mode.tick_fall plain running passed high]
  simp only [fall, finish, fallSpi, mode.spi, unit, Nat.ne_of_lt inside, next, if_true, if_false]

theorem tick_store (mode : e.IsSpi) (plain : i.Plain) (running : e.qst = .run) (passed : e.hcnt = 0)
    (high : e.ph = true) (last : e.idx = 7) (unit : e.endIdx = 7) :
    e.tick i = { e.fetch i with
      ph := false
      hcnt := e.reload
      swclkLvl := e.cpol
      idx := 8
      sh := shiftIn e.dioS1 e.sh
      rmem := Function.update e.rmem e.wptr (shiftIn e.dioS1 e.sh)
      wptr := (e.wptr + 1) % depth
      qst := .idle } := by
  rw [mode.tick_fall plain running passed high]
  simp only [fall, finish, fallSpi, mode.spi, unit, last, Bool.not_true, Bool.false_and, Bool.false_eq_true, if_true,
    if_false]
  rfl

end IsSpi

theorem tick_arm {half : Nat} {cpol : Bool} (off : e.armed = false) (arm : i.SpiArm half cpol) :
    e.tick i = { e with
      armed := true
      spi := true
      clkCh := i.spiSckCh % 16
      dioCh := i.spiMosiCh % 16
      inCh := i.spiMisoCh % 16
      csCh := i.spiCsCh % 16
      half := spiArmHalf half
      cpol := cpol
      endIdx := 7
      swclkLvl := cpol
      swdioOut := false
      swdioOe := true
      csN := if i.spiCsStb then !i.spiCsAssert else true
      wptr := 0
      fptr := 0
      qptr := 0
      qst := .idle
      qmode := false
      qstop := false
      dioS0 := i.dioIn
      dioS1 := e.dioS0
      qready := e.qptr != e.fptr
      rdData := e.rmem i.rdAddr
      tRd := e.tmem e.qptr } := by
  have run : e.run = false := by rw [Engine.run, off, Bool.false_and]
  have fits : spiArmHalf half % 64 = spiArmHalf half := Nat.mod_eq_of_lt (Nat.lt_succ_of_le (spiArmHalf_le half))
  rw [tick, sequencer, run]
  simp only [Bool.false_eq_true, if_false, reads, enqueue, run, Bool.and_false, bitBang, off, Bool.false_and,
    Engine.begin, arm.begin, configure, arm.config, arms, arm.disarm, arm.arm, arm.spiArm, if_true, sync, Bool.not_false,
    Bool.and_true, arm.half, arm.cpol, fits]
  cases i.spiCsStb <;> simp only [Bool.false_eq_true, if_true, if_false]

end Engine
end SwdEngine
end BenchPod
