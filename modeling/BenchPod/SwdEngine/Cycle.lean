import BenchPod.SwdEngine.Edge

/-!
# SWCLK cycles

What the sequencer does to the registers of a transfer, cycle by cycle: it starts on a request byte, takes the
target's bit at the rising edge and moves on at the falling one.
-/

namespace BenchPod.SwdEngine

open Bits

/-- A cycle on the wires: the host drives SWDIO, or reads what the target drives. -/
inductive Clock
  | drive (bit : Bool)
  | read (bit : Bool)
  deriving DecidableEq

/-- The registers of a transfer, with the pointers not wrapped. -/
structure Core where
  sh : Byte
  isrd : Bool
  par : Bool
  fail : Bool
  perr : Bool
  qstop : Bool
  ack : BitVec 3
  idx : Nat
  taken : Nat
  stored : Nat
  rmem : Nat → Byte
  running : Bool

namespace Core

variable (c : Core)

/-- A unit starts on a request byte. -/
def start (byte : Byte) : Core :=
  { c with
    sh := byte
    isrd := byte.getLsbD 2
    taken := c.taken + 1
    idx := 0
    fail := false
    par := false
    running := true }

/-- The sequencer reads a bit of data. -/
def reading : Bool := c.isrd && decide (12 ≤ c.idx ∧ c.idx ≤ 43)

/-- The rising edge, with the target's bit. -/
def rise (bit : Bool) : Core :=
  { c with
    ack := if 9 ≤ c.idx ∧ c.idx ≤ 11 then BitVec.ofBool bit ++ c.ack.extractLsb' 1 2 else c.ack
    par := if c.reading then c.par ^^ bit else c.par
    sh := if c.reading then shiftIn bit c.sh else c.sh
    rmem :=
      if c.reading && decide (c.idx % 8 = 3) then Function.update c.rmem (c.stored % depth) (shiftIn bit c.sh)
      else c.rmem
    stored := if c.reading && decide (c.idx % 8 = 3) then c.stored + 1 else c.stored
    perr := if c.isrd && decide (c.idx = 44) then c.par ^^ bit else c.perr }

/-- The falling edge takes a data byte from the queue. -/
def byteIn : Bool := !c.isrd && decide (c.idx = 12 ∨ c.idx = 20 ∨ c.idx = 28 ∨ c.idx = 36)

/-- The ACK is complete and not OK. -/
def refused : Bool := decide (c.idx = 11) && (c.ack != 0b001#3)

/-- The falling edge, with the byte at the head of the queue. -/
def fall (byte : Byte) (endIdx : Nat) : Core :=
  { c with
    sh :=
      if c.byteIn then byte
      else if (!c.isrd && decide (13 ≤ c.idx)) || decide (c.idx < 8) then shiftIn false c.sh
      else c.sh
    isrd := c.isrd || c.refused
    par := if !c.isrd && decide (13 ≤ c.idx ∧ c.idx ≤ 44) then c.par ^^ c.sh.getLsbD 0 else c.par
    fail := c.fail || c.refused
    idx := if c.refused then 45 else (c.idx + 1) % 128
    taken := if c.byteIn then c.taken + 1 else c.taken
    running := decide (c.idx ≠ endIdx)
    qstop := c.qstop || (decide (c.idx = endIdx) && (c.fail || (c.isrd && c.perr))) }

/-- `q_oe` and `q_out` on the wires at the rising edge. -/
def clock (bit : Bool) : Clock :=
  let idle := decide (46 ≤ c.idx) || !c.running
  if decide (c.idx < 8) || idle || (!c.isrd && decide (13 ≤ c.idx)) then
    .drive (!idle && (if c.idx = 45 then c.par else c.sh.getLsbD 0))
  else .read bit

/-- An engine at rest takes the next request byte. -/
def enter (queue : List Byte) : Core := if c.running then c else c.start (queue.getD c.taken 0)

/-- A whole cycle. -/
def beat (queue : List Byte) (endIdx : Nat) (bit : Bool) : Core :=
  ((c.enter queue).rise bit).fall (queue.getD (c.enter queue).taken 0) endIdx

/-- A cycle can follow: a unit is running, or the queue holds another and has not stopped. -/
def Goes (queue : List Byte) : Prop := c.running = true ∨ (c.qstop = false ∧ c.taken < queue.length)

@[simp] theorem taken_rise (bit : Bool) : (c.rise bit).taken = c.taken := rfl
@[simp] theorem idx_rise (bit : Bool) : (c.rise bit).idx = c.idx := rfl
@[simp] theorem isrd_rise (bit : Bool) : (c.rise bit).isrd = c.isrd := rfl
@[simp] theorem running_rise (bit : Bool) : (c.rise bit).running = c.running := rfl
@[simp] theorem byteIn_rise (bit : Bool) : (c.rise bit).byteIn = c.byteIn := rfl

theorem enter_running {c : Core} (running : c.running = true) (queue : List Byte) : c.enter queue = c := by
  rw [enter, running, if_pos rfl]

theorem running_enter (queue : List Byte) : (c.enter queue).running = true := by
  rw [enter]
  split
  · assumption
  · rfl

end Core

namespace Engine

variable {e : Engine} {i : Input} {new : Engine}

/-- The engine serves SWD transfers. -/
structure IsSwd (e : Engine) : Prop where
  armed : e.armed = true
  spi : e.spi = false
  qmode : e.qmode = true

theorem IsSwd.run (mode : e.IsSwd) : e.run = true := by
  simp only [Engine.run, mode.armed, mode.qmode, Bool.or_true, Bool.and_self]

theorem IsSwd.qActive (mode : e.IsSwd) : e.qActive = true := by
  simp only [Engine.qActive, mode.armed, mode.spi, mode.qmode, Bool.not_false, Bool.and_self]

/-- The registers of a transfer as the engine has them. -/
structure Shows (c : Core) (e : Engine) : Prop where
  sh : e.sh = c.sh
  isrd : e.isrd = c.isrd
  par : e.par = c.par
  fail : e.fail = c.fail
  perr : e.perr = c.perr
  qstop : e.qstop = c.qstop
  ack : e.ack = c.ack
  idx : e.idx = c.idx
  taken : e.qptr = c.taken % depth
  stored : e.wptr = c.stored % depth
  rmem : e.rmem = c.rmem
  running : e.qst = if c.running then .run else .idle

/-- What the sequencer leaves alone. -/
structure Outer where
  armed : Bool
  spi : Bool
  qmode : Bool
  half : Nat
  cpol : Bool
  endIdx : Nat
  tmem : Nat → Byte
  fptr : Nat
  qready : Bool
  tRd : Byte
  dioS0 : Bool
  dioS1 : Bool

def outer (e : Engine) : Outer :=
  ⟨e.armed, e.spi, e.qmode, e.half, e.cpol, e.endIdx, e.tmem, e.fptr, e.qready, e.tRd, e.dioS0, e.dioS1⟩

theorem takeAck_eq :
    e.takeAck new = { new with
      ack := if !e.spi && decide (9 ≤ e.idx ∧ e.idx ≤ 11) then
        BitVec.ofBool e.dioS1 ++ e.ack.extractLsb' 1 2 else new.ack } := by
  rw [takeAck]
  split <;> rfl

theorem takeData_eq :
    e.takeData new = { new with
      par := if !e.spi && e.isrd && decide (12 ≤ e.idx ∧ e.idx ≤ 43) then e.par ^^ e.dioS1 else new.par
      sh := if !e.spi && e.isrd && decide (12 ≤ e.idx ∧ e.idx ≤ 43) then shiftIn e.dioS1 e.sh else new.sh
      rmem := if (!e.spi && e.isrd && decide (12 ≤ e.idx ∧ e.idx ≤ 43)) && decide (e.idx % 8 = 3) then
        Function.update new.rmem e.wptr (shiftIn e.dioS1 e.sh) else new.rmem
      wptr := if (!e.spi && e.isrd && decide (12 ≤ e.idx ∧ e.idx ≤ 43)) && decide (e.idx % 8 = 3) then
        (e.wptr + 1) % depth else new.wptr } := by
  rw [takeData]
  cases (!e.spi && e.isrd && decide (12 ≤ e.idx ∧ e.idx ≤ 43))
  · rfl
  · by_cases byte : e.idx % 8 = 3 <;> simp only [byte, if_true, if_false, decide_true, decide_false, Bool.and_true,
      Bool.and_false, Bool.false_eq_true]

theorem takeParity_eq :
    e.takeParity new = { new with
      perr := if !e.spi && e.isrd && decide (e.idx = 44) then e.par ^^ e.dioS1 else new.perr } := by
  rw [takeParity]
  split <;> rfl

theorem rise_eq :
    e.rise new = { new with
      ack := if !e.spi && decide (9 ≤ e.idx ∧ e.idx ≤ 11) then
        BitVec.ofBool e.dioS1 ++ e.ack.extractLsb' 1 2 else new.ack
      par := if !e.spi && e.isrd && decide (12 ≤ e.idx ∧ e.idx ≤ 43) then e.par ^^ e.dioS1 else new.par
      sh := if !e.spi && e.isrd && decide (12 ≤ e.idx ∧ e.idx ≤ 43) then shiftIn e.dioS1 e.sh else new.sh
      rmem := if (!e.spi && e.isrd && decide (12 ≤ e.idx ∧ e.idx ≤ 43)) && decide (e.idx % 8 = 3) then
        Function.update new.rmem e.wptr (shiftIn e.dioS1 e.sh) else new.rmem
      wptr := if (!e.spi && e.isrd && decide (12 ≤ e.idx ∧ e.idx ≤ 43)) && decide (e.idx % 8 = 3) then
        (e.wptr + 1) % depth else new.wptr
      perr := if !e.spi && e.isrd && decide (e.idx = 44) then e.par ^^ e.dioS1 else new.perr
      swclkLvl := true
      ph := true
      hcnt := e.reload } := by
  simp only [rise, takeParity_eq, takeData_eq, takeAck_eq]

theorem fallRequest_eq : e.fallRequest new = { new with sh := if e.idx < 8 then shiftIn false e.sh else new.sh } := by
  rw [fallRequest]
  split <;> rfl

theorem fallAck_eq :
    e.fallAck new = { new with
      fail := if e.idx = 11 ∧ e.ackOk = false then true else new.fail
      isrd := if e.idx = 11 ∧ e.ackOk = false then true else new.isrd
      idx := if e.idx = 11 ∧ e.ackOk = false then 45 else new.idx } := by
  rw [fallAck]
  split <;> rfl

theorem fallParity_eq :
    e.fallParity new = { new with
      par := if !e.isrd && decide (13 ≤ e.idx ∧ e.idx ≤ 44) then e.par ^^ e.sh.getLsbD 0 else new.par } := by
  rw [fallParity]
  split <;> rfl

theorem fallData_eq :
    e.fallData new = { new with
      sh := if e.qByteIn then e.tRd else if !e.isrd && decide (13 ≤ e.idx) then shiftIn false e.sh else new.sh
      qptr := if e.qByteIn then (e.qptr + 1) % depth else new.qptr } := by
  rw [fallData]
  split
  · rfl
  · split <;> rfl

theorem finish_eq (swd : e.spi = false) :
    e.finish new = { new with
      swclkLvl := if e.idx = e.endIdx then e.cpol else new.swclkLvl
      qst := if e.idx = e.endIdx then .idle else new.qst
      qstop := if decide (e.idx = e.endIdx) && (e.fail || (e.isrd && e.perr)) then true else new.qstop } := by
  rw [finish, swd]
  by_cases passed : e.idx = e.endIdx
  · simp only [passed, if_true, decide_true, Bool.true_and, Bool.not_false]
    split <;> rfl
  · simp only [passed, if_false, decide_false, Bool.false_and, Bool.false_eq_true]

theorem fall_eq (swd : e.spi = false) :
    e.fall new = { new with
      ph := false
      hcnt := e.reload
      swclkLvl := if e.idx = e.endIdx then e.cpol else false
      qst := if e.idx = e.endIdx then .idle else new.qst
      qstop := if decide (e.idx = e.endIdx) && (e.fail || (e.isrd && e.perr)) then true else new.qstop
      sh := if e.qByteIn then e.tRd else if !e.isrd && decide (13 ≤ e.idx) then shiftIn false e.sh
        else if e.idx < 8 then shiftIn false e.sh else new.sh
      qptr := if e.qByteIn then (e.qptr + 1) % depth else new.qptr
      par := if !e.isrd && decide (13 ≤ e.idx ∧ e.idx ≤ 44) then e.par ^^ e.sh.getLsbD 0 else new.par
      fail := if e.idx = 11 ∧ e.ackOk = false then true else new.fail
      isrd := if e.idx = 11 ∧ e.ackOk = false then true else new.isrd
      idx := if e.idx = 11 ∧ e.ackOk = false then 45 else (e.idx + 1) % 128 } := by
  simp only [fall, swd, Bool.false_eq_true, if_false, fallSwd, finish_eq swd, fallData_eq, fallParity_eq, fallAck_eq,
    fallRequest_eq]

variable {c : Core}

theorem outer_start : (e.start new).outer = new.outer := rfl

theorem outer_rise : (e.rise new).outer = new.outer := by
  rw [rise_eq]
  rfl

theorem outer_fall (swd : e.spi = false) : (e.fall new).outer = new.outer := by
  rw [fall_eq swd]
  rfl

theorem Shows.fetch (shows : Shows c e) : Shows c (e.fetch i) :=
  ⟨shows.sh, shows.isrd, shows.par, shows.fail, shows.perr, shows.qstop, shows.ack, shows.idx, shows.taken, shows.stored,
    shows.rmem, shows.running⟩

theorem Shows.count (shows : Shows c e) (hcnt : Nat) : Shows c { e with hcnt := hcnt } :=
  ⟨shows.sh, shows.isrd, shows.par, shows.fail, shows.perr, shows.qstop, shows.ack, shows.idx, shows.taken, shows.stored,
    shows.rmem, shows.running⟩

theorem Shows.start (shows : Shows c e) : Shows (c.start e.tRd) (e.start (e.fetch i)) := by
  refine ⟨rfl, rfl, rfl, rfl, shows.perr, shows.qstop, shows.ack, rfl, ?_, shows.stored, shows.rmem, rfl⟩
  simp only [Engine.start, Core.start, shows.taken, Nat.mod_add_mod]

theorem Shows.rise (shows : Shows c e) (swd : e.spi = false) : Shows (c.rise e.dioS1) (e.rise (e.fetch i)) := by
  have reading : (!e.spi && e.isrd && decide (12 ≤ e.idx ∧ e.idx ≤ 43)) = c.reading := by
    rw [swd, shows.isrd, shows.idx]
    rfl
  rw [rise_eq, reading, swd]
  refine ⟨?_, shows.isrd, ?_, shows.fail, ?_, shows.qstop, ?_, shows.idx, shows.taken, ?_, ?_, shows.running⟩ <;>
    simp only [Core.rise, Engine.fetch, shows.sh, shows.isrd, shows.par, shows.perr, shows.ack, shows.idx, shows.stored,
      shows.rmem, Bool.not_false, Bool.true_and, decide_eq_true_eq]
  split <;> simp only [Nat.mod_add_mod]

theorem Shows.byteIn (shows : Shows c e) (swd : e.spi = false) : e.qByteIn = c.byteIn := by
  simp only [qByteIn, Core.byteIn, swd, shows.isrd, shows.idx, Bool.not_false, Bool.true_and]

theorem Shows.fall (shows : Shows c e) (swd : e.spi = false) (running : c.running = true) :
    Shows (c.fall e.tRd e.endIdx) (e.fall (e.fetch i)) := by
  have byteIn := shows.byteIn swd
  have refused : (c.idx = 11 ∧ e.ackOk = false) ↔ c.refused = true := by
    simp only [Core.refused, ackOk, shows.ack, Bool.and_eq_true, decide_eq_true_eq, bne, Bool.not_eq_true']
  have runs : e.qst = .run := by rw [shows.running, running, if_pos rfl]
  rw [fall_eq swd]
  refine ⟨?_, ?_, ?_, ?_, shows.perr, ?_, shows.ack, ?_, ?_, shows.stored, shows.rmem, ?_⟩ <;>
    simp only [Core.fall, Engine.fetch, shows.sh, shows.isrd, shows.par, shows.perr, shows.fail, shows.qstop, shows.idx,
      shows.taken, byteIn, runs, refused]
  · cases c.byteIn <;> cases (!c.isrd && decide (13 ≤ c.idx)) <;>
      simp only [Bool.false_eq_true, if_true, if_false, Bool.false_or, Bool.true_or, decide_eq_true_eq]
  · cases c.refused <;> cases c.isrd <;> rfl
  · cases c.refused <;> cases c.fail <;> rfl
  · cases (decide (c.idx = e.endIdx) && (c.fail || c.isrd && c.perr)) <;> cases c.qstop <;> rfl
  · split <;> simp only [Nat.mod_add_mod]
  · by_cases passed : c.idx = e.endIdx <;> simp only [passed, ne_eq, not_true_eq_false, not_false_eq_true, decide_true,
      decide_false, if_true, if_false, Bool.false_eq_true]

end Engine

end BenchPod.SwdEngine
