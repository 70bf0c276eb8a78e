import BenchPod.Library.Bits
import BenchPod.Library.Emitter
import Mathlib.Logic.Function.Basic

/-!
# The SWD engine

One sequencer of the gateware shifts SPI bytes and whole SWD transfers from a queue of 512 bytes.  `tick` is
one edge of `clk`: every assignment reads the registers as they were before it, and of two assignments
to one register the later one stands.
-/

namespace BenchPod.SwdEngine

/-- `1 << REPLY_AW`: the entries of the reply buffer and of the transmit queue. -/
abbrev depth : Nat := 512

/-- The states of the sequencer. -/
inductive Qst
  | idle
  | run
  deriving DecidableEq

/-- The registers of `swd_engine`. -/
structure Engine where
  armed : Bool := false
  spi : Bool := false
  clkCh : Nat := 0
  dioCh : Nat := 1
  inCh : Nat := 1
  csCh : Nat := 2
  swclkLvl : Bool := false
  swdioOut : Bool := false
  swdioOe : Bool := true
  csN : Bool := true
  half : Nat := 4
  cpol : Bool := true
  rmem : Nat → Byte := fun _ => 0
  wptr : Nat := 0
  tmem : Nat → Byte := fun _ => 0
  fptr : Nat := 0
  qptr : Nat := 0
  tRd : Byte := 0
  rdData : Byte := 0
  dioS0 : Bool := false
  dioS1 : Bool := false
  hcnt : Nat := 0
  sh : Byte := 0
  qmode : Bool := false
  qst : Qst := .idle
  idx : Nat := 0
  endIdx : Nat := 53
  ph : Bool := false
  qready : Bool := false
  isrd : Bool := false
  par : Bool := false
  fail : Bool := false
  perr : Bool := false
  qstop : Bool := false
  ack : BitVec 3 := 0

/-- The input ports. -/
structure Input where
  armStb : Bool := false
  armClkCh : Nat := 0
  armDioCh : Nat := 0
  spiArmStb : Bool := false
  spiSckCh : Nat := 0
  spiMosiCh : Nat := 0
  spiMisoCh : Nat := 0
  spiCsCh : Nat := 0
  spiHalf : Nat := 0
  spiCpol : Bool := false
  spiCsStb : Bool := false
  spiCsAssert : Bool := false
  disarmStb : Bool := false
  qCfgStb : Bool := false
  qCfgHalf : Nat := 0
  qCfgIdle : Nat := 0
  feedQ : Bool := false
  feedBegin : Bool := false
  feedStb : Bool := false
  feedByte : Byte := 0
  dioIn : Bool := false
  rdAddr : Nat := 0

namespace Engine

variable (e : Engine) (i : Input) (new : Engine)

/-- The sequencer serves the queue. -/
def run : Bool := e.armed && (e.spi || e.qmode)

def qActive : Bool := e.armed && !e.spi && e.qmode

def ackOk : Bool := e.ack == 0b001#3

def spiPending : Bool := e.fptr != e.qptr

def qIdleCyc : Bool := decide (46 ≤ e.idx) || e.qst == .idle

def qOe : Bool := decide (e.idx < 8) || e.qIdleCyc || (!e.isrd && decide (13 ≤ e.idx))

def qOut : Bool := !e.qIdleCyc && (if e.idx = 45 then e.par else e.sh.getLsbD 0)

/-- The falling edge that takes a queued data byte of a write. -/
def qByteIn : Bool := !e.spi && !e.isrd && decide (e.idx = 12 ∨ e.idx = 20 ∨ e.idx = 28 ∨ e.idx = 36)

/-- `half_r - 6'd1`. -/
def reload : Nat := (e.half + 63) % 64

/-- The two synchroniser flops. -/
def sync : Engine := { new with dioS0 := i.dioIn, dioS1 := e.dioS0 }

/-- `SWD_DISARM`, `SWD_ARM` and `SPI_ARM`. -/
def arms : Engine :=
  if i.disarmStb then { new with armed := false, spi := false, qst := .idle }
  else if i.armStb then
    { new with
      armed := true
      spi := false
      clkCh := i.armClkCh % 16
      dioCh := i.armDioCh % 16
      inCh := i.armDioCh % 16
      swclkLvl := false
      swdioOut := false
      swdioOe := true
      cpol := true
      endIdx := 53
      wptr := 0
      qst := .idle
      qmode := false }
  else if i.spiArmStb then
    { new with
      armed := true
      spi := true
      clkCh := i.spiSckCh % 16
      dioCh := i.spiMosiCh % 16
      inCh := i.spiMisoCh % 16
      csCh := i.spiCsCh % 16
      half := i.spiHalf % 64
      cpol := i.spiCpol
      endIdx := 7
      swclkLvl := i.spiCpol
      swdioOut := false
      swdioOe := true
      csN := true
      wptr := 0
      fptr := 0
      qptr := 0
      qst := .idle
      qmode := false
      qstop := false }
  else new

/-- `SPI_CS` and `SWD_QCONFIG`. -/
def configure : Engine :=
  let new := if i.spiCsStb then { new with csN := !i.spiCsAssert } else new
  if i.qCfgStb then { new with half := i.qCfgHalf % 64, endIdx := (45 + i.qCfgIdle % 32) % 128 } else new

/-- The start of a feed. -/
def begin : Engine :=
  if i.feedBegin then
    { new with
      wptr := 0
      fptr := 0
      qptr := 0
      qmode := i.feedQ
      qst := .idle
      qstop := false
      ack := 0
      perr := false }
  else new

/-- The bit-bang bytes. -/
def bitBang : Engine :=
  if i.feedStb && e.armed && !e.spi && !e.qmode then
    if i.feedByte = 0x64 then { new with swclkLvl := false, swdioOut := false }
    else if i.feedByte = 0x65 then { new with swclkLvl := false, swdioOut := true }
    else if i.feedByte = 0x66 then { new with swclkLvl := true, swdioOut := false }
    else if i.feedByte = 0x67 then { new with swclkLvl := true, swdioOut := true }
    else if i.feedByte = 0x4F then { new with swdioOe := true }
    else if i.feedByte = 0x6F then { new with swdioOe := false }
    else if i.feedByte = 0x63 then
      { new with
        rmem := Function.update new.rmem e.wptr (if e.dioS1 then 0x31 else 0x30)
        wptr := (e.wptr + 1) % depth }
    else new
  else new

/-- SPI bytes and SWD transfers go into the queue. -/
def enqueue : Engine :=
  if i.feedStb && e.run then
    { new with
      tmem := Function.update e.tmem e.fptr i.feedByte
      fptr := (e.fptr + 1) % depth }
  else new

/-- A unit starts: `t_rd` is the SPI byte or the request byte. -/
def start : Engine :=
  { new with
    sh := e.tRd
    isrd := e.tRd.getLsbD 2
    qptr := (e.qptr + 1) % depth
    idx := 0
    fail := false
    par := false
    ph := false
    hcnt := e.reload
    swclkLvl := false
    qst := .run }

/-- SWD takes a bit of the ACK at the end of the low half. -/
def takeAck : Engine :=
  if !e.spi && decide (9 ≤ e.idx ∧ e.idx ≤ 11) then
    { new with ack := BitVec.ofBool e.dioS1 ++ e.ack.extractLsb' 1 2 }
  else new

/-- A read takes a bit of its data, and stores a byte with its last one. -/
def takeData : Engine :=
  if !e.spi && e.isrd && decide (12 ≤ e.idx ∧ e.idx ≤ 43) then
    let new := { new with par := e.par ^^ e.dioS1, sh := Bits.shiftIn e.dioS1 e.sh }
    if e.idx % 8 = 3 then
      { new with
        rmem := Function.update new.rmem e.wptr (Bits.shiftIn e.dioS1 e.sh)
        wptr := (e.wptr + 1) % depth }
    else new
  else new

/-- A read takes its parity bit. -/
def takeParity : Engine :=
  if !e.spi && e.isrd && decide (e.idx = 44) then { new with perr := e.par ^^ e.dioS1 } else new

/-- The end of the low half: the rising edge. -/
def rise : Engine :=
  { e.takeParity (e.takeData (e.takeAck new)) with swclkLvl := true, ph := true, hcnt := e.reload }

/-- What an SPI byte does on the falling edge. -/
def fallSpi : Engine :=
  let new := { new with sh := Bits.shiftIn e.dioS1 e.sh }
  if e.idx = 7 then
    { new with
      rmem := Function.update new.rmem e.wptr (Bits.shiftIn e.dioS1 e.sh)
      wptr := (e.wptr + 1) % depth }
  else new

/-- The next request bit. -/
def fallRequest : Engine := if e.idx < 8 then { new with sh := Bits.shiftIn false e.sh } else new

/-- After an ACK other than OK: a turnaround, then idle. -/
def fallAck : Engine :=
  if e.idx = 11 ∧ e.ackOk = false then { new with fail := true, isrd := true, idx := 45 } else new

/-- The parity of what a write sends. -/
def fallParity : Engine :=
  if !e.isrd && decide (13 ≤ e.idx ∧ e.idx ≤ 44) then { new with par := e.par ^^ e.sh.getLsbD 0 } else new

/-- The next data bit of a write, or a queued byte of them. -/
def fallData : Engine :=
  if e.qByteIn then { new with sh := e.tRd, qptr := (e.qptr + 1) % depth }
  else if !e.isrd && decide (13 ≤ e.idx) then { new with sh := Bits.shiftIn false e.sh }
  else new

/-- What an SWD transfer does on the falling edge. -/
def fallSwd : Engine := e.fallData (e.fallParity (e.fallAck (e.fallRequest new)))

/-- The end of the unit: SPI's idle level, or SWD high. -/
def finish : Engine :=
  if e.idx = e.endIdx then
    let new := { new with swclkLvl := e.cpol, qst := .idle }
    if !e.spi && (e.fail || (e.isrd && e.perr)) then { new with qstop := true } else new
  else new

/-- The end of the high half: the falling edge and the next cycle. -/
def fall : Engine :=
  let new := { new with ph := false, hcnt := e.reload, swclkLvl := false, idx := (e.idx + 1) % 128 }
  e.finish (if e.spi then e.fallSpi new else e.fallSwd new)

/-- The sequencer. -/
def sequencer : Engine :=
  let new := { new with qready := (e.qptr != e.fptr) && !i.feedBegin }
  if e.run then
    match e.qst with
    | .idle => if !e.qstop && e.qready then e.start new else new
    | .run =>
      if e.hcnt ≠ 0 then { new with hcnt := e.hcnt - 1 }
      else if !e.ph then e.rise new
      else if !(e.qByteIn && !e.qready) then e.fall new
      else new
  else new

/-- The registered reads of the two memories. -/
def reads : Engine := { new with rdData := e.rmem i.rdAddr, tRd := e.tmem e.qptr }

/-- One edge of `clk`. -/
def tick (e : Engine) (i : Input) : Engine :=
  e.reads i <| e.sequencer i <| e.enqueue i <| e.bitBang i <| begin i <| configure i <| arms i <| e.sync i e

def spiMode : Bool := e.armed && e.spi

def spiBusy : Bool := e.spiMode && (e.spiPending || e.qst != .idle)

def qBusy : Bool := e.qActive && !e.qstop && (e.qptr != e.fptr || e.qst != .idle)

/-- `q_done`: the low eight bits of the read pointer. -/
def qDone : Byte := BitVec.ofNat 8 e.qptr

/-- `q_flags`: `{1'b0, qptr[8], perr, ack[2:0], stopped, busy}`. -/
def qFlags : Byte :=
  BitVec.ofBool false ++ BitVec.ofBool (e.qptr.testBit 8) ++ BitVec.ofBool e.perr ++ e.ack ++
    BitVec.ofBool e.qstop ++ BitVec.ofBool e.qBusy

/-- `clk_val`: SWCLK, or SCK. -/
def clkVal : Bool := e.swclkLvl

/-- `dio_val`: SWDIO, or MOSI. -/
def dioVal : Bool := if e.qActive then e.qOut else if e.spi then e.sh.getLsbD 0 else e.swdioOut

def dioOe : Bool := if e.qActive then e.qOe else e.spi || e.swdioOe

def csVal : Bool := e.csN

end Engine

end BenchPod.SwdEngine
