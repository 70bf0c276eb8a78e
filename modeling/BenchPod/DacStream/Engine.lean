import BenchPod.Library.Emitter
import BenchPod.Library.Word

/-!
# The sequencer of the DAC

`dac8551_engine` fetches samples byte by byte, from the waveform memory or from a stream that may stall, and shifts each
one out as a frame of 24 bits.  A static frame takes the slot of a sample.  The top carries every start and every static
frame over to `clk48` with their values, one edge ahead of the pulse that uses them.
-/

namespace BenchPod.DacStream

/-- The states of the sequencer. -/
inductive St
  | idle
  | rdlo
  | rdhi
  | lat
  | shift
  | plo
  | plw
  | phi
  deriving DecidableEq

/-- The registers of the state machine, as `rst48` leaves them. -/
structure Fsm where
  st : St := .idle
  divCnt : Nat := 0
  dz : Bool := true
  wpend : Bool := false
  wfr : Bool := false
  runI : Bool := false
  running : Bool := false
  strmPop : Bool := false
  sync : Bool := true
  sclk : Bool := false
  din : Bool := false

/-- The place in the waveform. -/
structure Index where
  sidx : Nat := 0
  sleft : Nat := 0
  slast : Bool := true
  fe : Bool := false

/-- The frame that is put together and shifted out. -/
structure Datapath where
  lo : Byte := 0
  sh : BitVec 24 := 0
  bitc : Nat := 0
  last : Bool := false
  ph : Bool := false
  waveAddr : Nat := 0

/-- The registers of `dac8551_engine`. -/
structure Engine extends Fsm, Index, Datapath

/-- What a start carries: the control byte, the samples before the waveform repeats, and the reload of the divider. -/
structure Ctl where
  ctrl : Byte := 0
  period : Nat := 0
  divider : Half := 2
  deriving DecidableEq

/-- The ports at an edge. -/
structure Ports where
  start : Bool
  stop : Bool
  ctl : Ctl
  wrReq : Bool
  wrFrame : BitVec 24
  waveData : Byte
  psramMode : Bool
  strmData : Byte
  strmValid : Bool

namespace Engine

/-- `div_reload`: a reload below 2 is raised to 2. -/
def divReload (divider : Half) : Nat :=
  let value := divider.toNat
  let nz : Bool := 4 ≤ value
  value / 4 * 4 + ((value / 2 % 2 == 1) || !nz).toNat * 2 + ((value % 2 == 1) && (nz || (value / 2 % 2 == 1))).toNat

variable (e : Engine) (i : Ports)

/-- A slot that is due: the static frame goes first. -/
def slot (new : Fsm) : Fsm :=
  let new := if e.wpend || e.running then { new with divCnt := divReload i.ctl.divider, dz := false } else new
  if e.wpend then { new with wpend := false, wfr := true, st := .rdlo }
  else if e.running then { new with st := if i.psramMode then .plo else .rdlo }
  else new

/-- What a state does while the sequencer is enabled. -/
def act (new : Fsm) : Fsm :=
  match e.st with
  | .idle =>
    let new := { new with sync := true, sclk := false, wfr := false, runI := e.running || e.wpend }
    if e.dz then e.slot i new
    else { new with divCnt := (e.divCnt + 65535) % 65536, dz := e.divCnt == 1 }
  | .plo =>
    let new := { new with sync := true, sclk := false }
    if i.strmValid then { new with strmPop := true, st := .plw } else new
  | .plw => { new with st := .phi }
  | .phi => if i.strmValid then { new with strmPop := true, sync := false, st := .shift } else new
  | .rdlo => { new with st := .rdhi }
  | .rdhi => { new with st := .lat }
  | .lat => { new with sync := false, st := .shift }
  | .shift =>
    if !e.ph then { new with din := e.sh.msb, sclk := true }
    else { new with sclk := false, st := if e.last then .idle else .shift }

/-- A start, a stop or a state. -/
def main : Fsm :=
  let new := { e.toFsm with strmPop := false }
  if i.stop then { new with st := .idle, running := false, sync := true, sclk := false, dz := true, runI := e.wpend }
  else if i.start then
    { new with
      running := true
      runI := true
      sync := true
      sclk := false
      divCnt := divReload i.ctl.divider
      dz := false
      st := .idle }
  else if e.runI then e.act i new
  else new

/-- The state machine; a request for a static frame wins over the slot that takes the one before. -/
def control : Fsm :=
  let new := e.main i
  { new with wpend := new.wpend || i.wrReq, runI := new.runI || i.wrReq }

/-- The place in the waveform moves at the end of a frame of the waveform. -/
def index : Index :=
  let new : Index := { e.toIndex with
    slast := e.sleft ≤ 1
    fe := !i.stop && !i.start && e.runI && e.st == .shift && !e.ph && e.last && !e.wfr }
  if i.stop then new
  else if i.start then { new with sidx := 0, sleft := i.ctl.period }
  else if e.fe then
    if e.slast then { new with sidx := 0, sleft := i.ctl.period }
    else { new with sidx := e.sidx + 1, sleft := e.sleft - 1 }
  else new

/-- The registers of a frame are loaded in the states before it. -/
def datapath : Datapath :=
  let new := e.toDatapath
  match e.st with
  | .idle => if e.dz then { new with waveAddr := 2 * e.sidx % 4096 } else new
  | .rdlo => { new with waveAddr := 2 * e.sidx % 4096 + 1 }
  | .plo => if i.strmValid then { new with lo := i.strmData } else new
  | .rdhi => { new with lo := i.waveData }
  | .phi =>
    if i.strmValid then
      { new with sh := i.ctl.ctrl ++ (i.strmData ++ e.lo), bitc := 0, last := false, ph := false }
    else new
  | .lat =>
    { new with
      sh := if e.wfr then i.wrFrame else i.ctl.ctrl ++ (i.waveData ++ e.lo)
      bitc := 0
      last := false
      ph := false }
  | .shift =>
    if e.ph then { new with ph := false, sh := e.sh <<< 1, bitc := (e.bitc + 1) % 32, last := e.bitc == 22 }
    else { new with ph := true }
  | .plw => new

/-- An edge of `clk48`. -/
def tick : Engine := { toFsm := e.control i, toIndex := e.index i, toDatapath := e.datapath i }

end Engine

/-- Where the samples come from: the stream, which goes round `len` stored bytes, or the waveform memory. -/
structure Source where
  psram : Bool
  buf : Nat → Byte
  store : Nat → Byte
  len : Nat

/-- The bytes of the stream. -/
def Source.bytes (source : Source) (n : Nat) : Byte := source.store (n % source.len)

/-- What is stored consists of whole samples, and those of the waveform memory fit it. -/
def Source.Fits (source : Source) (period : Nat) : Prop :=
  if source.psram then 0 < source.len ∧ source.len % 2 = 0 else 1 ≤ period ∧ period ≤ 2048

/-- The sequencer in the top: the values of the last start and of the last static frame with the pulses that follow
them, the memory's output, how far the stream is, and the DAC's shift register.  `word` is the frame in the shifter
and `wrId`, `shId` number the static frames asked for and shifted. -/
structure Bench where
  e : Engine := {}
  ctl : Ctl := {}
  startP : Bool := false
  wrFrame : BitVec 24 := 0
  wrP : Bool := false
  wave : Byte := 0
  pops : Nat := 0
  dac : List Bool := []
  word : BitVec 24 := 0
  wrId : Nat := 0
  shId : Nat := 0

/-- What comes from outside at an edge. -/
structure Edge where
  latch : Option Ctl := none
  stop : Bool := false
  wrLatch : Option (BitVec 24) := none
  source : Source
  valid : Bool := true
  noise : Byte := 0

/-- What the DAC gets between a fall and a rise of SYNC, whether a start or a stop raised it, and which static frame
it is. -/
structure Sent where
  bits : List Bool
  cut : Bool
  static : Option Nat
  deriving DecidableEq

namespace Bench

variable (b : Bench) (i : Edge)

/-- The ports of the engine. -/
def ports : Ports where
  start := b.startP
  stop := i.stop
  ctl := b.ctl
  wrReq := b.wrP
  wrFrame := b.wrFrame
  waveData := b.wave
  psramMode := i.source.psram
  strmData := if i.valid then i.source.bytes b.pops else i.noise
  strmValid := i.valid

/-- An edge of `clk48`: the stream starts anew with the engine. -/
def step : Bench :=
  let e := b.e.tick (b.ports i)
  { e
    ctl := i.latch.getD b.ctl
    startP := i.latch.isSome
    wrFrame := i.wrLatch.getD b.wrFrame
    wrP := i.wrLatch.isSome
    wave := i.source.buf b.e.waveAddr
    pops := if b.startP && !i.stop then 0 else b.pops + b.e.strmPop.toNat
    dac := if e.sync then [] else if b.e.sclk && !e.sclk then b.dac ++ [e.din] else b.dac
    word := if b.e.st = .lat ∨ (b.e.st = .phi ∧ i.valid) then e.sh else b.word
    wrId := b.wrId + i.wrLatch.isSome.toNat
    shId := if b.e.st = .lat then b.wrId else b.shId }

/-- A frame ends where SYNC rises. -/
def sent : Option Sent :=
  if !b.e.sync && (b.step i).e.sync then
    some ⟨b.dac, i.stop || b.startP, if b.e.wfr then some b.shId else none⟩
  else none

end Bench

/-- The sequencer edge after edge, with the frames it sends. -/
def sequencer : Emitter Bench Edge Sent := ⟨Bench.step, Bench.sent⟩

/-- The bits of a frame as they leave, the most significant first. -/
def frameBits (word : BitVec 24) : List Bool := (List.range 24).map word.getMsbD

/-- Sample `k` of what is stored, over and over: the low byte comes first. -/
def sample (source : Source) (period k : Nat) : BitVec 16 :=
  let pair (bytes : Nat → Byte) (place : Nat) : BitVec 16 := bytes (2 * place + 1) ++ bytes (2 * place)
  if source.psram then pair source.store (k % (source.len / 2)) else pair source.buf (k % period)

end BenchPod.DacStream
