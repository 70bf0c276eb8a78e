import BenchPod.DacPsram.Reader

/-!
# The capture writer

The gateware drains two byte streams into two regions of the PSRAM.  On `clk` a producer emits one cell for each
edge; on `clk48` a serializer puts its two nibbles on the pads.
-/

namespace BenchPod
namespace PsramBus

open DacPsram (Nibble)

/-- The states of the cell producer. -/
inductive WSt
  | idle
  | cmd
  | addr
  | data
  | csh
  deriving DecidableEq

/-- A cell: two nibbles and what the bus does with them. -/
structure WCell where
  n0 : Nibble := 0
  n1 : Nibble := 0
  drv : Bool := false
  cs : Bool := true
  clk : Bool := false
  deriving DecidableEq

/-- A staging FIFO of 32 bytes; pointers and count have six bits. -/
structure Staging where
  mem : Nat → Byte := fun _ => 0
  wr : Nat := 0
  rd : Nat := 0
  cnt : Nat := 0

namespace Staging

variable (q : Staging)

/-- `a_full`, `l_full`. -/
def full : Bool := decide (31 ≤ q.cnt)

/-- `a_empty`, `l_empty`. -/
def empty : Bool := q.cnt == 0

/-- The byte at the head. -/
def head : Byte := q.mem (q.rd % 32)

/-- An edge: `start` empties the FIFO, else a byte may come in and one may leave. -/
def tick (start stb : Bool) (byte : Byte) (pop : Bool) : Staging :=
  let wrEn := stb && !q.full
  if start then { q with wr := 0, rd := 0, cnt := 0 }
  else
    { mem := if wrEn then Function.update q.mem (q.wr % 32) byte else q.mem
      wr := if wrEn then (q.wr + 1) % 64 else q.wr
      rd := if pop then (q.rd + 1) % 64 else q.rd
      cnt := (q.cnt + wrEn.toNat + 64 - pop.toNat) % 64 }

end Staging

/-- The serializer on `clk48`. -/
structure WSerial where
  tglM : Bool := false
  n1L : Nibble := 0
  drvL : Bool := false
  csL : Bool := false
  clkL : Bool := false
  sub : Bool := false
  ioO : Nibble := 0
  ioOe : Bool := false
  cs : Bool := true
  sclkD1 : Bool := false
  deriving DecidableEq

/-- An edge of `clk48` out of reset. -/
def WSerial.tick (s : WSerial) (tgl : Bool) (cell : WCell) : WSerial :=
  let newCell := tgl != s.tglM
  if newCell then
    { tglM := tgl
      n1L := cell.n1
      drvL := cell.drv
      csL := cell.cs
      clkL := cell.clk
      sub := true
      ioO := cell.n0
      ioOe := cell.drv
      cs := cell.cs
      sclkD1 := cell.clk }
  else if s.sub then
    { s with tglM := tgl, sub := false, ioO := s.n1L, ioOe := s.drvL, cs := s.csL, sclkD1 := s.clkL }
  else { s with tglM := tgl, ioOe := false, sclkD1 := false }

/-- `CHUNK_BYTES` of the writer in the top. -/
abbrev writeChunk : Nat := 16

/-- The registers of the writer. -/
structure Writer where
  adc : Staging := {}
  la : Staging := {}
  st : WSt := .idle
  addrAdc : BitVec 32 := 0
  addrLa : BitVec 32 := 0
  active : Bool := false
  sel : Bool := false
  chunkLeft : Nat := 0
  addrIdx : Nat := 0
  cellTgl : Bool := false
  cell : WCell := {}
  idle : Bool := true
  busLost : Bool := false
  serial : WSerial := {}

/-- The ports of the writer at an edge of `clk`. -/
structure Ports where
  start : Bool := false
  stop : Bool := false
  adcBase : BitVec 24 := 0
  laBase : BitVec 24 := 0
  adcStb : Bool := false
  adcData : Byte := 0
  laStb : Bool := false
  laData : Byte := 0

namespace Writer

variable (w : Writer)

/-- `bus_req`. -/
def req : Bool := !w.adc.empty || !w.la.empty

/-- `bus_busy`. -/
def busy : Bool := decide (w.st ≠ .idle)

/-- The region of the next burst: the fuller FIFO's, LA's when they are equal. -/
def pickLa : Bool := !w.la.empty && (decide (w.adc.cnt ≤ w.la.cnt) || w.adc.empty)

/-- The byte at the head of the selected FIFO. -/
def selHead : Byte := if w.sel then w.la.head else w.adc.head

def selEmpty : Bool := if w.sel then w.la.empty else w.adc.empty

/-- The running address of the selected region. -/
def curAddr : BitVec 24 := (if w.sel then w.addrLa else w.addrAdc).setWidth 24

/-- A byte leaves its FIFO on this edge. -/
def popThis (busOwn : Bool) : Bool := decide (w.st = .data) && !busOwn && !w.selEmpty && decide (w.chunkLeft ≠ 0)

/-- The write command, `0x38`. -/
def cmdCell : WCell := { n0 := 0x3, n1 := 0x8, drv := true, clk := true, cs := false }

/-- An address cell. -/
def addrCell (addr : BitVec 24) (addrIdx : Nat) : WCell where
  n0 := match addrIdx with
    | 0 => addr.extractLsb' 20 4
    | 1 => addr.extractLsb' 12 4
    | _ => addr.extractLsb' 4 4
  n1 := match addrIdx with
    | 0 => addr.extractLsb' 16 4
    | 1 => addr.extractLsb' 8 4
    | _ => addr.extractLsb' 0 4
  drv := true
  clk := true
  cs := false

/-- A data cell. -/
def dataCell (byte : Byte) : WCell :=
  { n0 := byte.extractLsb' 4 4, n1 := byte.extractLsb' 0 4, drv := true, clk := true, cs := false }

/-- The cell producer; its cell is idle where a state says nothing. -/
def produce (busOwn gnt start : Bool) (w new : Writer) : Writer :=
  match w.st with
  | .idle =>
    if w.req && gnt && !busOwn && !start then
      { new with
        idle := false
        sel := w.pickLa
        chunkLeft := writeChunk
        addrIdx := 0
        cell := { cs := false }
        st := .cmd }
    else { new with idle := true }
  | .cmd => if busOwn then { new with st := .csh } else { new with cell := cmdCell, addrIdx := 0, st := .addr }
  | .addr =>
    if busOwn then { new with st := .csh }
    else if w.addrIdx = 2 then { new with cell := addrCell w.curAddr w.addrIdx, st := .data }
    else { new with cell := addrCell w.curAddr w.addrIdx, addrIdx := w.addrIdx + 1 }
  | .data =>
    if w.popThis busOwn then
      { new with
        cell := dataCell w.selHead
        chunkLeft := w.chunkLeft - 1
        st := if w.chunkLeft = 1 then .csh else .data }
    else { new with cell := { cs := busOwn }, st := .csh }
  | .csh => { new with st := .idle }

/-- An edge of `clk`. -/
def tick (busOwn gnt : Bool) (i : Ports) : Writer :=
  let pop := w.popThis busOwn
  w.produce busOwn gnt i.start
    { w with
      adc := w.adc.tick i.start i.adcStb i.adcData (pop && !w.sel)
      la := w.la.tick i.start i.laStb i.laData (pop && w.sel)
      addrAdc := if i.start then i.adcBase.setWidth 32 else if pop && !w.sel then w.addrAdc + 1 else w.addrAdc
      addrLa := if i.start then i.laBase.setWidth 32 else if pop && w.sel then w.addrLa + 1 else w.addrLa
      active := if i.stop then false else i.start || w.active
      cellTgl := !w.cellTgl
      cell := {}
      busLost := busOwn && decide (w.st = .cmd ∨ w.st = .addr ∨ w.st = .data) }

/-- An edge of `clk48`. -/
def tick48 : Writer := { w with serial := w.serial.tick w.cellTgl w.cell }

/-- A cycle: an edge of `clk` and the two of `clk48` after it. -/
def cycle (busOwn gnt : Bool) (i : Ports) : Writer := ((w.tick busOwn gnt i).tick48).tick48

end Writer

end PsramBus
end BenchPod

/-!
## Two masters on one bus

A burst-granular arbiter lets the replay reader and the capture writer share the PSRAM's bus.
-/

namespace BenchPod
namespace PsramBus

open DacPsram (Reader Edge)

/-- `owner`. -/
inductive Own
  | none
  | rd
  | wr
  deriving DecidableEq

/-- What a master tells the arbiter. -/
structure Asks where
  rdReq : Bool
  rdBusy : Bool
  wrReq : Bool
  wrBusy : Bool

/-- The registers of the arbiter. -/
structure Arbiter where
  own : Own := .none
  started : Bool := false
  lastRd : Bool := false
  deriving DecidableEq

namespace Arbiter

variable (a : Arbiter) (asks : Asks)

def relRd : Bool := decide (a.own = .rd) && a.started && !asks.rdBusy

def relWr : Bool := decide (a.own = .wr) && a.started && !asks.wrBusy

def rdGnt : Bool := decide (a.own = .rd) && !asks.wrBusy && !a.relRd asks

def wrGnt : Bool := decide (a.own = .wr) && !asks.rdBusy && !a.relWr asks

def pick : Own :=
  if asks.rdReq && asks.wrReq then if a.lastRd then .wr else .rd
  else if asks.rdReq then .rd
  else if asks.wrReq then .wr
  else .none

/-- An edge of `clk`. -/
def tick (rst : Bool) : Arbiter :=
  if rst then {}
  else
    match a.own with
    | .none => { a with own := a.pick asks, started := false }
    | .rd =>
      if (a.started && !asks.rdBusy) || (!a.started && !asks.rdBusy && !asks.rdReq) then
        { own := .none, started := false, lastRd := true }
      else { a with started := a.started || asks.rdBusy }
    | .wr =>
      if (a.started && !asks.wrBusy) || (!a.started && !asks.wrBusy && !asks.wrReq) then
        { own := .none, started := false, lastRd := false }
      else { a with started := a.started || asks.wrBusy }

end Arbiter

/-- The reader's `bus_req`. -/
def rdReq (r : Reader) : Bool := r.runI && r.fsm.wantBurst r.roomOk1 r.ownSync1

/-- The reader's `bus_busy`. -/
def rdBusy (r : Reader) : Bool := decide (r.fsm.st ≠ .idle ∧ r.fsm.st ≠ .cmt)

/-- The deep image: the reader, the writer and the arbiter. -/
structure Bus where
  rd : Reader := {}
  wr : Writer := {}
  arb : Arbiter := {}

/-- What comes from outside in a cycle of `clk`. -/
structure BusInput where
  run : Bool := false
  base : BitVec 24 := 0
  len : BitVec 24 := 0
  own : Bool := false
  first : Edge := {}
  second : Edge := {}
  ports : Ports := {}

namespace Bus

variable (b : Bus) (i : BusInput)

/-- What the masters ask before an edge. -/
def asks : Asks := ⟨rdReq b.rd, rdBusy b.rd, b.wr.req, b.wr.busy⟩

/-- The replay's grant. -/
def rdGnt : Bool := b.arb.rdGnt b.asks

/-- The capture's grant. -/
def wrGnt : Bool := b.arb.wrGnt b.asks

/-- A cycle of `clk`; the synchronized `bus_own` holds the arbiter in reset. -/
def cycle (mem : BitVec 24 → Byte) : Bus where
  rd := b.rd.cycle mem ⟨b.rdGnt, i.run, i.base, i.len, i.own, i.first, i.second⟩
  wr := b.wr.cycle b.rd.ownSync1 b.wrGnt i.ports
  arb := b.arb.tick b.asks b.rd.ownSync1

end Bus

/-- The burst that starts in a cycle. -/
inductive Begins
  | rd
  | wr
  deriving DecidableEq

/-- The system cycle after cycle, with the bursts as they start. -/
def sharing (mem : BitVec 24 → Byte) : Emitter Bus BusInput Begins where
  step b i := b.cycle i mem
  emit b i :=
    if !rdBusy b.rd && rdBusy (b.cycle i mem).rd then some .rd
    else if !b.wr.busy && (b.cycle i mem).wr.busy then some .wr
    else none

/-- The reader drives chip select low somewhere in a cycle, in its cell or on its pads. -/
def rdActive (mem : BitVec 24 → Byte) (b : Bus) (i : BusInput) : Bool :=
  let clocked := b.rd.tick ⟨b.rdGnt, i.run, i.base, i.len, i.own, i.first, i.second⟩
  let half := clocked.tick48 mem i.first
  !clocked.fsm.cell.cs || !half.serial.cs || !(half.tick48 mem i.second).serial.cs

/-- The writer drives chip select low somewhere in a cycle. -/
def wrActive (b : Bus) (i : BusInput) : Bool :=
  let clocked := b.wr.tick b.rd.ownSync1 b.wrGnt i.ports
  !clocked.cell.cs || !clocked.tick48.serial.cs || !clocked.tick48.tick48.serial.cs

end PsramBus
end BenchPod
