import BenchPod.Library.Emitter
import BenchPod.Library.Word

/-!
# The deep-replay reader

The gateware reads a stored waveform from the PSRAM and hands it to the DAC through a prefetch FIFO.  One
`cycle` is an edge of `clk` and the two edges of `clk48` that follow it before the next one.
-/

namespace BenchPod.DacPsram

/-- Four bits of the bus. -/
abbrev Nibble := BitVec 4

/-- The states of the cell producer. -/
inductive St
  | idle
  | cmd
  | addr
  | dummy
  | data
  | csh
  | cmt
  deriving DecidableEq

/-- A cell: two nibbles and what the bus does with them. -/
structure Cell where
  n0 : Nibble := 0
  n1 : Nibble := 0
  drv : Bool := false
  cs : Bool := true
  clk : Bool := false
  cap : Bool := false
  deriving DecidableEq

/-- `CHUNK_BYTES` of the deep image. -/
abbrev chunkBytes : Nat := 8

/-- `DUM_CELLS`: half of `WAIT_CYCLES`. -/
abbrev dumCells : Nat := 3

/-- The registers of the cell producer, on `clk`. -/
structure Fsm where
  cellPh : Nat := 0
  st : St := .idle
  rdAddr : BitVec 24 := 0
  remaining : Nat := 0
  burstBytes : Nat := 0
  dataLeft : Nat := 0
  addrIdx : Nat := 0
  dumIdx : Nat := 0
  cellTgl : Bool := false
  cell : Cell := {}
  cellCmt : Bool := false
  cellAbt : Bool := false
  lost : Bool := false

namespace Fsm

variable (f : Fsm)

def nextBurst : Nat := if chunkBytes ≤ f.remaining then chunkBytes else f.remaining

/-- `want_burst` of a running reader. -/
def wantBurst (roomOk busOwn : Bool) : Bool := f.remaining ≠ 0 && roomOk && !busOwn

/-- The CS-low lead cell. -/
def leadCell : Cell := { cs := false }

/-- The command, `0xEB`. -/
def cmdCell : Cell := { n0 := 0xE, n1 := 0xB, drv := true, clk := true, cs := false }

/-- An address cell. -/
def addrCell (rdAddr : BitVec 24) (addrIdx : Nat) : Cell where
  n0 := match addrIdx with
    | 0 => rdAddr.extractLsb' 20 4
    | 1 => rdAddr.extractLsb' 12 4
    | _ => rdAddr.extractLsb' 4 4
  n1 := match addrIdx with
    | 0 => rdAddr.extractLsb' 16 4
    | 1 => rdAddr.extractLsb' 8 4
    | _ => rdAddr.extractLsb' 0 4
  drv := true
  clk := true
  cs := false

/-- A dummy cell. -/
def dummyCell : Cell := { clk := true, cs := false }

/-- A cell that captures a byte. -/
def dataCell : Cell := { clk := true, cs := false, cap := true }

/-- What a state does on `cell_go`. -/
def cellStep (base : BitVec 24) (len : Nat) (roomOk busOwn gnt : Bool) : Fsm :=
  let lostNow := f.lost || busOwn
  let f := { f with cellTgl := !f.cellTgl, cell := {}, cellCmt := false, cellAbt := false }
  if lostNow && (f.st = .cmd || f.st = .addr || f.st = .dummy || f.st = .data) then { f with st := .csh }
  else
    match f.st with
    | .idle =>
      if f.wantBurst roomOk busOwn && gnt then
        { f with
          burstBytes := f.nextBurst
          dataLeft := f.nextBurst
          addrIdx := 0
          cell := leadCell
          st := .cmd }
      else f
    | .cmd => { f with cell := cmdCell, addrIdx := 0, st := .addr }
    | .addr =>
      if f.addrIdx = 2 then { f with cell := addrCell f.rdAddr f.addrIdx, dumIdx := dumCells, st := .dummy }
      else { f with cell := addrCell f.rdAddr f.addrIdx, addrIdx := f.addrIdx + 1 }
    | .dummy =>
      { f with cell := dummyCell, dumIdx := f.dumIdx - 1, st := if f.dumIdx = 1 then .data else .dummy }
    | .data =>
      { f with cell := dataCell, dataLeft := f.dataLeft - 1, st := if f.dataLeft = 1 then .csh else .data }
    | .csh => { f with st := .cmt }
    | .cmt =>
      if lostNow then { f with lost := false, cellAbt := true, st := .idle }
      else if f.remaining = f.burstBytes then
        { f with lost := false, cellCmt := true, rdAddr := base, remaining := len, st := .idle }
      else
        { f with
          lost := false
          cellCmt := true
          rdAddr := f.rdAddr + BitVec.ofNat 24 f.burstBytes
          remaining := f.remaining - f.burstBytes
          st := .idle }

/-- An edge of `clk`. -/
def tick (base : BitVec 24) (len : Nat) (runI roomOk busOwn gnt : Bool) : Fsm :=
  if !runI then
    { f with
      st := .idle
      rdAddr := base
      remaining := len
      cell := { f.cell with cs := true, drv := false, clk := false, cap := false }
      cellCmt := false
      cellAbt := false
      lost := false }
  else
    let g := { f with lost := f.lost || (busOwn && f.st ≠ St.idle) }
    if f.cellPh = 3 then { g.cellStep base len roomOk busOwn gnt with cellPh := 0 }
    else { g with cellPh := f.cellPh + 1 }

end Fsm

/-- The registers of the serializer, on `clk48`, with the ones it hands to the FIFO. -/
structure Serial where
  tglM : Bool := false
  cellL : Cell := {}
  ph : Nat := 0
  busy48 : Bool := false
  capHi : Nibble := 0
  capPend : Bool := false
  ioO : Nibble := 0
  ioOe : Bool := false
  cs : Bool := true
  sclk : Bool := false
  push : Bool := false
  pushByte : Byte := 0
  cmtP : Bool := false
  abtP : Bool := false

namespace Serial

variable (s : Serial)

/-- The registers of the serializer in reset. -/
def cleared (f : Fsm) : Serial := { tglM := f.cellTgl, pushByte := s.pushByte }

/-- The low nibble of a data cell comes in on the edge after the cell. -/
def collect (ioI : Nibble) : Serial :=
  if s.capPend then { s with pushByte := s.capHi ++ ioI, push := true, capPend := false } else s

/-- An edge of `clk48`. -/
def tick (en : Bool) (f : Fsm) (ioI : Nibble) : Serial :=
  if !en then s.cleared f
  else
    let newCell := f.cellTgl != s.tglM
    let next := { s with
      tglM := f.cellTgl
      cellL := if newCell then f.cell else s.cellL
      push := false
      cmtP := newCell && f.cellCmt
      abtP := newCell && f.cellAbt }.collect ioI
    if newCell then
      { next with ioO := f.cell.n0, ioOe := f.cell.drv, cs := f.cell.cs, sclk := false, ph := 1, busy48 := true }
    else if s.busy48 then
      { next with
        ph := if s.ph = 7 then 0 else s.ph + 1
        ioO := if 4 ≤ s.ph then s.cellL.n1 else s.cellL.n0
        ioOe := s.cellL.drv
        cs := s.cellL.cs
        sclk := s.cellL.clk && s.ph % 4 ≠ 0
        capHi := if s.ph = 4 && s.cellL.cap then ioI else s.capHi
        capPend := if s.ph = 7 then s.cellL.cap else next.capPend
        busy48 := s.ph ≠ 7 }
    else { next with sclk := false }

end Serial

/-- The prefetch FIFO of 32 bytes, on `clk48`; a pointer has one bit more than an index. -/
structure Fifo where
  fmem : Nat → Byte := fun _ => 0
  wptr : Nat := 0
  wsp : Nat := 0
  rptr : Nat := 0
  rptr1 : Nat := 1
  dout : Byte := 0
  doutVld : Bool := false
  neR : Bool := false
  specNz : Bool := false
  roomOk48 : Bool := false

namespace Fifo

variable (q : Fifo)

def occS : Nat := (q.wsp + 64 - q.rptr) % 64

def fetch : Bool := !q.doutVld && q.neR

/-- An edge of `clk48`; the room test is `occ_s < 2^AW - CHUNK_BYTES`. -/
def tick (en : Bool) (s : Serial) (pop : Bool) : Fifo :=
  let roomOk48 : Bool := q.occS < 32 - chunkBytes
  if !en then { fmem := q.fmem, roomOk48 }
  else
    { fmem := if s.push then Function.update q.fmem (q.wsp % 32) s.pushByte else q.fmem
      wptr := if s.cmtP then q.wsp else q.wptr
      wsp := if s.abtP then q.wptr else if s.push then (q.wsp + 1) % 64 else q.wsp
      rptr := if q.fetch then q.rptr1 else q.rptr
      rptr1 := if q.fetch then (q.rptr1 + 1) % 64 else q.rptr1
      dout := if q.fetch then q.fmem (q.rptr % 32) else q.dout
      doutVld := q.fetch || (q.doutVld && !pop)
      neR := (s.cmtP && q.specNz) || (q.neR && !(q.fetch && q.rptr1 = q.wptr))
      specNz := s.push || (q.specNz && !(s.cmtP || s.abtP))
      roomOk48 }

/-- The byte the DAC pops on an edge. -/
def taken (pop : Bool) : List Byte := if q.doutVld && pop then [q.dout] else []

/-- A push that meets a full FIFO, or a fetch that meets an empty one. -/
def fault (s : Serial) : Bool := (s.push && q.occS = 32) || (q.fetch && q.wptr = q.rptr)

end Fifo

/-- The PSRAM behind the pads: the levels on the pins, the clocks since chip select fell, the nibbles of the
command and the address, and the nibble it drives. -/
structure Chip where
  cs : Bool := true
  sclk : Bool := false
  nib : Nat := 0
  head : List Nibble := []
  drive : Option Nibble := none
  deriving DecidableEq

namespace Chip

/-- The address in the nibbles of a command. -/
def address (head : List Nibble) : BitVec 24 :=
  BitVec.ofNat 24 ((head.drop 2).foldl (fun n nibble => n * 16 + nibble.toNat) 0)

/-- The nibble of a fast quad read after so many more clocks. -/
def read (mem : BitVec 24 → Byte) (head : List Nibble) (k : Nat) : Nibble :=
  let byte := mem (address head + BitVec.ofNat 24 (k / 2))
  if k % 2 = 0 then byte.extractLsb' 4 4 else byte.extractLsb' 0 4

/-- The new levels reach the pins. -/
def tick (mem : BitVec 24 → Byte) (chip : Chip) (cs sclk : Bool) (io : Nibble) : Chip :=
  if cs then { cs, sclk }
  else if sclk && !chip.sclk then
    { cs
      sclk
      nib := chip.nib + 1
      head := if chip.nib < 8 then chip.head ++ [io] else chip.head
      drive :=
        if 14 ≤ chip.nib ∧ chip.head.take 2 = [0xE, 0xB] then some (read mem chip.head (chip.nib - 14)) else none }
  else { chip with cs, sclk }

end Chip

/-- What comes from outside at an edge of `clk48`: a pop, the lines nobody drives, and where the PSRAM is left by
the STM32 when it owns the bus. -/
structure Edge where
  pop : Bool := false
  noise : Nibble := 0
  foreign : Chip := {}

/-- What comes from outside in a cycle; the control registers and `bus_own` change on the edge of `clk`. -/
structure Input where
  gnt : Bool := true
  run : Bool := true
  base : BitVec 24
  len : BitVec 24
  own : Bool := false
  first : Edge := {}
  second : Edge := {}

/-- The reader with its synchronizers, the PSRAM, the bytes the DAC has popped and whether the FIFO failed. -/
structure Reader where
  run : Bool := false
  base : BitVec 24 := 0
  len : BitVec 24 := 0
  runD : Bool := false
  own : Bool := false
  ownSync0 : Bool := false
  ownSync1 : Bool := false
  roomOk0 : Bool := false
  roomOk1 : Bool := false
  run480 : Bool := false
  run481 : Bool := false
  fsm : Fsm := {}
  serial : Serial := {}
  fifo : Fifo := {}
  chip : Chip := {}
  /-- Since `run` rose. -/
  fromRun : List Byte := []
  /-- Since `run_i` rose. -/
  fromArm : List Byte := []
  fault : Bool := false

namespace Reader

def runI (r : Reader) : Bool := r.run && r.runD

/-- An edge of `clk`. -/
def tick (r : Reader) (input : Input) : Reader :=
  { r with
    fsm := r.fsm.tick r.base r.len.toNat r.runI r.roomOk1 r.ownSync1 input.gnt
    roomOk0 := r.fifo.roomOk48
    roomOk1 := r.roomOk0
    ownSync0 := r.own
    ownSync1 := r.ownSync0
    own := input.own
    runD := r.run
    run := input.run
    base := input.base
    len := input.len }

/-- An edge of `clk48`. -/
def tick48 (mem : BitVec 24 → Byte) (r : Reader) (edge : Edge) : Reader :=
  let lines := r.chip.drive.getD edge.noise
  let popped := r.fifo.taken edge.pop
  { r with
    run480 := r.runI
    run481 := r.run480
    serial := r.serial.tick r.run481 r.fsm lines
    fifo := r.fifo.tick r.run481 r.serial edge.pop
    chip :=
      if r.own then edge.foreign
      else r.chip.tick mem r.serial.cs r.serial.sclk (if r.serial.ioOe then r.serial.ioO else lines)
    fromRun := if r.run then r.fromRun ++ popped else []
    fromArm := if r.runI then r.fromArm ++ popped else []
    fault := r.fault || (r.run481 && r.fifo.fault r.serial) }

/-- A cycle of `clk`. -/
def cycle (mem : BitVec 24 → Byte) (r : Reader) (input : Input) : Reader :=
  ((r.tick input).tick48 mem input.first).tick48 mem input.second

end Reader

/-- The reader cycle after cycle. -/
def replay (mem : BitVec 24 → Byte) : Emitter Reader Input Unit where
  step := Reader.cycle mem
  emit _ _ := none

/-- The registers of the region are held while the reader runs. -/
def Held (r : Reader) (input : Input) : Prop := r.run → input.run → input.base = r.base ∧ input.len = r.len

end BenchPod.DacPsram
