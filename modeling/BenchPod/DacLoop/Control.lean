import BenchPod.DacStream.Steady

/-!
# The control loop of the DAC

`dac_loop` looks its input up in a curve, moves its value a damped step towards the target, and hands the value over to
the sequencer byte by byte.  The top loads the parameters, arms the loop, and gives it the memory and the stream port of
the sequencer while it is armed.
-/

namespace BenchPod.DacLoop

open DacStream

/-- The parameters of the command, before and after `dac_loop_params_validate`. -/
structure Params where
  kQ15 : Half
  vmin : Half
  vmax : Half
  tickDiv : Half
  src : Byte
  inFixed : Half
  sweepStep : Half
  deriving DecidableEq

/-- Why parameters are refused. -/
inductive ParamsErr
  | clampInverted
  | badSource
  | sweepStepZero
  deriving DecidableEq

def dacLoopParamsValidate (p : Params) : Except ParamsErr Params :=
  if p.vmax < p.vmin then .error .clampInverted
  else if 2 < p.src then .error .badSource
  else if p.src = 2 ∧ p.sweepStep = 0 then .error .sweepStepZero
  else
    let k := if 32767 < p.kQ15 then 32767 else p.kQ15
    .ok { p with kQ15 := if k < 1 then 1 else k, tickDiv := if p.tickDiv < 8 then 8 else p.tickDiv }

/-- `arm48`: what `START_DAC_LOOP` loads. -/
structure Arm where
  kQ15 : Half := 0
  vmin : Half := 0
  vmax : Half := 0xFFFF
  tickDiv : Half := 64
  deriving DecidableEq

/-- `src48`: what `DAC_LOOP_SRC` loads. -/
structure Src where
  sel : BitVec 2 := 0
  fixed : Half := 0
  step : Half := 0
  deriving DecidableEq

/-- `inmap48`: what `DAC_LOOP_INMAP` loads. -/
structure InMap where
  zero : Half := 0
  gain : Half := 0
  trip : BitVec 11 := 0
  mapEn : Bool := false
  tripEn : Bool := false
  deriving DecidableEq

/-- The parameters of accepted settings. -/
def Params.arm (p : Params) : Arm := ⟨p.kQ15, p.vmin, p.vmax, p.tickDiv⟩

/-- The states of a tick. -/
inductive St
  | idle
  | imul
  | idx
  | rdlo
  | rdhi
  | asm
  | mul
  | mac
  | upd
  | cmp
  | clamp
  deriving DecidableEq

/-- The registers of the tick; the signed ones are wide enough for every value they get. -/
structure Tick where
  st : St := .idle
  tickCnt : Half := 64
  tickZ : Bool := false
  v : Half := 0
  lutRaddr : Nat := 0
  lo : Byte := 0
  target : Half := 0
  delta17 : Int := 0
  deltaQ : Int := 0
  kS : Int := 0
  prodR : Int := 0
  vsum : Int := 0
  ltMin : Bool := false
  gtMax : Bool := false
  sweepAcc : Half := 0
  inLat : Half := 0
  dR : Int := 0
  prodI : Int := 0
  tripL : Bool := false

/-- The producer of the stream: the byte that is next, and the value of the frame. -/
structure Producer where
  byteSel : Bool := false
  vf : Half := 0

/-- The ports of the loop at an edge. -/
structure Ports where
  arm : Bool
  adc : Half
  cfg : Arm
  src : Src
  inmap : InMap
  lutRdata : Byte
  strmPop : Bool

namespace Tick

variable (t : Tick) (i : Ports)

def inNow : Half := if i.src.sel = 0 then i.adc else if i.src.sel = 1 then i.src.fixed else t.sweepAcc

/-- `idx_next`: the conditioned index, saturated, or the top bits of the input. -/
def idxNext : Nat :=
  if i.inmap.mapEn then if t.prodI < 0 then 0 else if 2048 ≤ t.prodI then 2047 else t.prodI.toNat
  else t.inLat.toNat / 32

/-- `delta` as the multiplier takes it. -/
def clamp16 (delta : Int) : Int := if 32767 < delta then 32767 else if delta < -32768 then -32768 else delta

/-- The damped step, rounded: a 16-bit sum of bits of the product. -/
def damped (prod : Int) : Int := Int.bmod (prod / 32768 + prod / 16384 % 2) 65536

/-- What an edge of the disarmed loop leaves. -/
def disarmed : Tick where
  tickCnt := i.cfg.tickDiv
  tickZ := i.cfg.tickDiv == 0
  v := i.cfg.vmin
  sweepAcc := i.src.fixed

/-- A state of an armed tick. -/
def act : Tick :=
  match t.st with
  | .idle =>
    if t.tickZ then
      { t with
        tickCnt := i.cfg.tickDiv
        tickZ := i.cfg.tickDiv == 0
        inLat := t.inNow i
        dR := (t.inNow i - i.inmap.zero).toInt
        sweepAcc := if i.src.sel.getLsbD 1 then t.sweepAcc + i.src.step else i.src.fixed
        st := .imul }
    else { t with tickCnt := t.tickCnt - 1, tickZ := t.tickCnt == 1 }
  | .imul => { t with prodI := t.dR * i.inmap.gain.toInt / 32768, st := .idx }
  | .idx => { t with lutRaddr := 2 * t.idxNext i, st := .rdlo }
  | .rdlo =>
    { t with
      lutRaddr := 2 * (t.lutRaddr / 2) + 1
      tripL := t.tripL || (i.inmap.mapEn && i.inmap.tripEn && i.inmap.trip.toNat ≤ t.lutRaddr / 2)
      st := .rdhi }
  | .rdhi => { t with lo := i.lutRdata, st := .asm }
  | .asm =>
    { t with
      target := i.lutRdata ++ t.lo
      delta17 := ((i.lutRdata ++ t.lo : BitVec 16).toNat : Int) - t.v.toNat
      st := .mul }
  | .mul => { t with deltaQ := clamp16 t.delta17, kS := (i.cfg.kQ15.toNat % 32768 : Nat), st := .mac }
  | .mac => { t with prodR := t.kS * t.deltaQ, st := .upd }
  | .upd => { t with vsum := t.v.toNat + damped t.prodR, st := .cmp }
  | .cmp => { t with ltMin := t.vsum < i.cfg.vmin.toNat, gtMax := (i.cfg.vmax.toNat : Int) < t.vsum, st := .clamp }
  | .clamp =>
    { t with
      v :=
        if t.tripL then i.cfg.vmin else if t.ltMin then i.cfg.vmin else if t.gtMax then i.cfg.vmax
        else BitVec.ofInt 16 t.vsum
      st := .idle }

/-- An edge of `clk48`. -/
def step : Tick := if i.arm then t.act i else disarmed i

end Tick

namespace Producer

variable (p : Producer)

def strmData : Byte := if p.byteSel then p.vf.extractLsb' 8 8 else p.vf.extractLsb' 0 8

/-- The value of the frame moves on with the pop of the high byte. -/
def step (i : Ports) (v : Half) : Producer :=
  if !i.arm then { byteSel := false, vf := i.cfg.vmin }
  else if i.strmPop then { byteSel := !p.byteSel, vf := if p.byteSel then v else p.vf }
  else p

end Producer

/-- The loop and the sequencer in the top.  `held` are the values `v` has had since the arm, and `shows` those it had had
when the frame in the shifter was taken from the loop. -/
structure Top where
  bench : Bench := {}
  cfg : Arm := {}
  src : Src := {}
  inmap : InMap := {}
  armP : Bool := false
  armed : Bool := false
  tick : Tick := {}
  producer : Producer := {}
  held : List Half := [0]
  shows : Option (List Half) := none

/-- What comes from outside at an edge: the mode level and the payloads as they reach `clk48`, the newest ADC sample, the
memory, the level of the deep replay, and what the sequencer gets. -/
structure Input where
  mode : Bool := true
  load : Option Arm := none
  loadSrc : Option Src := none
  loadInMap : Option InMap := none
  adc : Half := 0
  curve : Nat → Byte
  psram : Bool := false
  start : Option Ctl := none
  stop : Bool := false
  wr : Option (BitVec 24) := none

namespace Top

variable (b : Top) (i : Input)

/-- The ports of the loop. -/
def ports : Ports where
  arm := b.armed
  adc := i.adc
  cfg := b.cfg
  src := b.src
  inmap := b.inmap
  lutRdata := b.bench.wave
  strmPop := b.armed && b.bench.e.strmPop

/-- What the sequencer sees: while the loop is armed, its bytes and its address of the memory. -/
def edge : Edge where
  latch := i.start
  stop := i.stop
  wrLatch := i.wr
  source :=
    { psram := i.psram || b.armed
      buf := fun address => i.curve (if b.armed then b.tick.lutRaddr else address)
      store := fun _ => b.producer.strmData
      len := 1 }
  valid := b.armed

/-- An edge of `clk48`: the level only drops the loop, and the pulse after its parameters arms it. -/
def step : Top where
  bench := b.bench.step (b.edge i)
  cfg := i.load.getD b.cfg
  src := i.loadSrc.getD b.src
  inmap := i.loadInMap.getD b.inmap
  armP := i.load.isSome
  armed := i.mode && (b.armP || b.armed)
  tick := b.tick.step (b.ports i)
  producer := b.producer.step (b.ports i) b.tick.v
  held :=
    let v := (b.tick.step (b.ports i)).v
    if !b.armed then [v] else if b.tick.st = .clamp then v :: b.held else b.held
  shows :=
    if b.bench.e.st = .phi ∧ b.armed then some b.held else if b.bench.e.st = .lat then none else b.shows

/-- A frame, and what the loop had held when the frame was taken from it. -/
def sent : Option (Sent × Option (List Half)) := (b.bench.sent (b.edge i)).map fun frame => (frame, b.shows)

end Top

/-- The loop edge after edge, with the frames of the sequencer. -/
def loop : Emitter Top Input (Sent × Option (List Half)) := ⟨Top.step, Top.sent⟩

/-- Parameters are loaded while the loop is neither armed nor about to be, and they are accepted ones. -/
def Loads (b : Top) (i : Input) : Prop :=
  ∀ arm, i.load = some arm → b.armed = false ∧ b.armP = false ∧ ∃ p q, dacLoopParamsValidate p = .ok q ∧ arm = q.arm

end BenchPod.DacLoop
