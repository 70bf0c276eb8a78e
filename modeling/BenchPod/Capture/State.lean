import BenchPod.Command.Transport

/-!
# The state behind captures, uploads and replays

One record for what `command_handler.c`, `command_handler_capture.c`, `command_handler_dac.c`,
`scpi_server.c` and `adc_pool.c` keep: the heavy gate, the asynchronous captures and their paced
read-back, the capture trigger, the uploads, and the sample pool and the PSRAM themselves.  A
connection number of -1 in the source is `none` here.
-/

namespace BenchPod.Capture

open Command

/-- A connection: the TCP sockets, the console, the cloud channel and the tunnels. -/
abbrev ConnId := Nat

/-- `conn_runs_state_machine`: the TCP sockets and the tunnels. -/
def connRunsStateMachine (conn : ConnId) : Bool := conn < 5 || (7 ≤ conn && conn ≤ 9)

/-- Who can hold the heavy gate: a connection, or the console's text commands
(`CH_CONSOLE_TEXT_OWNER`). -/
inductive Holder
  | conn (id : ConnId)
  | consoleText
  deriving DecidableEq

/-- Bytes of a memory, by address. -/
abbrev Mem := Nat → Byte

/-- Bytes written from an address on. -/
def Mem.write (mem : Mem) (start : Nat) (data : List Byte) : Mem :=
  fun i => if start ≤ i then data.getD (i - start) (mem i) else mem i

/-- The first bytes of a memory. -/
def Mem.read (mem : Mem) (start count : Nat) : List Byte := (List.range count).map fun i => mem (start + i)

/-- `la_edge_t`. -/
inductive LaEdge
  | none
  | rising
  | falling
  | high
  | low
  deriving DecidableEq

/-- The mode byte of SET_TRIGGER. -/
def LaEdge.num : LaEdge → Nat
  | none => 0
  | rising => 1
  | falling => 2
  | high => 3
  | low => 4

/-- `la_trigger_t`. -/
structure LaTrigger where
  present : Bool := false
  la : Nat := 0
  edge : LaEdge := .none
  timeoutMs : Nat := 0
  preSamples : Nat := 0
  deriving DecidableEq

/-- What the fabric's trigger registers were last set to; mode 0 is off. -/
structure SetTrigger where
  channel : Nat := 0
  mode : Nat := 0
  pre : Bool := false
  deriving DecidableEq

/-- `v2cap`, a capture or measure into the sample pool. -/
structure V2cap where
  connId : ConnId
  samples : Nat
  stopDac : Bool
  b64 : Bool
  deriving DecidableEq

/-- `lacap`, a logic-analyzer capture. -/
structure Lacap where
  connId : ConnId
  bytes : Nat
  stopDac : Bool
  rateHz : Nat
  chgK : Nat
  pre : Nat
  deriving DecidableEq

/-- `dualcap`, a capture of both; the achieved rates are rounded to whole hertz. -/
structure Dualcap where
  connId : ConnId
  adcSamples : Nat
  laSamples : Nat
  adcRateHz : Nat
  laRateHz : Nat
  stopDac : Bool
  b64 : Bool
  chgK : Nat
  deriving DecidableEq

/-- `chgscan`, the pass over the events of a change capture. -/
structure Chgscan where
  connId : ConnId
  samples : Nat
  k : Nat
  pre : Nat := 0
  laHz : Nat
  off : Nat := 0
  region : Nat
  t : Nat := 0
  first : Bool := true
  ended : Bool := false
  cause : Nat := 0
  adcN : Nat := 0
  adcHz : Nat := 0
  b64 : Bool := false
  deriving DecidableEq

structure LastCap where
  valid : Bool := false
  adcSamples : Nat := 0
  laSamples : Nat := 0
  adcRateHz : Nat := 0
  laRateHz : Nat := 0
  deriving DecidableEq

/-- `trigwait`: a triggered capture that has not fired yet. -/
structure Trigwait where
  connId : ConnId
  t : LaTrigger
  deadline : Nat
  nextCheck : Nat
  fired : Bool := false
  deriving DecidableEq

/-- `trig_reply`: the outcome on its way from a capture to its reply. -/
structure TrigReply where
  present : Bool := false
  t : LaTrigger := {}
  fired : Bool := false
  deriving DecidableEq

/-- `bulk`, the paced read-back, as far as it is the same for every content. -/
structure Bulk where
  connId : ConnId
  total : Nat
  sent : Nat := 0
  is16 : Bool
  fromPsram : Bool := false
  adcSamples : Nat := 0
  adcRateHz : Nat := 0
  laRateHz : Nat := 0
  trigPresent : Bool := false
  trig : LaTrigger := {}
  trigFired : Bool := false
  b64 : Bool := false
  chg : Bool := false
  chgK : Nat := 0
  chgEnd : Nat := 0
  chgBase : Nat := 0
  chgPre : Nat := 0
  chgTrunc : Nat := 0
  deriving DecidableEq

/-- The `load_bin` upload: `dst` is the PSRAM with `psram`, else the pool. -/
structure LoadBin where
  conn : Option ConnId := none
  total : Nat := 0
  haveBytes : Nat := 0
  psram : Bool := false
  deadline : Nat := 0
  rearmAt : Nat := 0
  ackAt : Nat := 0
  deriving DecidableEq

/-- Everything the handlers keep. -/
structure Pod where
  heavyOwner : Option Holder := none
  /-- An update is being received or verified. -/
  otaBusy : Bool := false
  espRomFlashBusy : Bool := false
  proto : ConnId → Proto := fun _ => .unknown
  v2cap : Option V2cap := none
  lacap : Option Lacap := none
  chgscan : Option Chgscan := none
  dualcap : Option Dualcap := none
  bulk : Option Bulk := none
  trigwait : Option Trigwait := none
  trigReply : TrigReply := {}
  lastCap : LastCap := {}
  setTrigger : SetTrigger := {}
  replayLen : Nat := 0
  jsonTraceGen : Word := 0
  replayInPsram : Bool := false
  psramStageLen : Nat := 0
  loadBin : LoadBin := {}
  /-- `loaded_hold_conn` and `loaded_hold_until`. -/
  loadedHold : Option (ConnId × Nat) := none
  scpiTraceGen : Word := 0
  scpiReplayBytes : Nat := 0
  poolGen : Word := 0
  pool : Mem := fun _ => 0
  psram : Mem := fun _ => 0
  /-- `s_dac_ps_base`. -/
  dacBase : Nat := 0x800000

namespace Pod

variable (s : Pod)

def captureBusy : Bool := s.v2cap.isSome || s.lacap.isSome || s.chgscan.isSome || s.dualcap.isSome || s.bulk.isSome

def heavyInFlight : Bool := s.captureBusy || s.otaBusy || s.espRomFlashBusy

def heavyTryClaim (holder : Holder) : Option Pod :=
  if s.heavyOwner ≠ none ∧ s.heavyOwner ≠ some holder then none
  else some { s with heavyOwner := some holder }

def heavyRelease (holder : Holder) : Pod :=
  if s.heavyOwner = some holder then { s with heavyOwner := none } else s

/-- `heavy_begin`, and `command_handler_acquire_adc`: `none` when it refuses. -/
def heavyBegin (holder : Holder) : Option Pod :=
  if s.heavyInFlight then none else s.heavyTryClaim holder

def connProtoSet (conn : ConnId) (proto : Proto) : Pod :=
  if connRunsStateMachine conn then
    { s with proto := fun c => if c = conn then proto else s.proto c }
  else s

/-- `adc_pool_take`: the next generation, never 0. -/
def adcPoolTake : Pod := { s with poolGen := if s.poolGen + 1 = 0 then 1 else s.poolGen + 1 }

def adcPoolHolds (gen : Word) : Bool := gen ≠ 0 && gen = s.poolGen

/-- `bulk_take_trigger`, on a read-back that starts. -/
def bulkStart (bulk : Bulk) : Pod :=
  { s with
    bulk := some { bulk with
      trigPresent := s.trigReply.present, trig := s.trigReply.t, trigFired := s.trigReply.fired }
    trigReply := { s.trigReply with present := false } }

end Pod
end BenchPod.Capture
