import BenchPod.Capture.Held

/-!
# The shared bus of the PSRAM

`bus_owner.c` counts the holds of the STM32 on the quad bus and `psram.c` moves the pins with them.
Beside the handlers of the captures runs what each of them does to the bus.
-/

namespace BenchPod.Capture

/-- `bus_owner_t`, for tasks of a type. -/
structure BusOwner (τ : Type) where
  owner : Option τ := none
  depth : Nat := 0
  violations : Nat := 0
  unpaired : Nat := 0
  deriving DecidableEq

namespace BusOwner

variable {τ : Type} [DecidableEq τ] (b : BusOwner τ) (who : τ)

/-- `bus_owner_take`, and whether the pins move. -/
def take : BusOwner τ × Bool :=
  if b.depth = 0 then ({ b with owner := some who, depth := 1 }, true)
  else
    let violations := if b.owner = some who then b.violations else b.violations + 1
    ({ b with violations, depth := if b.depth < 65535 then b.depth + 1 else b.depth }, false)

/-- `bus_owner_give`, and whether the pins move. -/
def give : BusOwner τ × Bool :=
  if b.depth = 0 then ({ b with unpaired := b.unpaired + 1 }, true)
  else
    let violations := if b.owner = some who then b.violations else b.violations + 1
    if b.depth - 1 = 0 then ({ b with violations, depth := 0, owner := none }, true)
    else ({ b with violations, depth := b.depth - 1 }, false)

/-- `bus_owner_handover`; the holds it drops are a violation. -/
def handover : BusOwner τ :=
  { b with
    violations := if b.depth = 0 then b.violations else b.violations + 1
    depth := 0
    owner := none }

end BusOwner

/-- What the firmware does to the bus: `psram_bus_acquire`, `psram_bus_release`,
`psram_bus_handover`, and the command that arms a capture or a replay. -/
inductive BusOp
  | take
  | give
  | handover
  | arm
  deriving DecidableEq

/-- The bus; the hardware worker is the one task on it. -/
structure Bus where
  owner : BusOwner Unit := {}
  /-- The pins are the iCE40's. -/
  ice40 : Bool := true
  /-- Arms while a hold was open. -/
  armedHeld : Nat := 0
  deriving DecidableEq

namespace Bus

variable (bus : Bus)

def apply : BusOp → Bus
  | .take =>
    let after := bus.owner.take ()
    { bus with owner := after.1, ice40 := !after.2 && bus.ice40 }
  | .give =>
    let after := bus.owner.give ()
    { bus with owner := after.1, ice40 := after.2 || bus.ice40 }
  | .handover => { bus with owner := bus.owner.handover, ice40 := true }
  | .arm => { bus with armedHeld := if bus.owner.depth = 0 then bus.armedHeld else bus.armedHeld + 1 }

/-- One operation after another. -/
def run : List BusOp → Bus := List.foldl apply bus

theorem run_append (front back : List BusOp) : bus.run (front ++ back) = (bus.run front).run back := List.foldl_append

end Bus

/-- How far the start of a capture or a replay gets before it gives up. -/
inductive Reach
  | refused
  | handedOver
  | armed
  deriving DecidableEq

/-- A start on the bus: the sentinel is written for a capture of the ADC, then the bus is handed over
and the fabric is armed. -/
def startOps (stamps : Bool) : Reach → List BusOp
  | .refused => []
  | .handedOver => (if stamps then [.take, .give] else []) ++ [.handover]
  | .armed => (if stamps then [.take, .give] else []) ++ [.handover, .arm]

/-- Accesses of the STM32 under a hold of their own, such as the attempts of `psram_read_settled`. -/
def pairs (count : Nat) : List BusOp := (List.replicate count [.take, .give]).flatten

/-- What a command that ends before it returns can do to the bus. -/
inductive Access
  | pairs (count : Nat)
  | start (stamps : Bool) (reach : Reach)
  deriving DecidableEq

def Access.ops : Access → List BusOp
  | .pairs count => Capture.pairs count
  | .start stamps reach => startOps stamps reach

/-- What the pod's state does not say about the bus accesses of an event. -/
structure Wire where
  /-- How far a start gets that fails. -/
  reach : Reach := .refused
  /-- Attempts to read a finished capture, or to read and write the PSRAM at once. -/
  reads : Nat := 0
  /-- What a command does that claims the gate and releases it before it returns. -/
  accesses : List Access := []

/-- How far the start of a command gets. -/
def Wire.reaches (wire : Wire) (answers : Answers) : Reach := if answers.armed then .armed else wire.reach

namespace Pod

open Json Command

variable (s : Pod) (conn : ConnId) (json : List Byte) (answers : Answers) (wire : Wire) (pass : Pass)

/-- Accesses that only a holder of the heavy gate gets to. -/
def gatedOps (holder : Holder) (ops : List BusOp) : List BusOp :=
  if (s.heavyBegin holder).isSome then ops else []

/-- The bus in `armTriggered`. -/
def armTriggeredOps (allowPre : Bool) (ops : List BusOp) : List BusOp :=
  match s.captureTriggerBegin answers.fabric json allowPre with
  | (_, .error _) => []
  | (s, .ok _) => s.gatedOps (.conn conn) ops

/-- The bus in `handle_capture`. -/
def handleCaptureOps : List BusOp :=
  let samples := sizeField json "samples" 16 256
  if samples = 0 ∨ adcMonoBufSamples < samples then []
  else s.armTriggeredOps conn json answers false (startOps true (wire.reaches answers))

/-- The bus in `handle_capture_dual`. -/
def handleCaptureDualOps : List BusOp :=
  if sizeField json "adc_samples" 16 0 = 0 ∧ sizeField json "la_samples" 16 0 = 0 then []
  else
    match answers.planRefuses with
    | some _ => []
    | none => s.armTriggeredOps conn json answers false (startOps true (wire.reaches answers))

/-- The bus in `handle_la_capture`; no sentinel is written. -/
def handleLaCaptureOps : List BusOp :=
  let samples := sizeField json "samples" 16 256
  if answers.laVoltage = false then []
  else if samples = 0 ∨ answers.laMax < samples then []
  else s.armTriggeredOps conn json answers true (startOps false (wire.reaches answers))

/-- The bus in `handle_stream`. -/
def handleStreamOps : List BusOp :=
  let samples := sizeField json "samples" 16 256
  if samples = 0 ∨ adcMonoBufSamples < samples then []
  else s.gatedOps (.conn conn) (startOps true (wire.reaches answers))

/-- The bus in `handle_measure`; no sentinel is written. -/
def handleMeasureOps : List BusOp :=
  let waveform := (bpJsonGet json (cstr "waveform") 16).getD []
  let samples := sizeField json "samples" 16 256
  if waveform = [] then []
  else if waveform ≠ cstr "sine" ∧ waveform ≠ cstr "square" ∧ waveform ≠ cstr "sawtooth" then []
  else if samples = 0 ∨ signalMaxSamples < samples then []
  else s.gatedOps (.conn conn) (startOps false (wire.reaches answers))

/-- The bus in `handle_sensor_la`: a capture that is waited for and read back. -/
def handleSensorLaOps : List BusOp :=
  let bytes := sizeField json "samples" 16 256
  if bytes = 0 ∨ signalBufSize < bytes then []
  else s.gatedOps (.conn conn) (startOps false (wire.reaches answers) ++ pairs wire.reads)

/-- The bus in `handle_capture_read`: taken for the read-back. -/
def handleCaptureReadOps : List BusOp :=
  let offset := sizeField json "offset" 16 0
  let total := s.lastCap.adcSamples + s.lastCap.laSamples
  if s.lastCap.valid = false ∨ answers.stale.isSome ∨ total < offset then []
  else s.gatedOps (.conn conn) (if offset = total then [] else [.take])

/-- The bus in `handle_load_bin`: an upload into the PSRAM holds it. -/
def handleLoadBinOps : List BusOp :=
  if connRunsStateMachine conn = false then []
  else
    match bpJsonGet json (cstr "total") 12 with
    | none => []
    | some text =>
      let total := (strtoul text).toNat
      if total = 0 ∨ loadBinCap (asksPsram json) < total then []
      else s.gatedOps (.conn conn) (if asksPsram json then [.take] else [])

/-- The bus in `load_bin_clear`. -/
def loadBinClearOps : List BusOp := if s.loadBin.psram then [.give] else []

/-- The bus in `handle_replay`: a trace in the PSRAM is played from there. -/
def handleReplayOps : List BusOp :=
  let samples := s.replaySamples json
  let s := s.dropLostTrace
  if s.replayLen = 0 ∨ samples = 0 ∨ s.replayLen < samples ∨ s.replayInPsram = false then []
  else s.gatedOps (.conn conn) (startOps false (wire.reaches answers))

/-- The bus in a JSON command. -/
def jsonCommandOps : JsonCommand → List BusOp
  | .capture => s.handleCaptureOps conn json answers wire
  | .captureDual => s.handleCaptureDualOps conn json answers wire
  | .laCapture => s.handleLaCaptureOps conn json answers wire
  | .captureRead => s.handleCaptureReadOps conn json answers
  | .stream => s.handleStreamOps conn json answers wire
  | .measure => s.handleMeasureOps conn json answers wire
  | .sensorLa => s.handleSensorLaOps conn json answers wire
  | .loadBin => s.handleLoadBinOps conn json
  | .replay => s.handleReplayOps conn json answers wire
  | .brief => s.gatedOps (.conn conn) (wire.accesses.flatMap Access.ops)
  | .test | .sensorRegs | .load | .rawMode _ => []

/-- The bus in a SCPI command. -/
def scpiCommandOps : ScpiCommand → List BusOp
  | .capture n _ =>
    if n = 0 ∨ signalBufSize < n then []
    else s.gatedOps (.conn conn) (startOps true wire.reach ++ pairs wire.reads)
  | .diagnostic _ => s.gatedOps (.conn conn) (wire.accesses.flatMap Access.ops)
  | .traceData .. | .outputUser _ | .reset => []

/-- The bus in `adc_capture_psram_poll`, which reads a finished capture at once. -/
def pollV2capOps : List BusOp :=
  if s.v2cap.isNone ∨ pass.v2 = .running then [] else pairs wire.reads

/-- The bus in `fpga_la_change_wait` and `fpga_la_capture_psram_wait`. -/
def pollLacapOps : List BusOp := if s.lacap.isSome ∧ pass.la = .done then [.take] else []

/-- The bus in `chgscan_step`, whose failure gives it back. -/
def pollChgscanOps : List BusOp :=
  match s.chgscan with
  | none => []
  | some scan =>
    match chgscanStep s.psram pass.captured pass.readFails scan with
    | .fails _ => [.give]
    | .more _ | .ready .. => []

/-- The bus in `fpga_capture_psram_wait`, and after a sentinel that survived. -/
def pollDualcapOps : List BusOp :=
  match s.dualcap with
  | none => []
  | some cap =>
    if pass.dual = .done then
      if 4 ≤ cap.adcSamples ∧ pass.sentinel then [.take, .give] else [.take]
    else []

/-- The bus in `bulk_pump`: every end of a read-back from the PSRAM gives it back. -/
def bulkPumpOps : List BusOp :=
  if s.bulk.any (·.fromPsram) ∧ pass.sent = none then [.give] else []

/-- The bus in `capture_poll`. -/
def capturePollOps : List BusOp :=
  let s := s.pollTrigger pass
  let v2cap := s.pollV2capOps wire pass
  let s := s.pollV2cap pass
  let lacap := s.pollLacapOps pass
  let s := s.pollLacap pass
  let chgscan := s.pollChgscanOps pass
  let s := s.pollChgscan pass
  let dualcap := s.pollDualcapOps pass
  let s := s.pollDualcap pass
  v2cap ++ (lacap ++ (chgscan ++ (dualcap ++ s.bulkPumpOps pass)))

/-- The bus in `command_handler_conn_closed`. -/
def connClosedOps : List BusOp :=
  let scan := if s.chgscan.any (·.connId = conn) then [.give] else []
  let bulk := if s.bulk.any fun bulk => bulk.connId = conn && bulk.fromPsram then [.give] else []
  let upload :=
    if connRunsStateMachine conn ∧ (s.proto conn = .load ∨ s.loadBin.conn = some conn) then
      s.loadBinClearOps
    else []
  scan ++ (bulk ++ upload)

/-- The bus in an event; a reload of the gateware takes the bus its own way. -/
def eventOps : Event → Option (List BusOp)
  | .json conn command line answers =>
    match s.speaks conn .json with
    | none => some []
    | some s => some (s.jsonCommandOps conn line answers wire command)
  | .scpi conn command _ =>
    match s.speaks conn .scpi with
    | none => some []
    | some s => some (s.scpiCommandOps conn wire command)
  | .console _ => some (s.gatedOps .consoleText (wire.accesses.flatMap Access.ops))
  | .bytes conn now data written =>
    let upload := (s.loadBinStore now data written).loadBin
    if connRunsStateMachine conn ∧ s.proto conn = .load ∧ upload.total ≤ upload.haveBytes then
      some s.loadBinClearOps
    else some []
  | .rawEnd .. | .updates .. => some []
  | .dacPoll _ loadNow =>
    if s.loadBin.conn.isSome ∧ s.loadBin.deadline ≤ loadNow then some s.loadBinClearOps else some []
  | .capturePoll pass => some (s.capturePollOps wire pass)
  | .closed conn _ => some (s.connClosedOps conn)
  | .reconfigured => none
  | .psramWrite .. => some (pairs wire.reads)

/-- A scan of changes or a read-back from the PSRAM is active: the bus is held. -/
def holding : Bool := s.chgscan.isSome || s.bulk.any (·.fromPsram)

end Pod

/-- The pod with its bus. -/
structure PodOnBus where
  pod : Pod := {}
  bus : Bus := {}

/-- The worker, and the bus it is on. -/
def workerOnBus : Emitter PodOnBus (Event × Wire) Reply where
  step p event :=
    { pod := p.pod.step event.1
      bus := p.bus.run ((p.pod.eventOps event.2 event.1).getD []) }
  emit p event := (p.pod.handle event.1).2

/-- Anything but a raw upload, which holds the bus itself, and a reload of the gateware. -/
def Event.captures : Event → Bool
  | .json _ .loadBin _ _ | .reconfigured => false
  | _ => true

end BenchPod.Capture
