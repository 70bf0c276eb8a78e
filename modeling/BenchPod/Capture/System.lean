import BenchPod.Capture.Poll
import BenchPod.Capture.Upload
import BenchPod.Library.Emitter

/-!
# The SCPI commands on the sample pool

`READ?` and `MEASure?` capture into the pool while the worker waits, `TRACe:DATA` uploads a chunk,
and the USER output plays the trace that is left.
-/

namespace BenchPod
namespace Capture

namespace Pod

variable (s : Pod) (conn : ConnId)

def scpiTraceHeld : Bool := s.scpiReplayBytes ≠ 0 && s.adcPoolHolds s.scpiTraceGen

/-- `scpi_readQ` and `scpi_measureQ`: a capture of `n` points into the pool.  It delivers `got`
bytes before it fails, or all of them. -/
def scpiCapture (n : Nat) (bytes : Mem) (got : Option Nat) : Pod × Reply :=
  if n = 0 ∨ signalBufSize < n then (s, .error (Json.cstr "-222"))
  else
    match s.heavyBegin (.conn conn) with
    | none => (s, .busy)
    | some s =>
      let s := s.adcPoolTake
      let s := { s with scpiTraceGen := s.poolGen }
      let count := match got with
        | none => 2 * n
        | some got => min got (2 * n)
      let s := { s with pool := s.pool.write 0 (bytes.read 0 count) }
      let s := s.heavyRelease (.conn conn)
      if got.isSome then ({ s with scpiReplayBytes := 0 }, .error (Json.cstr "-200"))
      else ({ s with scpiReplayBytes := min n signalMaxSamples * 2 }, .ok)

def scpiTraceData (offset : Nat) (text : List Byte) : Pod × Reply :=
  if signalBufSize < offset then (s, .error (Json.cstr "-222"))
  else
    match s.heavyBegin (.conn conn) with
    | none => (s, .busy)
    | some s =>
      let s :=
        if s.adcPoolHolds s.scpiTraceGen then s
        else
          let s := s.adcPoolTake
          { s with scpiTraceGen := s.poolGen }
      let decoded := B64url.decode text (signalBufSize - offset)
      let s := { s with pool := s.pool.write offset decoded.1 }
      let s := s.heavyRelease (.conn conn)
      if decoded.2 = false then (s, .error (Json.cstr "-224"))
      else ({ s with scpiReplayBytes := offset + decoded.1.length }, .ok)

/-- `output_start` with the USER shape; `armed` is whether the waveform starts. -/
def scpiOutputUser (armed : Bool) : Pod × Reply :=
  let bytes := s.scpiReplayBytes / 2 * 2
  if s.scpiReplayBytes < 2 ∨ s.scpiTraceHeld = false ∨ armed = false ∨ signalBufSize < bytes then
    (s, .error (Json.cstr "-200"))
  else (s, .playing (s.pool.read 0 bytes))

/-- What DIAGnostic:PATTern?, DIAGnostic:CAPture? and the console's diagnostics do to the pool:
bytes in its scratch region, under the gate. -/
def scratchCommand (holder : Holder) (data : List Byte) : Pod :=
  match s.heavyBegin holder with
  | none => s
  | some s => Pod.heavyRelease { s with pool := s.pool.write adcPoolTraceBytes data } holder

/-- `scpi_reset_state`. -/
def scpiReset : Pod := { s with scpiReplayBytes := 0, scpiTraceGen := 0 }

end Pod
end Capture
end BenchPod

/-!
## Runs of the handlers

The worker takes one event after another: a command line, bytes of an upload, a poll, a connection
that closes.  A command of a connection runs only while the connection speaks the language of the
command; in a raw mode its bytes go elsewhere.
-/

namespace BenchPod
namespace Capture

open Command

/-- The JSON commands that touch the gate, the pool or the PSRAM. -/
inductive JsonCommand
  | capture
  | captureDual
  | laCapture
  | captureRead
  | stream
  | measure
  | test
  | sensorRegs
  | sensorLa
  | load
  | loadBin
  | replay
  /-- A command that claims the gate and releases it before it returns, such as `adc`,
  `dac_control_loop` or `spi_stream`. -/
  | brief
  /-- `dap_start`, `uart_proxy` and the speed test take the connection into a raw mode. -/
  | rawMode (proto : Proto)
  deriving DecidableEq

/-- The SCPI commands that do. -/
inductive ScpiCommand
  | capture (n : Nat) (got : Option Nat)
  | traceData (offset : Nat) (text : List Byte)
  | outputUser (armed : Bool)
  | diagnostic (data : List Byte)
  | reset
  deriving DecidableEq

/-- What the worker takes up next. -/
inductive Event
  | json (conn : ConnId) (command : JsonCommand) (line : List Byte) (answers : Answers)
  | scpi (conn : ConnId) (command : ScpiCommand) (bytes : Mem)
  /-- A console text command under the gate, with what it leaves in the pool's scratch region. -/
  | console (data : List Byte)
  /-- Raw bytes of a connection, and how many of them a PSRAM write gets through. -/
  | bytes (conn : ConnId) (now : Nat) (data : List Byte) (written : Nat)
  /-- A raw mode other than the upload ends. -/
  | rawEnd (conn : ConnId) (proto : Proto)
  | dacPoll (holdNow loadNow : Nat)
  | capturePoll (pass : Pass)
  | closed (conn : ConnId) (pass : Pass)
  | reconfigured
  /-- An update or a flash of the ESP32-C3 starts or ends. -/
  | updates (ota esp : Bool)
  /-- The fabric or the firmware writes the PSRAM. -/
  | psramWrite (start : Nat) (data : List Byte)

namespace Pod

variable (s : Pod)

/-- The pod before a command of a connection in the language `proto`, which the first byte of the
connection settles; `none` when the bytes are not a command of it. -/
def speaks (conn : ConnId) (proto : Proto) : Option Pod :=
  if connRunsStateMachine conn = false ∨ s.proto conn = proto then some s
  else if s.proto conn = .unknown then some (s.connProtoSet conn proto)
  else none

/-- A command that claims the gate and releases it before it returns. -/
def briefCommand (holder : Holder) : Pod × Reply :=
  match s.heavyBegin holder with
  | none => (s, .busy)
  | some s => (s.heavyRelease holder, .ok)

/-- The handler of a JSON command. -/
def jsonCommand (conn : ConnId) (line : List Byte) (answers : Answers) : JsonCommand → Pod × Reply
  | .capture => s.handleCapture conn line answers
  | .captureDual => s.handleCaptureDual conn line answers
  | .laCapture => s.handleLaCapture conn line answers
  | .captureRead => s.handleCaptureRead conn line answers
  | .stream => s.handleStream conn line answers
  | .measure => s.handleMeasure conn line answers
  | .test => s.handleTest conn line answers
  | .sensorRegs => s.handleSensorRegs conn line answers
  | .sensorLa => s.handleSensorLa conn line answers
  | .load => s.handleLoad conn line answers
  | .loadBin => s.handleLoadBin conn line answers
  | .replay => s.handleReplay conn line answers
  | .brief => s.briefCommand (.conn conn)
  | .rawMode proto => (if proto = .load then s else s.connProtoSet conn proto, .ok)

/-- The handler of a SCPI command. -/
def scpiCommand (conn : ConnId) (bytes : Mem) : ScpiCommand → Pod × Reply
  | .capture n got => s.scpiCapture conn n bytes got
  | .traceData offset text => s.scpiTraceData conn offset text
  | .outputUser armed => s.scpiOutputUser armed
  | .diagnostic data => (s.scratchCommand (.conn conn) data, .ok)
  | .reset => (s.scpiReset, .ok)

/-- `command_handler_conn_closed`, `transport_conn_closed` included. -/
def connClosed (conn : ConnId) (pass : Pass) : Pod :=
  let s := s.captureConnClosed pass conn
  let s := s.heavyRelease (.conn conn)
  let s := s.dacConnClosed conn
  s.connProtoSet conn .unknown

/-- What an event does, and what it sends at once. -/
def handle : Event → Pod × Option Reply
  | .json conn command line answers =>
    match s.speaks conn .json with
    | none => (s, none)
    | some s =>
      let after := s.jsonCommand conn line answers command
      (after.1, some after.2)
  | .scpi conn command bytes =>
    match s.speaks conn .scpi with
    | none => (s, none)
    | some s =>
      let after := s.scpiCommand conn bytes command
      (after.1, some after.2)
  | .console data => (s.scratchCommand .consoleText data, none)
  | .bytes conn now data written =>
    (if connRunsStateMachine conn ∧ s.proto conn = .load then s.loadBinReceive conn now data written
      else s, none)
  | .rawEnd conn proto => (if s.proto conn = .load ∨ proto = .load then s else s.connProtoSet conn proto, none)
  | .dacPoll holdNow loadNow => (s.dacPoll holdNow loadNow, none)
  | .capturePoll pass => (s.capturePoll pass, none)
  | .closed conn pass => (s.connClosed conn pass, none)
  | .reconfigured => (s.captureOnGatewareReconfigured, none)
  | .updates ota esp => ({ s with otaBusy := ota, espRomFlashBusy := esp }, none)
  | .psramWrite start data => ({ s with psram := s.psram.write start data }, none)

/-- The state an event leads to. -/
def step (event : Event) : Pod := (s.handle event).1

end Pod

/-- The worker's system, and the replies of its commands. -/
def worker : Emitter Pod Event Reply := ⟨Pod.step, fun s event => (s.handle event).2⟩

end Capture
end BenchPod
