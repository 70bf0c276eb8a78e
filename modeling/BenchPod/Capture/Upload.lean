import BenchPod.Capture.Handlers
import BenchPod.Library.B64url

/-!
# Uploads and replays

`load` and `load_bin` bring a waveform into the sample pool or the PSRAM and keep the heavy gate for
the replay that follows; `dac_poll` takes the gate back from uploads that stall and from finished
ones that nobody replays.
-/

namespace BenchPod.Capture

open Json Command

/-- `LOADED_HOLD_MS` in microseconds. -/
def loadedHoldUs : Nat := 120000000

/-- `LOAD_BIN_TIMEOUT_MS` in microseconds. -/
def loadBinTimeoutUs : Nat := 30000000

/-- `LOAD_BIN_REARM_BYTES` and `LOAD_BIN_ACK_INTERVAL`. -/
def loadBinStride : Nat := 8192

def fpgaPsramTotal : Nat := 0x800000

def fpgaDacReplayMaxSamples : Nat := 4194304

/-- The bytes `replay` can play out of the pool. -/
def replayCap : Nat := signalMaxSamples * 2

/-- The `psram` field of a `load_bin`: `true` or `1`. -/
def asksPsram (json : List Byte) : Bool :=
  match bpJsonGet json (cstr "psram") 8 with
  | some (c :: _) => c = ascii 't' || c = ascii 'T' || c = ascii '1'
  | _ => false

/-- The longest upload: what the PSRAM holds, or what `replay` can play out of the pool. -/
def loadBinCap (toPsram : Bool) : Nat := if toPsram then fpgaDacReplayMaxSamples * 2 else replayCap

namespace Pod

variable (s : Pod) (conn : ConnId) (json : List Byte) (answers : Answers)

/-- A finished upload that keeps the gate for its replay. -/
def holdLoaded (now : Nat) : Pod := { s with loadedHold := some (conn, now + loadedHoldUs) }

/-- `handle_load` once the gate is the connection's: one chunk into the pool. -/
def loadChunk (offset : Nat) (text : List Byte) : Pod × Reply :=
  if replayCap < offset then (s, .error (cstr "offset out of range"))
  else if replayCap < offset + (B64url.unpadded text).length * 3 / 4 then
    (s, .error (cstr "load: the trace would be longer than 4096 bytes (2048 samples, the DAC's " ++
      cstr "RAM replay limit); use load_bin with \"psram\":true for longer traces"))
  else
    let decoded := B64url.decode text (replayCap - offset)
    -- the groups before a bad symbol are already in the pool
    let s := { s with pool := s.pool.write offset decoded.1 }
    if decoded.2 = false then (s, .error (cstr "invalid data"))
    else
      let s := s.adcPoolTake
      let s := { s with
        replayLen := (offset + decoded.1.length) / 2
        jsonTraceGen := s.poolGen }
      (s.holdLoaded conn answers.now, .ok)

def handleLoad : Pod × Reply :=
  let offset := atoiSize ((bpJsonGet json (cstr "offset") 12).getD [])
  match bpJsonGet json (cstr "data") 240 with
  | none => (s, .error (cstr "missing data"))
  | some text =>
    if s.heavyInFlight then (s, .busy)
    else if offset = 0 then
      match s.heavyTryClaim (.conn conn) with
      | none => (s, .busy)
      | some s => Pod.loadChunk { s with replayLen := 0 } conn answers offset text
    else if s.heavyOwner ≠ some (.conn conn) then (s, .error (cstr "load not started"))
    else s.loadChunk conn answers offset text

/-- The destination of a `load_bin` upload is claimed: the PSRAM under its top, or the pool. -/
def loadBinPlace (total : Nat) (toPsram : Bool) : Pod :=
  if toPsram then
    { s with dacBase := if 18 ≤ answers.fabric.version then fpgaPsramTotal - total else 0x400000 }
  else
    let s := s.adcPoolTake
    { s with jsonTraceGen := s.poolGen }

def handleLoadBin : Pod × Reply :=
  if connRunsStateMachine conn = false then (s, .error (cstr "load_bin needs a stream connection"))
  else
    match bpJsonGet json (cstr "total") 12 with
    | none => (s, .error (cstr "missing total"))
    | some text =>
      let total := (strtoul text).toNat
      let toPsram := asksPsram json
      if total = 0 ∨ loadBinCap toPsram < total then
        (s, .error (cstr "total out of range"))
      else
        match s.heavyBegin (.conn conn) with
        | none => (s, .busy)
        | some s =>
          let upload : LoadBin :=
            { conn := some conn, total, psram := toPsram, deadline := answers.now + loadBinTimeoutUs }
          let s := s.loadBinPlace answers total toPsram
          let s := { s with
            psramStageLen := 0, loadBin := upload, replayLen := 0, replayInPsram := false }
          (s.connProtoSet conn .load, .ok)

def loadBinClear : Pod := { s with loadBin := {} }

/-- The bytes `load_bin_receive` takes, written where the upload goes and counted; `written` is how
many of them a PSRAM write gets through, which the source does not look at. -/
def loadBinStore (now : Nat) (data : List Byte) (written : Nat) : Pod :=
  let upload := s.loadBin
  let data := data.take (upload.total - upload.haveBytes)
  if data = [] then s
  else
    let s :=
      if upload.psram then
        { s with psram := s.psram.write (s.dacBase + upload.haveBytes) (data.take written) }
      else if upload.conn = none then s
      else { s with pool := s.pool.write upload.haveBytes data }
    let haveBytes := upload.haveBytes + data.length
    let upload := { upload with haveBytes }
    let upload :=
      if loadBinStride ≤ haveBytes - upload.rearmAt then
        { upload with deadline := now + loadBinTimeoutUs, rearmAt := haveBytes }
      else upload
    { s with loadBin := upload }

/-- The end of `load_bin_receive` for an upload that is complete. -/
def loadBinDone (now : Nat) : Pod :=
  let s := { s with
    replayLen := s.loadBin.total / 2
    replayInPsram := s.loadBin.psram
    psramStageLen := if s.loadBin.psram then s.loadBin.total else s.psramStageLen }
  let s := s.connProtoSet conn .json
  let s := s.holdLoaded conn now
  s.loadBinClear

/-- `load_bin_receive`, for bytes of a connection in the upload mode. -/
def loadBinReceive (now : Nat) (data : List Byte) (written : Nat) : Pod :=
  let s := s.loadBinStore now data written
  if s.loadBin.haveBytes < s.loadBin.total then s else s.loadBinDone conn now

/-- The samples a `replay` asks for. -/
def replaySamples : Nat :=
  match bpJsonGet json (cstr "samples") 16 with
  | some (c :: text) => (strtoul (c :: text)).toNat
  | _ => s.replayLen

/-- A RAM trace that the pool has given to someone else since is gone. -/
def dropLostTrace : Pod :=
  if s.replayInPsram = false ∧ s.adcPoolHolds s.jsonTraceGen = false then { s with replayLen := 0 } else s

/-- The bytes a replay of so many samples plays. -/
def replayBytes (samples : Nat) : List Byte :=
  if s.replayInPsram then s.psram.read s.dacBase (2 * samples) else s.pool.read 0 (2 * samples)

/-- The DAC takes so many samples from where the trace is. -/
def replayFits (samples : Nat) : Bool :=
  if s.replayInPsram then decide (samples ≤ fpgaDacReplayMaxSamples)
  else decide (samples * 2 ≤ signalBufSize)

def handleReplay : Pod × Reply :=
  let samples := s.replaySamples json
  let s := s.dropLostTrace
  if s.replayLen = 0 then (s, .error (cstr "nothing to replay"))
  else if samples = 0 ∨ s.replayLen < samples then (s, .error (cstr "samples out of range"))
  else
    match s.heavyBegin (.conn conn) with
    | none => (s, .busy)
    | some s =>
      let s := { s with loadedHold := s.loadedHold.filter (·.1 ≠ conn) }
      (s.heavyRelease (.conn conn),
        if answers.armed ∧ s.replayFits samples then .playing (s.replayBytes samples)
        else .error (cstr "replay failed"))

def dacConnClosed : Pod :=
  if connRunsStateMachine conn ∧ (s.proto conn = .load ∨ s.loadBin.conn = some conn) then s.loadBinClear
  else s

/-- The gate that a finished upload still holds, given back by `dac_poll`. -/
def pollLoadedHold (now : Nat) : Pod :=
  match s.loadedHold with
  | none => s
  | some (conn, until_) =>
    if now < until_ then s
    else
      let s := { s with loadedHold := none }
      if s.heavyOwner = some (.conn conn) ∧ s.heavyInFlight = false then
        let s := s.heavyRelease (.conn conn)
        if s.replayInPsram then s else { s with replayLen := 0 }
      else s

/-- The stalled upload that `dac_poll` gives up on. -/
def pollLoadBin (now : Nat) : Pod :=
  match s.loadBin.conn with
  | none => s
  | some conn =>
    if now < s.loadBin.deadline then s
    else
      let s := if connRunsStateMachine conn ∧ s.proto conn = .load then s.connProtoSet conn .json else s
      (s.heavyRelease (.conn conn)).loadBinClear

/-- `dac_poll`; it reads the clock for each of its two deadlines. -/
def dacPoll (holdNow loadNow : Nat) : Pod := (s.pollLoadedHold holdNow).pollLoadBin loadNow

end Pod
end BenchPod.Capture
