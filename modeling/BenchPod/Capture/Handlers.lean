import BenchPod.Capture.Trigger

/-!
# The capture commands

Every handler checks its request, claims the heavy gate, and either starts an asynchronous capture
or hands a read-back to the poll.
-/

namespace BenchPod.Capture

open Json Command

/-- What the hardware and the rest of the firmware answer while one command runs. -/
structure Answers where
  now : Nat := 0
  fabric : Fabric := ⟨50, true, true⟩
  /-- The capture, measure, register read or replay starts. -/
  armed : Bool := true
  /-- A logic-analyzer voltage is set. -/
  laVoltage : Bool := true
  /-- `signal_engine_la_max_samples(false)`. -/
  laMax : Nat := 4194304
  /-- What `psram_plan` or the region limits object to. -/
  planRefuses : Option (List Byte) := none
  /-- The divisor of a change capture, 0 for a raw one. -/
  chgK : Nat := 0
  /-- Achieved rates. -/
  adcHz : Nat := 0
  laHz : Nat := 0
  /-- `psram_regions_stale`. -/
  stale : Option (List Byte) := none
  sensorActive : Bool := true
  /-- The bytes a register read, a sine pattern or a capture delivers. -/
  bytes : Mem := fun _ => 0

def signalBufSize : Nat := 4096

def signalMaxSamples : Nat := 2048

def adcMonoBufSamples : Nat := 32768

/-- `ADC_POOL_TRACE_BYTES`, where the scratch region starts. -/
def adcPoolTraceBytes : Nat := 8192

/-- `(size_t)atoi(s)`. -/
def atoiSize (s : List Byte) : Nat := (BitVec.ofInt 32 (strtol s).1).toNat

/-- An optional count of a request, in a buffer of `cap` bytes. -/
def sizeField (json : List Byte) (key : String) (cap dflt : Nat) : Nat :=
  match bpJsonGet json (cstr key) cap with
  | some (c :: s) => atoiSize (c :: s)
  | _ => dflt

def wantsB64 (json : List Byte) : Bool := bpJsonGet json (cstr "enc") 8 = some (cstr "b64")

/-- `stop_dac_armed`: a DAC stop is asked for, and the gateware can do it. -/
def stopDacArmed (json : List Byte) (fabric : Fabric) : Bool :=
  match bpJsonGet json (cstr "stop_dac_after_us") 16 with
  | some (c :: s) => strtoul (c :: s) ≠ 0 && 21 ≤ fabric.version
  | _ => false

namespace Pod

variable (s : Pod) (conn : ConnId) (json : List Byte) (answers : Answers)

def dacTraceNoteCapture (samples : Nat) : Pod :=
  let s := s.adcPoolTake
  { s with replayLen := samples, jsonTraceGen := s.poolGen }

/-- The end of the three captures that take a trigger: program it, claim the gate, arm.  `start` is
what the handler keeps once the capture is armed. -/
def armTriggered (allowPre : Bool) (failed : List Byte) (start : LaTrigger → Pod → Pod) : Pod × Reply :=
  match s.captureTriggerBegin answers.fabric json allowPre with
  | (s, .error text) => (s, .error text)
  | (s, .ok trig) =>
    match s.heavyBegin (.conn conn) with
    | none => (s.captureTriggerCancel answers.fabric trig, .busy)
    | some s =>
      if answers.armed = false then
        ((s.heavyRelease (.conn conn)).captureTriggerCancel answers.fabric trig, .error failed)
      else
        let s := s.captureTriggerArmed answers.now conn trig
        (start trig { s with lastCap := { s.lastCap with valid := false } }, .later)

def handleCapture : Pod × Reply :=
  let samples := sizeField json "samples" 16 256
  if samples = 0 ∨ adcMonoBufSamples < samples then
    (s, .error (cstr "samples out of range (use capture_dual for deep captures)"))
  else
    s.armTriggered conn json answers false (cstr "capture failed") fun _ s =>
      Pod.dacTraceNoteCapture { s with v2cap := some ⟨conn, samples, false, wantsB64 json⟩ } samples

def handleCaptureDual : Pod × Reply :=
  let adcN := sizeField json "adc_samples" 16 0
  let laN := sizeField json "la_samples" 16 0
  if adcN = 0 ∧ laN = 0 then (s, .error (cstr "adc_samples and la_samples are both 0"))
  else
    match answers.planRefuses with
    | some text => (s, .error text)
    | none =>
      let capture : Dualcap :=
        ⟨conn, adcN, laN, answers.adcHz, answers.laHz, stopDacArmed json answers.fabric, wantsB64 json, answers.chgK⟩
      s.armTriggered conn json answers false (cstr "capture failed") fun _ s => { s with dualcap := some capture }

def handleLaCapture : Pod × Reply :=
  let samples := sizeField json "samples" 16 256
  if answers.laVoltage = false then
    (s, .error (cstr "la voltage not set; set it with la_voltage (mv 1800 or 3300) first"))
  else if samples = 0 ∨ answers.laMax < samples then (s, .error (cstr "samples out of range"))
  else
    let capture (trig : LaTrigger) : Lacap :=
      ⟨conn, samples * 2, stopDacArmed json answers.fabric, answers.laHz, answers.chgK,
        if trig.present then trig.preSamples else 0⟩
    s.armTriggered conn json answers true (cstr "la capture failed") fun trig s =>
      { s with lacap := some (capture trig) }

/-- What `stream` and `measure` do after their checks. -/
def armPlain (samples : Nat) (stopDac : Bool) (failed : List Byte) : Pod × Reply :=
  match s.heavyBegin (.conn conn) with
  | none => (s, .busy)
  | some s =>
    if answers.armed = false then (s.heavyRelease (.conn conn), .error failed)
    else
      let capture : V2cap := ⟨conn, samples, stopDac, wantsB64 json⟩
      (Pod.dacTraceNoteCapture
        { s with lastCap := { s.lastCap with valid := false }, v2cap := some capture } samples, .later)

def handleStream : Pod × Reply :=
  let samples := sizeField json "samples" 16 256
  if samples = 0 ∨ adcMonoBufSamples < samples then
    (s, .error (cstr "samples out of range (use capture_dual for deep captures)"))
  else s.armPlain conn json answers samples false (cstr "capture failed")

def handleMeasure : Pod × Reply :=
  let waveform := (bpJsonGet json (cstr "waveform") 16).getD []
  let samples := sizeField json "samples" 16 256
  if waveform = [] then (s, .error (cstr "missing waveform"))
  else if waveform ≠ cstr "sine" ∧ waveform ≠ cstr "square" ∧ waveform ≠ cstr "sawtooth" then
    (s, .error (cstr "unknown waveform (use sine, square or sawtooth)"))
  else if samples = 0 ∨ signalMaxSamples < samples then (s, .error (cstr "samples out of range"))
  else s.armPlain conn json answers samples true (cstr "measure start failed")

/-- The samples of a `test` pattern; the sine's come from the floating-point library. -/
def testPattern (pattern value : List Byte) (samples : Nat) (sine : Mem) : Option (List Byte) :=
  let fill (sample : Nat → Nat) : List Byte := (List.range samples).flatMap fun i => Endian.leBytes 2 (sample i)
  if pattern = cstr "const" then
    some (fill fun _ => if value = [] then 65535 else atoiSize value)
  else if pattern = cstr "counter" then some (fill fun i => i)
  else if pattern = cstr "ramp" then some (fill fun i => i * 65535 / (samples - 1))
  else if pattern = cstr "sine" then some (sine.read 0 (2 * samples))
  else none

def handleTest : Pod × Reply :=
  let pattern := (bpJsonGet json (cstr "pattern") 16).getD []
  let value := (bpJsonGet json (cstr "value") 8).getD []
  let samples := sizeField json "samples" 16 256
  if samples = 0 ∨ signalBufSize < samples then (s, .error (cstr "samples out of range"))
  else
    let pattern :=
      if pattern = [] then (if value = [] then cstr "sine" else cstr "const") else pattern
    match s.heavyBegin (.conn conn) with
    | none => (s, .busy)
    | some s =>
      match testPattern pattern value samples answers.bytes with
      | none => (s.heavyRelease (.conn conn), .error (cstr "unknown pattern (use sine|counter|ramp|const)"))
      | some data =>
        let bulk : Bulk := { connId := conn, total := samples, is16 := true, b64 := wantsB64 json }
        (Pod.bulkStart { s with pool := s.pool.write 0 data } bulk, .later)

/-- A read of bytes into the pool's scratch region, then their read-back. -/
def readScratch (count : Nat) (failed : List Byte) : Pod × Reply :=
  match s.heavyBegin (.conn conn) with
  | none => (s, .busy)
  | some s =>
    let s := { s with pool := s.pool.write adcPoolTraceBytes (answers.bytes.read 0 count) }
    if answers.armed = false then (s.heavyRelease (.conn conn), .error failed)
    else (s.bulkStart { connId := conn, total := count, is16 := false }, .later)

def handleSensorRegs : Pod × Reply :=
  let start :=
    match bpJsonGet json (cstr "start") 8 with
    | some (c :: text) => (BitVec.ofInt 8 (strtol0 (c :: text))).toNat
    | _ => 0
  let len := sizeField json "len" 8 256
  if answers.sensorActive = false then (s, .error (cstr "no sensor active"))
  else if len = 0 ∨ 256 < (start + len) % 4294967296 then (s, .error (cstr "start/len out of range"))
  else s.readScratch conn answers len (cstr "read regs failed")

def handleSensorLa : Pod × Reply :=
  let bytes := sizeField json "samples" 16 256
  if bytes = 0 ∨ signalBufSize < bytes then (s, .error (cstr "samples out of range"))
  else s.readScratch conn answers bytes (cstr "la capture failed")

/-- `bulk_begin_capture16_resume`. -/
def bulkResume (offset : Nat) (b64 : Bool) : Pod :=
  let bulk : Bulk :=
    { connId := conn, total := s.lastCap.adcSamples + s.lastCap.laSamples, sent := offset, is16 := true,
      fromPsram := true, adcSamples := s.lastCap.adcSamples, adcRateHz := s.lastCap.adcRateHz,
      laRateHz := s.lastCap.laRateHz, b64 }
  { s with bulk := some bulk }

def handleCaptureRead : Pod × Reply :=
  let offset := sizeField json "offset" 16 0
  let total := s.lastCap.adcSamples + s.lastCap.laSamples
  if s.lastCap.valid = false then (s, .error (cstr "no capture to resume (run capture_dual first)"))
  else
    match answers.stale with
    | some why => (s, .error (cstr "capture data was overwritten by " ++ why ++ cstr "; run the capture again"))
    | none =>
      if total < offset then (s, .error (cstr "offset out of range"))
      else
        match s.heavyBegin (.conn conn) with
        | none => (s, .busy)
        | some s =>
          if offset = total then (s.heavyRelease (.conn conn), .ok)
          else (s.bulkResume conn offset (wantsB64 json), .later)

end Pod
end BenchPod.Capture
