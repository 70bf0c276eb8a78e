import BenchPod.Capture.Readback
import BenchPod.Library.Region

/-!
# Where captures go in the PSRAM

`signal_engine.c` keeps the bases of the two capture regions and of the staged waveform,
`psram_alloc.c` packs a capture of both, `psram_regions.c` remembers what the last capture wrote, and
`capture_read` streams it again.  What is missing here of the handlers, their requests and their
gate, is in the other modules: an event carries the request as it was parsed and says whether the
gate could be claimed.
-/

namespace BenchPod.Capture

open Json

/-- Samples as `uint32_t` bytes. -/
def sampleBytes (samples : Nat) : Nat := samples * 2 % 4294967296

/-- `FPGA_PSRAM_TOTAL`, which is also `FPGA_PSRAM_DAC_TOP`. -/
def psramTotal : Nat := 0x800000

def fpgaPsramAdcBase : Nat := 0x400000

def psramUsableBytes : Nat := 0x7ff000

def psramSustainedBps : Nat := 20000000

/-- `ADC_CAP_MAX_SAMPLES` and `LA_PSRAM_MAX_SAMPLES`. -/
def capMaxSamples : Nat := 2097152

/-- `FPGA_DAC_REPLAY_MAX_SAMPLES`. -/
def dacReplayMaxSamples : Nat := 4194304

def laChangePreBytes : Nat := 49152

/-- The longest change capture, in units of 256 ticks. -/
def laChangeMaxUnits : Nat := 0xffffff

/-- The units of a change capture of so many samples. -/
def laChangeUnits (samples k : Nat) : Nat := (samples * k + 255) / 256

def capNowriteSentinel : List Byte := [0xad, 0xde, 0xef, 0xbe, 0xfe, 0xca, 0x0d, 0xf0]

/-- `psram_regions.c`. -/
structure PsramRegions where
  tracked : List Region := []
  stale : Option (List Byte) := none
  deriving DecidableEq

namespace PsramRegions

variable (regions : PsramRegions)

/-- `psram_regions_track`. -/
def track (first second : Region) : PsramRegions := ⟨[first, second].filter (·.len ≠ 0), none⟩

/-- `psram_regions_dirty`; the first reason stays. -/
def dirty (written : Region) (why : List Byte) : PsramRegions :=
  if regions.stale.isSome then regions
  else if regions.tracked.any (fun region => decide ¬written.Apart region) then
    { regions with stale := some why }
  else regions

/-- `psram_regions_dirty_all`. -/
def dirtyAll (why : List Byte) : PsramRegions :=
  if regions.tracked ≠ [] ∧ regions.stale = none then { regions with stale := some why } else regions

end PsramRegions

/-- The regions that an armed capture writes. -/
structure Arm where
  adc : Region
  la : Region
  deriving DecidableEq

/-- How a capture ends: in the pool, in a command that waited for it, as words in the PSRAM, or as
changes there. -/
inductive FlightKind
  | pool
  | waited
  | words
  | changes
  deriving DecidableEq

/-- A capture that is armed. -/
structure Flight where
  kind : FlightKind
  arm : Arm
  adcSamples : Nat := 0
  laSamples : Nat := 0
  adcRateHz : Nat := 0
  laRateHz : Nat := 0
  deriving DecidableEq

/-- The read-back: of words in the PSRAM from the sample `start` on, with what it has sent, or of
anything else. -/
inductive ReadBack
  | words (total adcSamples start sent : Nat) (streamed : List Byte)
  | other
  deriving DecidableEq

/-- Where the last capture of words was written, and what it left there. -/
structure Recorded where
  arm : Arm := ⟨⟨0, 0⟩, ⟨0, 0⟩⟩
  adc : List Byte := []
  la : List Byte := []
  deriving DecidableEq

/-- The state behind the placement of captures. -/
structure Zones where
  /-- `s_fpga_version`. -/
  version : Nat := 50
  laBase : Nat := 0
  adcBase : Nat := fpgaPsramAdcBase
  dacBase : Nat := psramTotal
  dacActive : Bool := false
  /-- Bytes of a whole trace in the PSRAM that `replay` would play. -/
  staged : Nat := 0
  /-- The waveform that the fabric plays out of the PSRAM. -/
  playing : Option Region := none
  regions : PsramRegions := {}
  lastCap : LastCap := {}
  flight : Option Flight := none
  readBack : Option ReadBack := none
  /-- Bytes of a raw upload into the PSRAM, in all and so far. -/
  upload : Option (Nat × Nat) := none
  /-- An update is staged or the ESP32-C3 is flashed. -/
  updating : Bool := false
  mem : Mem := fun _ => 0
  recorded : Recorded := {}

namespace Zones

variable (z : Zones)

def psramWrite (addr : Nat) (data : List Byte) : Zones :=
  { z with
    regions := z.regions.dirty ⟨addr, data.length⟩ (cstr "a PSRAM write by the firmware")
    mem := Ring.pour psramTotal z.mem addr data }

def psramRead (addr count : Nat) : List Byte := Ring.read psramTotal z.mem addr count

/-- `fpga_set_capture_bases`; `none` when the write does not go through.  Old gateware has no such
command, and the map stays fixed. -/
def fpgaSetCaptureBases (written : Bool) (laBase adcBase : Nat) : Option Zones :=
  if 22 ≤ z.version ∧ written = false then none else some { z with laBase, adcBase }

def captureRegionsDirty (adcSamples laSamples : Nat) : Zones :=
  let why := cstr "another capture"
  { z with
    regions := (z.regions.dirty ⟨z.adcBase, sampleBytes adcSamples⟩ why).dirty
      ⟨z.laBase, sampleBytes laSamples⟩ why }

/-- `signal_engine_dac_resident_bytes`. -/
def dacResidentBytes : Nat := if z.dacActive then psramTotal - z.dacBase else 0

/-- The first address that a capture may not reach. -/
def ceiling (top : Nat) : Nat := if z.dacActive then min z.dacBase top else top

/-- `signal_engine_la_max_samples`. -/
def laMaxSamples (adcInCapture : Bool) : Nat := z.ceiling (if adcInCapture then fpgaPsramAdcBase else psramTotal) / 2

/-- `signal_engine_adc_max_samples`. -/
def adcMaxSamples : Nat := (z.ceiling psramTotal - fpgaPsramAdcBase) / 2

/-- `signal_engine_dac_psram_stage`. -/
def dacPsramStage (total : Nat) : Zones :=
  { z with dacBase := if 18 ≤ z.version then psramTotal - total else fpgaPsramAdcBase }

/-- What a capture of the samples writes at the bases in force. -/
def armAt (adcSamples laSamples : Nat) : Arm := ⟨⟨z.adcBase, 2 * adcSamples⟩, ⟨z.laBase, 2 * laSamples⟩⟩

def fpgaCaptureCmd (adcSamples laSamples : Nat) : Zones × Option Arm :=
  (z.captureRegionsDirty adcSamples laSamples, some (z.armAt adcSamples laSamples))

def adcCapturePsramStart (samples : Nat) : Zones × Option Arm :=
  if samples = 0 ∨ capMaxSamples < samples then (z, none)
  else
    let z := z.captureRegionsDirty samples 0
    let z := z.psramWrite z.adcBase capNowriteSentinel
    z.fpgaCaptureCmd samples 0

/-- `measure_psram_start`, with a frequency above 0 and a known waveform.  The waveform it loads into
the RAM of the DAC ends a replay out of the PSRAM. -/
def measurePsramStart (samples : Nat) : Zones × Option Arm :=
  if samples = 0 ∨ 2048 < samples then (z, none)
  else
    let z := { z with playing := none }
    z.fpgaCaptureCmd samples 0

def fpgaLaCapturePsramStart (samples : Nat) : Zones × Option Arm :=
  if samples = 0 ∨ z.laMaxSamples false < samples then (z, none) else z.fpgaCaptureCmd 0 samples

/-- The writes of `fpga_la_change_start` that go through: of the bases, of the arm, and of the bases
again. -/
structure LaChangeWrites where
  bases : Bool := true
  arm : Bool := true
  restore : Bool := true

/-- `fpga_la_change_start`: the stream may fill everything below the ceiling. -/
def fpgaLaChangeStart (samples k : Nat) (pre : Bool) (writes : LaChangeWrites) : Zones × Option Arm :=
  let laMax := z.laMaxSamples false
  let units := laChangeUnits samples k
  let region := laMax * 2
  if z.version < 50 ∨ k = 0 ∨ samples = 0 ∨ laMax < samples ∨ units = 0 ∨ laChangeMaxUnits < units then
    (z, none)
  else if pre ∧ region ≤ laChangePreBytes + 4096 then (z, none)
  else
    let limit := if pre then region - laChangePreBytes else region
    let dirty := z.captureRegionsDirty 0 laMax
    match dirty.fpgaSetCaptureBases writes.bases z.laBase limit with
    | none => (dirty, none)
    | some moved =>
      -- latched by the arm: the map is restored, even when the arm failed
      match moved.fpgaSetCaptureBases writes.restore z.laBase z.adcBase with
      | none => (moved, none)
      | some restored => (restored, if writes.arm then some ⟨⟨z.adcBase, 0⟩, ⟨z.laBase, region⟩⟩ else none)

def fpgaDualCaptureStart (adcSamples laSamples : Nat) : Zones × Option Arm :=
  if adcSamples = 0 ∧ laSamples = 0 then (z, none)
  else if capMaxSamples < adcSamples ∨ capMaxSamples < laSamples then (z, none)
  else
    let z := z.captureRegionsDirty adcSamples laSamples
    let z := if adcSamples = 0 then z else z.psramWrite z.adcBase capNowriteSentinel
    z.fpgaCaptureCmd adcSamples laSamples

/-- `fpga_dual_change_start`: the stream may fill everything below the ADC. -/
def fpgaDualChangeStart (adcSamples laSamples k : Nat) (armWritten : Bool) : Zones × Option Arm :=
  let units := laChangeUnits laSamples k
  if z.version < 50 ∨ k = 0 ∨ laSamples = 0 then (z, none)
  else if capMaxSamples < adcSamples then (z, none)
  else if units = 0 ∨ laChangeMaxUnits < units then (z, none)
  else
    let arm : Arm := ⟨⟨z.adcBase, 2 * adcSamples⟩, ⟨z.laBase, z.adcBase - z.laBase⟩⟩
    let z := z.captureRegionsDirty adcSamples ((z.adcBase - z.laBase) / 2)
    let z := if adcSamples = 0 then z else z.psramWrite z.adcBase capNowriteSentinel
    (z, if armWritten then some arm else none)

/-- `dac_replay_psram`: the DAC is stopped before. -/
def dacReplayPsram (count : Nat) (stopped : Bool) : Zones :=
  if count = 0 ∨ dacReplayMaxSamples < count ∨ stopped = false then z
  else { z with playing := some ⟨z.dacBase, 2 * count⟩, dacActive := decide (18 ≤ z.version) }

def dacStop : Zones := { z with dacActive := false, playing := none }

end Zones

/-- A `capture_dual` as it was parsed; a divisor above 0 asks for a change capture. -/
structure DualRequest where
  adcSamples : Nat := 0
  laSamples : Nat := 0
  adcHz : Nat := 0
  laHz : Nat := 0
  divisor : Nat := 0
  deriving DecidableEq

namespace Zones

variable (z : Zones) (request : DualRequest)

/-- The divisor of the change capture, 0 for a raw one. -/
def chgK : Nat := if request.laSamples = 0 ∨ z.version < 50 then 0 else request.divisor

/-- `psram_plan`: the base of the ADC, packed behind the logic analyzer, or what it objects to. -/
def psramPlan : Except (List Byte) Nat :=
  let laLen := sampleBytes request.laSamples
  let adcLen := sampleBytes request.adcSamples
  let dacHz := if z.dacResidentBytes = 0 then 0 else 889000
  let laHz := if z.chgK request = 0 then request.laHz else 0
  if psramUsableBytes < laLen + adcLen + z.dacResidentBytes then
    .error (cstr "capture too deep: LA+ADC+DAC exceed 8 MB PSRAM")
  else if psramSustainedBps < (laHz + request.adcHz + dacHz) * 2 then
    .error (cstr "combined sample rate exceeds PSRAM bus bandwidth")
  else .ok laLen

/-- The top of a multiple of 64 bytes below the waveform, with room for the ADC. -/
def changeTop : Nat :=
  let room := psramTotal - z.dacResidentBytes - sampleBytes request.adcSamples
  room - room % 64

/-- The zone allocation of `handle_capture_dual`: the base of the ADC. -/
def dualZones : Except (List Byte) Nat :=
  if 22 ≤ z.version then
    match z.psramPlan request with
    | .error text => .error text
    | .ok packed => .ok (if z.chgK request = 0 then packed else max packed (z.changeTop request))
  else if z.adcMaxSamples < request.adcSamples ∨ z.laMaxSamples true < request.laSamples then
    .error (cstr "samples out of range (per-stream PSRAM region limit)")
  else .ok fpgaPsramAdcBase

/-- `fpga_dual_change_start` or `fpga_dual_capture_start_hz`. -/
def dualStart (armWritten : Bool) : Zones × Option Arm :=
  if z.chgK request = 0 then z.fpgaDualCaptureStart request.adcSamples request.laSamples
  else z.fpgaDualChangeStart request.adcSamples request.laSamples (z.chgK request) armWritten

/-- `heavy_begin`: nothing is in flight, and the gate can be claimed. -/
def heavyBegin (claimed : Bool) : Bool := claimed && z.flight.isNone && z.readBack.isNone && !z.updating

/-- A capture that is armed writes over the last one. -/
def fly (flight : Flight) : Zones :=
  { z with lastCap := { z.lastCap with valid := false }, flight := some flight }

/-- `handle_capture_dual` once the request is checked. -/
def handleCaptureDual (claimed basesWritten armWritten : Bool) : Zones × Reply :=
  if request.adcSamples = 0 ∧ request.laSamples = 0 then
    (z, .error (cstr "adc_samples and la_samples are both 0"))
  else
    match z.dualZones request with
    | .error text => (z, .error text)
    | .ok adcBase =>
      if z.heavyBegin claimed = false then (z, .busy)
      else
        -- whether the bases are set is not looked at
        let z := (z.fpgaSetCaptureBases basesWritten 0 adcBase).getD z
        match z.dualStart request armWritten with
        | (z, none) => (z, .error (cstr "capture failed"))
        | (z, some arm) =>
          let flight : Flight :=
            { kind := if z.chgK request = 0 then .words else .changes, arm
              adcSamples := request.adcSamples, laSamples := request.laSamples
              adcRateHz := request.adcHz, laRateHz := request.laHz }
          (z.fly flight, .later)

/-- `handle_la_capture` with its divisor; a window before the trigger is part of a change capture. -/
def handleLaCapture (samples divisor rateHz : Nat) (pre claimed : Bool) (writes : LaChangeWrites) :
    Zones × Reply :=
  if samples = 0 ∨ z.laMaxSamples false < samples then (z, .error (cstr "samples out of range"))
  else if z.heavyBegin claimed = false then (z, .busy)
  else
    let k := if z.version < 50 then 0 else divisor
    let started := if k = 0 then z.fpgaLaCapturePsramStart samples else z.fpgaLaChangeStart samples k pre writes
    match started with
    | (z, none) => (z, .error (cstr "la capture failed"))
    | (z, some arm) =>
      (z.fly { kind := if k = 0 then .words else .changes, arm, laSamples := samples, laRateHz := rateHz }, .later)

/-- `handle_capture` and `handle_stream`. -/
def handleCapture (samples : Nat) (claimed : Bool) : Zones × Reply :=
  if samples = 0 ∨ 32768 < samples then
    (z, .error (cstr "samples out of range (use capture_dual for deep captures)"))
  else if z.heavyBegin claimed = false then (z, .busy)
  else
    match z.adcCapturePsramStart samples with
    | (z, none) => (z, .error (cstr "capture failed"))
    | (z, some arm) => (z.fly { kind := .pool, arm }, .later)

def handleMeasure (samples : Nat) (claimed : Bool) : Zones × Reply :=
  if samples = 0 ∨ 2048 < samples then (z, .error (cstr "samples out of range"))
  else if z.heavyBegin claimed = false then (z, .busy)
  else
    match z.measurePsramStart samples with
    | (z, none) => (z, .error (cstr "measure start failed"))
    | (z, some arm) => (z.fly { kind := .pool, arm }, .later)

/-- The captures that SCPI and the console wait for; they know nothing of `last_cap`. -/
inductive Waited
  | adc (samples : Nat)
  | la (samples : Nat)
  | both (adcSamples laSamples : Nat)
  deriving DecidableEq

/-- The start of a capture that is waited for. -/
def waitedStart : Waited → Zones × Option Arm
  | .adc samples => z.adcCapturePsramStart samples
  | .la samples => z.fpgaLaCapturePsramStart samples
  | .both adcSamples laSamples => z.fpgaDualCaptureStart adcSamples laSamples

/-- `READ?`, `DIAGnostic:CAPture?`, `adc`, `sensor_la` and the console's captures. -/
def waitedCapture (waited : Waited) (claimed : Bool) : Zones × Reply :=
  if z.heavyBegin claimed = false then (z, .busy)
  else
    match z.waitedStart waited with
    | (z, none) => (z, .error (cstr "capture failed"))
    | (z, some arm) => ({ z with flight := some { kind := .waited, arm } }, .later)

/-- `handle_replay` of a trace in the PSRAM. -/
def handleReplay (samples : Nat) (claimed stopped : Bool) : Zones × Reply :=
  if z.staged = 0 then (z, .error (cstr "nothing to replay"))
  else if samples = 0 ∨ z.staged / 2 < samples then (z, .error (cstr "samples out of range"))
  else if z.heavyBegin claimed = false then (z, .busy)
  else (z.dacReplayPsram samples stopped, .ok)

/-- `handle_load_bin` into the PSRAM. -/
def handleLoadBin (total : Nat) (claimed : Bool) : Zones × Reply :=
  if total = 0 ∨ dacReplayMaxSamples * 2 < total then (z, .error (cstr "total out of range"))
  else if z.heavyBegin claimed = false then (z, .busy)
  else
    let z := z.dacPsramStage total
    ({ z with
        regions := z.regions.dirty ⟨z.dacBase, total⟩ (cstr "a load_bin psram upload")
        staged := 0
        upload := some (total, 0) }, .ok)

/-- `load_bin_receive` for an upload into the PSRAM. -/
def loadBinReceive (data : List Byte) : Zones :=
  match z.upload with
  | none => z
  | some (total, have_) =>
    let data := data.take (total - have_)
    let z := z.psramWrite (z.dacBase + have_) data
    if total ≤ have_ + data.length then { z with staged := total / 2 * 2, upload := none }
    else { z with upload := some (total, have_ + data.length) }

/-- The samples of a finished capture become the ones `capture_read` resumes. -/
def keep (flight : Flight) : Zones :=
  let adcBytes := sampleBytes flight.adcSamples
  let laBytes := sampleBytes flight.laSamples
  { z with
    lastCap := ⟨true, flight.adcSamples, flight.laSamples, flight.adcRateHz, flight.laRateHz⟩
    regions := PsramRegions.track ⟨z.adcBase, adcBytes⟩ ⟨z.laBase, laBytes⟩
    readBack := some (.words (flight.adcSamples + flight.laSamples) flight.adcSamples 0 0 [])
    recorded :=
      { arm := flight.arm
        adc := z.psramRead flight.arm.adc.base flight.arm.adc.len
        la := z.psramRead flight.arm.la.base flight.arm.la.len } }

/-- The capture in flight is over; one that fails, or whose sentinel survives, leaves nothing. -/
def finish (done : Bool) : Zones :=
  match z.flight with
  | none => z
  | some flight =>
    let z := { z with flight := none }
    if done = false then z
    else
      match flight.kind with
      | .waited => z
      | .pool => { z with readBack := some .other }
      | .changes => { z with lastCap := { z.lastCap with valid := false }, readBack := some .other }
      | .words => z.keep flight

def handleCaptureRead (offset : Nat) (claimed : Bool) : Zones × Reply :=
  let total := z.lastCap.adcSamples + z.lastCap.laSamples
  if z.lastCap.valid = false then (z, .error (cstr "no capture to resume (run capture_dual first)"))
  else
    match z.regions.stale with
    | some why => (z, .error (cstr "capture data was overwritten by " ++ why ++ cstr "; run the capture again"))
    | none =>
      if total < offset then (z, .error (cstr "offset out of range"))
      else if z.heavyBegin claimed = false then (z, .busy)
      else if offset = total then (z, .ok)
      else ({ z with readBack := some (.words total z.lastCap.adcSamples offset offset []) }, .later)

/-- `fpga_capture_psram_read16`, as bytes. -/
def fpgaCapturePsramRead16 (index count adcSamples : Nat) : List Byte :=
  let addr := if index < adcSamples then z.adcBase + index * 2 else z.laBase + (index - adcSamples) * 2
  z.psramRead addr (count * 2)

/-- The samples of the next chunk, which does not straddle the two regions. -/
def chunkSize (total adcSamples sent room : Nat) : Nat :=
  let size := min (min (total - sent) chunkSamples) room
  if sent < adcSamples ∧ adcSamples < sent + size then adcSamples - sent else size

/-- `bulk_pump` sends a chunk of what there is room for; `none` is the end of the read-back. -/
def bulkPump (room : Option Nat) : Zones :=
  match z.readBack, room with
  | some (.words total adcSamples start sent streamed), some room =>
    let size := chunkSize total adcSamples sent room
    let chunk := z.fpgaCapturePsramRead16 sent size adcSamples
    { z with readBack := some (.words total adcSamples start (sent + size) (streamed ++ chunk)) }
  | some .other, some _ => z
  | none, _ => z
  | _, none => { z with readBack := none }

/-- `signal_engine_on_gateware_reconfigured` and `command_handler_on_gateware_reconfigured`. -/
def onGatewareReconfigured (version : Nat) : Zones :=
  { z with
    version
    laBase := 0
    adcBase := fpgaPsramAdcBase
    dacActive := false
    dacBase := psramTotal
    playing := none
    regions := z.regions.dirtyAll (cstr "a gateware reload") }

end Zones

/-- What happens to the zones. -/
inductive ZoneEvent
  | capture (samples : Nat) (claimed : Bool)
  | measure (samples : Nat) (claimed : Bool)
  | waited (waited : Zones.Waited) (claimed : Bool)
  | captureDual (request : DualRequest) (claimed basesWritten armWritten : Bool)
  | laCapture (samples divisor rateHz : Nat) (pre claimed : Bool) (writes : Zones.LaChangeWrites)
  | replay (samples : Nat) (claimed stopped : Bool)
  | dacStop
  | loadBin (total : Nat) (claimed : Bool)
  | loadBytes (data : List Byte)
  /-- An upload is given up. -/
  | loadAborted
  /-- The fabric stores a byte of the capture in flight. -/
  | stored (adc : Bool) (offset : Nat) (byte : Byte)
  | finish (done : Bool)
  | captureRead (offset : Nat) (claimed : Bool)
  | bulkPump (room : Option Nat)
  /-- The connection of the capture or the read-back closes. -/
  | closed
  /-- An update starts, where nothing is in flight, or ends. -/
  | update (starts claimed : Bool)
  /-- The firmware writes the PSRAM: staging an update, or in a test under the gate. -/
  | firmwareWrite (addr : Nat) (data : List Byte) (claimed : Bool)
  | reconfigured (version : Nat) (claimed : Bool)

namespace Zones

variable (z : Zones)

/-- The firmware has the PSRAM to itself. -/
def quiet (claimed : Bool) : Bool := z.heavyBegin claimed || (z.updating && z.flight.isNone && z.readBack.isNone)

/-- What an event does, and what it replies at once. -/
def handle : ZoneEvent → Zones × Option Reply
  | .capture samples claimed => (z.handleCapture samples claimed).map id some
  | .measure samples claimed => (z.handleMeasure samples claimed).map id some
  | .waited waited claimed => (z.waitedCapture waited claimed).map id some
  | .captureDual request claimed bases arm => (z.handleCaptureDual request claimed bases arm).map id some
  | .laCapture samples divisor rateHz pre claimed writes =>
    (z.handleLaCapture samples divisor rateHz pre claimed writes).map id some
  | .replay samples claimed stopped => (z.handleReplay samples claimed stopped).map id some
  | .dacStop => (z.dacStop, none)
  | .loadBin total claimed => (z.handleLoadBin total claimed).map id some
  | .loadBytes data => (z.loadBinReceive data, none)
  | .loadAborted => ({ z with upload := none }, none)
  | .stored adc offset byte =>
    match z.flight with
    | none => (z, none)
    | some flight =>
      let region := if adc then flight.arm.adc else flight.arm.la
      if offset < region.len then
        ({ z with mem := Ring.put psramTotal z.mem (region.base + offset) byte }, none)
      else (z, none)
  | .finish done => (z.finish done, none)
  | .captureRead offset claimed => (z.handleCaptureRead offset claimed).map id some
  | .bulkPump room => (z.bulkPump room, none)
  | .closed => ({ z with flight := none, readBack := none }, none)
  | .update starts claimed =>
    (if starts then { z with updating := z.updating || z.heavyBegin claimed }
      else { z with updating := false }, none)
  | .firmwareWrite addr data claimed =>
    (if z.quiet claimed ∧ addr + data.length ≤ psramTotal then z.psramWrite addr data else z, none)
  | .reconfigured version claimed => (if z.quiet claimed then z.onGatewareReconfigured version else z, none)

end Zones

/-- The placement of captures, and the replies of its commands. -/
def placement : Emitter Zones ZoneEvent Reply := ⟨fun z event => (z.handle event).1, fun z event => (z.handle event).2⟩

end BenchPod.Capture
