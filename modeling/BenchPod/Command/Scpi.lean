import BenchPod.Command.Table
import BenchPod.Library.B64url

/-!
# SCPI lines while a cloud job holds the pod

What the callbacks of `scpi_commands` do to the instrument, and the gate that looks for a question mark in
every part of a LAN line.  The parser is a library; it is given by the callbacks it calls for a line.
-/

namespace BenchPod.Command

open Json

/-- The callbacks of `scpi_commands`. -/
inductive Callback
  | coreCls | coreEse | coreEseQ | coreEsrQ | coreIdnQ | coreOpc | coreOpcQ | coreRst | coreSre | coreSreQ
  | coreStbQ | coreTstQ | coreWai
  | systemErrorNextQ | systemErrorCountQ | systemVersionQ
  | systemPingQ | wifiStateQ | wifiRssiQ | lanIpQ
  | identityPublicQ | identityPopQ
  | srcFunction | srcFunctionQ | srcFreq | srcFreqQ | srcAmpl | srcAmplQ | srcOffset | srcOffsetQ
  | srcSrate | srcSrateQ | srcDuration | srcDurationQ
  | output | outputQ
  | points | pointsQ | senseSrate | senseSrateQ
  | readQ | measureQ | diagPatternQ | diagCaptureQ
  | traceData | tracePointsQ
  | digOutput | digStep | digStepBusyQ
  | powState | powStateQ | powFaultQ | powValidQ
  deriving DecidableEq

def scpiCommands : List (String × Callback) :=
  [("*CLS", .coreCls), ("*ESE", .coreEse), ("*ESE?", .coreEseQ), ("*ESR?", .coreEsrQ), ("*IDN?", .coreIdnQ),
    ("*OPC", .coreOpc), ("*OPC?", .coreOpcQ), ("*RST", .coreRst), ("*SRE", .coreSre), ("*SRE?", .coreSreQ),
    ("*STB?", .coreStbQ), ("*TST?", .coreTstQ), ("*WAI", .coreWai),
    ("SYSTem:ERRor[:NEXT]?", .systemErrorNextQ), ("SYSTem:ERRor:COUNt?", .systemErrorCountQ),
    ("SYSTem:VERSion?", .systemVersionQ),
    ("SYSTem:PING?", .systemPingQ), ("SYSTem:WIFI:STATe?", .wifiStateQ), ("SYSTem:WIFI:RSSI?", .wifiRssiQ),
    ("SYSTem:COMMunicate:LAN:IPADdress?", .lanIpQ),
    ("SYSTem:IDENtity:PUBlic?", .identityPublicQ), ("SYSTem:IDENtity:POP?", .identityPopQ),
    ("[SOURce]:FUNCtion[:SHAPe]", .srcFunction), ("[SOURce]:FUNCtion[:SHAPe]?", .srcFunctionQ),
    ("[SOURce]:FREQuency", .srcFreq), ("[SOURce]:FREQuency?", .srcFreqQ),
    ("[SOURce]:VOLTage[:AMPLitude]", .srcAmpl), ("[SOURce]:VOLTage[:AMPLitude]?", .srcAmplQ),
    ("[SOURce]:VOLTage:OFFSet", .srcOffset), ("[SOURce]:VOLTage:OFFSet?", .srcOffsetQ),
    ("[SOURce]:SRATe", .srcSrate), ("[SOURce]:SRATe?", .srcSrateQ),
    ("[SOURce]:DURation", .srcDuration), ("[SOURce]:DURation?", .srcDurationQ),
    ("OUTPut[:STATe]", .output), ("OUTPut[:STATe]?", .outputQ),
    ("SENSe:SWEep:POINts", .points), ("SENSe:SWEep:POINts?", .pointsQ),
    ("SENSe:SRATe", .senseSrate), ("SENSe:SRATe?", .senseSrateQ),
    ("READ?", .readQ), ("MEASure?", .measureQ), ("DIAGnostic:PATTern?", .diagPatternQ),
    ("DIAGnostic:CAPture?", .diagCaptureQ),
    ("TRACe[:DATA]", .traceData), ("TRACe:POINts?", .tracePointsQ),
    ("DIGital:OUTPut", .digOutput), ("DIGital:STEP", .digStep), ("DIGital:STEP:BUSY?", .digStepBusyQ),
    ("OUTPut:POWer#[:STATe]", .powState), ("OUTPut:POWer#[:STATe]?", .powStateQ),
    ("OUTPut:POWer#:FAULt?", .powFaultQ), ("OUTPut:POWer#:VALid?", .powValidQ)]

/-- A callback that is called: the number in the header and the parameters, extra ones included. -/
structure Call where
  callback : Callback
  number : Int := 1
  params : List (List Byte) := []

/-- `src.shape`. -/
inductive Shape
  | sine
  | square
  | ramp
  | user
  deriving DecidableEq

/-- A number parameter: a special one, known or not, or how its value compares with zero. -/
inductive ScpiNumber
  | special (known : Bool)
  | value (sign : Ordering)

/-- The parser: the callbacks it calls for a line, in order, and its readers of a parameter. -/
structure Libscpi where
  calls : List (String × Callback) → List Byte → List Call
  uint32 : List Byte → Option Nat
  bool : List Byte → Option Bool
  shape : List Byte → Option Shape
  number : List Byte → Option ScpiNumber
  /-- How the value of a plain number compares with zero. -/
  double : List Byte → Option Ordering
  text : List Byte → Option (List Byte)

/-- What a callback asks of the pod: a waveform on the DAC, a capture, a pin that is driven or stepped, target
power switched, the trace or a setting of the source written. -/
inductive Effect
  | dac
  | capture
  | pin
  | step
  | power
  | trace
  | source
  deriving DecidableEq

/-- What the rest of the firmware answers while a callback runs. -/
structure Bench where
  skipHw : Bool := false
  hasAnalog : Bool := true
  /-- `dac_limits_check_raw` refuses. -/
  limits : Bool := false
  /-- `command_handler_acquire_adc` succeeds. -/
  adcFree : Bool := true
  /-- The engine plays the waveform, or delivers the capture. -/
  plays : Bool := true
  delivers : Bool := true
  /-- `command_handler_dig_output`, `command_handler_dig_step` and `target_power_enable`. -/
  digOutput : Nat → Nat → Int := fun _ _ => 0
  digStep : Nat → Nat → Nat → Nat → Nat → Int := fun _ _ _ _ _ => 0
  power : Int → Bool → Int := fun _ _ => 0

/-- The instrument's state. -/
structure Scpi where
  shape : Shape := .sine
  outputOn : Bool := false
  sensePoints : Nat := 256
  /-- `scpi_replay_bytes`, and whether the pool still holds the trace. -/
  replayBytes : Nat := 0
  traceHeld : Bool := false

def signalBufSize : Nat := 4096

section callbacks

variable (L : Libscpi) (b : Bench) (s : Scpi) (params : List (List Byte))

def scpiRefusedByGate (verb : String) (json : List Byte) : Bool :=
  (cmdGateDevice (cstr verb) json b.skipHw b.hasAnalog).isSome

/-- The next parameter as a number. -/
def paramUInt32 (i : Nat) : Option Nat := (params[i]?).bind L.uint32

/-- `scpi_replay_set_samples`. -/
def replaySetSamples (n : Nat) : Scpi := { s with replayBytes := min n (signalBufSize / 2) * 2 }

def scpiResetState : Scpi := {}

def scpiSrcFunction : Scpi × List Effect :=
  match (params[0]?).bind L.shape with
  | none => (s, [])
  | some shape => ({ s with shape }, [.source])

def scpiSrcFreq : Scpi × List Effect :=
  match (params[0]?).bind L.number with
  | none => (s, [])
  | some (.special known) => (s, if known then [.source] else [])
  | some (.value sign) => (s, if sign = .gt then [.source] else [])

/-- `scpi_src_ampl` and `scpi_src_offset`. -/
def scpiSrcLevel : Scpi × List Effect :=
  match paramUInt32 L params 0 with
  | none => (s, [])
  | some v => (s, if 255 < v then [] else [.source])

def scpiSrcSrate : Scpi × List Effect :=
  match (params[0]?).bind L.double with
  | none => (s, [])
  | some sign => (s, if sign = .lt then [] else [.source])

def scpiSrcDuration : Scpi × List Effect :=
  match paramUInt32 L params 0 with
  | none => (s, [])
  | some _ => (s, [.source])

def outputStart : Scpi × List Effect :=
  if s.shape = .user ∧ (s.replayBytes < 2 ∨ s.traceHeld = false) then (s, [])
  else ({ s with outputOn := s.outputOn || b.plays }, [.dac])

def scpiOutput : Scpi × List Effect :=
  match (params[0]?).bind L.bool with
  | none => (s, [])
  | some on =>
    if scpiRefusedByGate b (if on then "generate" else "dac_stop") [] then (s, [])
    else if on then if b.limits then (s, []) else outputStart b s
    else ({ s with outputOn := false }, [])

def scpiPoints : Scpi × List Effect :=
  match paramUInt32 L params 0 with
  | none => (s, [])
  | some v => (if v = 0 ∨ signalBufSize < v then s else { s with sensePoints := v }, [])

/-- A capture of `n` points into the pool, with the gate held. -/
def scpiCapture (n : Nat) (effects : List Effect) : Scpi × List Effect :=
  let s := { s with traceHeld := true }
  (if b.delivers then replaySetSamples s n else { s with replayBytes := 0 }, effects)

def scpiReadQ : Scpi × List Effect :=
  let inline := paramUInt32 L params 0
  if inline.any fun v => v = 0 ∨ signalBufSize < v then (s, [])
  else if scpiRefusedByGate b "capture" [] then (s, [])
  else if b.adcFree = false then (s, [])
  else scpiCapture b s (inline.getD s.sensePoints) [.capture, .trace]

def scpiMeasureQ : Scpi × List Effect :=
  if scpiRefusedByGate b "measure" [] then (s, [])
  else if b.limits then (s, [])
  else if b.adcFree = false then (s, [])
  else scpiCapture b { s with outputOn := false } s.sensePoints [.dac, .capture, .trace]

/-- The object that `scpi_diag_captureQ` shows the gate. -/
def captureGateJson (an : Nat) : List Byte := cstr "\x7b\"adc_samples\":" ++ cstr (Nat.repr an) ++ cstr "\x7d"

/-- The sample counts of `scpi_diag_captureQ`. -/
def captureCounts : Nat × Nat := ((paramUInt32 L params 0).getD 16, (paramUInt32 L params 1).getD 16)

def scpiDiagCaptureQ : Scpi × List Effect :=
  let (an, ln) := captureCounts L params
  if 128 < an ∨ 128 < ln ∨ (an = 0 ∧ ln = 0) then (s, [])
  else if scpiRefusedByGate b "capture_dual" (captureGateJson an) then (s, [])
  else if b.adcFree = false then (s, [])
  else (s, [.capture])

def scpiTraceData : Scpi × List Effect :=
  match paramUInt32 L params 0 with
  | none => (s, [])
  | some offset =>
    if signalBufSize < offset then (s, [])
    else if scpiRefusedByGate b "load" [] then (s, [])
    else
      match (params[1]?).bind L.text with
      | none => (s, [])
      | some data =>
        if b.adcFree = false then (s, [])
        else
          let decoded := B64url.decode data (signalBufSize - offset)
          ({ s with
              traceHeld := true
              replayBytes := if decoded.2 then offset + decoded.1.length else s.replayBytes }, [.trace])

def scpiDigOutput : Scpi × List Effect :=
  match paramUInt32 L params 0, paramUInt32 L params 1 with
  | some la, some state =>
    if scpiRefusedByGate b "la" [] then (s, [])
    else (s, if b.digOutput la (if state = 0 then 0 else 1) = 0 then [.pin] else [])
  | _, _ => (s, [])

def scpiDigStep : Scpi × List Effect :=
  match paramUInt32 L params 0, paramUInt32 L params 1, paramUInt32 L params 2 with
  | some la, some steps, some delay =>
    let dirLa := paramUInt32 L params 3
    let dir := if dirLa.isSome then (paramUInt32 L params 4).getD 0 else 0
    if steps = 0 ∨ delay = 0 then (s, [])
    else if dirLa = some 0 then (s, [])
    else if scpiRefusedByGate b "la" [] then (s, [])
    else (s, if b.digStep la steps delay (dirLa.getD 0) dir = 0 then [.step] else [])
  | _, _, _ => (s, [])

def scpiPowState (number : Int) : Scpi × List Effect :=
  match (params[0]?).bind L.bool with
  | none => (s, [])
  | some on => (s, if b.power number on = 0 then [.power] else [])

end callbacks

/-- A callback; the queries that are left only answer. -/
def Call.run (L : Libscpi) (b : Bench) (s : Scpi) (call : Call) : Scpi × List Effect :=
  match call.callback with
  | .coreRst => (scpiResetState, [.source, .trace])
  | .srcFunction => scpiSrcFunction L s call.params
  | .srcFreq => scpiSrcFreq L s call.params
  | .srcAmpl | .srcOffset => scpiSrcLevel L s call.params
  | .srcSrate => scpiSrcSrate L s call.params
  | .srcDuration => scpiSrcDuration L s call.params
  | .output => scpiOutput L b s call.params
  | .points => scpiPoints L s call.params
  | .readQ => scpiReadQ L b s call.params
  | .measureQ => scpiMeasureQ b s
  | .diagCaptureQ => scpiDiagCaptureQ L b s call.params
  | .traceData => scpiTraceData L b s call.params
  | .digOutput => scpiDigOutput L b s call.params
  | .digStep => scpiDigStep L b s call.params
  | .powState => scpiPowState L b s call.params call.number
  | _ => (s, [])

/-- `scpi_dispatch_line`: the callbacks in order, each with what the firmware answers then. -/
def scpiDispatch (L : Libscpi) : (Nat → Bench) → Scpi → List Call → Scpi × List Effect
  | _, s, [] => (s, [])
  | b, s, call :: calls =>
    let after := call.run L (b 0) s
    let rest := scpiDispatch L (fun i => b (i + 1)) after.1 calls
    (rest.1, after.2 ++ rest.2)

def scpiLineBlockedByLease (src : PolicySrc) (leaseActive : Bool) (line : List Byte) : Bool :=
  src = .lan && leaseActive && scpiLineWrites line

/-- A SCPI line as `command_handler_process` takes it. -/
def processScpiLine (L : Libscpi) (b : Nat → Bench) (src : PolicySrc) (leaseActive : Bool) (s : Scpi)
    (line : List Byte) : Scpi × List Effect :=
  if scpiLineBlockedByLease src leaseActive line then (s, []) else scpiDispatch L b s (L.calls scpiCommands line)

/-- What makes a call more than a read: its callback, parameters that are accepted, and a pod that lets it. -/
def Call.Acts (L : Libscpi) (b : Bench) (s : Scpi) (call : Call) : Prop :=
  match call.callback with
  | .coreRst => True
  | .srcFunction => ((call.params[0]?).bind L.shape).isSome
  | .srcFreq => (call.params[0]?).bind L.number = some (.special true) ∨
      (call.params[0]?).bind L.number = some (.value .gt)
  | .srcAmpl | .srcOffset => ∃ v ∈ paramUInt32 L call.params 0, v ≤ 255
  | .srcSrate => ∃ sign ∈ (call.params[0]?).bind L.double, sign ≠ .lt
  | .srcDuration => (paramUInt32 L call.params 0).isSome
  | .output => (call.params[0]?).bind L.bool = some true ∧ scpiRefusedByGate b "generate" [] = false ∧
      b.limits = false ∧ (s.shape = .user → 2 ≤ s.replayBytes ∧ s.traceHeld = true)
  | .readQ => (∀ v ∈ paramUInt32 L call.params 0, v ≠ 0 ∧ v ≤ signalBufSize) ∧
      scpiRefusedByGate b "capture" [] = false ∧ b.adcFree = true
  | .measureQ => scpiRefusedByGate b "measure" [] = false ∧ b.limits = false ∧ b.adcFree = true
  | .diagCaptureQ => (captureCounts L call.params).1 ≤ 128 ∧ (captureCounts L call.params).2 ≤ 128 ∧
      captureCounts L call.params ≠ (0, 0) ∧
      scpiRefusedByGate b "capture_dual" (captureGateJson (captureCounts L call.params).1) = false ∧
      b.adcFree = true
  | .traceData => (∃ offset ∈ paramUInt32 L call.params 0, offset ≤ signalBufSize) ∧
      scpiRefusedByGate b "load" [] = false ∧ ((call.params[1]?).bind L.text).isSome ∧ b.adcFree = true
  | .digOutput => ∃ la ∈ paramUInt32 L call.params 0, ∃ state ∈ paramUInt32 L call.params 1,
      scpiRefusedByGate b "la" [] = false ∧ b.digOutput la (if state = 0 then 0 else 1) = 0
  | .digStep => ∃ la ∈ paramUInt32 L call.params 0, ∃ steps ∈ paramUInt32 L call.params 1,
      ∃ delay ∈ paramUInt32 L call.params 2, steps ≠ 0 ∧ delay ≠ 0 ∧ paramUInt32 L call.params 3 ≠ some 0 ∧
        scpiRefusedByGate b "la" [] = false ∧
        b.digStep la steps delay ((paramUInt32 L call.params 3).getD 0)
          (if (paramUInt32 L call.params 3).isSome then (paramUInt32 L call.params 4).getD 0 else 0) = 0
  | .powState => ∃ on ∈ (call.params[0]?).bind L.bool, b.power call.number on = 0
  | _ => False

/-- The short form of a pattern, without its optional nodes. -/
def shortForm : Bool → List Char → List Byte
  | _, [] => []
  | inside, c :: rest =>
    if c = '[' then shortForm true rest
    else if c = ']' then shortForm false rest
    else if inside || c.isLower then shortForm inside rest
    else ascii c :: shortForm inside rest

/-- A parser for the short forms alone: a header up to the first blank and parameters parted by commas. -/
def shortParser : Libscpi where
  calls table line := (line.splitOn (ascii ';')).filterMap fun part =>
    let header := part.takeWhile (· != ascii ' ')
    let params := (part.drop (header.length + 1)).splitOn (ascii ',')
    (table.find? fun entry => shortForm false entry.1.toList == header).map fun entry =>
      { callback := entry.2, params }
  uint32 _ := none
  bool param := if param = cstr "ON" then some true else if param = cstr "OFF" then some false else none
  shape _ := none
  number _ := none
  double _ := none
  text _ := none

section lease

variable {L : Libscpi} {b : Bench} {s s' : Scpi}

/-- What decides whether the USER output plays is the same. -/
def Same (s s' : Scpi) : Prop := s'.shape = s.shape ∧ s'.replayBytes = s.replayBytes ∧ s'.traceHeld = s.traceHeld

theorem Call.Acts.congr (same : Same s s') (call : Call) : call.Acts L b s' ↔ call.Acts L b s := by
  obtain ⟨shape, replayBytes, traceHeld⟩ := same
  unfold Call.Acts
  rw [shape, replayBytes, traceHeld]

/-- A callback has an effect if and only if `acts`; without one it leaves the trace and the shape alone. -/
def Decides (s : Scpi) (after : Scpi × List Effect) (acts : Prop) : Prop :=
  (after.2 = [] ∧ Same s after.1 ∧ ¬acts) ∨ (after.2 ≠ [] ∧ acts)

theorem Decides.idle {acts : Prop} (idle : ¬acts) : Decides s (s, []) acts := .inl ⟨rfl, ⟨rfl, rfl, rfl⟩, idle⟩

theorem Decides.acted {acts : Prop} {effect : Effect} {effects : List Effect} (acted : acts) :
    Decides s (s', effect :: effects) acts :=
  .inr ⟨List.cons_ne_nil _ _, acted⟩

theorem Decides.refusal {refused acts : Prop} [Decidable refused] {after : Scpi × List Effect}
    (idle : refused → ¬acts) (rest : ¬refused → Decides s after acts) :
    Decides s (if refused then (s, []) else after) acts := by
  by_cases holds : refused
  · rw [if_pos holds]
    exact .idle (idle holds)
  · rw [if_neg holds]
    exact rest holds

theorem Decides.ite {condition acts : Prop} [Decidable condition] {effect : Effect}
    (same : condition ↔ acts) : Decides s (s, if condition then [effect] else []) acts := by
  by_cases holds : condition
  · rw [if_pos holds]
    exact .acted (same.mp holds)
  · rw [if_neg holds]
    exact .idle fun acts => holds (same.mpr acts)

variable (number : Int) (params : List (List Byte))

theorem scpiSrcFunction_acts :
    Decides s (scpiSrcFunction L s params) (Call.Acts L b s ⟨.srcFunction, number, params⟩) := by
  simp only [scpiSrcFunction, Call.Acts]
  cases (params[0]?).bind L.shape with
  | none => exact .idle (by simp)
  | some shape => exact .acted rfl

theorem scpiSrcFreq_acts : Decides s (scpiSrcFreq L s params) (Call.Acts L b s ⟨.srcFreq, number, params⟩) := by
  simp only [scpiSrcFreq, Call.Acts]
  cases (params[0]?).bind L.number with
  | none => exact .idle (by simp)
  | some parsed =>
    cases parsed with
    | special known => exact .ite (by simp)
    | value sign => exact .ite (by simp)

theorem scpiSrcLevel_acts : Decides s (scpiSrcLevel L s params) (∃ v ∈ paramUInt32 L params 0, v ≤ 255) := by
  simp only [scpiSrcLevel]
  cases paramUInt32 L params 0 with
  | none => exact .idle (by simp)
  | some v =>
    dsimp only
    by_cases high : 255 < v
    · rw [if_pos high]
      exact .idle (by simpa using high)
    · rw [if_neg high]
      exact .acted (by simpa using high)

theorem scpiSrcSrate_acts : Decides s (scpiSrcSrate L s params) (Call.Acts L b s ⟨.srcSrate, number, params⟩) := by
  simp only [scpiSrcSrate, Call.Acts]
  cases (params[0]?).bind L.double with
  | none => exact .idle (by simp)
  | some sign => cases sign <;> first | exact .idle (by simp) | exact .acted (by simp)

theorem scpiSrcDuration_acts :
    Decides s (scpiSrcDuration L s params) (Call.Acts L b s ⟨.srcDuration, number, params⟩) := by
  simp only [scpiSrcDuration, Call.Acts]
  cases paramUInt32 L params 0 with
  | none => exact .idle (by simp)
  | some v => exact .acted rfl

theorem scpiOutput_acts : Decides s (scpiOutput L b s params) (Call.Acts L b s ⟨.output, number, params⟩) := by
  simp only [scpiOutput, Call.Acts]
  cases (params[0]?).bind L.bool with
  | none => exact .idle (by simp)
  | some on =>
    cases on with
    | false =>
      refine .refusal (by simp) fun _ => ?_
      exact .inl ⟨rfl, ⟨rfl, rfl, rfl⟩, by simp⟩
    | true =>
      refine .refusal (fun refused => ?_) fun accepted => ?_
      · simp_all
      · simp only [if_true]
        refine .refusal (fun refused => by simp [refused]) fun within => ?_
        refine .refusal (fun refused => ?_) fun ready => ?_
        · rintro ⟨-, -, -, ready⟩
          obtain ⟨short, held⟩ := ready refused.1
          rcases refused.2 with empty | gone
          · exact absurd short (by omega)
          · exact absurd held (by simp [gone])
        · refine .acted ⟨trivial, by simpa using accepted, by simpa using within, fun user => ?_⟩
          have ready := fun unready => ready ⟨user, unready⟩
          exact ⟨Nat.not_lt.mp fun short => ready (.inl short), by simpa using fun gone => ready (.inr gone)⟩

theorem scpiPoints_still : Decides s (scpiPoints L s params) (Call.Acts L b s ⟨.points, number, params⟩) := by
  simp only [scpiPoints, Call.Acts]
  cases paramUInt32 L params 0 with
  | none => exact .idle id
  | some v =>
    dsimp only
    refine .inl ⟨rfl, ?_, id⟩
    split <;> exact ⟨rfl, rfl, rfl⟩

theorem scpiReadQ_acts : Decides s (scpiReadQ L b s params) (Call.Acts L b s ⟨.readQ, number, params⟩) := by
  simp only [scpiReadQ, Call.Acts]
  refine .refusal (fun outside => ?_) fun inside => ?_
  · rintro ⟨inside, -, -⟩
    cases given : paramUInt32 L params 0 with
    | none => simp [given] at outside
    | some v =>
      have bounds := inside v given
      have outside : v = 0 ∨ signalBufSize < v := by simpa [given] using outside
      omega
  · refine .refusal (fun refused => by simp [refused]) fun accepted => ?_
    refine .refusal (fun busy => by simp [busy]) fun free => ?_
    refine .acted ⟨fun v given => ?_, by simpa using accepted, by simpa using free⟩
    have inside : ¬(v = 0 ∨ signalBufSize < v) := fun outside => inside (by
      have given : paramUInt32 L params 0 = some v := given
      simpa [given] using outside)
    omega

theorem scpiMeasureQ_acts : Decides s (scpiMeasureQ b s) (Call.Acts L b s ⟨.measureQ, number, params⟩) := by
  simp only [scpiMeasureQ, Call.Acts]
  refine .refusal (fun refused => by simp [refused]) fun accepted => ?_
  refine .refusal (fun limited => by simp [limited]) fun within => ?_
  refine .refusal (fun busy => by simp [busy]) fun free => ?_
  exact .acted ⟨by simpa using accepted, by simpa using within, by simpa using free⟩

theorem scpiDiagCaptureQ_acts :
    Decides s (scpiDiagCaptureQ L b s params) (Call.Acts L b s ⟨.diagCaptureQ, number, params⟩) := by
  simp only [scpiDiagCaptureQ, Call.Acts]
  obtain ⟨an, ln⟩ := captureCounts L params
  dsimp only
  refine .refusal (fun outside => ?_) fun inside => ?_
  · rintro ⟨analog, logic, some, -, -⟩
    rcases outside with high | high | none
    · omega
    · omega
    · exact some (Prod.ext none.1 none.2)
  · refine .refusal (fun refused => by simp [refused]) fun accepted => ?_
    refine .refusal (fun busy => by simp [busy]) fun free => ?_
    rw [not_or, not_or, Nat.not_lt, Nat.not_lt] at inside
    refine .acted ⟨inside.1, inside.2.1, fun none => inside.2.2 ?_, by simpa using accepted, by simpa using free⟩
    exact Prod.mk.inj none

theorem scpiTraceData_acts : Decides s (scpiTraceData L b s params) (Call.Acts L b s ⟨.traceData, number, params⟩) := by
  simp only [scpiTraceData, Call.Acts]
  cases paramUInt32 L params 0 with
  | none => exact .idle (by simp)
  | some offset =>
    refine .refusal (fun outside => ?_) fun inside => ?_
    · rintro ⟨⟨_, given, inside⟩, -⟩
      cases given
      omega
    · refine .refusal (fun refused => by simp [refused]) fun accepted => ?_
      cases (params[1]?).bind L.text with
      | none => exact .idle (by simp)
      | some data =>
        refine .refusal (fun busy => by simp [busy]) fun free => ?_
        exact .acted ⟨⟨offset, rfl, Nat.not_lt.mp inside⟩, by simpa using accepted, rfl, by simpa using free⟩

theorem scpiDigOutput_acts : Decides s (scpiDigOutput L b s params) (Call.Acts L b s ⟨.digOutput, number, params⟩) := by
  simp only [scpiDigOutput, Call.Acts]
  cases paramUInt32 L params 0 with
  | none => exact .idle (by simp)
  | some la =>
    cases paramUInt32 L params 1 with
    | none => exact .idle (by simp)
    | some state =>
      refine .refusal (fun refused => by simp [refused]) fun accepted => ?_
      exact .ite (by simp [accepted])

theorem scpiDigStep_acts : Decides s (scpiDigStep L b s params) (Call.Acts L b s ⟨.digStep, number, params⟩) := by
  simp only [scpiDigStep, Call.Acts]
  cases paramUInt32 L params 0 with
  | none => exact .idle (by simp)
  | some la =>
    cases paramUInt32 L params 1 with
    | none => exact .idle (by simp)
    | some steps =>
      cases paramUInt32 L params 2 with
      | none => exact .idle (by simp)
      | some delay =>
        refine .refusal (fun zero => ?_) fun given => ?_
        · rcases zero with zero | zero <;> simp [zero]
        · refine .refusal (fun zero => by simp [zero]) fun pin => ?_
          refine .refusal (fun refused => by simp [refused]) fun accepted => ?_
          rw [not_or] at given
          exact .ite (by simp [accepted, given, pin])

theorem scpiPowState_acts :
    Decides s (scpiPowState L b s params number) (Call.Acts L b s ⟨.powState, number, params⟩) := by
  simp only [scpiPowState, Call.Acts]
  cases (params[0]?).bind L.bool with
  | none => exact .idle (by simp)
  | some on => exact .ite (by simp)

theorem Call.run_acts (call : Call) : Decides s (call.run L b s) (call.Acts L b s) := by
  obtain ⟨callback, number, params⟩ := call
  cases callback
  case coreRst => exact .acted trivial
  case srcFunction => exact scpiSrcFunction_acts number params
  case srcFreq => exact scpiSrcFreq_acts number params
  case srcAmpl => exact scpiSrcLevel_acts params
  case srcOffset => exact scpiSrcLevel_acts params
  case srcSrate => exact scpiSrcSrate_acts number params
  case srcDuration => exact scpiSrcDuration_acts number params
  case output => exact scpiOutput_acts number params
  case points => exact scpiPoints_still number params
  case readQ => exact scpiReadQ_acts number params
  case measureQ => exact scpiMeasureQ_acts number params
  case diagCaptureQ => exact scpiDiagCaptureQ_acts number params
  case traceData => exact scpiTraceData_acts number params
  case digOutput => exact scpiDigOutput_acts number params
  case digStep => exact scpiDigStep_acts number params
  case powState => exact scpiPowState_acts number params
  all_goals exact .idle id

theorem scpiDispatch_idle (calls : List Call) (b : Nat → Bench) (s : Scpi) :
    (scpiDispatch L b s calls).2 = [] ↔ ∀ i (call : Call), calls[i]? = some call → ¬call.Acts L (b i) s := by
  induction calls generalizing b s with
  | nil => simp [scpiDispatch]
  | cons call calls ih =>
    have split : (∀ i (other : Call), (call :: calls)[i]? = some other → ¬other.Acts L (b i) s) ↔
        ¬call.Acts L (b 0) s ∧ ∀ i (other : Call), calls[i]? = some other → ¬other.Acts L (b (i + 1)) s := by
      constructor
      · intro every
        exact ⟨every 0 call rfl, fun i other called => every (i + 1) other called⟩
      · rintro ⟨first, rest⟩ i other called
        cases i with
        | zero => exact Option.some.inj called ▸ first
        | succ i => exact rest i other called
    rw [split]
    simp only [scpiDispatch, List.append_eq_nil_iff]
    rcases (Call.run_acts call : Decides s (call.run L (b 0) s) _) with ⟨none, same, idle⟩ | ⟨some, acts⟩
    · rw [ih]
      simp only [Call.Acts.congr same, none, idle, not_false_iff, true_and]
    · exact ⟨fun both => absurd both.1 some, fun both => absurd acts both.1⟩

end lease

end BenchPod.Command
