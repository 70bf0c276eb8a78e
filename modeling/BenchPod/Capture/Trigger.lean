import BenchPod.Capture.State

/-!
# The capture trigger

`la_trigger_parse` and the four steps around a triggered capture: program the fabric, start the
timeout, take the trigger back, and stage its outcome for the reply.
-/

namespace BenchPod.Capture

open Json Command

/-- What a command sends at once. -/
inductive Reply
  /-- The error `busy` of the heavy gate. -/
  | busy
  /-- Any other error. -/
  | error (text : List Byte)
  /-- A reply with data. -/
  | ok
  /-- The reply comes from a later poll. -/
  | later
  /-- The reply of a replay, with the bytes the DAC was armed with. -/
  | playing (bytes : List Byte)
  deriving DecidableEq

/-- The SPI commands that reach the fabric, and what it answers, while one command or one poll
runs. -/
structure Fabric where
  /-- `signal_engine_fpga_version`. -/
  version : Nat
  /-- A SET_TRIGGER write goes through. -/
  setTrigger : Bool
  /-- The SET_TRIGGER write that turns the trigger off goes through. -/
  clearTrigger : Bool
  deriving DecidableEq

/-- The end of an error that names the gateware it found. -/
def Fabric.runs (fabric : Fabric) : List Byte := cstr (" (this pod runs v" ++ toString fabric.version ++ ")")

def captureTriggerMinGw : Nat := 35

def laChangeMinGw : Nat := 50

def laTriggerTimeoutDefaultMs : Nat := 10000

/-- `la_edge_t` by name. -/
def laEdgeOf (s : List Byte) : Option LaEdge :=
  if s = cstr "rising" then some .rising
  else if s = cstr "falling" then some .falling
  else if s = cstr "high" then some .high
  else if s = cstr "low" then some .low
  else none

/-- An optional decimal field held to a range: `none` when it is refused. -/
def boundedField (json : List Byte) (key : String) (low high dflt : Int) : Option Int :=
  match bpJsonGet json (cstr key) 16 with
  | none => some dflt
  | some s =>
    if s = cstr "null" then some dflt
    else if (strtol s).2 = [] ∧ (scanInteger s).isSome ∧ low ≤ (strtol s).1 ∧ (strtol s).1 ≤ high then
      some (strtol s).1
    else none

/-- `la_trigger_parse`: the trigger of a request, or why it is refused. -/
def laTriggerParse (json : List Byte) : Except (List Byte) LaTrigger :=
  let absent : LaTrigger := { timeoutMs := laTriggerTimeoutDefaultMs }
  match bpJsonGet json (cstr "trigger") 8 with
  | none => .ok absent
  | some probe =>
    if probe = cstr "null" then .ok absent
    else
      match bpJsonObject json (cstr "trigger") 128 with
      | none => .error (cstr "trigger must be an object like \x7b\"la\":1,\"edge\":\"rising\"\x7d")
      | some obj =>
        let la := (bpJsonGet obj (cstr "la") 16).getD []
        if (strtol la).2 ≠ [] ∨ (scanInteger la).isNone ∨ (strtol la).1 < 1 ∨ 14 < (strtol la).1 then
          .error (cstr "trigger la must be 1..14")
        else
          match laEdgeOf ((bpJsonGet obj (cstr "edge") 16).getD (cstr "rising")) with
          | none => .error (cstr "trigger edge must be rising, falling, high or low")
          | some edge =>
            match boundedField json "trigger_timeout_ms" 1 600000 laTriggerTimeoutDefaultMs with
            | none => .error (cstr "trigger_timeout_ms must be 1..600000")
            | some ms =>
              match boundedField obj "pre_samples" 0 16777215 0 with
              | none => .error (cstr "trigger pre_samples must be 0..16777215")
              | some pre => .ok ⟨true, (strtol la).1.toNat, edge, ms.toNat, pre.toNat⟩

/-- The arguments of the SET_TRIGGER command for a trigger whose channel is in range, as
`la_trigger_parse` leaves it. -/
def LaTrigger.programmed (t : LaTrigger) : SetTrigger :=
  ⟨if t.edge = .none then 0 else t.la - 1, t.edge.num, t.preSamples ≠ 0⟩

namespace Pod

variable (s : Pod) (fabric : Fabric)

/-- `fpga_set_trigger_pre`; `none` when the write does not go through. -/
def fpgaSetTriggerPre (t : LaTrigger) : Option Pod :=
  if fabric.version < captureTriggerMinGw ∨ (t.preSamples ≠ 0 ∧ fabric.version < laChangeMinGw) then none
  else if fabric.setTrigger then some { s with setTrigger := t.programmed }
  else none

/-- `fpga_set_trigger(0, 0)`, its failure ignored. -/
def fpgaSetTriggerOff : Pod :=
  if captureTriggerMinGw ≤ fabric.version ∧ fabric.clearTrigger then { s with setTrigger := ⟨0, 0, false⟩ }
  else s

/-- `capture_trigger_begin`: the trigger of the request, or the error already sent. -/
def captureTriggerBegin (json : List Byte) (allowPre : Bool) : Pod × Except (List Byte) LaTrigger :=
  -- a previous capture's outcome must never ride this reply
  let s := { s with trigReply := { s.trigReply with present := false } }
  match laTriggerParse json with
  | .error text => (s, .error text)
  | .ok t =>
    if t.present = false then (s, .ok t)
    else if fabric.version < captureTriggerMinGw then
      (s, .error (cstr "capture triggers need gateware v35 or newer" ++ fabric.runs))
    else if t.preSamples ≠ 0 ∧ allowPre = false then
      (s, .error (cstr "trigger pre_samples is only for la_capture"))
    else if t.preSamples ≠ 0 ∧ fabric.version < laChangeMinGw then
      (s, .error (cstr "trigger pre_samples needs gateware v50 or newer" ++ fabric.runs))
    else
      match s.fpgaSetTriggerPre fabric t with
      | none => (s, .error (cstr "could not arm the capture trigger (SPI)"))
      | some s => (s, .ok t)

def captureTriggerArmed (now : Nat) (conn : ConnId) (t : LaTrigger) : Pod :=
  if t.present = false then s
  else
    let wait : Trigwait :=
      { connId := conn, t, deadline := now + t.timeoutMs * 1000, nextCheck := now + 5000 }
    { s with trigwait := some wait }

def captureTriggerCancel (t : LaTrigger) : Pod := if t.present then s.fpgaSetTriggerOff fabric else s

/-- `capture_trigger_done`; `fired` is what TRIGGER_STATUS answers. -/
def captureTriggerDone (fired : Bool) : Pod :=
  match s.trigwait with
  | none => s
  | some wait =>
    let s := { s with trigReply := ⟨true, wait.t, wait.fired || fired⟩, trigwait := none }
    s.fpgaSetTriggerOff fabric

end Pod
end BenchPod.Capture
