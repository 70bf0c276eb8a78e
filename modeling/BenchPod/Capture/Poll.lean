import BenchPod.Capture.Changes
import BenchPod.Capture.Handlers

/-!
# The poll of the captures

`capture_poll` gives up on triggers that never come, notices captures that are over, starts their
read-back and moves it on.  A connection that closes takes its capture with it.
-/

namespace BenchPod.Capture

open Json Command

/-- What a wait for a capture answers: still running, done, or given up. -/
inductive Wait
  | running
  | done
  | failed
  deriving DecidableEq

/-- What the hardware answers during one pass of the poll. -/
structure Pass where
  now : Nat := 0
  fabric : Fabric := ⟨50, true, true⟩
  /-- TRIGGER_STATUS was read and says that the trigger fired: in the check of the timeout, and at
  the end of the capture. -/
  fired : Bool := false
  firedAtEnd : Bool := false
  v2 : Wait := .running
  /-- Bytes the read-back of a shallow capture delivers, and how many before it ends. -/
  bytes : Mem := fun _ => 0
  got : Nat := 0
  la : Wait := .running
  dual : Wait := .running
  /-- `fpga_capture_adc_sentinel_survived`. -/
  sentinel : Bool := false
  /-- Bytes of the logic-analyzer region that a change capture may fill. -/
  region : Nat := 0
  captured : Captured := ⟨0, false⟩
  readFails : Option Nat := none
  /-- How far the read-back gets, `none` when it completes, fails or stalls. -/
  sent : Option Nat := some 0

namespace Pod

variable (s : Pod) (pass : Pass)

/-- `fpga_capture_abort`, as far as the trigger goes. -/
def fpgaCaptureAbort : Pod := s.fpgaSetTriggerOff pass.fabric

/-- The failure of a capture that the fabric may still be running. -/
def captureFailed (conn : ConnId) : Pod :=
  let s := s.fpgaCaptureAbort pass
  Pod.heavyRelease { s with trigReply := { s.trigReply with present := false } } (.conn conn)

/-- The trigger part of `capture_poll`. -/
def pollTrigger : Pod :=
  match s.trigwait with
  | none => s
  | some wait =>
    if pass.now < wait.nextCheck then s
    else
      let wait := { wait with nextCheck := pass.now + 5000, fired := wait.fired || pass.fired }
      if wait.fired ∨ pass.now < wait.deadline then { s with trigwait := some wait }
      else
        let s := s.fpgaCaptureAbort pass
        Pod.heavyRelease
          { s with
            trigwait := none
            v2cap := s.v2cap.filter (·.connId ≠ wait.connId)
            lacap := s.lacap.filter (·.connId ≠ wait.connId)
            dualcap := s.dualcap.filter (·.connId ≠ wait.connId) }
          (.conn wait.connId)

/-- The `v2cap` part of `capture_poll`: `adc_capture_psram_poll` reads into the pool. -/
def pollV2cap : Pod :=
  match s.v2cap with
  | none => s
  | some cap =>
    match pass.v2 with
    | .running => s
    | .done =>
      let s := { s with pool := s.pool.write 0 (pass.bytes.read 0 (2 * cap.samples)) }
      let s := s.captureTriggerDone pass.fabric pass.firedAtEnd
      Pod.bulkStart { s with v2cap := none }
        { connId := cap.connId, total := cap.samples, is16 := true, b64 := cap.b64 }
    | .failed =>
      let s := { s with pool := s.pool.write 0 (pass.bytes.read 0 (min pass.got (2 * cap.samples))) }
      let s := s.captureTriggerDone pass.fabric pass.firedAtEnd
      Pod.captureFailed { s with v2cap := none } pass cap.connId

/-- The `lacap` part of `capture_poll`. -/
def pollLacap : Pod :=
  match s.lacap with
  | none => s
  | some cap =>
    if pass.la = .running then s
    else
      let s := s.captureTriggerDone pass.fabric pass.firedAtEnd
      let s := { s with lacap := none }
      let samples := cap.bytes / 2
      if pass.la = .failed then s.captureFailed pass cap.connId
      else if cap.chgK ≠ 0 then
        let scan : Chgscan :=
          { connId := cap.connId, samples, k := cap.chgK, pre := cap.pre, laHz := cap.rateHz, region := pass.region }
        { s with lastCap := { s.lastCap with valid := false }, chgscan := some scan }
      else
        Pod.bulkStart { s with lastCap := ⟨true, 0, samples, 0, cap.rateHz⟩ }
          { connId := cap.connId, total := samples, is16 := true, fromPsram := true, laRateHz := cap.rateHz }

/-- `chgscan_step` on the scan in progress, and the read-back it starts. -/
def pollChgscan : Pod :=
  match s.chgscan with
  | none => s
  | some scan =>
    match chgscanStep s.psram pass.captured pass.readFails scan with
    | .more scan => { s with chgscan := some scan }
    | .fails _ =>
      Pod.heavyRelease
        { s with chgscan := none, trigReply := { s.trigReply with present := false } }
        (.conn scan.connId)
    | .ready scan base pre trunc total =>
      Pod.bulkStart { s with chgscan := none }
        { connId := scan.connId, total := scan.adcN + total, is16 := true, fromPsram := true,
          adcSamples := scan.adcN, adcRateHz := if scan.adcN = 0 then 0 else scan.adcHz,
          laRateHz := scan.laHz, b64 := scan.b64, chg := true, chgK := scan.k, chgEnd := scan.off,
          chgBase := base, chgPre := pre, chgTrunc := trunc }

/-- The `dualcap` part of `capture_poll`. -/
def pollDualcap : Pod :=
  match s.dualcap with
  | none => s
  | some cap =>
    if pass.dual = .running then s
    else
      let s := s.captureTriggerDone pass.fabric pass.firedAtEnd
      let s := { s with dualcap := none }
      let adcHz := if cap.adcSamples = 0 then 0 else cap.adcRateHz
      let laHz := if cap.laSamples = 0 then 0 else cap.laRateHz
      if pass.dual = .failed then s.captureFailed pass cap.connId
      else if 4 ≤ cap.adcSamples ∧ pass.sentinel then
        Pod.heavyRelease { s with trigReply := { s.trigReply with present := false } }
          (.conn cap.connId)
      else if cap.chgK ≠ 0 ∧ cap.laSamples ≠ 0 then
        let scan : Chgscan :=
          { connId := cap.connId, samples := cap.laSamples, k := cap.chgK, laHz := cap.laRateHz,
            region := pass.region, adcN := cap.adcSamples, adcHz := cap.adcRateHz, b64 := cap.b64 }
        { s with lastCap := { s.lastCap with valid := false }, chgscan := some scan }
      else
        Pod.bulkStart { s with lastCap := ⟨true, cap.adcSamples, cap.laSamples, adcHz, laHz⟩ }
          { connId := cap.connId, total := cap.adcSamples + cap.laSamples, is16 := true,
            fromPsram := true, adcSamples := cap.adcSamples, adcRateHz := adcHz, laRateHz := laHz,
            b64 := cap.b64 }

/-- `bulk_pump`, which ends with the gate released or leaves the rest for the next pass. -/
def bulkPump : Pod :=
  match s.bulk with
  | none => s
  | some bulk =>
    match pass.sent with
    | some sent => { s with bulk := some { bulk with sent } }
    | none => Pod.heavyRelease { s with bulk := none } (.conn bulk.connId)

def capturePoll : Pod :=
  let s := s.pollTrigger pass
  let s := s.pollV2cap pass
  let s := s.pollLacap pass
  let s := s.pollChgscan pass
  let s := s.pollDualcap pass
  s.bulkPump pass

/-- A connection's trigger aborted in the fabric and forgotten. -/
def abortTriggerOf (conn : ConnId) : Pod :=
  let s := s.fpgaCaptureAbort pass
  { s with trigwait := s.trigwait.filter (·.connId ≠ conn) }

def captureConnClosed (conn : ConnId) : Pod :=
  let owned := s.v2cap.any (·.connId = conn) || s.lacap.any (·.connId = conn) || s.dualcap.any (·.connId = conn)
  let s := { s with
    v2cap := s.v2cap.filter (·.connId ≠ conn)
    lacap := s.lacap.filter (·.connId ≠ conn)
    dualcap := s.dualcap.filter (·.connId ≠ conn)
    chgscan := s.chgscan.filter (·.connId ≠ conn) }
  let s := if owned then s.abortTriggerOf pass conn else s
  let s := { s with bulk := s.bulk.filter (·.connId ≠ conn) }
  if s.trigwait.any (·.connId = conn) then s.abortTriggerOf pass conn else s

/-- `capture_on_gateware_reconfigured`, with what `signal_engine.c` forgets of a deep replay. -/
def captureOnGatewareReconfigured : Pod :=
  { s with trigwait := none, trigReply := { s.trigReply with present := false }, dacBase := 0x800000 }

end Pod
end BenchPod.Capture
