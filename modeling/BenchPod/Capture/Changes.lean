import BenchPod.Capture.State

/-!
# The scan of a change capture

A change capture leaves three-byte events in the logic-analyzer region: ten bits of time since the
event before, and the fourteen channels.  Before the read-back, `chgscan_step` walks over them to
the event that ends the stream.
-/

namespace BenchPod.Capture

/-- The event at an offset of the region. -/
def eventAt (region : Mem) (off : Nat) : Nat := Endian.leNat (region.read off 3)

/-- The ticks an event says have passed. -/
def eventDelta (event : Nat) : Nat := event / 16384

/-- The channels of an event. -/
def eventState (event : Nat) : Nat := event % 16384

namespace Chgscan

/-- One event of the scan. -/
def scanEvent (scan : Chgscan) (event : Nat) : Chgscan :=
  let scan := { scan with off := scan.off + 3 }
  if scan.first then { scan with first := false }
  else if eventDelta event = 0 then { scan with ended := true, cause := eventState event }
  else { scan with t := scan.t + eventDelta event }

/-- At most the given number of events, up to the end of the stream or of the region. -/
def scanEvents (region : Mem) : Nat → Chgscan → Chgscan
  | 0, scan => scan
  | left + 1, scan =>
    if scan.ended ∨ scan.region - scan.off < 3 then scan
    else scanEvents region left (scan.scanEvent (eventAt region scan.off))

@[simp]
theorem scanEvent_connId (scan : Chgscan) (event : Nat) : (scan.scanEvent event).connId = scan.connId := by
  unfold scanEvent
  dsimp only
  split
  · rfl
  · split <;> rfl

@[simp]
theorem scanEvents_connId (region : Mem) (left : Nat) (scan : Chgscan) :
    (scanEvents region left scan).connId = scan.connId := by
  induction left generalizing scan with
  | zero => rfl
  | succ left ih =>
    rw [scanEvents]
    split
    · rfl
    · rw [ih, scanEvent_connId]

/-- Events in one read of the region. -/
def readEvents : Nat := 85

/-- Reads in one pass. -/
def passReads : Nat := 16

end Chgscan

/-- What one pass of `chgscan_step` comes to. -/
inductive Scanned
  | more (scan : Chgscan)
  | fails (why : List Byte)
  | ready (scan : Chgscan) (base pre trunc total : Nat)
  deriving DecidableEq

/-- What the capture is known to have been: the ticks after the trigger that were asked for, and
whether the fabric reported an overflow. -/
structure Captured where
  post : Nat
  overflowed : Bool
  deriving DecidableEq

/-- Why a capture with a pre-trigger window that stopped early is no use. -/
def tooMuch (scan : Chgscan) : List Byte :=
  let mhz10 := scan.laHz / 100000
  let rate := toString (mhz10 / 10) ++ "." ++ toString (mhz10 % 10)
  if scan.cause = 1 then
    Json.cstr ("the signals changed faster than the pod can store at " ++ rate ++
      " MS/s (about 6 million changes per second, all channels together); capture at 12 MS/s or lower")
  else
    Json.cstr ("the changes filled the free capture memory at " ++ rate ++
      " MS/s; capture fewer samples or at a lower rate")

/-- `chgscan_step` over a region, of which the read with the given number fails. -/
def chgscanStep (region : Mem) (captured : Captured) (readFails : Option Nat) (scan : Chgscan) : Scanned :=
  let stopped (scan : Chgscan) : Bool := scan.ended || decide (scan.region - scan.off < 3)
  let scan := scan.scanEvents region
    (min (readFails.getD Chgscan.passReads) Chgscan.passReads * Chgscan.readEvents)
  if readFails.any (· < Chgscan.passReads) ∧ stopped scan = false then
    .fails (Json.cstr "PSRAM read-back failed")
  else if stopped scan = false then .more scan
  else if scan.ended = false then
    .fails (Json.cstr "the change stream has no end (PSRAM data damaged or cut)")
  else if scan.cause = 0 ∧ captured.overflowed then
    .fails (Json.cstr "the PSRAM bus was taken during the capture")
  else if scan.cause = 0 then
    -- whole: the last event is on the last tick after t0
    if scan.t + 1 < captured.post ∨ (scan.pre = 0 ∧ scan.t + 1 ≠ captured.post) then
      .fails (Json.cstr "the change stream is incomplete")
    else
      let trig := scan.t + 1 - captured.post
      let pre := if scan.pre = 0 then 0 else min (trig / scan.k) scan.pre
      .ready scan (trig - pre * scan.k) pre 0 (scan.samples + pre)
  else if scan.pre ≠ 0 then
    .fails (tooMuch scan)
  else
    .ready scan 0 0 (if scan.cause = 1 then 1 else 2) (min (scan.t / scan.k + 1) scan.samples)

theorem chgscanStep_connId {region : Mem} {captured : Captured} {readFails : Option Nat} {scan : Chgscan} :
    (∀ after, chgscanStep region captured readFails scan = .more after → after.connId = scan.connId) ∧
      ∀ after base pre trunc total, chgscanStep region captured readFails scan =
        .ready after base pre trunc total → after.connId = scan.connId := by
  unfold chgscanStep
  dsimp only
  constructor
  · intro after more
    repeat' split at more
    all_goals cases more
    exact Chgscan.scanEvents_connId ..
  · intro after base pre trunc total ready
    repeat' split at ready
    all_goals cases ready
    all_goals exact Chgscan.scanEvents_connId ..

end BenchPod.Capture
