import BenchPod.Library.Recent

/-!
# The recovery ladder

What `recovery.c` decides: when captures keep failing it reloads the iCE40, then resets the STM32, and
it restarts an Ethernet link that stays down.  The times of the last steps are in rings; a reset loses
them, and only the number of resets is kept.
-/

namespace BenchPod.Recovery

def recoveryFailMs : Word := 10000

def recoveryReloadGapMs : Word := 30000

def recoveryReloadsPerEpisode : Word := 2

def recoveryReloadsPerHour : Nat := 6

def recoveryResetsMax : Word := 2

def recoveryHealthyMs : Word := 600000

def recoveryLinkDownMs : Word := 20000

def recoveryEthGapMs : Word := 60000

def recoveryEthPerHour : Nat := 10

def recoveryHourMs : Word := 3600000

/-- `recovery_action_t`. -/
inductive RecoveryAction
  | none
  | ice40Reload
  | mcuReset
  | ethRestart
  deriving DecidableEq

/-- `recovery_t`; the default is what `recovery_init` clears it to. -/
structure RecoveryT where
  /-- Reloads since the captures started failing. -/
  episodeReloads : Word := 0
  lastReloadMs : Word := 0
  /-- The ring of the last reloads. -/
  reloadTimes : Vector Word recoveryReloadsPerHour := Vector.replicate _ 0
  /-- Reloads ever. -/
  reloadN : Word := 0
  healthySinceMs : Word := 0
  healthyValid : Bool := false
  lastEthMs : Word := 0
  ethTimes : Vector Word recoveryEthPerHour := Vector.replicate _ 0
  ethN : Word := 0
  limitNoted : Bool := false

def recoveryInit (nowMs : Word) : RecoveryT := { healthySinceMs := nowMs }

/-- `in_last_hour`: how many of the times a ring holds are recent. -/
def inLastHour {size : Nat} (ring : Vector Word size) (n nowMs : Word) : Nat :=
  (ring.toList.take n.toNat).countP fun time => nowMs - time < recoveryHourMs

variable (r : RecoveryT) (nowMs failMs linkDownMs resets : Word)

def reloadAllowed : Bool := inLastHour r.reloadTimes r.reloadN nowMs < recoveryReloadsPerHour

def resetDue : Bool :=
  if r.episodeReloads = 0 then recoveryFailMs + recoveryReloadGapMs ≤ failMs
  else recoveryReloadGapMs ≤ nowMs - r.lastReloadMs

/-- The episode may still reload. -/
def moreReloads : Bool := r.episodeReloads < recoveryReloadsPerEpisode && reloadAllowed r nowMs

/-- The part of `recovery_poll` that keeps track of health. -/
def noteHealth : RecoveryT × Word :=
  if failMs = 0 then
    let r := if r.healthyValid then r else
      { r with healthyValid := true, healthySinceMs := nowMs, episodeReloads := 0, limitNoted := false }
    (r, if resets ≠ 0 ∧ recoveryHealthyMs ≤ nowMs - r.healthySinceMs then 0 else resets)
  else ({ r with healthyValid := false }, resets)

/-- The next step for captures that fail. -/
def captureStep : RecoveryAction :=
  if failMs < recoveryFailMs then .none
  else if moreReloads r nowMs then
    if r.episodeReloads = 0 ∨ recoveryReloadGapMs ≤ nowMs - r.lastReloadMs then .ice40Reload else .none
  else if resets < recoveryResetsMax ∧ resetDue r nowMs failMs then .mcuReset
  else .none

/-- The next step for a link that is down. -/
def linkStep : RecoveryAction :=
  if recoveryLinkDownMs ≤ linkDownMs ∧ (r.ethN = 0 ∨ recoveryEthGapMs ≤ nowMs - r.lastEthMs) ∧
      inLastHour r.ethTimes r.ethN nowMs < recoveryEthPerHour then .ethRestart
  else .none

/-- `recovery_poll`: the state and the reset count it leaves, and the step to take. -/
def recoveryPoll : (RecoveryT × Word) × RecoveryAction :=
  let (r, resets) := noteHealth r nowMs failMs resets
  let a := captureStep r nowMs failMs resets
  ((r, resets), if a = .none then linkStep r nowMs linkDownMs else a)

def recoveryDone (a : RecoveryAction) : RecoveryT × Word :=
  match a with
  | .ice40Reload =>
    ({ r with
        episodeReloads := r.episodeReloads + 1
        lastReloadMs := nowMs
        reloadTimes := r.reloadTimes.set (r.reloadN.toNat % recoveryReloadsPerHour) nowMs
          (Nat.mod_lt _ (by decide))
        reloadN := r.reloadN + 1 }, resets)
  | .mcuReset => (r, resets + 1)
  | .ethRestart =>
    ({ r with
        lastEthMs := nowMs
        ethTimes := r.ethTimes.set (r.ethN.toNat % recoveryEthPerHour) nowMs (Nat.mod_lt _ (by decide))
        ethN := r.ethN + 1 }, resets)
  | .none => (r, resets)

def recoveryExhausted : RecoveryT × Bool :=
  if r.limitNoted ∨ failMs < recoveryFailMs then (r, false)
  else if moreReloads r nowMs ∨ resets < recoveryResetsMax then (r, false)
  else ({ r with limitNoted := true }, true)

/-- What the log of a run says about one moment: a boot, or a poll with its step. -/
inductive Note
  | boot
  | poll (working : Bool) (a : RecoveryAction)
  deriving DecidableEq

/-- A note with its time, in milliseconds from the start of the run. -/
structure Entry where
  time : Nat
  note : Note
  deriving DecidableEq

/-- A run of the ladder: the clock's value at the start of the run as this boot counts it, the state,
the reset count that survives, and the log with the newest entry first. -/
structure Watch where
  start : Word
  r : RecoveryT
  resets : Word
  log : List Entry

/-- What happens next: a poll whose step is taken and reported, a look at the limits, or a boot that
starts the clock anew. -/
inductive Event
  | poll (time : Nat) (failMs linkDownMs : Word)
  | exhausted (time : Nat) (failMs : Word)
  | boot (time : Nat) (start : Word)

namespace Event

/-- When an event happens. -/
def time : Event → Nat
  | .poll time _ _ | .exhausted time _ | .boot time _ => time

end Event

namespace Watch

/-- The run that starts with a boot. -/
def init (start resets : Word) : Watch := ⟨start, recoveryInit (clockAt start 0), resets, []⟩

/-- One event. -/
def step (watch : Watch) : Event → Watch
  | .poll time failMs linkDownMs =>
    let nowMs := clockAt watch.start time
    let ((r, resets), a) := recoveryPoll watch.r nowMs failMs linkDownMs watch.resets
    let (r, resets) := recoveryDone r nowMs resets a
    { watch with r, resets, log := ⟨time, .poll (failMs = 0) a⟩ :: watch.log }
  | .exhausted time failMs =>
    { watch with r := (recoveryExhausted watch.r (clockAt watch.start time) failMs watch.resets).1 }
  | .boot time start =>
    { watch with start, r := recoveryInit (clockAt start time), log := ⟨time, .boot⟩ :: watch.log }

/-- A sequence of events. -/
def run : Watch → List Event → Watch := List.foldl step

end Watch
end BenchPod.Recovery
