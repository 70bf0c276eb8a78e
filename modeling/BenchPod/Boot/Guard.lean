import BenchPod.Library.Word

/-!
# The failed-boot counter and safe mode

The counter lives in RAM that survives a reset.  Every boot counts itself as failed when it begins
and takes that back when it has been up long enough or ends by a planned reset.  Two failed boots in
a row put the next one in safe mode, which keeps counting whatever it does.
-/

namespace BenchPod.BootGuard

/-- Marks a record that a boot has written; the RAM is random after power-on. -/
def recordMagic : Word := 0x42475232

/-- Failed boots in a row before safe mode. -/
def safeAfter : Word := 2

def stageNone : Word := 0
def stageNetInit : Word := 5
def stageHwInit : Word := 6
def stageRunning : Word := 7
def stageCount : Word := 8

/-- Networking. -/
def subNet : Word := 1

/-- The gateware link and the PSRAM. -/
def subHw : Word := 2

def subAll : Word := subNet ||| subHw

/-- The name of a boot step. -/
def stageName (stage : Word) : String :=
  ["start", "early hardware", "device identity", "usb", "starting tasks", "network", "ice40/psram",
    "running"].getD stage.toNat ""

/-- `boot_policy_culprit`: the subsystem a dead boot points at. -/
def culprit (started done : Word) (crashTask : String) : Word :=
  if crashTask = "net" then subNet
  else if crashTask = "hw" then subHw
  else started &&& ~~~done &&& subAll

/-- `boot_policy_off`: what a safe boot turns off. -/
def policyOff (prevOff culprit : Word) : Word :=
  let prevOff := prevOff &&& subAll
  if culprit ≠ 0 then prevOff ||| culprit
  else if prevOff ≠ 0 then prevOff else subAll

/-- `boot_policy_off_str`. -/
def policyOffStr (off : Word) : String :=
  if off &&& subAll = subNet then "network"
  else if off &&& subAll = subHw then "iCE40/PSRAM"
  else "network and iCE40/PSRAM"

/-- The record that survives a reset. -/
structure BootRecord where
  magic : Word
  /-- Boots in a row that never became healthy. -/
  failed : Word
  /-- The step the current boot is in. -/
  stage : Word
  lastStage : Word
  /-- Subsystems whose bring-up began this boot. -/
  started : Word
  /-- Subsystems whose bring-up finished this boot. -/
  done : Word
  /-- Subsystems this boot turned off. -/
  off : Word

/-- Everything that survives a reset. -/
structure Noinit where
  record : BootRecord
  testMagic : Word
  testLeft : Word
  testSub : Word

/-- The state of a running boot. -/
structure BootState where
  noinit : Noinit
  safe : Bool
  off : Word
  hwReady : Bool
  /-- The count before this boot. -/
  priorFailed : Word
  report : String

/-- Marks an armed boot-loop test. -/
def testLoopMagic : Word := 0x544c4f4f

def safePrefix : String := "safe mode: "

/-- `boot_guard_begin`, on RAM that the reset has cleared. -/
def begin (fresh : Bool) (crashTask : String) (noinit : Noinit) : BootState :=
  let record := noinit.record
  let known := !fresh && record.magic == recordMagic
  let failed := if known then record.failed else 0
  let last := if known && record.stage.ult stageCount then record.stage else stageNone
  let prevOff := if known then record.off else 0
  let culprit := culprit (if known then record.started else 0) (if known then record.done else 0) crashTask
  let safe := safeAfter.ule failed
  let off := if safe then policyOff prevOff culprit else 0
  let place :=
    if culprit = subNet then stageName stageNetInit
    else if culprit = subHw then stageName stageHwInit
    else stageName last
  { noinit :=
      { record :=
          { magic := recordMagic
            failed := failed + 1
            stage := stageNone
            lastStage := last
            started := 0
            done := 0
            off := off }
        testMagic := if safe then 0 else noinit.testMagic
        testLeft := noinit.testLeft
        testSub := noinit.testSub }
    safe := safe
    off := off
    hwReady := false
    priorFailed := failed
    report :=
      if safe then
        safePrefix ++ toString failed.toNat ++ " failed boots in a row, the last in \"" ++ place ++
          "\"; " ++ policyOffStr off ++ " off"
      else "" }

namespace BootState

/-- Change the surviving record. -/
def modifyRecord (state : BootState) (change : BootRecord → BootRecord) : BootState :=
  { state with noinit := { state.noinit with record := change state.noinit.record } }

/-- `boot_guard_stage`. -/
def stage (state : BootState) (step : Word) : BootState :=
  state.modifyRecord fun record => { record with stage := step }

/-- `boot_guard_sub_start`. -/
def subStart (state : BootState) (sub : Word) : BootState :=
  state.modifyRecord fun record => { record with started := record.started ||| sub }

/-- `boot_guard_sub_done`. -/
def subDone (state : BootState) (sub : Word) : BootState :=
  state.modifyRecord fun record => { record with done := record.done ||| sub }

/-- `boot_guard_healthy`. -/
def healthy (state : BootState) : BootState :=
  if state.safe then state
  else state.modifyRecord fun record => { record with failed := 0, stage := stageRunning }

/-- `boot_guard_planned_reset`. -/
def plannedReset (state : BootState) (planned : Bool) : BootState :=
  if state.safe then state
  else state.modifyRecord fun record =>
    { record with failed := if planned then state.priorFailed else state.priorFailed + 1 }

/-- `boot_guard_set_hw_ready`. -/
def setHwReady (state : BootState) : BootState := { state with hwReady := true }

/-- `boot_guard_arm_test_loop`. -/
def armTestLoop (state : BootState) (boots sub : Word) : BootState :=
  { state with noinit := { state.noinit with testLeft := boots, testSub := sub, testMagic := testLoopMagic } }

/-- `boot_guard_test_loop_point`: the state after it, and whether the boot crashes there. -/
def testLoopPoint (state : BootState) (sub : Word) : BootState × Bool :=
  if state.noinit.testMagic ≠ testLoopMagic ∨ state.noinit.testSub ≠ sub then (state, false)
  else if state.safe ∨ state.noinit.testLeft = 0 then
    ({ state with noinit := { state.noinit with testMagic := 0 } }, false)
  else
    ({ state with noinit := { state.noinit with testLeft := state.noinit.testLeft - 1 } }, true)

end BootState

/-- What the firmware calls while a boot runs. -/
inductive Call where
  | stage (step : Word)
  | subStart (sub : Word)
  | subDone (sub : Word)
  | healthy
  | plannedReset (planned : Bool)
  | setHwReady
  | armTestLoop (boots sub : Word)
  | testLoopPoint (sub : Word)
  deriving DecidableEq

/-- The effect of one call. -/
def Call.run (state : BootState) : Call → BootState
  | .stage step => state.stage step
  | .subStart sub => state.subStart sub
  | .subDone sub => state.subDone sub
  | .healthy => state.healthy
  | .plannedReset planned => state.plannedReset planned
  | .setHwReady => state.setHwReady
  | .armTestLoop boots sub => state.armTestLoop boots sub
  | .testLoopPoint sub => (state.testLoopPoint sub).1

/-- One boot, from its reset to the next. -/
structure Boot where
  /-- It began with a power-on or the reset button. -/
  fresh : Bool
  /-- The task the boot before it crashed in, empty if none. -/
  crashTask : String
  /-- What ran before it ended. -/
  calls : List Call
  deriving DecidableEq

/-- The state in which a boot ends. -/
def Boot.finish (boot : Boot) (noinit : Noinit) : BootState :=
  boot.calls.foldl Call.run (begin boot.fresh boot.crashTask noinit)

/-- What survives a sequence of boots. -/
def runBoots (noinit : Noinit) (boots : List Boot) : Noinit :=
  boots.foldl (fun noinit boot => (boot.finish noinit).noinit) noinit

end BenchPod.BootGuard
