import BenchPod.Library.Emitter
import BenchPod.Library.Word
import Mathlib.Logic.Function.Basic

/-!
# la_pins

Every LA pin has one function.  A request is checked as a whole and then committed, and the checks of claims
and of pull resistors meet each other halfway: a claim looks at the pulls that are engaged, a pull at the
function of its pin.
-/

namespace BenchPod.LaPins

/-- `la_fn_t` -/
inductive LaFn
  | none | gpio | uartRx | uartTx | swdClk | swdDio | i2cSda | i2cScl | step | stepDir | spiSck | spiMosi | spiMiso
  | spiCs | gpsTx
  deriving DecidableEq, Repr

/-- `la_gpio_mode_t` -/
inductive LaGpioMode
  | none | input | output | openDrain
  deriving DecidableEq, Repr

/-- `la_pull_dir_t` -/
inductive LaPullDir
  | none | up | down
  deriving DecidableEq, Repr

/-- `la_pin_t` -/
structure LaPin where
  fn : LaFn := .none
  gpio : LaGpioMode := .none
  level : Byte := 0
  deriving DecidableEq, Repr

/-- `s_pin` -/
abbrev Pins := Nat → LaPin

def laPinsCount : Nat := 14

/-- The pins, in the order of every loop over them. -/
def laPins : List Nat := List.range' 1 laPinsCount

def laOk (la : Nat) : Bool := 1 ≤ la ∧ la ≤ laPinsCount

def laPinsReset : Pins := fun _ => {}

def laFnName : LaFn → String
  | .none => "none"
  | .gpio => "gpio"
  | .uartRx => "uart_rx"
  | .uartTx => "uart_tx"
  | .swdClk => "swd_clk"
  | .swdDio => "swd_dio"
  | .i2cSda => "i2c_sda"
  | .i2cScl => "i2c_scl"
  | .step => "step"
  | .stepDir => "step_dir"
  | .spiSck => "spi_sck"
  | .spiMosi => "spi_mosi"
  | .spiMiso => "spi_miso"
  | .spiCs => "spi_cs"
  | .gpsTx => "gps_tx"

def laGpioModeName : LaGpioMode → String
  | .input => "input"
  | .output => "output"
  | .openDrain => "open_drain"
  | .none => ""

def laFnBit (fn : LaFn) : Half := (1 : Half) <<< fn.ctorIdx

/-- The bit of a pin in a mask. -/
def bit (la : Nat) : Half := (1 : Half) <<< (la - 1)

/-- The pin is in a mask. -/
def inMask (mask : Half) (la : Nat) : Bool := mask.getLsbD (la - 1)

def laPinsFn (s : Pins) (la : Nat) : LaFn := if laOk la then (s la).fn else .none

def laPinsGpio (s : Pins) (la : Nat) : LaGpioMode :=
  if laOk la = false ∨ (s la).fn ≠ .gpio then .none else (s la).gpio

def laPinsMaskFn (s : Pins) (fn : LaFn) : Half :=
  laPins.foldl (fun mask la => if (s la).fn = fn then mask ||| bit la else mask) 0

def laPullDir (la : Nat) : LaPullDir :=
  if 1 ≤ la ∧ la ≤ 6 then .up else if la = 7 ∨ la = 8 then .down else .none

def laPullOhms (la : Nat) : String := ["", "4.7k", "4.7k", "2.2k", "2.2k", "10k", "10k", "10k", "10k"].getD la ""

/-! ## Messages -/

def releaseHint (fn : LaFn) (la : Nat) : String :=
  match fn with
  | .gpio => s!"release it with \x7b\"cmd\":\"gpio\",\"la\":{la},\"mode\":\"off\"\x7d"
  | .uartRx | .uartTx => "stop the uart proxy first"
  | .swdClk | .swdDio => "end the SWD session first"
  | .i2cSda | .i2cScl => "stop the sensor emulation first (\x7b\"cmd\":\"sensor_stop\"\x7d)"
  | .step | .stepDir => "wait for the step train to finish"
  | .spiSck | .spiMosi | .spiMiso | .spiCs => "stop the SPI session first (\x7b\"cmd\":\"spi_stop\"\x7d)"
  | .gpsTx => "stop the GPS receiver first (\x7b\"cmd\":\"gps_stop\"\x7d)"
  | .none => ""

def conflictMsg (s : Pins) (la : Nat) : String :=
  let owner := laFnName (s la).fn
  let hint := releaseHint (s la).fn la
  s!"pin conflict: LA{la} is in use by {owner}; {hint}"

/-- pull_down_reason: why a function cannot share its line with an engaged pull-down. -/
def pullDownReason (fn : LaFn) (mode : LaGpioMode) : Option String :=
  match fn with
  | .gpio => if mode = .openDrain then some "a released line would read low" else none
  | .uartRx | .uartTx | .gpsTx => some "the line idles high"
  | .i2cSda | .i2cScl => some "an open-drain bus needs pull-ups"
  | .swdDio => some "SWDIO is pulled up when released"
  | _ => none

def fnDisplay (fn : LaFn) (mode : LaGpioMode) : String :=
  if fn ≠ .gpio then laFnName fn else "gpio " ++ laGpioModeName mode

def notAPin (la : Nat) : String := s!"LA{la} is not a pin (use 1..14)"

/-! ## Checks -/

/-- The first loop of la_pins_check_claim. -/
def checkOwners (s : Pins) (fn : LaFn) (freeFns : Half) : List Nat → Except String Unit
  | [] => .ok ()
  | la :: las =>
    if laOk la = false then .error (notAPin la)
    else
      let owner := (s la).fn
      if owner ≠ .none ∧ owner ≠ fn ∧ freeFns &&& laFnBit owner = 0 then .error (conflictMsg s la)
      else if owner = fn ∧ owner ≠ .none ∧ freeFns &&& laFnBit owner = 0 then .error (conflictMsg s la)
      else checkOwners s fn freeFns las

/-- The second loop. -/
def checkPulls (fn : LaFn) (mode : LaGpioMode) (reason : String) (pullMask : Half) : List Nat → Except String Unit
  | [] => .ok ()
  | la :: las =>
    if laPullDir la ≠ .down ∨ inMask pullMask la = false then checkPulls fn mode reason pullMask las
    else
      let ohms := laPullOhms la
      let name := fnDisplay fn mode
      .error
        (s!"pull conflict: LA{la} has its {ohms} pull-down engaged, which {name} can't work with ({reason}); " ++
          s!"disable it with \x7b\"cmd\":\"la\",\"la\":{la},\"pullup\":\"off\"\x7d or use another channel")

def laPinsCheckClaim (s : Pins) (fn : LaFn) (mode : LaGpioMode) (las : List Nat) (freeFns pullMask : Half) :
    Except String Unit :=
  match checkOwners s fn freeFns las with
  | .error err => .error err
  | .ok () =>
    match pullDownReason fn mode with
    | none => .ok ()
    | some reason => checkPulls fn mode reason pullMask las

def laPinsCheckPullEnable (s : Pins) (la : Nat) : Except String Unit :=
  if laOk la = false ∨ laPullDir la ≠ .down then .ok ()
  else
    match pullDownReason (s la).fn (laPinsGpio s la) with
    | none => .ok ()
    | some reason =>
      let name := fnDisplay (s la).fn (laPinsGpio s la)
      let ohms := laPullOhms la
      .error s!"pull conflict: LA{la} is used by {name}, which can't work with the {ohms} pull-down ({reason})"

def laPinsCheckLevel (s : Pins) : List Nat → Except String Unit
  | [] => .ok ()
  | la :: las =>
    if laOk la = false then .error (notAPin la)
    else if laPinsGpio s la = .output ∨ laPinsGpio s la = .openDrain then laPinsCheckLevel s las
    else
      let name :=
        if (s la).fn = .gpio then "function gpio, gpio " ++ laGpioModeName (laPinsGpio s la)
        else "function " ++ laFnName (s la).fn
      .error
        (s!"LA{la} is not a gpio output ({name}); " ++
          s!"configure it with \x7b\"cmd\":\"gpio\",\"la\":{la},\"mode\":\"output\"\x7d")

/-! ## Commits -/

def laPinsClaim (s : Pins) (fn : LaFn) (mode : LaGpioMode) (level : Byte) (las : List Nat) : Pins :=
  las.foldl
    (fun s la =>
      if laOk la then
        Function.update s la
          { fn, gpio := if fn = .gpio then mode else .none, level := if level ≠ 0 then 1 else 0 }
      else s)
    s

def laPinsSetLevel (s : Pins) (la : Nat) (level : Byte) : Pins :=
  if laOk la then Function.update s la { s la with level := if level ≠ 0 then 1 else 0 } else s

def laPinsRelease (s : Pins) (la : Nat) : Pins := if laOk la then Function.update s la {} else s

/-- la_pins_release_fn: the pins released, and the table. -/
def laPinsReleaseFn (s : Pins) (fn : LaFn) : Half × Pins :=
  let mask := laPinsMaskFn s fn
  if fn = .none then (0, s)
  else (mask, laPins.foldl (fun s la => if inMask mask la then laPinsRelease s la else s) s)

/-! ## The gpio command and the step trains -/

/-- `la_gpio_req_t` -/
structure LaGpioReq where
  las : List Nat
  all : Bool
  hasMode : Bool
  mode : LaGpioMode
  hasLevel : Bool
  level : Byte

def maskOf (las : List Nat) : Half := las.foldl (fun m la => if laOk la then m ||| bit la else m) 0

/-- What la_pins_gpio_apply leaves: the table, `changed`, `affected`, and the message where it returns false. -/
structure Applied where
  pins : Pins
  changed : Half := 0
  affected : Half := 0
  err : Option String := none

/-- The check of mode "off": the message at the first pin some other function owns. -/
def offConflict (s : Pins) : List Nat → Option String
  | [] => none
  | la :: las =>
    if laPinsFn s la ≠ .none ∧ laPinsFn s la ≠ .gpio then some (conflictMsg s la) else offConflict s las

/-- The commit of mode "off". -/
def offCommit (s : Pins) (las : List Nat) : Pins × Half :=
  las.foldl
    (fun (s, changed) la =>
      if laPinsFn s la = .gpio then (laPinsRelease s la, changed ||| bit la) else (s, changed))
    (s, 0)

def laPinsGpioApply (s : Pins) (req : LaGpioReq) (pullMask : Half) : Applied :=
  if req.hasMode = false then
    if req.hasLevel = false then { pins := s, err := some "gpio needs a mode or a level" }
    else if req.all then { pins := s, err := some "\"la\":\"all\" is only allowed with \"mode\":\"off\"" }
    else
      match laPinsCheckLevel s req.las with
      | .error err => { pins := s, err := some err }
      | .ok () =>
        { pins := req.las.foldl (fun s la => laPinsSetLevel s la req.level) s
          changed := maskOf req.las
          affected := maskOf req.las }
  else if req.mode = .none then
    if req.all then
      let released := laPinsReleaseFn s .gpio
      { pins := released.2, changed := released.1, affected := released.1 }
    else
      match offConflict s req.las with
      | some err => { pins := s, err := some err }
      | none =>
        let committed := offCommit s req.las
        { pins := committed.1, changed := committed.2, affected := maskOf req.las }
  else if req.all then { pins := s, err := some "\"la\":\"all\" is only allowed with \"mode\":\"off\"" }
  else if req.mode = .input ∧ req.hasLevel then
    { pins := s, err := some "level applies to output and open_drain pins, not input" }
  else
    match laPinsCheckClaim s .gpio req.mode req.las (laFnBit .gpio) pullMask with
    | .error err => { pins := s, err := some err }
    | .ok () =>
      let level := if req.hasLevel then req.level else if req.mode = .openDrain then 1 else 0
      { pins := laPinsClaim s .gpio req.mode level req.las
        changed := maskOf req.las
        affected := maskOf req.las }

/-- `la_step_plan_t` -/
structure LaStepPlan where
  claimStep : Bool := false
  claimDir : Bool := false
  deriving DecidableEq

/-- A pin of a step train is free, or a gpio output that is used as it is. -/
def planPin (s : Pins) (la : Nat) : Except String Bool :=
  if laPinsFn s la = .none then .ok true
  else if laPinsFn s la = .gpio ∧ laPinsGpio s la = .output then .ok false
  else .error (conflictMsg s la)

def laPinsPlanStep (s : Pins) (la dirLa : Nat) : Except String LaStepPlan :=
  if laOk la = false then .error "invalid args"
  else if dirLa ≠ 0 ∧ laOk dirLa = false then .error "invalid dir_la"
  else if dirLa = la then .error "dir_la must be a different pin than la"
  else
    match planPin s la with
    | .error err => .error err
    | .ok claimStep =>
      if dirLa ≠ 0 then
        match planPin s dirLa with
        | .error err => .error err
        | .ok claimDir => .ok { claimStep, claimDir }
      else .ok { claimStep }

/-! ## The board -/

/-- The functions and the pulls that are engaged. -/
structure Board where
  pins : Pins
  pulls : Half

/-- What the handlers do with the table and the pulls. -/
inductive Op
  | gpio (req : LaGpioReq) (pullMask : Half)
  /-- la_pins_check_claim, and la_pins_claim where it allows that.  A gpio pin is claimed with a mode. -/
  | claim (fn : LaFn) (mode : LaGpioMode) (level : Byte) (las : List Nat) (freeFns pullMask : Half)
      (moded : fn = .gpio → mode ≠ .none)
  /-- la_pins_plan_step, and the claims it plans. -/
  | step (la dirLa : Nat)
  | releaseFn (fn : LaFn)
  /-- A resistor of LA1 to LA8, engaged where la_pins_check_pull_enable allows that. -/
  | pull (la : Nat) (on : Bool) (resistor : 1 ≤ la ∧ la ≤ 8)

/-- The claims of a step train. -/
def claimStep (s : Pins) (plan : LaStepPlan) (la dirLa : Nat) : Pins :=
  let s := if plan.claimStep then laPinsClaim s .step .none 0 [la] else s
  if plan.claimDir then laPinsClaim s .stepDir .none 0 [dirLa] else s

/-- An operation: the board after it, and the message where it was refused. -/
def Op.apply (b : Board) : Op → Board × Option String
  | .gpio req pullMask =>
    let applied := laPinsGpioApply b.pins req pullMask
    ({ b with pins := applied.pins }, applied.err)
  | .claim fn mode level las freeFns pullMask _ =>
    match laPinsCheckClaim b.pins fn mode las freeFns pullMask with
    | .error err => (b, some err)
    | .ok () => ({ b with pins := laPinsClaim b.pins fn mode level las }, none)
  | .step la dirLa =>
    match laPinsPlanStep b.pins la dirLa with
    | .error err => (b, some err)
    | .ok plan => ({ b with pins := claimStep b.pins plan la dirLa }, none)
  | .releaseFn fn => ({ b with pins := (laPinsReleaseFn b.pins fn).2 }, none)
  | .pull la on _ =>
    if on then
      match laPinsCheckPullEnable b.pins la with
      | .error err => (b, some err)
      | .ok () => ({ b with pulls := b.pulls ||| bit la }, none)
    else ({ b with pulls := b.pulls &&& ~~~bit la }, none)

/-- Boards and operations as a system; what it emits are the messages. -/
def board : Emitter Board Op String where
  step b op := (op.apply b).1
  emit b op := (op.apply b).2

/-! ## What the loops do -/

variable {s s' : Pins} {b : Board} {fn : LaFn} {mode : LaGpioMode} {level : Byte} {las : List Nat} {la : Nat}
  {freeFns pullMask : Half} {op : Op}

theorem laOk_iff : laOk la = true ↔ 1 ≤ la ∧ la ≤ 14 := decide_eq_true_iff

theorem mem_laPins : la ∈ laPins ↔ laOk la = true := by
  rw [laPins, List.mem_range'_1, laOk_iff, laPinsCount]
  omega

theorem laPinsClaim_at (s : Pins) (fn : LaFn) (mode : LaGpioMode) (level : Byte) (las : List Nat) (la : Nat) :
    laPinsClaim s fn mode level las la =
      if laOk la = true ∧ la ∈ las then
        { fn, gpio := if fn = .gpio then mode else .none, level := if level ≠ 0 then 1 else 0 }
      else s la := by
  induction las generalizing s with
  | nil => simp [laPinsClaim]
  | cons first las ih =>
    rw [laPinsClaim, List.foldl_cons, ← laPinsClaim, ih]
    rcases Decidable.em (laOk la = true ∧ la ∈ las) with again | not_again
    · have here : laOk la = true ∧ la ∈ first :: las := ⟨again.1, List.mem_cons_of_mem _ again.2⟩
      rw [if_pos again, if_pos here]
    · rw [if_neg not_again]
      rcases Decidable.em (la = first) with rfl | other
      · cases ok : laOk la with
        | true => simp
        | false => simp
      · have here (pin : LaPin) : (if laOk first = true then Function.update s first pin else s) la = s la := by
          split
          · exact Function.update_of_ne other ..
          · rfl
        rw [here, if_neg]
        rintro ⟨ok, member⟩
        exact not_again ⟨ok, (List.mem_cons.mp member).resolve_left other⟩

theorem setLevels_at (s : Pins) (level : Byte) (las : List Nat) (la : Nat) :
    let after := las.foldl (fun s la => laPinsSetLevel s la level) s
    (after la).fn = (s la).fn ∧ (after la).gpio = (s la).gpio ∧ (la ∉ las → after la = s la) := by
  induction las generalizing s with
  | nil => exact ⟨rfl, rfl, fun _ => rfl⟩
  | cons first las ih =>
    have here : (laPinsSetLevel s first level la).fn = (s la).fn ∧
        (laPinsSetLevel s first level la).gpio = (s la).gpio ∧
        (la ≠ first → laPinsSetLevel s first level la = s la) := by
      rw [laPinsSetLevel]
      split
      · rcases Decidable.em (la = first) with rfl | other
        · rw [Function.update_self]
          exact ⟨rfl, rfl, fun other => absurd rfl other⟩
        · rw [Function.update_of_ne other]
          exact ⟨rfl, rfl, fun _ => rfl⟩
      · exact ⟨rfl, rfl, fun _ => rfl⟩
    obtain ⟨fn_eq, gpio_eq, outside⟩ := ih (laPinsSetLevel s first level)
    refine ⟨fn_eq.trans here.1, gpio_eq.trans here.2.1, fun absent => ?_⟩
    rw [List.mem_cons, not_or] at absent
    exact (outside absent.2).trans (here.2.2 absent.1)

theorem laPinsRelease_at (s : Pins) (first la : Nat) :
    laPinsRelease s first la = if laOk la = true ∧ la = first then {} else s la := by
  rw [laPinsRelease]
  rcases Decidable.em (la = first) with rfl | other
  · cases ok : laOk la with
    | true => simp
    | false => simp
  · have outside : ¬(laOk la = true ∧ la = first) := fun both => other both.2
    rw [if_neg outside]
    split
    · exact Function.update_of_ne other ..
    · rfl

theorem inMask_or (mask : Half) {first la : Nat} (first_ok : laOk first = true) (ok : laOk la = true) :
    inMask (mask ||| bit first) la = (inMask mask la || decide (la = first)) := by
  rw [laOk_iff] at first_ok ok
  have one : (bit first).getLsbD (la - 1) = decide (la = first) := by
    change (1#16 <<< (first - 1)).getLsbD (la - 1) = _
    rw [BitVec.getLsbD_shiftLeft, BitVec.getLsbD_one]
    rcases Decidable.em (la = first) with rfl | other
    · have inside : la - 1 < 16 := by omega
      simp [inside]
    · rcases Decidable.em (la - 1 < first - 1) with below | above
      · simp [below, other]
      · have more : ¬la - 1 - (first - 1) = 0 := by omega
        simp [more, other]
  rw [inMask, BitVec.getLsbD_or, one, inMask]

theorem inMask_laPinsMaskFn (s : Pins) (fn : LaFn) (ok : laOk la = true) :
    inMask (laPinsMaskFn s fn) la = decide ((s la).fn = fn) := by
  have loop (pins : List Nat) (mask : Half) (pins_ok : ∀ la ∈ pins, laOk la = true) :
      inMask (pins.foldl (fun mask la => if (s la).fn = fn then mask ||| bit la else mask) mask) la =
        (inMask mask la || (decide (la ∈ pins) && decide ((s la).fn = fn))) := by
    induction pins generalizing mask with
    | nil => simp
    | cons first pins ih =>
      rw [List.foldl_cons, ih _ fun la member => pins_ok la (List.mem_cons_of_mem _ member)]
      have first_ok := pins_ok first List.mem_cons_self
      rcases Decidable.em (la = first) with rfl | other
      · split
        · next same => simp [inMask_or mask first_ok ok, same]
        · next differs => simp [differs]
      · split
        · next same => simp [inMask_or mask first_ok ok, other]
        · simp [other]
  have empty : inMask 0 la = false := BitVec.getLsbD_zero
  rw [laPinsMaskFn, loop _ _ fun la member => mem_laPins.mp member, empty, decide_eq_true (mem_laPins.mpr ok)]
  simp

theorem laPinsReleaseFn_at (s : Pins) (fn : LaFn) (la : Nat) :
    (laPinsReleaseFn s fn).2 la = if fn ≠ .none ∧ laOk la = true ∧ (s la).fn = fn then {} else s la := by
  rw [laPinsReleaseFn]
  split
  · next none => rw [if_neg fun all => all.1 none]
  · next owned =>
      have loop (pins : List Nat) (mask : Half) (s : Pins) :
          pins.foldl (fun s la => if inMask mask la then laPinsRelease s la else s) s la =
            if laOk la = true ∧ la ∈ pins ∧ inMask mask la = true then {} else s la := by
        induction pins generalizing s with
        | nil => simp
        | cons first pins ih =>
          rw [List.foldl_cons, ih]
          rcases Decidable.em (la = first) with rfl | other
          · split
            · simp_all
            · split
              · simp_all [laPinsRelease_at]
              · simp_all
          · have here : (if inMask mask first = true then laPinsRelease s first else s) la = s la := by
              split
              · rw [laPinsRelease_at, if_neg fun both => other both.2]
              · rfl
            simp [here, other]
      dsimp only
      rw [loop]
      cases ok : laOk la with
      | true => simp [inMask_laPinsMaskFn s fn ok, mem_laPins.mpr ok, owned]
      | false => simp

/-! ## What the checks allow -/

theorem checkOwners_ok (allowed : checkOwners s fn freeFns las = .ok ()) :
    ∀ la ∈ las, laOk la = true ∧ ((s la).fn = .none ∨ freeFns &&& laFnBit (s la).fn ≠ 0) := by
  induction las with
  | nil => exact fun la member => absurd member List.not_mem_nil
  | cons first las ih =>
    rw [checkOwners] at allowed
    split at allowed
    · cases allowed
    next ok =>
      dsimp only at allowed
      split at allowed
      · cases allowed
      next other =>
        split at allowed
        · cases allowed
        next own =>
          rw [List.forall_mem_cons]
          refine ⟨⟨Bool.not_eq_false _ ▸ ok, ?_⟩, ih allowed⟩
          by_contra owned
          rw [not_or, not_not] at owned
          rcases Decidable.em ((s first).fn = fn) with same | differs
          · exact own ⟨same, owned.1, owned.2⟩
          · exact other ⟨owned.1, differs, owned.2⟩

theorem checkPulls_ok {reason : String} (allowed : checkPulls fn mode reason pullMask las = .ok ()) :
    ∀ la ∈ las, laPullDir la = .down → inMask pullMask la = false := by
  induction las with
  | nil => exact fun la member => absurd member List.not_mem_nil
  | cons first las ih =>
    rw [checkPulls] at allowed
    split at allowed
    · next apart =>
        rw [List.forall_mem_cons]
        exact ⟨fun down => apart.resolve_left (not_not.mpr down), ih allowed⟩
    · cases allowed

theorem laPinsCheckClaim_ok (allowed : laPinsCheckClaim s fn mode las freeFns pullMask = .ok ()) :
    (∀ la ∈ las, laOk la = true ∧ ((s la).fn = .none ∨ freeFns &&& laFnBit (s la).fn ≠ 0)) ∧
      (pullDownReason fn mode = none ∨ ∀ la ∈ las, laPullDir la = .down → inMask pullMask la = false) := by
  rw [laPinsCheckClaim] at allowed
  split at allowed
  · cases allowed
  next owners =>
    refine ⟨checkOwners_ok owners, ?_⟩
    split at allowed
    · next free => exact .inl free
    · exact .inr (checkPulls_ok allowed)

theorem gpio_bit (fn : LaFn) : laFnBit .gpio &&& laFnBit fn ≠ 0 ↔ fn = .gpio := by
  cases fn <;> decide

theorem laPinsCheckLevel_ok (allowed : laPinsCheckLevel s las = .ok ()) : ∀ la ∈ las, (s la).fn = .gpio := by
  induction las with
  | nil => exact fun la member => absurd member List.not_mem_nil
  | cons first las ih =>
    rw [laPinsCheckLevel] at allowed
    split at allowed
    · cases allowed
    split at allowed
    · next driven =>
        rw [List.forall_mem_cons]
        refine ⟨?_, ih allowed⟩
        by_contra other
        rw [laPinsGpio, if_pos (.inr other)] at driven
        rcases driven with wrong | wrong <;> cases wrong
    · cases allowed

theorem offCommit_at (s : Pins) (las : List Nat) (la : Nat) :
    (offCommit s las).1 la = if laOk la = true ∧ la ∈ las ∧ (s la).fn = .gpio then {} else s la := by
  have loop (s : Pins) (mask : Half) : (las.foldl (fun (s, changed) la =>
          if laPinsFn s la = .gpio then (laPinsRelease s la, changed ||| bit la) else (s, changed))
        (s, mask)).1 la =
      if laOk la = true ∧ la ∈ las ∧ (s la).fn = .gpio then {} else s la := by
    induction las generalizing s mask with
    | nil => simp
    | cons first las ih =>
      rw [List.foldl_cons]
      dsimp only
      split
      · next gpio =>
          rw [ih, laPinsRelease_at]
          rcases Decidable.em (la = first) with rfl | other
          · cases ok : laOk la with
            | true =>
              have own : (s la).fn = .gpio := by
                rw [laPinsFn, if_pos ok] at gpio
                exact gpio
              simp [own]
            | false => simp
          · simp [other]
      · next kept =>
          rw [ih]
          rcases Decidable.em (la = first) with rfl | other
          · cases ok : laOk la with
            | true =>
              have own : ¬(s la).fn = .gpio := by
                rw [laPinsFn, if_pos ok] at kept
                exact kept
              simp [own]
            | false => simp
          · simp [other]
  exact loop s 0

theorem planPin_claims (allowed : planPin s la = .ok true) (ok : laOk la = true) : (s la).fn = .none := by
  rw [planPin, laPinsFn, if_pos ok] at allowed
  split at allowed
  · next free => exact free
  split at allowed
  · cases allowed
  · cases allowed

theorem laPinsPlanStep_ok {plan : LaStepPlan} {dirLa : Nat} (allowed : laPinsPlanStep s la dirLa = .ok plan) :
    dirLa ≠ la ∧ (plan.claimStep = true → (s la).fn = .none) ∧ (plan.claimDir = true → (s dirLa).fn = .none) := by
  rw [laPinsPlanStep] at allowed
  split at allowed
  · cases allowed
  next ok =>
    split at allowed
    · cases allowed
    next dir_ok =>
      split at allowed
      · cases allowed
      next differ =>
        rw [Bool.not_eq_false] at ok
        refine ⟨differ, ?_⟩
        split at allowed
        · cases allowed
        next claimStep step_plan =>
          have step_free : claimStep = true → (s la).fn = .none := by
            rintro rfl
            exact planPin_claims step_plan ok
          split at allowed
          · next dir =>
              split at allowed
              · cases allowed
              next claimDir dir_plan =>
                cases allowed
                refine ⟨step_free, ?_⟩
                rintro (rfl : claimDir = true)
                rw [not_and, Bool.not_eq_false] at dir_ok
                exact planPin_claims dir_plan (dir_ok dir)
          · cases allowed
            exact ⟨step_free, fun wrong => absurd wrong Bool.false_ne_true⟩

/-! ## Every operation -/

/-- The functions that an operation may replace. -/
def Op.Replaces : Op → LaFn → Prop
  | .gpio _ _, owner => owner = .gpio
  | .claim _ _ _ _ freeFns _ _, owner => freeFns &&& laFnBit owner ≠ 0
  | .step _ _, _ => False
  | .releaseFn fn, owner => owner = fn
  | .pull _ _ _, _ => False

/-- An operation is told of every pull that is engaged. -/
def Op.Told (b : Board) : Op → Prop
  | .gpio _ pullMask => ∀ la, inMask b.pulls la = true → inMask pullMask la = true
  | .claim _ _ _ _ _ pullMask _ => ∀ la, inMask b.pulls la = true → inMask pullMask la = true
  | _ => True

/-- A pin has a gpio mode exactly when its function is gpio. -/
def Moded (pin : LaPin) : Prop := pin.gpio ≠ .none ↔ pin.fn = .gpio

/-- No pull-down is engaged on a pin whose function cannot work with it. -/
def Compatible (b : Board) : Prop :=
  ∀ la, laPullDir la = .down → inMask b.pulls la = true → pullDownReason (b.pins la).fn (b.pins la).gpio = none

/-- What an operation may do to a pin. -/
structure PinStep (b : Board) (op : Op) (la : Nat) : Prop where
  kept : (b.pins la).fn ≠ .none → ¬op.Replaces (b.pins la).fn → (op.apply b).1.pins la = b.pins la
  refused : (op.apply b).2 ≠ none → (op.apply b).1.pins la = b.pins la
  moded : Moded (b.pins la) → Moded ((op.apply b).1.pins la)
  fits : op.Told b → laPullDir la = .down → inMask b.pulls la = true →
    pullDownReason (b.pins la).fn (b.pins la).gpio = none →
      pullDownReason ((op.apply b).1.pins la).fn ((op.apply b).1.pins la).gpio = none

theorem PinStep.of_same (same : (op.apply b).1.pins la = b.pins la) : PinStep b op la where
  kept _ _ := same
  refused _ := same
  moded moded := same.symm ▸ moded
  fits _ _ _ free := same.symm ▸ free

theorem moded_free : Moded {} := ⟨fun wrong => absurd rfl wrong, fun wrong => nomatch wrong⟩

theorem PinStep.of_changed (done : (op.apply b).2 = none) {pin : LaPin} {Named : Prop} [Decidable Named]
    (after : (op.apply b).1.pins la = if Named then pin else b.pins la)
    (named : Named → (b.pins la).fn = .none ∨ op.Replaces (b.pins la).fn) (moded : Moded pin)
    (fits : Named → op.Told b → laPullDir la = .down → inMask b.pulls la = true →
      pullDownReason pin.fn pin.gpio = none) : PinStep b op la := by
  rcases Decidable.em Named with touched | apart
  · rw [if_pos touched] at after
    refine ⟨fun owned other => ?_, fun refused => absurd done refused, fun _ => after.symm ▸ moded, ?_⟩
    · exact ((named touched).resolve_left owned |> other).elim
    · intro told down engaged _
      rw [after]
      exact fits touched told down engaged
  · rw [if_neg apart] at after
    exact PinStep.of_same after

theorem pinStep_claim (allowed : laPinsCheckClaim b.pins fn mode las freeFns pullMask = .ok ())
    (moded : fn = .gpio → mode ≠ .none) (level : Byte) (la : Nat) (done : (op.apply b).2 = none)
    (after : (op.apply b).1.pins = laPinsClaim b.pins fn mode level las)
    (replaces : ∀ owner, freeFns &&& laFnBit owner ≠ 0 → op.Replaces owner)
    (told : op.Told b → ∀ la, inMask b.pulls la = true → inMask pullMask la = true) : PinStep b op la := by
  obtain ⟨free, fits⟩ := laPinsCheckClaim_ok allowed
  refine PinStep.of_changed done (by rw [after, laPinsClaim_at]) ?_ ?_ ?_
  · rintro ⟨_, member⟩
    exact (free la member).2.imp_right (replaces _)
  · rw [Moded]
    dsimp only
    split
    · next gpio => exact ⟨fun _ => gpio, fun _ => moded gpio⟩
    · next other => exact ⟨fun wrong => absurd rfl wrong, fun gpio => absurd gpio other⟩
  · rintro ⟨_, member⟩ all down engaged
    have same : pullDownReason fn (if fn = .gpio then mode else .none) = pullDownReason fn mode := by cases fn <;> rfl
    dsimp only
    rw [same]
    rcases fits with none | clear
    · exact none
    · have off := clear la member down
      rw [told all la engaged] at off
      cases off

theorem pinStep_gpio (b : Board) (req : LaGpioReq) (pullMask : Half) (la : Nat) : PinStep b (.gpio req pullMask) la := by
  have released (named : Prop) [Decidable named] (own : named → (b.pins la).fn = .gpio)
      (done : ((Op.gpio req pullMask).apply b).2 = none)
      (after : ((Op.gpio req pullMask).apply b).1.pins la = if named then {} else b.pins la) :
      PinStep b (.gpio req pullMask) la :=
    PinStep.of_changed done after (fun touched => .inr (own touched)) moded_free fun _ _ _ _ => rfl
  cases applied : laPinsGpioApply b.pins req pullMask with
  | mk pins changed affected err =>
    have pins_eq : ((Op.gpio req pullMask).apply b).1.pins = pins := by rw [Op.apply, applied]
    have err_eq : ((Op.gpio req pullMask).apply b).2 = err := by rw [Op.apply, applied]
    rw [laPinsGpioApply] at applied
    split at applied
    · split at applied
      · cases applied
        exact PinStep.of_same (congrFun pins_eq la)
      split at applied
      · cases applied
        exact PinStep.of_same (congrFun pins_eq la)
      split at applied
      · cases applied
        exact PinStep.of_same (congrFun pins_eq la)
      · next leveled =>
          cases applied
          have gpio := laPinsCheckLevel_ok leveled
          obtain ⟨fn_eq, mode_eq, outside⟩ := setLevels_at b.pins req.level req.las la
          rw [← pins_eq] at fn_eq mode_eq outside
          refine ⟨fun _ other => outside fun member => other (gpio la member), fun refused => absurd err_eq refused,
            fun moded => ?_, fun _ _ _ free => ?_⟩
          · rw [Moded, fn_eq, mode_eq]
            exact moded
          · rw [fn_eq, mode_eq]
            exact free
    split at applied
    · split at applied
      · cases applied
        exact released _ (fun named => named.2.2) err_eq ((congrFun pins_eq la).trans (laPinsReleaseFn_at ..))
      · split at applied
        · cases applied
          exact PinStep.of_same (congrFun pins_eq la)
        · cases applied
          exact released _ (fun named => named.2.2) err_eq ((congrFun pins_eq la).trans (offCommit_at ..))
    next mode =>
      split at applied
      · cases applied
        exact PinStep.of_same (congrFun pins_eq la)
      split at applied
      · cases applied
        exact PinStep.of_same (congrFun pins_eq la)
      split at applied
      · cases applied
        exact PinStep.of_same (congrFun pins_eq la)
      · next allowed =>
          cases applied
          exact pinStep_claim allowed (fun _ => mode) _ la err_eq pins_eq (fun owner free => (gpio_bit owner).mp free)
            fun told => told

theorem pinStep_step (b : Board) (step dirLa la : Nat) : PinStep b (.step step dirLa) la := by
  cases planned : laPinsPlanStep b.pins step dirLa with
  | error err =>
    have same : (Op.step step dirLa).apply b = (b, some err) := by rw [Op.apply, planned]
    exact PinStep.of_same (by rw [same])
  | ok plan =>
    obtain ⟨differ, step_free, dir_free⟩ := laPinsPlanStep_ok planned
    have whole : (Op.step step dirLa).apply b = ({ b with pins := claimStep b.pins plan step dirLa }, none) := by
      rw [Op.apply, planned]
    have pin_at : claimStep b.pins plan step dirLa la =
        if plan.claimDir = true ∧ laOk la = true ∧ la = dirLa then { fn := .stepDir }
        else if plan.claimStep = true ∧ laOk la = true ∧ la = step then { fn := .step } else b.pins la := by
      rw [claimStep]
      cases plan.claimDir with
      | true => cases plan.claimStep with
        | true => simp [laPinsClaim_at]
        | false => simp [laPinsClaim_at]
      | false => cases plan.claimStep with
        | true => simp [laPinsClaim_at]
        | false => simp
    have after : ((Op.step step dirLa).apply b).1.pins la = claimStep b.pins plan step dirLa la := by rw [whole]
    have done : ((Op.step step dirLa).apply b).2 = none := by rw [whole]
    rw [pin_at] at after
    rcases Decidable.em (plan.claimDir = true ∧ laOk la = true ∧ la = dirLa) with dir | not_dir
    · rw [if_pos dir] at after
      have same : ((Op.step step dirLa).apply b).1.pins la = if True then { fn := .stepDir } else b.pins la := by
        rw [after, if_pos trivial]
      refine PinStep.of_changed done same ?_
        ⟨fun wrong => absurd rfl wrong, fun wrong => nomatch wrong⟩ fun _ _ _ _ => rfl
      intro _
      rw [dir.2.2]
      exact .inl (dir_free dir.1)
    · rw [if_neg not_dir] at after
      refine PinStep.of_changed done after ?_ ⟨fun wrong => absurd rfl wrong, fun wrong => nomatch wrong⟩
        fun _ _ _ _ => rfl
      rintro ⟨claimed, _, rfl⟩
      exact .inl (step_free claimed)

theorem pinStep (b : Board) (op : Op) (la : Nat) : PinStep b op la := by
  cases op with
  | gpio req pullMask => exact pinStep_gpio b req pullMask la
  | claim fn mode level las freeFns pullMask moded =>
    cases checked : laPinsCheckClaim b.pins fn mode las freeFns pullMask with
    | error err =>
      refine PinStep.of_same ?_
      rw [Op.apply, checked]
    | ok done =>
      refine pinStep_claim checked moded level la ?_ ?_ (fun _ free => free) fun told => told
      · rw [Op.apply, checked]
      · rw [Op.apply, checked]
  | step step dirLa => exact pinStep_step b step dirLa la
  | releaseFn fn =>
    refine PinStep.of_changed rfl (laPinsReleaseFn_at b.pins fn la) (fun named => .inr named.2.2) moded_free ?_
    exact fun _ _ _ _ => rfl
  | pull la' on resistor =>
    refine PinStep.of_same ?_
    rw [Op.apply]
    split
    · split
      · rfl
      · rfl
    · rfl

/-- Engaging and releasing resistors keeps off the pins that cannot work with a pull-down. -/
theorem Compatible.step (compatible : Compatible b) (told : op.Told b) : Compatible (op.apply b).1 := by
  have kept (pulls_eq : (op.apply b).1.pulls = b.pulls) : Compatible (op.apply b).1 := by
    intro la down engaged
    rw [pulls_eq] at engaged
    exact (pinStep b op la).fits told down engaged (compatible la down engaged)
  cases op with
  | gpio req pullMask => exact kept rfl
  | claim fn mode level las freeFns pullMask moded =>
    refine kept ?_
    rw [Op.apply]
    split
    · rfl
    · rfl
  | step step dirLa =>
    refine kept ?_
    rw [Op.apply]
    split
    · rfl
    · rfl
  | releaseFn fn => exact kept rfl
  | pull first on resistor =>
    cases on with
    | false =>
      intro la down engaged
      refine compatible la down ?_
      have both : inMask (b.pulls &&& ~~~bit first) la = true := engaged
      rw [inMask, BitVec.getLsbD_and, Bool.and_eq_true] at both
      exact both.1
    | true =>
      cases checked : laPinsCheckPullEnable b.pins first with
      | error err =>
        have same : ((Op.pull first true resistor).apply b).1 = b := by rw [Op.apply, if_pos rfl, checked]
        rw [same]
        exact compatible
      | ok done =>
        have after : ((Op.pull first true resistor).apply b).1 = { b with pulls := b.pulls ||| bit first } := by
          rw [Op.apply, if_pos rfl, checked]
        rw [after]
        intro la down engaged
        have ok : laOk la = true := by
          rw [laOk_iff]
          rw [laPullDir] at down
          split at down
          · cases down
          split at down
          · omega
          · cases down
        rw [inMask_or _ (laOk_iff.mpr (by omega)) ok, Bool.or_eq_true, decide_eq_true_iff] at engaged
        rcases engaged with before | rfl
        · exact compatible la down before
        · rw [laPinsCheckPullEnable, if_neg (by rw [ok, down]; simp)] at checked
          split at checked
          · next free =>
              rw [laPinsGpio, ok] at free
              cases fn_eq : (b.pins la).fn with
              | gpio =>
                rw [fn_eq] at free
                exact free
              | _ =>
                rw [fn_eq] at free
                exact free
          · cases checked

end BenchPod.LaPins
