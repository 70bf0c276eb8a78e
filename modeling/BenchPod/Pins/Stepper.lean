import BenchPod.Capture.I2cLa

/-!
# Step trains

The firmware orders a train of pulses in one command; an engine in the gateware makes them with three counters,
one for the clocks of a microsecond, one for the microseconds of a half-phase and one for the steps.
`fpga_la_step` of `signal_engine.c`, `stepper_engine.v`, and the payload shift register of `cmd_dispatch.v`.
-/

namespace BenchPod.Stepper

open Endian

/-- The inputs of the engine at one edge. -/
structure Input where
  rst : Bool := false
  start : Bool := false
  channel : BitVec 4 := 0
  steps : Half := 0
  delayUs : Half := 0

/-- The registers of the engine, with the two halves of its counter. -/
structure Engine where
  busy : Bool := false
  stepChannel : BitVec 4 := 0
  stepVal : Bool := false
  presc : BitVec 5 := 0
  delayLat : Half := 0
  phase : Bool := false
  usLeft : Half := 0
  stepsLeft : Half := 0

def clkMhz : Nat := 24

/-- One half of `dsp_counter2`, counting down. -/
def dspCounter2 (load : Bool) (val : Half) (en : Bool) (q : Half) : Half :=
  if load then val else if en then q - 1 else q

/-- One edge of `stepper_engine`. -/
def Engine.tick (e : Engine) (i : Input) : Engine :=
  let fresh := i.start && !e.busy && i.steps != 0
  let usNz := e.usLeft != 0
  let usTick := e.busy && e.presc == BitVec.ofNat 5 (clkMhz - 1)
  let halfDone := usTick && !usNz
  let last := decide (e.stepsLeft ≤ 1)
  let usLeft := dspCounter2 (!i.rst && (fresh || halfDone && !(e.phase && last)))
    (if fresh then i.delayUs else e.delayLat) (!i.rst && usTick && usNz) e.usLeft
  let stepsLeft := dspCounter2 (!i.rst && fresh) i.steps (!i.rst && halfDone && e.phase && !last) e.stepsLeft
  if i.rst then { usLeft, stepsLeft }
  else if fresh then
    { busy := true, stepChannel := i.channel, stepVal := true, phase := false, delayLat := i.delayUs, presc := 0
      usLeft, stepsLeft }
  else
    let e := { e with usLeft, stepsLeft }
    if e.busy then
      if usTick then
        let e := { e with presc := 0 }
        if !halfDone then e
        else if e.phase = false then { e with stepVal := false, phase := true }
        else if last then { e with busy := false, stepVal := false }
        else { e with stepVal := true, phase := false }
      else { e with presc := e.presc + 1 }
    else e

/-- `arg_buf` and `rx_byte` at the last byte of a payload, which does not shift. -/
def collect (argBuf : List Byte) : List Byte → List Byte × Byte
  | [] => (argBuf, 0)
  | [rxByte] => (argBuf, rxByte)
  | rxByte :: payload => collect (argBuf.drop 1 ++ [rxByte]) payload

/-- The start that `OP_GPIO_STEP` gives to the engine. -/
def gpioStep (argBuf : List Byte) (rxByte : Byte) : Input where
  start := true
  channel := (argBuf.getD 5 0).setWidth 4
  steps := argBuf.getD 7 0 ++ argBuf.getD 6 0
  delayUs := rxByte ++ argBuf.getD 8 0

def laStepMinDelayUs : Nat := 4
def laStepMaxDelayUs : Nat := 65535
def laStepMaxSteps : Nat := 65535
def reloadWireMinGw : Nat := 40

/-- `x - k`, floored at zero and held to 16 bits. -/
def reload16 (x k : Word) : Half :=
  let r := if k < x then x - k else 0
  if 0xFFFF < r then 0xFFFF else r.setWidth 16

def stepDelayWire (delayUs : Word) (gwVersion : Byte) : Half :=
  if reloadWireMinGw ≤ gwVersion.toNat then reload16 delayUs 1
  else if 0xFFFF < delayUs then 0xFFFF else delayUs.setWidth 16

/-- `fpga_la_step`: the payload of the command it sends, or its error; `busy` is `fpga_la_step_busy`. -/
def fpgaLaStep (gwVersion : Byte) (busy : Bool) (channel : Nat) (steps delayUs : Word) : Except Int (List Byte) :=
  match I2cLa.laWireIndex channel with
  | none => .error (-1)
  | some idx =>
    if steps = 0 ∨ laStepMaxSteps < steps.toNat then .error (-3)
    else if delayUs.toNat < laStepMinDelayUs ∨ laStepMaxDelayUs < delayUs.toNat then .error (-4)
    else if busy then .error (-2)
    else
      let dwire := stepDelayWire delayUs gwVersion
      .ok [BitVec.ofNat 8 idx, steps.setWidth 8, (steps >>> 8).setWidth 8, dwire.setWidth 8, (dwire >>> 8).setWidth 8]

/-! ## The clocks of a train -/

/-- The clocks of a half-phase. -/
def half (delayUs : Half) : Nat := clkMhz * (delayUs.toNat + 1)

/-- The edges that are left of a train, the one that ends it included. -/
def Engine.left (e : Engine) : Nat :=
  clkMhz - e.presc.toNat + clkMhz * e.usLeft.toNat + (if e.phase then 0 else half e.delayLat) +
    (e.stepsLeft.toNat - 1) * (2 * half e.delayLat)

/-- The engine is in the train that was ordered. -/
structure Steps (order : Input) (e : Engine) : Prop where
  busy : e.busy = true
  stepChannel : e.stepChannel = order.channel
  delayLat : e.delayLat = order.delayUs
  stepVal : e.stepVal = !e.phase
  presc : e.presc.toNat < clkMhz
  usLeft : e.usLeft.toNat ≤ e.delayLat.toNat
  stepsLeft : 0 < e.stepsLeft.toNat

variable {e : Engine} {i order : Input}

/-- What one edge does to a train. -/
theorem tick_busy (busy : e.busy = true) (free : i.rst = false) :
    e.tick i = if e.presc ≠ 23 then { e with presc := e.presc + 1 }
      else if e.usLeft ≠ 0 then { e with presc := 0, usLeft := e.usLeft - 1 }
      else if e.phase = false then { e with presc := 0, usLeft := e.delayLat, stepVal := false, phase := true }
      else if e.stepsLeft ≤ 1 then { e with presc := 0, busy := false, stepVal := false }
      else
        { e with presc := 0, usLeft := e.delayLat, stepsLeft := e.stepsLeft - 1, stepVal := true, phase := false } := by
  obtain ⟨_, _, _, presc, _, phase, usLeft, stepsLeft⟩ := e
  obtain rfl : _ = true := busy
  by_cases passed : presc = 23#5
  · by_cases zero : usLeft = 0#16
    · cases phase with
      | false => simp [Engine.tick, dspCounter2, free, passed, zero, clkMhz]
      | true =>
        by_cases more : 1#16 < stepsLeft
        · simp [Engine.tick, dspCounter2, free, passed, zero, BitVec.not_le.mpr more, clkMhz]
        · simp [Engine.tick, dspCounter2, free, passed, zero, BitVec.not_lt.mp more, clkMhz]
    · simp [Engine.tick, dspCounter2, free, passed, zero, clkMhz]
  · simp [Engine.tick, dspCounter2, free, passed, clkMhz]

theorem tick_fresh (idle : e.busy = false) (free : i.rst = false) (start : i.start = true) (some_steps : i.steps ≠ 0) :
    Steps i (e.tick i) ∧ (e.tick i).left = 2 * i.steps.toNat * half i.delayUs := by
  have fresh : e.tick i =
      { busy := true, stepChannel := i.channel, stepVal := true, phase := false, delayLat := i.delayUs, presc := 0
        usLeft := i.delayUs, stepsLeft := i.steps } := by
    have nonzero : ¬i.steps = 0#16 := some_steps
    simp [Engine.tick, dspCounter2, idle, free, start, nonzero]
  have positive : 0 < i.steps.toNat := Nat.pos_of_ne_zero fun zero => some_steps (BitVec.eq_of_toNat_eq zero)
  rw [fresh]
  refine ⟨⟨rfl, rfl, rfl, rfl, Nat.succ_pos _, Nat.le_refl _, positive⟩, ?_⟩
  obtain ⟨more, count⟩ := Nat.exists_eq_add_of_lt positive
  have first : clkMhz - 0 + clkMhz * i.delayUs.toNat = half i.delayUs := by
    rw [half, Nat.mul_succ, Nat.sub_zero, Nat.add_comm]
  change clkMhz - 0 + clkMhz * i.delayUs.toNat + half i.delayUs + (i.steps.toNat - 1) * (2 * half i.delayUs) = _
  rw [first, count, Nat.zero_add, Nat.add_sub_cancel, Nat.mul_assoc 2 (more + 1), Nat.succ_mul more,
    Nat.mul_left_comm more]
  omega

/-- An edge of a train leaves one edge less, and the last one ends it; no start changes that. -/
theorem Steps.tick (steps : Steps order e) (free : i.rst = false) :
    (e.left = 1 ∧ (e.tick i).busy = false ∧ (e.tick i).stepVal = false) ∨
      Steps order (e.tick i) ∧ (e.tick i).left + 1 = e.left := by
  obtain ⟨busy, stepChannel, delayLat, stepVal, presc, usLeft, stepsLeft⟩ := steps
  rw [tick_busy busy free]
  by_cases waits : e.presc ≠ 23
  · have less : e.presc.toNat ≠ 23 := fun same => waits (BitVec.eq_of_toNat_eq same)
    have up : (e.presc + 1).toNat = e.presc.toNat + 1 := by
      rw [BitVec.toNat_add]
      exact Nat.mod_eq_of_lt (by change e.presc.toNat + 1 < 32; rw [clkMhz] at presc; omega)
    rw [if_pos waits]
    rw [clkMhz] at presc
    refine .inr ⟨⟨busy, stepChannel, delayLat, stepVal, ?_, usLeft, stepsLeft⟩, ?_⟩
    · simp only [up, clkMhz]
      omega
    · simp only [Engine.left, up, clkMhz]
      omega
  have start : (0 : BitVec 5).toNat = 0 := rfl
  have late : e.presc.toNat = 23 := congrArg BitVec.toNat (not_not.mp waits)
  rw [if_neg waits]
  by_cases ticks : e.usLeft ≠ 0
  · have positive : e.usLeft.toNat ≠ 0 := fun same => ticks (BitVec.eq_of_toNat_eq same)
    have down : (e.usLeft - 1).toNat = e.usLeft.toNat - 1 := BitVec.toNat_sub_of_le (by
      rw [BitVec.le_def]
      exact Nat.pos_of_ne_zero positive)
    rw [if_pos ticks]
    refine .inr ⟨⟨busy, stepChannel, delayLat, stepVal, Nat.succ_pos _, ?_, stepsLeft⟩, ?_⟩
    · simp only [down]
      omega
    · simp only [Engine.left, down, late, start, clkMhz]
      omega
  have zero : e.usLeft.toNat = 0 := congrArg BitVec.toNat (not_not.mp ticks)
  rw [if_neg ticks]
  by_cases high : e.phase = false
  · rw [if_pos high]
    refine .inr ⟨⟨busy, stepChannel, delayLat, rfl, Nat.succ_pos _, Nat.le_refl _, stepsLeft⟩, ?_⟩
    simp only [Engine.left, high, late, zero, start, half, clkMhz, Bool.false_eq_true, if_false, if_true]
    omega
  have low : e.phase = true := Bool.not_eq_false _ ▸ high
  rw [if_neg high]
  by_cases last : e.stepsLeft ≤ 1
  · rw [if_pos last]
    have one : e.stepsLeft.toNat = 1 := Nat.le_antisymm (BitVec.le_def.mp last) stepsLeft
    refine .inl ⟨?_, rfl, rfl⟩
    simp only [Engine.left, low, late, zero, one, clkMhz, if_true]
    omega
  · have more : 1 < e.stepsLeft.toNat := Nat.not_le.mp fun few => last (BitVec.le_def.mpr few)
    have down : (e.stepsLeft - 1).toNat = e.stepsLeft.toNat - 1 :=
      BitVec.toNat_sub_of_le (BitVec.le_def.mpr (Nat.le_of_lt more))
    rw [if_neg last]
    refine .inr ⟨⟨busy, stepChannel, delayLat, rfl, Nat.succ_pos _, Nat.le_refl _, ?_⟩, ?_⟩
    · simp only [down]
      omega
    · obtain ⟨rest, count⟩ : ∃ rest, e.stepsLeft.toNat = rest + 1 + 1 := ⟨_, (Nat.sub_add_cancel more).symm⟩
      simp only [Engine.left, low, late, zero, start, down, half, clkMhz, Bool.false_eq_true, if_false, if_true]
      rw [count, Nat.add_sub_cancel, Nat.add_sub_cancel, Nat.succ_mul rest]
      omega

/-- The step line follows the edges that are left. -/
theorem Steps.stepVal_iff (steps : Steps order e) :
    0 < e.left ∧ (e.stepVal = true ↔ (e.left - 1) / half order.delayUs % 2 = 1) := by
  obtain ⟨-, -, delayLat, stepVal, presc, usLeft, -⟩ := steps
  rw [← delayLat]
  have within : clkMhz - e.presc.toNat + clkMhz * e.usLeft.toNat - 1 < half e.delayLat := by
    rw [clkMhz] at presc ⊢
    rw [half, clkMhz]
    omega
  have first : 0 < clkMhz - e.presc.toNat := Nat.sub_pos_of_lt presc
  have spread : e.left = clkMhz - e.presc.toNat + clkMhz * e.usLeft.toNat +
      half e.delayLat * ((if e.phase then 0 else 1) + 2 * (e.stepsLeft.toNat - 1)) := by
    rw [Engine.left, Nat.mul_add, Nat.mul_left_comm (e.stepsLeft.toNat - 1), Nat.mul_comm (e.stepsLeft.toNat - 1),
      ← Nat.mul_left_comm (half e.delayLat)]
    cases e.phase with
    | false => rw [if_neg Bool.false_ne_true, if_neg Bool.false_ne_true, Nat.mul_one, Nat.add_assoc]
    | true => rw [if_pos rfl, if_pos rfl, Nat.mul_zero, Nat.add_zero, Nat.zero_add]
  have before : e.left - 1 = clkMhz - e.presc.toNat + clkMhz * e.usLeft.toNat - 1 +
      half e.delayLat * ((if e.phase then 0 else 1) + 2 * (e.stepsLeft.toNat - 1)) := by omega
  refine ⟨by omega, ?_⟩
  rw [before, Nat.add_mul_div_left _ _ (Nat.zero_lt_of_lt within), Nat.div_eq_of_lt within, Nat.zero_add,
    Nat.add_mul_mod_self_left, stepVal]
  cases e.phase <;> simp

/-- A train that is left to itself: however many edges pass. -/
theorem Steps.run (steps : Steps order e) {later : List Input} (free : ∀ i ∈ later, i.rst = false)
    (within : later.length < e.left) :
    Steps order (later.foldl Engine.tick e) ∧ (later.foldl Engine.tick e).left + later.length = e.left := by
  induction later generalizing e with
  | nil => exact ⟨steps, rfl⟩
  | cons i later ih =>
    obtain ⟨now, rest⟩ := List.forall_mem_cons.mp free
    rw [List.length_cons] at within ⊢
    obtain ⟨last, -⟩ | ⟨goes, less⟩ := steps.tick now
    · omega
    · obtain ⟨still, left⟩ := ih goes rest (by omega)
      exact ⟨still, by rw [List.foldl_cons]; omega⟩

/-- The last edge of a train ends it. -/
theorem Steps.ends (steps : Steps order e) {later : List Input} (free : ∀ i ∈ later, i.rst = false)
    (whole : later.length = e.left) :
    (later.foldl Engine.tick e).busy = false ∧ (later.foldl Engine.tick e).stepVal = false := by
  obtain rfl | ⟨front, last, rfl⟩ := List.eq_nil_or_concat later
  · exact absurd whole (Nat.ne_of_lt steps.stepVal_iff.1)
  · rw [List.concat_eq_append] at free whole ⊢
    rw [List.length_append, List.length_singleton] at whole
    obtain ⟨before, now⟩ := List.forall_mem_append.mp free
    obtain ⟨still, left⟩ := steps.run before (by omega)
    rw [List.foldl_append]
    obtain ⟨-, ended⟩ | ⟨goes, less⟩ := still.tick (now last List.mem_cons_self)
    · exact ended
    · have more := goes.stepVal_iff.1
      omega

theorem bytes_append {w : Nat} (x : BitVec w) : (x >>> 8).setWidth 8 ++ x.setWidth 8 = x.setWidth 16 := by
  ext i inside
  simp only [BitVec.getElem_append, BitVec.getElem_setWidth, BitVec.getLsbD_ushiftRight]
  split
  · rfl
  · rw [Nat.add_sub_cancel' (by omega)]

/-- The delay goes to the engine one less. -/
theorem stepDelayWire_toNat {gwVersion : Byte} {delayUs : Word} (current : reloadWireMinGw ≤ gwVersion.toNat)
    (between : laStepMinDelayUs ≤ delayUs.toNat ∧ delayUs.toNat ≤ laStepMaxDelayUs) :
    (stepDelayWire delayUs gwVersion).toNat + 1 = delayUs.toNat := by
  obtain ⟨least, most⟩ := between
  rw [laStepMinDelayUs] at least
  rw [laStepMaxDelayUs] at most
  have one_lt : (1 : Word) < delayUs := BitVec.lt_def.mpr (Nat.lt_of_lt_of_le (by decide) least)
  have less : (delayUs - 1).toNat = delayUs.toNat - 1 := BitVec.toNat_sub_of_le (BitVec.le_of_lt one_lt)
  have fits : ¬0xFFFF < delayUs - 1 := by
    rw [BitVec.lt_def, less]
    change ¬65535 < delayUs.toNat - 1
    omega
  rw [stepDelayWire, if_pos current, reload16]
  simp only [if_pos one_lt, if_neg fits, BitVec.toNat_setWidth, less]
  omega

/-- The firmware accepts a train that the engine can make, and sends it as the engine reads it. -/
theorem fpgaLaStep_ok {gwVersion : Byte} {busy : Bool} {channel : Nat} {steps delayUs : Word} {payload : List Byte}
    (accepted : fpgaLaStep gwVersion busy channel steps delayUs = .ok payload)
    (current : reloadWireMinGw ≤ gwVersion.toNat) {argBuf : List Byte} (slots : argBuf.length = 9) :
    let order := gpioStep (collect argBuf payload).1 (collect argBuf payload).2
    order.channel.toNat + 1 = channel ∧ order.steps.toNat = steps.toNat ∧ 0 < steps.toNat ∧
      order.delayUs.toNat + 1 = delayUs.toNat := by
  rw [fpgaLaStep, I2cLa.laWireIndex] at accepted
  split at accepted
  · cases accepted
  · rename_i idx found
    split at found
    · cases found
    · rename_i inside
      obtain rfl := Option.some.inj found
      split at accepted
      · cases accepted
      · rename_i few
        split at accepted
        · cases accepted
        · rename_i between
          split at accepted
          · cases accepted
          · obtain rfl := Except.ok.inj accepted
            obtain ⟨_, _, _, _, _, _, _, _, _, rfl⟩ : ∃ a b c d e f g h i, argBuf = [a, b, c, d, e, f, g, h, i] := by
              match argBuf, slots with
              | [a, b, c, d, e, f, g, h, i], _ => exact ⟨a, b, c, d, e, f, g, h, i, rfl⟩
            simp only [not_or, Nat.not_lt] at inside few between
            refine ⟨?_, ?_, Nat.pos_of_ne_zero fun zero => few.1 (BitVec.eq_of_toNat_eq zero), ?_⟩
            · change ((BitVec.ofNat 8 (channel - 1)).setWidth 4).toNat + 1 = channel
              rw [BitVec.toNat_setWidth, BitVec.toNat_ofNat]
              omega
            · change ((steps >>> 8).setWidth 8 ++ steps.setWidth 8 : Half).toNat = steps.toNat
              rw [bytes_append, BitVec.toNat_setWidth]
              exact Nat.mod_eq_of_lt (Nat.lt_succ_of_le few.2)
            · change ((stepDelayWire delayUs gwVersion >>> 8).setWidth 8 ++
                (stepDelayWire delayUs gwVersion).setWidth 8 : Half).toNat + 1 = delayUs.toNat
              rw [bytes_append, BitVec.setWidth_eq, stepDelayWire_toNat current between]

/-- A train that the firmware accepts is made as it was ordered: whatever the payload register held, and whatever
starts come in between, the channel goes high for `delayUs` microseconds and low for as long, `steps` times, and the
engine is idle after the last of them. -/
theorem train_as_ordered {gwVersion : Byte} {busy : Bool} {channel : Nat} {steps delayUs : Word} {payload : List Byte}
    (accepted : fpgaLaStep gwVersion busy channel steps delayUs = .ok payload)
    (current : reloadWireMinGw ≤ gwVersion.toNat) {argBuf : List Byte} (slots : argBuf.length = 9)
    (idle : e.busy = false) {later : List Input} (free : ∀ i ∈ later, i.rst = false) :
    let sent := collect argBuf payload
    let after := later.foldl Engine.tick (e.tick (gpioStep sent.1 sent.2))
    let phase := clkMhz * delayUs.toNat
    (later.length < 2 * steps.toNat * phase → after.busy = true ∧ after.stepChannel.toNat + 1 = channel ∧
      (after.stepVal = true ↔ later.length / phase % 2 = 0)) ∧
    (later.length = 2 * steps.toNat * phase → after.busy = false ∧ after.stepVal = false) := by
  intro sent after phase
  obtain ⟨wire, count, some_steps, delay⟩ := fpgaLaStep_ok accepted current slots
  have nonzero : (gpioStep sent.1 sent.2).steps ≠ 0 := by
    intro zero
    rw [zero] at count
    exact absurd count (Nat.ne_of_lt some_steps)
  obtain ⟨goes, left⟩ := @tick_fresh e (gpioStep sent.1 sent.2) idle rfl rfl nonzero
  have phase_eq : half (gpioStep sent.1 sent.2).delayUs = phase := congrArg (clkMhz * ·) delay
  rw [phase_eq, count] at left
  constructor
  · intro within
    rw [← left] at within
    obtain ⟨still, rest⟩ := goes.run free within
    have value := still.stepVal_iff.2
    rw [phase_eq] at value
    refine ⟨still.busy, (congrArg (BitVec.toNat · + 1) still.stepChannel).trans wire, value.trans ?_⟩
    rw [left, Nat.mul_comm] at within
    have before : after.left - 1 = phase * (2 * steps.toNat) - (later.length + 1) := by
      rw [← Nat.mul_comm (2 * steps.toNat), ← left, ← rest]
      change after.left - 1 = after.left + later.length - (later.length + 1)
      omega
    have phases := Nat.div_lt_of_lt_mul within
    rw [before, Nat.mul_sub_div _ _ _ within]
    omega
  · intro whole
    exact goes.ends free (whole.trans left.symm)

/-- Two steps of four microseconds on the first channel end with the 384th clock. -/
theorem train_of_two :
    let sent := collect (List.replicate 9 0) [0, 2, 0, 3, 0]
    let after := (List.replicate 384 {}).foldl Engine.tick (Engine.tick {} (gpioStep sent.1 sent.2))
    after.busy = false ∧ after.stepVal = false :=
  (@train_as_ordered {} 42 false 1 2 4 [0, 2, 0, 3, 0] rfl (by decide) (List.replicate 9 0) rfl rfl
    (List.replicate 384 {}) fun _ member => List.eq_of_mem_replicate member ▸ rfl).2 List.length_replicate

end BenchPod.Stepper
