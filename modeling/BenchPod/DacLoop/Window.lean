import BenchPod.DacLoop.Control

/-!
# The value stays in its window

A tick moves the value by a rounded fraction of its distance to the target, so it comes no farther than the target, and
the clamp keeps it between the bounds.
-/

namespace BenchPod.DacLoop

/-- `x` lies between `a` and `b`. -/
def Between (a b x : Int) : Prop := (a ≤ x ∧ x ≤ b) ∨ (b ≤ x ∧ x ≤ a)

namespace Tick

theorem clamp16_between (delta : Int) : Between 0 delta (clamp16 delta) := by
  rw [clamp16, Between]
  split
  · omega
  · split <;> omega

theorem clamp16_bounds (delta : Int) : -32768 ≤ clamp16 delta ∧ clamp16 delta ≤ 32767 := by
  rw [clamp16]
  split
  · omega
  · split <;> omega

theorem damped_between {k d : Int} (small : 0 ≤ k) (fraction : k ≤ 32767) (low : -32768 ≤ d) (high : d ≤ 32767) :
    Between 0 d (damped (k * d)) := by
  have rounded : k * d / 32768 + k * d / 16384 % 2 = (k * d + 16384) / 32768 := by omega
  have near : Between 0 d ((k * d + 16384) / 32768) := by
    obtain up | down := Int.le_total 0 d
    · have least : 0 ≤ k * d := Int.mul_nonneg small up
      have most : k * d ≤ 32767 * d := Int.mul_le_mul_of_nonneg_right fraction up
      exact .inl (by omega)
    · have most : k * d ≤ 0 := Int.mul_nonpos_of_nonneg_of_nonpos small down
      have least : 32767 * d ≤ k * d := Int.mul_le_mul_of_nonpos_right fraction down
      exact .inr (by omega)
  rw [damped, rounded, Int.bmod_eq_of_le (by rw [Between] at near; omega) (by rw [Between] at near; omega)]
  exact near

/-- The distance of the value from the target of the tick. -/
def distance (t : Tick) : Int := t.target.toNat - t.v.toNat

/-- The value is in its window, and the registers of the tick hold what they should. -/
structure Pipeline (cfg : Arm) (t : Tick) : Prop where
  order : cfg.vmin.toNat ≤ cfg.vmax.toNat
  low : cfg.vmin.toNat ≤ t.v.toNat
  high : t.v.toNat ≤ cfg.vmax.toNat
  delta : t.st = .mul → t.delta17 = t.distance
  factors : t.st = .mac → (0 ≤ t.kS ∧ t.kS ≤ 32767) ∧ t.deltaQ = clamp16 t.distance
  product : t.st = .upd → ∃ k, (0 ≤ k ∧ k ≤ 32767) ∧ t.prodR = k * clamp16 t.distance
  sum : t.st = .cmp ∨ t.st = .clamp → Between t.v.toNat t.target.toNat t.vsum
  flags : t.st = .clamp → t.ltMin = decide (t.vsum < cfg.vmin.toNat) ∧ t.gtMax = decide ((cfg.vmax.toNat : Int) < t.vsum)

variable {t : Tick} {i : Ports}

theorem pipeline_disarmed (order : i.cfg.vmin.toNat ≤ i.cfg.vmax.toNat) : Pipeline i.cfg (disarmed i) :=
  ⟨order, Nat.le_refl _, order, nofun, nofun, nofun, nofun, nofun⟩

theorem Pipeline.commit (pipeline : Pipeline i.cfg t) (st : t.st = .clamp) :
    (i.cfg.vmin.toNat ≤ (t.act i).v.toNat ∧ (t.act i).v.toNat ≤ i.cfg.vmax.toNat) ∧
      (t.tripL = true → (t.act i).v = i.cfg.vmin) ∧
      (t.tripL = false → Between t.v.toNat t.target.toNat (t.act i).v.toNat) := by
  have order := pipeline.order
  have low := pipeline.low
  have high := pipeline.high
  have near := pipeline.sum (.inr st)
  obtain ⟨below, above⟩ := pipeline.flags st
  have value : (t.act i).v = if t.tripL then i.cfg.vmin else if t.ltMin then i.cfg.vmin
      else if t.gtMax then i.cfg.vmax else BitVec.ofInt 16 t.vsum := by
    rw [act, st]
  cases trip : t.tripL with
  | true =>
    rw [value, trip, if_pos rfl]
    exact ⟨⟨Nat.le_refl _, order⟩, fun _ => rfl, nofun⟩
  | false =>
  rw [trip, if_neg Bool.false_ne_true, below, above] at value
  rw [Between] at near
  by_cases under : t.vsum < i.cfg.vmin.toNat
  · rw [decide_eq_true under, if_pos rfl] at value
    rw [value]
    exact ⟨⟨Nat.le_refl _, order⟩, nofun, fun _ => by rw [Between]; omega⟩
  · rw [decide_eq_false under, if_neg Bool.false_ne_true] at value
    by_cases past : (i.cfg.vmax.toNat : Int) < t.vsum
    · rw [decide_eq_true past, if_pos rfl] at value
      rw [value]
      exact ⟨⟨order, Nat.le_refl _⟩, nofun, fun _ => by rw [Between]; omega⟩
    · rw [decide_eq_false past, if_neg Bool.false_ne_true] at value
      have fits : (BitVec.ofInt 16 t.vsum).toNat = t.vsum.toNat := by
        have bound := i.cfg.vmax.isLt
        rw [BitVec.toNat_ofInt]
        omega
      rw [value, fits]
      exact ⟨by omega, nofun, fun _ => by rw [Between]; omega⟩

theorem Pipeline.act (pipeline : Pipeline i.cfg t) : Pipeline i.cfg (t.act i) := by
  have ⟨order, low, high, delta, factors, product, sum, flags⟩ := id pipeline
  cases st : t.st with
  | idle =>
    rw [Tick.act, st]
    cases t.tickZ with
    | true => exact ⟨order, low, high, nofun, nofun, nofun, nofun, nofun⟩
    | false => exact ⟨order, low, high, nofun, nofun, nofun, nofun, nofun⟩
  | imul =>
    rw [Tick.act, st]
    exact ⟨order, low, high, nofun, nofun, nofun, nofun, nofun⟩
  | idx =>
    rw [Tick.act, st]
    exact ⟨order, low, high, nofun, nofun, nofun, nofun, nofun⟩
  | rdlo =>
    rw [Tick.act, st]
    exact ⟨order, low, high, nofun, nofun, nofun, nofun, nofun⟩
  | rdhi =>
    rw [Tick.act, st]
    exact ⟨order, low, high, nofun, nofun, nofun, nofun, nofun⟩
  | asm =>
    rw [Tick.act, st]
    exact ⟨order, low, high, fun _ => rfl, nofun, nofun, nofun, nofun⟩
  | mul =>
    rw [Tick.act, st]
    refine ⟨order, low, high, nofun, fun _ => ⟨?_, ?_⟩, nofun, nofun, nofun⟩
    · show 0 ≤ ((i.cfg.kQ15.toNat % 32768 : Nat) : Int) ∧ ((i.cfg.kQ15.toNat % 32768 : Nat) : Int) ≤ 32767
      omega
    · exact congrArg clamp16 (delta st)
  | mac =>
    obtain ⟨range, cut⟩ := factors st
    rw [Tick.act, st]
    exact ⟨order, low, high, nofun, nofun, fun _ => ⟨t.kS, range, congrArg (t.kS * ·) cut⟩, nofun, nofun⟩
  | upd =>
    obtain ⟨k, ⟨least, most⟩, prod⟩ := product st
    obtain ⟨lowest, highest⟩ := clamp16_bounds t.distance
    have moved := damped_between least most lowest highest
    have cut := clamp16_between t.distance
    rw [← prod] at moved
    rw [Tick.act, st]
    refine ⟨order, low, high, nofun, nofun, nofun, fun _ => ?_, nofun⟩
    show Between t.v.toNat t.target.toNat (t.v.toNat + damped t.prodR)
    rw [distance] at cut moved
    rw [Between] at cut moved ⊢
    omega
  | cmp =>
    rw [Tick.act, st]
    exact ⟨order, low, high, nofun, nofun, nofun, fun _ => sum (.inl st), fun _ => ⟨rfl, rfl⟩⟩
  | clamp =>
    obtain ⟨⟨low, high⟩, -⟩ := pipeline.commit st
    have rest : (t.act i).st = .idle := by rw [Tick.act, st]
    refine ⟨order, low, high, ?_, ?_, ?_, ?_, ?_⟩
    all_goals
      rw [rest]
      exact nofun

theorem tripL_act (trip : t.tripL = true) : (t.act i).tripL = true := by
  cases st : t.st with
  | idle =>
    rw [act, st]
    cases t.tickZ <;> exact trip
  | rdlo =>
    rw [act, st]
    show (t.tripL || _) = true
    rw [trip, Bool.true_or]
  | imul | idx | rdhi | asm | mul | mac | upd | cmp | clamp =>
    rw [act, st]
    exact trip

end Tick

theorem raised_toNat (value least : Half) :
    (if value < least then least else value).toNat = max least.toNat value.toNat := by
  split
  · next less => exact (Nat.max_eq_left (Nat.le_of_lt (BitVec.lt_def.mp less))).symm
  · next more => exact (Nat.max_eq_right (Nat.le_of_not_lt fun less => more (BitVec.lt_def.mpr less))).symm

theorem lowered_toNat (value most : Half) :
    (if most < value then most else value).toNat = min most.toNat value.toNat := by
  split
  · next less => exact (Nat.min_eq_left (Nat.le_of_lt (BitVec.lt_def.mp less))).symm
  · next more => exact (Nat.min_eq_right (Nat.le_of_not_lt fun less => more (BitVec.lt_def.mpr less))).symm

theorem validate_bounds {p q : Params} (accepted : dacLoopParamsValidate p = .ok q) :
    q.vmin.toNat ≤ q.vmax.toNat ∧ (1 ≤ q.kQ15.toNat ∧ q.kQ15.toNat ≤ 32767) ∧ 8 ≤ q.tickDiv.toNat := by
  rw [dacLoopParamsValidate] at accepted
  split at accepted
  · exact nomatch accepted
  · next order =>
      split at accepted
      · exact nomatch accepted
      · split at accepted
        · exact nomatch accepted
        · rw [← Except.ok.inj accepted]
          have order : p.vmin.toNat ≤ p.vmax.toNat := Nat.le_of_not_lt fun less => order (BitVec.lt_def.mpr less)
          have one : (1 : Half).toNat = 1 := rfl
          have eight : (8 : Half).toNat = 8 := rfl
          have most : (32767 : Half).toNat = 32767 := rfl
          refine ⟨order, ?_, ?_⟩
          · simp only [raised_toNat, lowered_toNat, one, most]
            omega
          · simp only [raised_toNat, eight]
            omega

/-- The bounds are in order, and an armed loop keeps to them. -/
structure Windowed (b : Top) : Prop where
  order : b.cfg.vmin.toNat ≤ b.cfg.vmax.toNat
  pipeline : b.armed = true → Tick.Pipeline b.cfg b.tick

theorem windowed_first : Windowed {} := ⟨by decide, nofun⟩

variable {b : Top} {i : Input}

theorem Windowed.step (windowed : Windowed b) (loads : Loads b i) : Windowed (b.step i) := by
  refine ⟨?_, fun armed => ?_⟩
  · show (i.load.getD b.cfg).vmin.toNat ≤ (i.load.getD b.cfg).vmax.toNat
    cases load : i.load with
    | none => exact windowed.order
    | some arm =>
      obtain ⟨-, -, p, q, accepted, rfl⟩ := loads arm load
      exact (validate_bounds accepted).1
  · have armed : (i.mode && (b.armP || b.armed)) = true := armed
    simp only [Bool.and_eq_true, Bool.or_eq_true] at armed
    have kept : i.load = none := by
      cases load : i.load with
      | none => rfl
      | some arm =>
        obtain ⟨off, quiet, -⟩ := loads arm load
        simp [off, quiet] at armed
    have same : (b.step i).cfg = b.cfg := by
      show i.load.getD b.cfg = b.cfg
      rw [kept]
      rfl
    rw [same]
    show Tick.Pipeline b.cfg (b.tick.step (b.ports i))
    rw [Tick.step]
    cases on : b.armed with
    | true =>
      rw [if_pos (show (b.ports i).arm = true from on)]
      exact @Tick.Pipeline.act b.tick (b.ports i) (windowed.pipeline on)
    | false =>
      rw [if_neg (by simp [Top.ports, on])]
      exact @Tick.pipeline_disarmed (b.ports i) windowed.order

/-- What a tick has read of the curve's entry at its index. -/
structure Looked (curve : Nat → Byte) (b : Top) : Prop where
  even : b.tick.st = .rdlo → b.tick.lutRaddr % 2 = 0
  first : b.tick.st = .rdhi → b.tick.lutRaddr % 2 = 1 ∧ b.bench.wave = curve (2 * (b.tick.lutRaddr / 2))
  both : b.tick.st = .asm →
    b.tick.lo = curve (2 * (b.tick.lutRaddr / 2)) ∧ b.bench.wave = curve (2 * (b.tick.lutRaddr / 2) + 1)
  entry : b.tick.st = .mul ∨ b.tick.st = .mac ∨ b.tick.st = .upd ∨ b.tick.st = .cmp ∨ b.tick.st = .clamp →
    b.tick.target = curve (2 * (b.tick.lutRaddr / 2) + 1) ++ curve (2 * (b.tick.lutRaddr / 2))

theorem looked_idle {curve : Nat → Byte} (idle : b.tick.st = .idle) : Looked curve b := by
  refine ⟨?_, ?_, ?_, ?_⟩
  all_goals
    rw [idle]
    exact nofun

theorem Looked.step {curve : Nat → Byte} (looked : Looked curve b) (same : i.curve = curve) :
    Looked curve (b.step i) := by
  have ⟨even, first, both, entry⟩ := id looked
  cases on : b.armed with
  | false =>
    refine looked_idle ?_
    show (b.tick.step (b.ports i)).st = .idle
    rw [Tick.step, if_neg (by simp [Top.ports, on])]
    rfl
  | true =>
  have tick : (b.step i).tick = b.tick.act (b.ports i) := if_pos on
  have wave : (b.step i).bench.wave = curve b.tick.lutRaddr := by
    show i.curve (if b.armed then b.tick.lutRaddr else b.bench.e.waveAddr) = curve b.tick.lutRaddr
    rw [same, on, if_pos rfl]
  have data : (b.ports i).lutRdata = b.bench.wave := rfl
  cases st : b.tick.st with
  | idle | imul | clamp =>
    refine ⟨?_, ?_, ?_, ?_⟩
    all_goals
      rw [tick, Tick.act, st]
      cases b.tick.tickZ <;> exact nofun
  | idx =>
    refine ⟨fun _ => ?_, ?_, ?_, ?_⟩
    · rw [tick, Tick.act, st]
      exact Nat.mul_mod_right 2 _
    all_goals
      rw [tick, Tick.act, st]
      exact nofun
  | rdlo =>
    have even := even st
    refine ⟨?_, fun _ => ?_, ?_, ?_⟩
    · rw [tick, Tick.act, st]
      exact nofun
    · have address : (b.step i).tick.lutRaddr = 2 * (b.tick.lutRaddr / 2) + 1 := by
        rw [tick, Tick.act, st]
      rw [wave, address]
      exact ⟨by omega, congrArg curve (by omega)⟩
    all_goals
      rw [tick, Tick.act, st]
      exact nofun
  | rdhi =>
    obtain ⟨odd, low⟩ := first st
    refine ⟨?_, ?_, fun _ => ?_, ?_⟩
    · rw [tick, Tick.act, st]
      exact nofun
    · rw [tick, Tick.act, st]
      exact nofun
    · have kept : (b.step i).tick.lutRaddr = b.tick.lutRaddr ∧ (b.step i).tick.lo = b.bench.wave := by
        rw [tick, Tick.act, st]
        exact ⟨rfl, rfl⟩
      rw [wave, kept.1, kept.2]
      exact ⟨low, congrArg curve (by omega)⟩
    · rw [tick, Tick.act, st]
      exact nofun
  | asm =>
    obtain ⟨low, high⟩ := both st
    refine ⟨?_, ?_, ?_, fun _ => ?_⟩
    · rw [tick, Tick.act, st]
      exact nofun
    · rw [tick, Tick.act, st]
      exact nofun
    · rw [tick, Tick.act, st]
      exact nofun
    · have kept : (b.step i).tick.lutRaddr = b.tick.lutRaddr ∧ (b.step i).tick.target = b.bench.wave ++ b.tick.lo := by
        rw [tick, Tick.act, st]
        exact ⟨rfl, rfl⟩
      rw [kept.1, kept.2, low, high]
  | mul | mac | upd | cmp =>
    have kept := entry (by simp [st])
    refine ⟨?_, ?_, ?_, fun _ => ?_⟩
    · rw [tick, Tick.act, st]
      exact nofun
    · rw [tick, Tick.act, st]
      exact nofun
    · rw [tick, Tick.act, st]
      exact nofun
    · rw [tick, Tick.act, st]
      exact kept

end BenchPod.DacLoop
