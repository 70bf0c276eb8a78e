import BenchPod.Capture.Zones

/-!
# The plan of a capture

`psram_plan` packs the zones of a capture one behind the other and compares their sum and the load on the bus with what
there is.  The lengths of the two captured streams are twice their samples, in 32 bits.
-/

namespace BenchPod.PsramAlloc

open Capture

/-- `psram_alloc_status_t`. -/
inductive Status
  | ok
  | errCapacity
  | errBandwidth
  deriving DecidableEq, Repr

/-- `psram_request_t`. -/
structure Request where
  laSamples : Word
  adcSamples : Word
  dacBytes : Word
  laRateHz : Word := 0
  adcRateHz : Word := 0
  dacRateHz : Word := 0
  deriving DecidableEq

/-- `psram_layout_t`. -/
structure Layout where
  status : Status
  laBase : Word
  laLen : Word
  adcBase : Word
  adcLen : Word
  dacBase : Word
  dacLen : Word
  needBytes : Word
  availBytes : Word
  loadBps : Word
  busBps : Word
  deriving DecidableEq

/-- A 64-bit sum shown in 32 bits. -/
def clamp (sum : Nat) : Word := if 0xffffffff < sum then 0xffffffff else BitVec.ofNat 32 sum

def psramPlan (req : Request) : Layout :=
  let laLen := req.laSamples * 2
  let adcLen := req.adcSamples * 2
  let dacLen := req.dacBytes
  let need := laLen.toNat + adcLen.toNat + dacLen.toNat
  let load := (req.laRateHz.toNat + req.adcRateHz.toNat + req.dacRateHz.toNat) * 2
  { laBase := 0
    laLen := laLen
    adcBase := 0 + laLen
    adcLen := adcLen
    dacBase := 0 + laLen + adcLen
    dacLen := dacLen
    needBytes := clamp need
    availBytes := BitVec.ofNat 32 psramUsableBytes
    loadBps := clamp load
    busBps := BitVec.ofNat 32 psramSustainedBps
    status :=
      if psramUsableBytes < need then .errCapacity
      else if psramSustainedBps < load then .errBandwidth
      else .ok }

namespace Layout

variable (layout : Layout)

/-- The zone of the logic analyser. -/
def laZone : Region := ⟨layout.laBase.toNat, layout.laLen.toNat⟩

/-- The zone of the ADC. -/
def adcZone : Region := ⟨layout.adcBase.toNat, layout.adcLen.toNat⟩

/-- The zone of the DAC. -/
def dacZone : Region := ⟨layout.dacBase.toNat, layout.dacLen.toNat⟩

end Layout

namespace Request

variable (req : Request)

/-- The bytes that are asked for. -/
def total : Nat := 2 * req.laSamples.toNat + 2 * req.adcSamples.toNat + req.dacBytes.toNat

/-- The bytes that go over the bus in a second. -/
def load : Nat := 2 * (req.laRateHz.toNat + req.adcRateHz.toNat + req.dacRateHz.toNat)

/-- The bytes that are asked for, with the samples of the two captured streams counted in 31 bits. -/
def packed : Nat :=
  2 * (req.laSamples.toNat % 2 ^ 31) + 2 * (req.adcSamples.toNat % 2 ^ 31) + req.dacBytes.toNat

end Request

/-- The zones have the lengths asked for, lie apart from each other and inside the usable range. -/
structure Placed (req : Request) : Prop where
  fits : req.total ≤ psramUsableBytes
  laLen : (psramPlan req).laZone.len = 2 * req.laSamples.toNat
  adcLen : (psramPlan req).adcZone.len = 2 * req.adcSamples.toNat
  dacLen : (psramPlan req).dacZone.len = req.dacBytes.toNat
  laAdc : (psramPlan req).laZone.Apart (psramPlan req).adcZone
  laDac : (psramPlan req).laZone.Apart (psramPlan req).dacZone
  adcDac : (psramPlan req).adcZone.Apart (psramPlan req).dacZone
  laInside : (psramPlan req).laZone.top ≤ psramUsableBytes
  adcInside : (psramPlan req).adcZone.top ≤ psramUsableBytes
  dacInside : (psramPlan req).dacZone.top ≤ psramUsableBytes

/-- The plan of a request is exact. -/
structure Exact (req : Request) : Prop where
  ok : (psramPlan req).status = .ok → Placed req
  capacity : (psramPlan req).status = .errCapacity ↔ psramUsableBytes < req.total
  bandwidth : (psramPlan req).status = .errBandwidth ↔ req.total ≤ psramUsableBytes ∧ psramSustainedBps < req.load

variable {req : Request}

theorem doubled (samples : Word) : (samples * 2).toNat = 2 * (samples.toNat % 2 ^ 31) := by
  rw [BitVec.toNat_mul]
  show samples.toNat * 2 % 2 ^ 32 = _
  omega

theorem status_eq (req : Request) : (psramPlan req).status =
    if psramUsableBytes < req.packed then .errCapacity else if psramSustainedBps < req.load then .errBandwidth
    else .ok := by
  rw [psramPlan, Request.packed, Request.load, Nat.mul_comm 2 (req.laRateHz.toNat + _ + _), ← doubled, ← doubled]

/-- Where the sum is exact and fits, the zones are placed. -/
theorem placed (same : req.packed = req.total) (fits : req.total ≤ psramUsableBytes) : Placed req := by
  have small : psramUsableBytes < 2 ^ 32 := by decide
  have la : (req.laSamples * 2).toNat = 2 * req.laSamples.toNat := by
    have wrapped := Nat.mod_le req.laSamples.toNat (2 ^ 31)
    have wrapped' := Nat.mod_le req.adcSamples.toNat (2 ^ 31)
    rw [Request.packed, Request.total] at same
    rw [doubled]
    omega
  have adc : (req.adcSamples * 2).toNat = 2 * req.adcSamples.toNat := by
    rw [Request.packed, ← doubled, ← doubled, la, Request.total] at same
    omega
  rw [Request.total] at fits
  have first : (0 : Word) + req.laSamples * 2 = req.laSamples * 2 := BitVec.zero_add _
  have adcBase : (0 + req.laSamples * 2).toNat = 2 * req.laSamples.toNat := by rw [first, la]
  have dacBase : (0 + req.laSamples * 2 + req.adcSamples * 2).toNat =
      2 * req.laSamples.toNat + 2 * req.adcSamples.toNat := by
    rw [first, BitVec.toNat_add, la, adc, Nat.mod_eq_of_lt (by omega)]
  have laZone : (psramPlan req).laZone = ⟨0, 2 * req.laSamples.toNat⟩ := by
    rw [Layout.laZone, psramPlan, la]
    rfl
  have adcZone : (psramPlan req).adcZone = ⟨2 * req.laSamples.toNat, 2 * req.adcSamples.toNat⟩ := by
    rw [Layout.adcZone, psramPlan, adcBase, adc]
  have dacZone : (psramPlan req).dacZone = ⟨2 * req.laSamples.toNat + 2 * req.adcSamples.toNat, req.dacBytes.toNat⟩ := by
    rw [Layout.dacZone, psramPlan, dacBase]
  refine ⟨fits, ?_, ?_, ?_, ?_, ?_, ?_, ?_, ?_, ?_⟩
  · rw [laZone]
  · rw [adcZone]
  · rw [dacZone]
  · rw [laZone, adcZone]
    exact .inr (.inr (.inl (by simp [Region.top])))
  · rw [laZone, dacZone]
    exact .inr (.inr (.inl (by simp [Region.top])))
  · rw [adcZone, dacZone]
    exact .inr (.inr (.inl (Nat.le_refl _)))
  · rw [laZone]
    show 0 + 2 * req.laSamples.toNat ≤ psramUsableBytes
    omega
  · rw [adcZone]
    show 2 * req.laSamples.toNat + 2 * req.adcSamples.toNat ≤ psramUsableBytes
    omega
  · rw [dacZone, Region.top]
    exact fits

/-- The plan is exact where the samples fit in 31 bits, or where those that do are too many as well. -/
theorem plan_exact_iff (req : Request) : Exact req ↔
    (req.laSamples.toNat < 2 ^ 31 ∧ req.adcSamples.toNat < 2 ^ 31) ∨ psramUsableBytes < req.packed := by
  have la := Nat.mod_le req.laSamples.toNat (2 ^ 31)
  have adc := Nat.mod_le req.adcSamples.toNat (2 ^ 31)
  have less : req.packed ≤ req.total := by
    rw [Request.packed, Request.total]
    omega
  constructor
  · intro plan
    by_contra fails
    obtain ⟨wide, fits⟩ := not_or.mp fails
    have past : psramUsableBytes < req.total := by
      rw [Request.total, psramUsableBytes]
      omega
    have status := plan.capacity.mpr past
    rw [status_eq, if_neg fits] at status
    split at status <;> exact absurd status (by decide)
  · intro condition
    have same : req.packed ≤ psramUsableBytes → req.packed = req.total := by
      intro fits
      obtain ⟨narrow, narrow'⟩ | past := condition
      · rw [Request.packed, Request.total, Nat.mod_eq_of_lt narrow, Nat.mod_eq_of_lt narrow']
      · exact absurd past (Nat.not_lt.mpr fits)
    refine ⟨fun status => ?_, ?_, ?_⟩
    · rw [status_eq] at status
      split at status
      · exact absurd status (by decide)
      · next fits =>
          have same := same (Nat.not_lt.mp fits)
          exact placed same (by omega)
    · rw [status_eq]
      split
      · next past => exact iff_of_true rfl (Nat.lt_of_lt_of_le past less)
      · next fits =>
          have same := same (Nat.not_lt.mp fits)
          refine iff_of_false ?_ (by omega)
          split <;> decide
    · rw [status_eq]
      split
      · next past => exact iff_of_false (by decide) fun both => absurd both.1 (by omega)
      · next fits =>
          have same := same (Nat.not_lt.mp fits)
          split
          · next busy => exact iff_of_true rfl ⟨by omega, busy⟩
          · next free => exact iff_of_false (by decide) fun both => free both.2

/-- Half of all counts are nothing for the plan: a negative number of samples fits. -/
theorem negative_samples : ¬ Exact ⟨0x80000000, 0, 0, 0, 0, 0⟩ := by
  intro plan
  have placed := plan.ok (by decide)
  exact absurd placed.fits (by decide)

end BenchPod.PsramAlloc
