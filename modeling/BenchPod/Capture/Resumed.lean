import BenchPod.Capture.Apart

/-!
# Resuming the last capture

`capture_read` trusts three things that different commands change: `last_cap`, the regions that are
tracked, and the bases.  While `last_cap` is valid and nothing is stale, the bases still lead to the
samples; `capture_dual` moves the ADC base before it knows that its capture can be armed.
-/

namespace BenchPod.Capture

open Json

namespace Zones

section Definitions

variable (z : Zones)

/-- The last capture is valid and nothing is known to have written over it. -/
def fresh : Bool := z.lastCap.valid && z.regions.stale.isNone

/-- The regions of the last capture at the bases in force. -/
def lastArm : Arm := z.armAt z.lastCap.adcSamples z.lastCap.laSamples

/-- The samples of the last capture are where the bases lead. -/
structure Intact : Prop where
  some : 0 < z.lastCap.adcSamples + z.lastCap.laSamples
  adcInside : z.lastArm.adc.Below psramTotal
  laInside : z.lastArm.la.Below psramTotal
  tracked : z.regions.tracked = [z.lastArm.adc, z.lastArm.la].filter (·.len ≠ 0)
  adcWritten : z.lastCap.adcSamples ≠ 0 → z.recorded.arm.adc = z.lastArm.adc
  laWritten : z.lastCap.laSamples ≠ 0 → z.recorded.arm.la = z.lastArm.la
  adc : z.psramRead z.adcBase (2 * z.lastCap.adcSamples) = z.recorded.adc
  la : z.psramRead z.laBase (2 * z.lastCap.laSamples) = z.recorded.la
  /-- Where the bases move, a capture of the ADC alone starts at 0, as the logic analyzer does. -/
  low : 22 ≤ z.version → z.lastCap.laSamples = 0 → z.adcBase = 0

/-- A capture of words in flight is where the bases lead. -/
structure Placed (flight : Flight) : Prop where
  some : 0 < flight.adcSamples + flight.laSamples
  arm : flight.arm = z.armAt flight.adcSamples flight.laSamples
  adcInside : flight.arm.adc.Below psramTotal
  laInside : flight.arm.la.Below psramTotal
  low : 22 ≤ z.version → flight.laSamples = 0 → z.adcBase = 0

/-- A capture in flight has ended the last one, or it is waited for and writes elsewhere. -/
def Settled (flight : Flight) : Prop :=
  match flight.kind with
  | .pool | .changes => z.lastCap.valid = false
  | .words => z.lastCap.valid = false ∧ z.Placed flight
  | .waited => z.fresh = true → flight.arm.adc.Below psramTotal ∧ flight.arm.la.Below psramTotal ∧
      ∀ region ∈ z.regions.tracked, flight.arm.adc.Apart region ∧ flight.arm.la.Apart region

/-- The samples from `first` up to `last` of the last capture, the ADC's first. -/
def samplesOf (first last : Nat) : List Byte :=
  ((z.recorded.adc ++ z.recorded.la).drop (2 * first)).take (2 * (last - first))

/-- A read-back of words has sent the samples of the last capture from its start on. -/
def Follows : ReadBack → Prop
  | .other => True
  | .words total adcSamples start sent streamed =>
    z.fresh = true ∧ total = z.lastCap.adcSamples + z.lastCap.laSamples ∧
      adcSamples = z.lastCap.adcSamples ∧ start ≤ sent ∧ sent ≤ total ∧ streamed = z.samplesOf start sent

/-- What a run keeps. -/
structure Resumable : Prop where
  laBase : z.laBase = 0
  old : z.version < 22 → z.adcBase = fpgaPsramAdcBase
  intact : z.fresh = true → z.Intact
  flight : ∀ flight ∈ z.flight, z.Settled flight
  stream : ∀ readBack ∈ z.readBack, z.Follows readBack

/-- The counts that the starts of `capture_dual` take. -/
def countsFit (request : DualRequest) : Bool :=
  let units := laChangeUnits request.laSamples (z.chgK request)
  decide (request.adcSamples ≤ capMaxSamples) &&
    if z.chgK request = 0 then decide (request.laSamples ≤ capMaxSamples)
    else decide (units ≠ 0 ∧ units ≤ laChangeMaxUnits)

/-- A capture that is waited for ends inside the PSRAM, and so does its stamp. -/
def reaches : Waited → Bool
  | .adc samples => decide (z.adcBase + max 8 (2 * samples) ≤ psramTotal)
  | .la _ => true
  | .both adcSamples _ => decide (adcSamples = 0 ∨ z.adcBase + max 8 (2 * adcSamples) ≤ psramTotal)

/-- Words are read back. -/
def reading : Bool :=
  match z.readBack with
  | some (.words ..) => true
  | _ => false

/-- The bytes of an upload end inside the PSRAM, and no read-back is under way. -/
def uploads (data : List Byte) : Bool :=
  match z.upload with
  | none => true
  | some (total, have_) => decide (z.dacBase + have_ + (data.take (total - have_)).length ≤ psramTotal) && !z.reading

end Definitions

end Zones

/-- No command moves the ADC base from under a capture that could be resumed, or writes over its
samples at an address that nothing is marked for. -/
def ZoneEvent.resumes (z : Zones) : ZoneEvent → Bool
  | .captureDual request claimed basesWritten _ =>
    !z.heavyBegin claimed ||
      match z.dualZones request with
      | .error _ => true
      | .ok adcBase =>
        (basesWritten || decide (z.version < 22)) &&
          (z.countsFit request || !z.fresh || decide (z.lastCap.adcSamples = 0 ∨ adcBase = z.adcBase))
  | .waited asked claimed => !z.heavyBegin claimed || !z.fresh || z.reaches asked
  | .loadBytes data => !z.fresh || z.uploads data
  | _ => true

namespace Zones

variable {z after : Zones}

/-- A step that changes nothing of what leads to the last capture, but may mark it stale. -/
structure Leaves (after z : Zones) : Prop where
  version : after.version = z.version
  laBase : after.laBase = z.laBase
  adcBase : after.adcBase = z.adcBase
  lastCap : after.lastCap = z.lastCap
  recorded : after.recorded = z.recorded
  tracked : after.regions.tracked = z.regions.tracked
  stale : after.regions.stale = none → z.regions.stale = none

/-- A step that moreover leaves the samples, unless it marks them stale. -/
structure Kept (after z : Zones) : Prop extends Leaves after z where
  reads : after.regions.stale = none → ∀ region ∈ z.regions.tracked, region.Below psramTotal →
    after.psramRead region.base region.len = z.psramRead region.base region.len

theorem Leaves.refl (z : Zones) : z.Leaves z := ⟨rfl, rfl, rfl, rfl, rfl, rfl, id⟩

theorem Kept.refl (z : Zones) : z.Kept z := ⟨.refl z, fun _ _ _ _ => rfl⟩

theorem Leaves.trans {a b c : Zones} (first : a.Leaves b) (second : b.Leaves c) : a.Leaves c where
  version := first.version.trans second.version
  laBase := first.laBase.trans second.laBase
  adcBase := first.adcBase.trans second.adcBase
  lastCap := first.lastCap.trans second.lastCap
  recorded := first.recorded.trans second.recorded
  tracked := first.tracked.trans second.tracked
  stale unstale := second.stale (first.stale unstale)

theorem Kept.trans {a b c : Zones} (first : a.Kept b) (second : b.Kept c) : a.Kept c := by
  refine ⟨first.toLeaves.trans second.toLeaves, ?_⟩
  intro unstale region member inside
  have later := first.reads unstale region (second.tracked ▸ member) inside
  exact later.trans (second.reads (first.stale unstale) region member inside)

theorem Leaves.lastArm (leaves : after.Leaves z) : after.lastArm = z.lastArm := by
  unfold Zones.lastArm armAt
  rw [leaves.lastCap, leaves.adcBase, leaves.laBase]

theorem Leaves.fresh (leaves : after.Leaves z) (fresh : after.fresh = true) : z.fresh = true := by
  unfold Zones.fresh at *
  rw [leaves.lastCap] at fresh
  simp only [Bool.and_eq_true, Option.isNone_iff_eq_none] at fresh ⊢
  exact ⟨fresh.1, leaves.stale fresh.2⟩

theorem fresh_unstale (fresh : z.fresh = true) : z.regions.stale = none := by
  unfold Zones.fresh at fresh
  simp only [Bool.and_eq_true, Option.isNone_iff_eq_none] at fresh
  exact fresh.2

theorem fresh_valid (fresh : z.fresh = true) : z.lastCap.valid = true := by
  unfold Zones.fresh at fresh
  exact (Bool.and_eq_true_iff.mp fresh).1

theorem Intact.adc_tracked (intact : z.Intact) : z.lastCap.adcSamples = 0 ∨ z.lastArm.adc ∈ z.regions.tracked := by
  obtain none | some := Nat.eq_zero_or_pos z.lastCap.adcSamples
  · exact .inl none
  · refine .inr ?_
    rw [intact.tracked, List.mem_filter]
    refine ⟨List.mem_cons_self, decide_eq_true ?_⟩
    show 2 * z.lastCap.adcSamples ≠ 0
    omega

theorem Intact.la_tracked (intact : z.Intact) : z.lastCap.laSamples = 0 ∨ z.lastArm.la ∈ z.regions.tracked := by
  obtain none | some := Nat.eq_zero_or_pos z.lastCap.laSamples
  · exact .inl none
  · refine .inr ?_
    rw [intact.tracked, List.mem_filter]
    refine ⟨List.mem_cons_of_mem _ List.mem_cons_self, decide_eq_true ?_⟩
    show 2 * z.lastCap.laSamples ≠ 0
    omega

theorem Intact.kept (intact : z.Intact) (kept : after.Kept z) (fresh : after.fresh = true) : after.Intact := by
  have reads := kept.reads (fresh_unstale fresh)
  constructor
  · rw [kept.lastCap]
    exact intact.some
  · rw [kept.toLeaves.lastArm]
    exact intact.adcInside
  · rw [kept.toLeaves.lastArm]
    exact intact.laInside
  · rw [kept.tracked, kept.toLeaves.lastArm]
    exact intact.tracked
  · rw [kept.lastCap, kept.toLeaves.lastArm, kept.recorded]
    exact intact.adcWritten
  · rw [kept.lastCap, kept.toLeaves.lastArm, kept.recorded]
    exact intact.laWritten
  · rw [kept.adcBase, kept.lastCap, kept.recorded, ← intact.adc]
    obtain none | member := intact.adc_tracked
    · rw [none]
      rfl
    · exact reads _ member intact.adcInside
  · rw [kept.laBase, kept.lastCap, kept.recorded, ← intact.la]
    obtain none | member := intact.la_tracked
    · rw [none]
      rfl
    · exact reads _ member intact.laInside
  · rw [kept.version, kept.lastCap, kept.adcBase]
    exact intact.low

section Writes

variable {regions : PsramRegions} {written region : Region} {why : List Byte}

@[simp]
theorem dirty_tracked (regions : PsramRegions) (written : Region) (why : List Byte) :
    (regions.dirty written why).tracked = regions.tracked := by
  unfold PsramRegions.dirty
  repeat' split
  all_goals rfl

theorem dirty_unstale (unstale : (regions.dirty written why).stale = none) :
    regions.stale = none ∧ ∀ region ∈ regions.tracked, written.Apart region := by
  unfold PsramRegions.dirty at unstale
  split at unstale
  · rename_i marked
    rw [unstale] at marked
    cases marked
  · rename_i clean
    split at unstale
    · cases unstale
    · rename_i apart
      refine ⟨unstale, ?_⟩
      intro region member
      simp only [List.any_eq_true, decide_eq_true_eq, not_exists, not_and, not_not] at apart
      exact apart region member

theorem leaves_dirty (z : Zones) (written : Region) (why : List Byte) :
    { z with regions := z.regions.dirty written why }.Leaves z :=
  ⟨rfl, rfl, rfl, rfl, rfl, dirty_tracked z.regions written why, fun unstale => (dirty_unstale unstale).1⟩

theorem kept_dirty (z : Zones) (written : Region) (why : List Byte) :
    { z with regions := z.regions.dirty written why }.Kept z :=
  ⟨leaves_dirty z written why, fun _ _ _ _ => rfl⟩

theorem psramWrite_leaves (z : Zones) (addr : Nat) (data : List Byte) : (z.psramWrite addr data).Leaves z :=
  ⟨rfl, rfl, rfl, rfl, rfl, dirty_tracked z.regions _ _, fun unstale => (dirty_unstale unstale).1⟩

theorem psramWrite_kept (z : Zones) {addr : Nat} (data : List Byte) (inside : addr + data.length ≤ psramTotal) :
    (z.psramWrite addr data).Kept z := by
  refine ⟨psramWrite_leaves z addr data, ?_⟩
  intro unstale region member below
  have apart := (dirty_unstale unstale).2 region member
  obtain empty | top := below
  · rw [empty]
    rfl
  · exact Ring.read_pour apart inside top (Nat.le_refl _)

theorem captureRegionsDirty_kept (z : Zones) (adcSamples laSamples : Nat) :
    (z.captureRegionsDirty adcSamples laSamples).Kept z :=
  (kept_dirty { z with regions := z.regions.dirty _ _ } _ _).trans (kept_dirty z _ _)

theorem captureRegionsDirty_apart {adcSamples laSamples : Nat}
    (unstale : (z.captureRegionsDirty adcSamples laSamples).regions.stale = none) :
    ∀ region ∈ z.regions.tracked, Region.Apart ⟨z.adcBase, sampleBytes adcSamples⟩ region ∧
      Region.Apart ⟨z.laBase, sampleBytes laSamples⟩ region := by
  obtain ⟨first, second⟩ := dirty_unstale unstale
  intro region member
  exact ⟨(dirty_unstale first).2 region member, second region (by simpa using member)⟩

theorem stored_kept (z : Zones) {region : Region} {offset : Nat} (byte : Byte) (inside : region.Below psramTotal)
    (small : offset < region.len) (apart : z.regions.stale = none → ∀ r ∈ z.regions.tracked, region.Apart r) :
    { z with mem := Ring.put psramTotal z.mem (region.base + offset) byte }.Kept z := by
  refine ⟨⟨rfl, rfl, rfl, rfl, rfl, rfl, id⟩, ?_⟩
  intro unstale r member below
  obtain none | within := inside
  · omega
  · obtain empty | top := below
    · rw [empty]
      rfl
    · exact Ring.read_put (apart unstale r member) within top small byte

end Writes

section Starts

variable {samples adcSamples laSamples k : Nat}

/-- A start that marks the last capture where it will write over it, and that leaves the samples when
there is room for its stamp. -/
structure Marks (started : Zones × Option Arm) (z : Zones) (room : Prop) : Prop where
  leaves : started.1.Leaves z
  kept : room → started.1.Kept z
  apart : started.1.regions.stale = none → ∀ arm ∈ started.2, ∀ region ∈ z.regions.tracked,
    arm.adc.Apart region ∧ arm.la.Apart region

variable {room : Prop}

theorem Marks.none (z : Zones) : Marks (z, none) z room := ⟨.refl z, fun _ => .refl z, by simp⟩

theorem fpgaCaptureCmd_marks (leaves : after.Leaves z) (kept : room → after.Kept z)
    (adcFew : 2 * adcSamples < 4294967296) (laFew : 2 * laSamples < 4294967296) :
    Marks (after.fpgaCaptureCmd adcSamples laSamples) z room := by
  have dirty := captureRegionsDirty_kept after adcSamples laSamples
  refine ⟨dirty.toLeaves.trans leaves, fun within => dirty.trans (kept within), ?_⟩
  intro unstale arm armed region member
  obtain rfl := Option.some.inj armed
  have apart := captureRegionsDirty_apart unstale region (leaves.tracked ▸ member)
  rw [sampleBytes_of_lt adcFew, sampleBytes_of_lt laFew] at apart
  exact apart

theorem adcCapturePsramStart_marks (z : Zones) (samples : Nat) :
    Marks (z.adcCapturePsramStart samples) z (z.adcBase + 8 ≤ psramTotal) := by
  unfold adcCapturePsramStart
  split
  · exact .none z
  · rename_i fits
    unfold capMaxSamples at fits
    have dirty := captureRegionsDirty_kept z samples 0
    refine fpgaCaptureCmd_marks ((psramWrite_leaves _ _ _).trans dirty.toLeaves) ?_ (by omega) (by omega)
    intro within
    exact (psramWrite_kept (z.captureRegionsDirty samples 0) capNowriteSentinel within).trans dirty

theorem fpgaDualCaptureStart_marks (z : Zones) (adcSamples laSamples : Nat) :
    Marks (z.fpgaDualCaptureStart adcSamples laSamples) z (adcSamples = 0 ∨ z.adcBase + 8 ≤ psramTotal) := by
  unfold fpgaDualCaptureStart
  dsimp only
  split
  · exact .none z
  · split
    · exact .none z
    · rename_i fits
      unfold capMaxSamples at fits
      have dirty := captureRegionsDirty_kept z adcSamples laSamples
      split
      · exact fpgaCaptureCmd_marks dirty.toLeaves (fun _ => dirty) (by omega) (by omega)
      · rename_i some
        refine fpgaCaptureCmd_marks ((psramWrite_leaves _ _ _).trans dirty.toLeaves) ?_ (by omega) (by omega)
        intro within
        have stamped := psramWrite_kept (z.captureRegionsDirty adcSamples laSamples) capNowriteSentinel
          (within.resolve_left some)
        exact stamped.trans dirty

theorem fpgaLaCapturePsramStart_marks (z : Zones) (samples : Nat) : Marks (z.fpgaLaCapturePsramStart samples) z room := by
  unfold fpgaLaCapturePsramStart
  split
  · exact .none z
  · rename_i fits
    have max := z.ceiling_le psramTotal
    rw [laMaxSamples_false] at fits
    unfold psramTotal at max fits
    exact fpgaCaptureCmd_marks (.refl z) (fun _ => .refl z) (by omega) (by omega)

end Starts

section Handlers

theorem begun_idle {claimed : Bool} (begun : z.heavyBegin claimed = true) : z.flight = none ∧ z.readBack = none := by
  simp only [heavyBegin, Bool.and_eq_true, Option.isNone_iff_eq_none] at begun
  exact ⟨begun.1.1.2, begun.1.2⟩

theorem quiet_idle {claimed : Bool} (still : z.quiet claimed = true) : z.flight = none ∧ z.readBack = none := by
  simp only [quiet, Bool.or_eq_true, Bool.and_eq_true, Option.isNone_iff_eq_none] at still
  obtain begun | alone := still
  · exact begun_idle begun
  · exact ⟨alone.1.2, alone.2⟩

theorem Settled.leaves {flight : Flight} (settled : z.Settled flight) (leaves : after.Leaves z) :
    after.Settled flight := by
  unfold Settled at *
  split at settled
  · rw [leaves.lastCap]
    exact settled
  · rw [leaves.lastCap]
    exact settled
  · obtain ⟨invalid, placed⟩ := settled
    rw [leaves.lastCap]
    refine ⟨invalid, placed.some, ?_, placed.adcInside, placed.laInside, ?_⟩
    · rw [placed.arm]
      unfold armAt
      rw [leaves.adcBase, leaves.laBase]
    · rw [leaves.version, leaves.adcBase]
      exact placed.low
  · intro fresh
    rw [leaves.tracked]
    exact settled (leaves.fresh fresh)

/-- A step that keeps the last capture keeps what is known of it; while words are read back it marks
nothing. -/
theorem Resumable.kept (resumable : z.Resumable) (leaves : after.Leaves z)
    (kept : z.fresh = true → after.Kept z) (flight : after.flight = z.flight ∨ after.flight = none)
    (readBack : after.readBack = z.readBack ∧ (z.reading = true → after.fresh = z.fresh) ∨
      ∀ readBack ∈ after.readBack, after.Follows readBack) : after.Resumable := by
  constructor
  · rw [leaves.laBase]
    exact resumable.laBase
  · rw [leaves.version, leaves.adcBase]
    exact resumable.old
  · intro fresh
    have before := leaves.fresh fresh
    exact (resumable.intact before).kept (kept before) fresh
  · intro f flies
    obtain same | past := flight
    · exact Settled.leaves (resumable.flight f (same ▸ flies)) leaves
    · rw [past] at flies
      cases flies
  · obtain ⟨same, unmarked⟩ | follows := readBack
    · intro readBack reads
      rw [same] at reads
      have follows := resumable.stream readBack reads
      cases readBack with
      | other => exact trivial
      | words total adcSamples start sent streamed =>
        obtain ⟨fresh, whole, adc, order, within, bytes⟩ := follows
        have reading : z.reading = true := by
          unfold Zones.reading
          rw [Option.mem_def.mp reads]
        refine ⟨(unmarked reading).trans fresh, ?_, ?_, order, within, ?_⟩
        · rw [leaves.lastCap]
          exact whole
        · rw [leaves.lastCap]
          exact adc
        · rw [bytes]
          unfold samplesOf
          rw [leaves.recorded]
    · exact follows

theorem resumable_of_unfresh (laBase : z.laBase = 0) (old : z.version < 22 → z.adcBase = fpgaPsramAdcBase)
    (unfresh : z.fresh = false) (flight : ∀ flight ∈ z.flight, z.Settled flight) (idle : z.readBack = none) :
    z.Resumable := by
  refine ⟨laBase, old, ?_, flight, ?_⟩
  · intro fresh
    cases unfresh.symm.trans fresh
  · rw [idle]
    intro readBack reads
    cases reads

theorem fly_resumable {flight : Flight} (laBase : z.laBase = 0)
    (old : z.version < 22 → z.adcBase = fpgaPsramAdcBase) (idle : z.readBack = none)
    (kind : flight.kind ≠ .waited) (placed : flight.kind = .words → z.Placed flight) :
    (z.fly flight).Resumable := by
  refine resumable_of_unfresh laBase old rfl ?_ idle
  intro f flies
  obtain rfl := Option.some.inj flies
  unfold Settled
  split
  · rfl
  · rfl
  · rename_i words
    have placed := placed words
    exact ⟨rfl, placed.some, placed.arm, placed.adcInside, placed.laInside, placed.low⟩
  · rename_i waited
    exact absurd waited kind

theorem Resumable.aloft {flight : Flight} (resumable : z.Resumable) (idle : z.readBack = none)
    (settled : z.Settled flight) : { z with flight := some flight }.Resumable := by
  refine ⟨resumable.laBase, resumable.old, ?_, ?_, ?_⟩
  · intro fresh
    obtain ⟨some, adcInside, laInside, tracked, adcWritten, laWritten, adc, la, low⟩ := resumable.intact fresh
    exact ⟨some, adcInside, laInside, tracked, adcWritten, laWritten, adc, la, low⟩
  · intro f flies
    obtain rfl := Option.some.inj flies
    exact Settled.leaves settled ⟨rfl, rfl, rfl, rfl, rfl, rfl, id⟩
  · intro readBack reads
    rw [Option.mem_def] at reads
    cases idle.symm.trans reads

theorem handleCapture_resumable {samples : Nat} {claimed : Bool} (resumable : z.Resumable) :
    (z.handleCapture samples claimed).1.Resumable := by
  unfold handleCapture
  split
  · exact resumable
  · split
    · exact resumable
    · rename_i _ begun
      obtain ⟨alone, idle⟩ := begun_idle (Bool.of_not_eq_false begun)
      unfold adcCapturePsramStart
      split
      · rename_i started
        split at started
        · obtain ⟨rfl, -⟩ := Prod.mk.inj started
          exact resumable
        · cases congrArg Prod.snd started
      · rename_i after arm started
        split at started
        · cases congrArg Prod.snd started
        · obtain ⟨rfl, -⟩ := Prod.mk.inj started
          exact fly_resumable resumable.laBase resumable.old idle (by simp) (by simp)

theorem handleMeasure_resumable {samples : Nat} {claimed : Bool} (resumable : z.Resumable) :
    (z.handleMeasure samples claimed).1.Resumable := by
  unfold handleMeasure
  split
  · exact resumable
  · split
    · exact resumable
    · rename_i _ begun
      obtain ⟨alone, idle⟩ := begun_idle (Bool.of_not_eq_false begun)
      unfold measurePsramStart
      split
      · rename_i started
        split at started
        · obtain ⟨rfl, -⟩ := Prod.mk.inj started
          exact resumable
        · cases congrArg Prod.snd started
      · rename_i after arm started
        split at started
        · cases congrArg Prod.snd started
        · obtain ⟨rfl, -⟩ := Prod.mk.inj started
          exact fly_resumable resumable.laBase resumable.old idle (by simp) (by simp)

theorem Intact.bottom (intact : z.Intact) (movable : 22 ≤ z.version) (laBase : z.laBase = 0) :
    ∃ region ∈ z.regions.tracked, region.base = 0 ∧ region.len ≠ 0 := by
  have some := intact.some
  obtain none | la := intact.la_tracked
  · obtain none' | adc := intact.adc_tracked
    · omega
    · refine ⟨_, adc, intact.low movable none, ?_⟩
      show 2 * z.lastCap.adcSamples ≠ 0
      omega
  · obtain none | more := Nat.eq_zero_or_pos z.lastCap.laSamples
    · obtain none' | adc := intact.adc_tracked
      · omega
      · refine ⟨_, adc, intact.low movable none, ?_⟩
        show 2 * z.lastCap.adcSamples ≠ 0
        omega
    · refine ⟨_, la, laBase, ?_⟩
      show 2 * z.lastCap.laSamples ≠ 0
      omega

theorem unfresh_of_bottom {adcSamples laSamples : Nat}
    (bottom : z.fresh = true → ∃ region ∈ z.regions.tracked, region.base = 0 ∧ region.len ≠ 0)
    (laBase : z.laBase = 0) (some : sampleBytes laSamples ≠ 0) (lastCap : after.lastCap = z.lastCap)
    (marks : after.regions.stale = none →
      (z.captureRegionsDirty adcSamples laSamples).regions.stale = none) : after.fresh = false := by
  refine Bool.eq_false_iff.mpr ?_
  intro fresh
  have unstale := marks (fresh_unstale fresh)
  have before : z.fresh = true := by
    have kept := captureRegionsDirty_kept z adcSamples laSamples
    unfold Zones.fresh
    rw [← lastCap, fresh_valid fresh, kept.stale unstale]
    rfl
  obtain ⟨region, member, base, len⟩ := bottom before
  refine Region.not_apart_of_mem (a := 0) ?_ ?_ (captureRegionsDirty_apart unstale region member).2
  · unfold Region.top
    dsimp only
    omega
  · unfold Region.top
    omega

theorem fpgaLaChangeStart_cases (z : Zones) (samples k : Nat) (pre : Bool) (writes : LaChangeWrites) :
    z.fpgaLaChangeStart samples k pre writes = (z, none) ∨
      50 ≤ z.version ∧ 0 < z.laMaxSamples false ∧
        (z.fpgaLaChangeStart samples k pre writes).1.lastCap = z.lastCap ∧
        (z.fpgaLaChangeStart samples k pre writes).1.regions =
          (z.captureRegionsDirty 0 (z.laMaxSamples false)).regions := by
  unfold fpgaLaChangeStart
  dsimp only
  split
  · exact .inl rfl
  · split
    · exact .inl rfl
    · refine .inr ⟨by omega, by omega, ?_⟩
      split
      · exact ⟨rfl, rfl⟩
      · rename_i moved set
        obtain rfl := fpgaSetCaptureBases_spec set
        split
        · exact ⟨rfl, rfl⟩
        · rename_i restored reset
          obtain rfl := fpgaSetCaptureBases_spec reset
          exact ⟨rfl, rfl⟩

theorem laRaw_placed {samples : Nat} (laBase : z.laBase = 0) (fits : samples ≤ z.laMaxSamples false)
    (some : samples ≠ 0) {flight : Flight} (adcSamples : flight.adcSamples = 0)
    (laSamples : flight.laSamples = samples) (arm : flight.arm = z.armAt 0 samples) : z.Placed flight := by
  have max := z.ceiling_le psramTotal
  rw [laMaxSamples_false] at fits
  constructor
  · omega
  · rw [adcSamples, laSamples, arm]
  · rw [arm]
    exact .inl rfl
  · rw [arm]
    refine .inr ?_
    show z.laBase + 2 * samples ≤ psramTotal
    omega
  · intro _ none
    omega

theorem handleLaCapture_resumable {samples divisor rateHz : Nat} {pre claimed : Bool}
    {writes : LaChangeWrites} (resumable : z.Resumable) :
    (z.handleLaCapture samples divisor rateHz pre claimed writes).1.Resumable := by
  unfold handleLaCapture
  split
  · exact resumable
  · split
    · exact resumable
    · rename_i fits begun
      obtain ⟨alone, idle⟩ := begun_idle (Bool.of_not_eq_false begun)
      dsimp only
      generalize (if z.version < 50 then 0 else divisor) = k
      obtain rfl | change := Nat.eq_zero_or_pos k
      · simp only [if_true]
        unfold fpgaLaCapturePsramStart
        rw [if_neg fits]
        refine fly_resumable resumable.laBase resumable.old idle (by simp) ?_
        intro _
        have room : samples ≤ z.laMaxSamples false := by omega
        have placed : z.Placed { kind := .words, arm := z.armAt 0 samples, laSamples := samples } :=
          laRaw_placed resumable.laBase room (by omega) rfl rfl rfl
        exact ⟨placed.some, placed.arm, placed.adcInside, placed.laInside, placed.low⟩
      · simp only [if_neg (Nat.ne_of_gt change)]
        have same := (fpgaLaChangeStart_spec z samples k pre writes).1
        obtain refused | ⟨new, some, lastCap, regions⟩ := fpgaLaChangeStart_cases z samples k pre writes
        · rw [refused]
          exact resumable
        · have laBase := same.laBase.trans resumable.laBase
          have idle := same.readBack.trans idle
          have alone := same.flight.trans alone
          have movable : ∀ bound ≤ 50, ¬ (z.fpgaLaChangeStart samples k pre writes).1.version < bound := by
            intro bound _
            rw [same.version]
            omega
          split
          · rename_i after started
            rw [started] at laBase idle alone lastCap regions movable
            have max := z.ceiling_le psramTotal
            have bytes : sampleBytes (z.laMaxSamples false) ≠ 0 := by
              rw [laMaxSamples_false] at *
              rw [sampleBytes_of_lt (by unfold psramTotal at *; omega)]
              omega
            have unfresh : after.fresh = false := by
              refine unfresh_of_bottom (fun fresh => ?_) resumable.laBase bytes lastCap (fun unstale => regions ▸ unstale)
              exact (resumable.intact fresh).bottom (by omega) resumable.laBase
            refine resumable_of_unfresh laBase (fun old => absurd old (movable 22 (by omega))) unfresh ?_ idle
            intro flight flies
            rw [Option.mem_def] at flies
            cases alone.symm.trans flies
          · rename_i after arm started
            rw [started] at laBase idle movable
            exact fly_resumable laBase (fun old => absurd old (movable 22 (by omega))) idle (by simp) (by simp)

theorem fpgaDualCaptureStart_refused {adcSamples laSamples : Nat} (some : ¬(adcSamples = 0 ∧ laSamples = 0))
    (refused : (z.fpgaDualCaptureStart adcSamples laSamples).2 = none) :
    (z.fpgaDualCaptureStart adcSamples laSamples).1 = z ∧ (capMaxSamples < adcSamples ∨ capMaxSamples < laSamples) := by
  unfold fpgaDualCaptureStart at refused ⊢
  dsimp only at refused ⊢
  rw [if_neg some] at refused ⊢
  split at refused
  · rename_i many
    rw [if_pos many]
    exact ⟨rfl, many⟩
  · split at refused <;> cases refused

theorem fpgaDualChangeStart_cases (adcSamples : Nat) {laSamples k : Nat} (z : Zones) (armWritten : Bool)
    (change : ¬(z.version < 50 ∨ k = 0 ∨ laSamples = 0)) :
    z.fpgaDualChangeStart adcSamples laSamples k armWritten = (z, none) ∧
        (capMaxSamples < adcSamples ∨ laChangeUnits laSamples k = 0 ∨
          laChangeMaxUnits < laChangeUnits laSamples k) ∨
      (z.fpgaDualChangeStart adcSamples laSamples k armWritten).1.Leaves z ∧
        ((z.fpgaDualChangeStart adcSamples laSamples k armWritten).1.regions.stale = none →
          (z.captureRegionsDirty adcSamples ((z.adcBase - z.laBase) / 2)).regions.stale = none) := by
  unfold fpgaDualChangeStart
  dsimp only
  rw [if_neg change]
  split
  · rename_i many
    exact .inl ⟨rfl, .inl many⟩
  · split
    · rename_i units
      exact .inl ⟨rfl, .inr units⟩
    · refine .inr ?_
      have dirty := (captureRegionsDirty_kept z adcSamples ((z.adcBase - z.laBase) / 2)).toLeaves
      split
      · exact ⟨dirty, id⟩
      · have stamp := psramWrite_leaves (z.captureRegionsDirty adcSamples ((z.adcBase - z.laBase) / 2))
          z.adcBase capNowriteSentinel
        exact ⟨stamp.trans dirty, stamp.stale⟩

/-- Setting the bases harms nothing where there is nothing to resume, where the last capture has no
ADC samples, or where the base stays. -/
theorem moved_resumable {adcBase : Nat} (resumable : z.Resumable) (alone : z.flight = none)
    (idle : z.readBack = none) (old : z.version < 22 → adcBase = fpgaPsramAdcBase)
    (harmless : z.fresh = false ∨ z.lastCap.adcSamples = 0 ∨ adcBase = z.adcBase) :
    { z with laBase := 0, adcBase }.Resumable := by
  obtain unfresh | none | rfl := harmless
  · refine resumable_of_unfresh rfl old unfresh ?_ idle
    intro flight flies
    rw [Option.mem_def] at flies
    cases alone.symm.trans flies
  · refine ⟨rfl, old, ?_, ?_, ?_⟩
    · intro fresh
      have intact := resumable.intact fresh
      have some := intact.some
      have arm : { z with laBase := 0, adcBase }.lastArm = ⟨⟨adcBase, 0⟩, z.lastArm.la⟩ := by
        unfold Zones.lastArm armAt
        rw [resumable.laBase]
        simp [none]
      have before : z.lastArm.adc.len = 0 := by
        show 2 * z.lastCap.adcSamples = 0
        rw [none]
      constructor
      · exact some
      · rw [arm]
        exact .inl rfl
      · rw [arm]
        exact intact.laInside
      · rw [arm]
        refine intact.tracked.trans ?_
        simp [before]
      · intro adc
        exact absurd none adc
      · intro la
        rw [arm]
        exact intact.laWritten la
      · refine Eq.trans ?_ intact.adc
        show z.psramRead adcBase _ = _
        rw [none]
        rfl
      · have la := intact.la
        rw [resumable.laBase] at la
        exact la
      · intro _ la
        exact absurd la (by show z.lastCap.laSamples ≠ 0; omega)
    · intro flight flies
      rw [Option.mem_def] at flies
      cases alone.symm.trans flies
    · intro readBack reads
      rw [Option.mem_def] at reads
      cases idle.symm.trans reads
  · have same : { z with laBase := 0, adcBase := z.adcBase } = z := by
      rw [← resumable.laBase]
    rw [same]
    exact resumable

theorem dualZones_old {request : DualRequest} {adcBase : Nat} (zones : z.dualZones request = .ok adcBase)
    (old : z.version < 22) : adcBase = fpgaPsramAdcBase ∧ request.adcSamples ≤ z.adcMaxSamples := by
  unfold dualZones at zones
  rw [if_neg (by omega)] at zones
  split at zones
  · cases zones
  · cases zones
    exact ⟨rfl, by omega⟩

theorem dualZones_raw {request : DualRequest} {adcBase : Nat} (zones : z.dualZones request = .ok adcBase)
    (raw : z.chgK request = 0) (adcFew : request.adcSamples ≤ capMaxSamples) :
    Region.Below ⟨adcBase, 2 * request.adcSamples⟩ psramTotal ∧
      (22 ≤ z.version → request.laSamples = 0 → adcBase = 0) := by
  obtain old | new := Nat.lt_or_ge z.version 22
  · obtain ⟨rfl, few⟩ := dualZones_old zones old
    refine ⟨?_, fun new => by omega⟩
    have ceiling := z.ceiling_le psramTotal
    unfold adcMaxSamples at few
    unfold Region.Below Region.top
    dsimp only
    omega
  · unfold dualZones at zones
    rw [if_pos new] at zones
    split at zones
    · cases zones
    · rename_i packed plan
      obtain ⟨layout, fits⟩ := psramPlan_fits plan
      rw [if_pos raw] at zones
      cases zones
      rw [sampleBytes_of_le adcFew] at fits
      constructor
      · refine .inr ?_
        unfold Region.top
        unfold psramUsableBytes at fits
        unfold psramTotal
        dsimp only
        omega
      · intro _ none
        rw [layout, none]
        rfl

theorem dualRaw_placed {request : DualRequest} {adcBase : Nat} (zones : z.dualZones request = .ok adcBase)
    (raw : z.chgK request = 0) (some : ¬(request.adcSamples = 0 ∧ request.laSamples = 0))
    (adcFew : request.adcSamples ≤ capMaxSamples) (laFew : request.laSamples ≤ capMaxSamples)
    {flight : Flight} (adcSamples : flight.adcSamples = request.adcSamples)
    (laSamples : flight.laSamples = request.laSamples)
    (arm : flight.arm = { z with laBase := 0, adcBase }.armAt request.adcSamples request.laSamples) :
    { z with laBase := 0, adcBase }.Placed flight := by
  obtain ⟨inside, low⟩ := dualZones_raw zones raw adcFew
  constructor
  · omega
  · rw [arm, adcSamples, laSamples]
  · rw [arm]
    exact inside
  · rw [arm]
    refine .inr ?_
    show 0 + 2 * request.laSamples ≤ psramTotal
    unfold capMaxSamples at laFew
    unfold psramTotal
    omega
  · rw [laSamples]
    exact low

theorem dualZones_change {request : DualRequest} {adcBase : Nat} (zones : z.dualZones request = .ok adcBase)
    (change : z.chgK request ≠ 0) (new : 22 ≤ z.version) : 4032 ≤ adcBase ∧ adcBase ≤ psramTotal := by
  unfold dualZones at zones
  rw [if_pos new] at zones
  split at zones
  · cases zones
  · rename_i packed plan
    obtain ⟨layout, fits⟩ := psramPlan_fits plan
    rw [if_neg change] at zones
    cases zones
    unfold changeTop psramUsableBytes psramTotal at *
    dsimp only
    omega

theorem chgK_eq_zero {request : DualRequest} (change : z.chgK request ≠ 0) :
    ¬(z.version < 50 ∨ z.chgK request = 0 ∨ request.laSamples = 0) := by
  have new : ¬(request.laSamples = 0 ∨ z.version < 50) := by
    intro none
    exact change (if_pos none)
  omega

/-- The start of `capture_dual` behind the bases it has set: armed, marked, or refused for its counts. -/
theorem dualStart_resumable {request : DualRequest} {adcBase : Nat} {armWritten : Bool} {text : List Byte}
    (resumable : z.Resumable) (alone : z.flight = none) (idle : z.readBack = none)
    (any : ¬(request.adcSamples = 0 ∧ request.laSamples = 0)) (zones : z.dualZones request = .ok adcBase)
    (harmless : z.countsFit request = true ∨ z.fresh = false ∨ z.lastCap.adcSamples = 0 ∨ adcBase = z.adcBase) :
    (match { z with laBase := 0, adcBase }.dualStart request armWritten with
      | (z, none) => (z, Reply.error text)
      | (z, some arm) =>
        (z.fly { kind := if z.chgK request = 0 then .words else .changes, arm
                 adcSamples := request.adcSamples, laSamples := request.laSamples
                 adcRateHz := request.adcHz, laRateHz := request.laHz }, .later)).1.Resumable := by
  have old : z.version < 22 → adcBase = fpgaPsramAdcBase := fun old => (dualZones_old zones old).1
  have moved (many : z.countsFit request = false) : { z with laBase := 0, adcBase }.Resumable := by
    refine moved_resumable resumable alone idle old (harmless.resolve_left ?_)
    rw [many]
    exact Bool.false_ne_true
  have kindOf (after : Zones) (same : after.version = z.version) : after.chgK request = z.chgK request := by
    unfold chgK
    rw [same]
  have divisor : { z with laBase := 0, adcBase }.chgK request = z.chgK request := rfl
  unfold dualStart
  rw [divisor]
  obtain raw | change := Classical.em (z.chgK request = 0)
  · rw [if_pos raw]
    obtain ⟨same, armed⟩ := fpgaDualCaptureStart_spec { z with laBase := 0, adcBase } request.adcSamples request.laSamples
    have leaves := (fpgaDualCaptureStart_marks { z with laBase := 0, adcBase }
      request.adcSamples request.laSamples).leaves
    split
    · rename_i after refused
      have many := fpgaDualCaptureStart_refused any (congrArg Prod.snd refused)
      rw [refused] at many
      obtain ⟨rfl, many⟩ := many
      refine moved ?_
      unfold countsFit
      dsimp only
      rw [if_pos raw]
      simp only [Bool.and_eq_false_iff, decide_eq_false_iff_not]
      omega
    · rename_i after arm started
      rw [started] at same armed leaves
      obtain ⟨rfl, adcFew, laFew⟩ := armed arm rfl
      have words : after.chgK request = 0 := (kindOf after same.version).trans raw
      have placed : { z with laBase := 0, adcBase }.Placed
          { kind := .words, arm := { z with laBase := 0, adcBase }.armAt request.adcSamples request.laSamples
            adcSamples := request.adcSamples, laSamples := request.laSamples } :=
        dualRaw_placed zones raw any adcFew laFew rfl rfl rfl
      rw [if_pos words]
      refine fly_resumable same.laBase (fun young => ?_) (same.readBack.trans idle) (by simp) ?_
      · rw [leaves.adcBase]
        exact old (same.version ▸ young)
      · intro _
        refine ⟨placed.some, ?_, placed.adcInside, placed.laInside, ?_⟩
        · unfold armAt
          rw [leaves.adcBase, leaves.laBase]
        · rw [leaves.version, leaves.adcBase]
          exact placed.low
  · have new := chgK_eq_zero change
    have marks := fpgaDualChangeStart_cases request.adcSamples { z with laBase := 0, adcBase } armWritten new
    rw [if_neg change]
    obtain ⟨same, -⟩ := fpgaDualChangeStart_spec { z with laBase := 0, adcBase } request.adcSamples
      request.laSamples (z.chgK request) armWritten
    obtain ⟨refused, many⟩ | ⟨leaves, marked⟩ := marks
    · rw [refused]
      refine moved ?_
      unfold countsFit
      dsimp only
      rw [if_neg change]
      simp only [Bool.and_eq_false_iff, decide_eq_false_iff_not]
      omega
    · split
      · rename_i after started
        rw [started] at same leaves marked
        have room := dualZones_change zones change (by omega)
        unfold psramTotal at room
        have bytes : sampleBytes (({ z with laBase := 0, adcBase }.adcBase - 0) / 2) ≠ 0 := by
          show sampleBytes ((adcBase - 0) / 2) ≠ 0
          rw [sampleBytes_of_lt (by omega)]
          omega
        have unfresh : after.fresh = false := by
          refine unfresh_of_bottom (fun fresh => ?_) rfl bytes leaves.lastCap marked
          exact (resumable.intact fresh).bottom (by omega) resumable.laBase
        refine resumable_of_unfresh same.laBase (fun young => ?_) unfresh ?_ (same.readBack.trans idle)
        · rw [leaves.adcBase]
          exact old (same.version ▸ young)
        · intro flight flies
          rw [same.flight, Option.mem_def] at flies
          cases alone.symm.trans flies
      · rename_i after arm started
        rw [started] at same leaves
        have changes : ¬after.chgK request = 0 := fun raw => change ((kindOf after same.version).symm.trans raw)
        rw [if_neg changes]
        refine fly_resumable same.laBase (fun young => ?_) (same.readBack.trans idle) (by simp) (by simp)
        rw [leaves.adcBase]
        exact old (same.version ▸ young)

theorem handleCaptureDual_resumable {request : DualRequest} {claimed basesWritten armWritten : Bool}
    (resumable : z.Resumable)
    (resumes : ZoneEvent.resumes z (.captureDual request claimed basesWritten armWritten) = true) :
    (z.handleCaptureDual request claimed basesWritten armWritten).1.Resumable := by
  unfold handleCaptureDual
  split
  · exact resumable
  · rename_i any
    split
    · exact resumable
    · rename_i adcBase zones
      split
      · exact resumable
      · rename_i begun
        obtain ⟨alone, idle⟩ := begun_idle (Bool.of_not_eq_false begun)
        have allowed : (basesWritten = true ∨ z.version < 22) ∧
            (z.countsFit request = true ∨ z.fresh = false ∨ z.lastCap.adcSamples = 0 ∨ adcBase = z.adcBase) := by
          simpa [ZoneEvent.resumes, begun, zones, or_assoc] using resumes
        have moved : (z.fpgaSetCaptureBases basesWritten 0 adcBase).getD z = { z with laBase := 0, adcBase } := by
          unfold fpgaSetCaptureBases
          rw [if_neg]
          · rfl
          · rintro ⟨new, lost⟩
            obtain written | old := allowed.1
            · exact Bool.false_ne_true (lost.symm.trans written)
            · omega
        dsimp only
        rw [moved]
        exact dualStart_resumable resumable alone idle any zones allowed.2

theorem waitedStart_marks (z : Zones) (waited : Waited) :
    Marks (z.waitedStart waited) z (z.reaches waited = true) ∧ (z.waitedStart waited).1.Same z := by
  cases waited with
  | adc samples =>
    have marks := adcCapturePsramStart_marks z samples
    refine ⟨⟨marks.leaves, fun reaches => marks.kept ?_, marks.apart⟩, (adcCapturePsramStart_spec z samples).1⟩
    have room := of_decide_eq_true reaches
    omega
  | la samples => exact ⟨fpgaLaCapturePsramStart_marks z samples, (fpgaLaCapturePsramStart_spec z samples).1⟩
  | both adcSamples laSamples =>
    have marks := fpgaDualCaptureStart_marks z adcSamples laSamples
    refine ⟨⟨marks.leaves, fun reaches => marks.kept ?_, marks.apart⟩,
      (fpgaDualCaptureStart_spec z adcSamples laSamples).1⟩
    have room := of_decide_eq_true reaches
    omega

theorem waitedStart_inside (waited : Waited) (laBase : z.laBase = 0) (reaches : z.reaches waited = true) :
    ∀ arm ∈ (z.waitedStart waited).2, arm.adc.Below psramTotal ∧ arm.la.Below psramTotal := by
  intro arm armed
  cases waited with
  | adc samples =>
    rw [(adcCapturePsramStart_spec z samples).2 arm armed]
    have room := of_decide_eq_true reaches
    refine ⟨.inr ?_, .inl rfl⟩
    show z.adcBase + 2 * samples ≤ psramTotal
    omega
  | la samples =>
    obtain ⟨rfl, fits⟩ := (fpgaLaCapturePsramStart_spec z samples).2 arm armed
    have max := z.ceiling_le psramTotal
    rw [laMaxSamples_false] at fits
    refine ⟨.inl rfl, .inr ?_⟩
    show z.laBase + 2 * samples ≤ psramTotal
    omega
  | both adcSamples laSamples =>
    obtain ⟨rfl, -, laFew⟩ := (fpgaDualCaptureStart_spec z adcSamples laSamples).2 arm armed
    have room := of_decide_eq_true reaches
    constructor
    · obtain none | within := room
      · rw [none]
        exact .inl rfl
      · refine .inr ?_
        show z.adcBase + 2 * adcSamples ≤ psramTotal
        omega
    · refine .inr ?_
      show z.laBase + 2 * laSamples ≤ psramTotal
      unfold capMaxSamples at laFew
      unfold psramTotal
      omega

theorem waitedCapture_resumable {waited : Waited} {claimed : Bool} (resumable : z.Resumable)
    (resumes : ZoneEvent.resumes z (.waited waited claimed) = true) :
    (z.waitedCapture waited claimed).1.Resumable := by
  unfold waitedCapture
  split
  · exact resumable
  · rename_i begun
    obtain ⟨alone, idle⟩ := begun_idle (Bool.of_not_eq_false begun)
    have allowed : z.fresh = false ∨ z.reaches waited = true := by simpa [ZoneEvent.resumes, begun] using resumes
    obtain ⟨marks, same⟩ := waitedStart_marks z waited
    have inside := waitedStart_inside waited resumable.laBase
    have leaves := marks.leaves
    have unfresh (before : z.fresh = false) : (z.waitedStart waited).1.fresh = false := by
      refine Bool.eq_false_iff.mpr fun fresh => ?_
      exact Bool.false_ne_true (before.symm.trans (leaves.fresh fresh))
    have apart (fresh : (z.waitedStart waited).1.fresh = true) := marks.apart (fresh_unstale fresh)
    have base : (z.waitedStart waited).1.Resumable := by
      refine resumable.kept leaves (fun fresh => ?_) (.inl same.flight) (.inr ?_)
      · obtain before | reaches := allowed
        · exact absurd (before.symm.trans fresh) Bool.false_ne_true
        · exact marks.kept reaches
      · rw [same.readBack, idle]
        intro readBack reads
        cases reads
    split
    · rename_i after started
      rw [started] at base
      exact base
    · rename_i after arm started
      rw [started] at base inside apart leaves unfresh same
      refine base.aloft (same.readBack.trans idle) ?_
      intro fresh
      obtain before | reaches := allowed
      · exact absurd ((unfresh before).symm.trans fresh) Bool.false_ne_true
      · obtain ⟨adcInside, laInside⟩ := inside reaches arm rfl
        refine ⟨adcInside, laInside, ?_⟩
        intro region member
        exact apart fresh arm rfl region (leaves.tracked ▸ member)

theorem handleReplay_resumable {samples : Nat} {claimed stopped : Bool} (resumable : z.Resumable) :
    (z.handleReplay samples claimed stopped).1.Resumable := by
  unfold handleReplay
  split
  · exact resumable
  · split
    · exact resumable
    · split
      · exact resumable
      · unfold dacReplayPsram
        split
        · exact resumable
        · refine resumable.kept ⟨rfl, rfl, rfl, rfl, rfl, rfl, id⟩ (fun _ => ?_) (.inl rfl) (.inl ⟨rfl, fun _ => rfl⟩)
          exact ⟨⟨rfl, rfl, rfl, rfl, rfl, rfl, id⟩, fun _ _ _ _ => rfl⟩

theorem handleLoadBin_resumable {total : Nat} {claimed : Bool} (resumable : z.Resumable) :
    (z.handleLoadBin total claimed).1.Resumable := by
  unfold handleLoadBin
  split
  · exact resumable
  · split
    · exact resumable
    · rename_i begun
      obtain ⟨alone, idle⟩ := begun_idle (Bool.of_not_eq_false begun)
      have dirty := leaves_dirty z ⟨(z.dacPsramStage total).dacBase, total⟩ (cstr "a load_bin psram upload")
      refine resumable.kept ⟨rfl, rfl, rfl, rfl, rfl, dirty.tracked, dirty.stale⟩ (fun _ => ?_) (.inl rfl) (.inr ?_)
      · exact ⟨⟨rfl, rfl, rfl, rfl, rfl, dirty.tracked, dirty.stale⟩, fun _ _ _ _ => rfl⟩
      · intro readBack reads
        rw [Option.mem_def] at reads
        cases idle.symm.trans reads

theorem loadBinReceive_resumable {data : List Byte} (resumable : z.Resumable)
    (resumes : ZoneEvent.resumes z (.loadBytes data) = true) : (z.loadBinReceive data).Resumable := by
  unfold loadBinReceive
  split
  · exact resumable
  · rename_i total have_ upload
    have allowed : z.fresh = false ∨
        z.dacBase + have_ + (data.take (total - have_)).length ≤ psramTotal ∧ z.reading = false := by
      have fits := resumes
      simp only [ZoneEvent.resumes, uploads, upload, Bool.or_eq_true, Bool.not_eq_true', Bool.and_eq_true,
        decide_eq_true_eq] at fits
      exact fits
    have leaves := psramWrite_leaves z (z.dacBase + have_) (data.take (total - have_))
    have same : (z.psramWrite (z.dacBase + have_) (data.take (total - have_))).Resumable := by
      refine resumable.kept leaves (fun fresh => ?_) (.inl rfl) (.inl ⟨rfl, fun reading => ?_⟩)
      · obtain before | ⟨inside, -⟩ := allowed
        · exact absurd (before.symm.trans fresh) Bool.false_ne_true
        · exact psramWrite_kept z _ inside
      · obtain before | ⟨-, still⟩ := allowed
        · rw [before]
          exact Bool.eq_false_iff.mpr fun fresh => Bool.false_ne_true (before.symm.trans (leaves.fresh fresh))
        · exact absurd (still.symm.trans reading) Bool.false_ne_true
    dsimp only
    split
    all_goals
      refine same.kept ⟨rfl, rfl, rfl, rfl, rfl, rfl, id⟩ (fun _ => ?_) (.inl rfl) (.inl ⟨rfl, fun _ => rfl⟩)
      exact ⟨⟨rfl, rfl, rfl, rfl, rfl, rfl, id⟩, fun _ _ _ _ => rfl⟩

theorem keep_intact {flight : Flight} (placed : z.Placed flight) : (z.keep flight).Intact := by
  have bytes {region : Region} (below : region.Below psramTotal) {samples : Nat} (len : region.len = 2 * samples) :
      sampleBytes samples = 2 * samples := by
    refine sampleBytes_of_lt ?_
    unfold Region.Below Region.top psramTotal at below
    omega
  have arm : (z.keep flight).lastArm = flight.arm := placed.arm.symm
  have adcLen : flight.arm.adc = ⟨z.adcBase, 2 * flight.adcSamples⟩ := congrArg Arm.adc placed.arm
  have laLen : flight.arm.la = ⟨z.laBase, 2 * flight.laSamples⟩ := congrArg Arm.la placed.arm
  constructor
  · exact placed.some
  · rw [arm]
    exact placed.adcInside
  · rw [arm]
    exact placed.laInside
  · rw [arm, adcLen, laLen]
    unfold keep PsramRegions.track
    dsimp only
    rw [bytes placed.adcInside (congrArg Region.len adcLen), bytes placed.laInside (congrArg Region.len laLen)]
  · intro _
    rw [arm]
    rfl
  · intro _
    rw [arm]
    rfl
  · show z.psramRead z.adcBase (2 * flight.adcSamples) = z.psramRead flight.arm.adc.base flight.arm.adc.len
    rw [adcLen]
  · show z.psramRead z.laBase (2 * flight.laSamples) = z.psramRead flight.arm.la.base flight.arm.la.len
    rw [laLen]
  · exact placed.low

theorem finish_resumable {done : Bool} (resumable : z.Resumable) : (z.finish done).Resumable := by
  have landed : { z with flight := none }.Resumable :=
    resumable.kept ⟨rfl, rfl, rfl, rfl, rfl, rfl, id⟩
      (fun _ => ⟨⟨rfl, rfl, rfl, rfl, rfl, rfl, id⟩, fun _ _ _ _ => rfl⟩) (.inr rfl) (.inl ⟨rfl, fun _ => rfl⟩)
  have other (t : Zones) (base : t.Resumable) : { t with readBack := some .other }.Resumable := by
    refine base.kept ⟨rfl, rfl, rfl, rfl, rfl, rfl, id⟩
      (fun _ => ⟨⟨rfl, rfl, rfl, rfl, rfl, rfl, id⟩, fun _ _ _ _ => rfl⟩) (.inl rfl) (.inr ?_)
    intro readBack reads
    obtain rfl := Option.some.inj reads
    exact trivial
  unfold finish
  split
  · exact resumable
  · rename_i flight flies
    have settled := resumable.flight flight flies
    unfold Settled at settled
    dsimp only
    split
    · exact landed
    · split
      · exact landed
      · exact other _ landed
      · refine other { z with flight := none, lastCap := { z.lastCap with valid := false } } ?_
        rename_i kind
        rw [kind] at settled
        have same : { z with flight := none, lastCap := { z.lastCap with valid := false } } =
            { z with flight := none } := by
          rw [← settled]
        rw [same]
        exact landed
      · rename_i kind
        rw [kind] at settled
        obtain ⟨-, placed⟩ := settled
        have moved : { z with flight := none }.Placed flight :=
          ⟨placed.some, placed.arm, placed.adcInside, placed.laInside, placed.low⟩
        refine ⟨resumable.laBase, resumable.old, fun _ => keep_intact moved, ?_, ?_⟩
        · intro f flies
          cases flies
        · intro readBack reads
          obtain rfl := Option.some.inj reads
          exact ⟨rfl, rfl, rfl, Nat.le_refl 0, Nat.zero_le _, rfl⟩

theorem fpgaCapturePsramRead16_eq (intact : z.Intact) {index count : Nat}
    (whole : index + count ≤ z.lastCap.adcSamples + z.lastCap.laSamples)
    (apart : index < z.lastCap.adcSamples → index + count ≤ z.lastCap.adcSamples) :
    z.fpgaCapturePsramRead16 index count z.lastCap.adcSamples = z.samplesOf index (index + count) := by
  have adcLength : z.recorded.adc.length = 2 * z.lastCap.adcSamples := by
    rw [← intact.adc]
    exact Ring.read_length ..
  unfold fpgaCapturePsramRead16 samplesOf
  rw [Nat.add_sub_cancel_left]
  dsimp only
  split
  · rename_i inAdc
    have inside := apart inAdc
    rw [List.drop_append_of_le_length (by omega), List.take_append_of_le_length (by rw [List.length_drop]; omega),
      ← intact.adc, Nat.mul_comm 2 index, Nat.mul_comm 2 count]
    exact Ring.read_part (by omega)
  · have skipped : 2 * index = z.recorded.adc.length + (index - z.lastCap.adcSamples) * 2 := by omega
    rw [skipped, List.drop_append, ← intact.la, Nat.mul_comm 2 count]
    simp only [Nat.add_sub_cancel_left, List.drop_eq_nil_of_le (Nat.le_add_right ..), List.nil_append]
    exact Ring.read_part (by omega)

theorem samplesOf_append (z : Zones) {first mid last : Nat} (front : first ≤ mid) (back : mid ≤ last) :
    z.samplesOf first mid ++ z.samplesOf mid last = z.samplesOf first last := by
  unfold samplesOf
  have sizes : 2 * (last - first) = 2 * (mid - first) + 2 * (last - mid) := by omega
  have skips : 2 * mid = 2 * first + 2 * (mid - first) := by omega
  rw [sizes, List.take_add, List.drop_drop, skips]

theorem chunkSize_fits {total sent : Nat} (adcSamples room : Nat) (within : sent ≤ total) :
    sent + chunkSize total adcSamples sent room ≤ total ∧
      (sent < adcSamples → sent + chunkSize total adcSamples sent room ≤ adcSamples) := by
  unfold chunkSize
  dsimp only
  split <;> omega

theorem bulkPump_resumable {room : Option Nat} (resumable : z.Resumable) : (z.bulkPump room).Resumable := by
  unfold bulkPump
  split
  · rename_i total adcSamples start sent streamed room reads
    obtain ⟨fresh, rfl, rfl, order, within, rfl⟩ := resumable.stream _ reads
    obtain ⟨inside, apart⟩ := chunkSize_fits z.lastCap.adcSamples room within
    have chunk := fpgaCapturePsramRead16_eq (resumable.intact fresh) inside apart
    refine resumable.kept ⟨rfl, rfl, rfl, rfl, rfl, rfl, id⟩
      (fun _ => ⟨⟨rfl, rfl, rfl, rfl, rfl, rfl, id⟩, fun _ _ _ _ => rfl⟩) (.inl rfl) (.inr ?_)
    intro readBack reads
    obtain rfl := Option.some.inj reads
    refine ⟨fresh, rfl, rfl, by omega, inside, ?_⟩
    rw [chunk]
    exact z.samplesOf_append order (by omega)
  · exact resumable
  · exact resumable
  · refine resumable.kept ⟨rfl, rfl, rfl, rfl, rfl, rfl, id⟩
      (fun _ => ⟨⟨rfl, rfl, rfl, rfl, rfl, rfl, id⟩, fun _ _ _ _ => rfl⟩) (.inl rfl) (.inr ?_)
    intro readBack reads
    cases reads

theorem handleCaptureRead_resumable {offset : Nat} {claimed : Bool} (resumable : z.Resumable) :
    (z.handleCaptureRead offset claimed).1.Resumable := by
  unfold handleCaptureRead
  dsimp only
  split
  · exact resumable
  · rename_i valid
    split
    · exact resumable
    · rename_i unstale
      split
      · exact resumable
      · rename_i inside
        split
        · exact resumable
        · split
          · exact resumable
          · refine resumable.kept ⟨rfl, rfl, rfl, rfl, rfl, rfl, id⟩
              (fun _ => ⟨⟨rfl, rfl, rfl, rfl, rfl, rfl, id⟩, fun _ _ _ _ => rfl⟩) (.inl rfl) (.inr ?_)
            intro readBack reads
            obtain rfl := Option.some.inj reads
            have fresh : z.fresh = true := by
              unfold Zones.fresh
              rw [Bool.of_not_eq_false valid, unstale]
              rfl
            refine ⟨fresh, rfl, rfl, Nat.le_refl offset, Nat.le_of_not_lt inside, ?_⟩
            unfold samplesOf
            rw [Nat.sub_self]
            rfl

theorem onGatewareReconfigured_resumable {version : Nat} (resumable : z.Resumable) (alone : z.flight = none)
    (idle : z.readBack = none) : (z.onGatewareReconfigured version).Resumable := by
  refine resumable_of_unfresh rfl (fun _ => rfl) ?_ ?_ idle
  · refine Bool.eq_false_iff.mpr fun fresh => ?_
    have unstale : (z.regions.dirtyAll (cstr "a gateware reload")).stale = none := fresh_unstale fresh
    have valid : z.lastCap.valid = true := fresh_valid (z := z.onGatewareReconfigured version) fresh
    unfold PsramRegions.dirtyAll at unstale
    split at unstale
    · cases unstale
    · rename_i clean
      have before : z.fresh = true := by
        unfold Zones.fresh
        rw [valid, unstale]
        rfl
      have intact := resumable.intact before
      refine clean ⟨?_, unstale⟩
      have some := intact.some
      obtain none | adc := intact.adc_tracked
      · obtain none' | la := intact.la_tracked
        · omega
        · exact List.ne_nil_of_mem la
      · exact List.ne_nil_of_mem adc
  · intro flight flies
    rw [Option.mem_def] at flies
    cases alone.symm.trans flies

theorem stored_resumable {flight : Flight} {region : Region} {offset : Nat} (byte : Byte)
    (resumable : z.Resumable) (flies : flight ∈ z.flight)
    (part : region = flight.arm.adc ∨ region = flight.arm.la) (small : offset < region.len) :
    { z with mem := Ring.put psramTotal z.mem (region.base + offset) byte }.Resumable := by
  refine resumable.kept ⟨rfl, rfl, rfl, rfl, rfl, rfl, id⟩ (fun fresh => ?_) (.inl rfl) (.inl ⟨rfl, fun _ => rfl⟩)
  have settled := resumable.flight flight flies
  have invalid (ended : z.lastCap.valid = false) : False := Bool.false_ne_true (ended.symm.trans (fresh_valid fresh))
  unfold Settled at settled
  split at settled
  · exact (invalid settled).elim
  · exact (invalid settled).elim
  · exact (invalid settled.1).elim
  · obtain ⟨adcInside, laInside, apart⟩ := settled fresh
    obtain rfl | rfl := part
    · exact stored_kept z byte adcInside small fun _ r member => (apart r member).1
    · exact stored_kept z byte laInside small fun _ r member => (apart r member).2

end Handlers

/-- Every event of such a run keeps the last capture resumable. -/
theorem handle_resumable {event : ZoneEvent} (resumable : z.Resumable) (resumes : event.resumes z = true) :
    (z.handle event).1.Resumable := by
  have steady (t : Zones) (leaves : t.Leaves z) (mem : t.mem = z.mem)
      (flight : t.flight = z.flight ∨ t.flight = none) (readBack : t.readBack = z.readBack ∨ t.readBack = none)
      (stale : t.regions.stale = z.regions.stale) : t.Resumable := by
    refine resumable.kept leaves (fun _ => ⟨leaves, fun _ _ _ _ => ?_⟩) flight ?_
    · unfold psramRead
      rw [mem]
    · obtain same | past := readBack
      · refine .inl ⟨same, fun _ => ?_⟩
        unfold Zones.fresh
        rw [leaves.lastCap, stale]
      · refine .inr ?_
        rw [past]
        intro readBack reads
        cases reads
  cases event with
  | capture samples claimed => exact handleCapture_resumable resumable
  | measure samples claimed => exact handleMeasure_resumable resumable
  | waited waited claimed => exact waitedCapture_resumable resumable resumes
  | captureDual request claimed bases arm => exact handleCaptureDual_resumable resumable resumes
  | laCapture samples divisor rateHz pre claimed writes => exact handleLaCapture_resumable resumable
  | replay samples claimed stopped => exact handleReplay_resumable resumable
  | dacStop => exact steady _ ⟨rfl, rfl, rfl, rfl, rfl, rfl, id⟩ rfl (.inl rfl) (.inl rfl) rfl
  | loadBin total claimed => exact handleLoadBin_resumable resumable
  | loadBytes data => exact loadBinReceive_resumable resumable resumes
  | loadAborted => exact steady _ ⟨rfl, rfl, rfl, rfl, rfl, rfl, id⟩ rfl (.inl rfl) (.inl rfl) rfl
  | stored adc offset byte =>
    unfold handle
    dsimp only
    split
    · exact resumable
    · rename_i flight flies
      have part : (if adc then flight.arm.adc else flight.arm.la) = flight.arm.adc ∨
          (if adc then flight.arm.adc else flight.arm.la) = flight.arm.la := by
        split
        · exact .inl rfl
        · exact .inr rfl
      generalize (if adc then flight.arm.adc else flight.arm.la) = region at part
      split
      · rename_i small
        exact stored_resumable byte resumable flies part small
      · exact resumable
  | finish done => exact finish_resumable resumable
  | captureRead offset claimed => exact handleCaptureRead_resumable resumable
  | bulkPump room => exact bulkPump_resumable resumable
  | closed => exact steady _ ⟨rfl, rfl, rfl, rfl, rfl, rfl, id⟩ rfl (.inr rfl) (.inr rfl) rfl
  | update starts claimed =>
    unfold handle
    dsimp only
    split <;> exact steady _ ⟨rfl, rfl, rfl, rfl, rfl, rfl, id⟩ rfl (.inl rfl) (.inl rfl) rfl
  | firmwareWrite addr data claimed =>
    unfold handle
    dsimp only
    split
    · rename_i allowed
      obtain ⟨alone, idle⟩ := quiet_idle allowed.1
      refine resumable.kept (psramWrite_leaves z addr data) (fun _ => psramWrite_kept z data allowed.2)
        (.inl rfl) (.inr ?_)
      intro readBack reads
      rw [Option.mem_def] at reads
      cases idle.symm.trans reads
    · exact resumable
  | reconfigured version claimed =>
    unfold handle
    dsimp only
    split
    · rename_i still
      obtain ⟨alone, idle⟩ := quiet_idle still
      exact onGatewareReconfigured_resumable resumable alone idle
    · exact resumable

theorem handleCaptureRead_fresh {offset : Nat} {claimed : Bool}
    (allowed : (z.handleCaptureRead offset claimed).2 = .later ∨ (z.handleCaptureRead offset claimed).2 = .ok) :
    z.fresh = true ∧ ((z.handleCaptureRead offset claimed).2 = .later →
      (z.handleCaptureRead offset claimed).1.readBack =
        some (.words (z.lastCap.adcSamples + z.lastCap.laSamples) z.lastCap.adcSamples offset offset [])) := by
  unfold handleCaptureRead at allowed ⊢
  dsimp only at allowed ⊢
  split at allowed
  · simp at allowed
  · rename_i valid
    rw [if_neg valid]
    split at allowed
    · simp at allowed
    · rename_i unstale
      constructor
      · unfold Zones.fresh
        rw [Bool.of_not_eq_false valid, unstale]
        rfl
      · intro later
        split at later
        · cases later
        · rename_i inside
          rw [if_neg inside]
          split at later
          · cases later
          · rename_i begun
            rw [if_neg begun]
            split at later
            · cases later
            · rename_i more
              rw [if_neg more]

end Zones

/-- In every run in which no refused `capture_dual` moves the ADC base from under a capture that could
be resumed and nothing writes past the end of the PSRAM, a `capture_read` that is let in finds the
samples at the addresses their capture wrote, starts at its offset, and streams just them. -/
theorem read_resumes (version : Nat) (events : List ZoneEvent)
    (along : placement.Along (fun z event => event.resumes z = true) { version } events) :
    let z := placement.run { version } events
    (∀ offset claimed,
      (z.handleCaptureRead offset claimed).2 = .later ∨ (z.handleCaptureRead offset claimed).2 = .ok →
        z.Intact ∧ ((z.handleCaptureRead offset claimed).2 = .later →
          (z.handleCaptureRead offset claimed).1.readBack =
            some (.words (z.lastCap.adcSamples + z.lastCap.laSamples) z.lastCap.adcSamples offset offset []))) ∧
      ∀ total adcSamples start sent streamed,
        z.readBack = some (.words total adcSamples start sent streamed) →
          z.Intact ∧ total = z.lastCap.adcSamples + z.lastCap.laSamples ∧ sent ≤ total ∧
            streamed = z.samplesOf start sent := by
  have start : ({ version } : Zones).Resumable := Zones.resumable_of_unfresh rfl (fun _ => rfl) rfl (by simp) rfl
  have resumable : (placement.run { version } events).Resumable := by
    refine along.invariant _ Zones.Resumable ?_ start
    intro z event resumable resumes
    exact Zones.handle_resumable resumable resumes
  constructor
  · intro offset claimed allowed
    obtain ⟨fresh, accepted⟩ := Zones.handleCaptureRead_fresh allowed
    exact ⟨resumable.intact fresh, accepted⟩
  · intro total adcSamples start sent streamed reads
    obtain ⟨fresh, whole, -, -, within, bytes⟩ := resumable.stream _ reads
    exact ⟨resumable.intact fresh, whole, within, bytes⟩

/-- A capture of both that is read back, and resumed behind a refused one. -/
def resumedCapture : List ZoneEvent :=
  [.captureDual { adcSamples := 4, laSamples := 3, adcHz := 1000000, laHz := 1000000 } true true true,
    .stored true 4 7, .finish true, .bulkPump (some 1), .closed,
    .captureDual { adcSamples := 4000000, laSamples := 3 } true true true, .captureRead 2 true,
    .bulkPump (some 100)]

theorem read_resumes_second :
    ∃ streamed, (placement.run {} resumedCapture).readBack = some (.words 7 4 2 4 streamed) ∧
      streamed = (placement.run {} resumedCapture).samplesOf 2 4 := by
  have along : placement.Along (fun z event => event.resumes z = true) {} resumedCapture := by decide
  refine ⟨[7, 0xca, 0x0d, 0xf0], by decide, ?_⟩
  exact ((read_resumes 50 resumedCapture along).2 7 4 2 4 _ (by decide)).2.2.2

/-- The same with a refused capture that is packed elsewhere. -/
def resumedBehindRefused : List ZoneEvent :=
  [.captureDual { adcSamples := 4, laSamples := 3, adcHz := 1000000, laHz := 1000000 } true true true,
    .stored true 0 7, .finish true, .bulkPump none,
    .captureDual { laSamples := 3000000, laHz := 1000000 } true true true, .captureRead 0 true,
    .bulkPump (some 1)]

/-- The refused capture has moved the ADC base. -/
theorem read_misled :
    ¬ ∀ (version : Nat) (events : List ZoneEvent) (total adcSamples start sent : Nat) (streamed : List Byte),
      (placement.run { version } events).readBack = some (.words total adcSamples start sent streamed) →
        streamed = (placement.run { version } events).samplesOf start sent := by
  intro claim
  have streamed := claim 50 resumedBehindRefused 7 4 0 1 [0, 0] (by decide)
  exact absurd streamed (by decide)

end BenchPod.Capture
