import BenchPod.Capture.Zones

/-!
# Zones that do not collide

A capture in flight writes inside the PSRAM, its two regions are apart, and neither reaches the
waveform that plays.  `capture_dual` leaves its ADC base behind, and the plain captures after it do
not look at it.
-/

namespace BenchPod.Capture

open Json

/-- The regions of a capture are inside the PSRAM, apart from each other and from the waveform. -/
structure Arm.Sound (arm : Arm) (playing : Option Region) : Prop where
  adc : arm.adc.Below psramTotal
  la : arm.la.Below psramTotal
  both : arm.adc.Apart arm.la
  wave : ∀ wave ∈ playing, arm.adc.Apart wave ∧ arm.la.Apart wave

namespace Zones

variable (z : Zones)

/-- Where the waveform that plays starts, or the end of the PSRAM. -/
def limit : Nat :=
  match z.playing with
  | none => psramTotal
  | some wave => min wave.base psramTotal

/-- Behind the ADC base that was left behind there is room for the samples, and below it for those of
the logic analyzer. -/
def room (adcSamples laSamples : Nat) : Bool :=
  decide ((adcSamples = 0 ∨ z.adcBase + 2 * adcSamples ≤ z.limit ∧ 2 * laSamples ≤ z.adcBase) ∧ 2 * laSamples ≤ z.limit)

/-- The waveform that plays is above the ceiling that captures are held to: no upload has staged a
shorter one since. -/
def covered : Bool := decide (z.ceiling psramTotal ≤ z.limit)

end Zones

/-- A capture that is let in finds room at the base an earlier one left behind, where it does not
choose its own. -/
def ZoneEvent.places (z : Zones) : ZoneEvent → Bool
  | .capture samples claimed | .waited (.adc samples) claimed => !z.heavyBegin claimed || z.room samples 0
  | .measure samples claimed => !z.heavyBegin claimed || { z with playing := none }.room samples 0
  | .waited (.both adcSamples laSamples) claimed => !z.heavyBegin claimed || z.room adcSamples laSamples
  | .waited (.la _) claimed | .laCapture _ _ _ _ claimed _ => !z.heavyBegin claimed || z.covered
  | .captureDual _ claimed basesWritten _ => !z.heavyBegin claimed || (z.covered && basesWritten)
  | .reconfigured version claimed => !z.quiet claimed || decide (22 ≤ version)
  | _ => true

namespace Zones

variable {z : Zones} {arm : Arm}

/-- What a capture leaves of the zones when it is armed or refused: the waveform, and the bases but
for the one that it may move. -/
structure Same (after z : Zones) : Prop where
  version : after.version = z.version
  laBase : after.laBase = z.laBase
  dacBase : after.dacBase = z.dacBase
  dacActive : after.dacActive = z.dacActive
  playing : after.playing = z.playing
  flight : after.flight = z.flight
  readBack : after.readBack = z.readBack

theorem Same.refl (z : Zones) : z.Same z := ⟨rfl, rfl, rfl, rfl, rfl, rfl, rfl⟩

theorem limit_le (z : Zones) : z.limit ≤ psramTotal := by
  unfold limit
  split
  · exact Nat.le_refl _
  · exact Nat.min_le_right ..

theorem below_limit {region : Region} (below : region.Below z.limit) :
    region.Below psramTotal ∧ ∀ wave ∈ z.playing, region.Apart wave := by
  refine ⟨below.mono z.limit_le, ?_⟩
  intro wave plays
  rw [Option.mem_def] at plays
  rw [limit, plays] at below
  exact (below.mono (Nat.min_le_left ..)).apart

theorem sound_of_below (adc : arm.adc.Below z.limit) (la : arm.la.Below z.limit)
    (both : arm.adc.Apart arm.la) : arm.Sound z.playing :=
  ⟨(below_limit adc).1, (below_limit la).1, both,
    fun wave plays => ⟨(below_limit adc).2 wave plays, (below_limit la).2 wave plays⟩⟩

theorem room_sound {adcSamples laSamples : Nat} (room : z.room adcSamples laSamples = true)
    (start : z.laBase = 0) : (z.armAt adcSamples laSamples).Sound z.playing := by
  obtain ⟨adc, la⟩ := of_decide_eq_true room
  refine sound_of_below ?_ ?_ ?_
  · unfold armAt Region.Below Region.top
    dsimp only
    omega
  · unfold armAt Region.Below Region.top
    dsimp only
    omega
  · unfold armAt Region.Apart Region.top
    dsimp only
    omega

theorem ceiling_le (z : Zones) (top : Nat) : z.ceiling top ≤ top := by
  unfold ceiling
  split
  · exact Nat.min_le_right ..
  · exact Nat.le_refl top

theorem laMaxSamples_false (z : Zones) : z.laMaxSamples false = z.ceiling psramTotal / 2 := rfl

theorem resident_le (covered : z.covered = true) : psramTotal - z.dacResidentBytes ≤ z.limit := by
  have ceiling : z.ceiling psramTotal ≤ z.limit := by simpa [Zones.covered] using covered
  refine Nat.le_trans ?_ ceiling
  unfold Zones.ceiling dacResidentBytes
  split <;> omega

section Starts

variable {samples adcSamples laSamples k : Nat} {after : Zones}

theorem sampleBytes_of_lt (few : 2 * samples < 4294967296) : sampleBytes samples = 2 * samples := by
  unfold sampleBytes
  omega

theorem sampleBytes_of_le (few : samples ≤ capMaxSamples) : sampleBytes samples = 2 * samples := by
  refine sampleBytes_of_lt ?_
  unfold capMaxSamples at few
  omega

theorem adcCapturePsramStart_spec (z : Zones) (samples : Nat) :
    (z.adcCapturePsramStart samples).1.Same z ∧ ∀ arm ∈ (z.adcCapturePsramStart samples).2, arm = z.armAt samples 0 := by
  unfold adcCapturePsramStart
  split
  · exact ⟨.refl z, by simp⟩
  · exact ⟨⟨rfl, rfl, rfl, rfl, rfl, rfl, rfl⟩, fun arm armed => (Option.some.inj armed).symm⟩

theorem fpgaDualCaptureStart_spec (z : Zones) (adcSamples laSamples : Nat) :
    (z.fpgaDualCaptureStart adcSamples laSamples).1.Same z ∧
      ∀ arm ∈ (z.fpgaDualCaptureStart adcSamples laSamples).2,
        arm = z.armAt adcSamples laSamples ∧ adcSamples ≤ capMaxSamples ∧ laSamples ≤ capMaxSamples := by
  unfold fpgaDualCaptureStart
  dsimp only
  split
  · exact ⟨.refl z, by simp⟩
  · split
    · exact ⟨.refl z, by simp⟩
    · rename_i fewer
      split
      all_goals
        refine ⟨⟨rfl, rfl, rfl, rfl, rfl, rfl, rfl⟩, ?_⟩
        intro arm armed
        exact ⟨(Option.some.inj armed).symm, by omega, by omega⟩

theorem armed_eq {written : Bool} {armed : Arm} (member : arm ∈ if written then some armed else none) : arm = armed := by
  split at member
  · exact (Option.some.inj member).symm
  · cases member

theorem fpgaDualChangeStart_spec (z : Zones) (adcSamples laSamples k : Nat) (armWritten : Bool) :
    (z.fpgaDualChangeStart adcSamples laSamples k armWritten).1.Same z ∧
      ∀ arm ∈ (z.fpgaDualChangeStart adcSamples laSamples k armWritten).2,
        arm = ⟨⟨z.adcBase, 2 * adcSamples⟩, ⟨z.laBase, z.adcBase - z.laBase⟩⟩ ∧ adcSamples ≤ capMaxSamples := by
  unfold fpgaDualChangeStart
  dsimp only
  split
  · exact ⟨.refl z, by simp⟩
  · split
    · exact ⟨.refl z, by simp⟩
    · rename_i fewer
      split
      · exact ⟨.refl z, by simp⟩
      · split
        all_goals
          refine ⟨⟨rfl, rfl, rfl, rfl, rfl, rfl, rfl⟩, ?_⟩
          intro arm armed
          exact ⟨armed_eq armed, by omega⟩

theorem fpgaLaCapturePsramStart_spec (z : Zones) (samples : Nat) :
    (z.fpgaLaCapturePsramStart samples).1.Same z ∧
      ∀ arm ∈ (z.fpgaLaCapturePsramStart samples).2, arm = z.armAt 0 samples ∧ samples ≤ z.laMaxSamples false := by
  unfold fpgaLaCapturePsramStart
  split
  · exact ⟨.refl z, by simp⟩
  · rename_i fits
    refine ⟨⟨rfl, rfl, rfl, rfl, rfl, rfl, rfl⟩, ?_⟩
    intro arm armed
    exact ⟨(Option.some.inj armed).symm, by omega⟩

theorem fpgaSetCaptureBases_spec {written : Bool} {laBase adcBase : Nat}
    (set : z.fpgaSetCaptureBases written laBase adcBase = some after) : after = { z with laBase, adcBase } := by
  unfold fpgaSetCaptureBases at set
  split at set
  · cases set
  · exact (Option.some.inj set).symm

theorem fpgaLaChangeStart_spec (z : Zones) (samples k : Nat) (pre : Bool) (writes : LaChangeWrites) :
    (z.fpgaLaChangeStart samples k pre writes).1.Same z ∧
      ∀ arm ∈ (z.fpgaLaChangeStart samples k pre writes).2,
        arm = ⟨⟨z.adcBase, 0⟩, ⟨z.laBase, z.laMaxSamples false * 2⟩⟩ := by
  unfold fpgaLaChangeStart
  dsimp only
  split
  · exact ⟨.refl z, by simp⟩
  · split
    · exact ⟨.refl z, by simp⟩
    · split
      · exact ⟨⟨rfl, rfl, rfl, rfl, rfl, rfl, rfl⟩, by simp⟩
      · rename_i moved set
        obtain rfl := fpgaSetCaptureBases_spec set
        split
        · exact ⟨⟨rfl, rfl, rfl, rfl, rfl, rfl, rfl⟩, by simp⟩
        · rename_i restored reset
          obtain rfl := fpgaSetCaptureBases_spec reset
          refine ⟨⟨rfl, rfl, rfl, rfl, rfl, rfl, rfl⟩, ?_⟩
          exact fun arm armed => armed_eq armed

theorem measurePsramStart_spec (z : Zones) (samples : Nat) :
    ((z.measurePsramStart samples).1.Same z ∨ (z.measurePsramStart samples).1.Same { z with playing := none }) ∧
      ∀ arm ∈ (z.measurePsramStart samples).2,
        arm = z.armAt samples 0 ∧ (z.measurePsramStart samples).1.Same { z with playing := none } := by
  unfold measurePsramStart
  split
  · exact ⟨.inl (.refl z), by simp⟩
  · have same : ({ z with playing := none }.fpgaCaptureCmd samples 0).1.Same { z with playing := none } :=
      ⟨rfl, rfl, rfl, rfl, rfl, rfl, rfl⟩
    exact ⟨.inr same, fun arm armed => ⟨(Option.some.inj armed).symm, same⟩⟩

end Starts

/-- What a run keeps: the capture in flight is sound, and the logic analyzer starts at 0. -/
structure Clear (z : Zones) : Prop where
  version : 22 ≤ z.version
  laBase : z.laBase = 0
  flight : ∀ flight ∈ z.flight, flight.arm.Sound z.playing

section Handlers

variable {after : Zones}

theorem Clear.of_eq (clear : z.Clear) (version : after.version = z.version) (laBase : after.laBase = z.laBase)
    (playing : after.playing = z.playing) (flight : after.flight = z.flight ∨ after.flight = none) :
    after.Clear := by
  refine ⟨version ▸ clear.version, laBase ▸ clear.laBase, ?_⟩
  intro f flies
  rw [playing]
  obtain same | past := flight
  · exact clear.flight f (same ▸ flies)
  · rw [past] at flies
    cases flies

theorem Clear.same (clear : z.Clear) (same : after.Same z) : after.Clear :=
  clear.of_eq same.version same.laBase same.playing (.inl same.flight)

theorem Clear.silent (clear : z.Clear) : { z with playing := none }.Clear := by
  refine ⟨clear.version, clear.laBase, ?_⟩
  intro flight flies
  have sound := clear.flight flight flies
  exact ⟨sound.adc, sound.la, sound.both, by simp⟩

theorem Clear.launch (clear : z.Clear) (same : after.Same z) {flight : Flight} {lastCap : LastCap}
    (sound : flight.arm.Sound z.playing) : { after with lastCap, flight := some flight }.Clear := by
  refine ⟨same.version ▸ clear.version, same.laBase ▸ clear.laBase, ?_⟩
  intro f flies
  obtain rfl := Option.some.inj flies
  rw [← same.playing] at sound
  exact sound

theorem la_sound {samples : Nat} (covered : z.covered = true) (start : z.laBase = 0)
    (fits : samples ≤ z.laMaxSamples false) : (z.armAt 0 samples).Sound z.playing := by
  have ceiling : z.ceiling psramTotal ≤ z.limit := of_decide_eq_true covered
  have below : 2 * samples ≤ z.limit := by
    rw [laMaxSamples_false] at fits
    omega
  exact room_sound (by simp [room, below]) start

theorem psramPlan_fits {request : DualRequest} {packed : Nat} (plan : z.psramPlan request = .ok packed) :
    packed = sampleBytes request.laSamples ∧
      packed + sampleBytes request.adcSamples + z.dacResidentBytes ≤ psramUsableBytes := by
  unfold psramPlan at plan
  dsimp only at plan
  split at plan
  · cases plan
  · generalize (if z.chgK request = 0 then request.laHz else 0) = laHz at plan
    generalize (if z.dacResidentBytes = 0 then 0 else 889000) = dacHz at plan
    split at plan
    · cases plan
    · cases plan
      exact ⟨rfl, by omega⟩

theorem dualZones_fits {request : DualRequest} {adcBase : Nat} (new : 22 ≤ z.version)
    (zones : z.dualZones request = .ok adcBase) (covered : z.covered = true) :
    adcBase + sampleBytes request.adcSamples ≤ z.limit ∧
      (z.chgK request = 0 → adcBase = sampleBytes request.laSamples) := by
  have room := resident_le covered
  unfold dualZones at zones
  rw [if_pos new] at zones
  split at zones
  · cases zones
  · rename_i packed plan
    obtain ⟨layout, fits⟩ := psramPlan_fits plan
    cases zones
    constructor
    · unfold changeTop psramUsableBytes psramTotal at *
      dsimp only
      split <;> omega
    · intro raw
      rw [if_pos raw, layout]

theorem dualStart_sound {request : DualRequest} {adcBase : Nat} (armWritten : Bool) (new : 22 ≤ z.version)
    (zones : z.dualZones request = .ok adcBase) (covered : z.covered = true) :
    (({ z with laBase := 0, adcBase }.dualStart request armWritten).1.Same { z with laBase := 0, adcBase }) ∧
      ∀ arm ∈ ({ z with laBase := 0, adcBase }.dualStart request armWritten).2, arm.Sound z.playing := by
  obtain ⟨below, packed⟩ := dualZones_fits new zones covered
  unfold dualStart
  split
  · rename_i raw
    obtain ⟨same, armed⟩ := fpgaDualCaptureStart_spec { z with laBase := 0, adcBase } request.adcSamples request.laSamples
    refine ⟨same, ?_⟩
    intro arm member
    obtain ⟨rfl, adcFew, laFew⟩ := armed arm member
    rw [packed raw, sampleBytes_of_le adcFew, sampleBytes_of_le laFew] at below
    refine room_sound (z := { z with laBase := 0, adcBase }) ?_ rfl
    have same : { z with laBase := 0, adcBase }.limit = z.limit := rfl
    have base : adcBase = 2 * request.laSamples := by rw [packed raw, sampleBytes_of_le laFew]
    exact decide_eq_true ⟨.inr ⟨by rw [same, base]; exact below, Nat.le_of_eq base.symm⟩, by omega⟩
  · obtain ⟨same, armed⟩ := fpgaDualChangeStart_spec { z with laBase := 0, adcBase } request.adcSamples
      request.laSamples ({ z with laBase := 0, adcBase }.chgK request) armWritten
    refine ⟨same, ?_⟩
    intro arm member
    obtain ⟨rfl, adcFew⟩ := armed arm member
    rw [sampleBytes_of_le adcFew] at below
    refine sound_of_below (.inr below) (.inr ?_) (.inr (.inr (.inr ?_)))
    all_goals
      show _ ≤ _
      simp only [Region.top]
      omega

theorem handleCapture_clear {samples : Nat} {claimed : Bool} (clear : z.Clear)
    (places : ZoneEvent.places z (.capture samples claimed) = true) :
    (z.handleCapture samples claimed).1.Clear := by
  unfold handleCapture
  split
  · exact clear
  · split
    · exact clear
    · rename_i _ begun
      have room : z.room samples 0 = true := by simpa [ZoneEvent.places, begun] using places
      obtain ⟨same, armed⟩ := adcCapturePsramStart_spec z samples
      split
      · rename_i after started
        rw [started] at same
        exact clear.same same
      · rename_i after arm started
        rw [started] at same armed
        obtain rfl := armed arm rfl
        exact clear.launch same (room_sound room clear.laBase)

theorem handleMeasure_clear {samples : Nat} {claimed : Bool} (clear : z.Clear)
    (places : ZoneEvent.places z (.measure samples claimed) = true) :
    (z.handleMeasure samples claimed).1.Clear := by
  unfold handleMeasure
  split
  · exact clear
  · split
    · exact clear
    · rename_i _ begun
      have room : { z with playing := none }.room samples 0 = true := by simpa [ZoneEvent.places, begun] using places
      obtain ⟨same, armed⟩ := measurePsramStart_spec z samples
      split
      · rename_i after started
        rw [started] at same
        obtain kept | silent := same
        · exact clear.same kept
        · exact clear.silent.same silent
      · rename_i after arm started
        rw [started] at armed
        obtain ⟨rfl, silent⟩ := armed arm rfl
        exact clear.silent.launch silent (room_sound room clear.laBase)

theorem waitedStart_sound {waited : Waited} {claimed : Bool} (clear : z.Clear)
    (begun : z.heavyBegin claimed = true) (places : ZoneEvent.places z (.waited waited claimed) = true) :
    (z.waitedStart waited).1.Same z ∧ ∀ arm ∈ (z.waitedStart waited).2, arm.Sound z.playing := by
  cases waited with
  | adc samples =>
    have room : z.room samples 0 = true := by simpa [ZoneEvent.places, begun] using places
    obtain ⟨same, armed⟩ := adcCapturePsramStart_spec z samples
    refine ⟨same, ?_⟩
    intro arm member
    rw [armed arm member]
    exact room_sound room clear.laBase
  | la samples =>
    have covered : z.covered = true := by simpa [ZoneEvent.places, begun] using places
    obtain ⟨same, armed⟩ := fpgaLaCapturePsramStart_spec z samples
    refine ⟨same, ?_⟩
    intro arm member
    obtain ⟨rfl, fits⟩ := armed arm member
    exact la_sound covered clear.laBase fits
  | both adcSamples laSamples =>
    have room : z.room adcSamples laSamples = true := by simpa [ZoneEvent.places, begun] using places
    obtain ⟨same, armed⟩ := fpgaDualCaptureStart_spec z adcSamples laSamples
    refine ⟨same, ?_⟩
    intro arm member
    rw [(armed arm member).1]
    exact room_sound room clear.laBase

theorem waitedCapture_clear {waited : Waited} {claimed : Bool} (clear : z.Clear)
    (places : ZoneEvent.places z (.waited waited claimed) = true) :
    (z.waitedCapture waited claimed).1.Clear := by
  unfold waitedCapture
  split
  · exact clear
  · rename_i begun
    obtain ⟨same, sound⟩ := waitedStart_sound clear (Bool.of_not_eq_false begun) places
    split
    · rename_i after started
      rw [started] at same
      exact clear.same same
    · rename_i after arm started
      rw [started] at same sound
      exact clear.launch same (sound arm rfl)

theorem handleCaptureDual_clear {request : DualRequest} {claimed basesWritten armWritten : Bool}
    (clear : z.Clear) (places : ZoneEvent.places z (.captureDual request claimed basesWritten armWritten) = true) :
    (z.handleCaptureDual request claimed basesWritten armWritten).1.Clear := by
  unfold handleCaptureDual
  split
  · exact clear
  · split
    · exact clear
    · rename_i adcBase zones
      split
      · exact clear
      · rename_i begun
        have fits : z.covered = true ∧ basesWritten = true := by simpa [ZoneEvent.places, begun] using places
        have moved : (z.fpgaSetCaptureBases basesWritten 0 adcBase).getD z = { z with laBase := 0, adcBase } := by
          simp [fpgaSetCaptureBases, fits.2]
        have based : { z with laBase := 0, adcBase }.Clear := clear.of_eq rfl clear.laBase.symm rfl (.inl rfl)
        obtain ⟨same, sound⟩ := dualStart_sound armWritten clear.version zones fits.1
        dsimp only
        rw [moved]
        split
        · rename_i after started
          rw [started] at same
          exact based.same same
        · rename_i after arm started
          rw [started] at same sound
          exact based.launch same (sound arm rfl)

theorem laStart_sound (samples k : Nat) (pre : Bool) (writes : LaChangeWrites) (start : z.laBase = 0)
    (covered : z.covered = true) :
    let started := if k = 0 then z.fpgaLaCapturePsramStart samples else z.fpgaLaChangeStart samples k pre writes
    started.1.Same z ∧ ∀ arm ∈ started.2, arm.Sound z.playing := by
  dsimp only
  split
  · obtain ⟨same, armed⟩ := fpgaLaCapturePsramStart_spec z samples
    refine ⟨same, ?_⟩
    intro arm member
    obtain ⟨rfl, fits⟩ := armed arm member
    exact la_sound covered start fits
  · obtain ⟨same, armed⟩ := fpgaLaChangeStart_spec z samples k pre writes
    refine ⟨same, ?_⟩
    intro arm member
    rw [armed arm member, Nat.mul_comm]
    have whole := la_sound covered start (Nat.le_refl (z.laMaxSamples false))
    exact whole

theorem handleLaCapture_clear {samples divisor rateHz : Nat} {pre claimed : Bool} {writes : LaChangeWrites}
    (clear : z.Clear)
    (places : ZoneEvent.places z (.laCapture samples divisor rateHz pre claimed writes) = true) :
    (z.handleLaCapture samples divisor rateHz pre claimed writes).1.Clear := by
  unfold handleLaCapture
  split
  · exact clear
  · split
    · exact clear
    · rename_i begun
      have covered : z.covered = true := by simpa [ZoneEvent.places, begun] using places
      dsimp only
      generalize (if z.version < 50 then 0 else divisor) = k
      obtain ⟨same, sound⟩ := laStart_sound samples k pre writes clear.laBase covered
      split
      · rename_i after started
        rw [started] at same
        exact clear.same same
      · rename_i after arm started
        rw [started] at same sound
        exact clear.launch same (sound arm rfl)

theorem begun_alone {claimed : Bool} (begun : z.heavyBegin claimed = true) : z.flight = none := by
  simp only [heavyBegin, Bool.and_eq_true, Option.isNone_iff_eq_none] at begun
  exact begun.1.1.2

theorem quiet_alone {claimed : Bool} (still : z.quiet claimed = true) : z.flight = none := by
  simp only [quiet, Bool.or_eq_true, Bool.and_eq_true, Option.isNone_iff_eq_none] at still
  obtain begun | alone := still
  · exact begun_alone begun
  · exact alone.1.2

theorem handleReplay_clear {samples : Nat} {claimed stopped : Bool} (clear : z.Clear) :
    (z.handleReplay samples claimed stopped).1.Clear := by
  unfold handleReplay
  split
  · exact clear
  · split
    · exact clear
    · split
      · exact clear
      · rename_i begun
        unfold dacReplayPsram
        split
        · exact clear
        · refine ⟨clear.version, clear.laBase, ?_⟩
          intro flight flies
          rw [Option.mem_def] at flies
          have alone := begun_alone (Bool.of_not_eq_false begun)
          cases alone.symm.trans flies

theorem handleLoadBin_clear {total : Nat} {claimed : Bool} (clear : z.Clear) :
    (z.handleLoadBin total claimed).1.Clear := by
  unfold handleLoadBin
  split
  · exact clear
  · split
    · exact clear
    · exact clear.of_eq rfl rfl rfl (.inl rfl)

theorem loadBinReceive_clear {data : List Byte} (clear : z.Clear) : (z.loadBinReceive data).Clear := by
  unfold loadBinReceive
  split
  · exact clear
  · dsimp only
    split <;> exact clear.of_eq rfl rfl rfl (.inl rfl)

theorem finish_clear {done : Bool} (clear : z.Clear) : (z.finish done).Clear := by
  unfold finish
  split
  · exact clear
  · dsimp only
    split
    · exact clear.of_eq rfl rfl rfl (.inr rfl)
    · split <;> exact clear.of_eq rfl rfl rfl (.inr rfl)

theorem handleCaptureRead_clear {offset : Nat} {claimed : Bool} (clear : z.Clear) :
    (z.handleCaptureRead offset claimed).1.Clear := by
  unfold handleCaptureRead
  dsimp only
  split
  · exact clear
  · split
    · exact clear
    · split
      · exact clear
      · split
        · exact clear
        · split
          · exact clear
          · exact clear.of_eq rfl rfl rfl (.inl rfl)

theorem bulkPump_clear {room : Option Nat} (clear : z.Clear) : (z.bulkPump room).Clear := by
  unfold bulkPump
  split
  · exact clear.of_eq rfl rfl rfl (.inl rfl)
  · exact clear
  · exact clear
  · exact clear.of_eq rfl rfl rfl (.inl rfl)

theorem onGatewareReconfigured_clear {version : Nat} (alone : z.flight = none) (new : 22 ≤ version) :
    (z.onGatewareReconfigured version).Clear := by
  refine ⟨new, rfl, ?_⟩
  intro flight flies
  rw [Option.mem_def] at flies
  cases alone.symm.trans flies

end Handlers

/-- Every event keeps the zones clear, when a capture that does not choose its base finds room. -/
theorem handle_clear {event : ZoneEvent} (clear : z.Clear) (places : event.places z = true) :
    (z.handle event).1.Clear := by
  cases event with
  | capture samples claimed => exact handleCapture_clear clear places
  | measure samples claimed => exact handleMeasure_clear clear places
  | waited waited claimed => exact waitedCapture_clear clear places
  | captureDual request claimed bases arm => exact handleCaptureDual_clear clear places
  | laCapture samples divisor rateHz pre claimed writes => exact handleLaCapture_clear clear places
  | replay samples claimed stopped => exact handleReplay_clear clear
  | dacStop => exact clear.silent.of_eq rfl rfl rfl (.inl rfl)
  | loadBin total claimed => exact handleLoadBin_clear clear
  | loadBytes data => exact loadBinReceive_clear clear
  | loadAborted => exact clear.of_eq rfl rfl rfl (.inl rfl)
  | stored adc offset byte =>
    unfold handle
    dsimp only
    split
    · exact clear
    · rename_i flight flies
      generalize (if adc then flight.arm.adc else flight.arm.la) = region
      split
      · exact clear.of_eq rfl rfl rfl (.inl rfl)
      · exact clear
  | finish done => exact finish_clear clear
  | captureRead offset claimed => exact handleCaptureRead_clear clear
  | bulkPump room => exact bulkPump_clear clear
  | closed => exact clear.of_eq rfl rfl rfl (.inr rfl)
  | update starts claimed =>
    unfold handle
    dsimp only
    split <;> exact clear.of_eq rfl rfl rfl (.inl rfl)
  | firmwareWrite addr data claimed =>
    unfold handle
    dsimp only
    split
    · exact clear.of_eq rfl rfl rfl (.inl rfl)
    · exact clear
  | reconfigured version claimed =>
    unfold handle
    dsimp only
    split
    · rename_i quiet
      have new : 22 ≤ version := by simpa [ZoneEvent.places, quiet] using places
      exact onGatewareReconfigured_clear (quiet_alone quiet) new
    · exact clear

end Zones

/-- In every run on a gateware with movable bases whose captures find room at the ADC base that was
left behind, the capture in flight writes inside the PSRAM, to regions that are apart from each other
and from the waveform that plays. -/
theorem zones_apart (version : Nat) (events : List ZoneEvent) (movable : 22 ≤ version)
    (along : placement.Along (fun z event => event.places z = true) { version } events) :
    ∀ flight ∈ (placement.run { version } events).flight,
      flight.arm.Sound (placement.run { version } events).playing := by
  have start : ({ version } : Zones).Clear := ⟨movable, rfl, by simp⟩
  have clear : (placement.run { version } events).Clear := by
    refine along.invariant _ Zones.Clear ?_ start
    intro z event clear places
    exact Zones.handle_clear clear places
  exact clear.flight

/-- A waveform plays at the end of the PSRAM, a raw capture of both is packed below it, and a plain
capture uses the base that it leaves. -/
def packedBelowWave : List ZoneEvent :=
  [.loadBin 4 true, .loadBytes [0, 128, 255, 127], .replay 2 true true,
    .captureDual { adcSamples := 1000, laSamples := 500, adcHz := 1000000, laHz := 1000000 } true true true,
    .finish true, .bulkPump none, .capture 256 true]

theorem zones_apart_packed :
    (placement.run {} packedBelowWave).flight.isSome = true ∧
      ∀ flight ∈ (placement.run {} packedBelowWave).flight,
        flight.arm.Sound (placement.run {} packedBelowWave).playing :=
  ⟨by decide, zones_apart 50 packedBelowWave (by decide) (by decide)⟩

/-- A change capture of the logic analyzer alone, and a plain capture behind it. -/
def captureBehindChange : List ZoneEvent :=
  [.captureDual { laSamples := 100, laHz := 48000000, divisor := 1 } true true true, .finish true,
    .bulkPump none, .capture 256 true]

/-- The change capture leaves the ADC base at the end of the PSRAM. -/
theorem zones_collide :
    ¬ ∀ (version : Nat) (events : List ZoneEvent), 22 ≤ version →
      ∀ flight ∈ (placement.run { version } events).flight,
        flight.arm.Sound (placement.run { version } events).playing := by
  intro claim
  have armed : (placement.run {} captureBehindChange).flight =
      some { kind := .pool, arm := ⟨⟨0x800000, 512⟩, ⟨0, 0⟩⟩ } := by decide
  have sound := claim 50 captureBehindChange (by decide) _ armed
  exact absurd sound.adc (by decide)

end BenchPod.Capture
