import BenchPod.LaPipe.Drained

/-!
# The bus of an emulated sensor

`sensor_la` takes a capture of all the logic analyzer's channels and keeps two of them, four samples to a
byte.  The two channels are those the sensor was configured with.
-/

namespace BenchPod.I2cLa

open LaPipe

def signalBufSize : Nat := 4096

def laWireIndex (channel : Nat) : Option Nat :=
  if channel < 1 ∨ 14 < channel then none else some (channel - 1)

/-- The arguments that `fpga_i2c_sensor_config` sends; none when it refuses. -/
def sensorConfig (addr7 : Byte) (sdaCh sclCh : Nat) (enable : Bool) (trigReg busyReg busyMask : Byte)
    (convUs : Half) : Option (List Byte) := do
  let sda ← laWireIndex sdaCh
  let scl ← laWireIndex sclCh
  if sda = scl then none
  else
    some [addr7 &&& 0x7F, BitVec.ofNat 8 sda, BitVec.ofNat 8 scl, if enable then 1 else 0, trigReg, busyReg,
      busyMask, convUs.setWidth 8, (convUs >>> 8).setWidth 8]

/-- What the firmware finds around a `sensor_la`. -/
structure Scene where
  /-- `sensor_sim_sda`; 0 without a sensor. -/
  sdaCh : Nat
  /-- `sensor_sim_scl`. -/
  sclCh : Nat
  /-- `fpga_la_capture_psram_start` takes the capture. -/
  armed : Bool
  /-- `fpga_la_capture_psram_wait` ends with a capture. -/
  captured : Bool
  /-- The levels of all channels at each sample. -/
  levels : Nat → BitVec 14
  /-- The read at an offset succeeds. -/
  readable : Nat → Bool

namespace Scene

variable (scene : Scene)

/-- The byte at an offset of the capture's region. -/
def region (offset : Nat) : Byte := (sampleBytes (scene.levels (offset / 2)))[offset % 2]?.getD 0

/-- `fpga_la_psram_read`. -/
def laPsramRead (offset n : Nat) : Option (List Byte) :=
  if scene.readable offset then some ((List.range n).map fun i => scene.region (offset + i)) else none

def sdaBit : Nat := scene.sdaCh - 1

def sclBit : Nat := scene.sclCh - 1

end Scene

/-- `out`, `acc` and `nib`. -/
structure Repack where
  out : List Byte
  acc : Byte
  nib : Nat
  deriving DecidableEq

/-- The body of the inner loop on the two bytes of a sample. -/
def Repack.take (sdaBit sclBit : Nat) (state : Repack) (low high : Byte) : Repack :=
  let w : Half := low.setWidth 16 ||| ((high &&& 0x0F).setWidth 16 <<< 8)
  let scl : Byte := ((w >>> sclBit) &&& 1).setWidth 8
  let sda : Byte := ((w >>> sdaBit) &&& 1).setWidth 8
  let acc := (state.acc <<< 2) ||| (scl <<< 1) ||| sda
  if state.nib + 1 = 4 then ⟨state.out ++ [acc], 0, 0⟩ else ⟨state.out, acc, state.nib + 1⟩

/-- The inner loop over the samples of a chunk. -/
def Repack.chunk (sdaBit sclBit : Nat) (state : Repack) : List Byte → Repack
  | low :: high :: rest => (state.take sdaBit sclBit low high).chunk sdaBit sclBit rest
  | _ => state

/-- The loop over the chunks, from sample `s` at offset `off` on, for at most so many turns. -/
def readBack (scene : Scene) (samples : Nat) : Nat → Nat → Nat → Repack → Option Repack
  | 0, _, _, state => some state
  | turns + 1, s, off, state =>
    if s < samples then
      let n := if 128 < samples - s then 128 else samples - s
      match scene.laPsramRead off (n * 2) with
      | none => none
      | some chunk => readBack scene samples turns (s + n) (off + n * 2) (state.chunk scene.sdaBit scene.sclBit chunk)
    else some state

/-- `fpga_i2c_la_capture`: the buffer it fills, or none when it fails. -/
def fpgaI2cLaCapture (scene : Scene) (bytes : Nat) : Option (List Byte) :=
  if bytes = 0 ∨ signalBufSize < bytes then none
  else if scene.sdaCh = 0 ∨ scene.sclCh = 0 then none
  else if scene.armed = false ∨ scene.captured = false then none
  else (readBack scene (bytes * 4) (bytes * 4) 0 0 ⟨[], 0, 0⟩).map Repack.out

/-! ## One sample -/

/-- A sample's level as far as the mask of the high byte lets it through. -/
def seen (sample : BitVec 14) (bit : Nat) : Bool := sample.getLsbD bit && decide (bit < 12)

/-- A level as the lowest bit of a byte. -/
def levelByte (level : Bool) : Byte := if level then 1 else 0

/-- A pair of levels goes into the accumulator. -/
def Repack.push (state : Repack) (scl sda : Bool) : Repack :=
  let acc := (state.acc <<< 2) ||| (levelByte scl <<< 1) ||| levelByte sda
  if state.nib + 1 = 4 then ⟨state.out ++ [acc], 0, 0⟩ else ⟨state.out, acc, state.nib + 1⟩

theorem bit_levelByte (word : Half) (bit : Nat) : ((word >>> bit) &&& 1).setWidth 8 = levelByte (word.getLsbD bit) := by
  apply BitVec.eq_of_getLsbD_eq
  intro i inside
  rw [BitVec.getLsbD_setWidth, BitVec.getLsbD_and, BitVec.getLsbD_ushiftRight]
  rcases i with _ | i
  · cases level : word.getLsbD bit <;> simp [levelByte]
  · have high : (1 : Half).getLsbD (i + 1) = false := by simp
    have none : (levelByte (word.getLsbD bit)).getLsbD (i + 1) = false := by cases word.getLsbD bit <;> simp [levelByte]
    rw [high, none, Bool.and_false, Bool.and_false]

theorem low_nibble (i : Nat) : (0x0F : Byte).getLsbD i = decide (i < 4) := by
  have all : ∀ i < 8, (0x0F : Byte).getLsbD i = decide (i < 4) := by decide
  rcases Nat.lt_or_ge i 8 with inside | outside
  · exact all i inside
  · rw [BitVec.getLsbD_of_ge _ _ outside, decide_eq_false (by omega)]

theorem masked_level (sample : BitVec 14) (bit : Nat) :
    ((sample.setWidth 8).setWidth 16 |||
      (((sample.setWidth 16 >>> 8).setWidth 8 &&& (0x0F : Byte)).setWidth 16 <<< 8) : Half).getLsbD bit =
        seen sample bit := by
  rw [seen, BitVec.getLsbD_or, BitVec.getLsbD_shiftLeft]
  simp only [BitVec.getLsbD_setWidth, BitVec.getLsbD_and, BitVec.getLsbD_ushiftRight]
  rcases Nat.lt_or_ge bit 8 with low | high
  · have inside : bit < 12 := by omega
    simp [low, inside, show bit < 16 by omega]
  · obtain ⟨more, rfl⟩ := Nat.exists_eq_add_of_le high
    have mask : (0x0F : Byte).getLsbD more = decide (more < 4) := low_nibble more
    rw [Nat.add_sub_cancel_left, mask]
    rcases Nat.lt_or_ge more 4 with few | many
    · have outside : ¬8 + more < 8 := by omega
      simp [few, outside, show more < 8 by omega, show more < 16 by omega, show 8 + more < 16 by omega,
        show 8 + more < 12 by omega]
    · have outside : ¬8 + more < 12 := by omega
      simp [outside, Nat.not_lt.mpr many]

theorem take_sample (sdaBit sclBit : Nat) (state : Repack) (sample : BitVec 14) :
    state.take sdaBit sclBit (sample.setWidth 8) ((sample.setWidth 16 >>> 8).setWidth 8) =
      state.push (seen sample sclBit) (seen sample sdaBit) := by
  rw [Repack.take]
  simp only [bit_levelByte, masked_level]
  rfl

/-! ## The whole capture -/

theorem chunk_samples (sdaBit sclBit : Nat) (samples : List (BitVec 14)) (state : Repack) :
    state.chunk sdaBit sclBit (samples.flatMap sampleBytes) =
      samples.foldl (fun state sample => state.push (seen sample sclBit) (seen sample sdaBit)) state := by
  induction samples generalizing state with
  | nil => rfl
  | cons sample samples ih =>
    rw [List.flatMap_cons, sampleBytes, List.cons_append, List.cons_append, List.nil_append, Repack.chunk,
      take_sample, ih, List.foldl_cons]

namespace Scene

variable (scene : Scene)

theorem region_bytes (s n : Nat) :
    ((List.range (n * 2)).map fun i => scene.region (2 * s + i)) =
      ((List.range n).map fun i => scene.levels (s + i)).flatMap sampleBytes := by
  induction n with
  | zero => rfl
  | succ n ih =>
    have low : scene.region (2 * s + n * 2) = (scene.levels (s + n)).setWidth 8 := by
      rw [region, show (2 * s + n * 2) / 2 = s + n by omega, show (2 * s + n * 2) % 2 = 0 by omega]
      rfl
    have high : scene.region (2 * s + (n * 2 + 1)) = ((scene.levels (s + n)).setWidth 16 >>> 8).setWidth 8 := by
      rw [region, show (2 * s + (n * 2 + 1)) / 2 = s + n by omega,
        show (2 * s + (n * 2 + 1)) % 2 = 1 by omega]
      rfl
    rw [show (n + 1) * 2 = n * 2 + 1 + 1 by omega, List.range_succ, List.range_succ, List.map_append,
      List.map_append, ih, List.range_succ, List.map_append, List.flatMap_append, List.append_assoc]
    simp [low, high, sampleBytes]

/-- The pairs of levels go into the accumulator one after the other. -/
def pushAll (samples : List Nat) (state : Repack) : Repack :=
  samples.foldl (fun state s =>
    state.push (seen (scene.levels s) scene.sclBit) (seen (scene.levels s) scene.sdaBit)) state

theorem pushAll_append (samples more : List Nat) (state : Repack) :
    scene.pushAll (samples ++ more) state = scene.pushAll more (scene.pushAll samples state) := by
  rw [pushAll, List.foldl_append]
  rfl

theorem pushAll_range (s n : Nat) (state : Repack) :
    ((List.range n).map fun i => scene.levels (s + i)).foldl
      (fun state sample => state.push (seen sample scene.sclBit) (seen sample scene.sdaBit)) state =
        scene.pushAll (List.range' s n) state := by
  rw [pushAll, List.range'_eq_map_range, List.foldl_map, List.foldl_map]

end Scene

theorem readBack_eq {scene : Scene} {samples turns s : Nat} {state last : Repack}
    (enough : samples ≤ turns + s) (done : readBack scene samples turns s (2 * s) state = some last) :
    last = scene.pushAll (List.range' s (samples - s)) state := by
  induction turns generalizing s state with
  | zero =>
    have none : samples - s = 0 := by omega
    rw [none]
    exact (Option.some.inj done).symm
  | succ turns ih =>
    rw [readBack] at done
    split at done
    · rename_i more
      dsimp only at done
      generalize count : (if 128 < samples - s then 128 else samples - s) = n at done
      have some : 0 < n ∧ n ≤ samples - s := by
        rw [← count]
        split <;> omega
      rw [Scene.laPsramRead] at done
      split at done
      · cases done
      · rename_i chunk read
        split at read
        · obtain rfl := (Option.some.inj read).symm
          rw [scene.region_bytes, chunk_samples, scene.pushAll_range, show 2 * s + n * 2 = 2 * (s + n) by omega] at done
          have later := ih (by omega) done
          have split : List.range' s (samples - s) = List.range' s n ++ List.range' (s + n) (samples - (s + n)) := by
            rw [show samples - s = n + (samples - (s + n)) by omega]
            exact List.range'_append_1.symm
          rw [later, split, scene.pushAll_append]
        · cases read
    · rename_i none
      rw [show samples - s = 0 by omega]
      exact (Option.some.inj done).symm

/-- Four pairs of levels as a byte, the oldest in the high bits. -/
def packed (scl sda : Nat → Bool) : Byte :=
  (List.range 4).foldl (fun acc i => (acc <<< 2) ||| (levelByte (scl i) <<< 1) ||| levelByte (sda i)) 0

theorem packed_bits (scl sda : Nat → Bool) {i : Nat} (inside : i < 4) :
    (packed scl sda).getLsbD (7 - 2 * i) = scl i ∧ (packed scl sda).getLsbD (6 - 2 * i) = sda i := by
  have all : ∀ a b c d e f g h : Bool,
      let byte : Byte := ((((((((0 <<< 2) ||| (levelByte a <<< 1) ||| levelByte b) <<< 2) |||
        (levelByte c <<< 1) ||| levelByte d) <<< 2) ||| (levelByte e <<< 1) ||| levelByte f) <<< 2) |||
        (levelByte g <<< 1) ||| levelByte h)
      (byte.getLsbD 7 = a ∧ byte.getLsbD 6 = b) ∧ (byte.getLsbD 5 = c ∧ byte.getLsbD 4 = d) ∧
        (byte.getLsbD 3 = e ∧ byte.getLsbD 2 = f) ∧ byte.getLsbD 1 = g ∧ byte.getLsbD 0 = h := by decide
  obtain ⟨first, second, third, fourth⟩ := all (scl 0) (sda 0) (scl 1) (sda 1) (scl 2) (sda 2) (scl 3) (sda 3)
  match i with
  | 0 => exact first
  | 1 => exact second
  | 2 => exact third
  | 3 => exact fourth

namespace Scene

variable (scene : Scene)

/-- The byte that is made of the four samples from `4 * j` on. -/
def packedByte (j : Nat) : Byte :=
  packed (fun i => seen (scene.levels (4 * j + i)) scene.sclBit)
    fun i => seen (scene.levels (4 * j + i)) scene.sdaBit

theorem pushAll_four (out : List Byte) (j : Nat) :
    scene.pushAll (List.range' (4 * j) 4) ⟨out, 0, 0⟩ = ⟨out ++ [scene.packedByte j], 0, 0⟩ := rfl

theorem pushAll_all (bytes : Nat) :
    scene.pushAll (List.range' 0 (bytes * 4)) ⟨[], 0, 0⟩ = ⟨(List.range bytes).map scene.packedByte, 0, 0⟩ := by
  induction bytes with
  | zero => rfl
  | succ bytes ih =>
    have split : List.range' 0 ((bytes + 1) * 4) = List.range' 0 (bytes * 4) ++ List.range' (4 * bytes) 4 := by
      rw [Nat.succ_mul, Nat.mul_comm 4 bytes]
      exact List.range'_append_1.symm.trans (by rw [Nat.zero_add])
    have four := scene.pushAll_four ((List.range bytes).map scene.packedByte) bytes
    rw [split, scene.pushAll_append, ih, four, List.range_succ, List.map_append]
    rfl

end Scene

theorem fpgaI2cLaCapture_eq {scene : Scene} {bytes : Nat} {buf : List Byte}
    (filled : fpgaI2cLaCapture scene bytes = some buf) : buf = (List.range bytes).map scene.packedByte := by
  rw [fpgaI2cLaCapture] at filled
  split at filled
  · cases filled
  · split at filled
    · cases filled
    · split at filled
      · cases filled
      · obtain ⟨last, done, rfl⟩ := Option.map_eq_some_iff.mp filled
        have pushed := @readBack_eq scene (bytes * 4) (bytes * 4) 0 ⟨[], 0, 0⟩ last (Nat.le_refl _) done
        rw [pushed, Nat.sub_zero, scene.pushAll_all]

/-! ## The buffer against the capture -/

/-- The level of a channel at a sample. -/
def Scene.level (scene : Scene) (channel s : Nat) : Bool := (scene.levels s).getLsbD (channel - 1)

/-- The buffer holds four samples to a byte, each as the level of the clock and of the data channel. -/
def Repacks (scene : Scene) (bytes : Nat) (buf : List Byte) : Prop :=
  buf.length = bytes ∧ ∀ j < bytes, ∃ byte, buf[j]? = some byte ∧ ∀ i < 4,
    byte.getLsbD (7 - 2 * i) = scene.level scene.sclCh (4 * j + i) ∧
      byte.getLsbD (6 - 2 * i) = scene.level scene.sdaCh (4 * j + i)

/-- No sample has a high level on LA13 or LA14 where one of them is in use. -/
def LowAbove (scene : Scene) (samples : Nat) : Prop :=
  ∀ s < samples, ∀ channel ∈ [scene.sclCh, scene.sdaCh], 12 < channel → scene.level channel s = false

theorem seen_eq_level {scene : Scene} {channel : Nat} (s : Nat) :
    seen (scene.levels s) (channel - 1) = scene.level channel s ↔ (12 < channel → scene.level channel s = false) := by
  rw [seen, Scene.level]
  by_cases low : channel - 1 < 12
  · have inside : ¬12 < channel := by omega
    simp [low, inside]
  · have above : 12 < channel := by omega
    rw [decide_eq_false low, Bool.and_false]
    exact ⟨fun same _ => same.symm, fun none => (none above).symm⟩

theorem laWireIndex_ne_zero {channel wire : Nat} (accepted : laWireIndex channel = some wire) : channel ≠ 0 := by
  rintro rfl
  cases accepted

/-- The buffer holds the capture's bus exactly when nothing on LA13 and LA14 was lost. -/
theorem repacks_iff {scene : Scene} {addr7 trigReg busyReg busyMask : Byte} {enable : Bool} {convUs : Half}
    {args : List Byte}
    (accepted : sensorConfig addr7 scene.sdaCh scene.sclCh enable trigReg busyReg busyMask convUs = some args)
    {bytes : Nat} {buf : List Byte} (filled : fpgaI2cLaCapture scene bytes = some buf) :
    Repacks scene bytes buf ↔ LowAbove scene (4 * bytes) := by
  obtain ⟨sda, sda_eq, later⟩ := Option.bind_eq_some_iff.mp accepted
  obtain ⟨scl, scl_eq, -⟩ := Option.bind_eq_some_iff.mp later
  have scl_some := laWireIndex_ne_zero scl_eq
  have sda_some := laWireIndex_ne_zero sda_eq
  obtain rfl := fpgaI2cLaCapture_eq filled
  have bits (j i : Nat) (inside : i < 4) :
      (scene.packedByte j).getLsbD (7 - 2 * i) = seen (scene.levels (4 * j + i)) (scene.sclCh - 1) ∧
        (scene.packedByte j).getLsbD (6 - 2 * i) = seen (scene.levels (4 * j + i)) (scene.sdaCh - 1) :=
    packed_bits _ _ inside
  have there (j : Nat) (inside : j < bytes) :
      ((List.range bytes).map scene.packedByte)[j]? = some (scene.packedByte j) := by
    rw [List.getElem?_map, List.getElem?_range inside, Option.map_some]
  constructor
  · rintro ⟨-, held⟩ s inside channel member
    have group : s / 4 < bytes := by omega
    obtain ⟨byte, here, right⟩ := held (s / 4) group
    obtain rfl : scene.packedByte (s / 4) = byte := Option.some.inj ((there _ group).symm.trans here)
    have place : 4 * (s / 4) + s % 4 = s := Nat.div_add_mod s 4
    obtain ⟨scl_bit, sda_bit⟩ := bits (s / 4) (s % 4) (Nat.mod_lt s (by decide))
    obtain ⟨scl_right, sda_right⟩ := right (s % 4) (Nat.mod_lt s (by decide))
    rw [place] at scl_bit sda_bit scl_right sda_right
    rcases List.mem_pair.mp member with rfl | rfl
    · exact (seen_eq_level s).mp (scl_bit.symm.trans scl_right)
    · exact (seen_eq_level s).mp (sda_bit.symm.trans sda_right)
  · intro low
    refine ⟨by rw [List.length_map, List.length_range], fun j inside => ⟨_, there j inside, fun i quarter => ?_⟩⟩
    obtain ⟨scl_bit, sda_bit⟩ := bits j i quarter
    have sample : 4 * j + i < 4 * bytes := by omega
    rw [scl_bit, sda_bit]
    constructor
    · exact (seen_eq_level _).mpr (low _ sample _ (List.mem_pair.mpr (.inl rfl)))
    · exact (seen_eq_level _).mpr (low _ sample _ (List.mem_pair.mpr (.inr rfl)))

/-- A sensor on the two highest channels, with the bus at rest. -/
def highest : Scene where
  sdaCh := 13
  sclCh := 14
  armed := true
  captured := true
  levels := fun _ => 0x3FFF
  readable := fun _ => true

theorem repacks_iff_highest : sensorConfig 0x76 13 14 true 0 0 0 0 = some [0x76, 12, 13, 1, 0, 0, 0, 0, 0] ∧
    fpgaI2cLaCapture highest 2 = some [0, 0] ∧ (Repacks highest 2 [0, 0] ↔ LowAbove highest 8) :=
  ⟨rfl, by decide, @repacks_iff highest 0x76 0 0 0 true 0 _ rfl 2 [0, 0] (by decide)⟩

/-- A bus at rest on the two highest channels is reported low. -/
theorem highest_reported_low : sensorConfig 0x76 highest.sdaCh highest.sclCh true 0 0 0 0 ≠ none ∧
    fpgaI2cLaCapture highest 2 = some [0, 0] ∧ ¬Repacks highest 2 [0, 0] := by
  refine ⟨nofun, by decide, ?_⟩
  rintro ⟨-, held⟩
  obtain ⟨byte, here, right⟩ := held 0 (by decide)
  obtain rfl : (0 : Byte) = byte := Option.some.inj here
  exact absurd (right 0 (by decide)).1 (by decide)

end BenchPod.I2cLa
