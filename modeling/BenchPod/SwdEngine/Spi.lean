import BenchPod.SwdEngine.Engine

/-!
# The SPI master

The firmware arms the engine in SPI mode, moves the chip select and queues the bytes of a transfer; a device on
the wire sees SCK, MOSI and its own MISO.
-/

namespace BenchPod.SwdEngine

open Bits

/-- `rev8`: the bits of a byte in the other order. -/
def rev8 (b : Byte) : Byte :=
  let b := (b &&& 0xF0) >>> 4 ||| (b &&& 0x0F) <<< 4
  let b := (b &&& 0xCC) >>> 2 ||| (b &&& 0x33) <<< 2
  (b &&& 0xAA) >>> 1 ||| (b &&& 0x55) <<< 1

theorem lsbFirst_rev8 (b : Byte) : lsbFirst (rev8 b) = msbFirst b := by
  revert b
  decide +kernel

theorem msbFirst_rev8 (b : Byte) : msbFirst (rev8 b) = lsbFirst b := by
  revert b
  decide +kernel

abbrev spiXferMax : Nat := 512

/-- The half period `fpga_spi_arm` sends: `SPI_HALF_MIN` to `SPI_HALF_MAX`. -/
def spiArmHalf (half : Nat) : Nat :=
  let half := if half < 2 then 2 else half
  if half > 63 then 63 else half

theorem two_le_spiArmHalf (half : Nat) : 2 ≤ spiArmHalf half := by
  simp only [spiArmHalf]
  split <;> split <;> omega

theorem spiArmHalf_le (half : Nat) : spiArmHalf half ≤ 63 := by
  simp only [spiArmHalf]
  split <;> split <;> omega

/-- An SCK pulse as the device has it: MOSI and MISO at the rising edge. -/
structure Pulse where
  mosi : Bool
  miso : Bool
  deriving DecidableEq

/-- The engine on its wires: each rising edge of SCK is a pulse. -/
def wire : Emitter Engine Input Pulse where
  step := Engine.tick
  emit e i := if !e.clkVal && (e.tick i).clkVal then some ⟨e.dioVal, i.dioIn⟩ else none

namespace Input

/-- The byte a feed brings with this edge. -/
def fed (i : Input) : Option Byte := if i.feedStb then some i.feedByte else none

/-- No command but a queued byte or the chip select. -/
structure Plain (i : Input) : Prop where
  arm : i.armStb = false
  spiArm : i.spiArmStb = false
  disarm : i.disarmStb = false
  config : i.qCfgStb = false
  begin : i.feedBegin = false

/-- `SPI_ARM` as `fpga_spi_arm` sends it. -/
structure SpiArm (half : Nat) (cpol : Bool) (i : Input) : Prop where
  spiArm : i.spiArmStb = true
  half : i.spiHalf = spiArmHalf half
  cpol : i.spiCpol = cpol
  arm : i.armStb = false
  disarm : i.disarmStb = false
  config : i.qCfgStb = false
  begin : i.feedBegin = false
  feed : i.feedStb = false

/-- The edge on which a feed starts. -/
structure Begin (i : Input) : Prop where
  begin : i.feedBegin = true
  arm : i.armStb = false
  spiArm : i.spiArmStb = false
  disarm : i.disarmStb = false
  config : i.qCfgStb = false
  feed : i.feedStb = false

instance (i : Input) : Decidable i.Plain :=
  decidable_of_iff (i.armStb = false ∧ i.spiArmStb = false ∧ i.disarmStb = false ∧ i.qCfgStb = false ∧
    i.feedBegin = false) ⟨fun ⟨a, b, c, d, f⟩ => ⟨a, b, c, d, f⟩, fun ⟨a, b, c, d, f⟩ => ⟨a, b, c, d, f⟩⟩

end Input

/-- While a byte is shifted the device keeps MISO for as long as SCK is high; `dio_s0` is MISO an edge before. -/
def Holds (e : Engine) (i : Input) : Prop := e.qst = .run → e.clkVal = true → i.dioIn = e.dioS0

/-- What the engine goes through once SPI is armed. -/
inductive Stage
  /-- The chip select may move, nothing is queued. -/
  | still (ticks : List Input)
  /-- `fpga_spi_xfer`: the edge the feed starts on, and those after it. -/
  | xfer (tx : List Byte) (feed : Input) (ticks : List Input)

/-- The `n` bytes `fpga_spi_xfer` reads back. -/
def rx (e : Engine) (n : Nat) : List Byte := (List.range n).map fun k => rev8 (e.rmem k)

/-- The pulses of a transfer of `tx` and what is stored after it. -/
structure Transferred (cpol : Bool) (tx : List Byte) (pulses : List Pulse) (e : Engine) : Prop where
  heard : pulses.map Pulse.mosi = tx.flatMap msbFirst
  answered : pulses.map Pulse.miso = (rx e tx.length).flatMap msbFirst
  level : e.clkVal = cpol

/-- The clocks of `tx.length` bytes and one more. -/
def ticksFor (half : Nat) (tx : List Byte) : Nat := (tx.length + 1) * (16 * spiArmHalf half + 2)

/-- Every stage does what it should: SCK rests while nothing is queued, and a transfer of any bytes the firmware
admits moves them exactly, keeps `spi_busy` until they are stored and ends. -/
def Exact (half : Nat) (cpol : Bool) : Engine → List Stage → Prop
  | _, [] => True
  | e, .still ticks :: rest =>
    (∀ i ∈ ticks, i.Plain ∧ i.fed = none) →
      (∀ front, front <+: ticks → (wire.run e front).clkVal = cpol) ∧ Exact half cpol (wire.run e ticks) rest
  | e, .xfer tx feed ticks :: rest =>
    1 ≤ tx.length → tx.length ≤ spiXferMax → feed.Begin → (∀ i ∈ ticks, i.Plain) →
      (ticks.filterMap Input.fed <+: tx.map rev8) → wire.Along Holds e (feed :: ticks) →
        -- whole bytes only between bytes
        ((wire.run e (feed :: ticks)).qst = .idle →
          ∃ k ≤ tx.length, Transferred cpol (tx.take k) (wire.emitted e (feed :: ticks)) (wire.run e (feed :: ticks))) ∧
        -- once all have arrived, busy until they are stored, and not for ever
        (ticks.filterMap Input.fed = tx.map rev8 →
          ((wire.run e (feed :: ticks)).spiBusy = false →
            Transferred cpol tx (wire.emitted e (feed :: ticks)) (wire.run e (feed :: ticks)) ∧
              Exact half cpol (wire.run e (feed :: ticks)) rest) ∧
          ∀ front back, ticks = front ++ back → front.filterMap Input.fed = tx.map rev8 →
            ticksFor half tx ≤ back.length → (wire.run e (feed :: ticks)).spiBusy = false)

end BenchPod.SwdEngine
