import BenchPod.Store.Clear

/-!
# The ADC calibration record

A calibration is kept as a pair in one A/B store: the version-2 record and, behind it, a version-1
copy for older firmware.  A save is therefore two saves, and the first of them overwrites the slot
that holds the only version-2 record.  The floating-point fits are parameters.
-/

namespace BenchPod.Calibration

open ConfigStore

/-- A version-2 calibration as it lies in memory. -/
@[ext]
structure AdcCal where
  /-- The 116 bytes of `adc_cal_t`. -/
  bytes : List Byte
  bytes_length : bytes.length = 116

namespace AdcCal

/-- Nonzero when the zero count holds a measured zero. -/
def zeroSet (cal : AdcCal) : Byte := cal.bytes.getD 0 0

/-- One bit for each DAC path with points. -/
def dacSet (cal : AdcCal) : Byte := cal.bytes.getD 1 0

/-- One bit for each ADC source with points. -/
def gainSet (cal : AdcCal) : Byte := cal.bytes.getD 2 0

/-- Nonzero when the low-range gain holds points. -/
def lowSet (cal : AdcCal) : Byte := cal.bytes.getD 3 0

/-- Mean count with the input open, in milli-counts. -/
def zeroCountMc (cal : AdcCal) : Word := Endian.rd32 ((cal.bytes.drop 4).take 4)

/-- HF/DC gain of the divider sweep, 0 when not measured. -/
def compHfDcE4 (cal : AdcCal) : Half := Endian.rd16 ((cal.bytes.drop 108).take 2)

/-- A calibration that holds only a zero. -/
def ofZero (count : Word) : AdcCal where
  bytes := [1, 0, 0, 0] ++ Endian.le32 count ++ List.replicate 108 0
  bytes_length := by simp

/-- Read a calibration from loaded bytes. -/
def ofBytes (bytes : List Byte) : Option AdcCal :=
  if length_eq : bytes.length = 116 then some ⟨bytes, length_eq⟩ else none

@[simp]
theorem ofBytes_bytes (cal : AdcCal) : ofBytes cal.bytes = some cal := by
  rw [ofBytes, dif_pos cal.bytes_length]

/-- `record_empty`: nothing is set in the record. -/
def recordEmpty (cal : AdcCal) : Prop :=
  cal.compHfDcE4 = 0 ∧ cal.zeroSet = 0 ∧ cal.dacSet = 0 ∧ cal.gainSet = 0 ∧ cal.lowSet = 0

instance (cal : AdcCal) : Decidable cal.recordEmpty := inferInstanceAs (Decidable (_ ∧ _))

end AdcCal

/-- A version-1 record: the offset alone. -/
structure AdcCalV1 where
  /-- Nonzero when the offset is set. -/
  currentInSet : Byte
  /-- The offset in microvolts. -/
  currentInOffsetUv : Word

namespace AdcCalV1

/-- The 32 bytes of `adc_cal_v1_t`, reserved bytes cleared. -/
def encode (v1 : AdcCalV1) : List Byte :=
  [v1.currentInSet, 0, 0, 0] ++ Endian.le32 v1.currentInOffsetUv ++ List.replicate 24 0

/-- The fields a load looks at. -/
def decode (bytes : List Byte) : AdcCalV1 where
  currentInSet := bytes.getD 0 0
  currentInOffsetUv := Endian.rd32 ((bytes.drop 4).take 4)

@[simp]
theorem encode_length (v1 : AdcCalV1) : v1.encode.length = 32 := by simp [encode]

@[simp]
theorem decode_encode (v1 : AdcCalV1) : decode v1.encode = v1 := by
  cases v1
  simp [decode, encode]

end AdcCalV1

/-- The floating-point parts of the calibration code. -/
structure Fits where
  /-- `derive` accepts the record. -/
  derives : AdcCal → Bool
  /-- The offset in microvolts that the running cal1 fit gives a zero count. -/
  offsetUv : Word → Word
  /-- The version-1 fit has a slope. -/
  hasSlope : Bool
  /-- The zero count that the version-1 fit reads as an offset. -/
  zeroCount : Word → Word

namespace Fits

/-- `v1_copy`: the version-1 copy of a record. -/
def v1Copy (fits : Fits) (cal : AdcCal) : AdcCalV1 :=
  if cal.zeroSet ≠ 0 then ⟨1, fits.offsetUv cal.zeroCountMc⟩ else ⟨0, 0⟩

/-- The calibration a version-1 record is converted to. -/
def ofV1 (fits : Fits) (v1 : AdcCalV1) : Option AdcCal :=
  if v1.currentInSet = 0 then none
  else if ¬fits.hasSlope then none
  else some (AdcCal.ofZero (fits.zeroCount v1.currentInOffsetUv))

end Fits

/-- The calibration store, with version-2 records. -/
def calStore : AbStore where
  slotOff i := if i = 0 then 0x1EA000 else 0x1E8000
  magic := 0x4C414341
  version := 2
  legacyOff := 0
  legacyMagic := 0
  maxLen := 0
  slots_aligned := by decide
  slots_distinct := by decide
  legacy_aligned := no_legacy_aligned
  legacy_distinct := by decide
  legacyMagic_written := no_legacy_written
  maxLen_fits := no_limit_fits

/-- The same slots with version-1 records. -/
def calStoreV1 : AbStore := { calStore with version := 1 }

theorem calStoreV1_view (flash : Flash) : calStoreV1.view flash = calStore.view flash := rfl

/-- `commit`: save the version-2 record and then its version-1 copy; an empty record clears. -/
def commit (fits : Fits) (cal : AdcCal) : Prog Flash AbStore.Command Int :=
  if cal.recordEmpty then do
    let rc ← calStore.clear
    return if rc ≠ 0 then -1 else 0
  else do
    let rc ← calStore.save cal.bytes
    if rc ≠ 0 then return -1
    else do
      let rc ← calStoreV1.save (fits.v1Copy cal).encode
      return if rc ≠ 0 then -1 else 0

/-- `pick_record`: the version-2 record if it is the newest or one save behind the newest version-1
copy, else the newest version-1 record converted. -/
def pickRecord (fits : Fits) (flash : Flash) : Option AdcCal :=
  let found2 := calStore.loadVersion flash 2 116
  let found1 := calStoreV1.loadVersion flash 1 32
  let older := match found1 with
    | none => none
    | some (bytes, behind) => if behind ≠ 0 then none else fits.ofV1 (AdcCalV1.decode bytes)
  match found2 with
  | none => older
  | some (bytes, behind) =>
    if behind = 0 ∨ (found1.any fun found => found.2 == 0) ∧ behind = 1 then AdcCal.ofBytes bytes
    else older

/-- A picked record that is empty or out of range is ignored as a whole. -/
def Fits.accept (fits : Fits) (cal : AdcCal) : Option AdcCal :=
  if cal.recordEmpty then none else if fits.derives cal then some cal else none

/-- `adc_cal_load`: the calibration in use after a load, if any. -/
def adcCalLoad (fits : Fits) (flash : Flash) : Option AdcCal := (pickRecord fits flash).bind fits.accept

end BenchPod.Calibration
