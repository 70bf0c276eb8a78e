import BenchPod.Library.Arc
import BenchPod.Library.Emitter
import BenchPod.Store.Record

/-!
# The ring of the run log

Records of 64 bytes in flash sectors.  A record goes to the write position; a program that fails spoils its
slot and the next one gets the record.  Before the write position meets a slot in use, the sector of that
slot is erased.  After a boot everything but the flash is found again by a scan.
-/

namespace BenchPod.EmiLog

open Endian ConfigStore

def emiLogRec : Nat := 64

def emiLogPerSector : Nat := 64

/-- `EMI_LOG_MAX_SLOTS / EMI_LOG_PER_SECTOR`. -/
def emiLogMaxSectors : Nat := 110

def emiLogMagic : Half := 0x4C45

def crc32Le (data : List Byte) : Word := ~~~(data.foldl crcByte 0xFFFFFFFF)

/-- `emi_rec_t`, with the payload as its type lays it out. -/
structure EmiRec where
  type : Byte
  led : Byte
  seq : Word
  run : Word
  uptimeMs : Word
  payload : Vector Byte 44
  /-- `EMI_REC_RUN_START` to `EMI_REC_CHECKPOINT`. -/
  known : 1 ≤ type ∧ type ≤ 3

/-- A slot of the flash. -/
abbrev Slot := List Byte

/-- An erased slot. -/
def erasedSlot : Slot := List.replicate emiLogRec 0xFF

/-- The bytes of a record before its CRC. -/
def EmiRec.body (r : EmiRec) : List Byte :=
  le16 emiLogMagic ++ ([r.type, r.led] ++ (le32 r.seq ++ (le32 r.run ++ (le32 r.uptimeMs ++ r.payload.toList))))

def emiLogEncode (r : EmiRec) : Slot := r.body ++ le32 (crc32Le r.body)

def emiLogBlank (slot : Slot) : Bool := slot == erasedSlot

def emiLogDecode (slot : Slot) : Option EmiRec :=
  if rd16 (slot.take 2) ≠ emiLogMagic then none
  else if rd32 (slot.drop 60) ≠ crc32Le (slot.take 60) then none
  else if known : 1 ≤ slot.getD 2 0 ∧ slot.getD 2 0 ≤ 3 then
    some
      { type := slot.getD 2 0
        led := slot.getD 3 0
        seq := rd32 ((slot.drop 4).take 4)
        run := rd32 ((slot.drop 8).take 4)
        uptimeMs := rd32 ((slot.drop 12).take 4)
        payload := Vector.ofFn fun i => slot.getD (16 + i) 0
        known }
  else none

theorem body_length (r : EmiRec) : r.body.length = 60 := by simp [EmiRec.body]

theorem emiLogDecode_encode (r : EmiRec) : emiLogDecode (emiLogEncode r) = some r := by
  have body_eq : (emiLogEncode r).take 60 = r.body := List.take_left' (body_length r)
  have crc_eq : (emiLogEncode r).drop 60 = le32 (crc32Le r.body) := List.drop_left' (body_length r)
  have magic_eq : (emiLogEncode r).take 2 = le16 emiLogMagic := by
    simp only [emiLogEncode, EmiRec.body, List.append_assoc]
    exact List.take_left' (le16_length _)
  have type_eq : (emiLogEncode r).getD 2 0 = r.type := by simp [emiLogEncode, EmiRec.body]
  have led_eq : (emiLogEncode r).getD 3 0 = r.led := by simp [emiLogEncode, EmiRec.body]
  have seq_eq : ((emiLogEncode r).drop 4).take 4 = le32 r.seq := by
    simp [emiLogEncode, EmiRec.body, List.drop_append, List.take_append]
  have run_eq : ((emiLogEncode r).drop 8).take 4 = le32 r.run := by
    simp [emiLogEncode, EmiRec.body, List.drop_append, List.take_append]
  have uptime_eq : ((emiLogEncode r).drop 12).take 4 = le32 r.uptimeMs := by
    simp [emiLogEncode, EmiRec.body, List.drop_append, List.drop_of_length_le]
  have payload_eq : (Vector.ofFn fun i : Fin 44 => (emiLogEncode r).getD (16 + i) 0) = r.payload := by
    apply Vector.ext
    intro i within
    have split : emiLogEncode r = (le16 emiLogMagic ++ ([r.type, r.led] ++ (le32 r.seq ++ (le32 r.run ++
        le32 r.uptimeMs)))) ++ (r.payload.toList ++ le32 (crc32Le r.body)) := by
      simp only [emiLogEncode, EmiRec.body, List.append_assoc]
    rw [Vector.getElem_ofFn, split, List.getD_eq_getElem?_getD, List.getElem?_append_right (by simp)]
    simp [List.getElem?_append, within]
  rw [emiLogDecode, magic_eq, rd16_le16, if_neg (not_not.mpr rfl), crc_eq, rd32_le32, body_eq, if_neg (not_not.mpr rfl)]
  simp only [type_eq, led_eq, seq_eq, run_eq, uptime_eq, payload_eq, rd32_le32, r.known]
  rfl

structure EmiLogT where
  slots : Nat
  /-- There is a good record. -/
  any : Bool := false
  newestSeq : Word := 0
  newestRun : Word := 0
  nextSeq : Word := 0
  run : Word := 0
  /-- The next slot to program. -/
  writeSlot : Nat := 0
  /-- Empty slots from the write position on. -/
  ready : Nat := 0
  valid : Nat := 0
  erases : Nat := 0
  writeErrors : Nat := 0
  blank : Nat → Bool := fun _ => false
  good : Nat → Bool := fun _ => false

namespace EmiLogT

variable (l : EmiLogT)

def countReady : EmiLogT :=
  { l with ready := ((List.range l.slots).takeWhile fun i => l.blank ((l.writeSlot + i) % l.slots)).length }

/-- `emi_log_oldest_slot`. -/
def oldestSlot : Nat := (l.writeSlot + l.ready) % l.slots

/-- `emi_log_slot_good`. -/
def slotGood (slot : Nat) : Bool := l.good (slot % l.slots)

end EmiLogT

/-- The part of the scan that looks at one slot; the second value is the newest slot. -/
def scanSlot (flash : Nat → Slot) (found : EmiLogT × Nat) (slot : Nat) : EmiLogT × Nat :=
  let l := found.1
  if emiLogBlank (flash slot) then ({ l with blank := Function.update l.blank slot true }, found.2)
  else
    match emiLogDecode (flash slot) with
    | none => found
    | some r =>
      let l := { l with good := Function.update l.good slot true, valid := l.valid + 1 }
      if l.any = false ∨ l.newestSeq < r.seq then
        ({ l with any := true, newestSeq := r.seq, newestRun := r.run }, slot)
      else (l, found.2)

/-- `emi_log_scan`; `none` is an error. -/
def emiLogScan (flash : Nat → Slot) (sectors : Nat) : Option EmiLogT :=
  let sectors := min sectors emiLogMaxSectors
  if sectors < 2 then none
  else
    let slots := sectors * emiLogPerSector
    let (l, newestSlot) := (List.range slots).foldl (scanSlot flash) ({ slots }, 0)
    some <| EmiLogT.countReady
      { l with
        writeSlot := if l.any then (newestSlot + 1) % l.slots else 0
        nextSeq := if l.any then l.newestSeq + 1 else 1
        run := if l.any then l.newestRun + 1 else 1 }

/-- The flash and the log in RAM. -/
structure Ring where
  flash : Nat → Slot
  l : EmiLogT

namespace Ring

variable (ring : Ring)

def eraseSector (sector : Nat) : Ring where
  flash slot := if slot / emiLogPerSector = sector then erasedSlot else ring.flash slot
  l :=
    { ring.l with
      erases := ring.l.erases + 1
      valid := ring.l.valid -
        (List.range emiLogPerSector).countP fun k => ring.l.good (sector * emiLogPerSector + k)
      good := fun slot => if slot / emiLogPerSector = sector then false else ring.l.good slot
      blank := fun slot => if slot / emiLogPerSector = sector then true else ring.l.blank slot }

/-- The sector of the first slot in use. -/
def stopSector : Nat := ring.l.oldestSlot / emiLogPerSector

/-- The slot in use is in the write position's own sector, after records of this sector. -/
def Skips : Prop := ring.stopSector = ring.l.writeSlot / emiLogPerSector ∧ ring.l.writeSlot % emiLogPerSector ≠ 0

instance : Decidable ring.Skips := inferInstanceAs (Decidable (_ ∧ _))

/-- Continue at the start of the next sector. -/
def skip : Ring :=
  { ring with
    l := EmiLogT.countReady
      { ring.l with
        writeSlot := (ring.l.writeSlot / emiLogPerSector + 1) * emiLogPerSector % ring.l.slots } }

/-- Erase the sector of the first slot in use. -/
def eraseStop : Ring :=
  let erased := ring.eraseSector ring.stopSector
  { erased with l := erased.l.countReady }

/-- The loop of `emi_log_prepare`, with the sectors it erases. -/
def prepareLoop (minReady : Nat) : Nat → Ring → Ring × List Nat
  | 0, ring => (ring, [])
  | guard + 1, ring =>
    if minReady ≤ ring.l.ready then (ring, [])
    else if ring.Skips then prepareLoop minReady guard ring.skip
    else
      let (after, sectors) := prepareLoop minReady guard ring.eraseStop
      (after, ring.stopSector :: sectors)

/-- What `emi_log_prepare` makes of the number of slots it is asked for. -/
def wanted (minReady : Nat) : Nat := min minReady (ring.l.slots - emiLogPerSector)

/-- `emi_log_prepare`, with the sectors it erases. -/
def emiLogPrepare (minReady : Nat) : Ring × List Nat :=
  prepareLoop (ring.wanted minReady) (ring.l.slots / emiLogPerSector + 2) ring

/-- What becomes of a program: the slot reads back as programmed, or the program or its read-back fails and
something is left in the slot. -/
inductive Attempt
  | stored
  | failed (content : Slot)

/-- One try of `emi_log_append`. -/
def appendTry (r : EmiRec) : Attempt → Ring × Bool
  | .stored =>
    let r := { r with seq := ring.l.nextSeq, run := ring.l.run }
    let slot := ring.l.writeSlot
    ({ flash := Function.update ring.flash slot (emiLogEncode r)
       l :=
        { ring.l with
          blank := Function.update ring.l.blank slot false
          writeSlot := (slot + 1) % ring.l.slots
          ready := ring.l.ready - 1
          good := Function.update ring.l.good slot true
          valid := ring.l.valid + 1
          nextSeq := ring.l.nextSeq + 1
          any := true
          newestSeq := r.seq
          newestRun := r.run } }, true)
  | .failed content =>
    let slot := ring.l.writeSlot
    ({ flash := Function.update ring.flash slot content
       l :=
        { ring.l with
          blank := Function.update ring.l.blank slot false
          writeSlot := (slot + 1) % ring.l.slots
          ready := ring.l.ready - 1
          writeErrors := ring.l.writeErrors + 1 } }, false)

/-- `emi_log_append`: two tries, each with what becomes of its program. -/
def emiLogAppend (r : EmiRec) (first second : Attempt) : Ring × Int :=
  if ring.l.ready = 0 then (ring, -1)
  else
    let (ring, stored) := ring.appendTry r first
    if stored then (ring, 0)
    else if ring.l.ready = 0 then (ring, -1)
    else
      let (ring, stored) := ring.appendTry r second
      (ring, if stored then 0 else -2)

end Ring

/-- What happens to the log. -/
inductive Event
  | append (r : EmiRec) (first second : Ring.Attempt)
  | prepare (minReady : Nat)
  | rescan

/-- One event; a rescan of a ring that was scanned finds as many sectors. -/
def Ring.step (ring : Ring) : Event → Ring
  | .append r first second => (ring.emiLogAppend r first second).1
  | .prepare minReady => (ring.emiLogPrepare minReady).1
  | .rescan => { ring with l := (emiLogScan ring.flash (ring.l.slots / emiLogPerSector)).getD ring.l }

/-- The log over its events; a preparation tells the sectors it erased. -/
def emiRing : Emitter Ring Event (List Nat) where
  step := Ring.step
  emit ring
    | .prepare minReady => some (ring.emiLogPrepare minReady).2
    | _ => none

end BenchPod.EmiLog
