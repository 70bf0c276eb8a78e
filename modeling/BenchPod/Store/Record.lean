import BenchPod.Library.CrashProgram
import BenchPod.Library.Flash

/-!
# Records of the A/B store

A slot holds one record: a header quad-word and a payload padded to quad-words.  The CRC covers the
sequence number, the version and length word and the payload.  Everything the store decides depends
on which of its two slots hold a complete record, which is the store's `View` of the flash.
-/

namespace BenchPod.ConfigStore

open Endian

/-- One bit of the reflected CRC-32. -/
def crcBit (crc : Word) : Word := (crc >>> 1) ^^^ (0xEDB88320 &&& (0 - (crc &&& 1)))

/-- One byte of the reflected CRC-32. -/
def crcByte (crc : Word) (byte : Byte) : Word := crcBit^[8] (crc ^^^ byte.setWidth 32)

/-- The chainable CRC-32 of a byte string. -/
def abCrc32 (crc : Word) (data : List Byte) : Word := ~~~(data.foldl crcByte (~~~crc))

@[simp]
theorem abCrc32_nil (crc : Word) : abCrc32 crc [] = crc := by simp [abCrc32]

theorem abCrc32_append (crc : Word) (front back : List Byte) :
    abCrc32 crc (front ++ back) = abCrc32 (abCrc32 crc front) back := by
  simp [abCrc32, List.foldl_append]

/-- The header quad-word. -/
structure AbHdr where
  /-- Store the record belongs to. -/
  magic : Word
  /-- Serial number of the save. -/
  seq : Word
  /-- Version in the upper half, payload length in the lower half. -/
  verLen : Word
  /-- Checksum of `seq`, `verLen` and the payload. -/
  crc : Word
  deriving DecidableEq

namespace AbHdr

/-- Bytes of a header. -/
def size : Nat := 16

/-- The header as it lies in flash. -/
def encode (hdr : AbHdr) : List Byte := le32 hdr.magic ++ le32 hdr.seq ++ le32 hdr.verLen ++ le32 hdr.crc

/-- The header read from sixteen bytes of flash. -/
def decode (bytes : List Byte) : AbHdr where
  magic := rd32 (bytes.take 4)
  seq := rd32 ((bytes.drop 4).take 4)
  verLen := rd32 ((bytes.drop 8).take 4)
  crc := rd32 ((bytes.drop 12).take 4)

/-- Payload length. -/
def len (hdr : AbHdr) : Nat := (hdr.verLen &&& 0xFFFF).toNat

/-- Payload schema version. -/
def ver (hdr : AbHdr) : Word := hdr.verLen >>> 16

@[simp]
theorem encode_length (hdr : AbHdr) : hdr.encode.length = size := by simp [encode, size]

@[simp]
theorem decode_encode (hdr : AbHdr) : decode hdr.encode = hdr := by
  cases hdr
  simp [decode, encode, List.drop_append, List.take_of_length_le, List.drop_of_length_le]

/-- The version and length word of a record that fits a sector. -/
def packVerLen (version : Half) (len : Nat) : Word := (version.setWidth 32 <<< 16) ||| BitVec.ofNat 32 len

theorem packVerLen_toNat {version : Half} {len : Nat} (short : len < 0x10000) :
    (packVerLen version len).toNat = version.toNat * 0x10000 + len := by
  have version_lt := version.isLt
  have shifted : (version.setWidth 32 <<< 16).toNat = version.toNat <<< 16 := by
    simp only [BitVec.toNat_shiftLeft, BitVec.toNat_setWidth, Nat.shiftLeft_eq]
    omega
  rw [packVerLen, BitVec.toNat_or, shifted, BitVec.toNat_ofNat, Nat.mod_eq_of_lt (by omega),
    ← Nat.shiftLeft_add_eq_or_of_lt (by omega), Nat.shiftLeft_eq]

theorem packVerLen_len {version : Half} {len : Nat} (short : len < 0x10000) :
    (packVerLen version len &&& 0xFFFF).toNat = len := by
  rw [BitVec.toNat_and, packVerLen_toNat short]
  change (version.toNat * 0x10000 + len) &&& (2 ^ 16 - 1) = len
  rw [Nat.and_two_pow_sub_one_eq_mod]
  omega

theorem packVerLen_ver {version : Half} {len : Nat} (short : len < 0x10000) :
    packVerLen version len >>> 16 = version.setWidth 32 := by
  have version_lt := version.isLt
  apply BitVec.eq_of_toNat_eq
  rw [BitVec.toNat_ushiftRight, packVerLen_toNat short, BitVec.toNat_setWidth, Nat.shiftRight_eq_div_pow]
  omega

end AbHdr
/-- Largest payload of a store that sets no limit of its own. -/
def maxPayload : Nat := 240

/-- Bytes of the read buffer. -/
def chunk : Nat := 32

/-- Bytes of the program buffer. -/
def pageSize : Nat := 256

/-- The two slots are numbered. -/
scoped instance numberedSlots : NeZero 2 := ⟨by decide⟩

theorem no_legacy_aligned : Flash.sectorSize ∣ 0 := Nat.dvd_zero _

theorem no_legacy_written : (0 : Nat) ≠ 0 → (0 : Word) ≠ 0xFFFFFFFF := by decide

theorem no_limit_fits : 0 + AbHdr.size ≤ Flash.sectorSize := by decide

/-- One A/B store: its two slots and the single-sector layout that came before them. -/
structure AbStore where
  /-- Flash offsets of the two slots. -/
  slotOff : Fin 2 → Nat
  /-- Magic word of the store's records. -/
  magic : Word
  /-- Payload schema version. -/
  version : Half
  /-- Old single-sector layout, 0 for none. -/
  legacyOff : Nat
  /-- First word of a valid legacy record. -/
  legacyMagic : Word
  /-- Largest payload, 0 for `maxPayload`. -/
  maxLen : Nat
  slots_aligned : ∀ i, Flash.sectorSize ∣ slotOff i
  slots_distinct : slotOff 0 ≠ slotOff 1
  legacy_aligned : Flash.sectorSize ∣ legacyOff
  legacy_distinct : legacyOff ≠ 0 → ∀ i, slotOff i ≠ legacyOff
  /-- An erased sector is no legacy record. -/
  legacyMagic_written : legacyOff ≠ 0 → legacyMagic ≠ 0xFFFFFFFF
  /-- A record fits its sector. -/
  maxLen_fits : maxLen + AbHdr.size ≤ Flash.sectorSize

namespace AbStore

/-- The largest payload the store admits. -/
def storeMax (store : AbStore) : Nat := if store.maxLen = 0 then maxPayload else store.maxLen

theorem storeMax_fits (store : AbStore) : store.storeMax + AbHdr.size ≤ Flash.sectorSize := by
  have fits := store.maxLen_fits
  simp only [storeMax, maxPayload, AbHdr.size, Flash.sectorSize] at *
  split <;> omega

/-- Read a slot: its header and the first `cap` bytes of its payload, if the record is complete. -/
def slotRead (store : AbStore) (flash : Flash) (i : Fin 2) (cap : Nat) :
    Option (AbHdr × List Byte) := do
  let off := store.slotOff i
  let hdr := AbHdr.decode (← flash.readChecked off AbHdr.size)
  if hdr.magic ≠ store.magic then none
  else if store.storeMax < hdr.len then none
  else
    let crc := abCrc32 (abCrc32 0 (le32 hdr.seq)) (le32 hdr.verLen)
    let (crc, out) ← (strides hdr.len chunk).foldlM (fun (crc, out) pos => do
      let count := min (hdr.len - pos) chunk
      let buf ← flash.readChecked (off + AbHdr.size + pos) count
      return (abCrc32 crc buf, out ++ buf.take (cap - pos))) (crc, [])
    if crc ≠ hdr.crc then none else return (hdr, out)

/-- The complete record in a slot. -/
def recordAt (store : AbStore) (flash : Flash) (i : Fin 2) : Option (AbHdr × List Byte) :=
  store.slotRead flash i store.storeMax

theorem payload_foldlM (flash : Flash) (off len cap : Nat) (start : Word) :
    (strides len chunk).foldlM (fun (acc : Word × List Byte) pos => do
        let count := min (len - pos) chunk
        let buf ← flash.readChecked (off + pos) count
        return (abCrc32 acc.1 buf, acc.2 ++ buf.take (cap - pos))) (start, []) =
      (flash.readChecked off len).map fun payload => (abCrc32 start payload, payload.take cap) := by
  refine foldlM_strides _ _ (by decide) _ _ (fun pos =>
    (flash.readChecked off pos).map fun payload => (abCrc32 start payload, payload.take cap))
    (by simp) ?_
  intro pos below _
  have split : min len (pos + chunk) = pos + min (len - pos) chunk := by omega
  simp only [split, Flash.readChecked_add]
  cases front_eq : flash.readChecked off pos with
  | none => rfl
  | some front =>
    have front_length := Flash.readChecked_length front_eq
    cases flash.readChecked (off + pos) (min (len - pos) chunk) with
    | none => rfl
    | some back => simp [abCrc32_append, List.take_append, front_length]

theorem slotRead_eq (store : AbStore) (flash : Flash) (i : Fin 2) (cap : Nat) :
    store.slotRead flash i cap = do
      let hdr := AbHdr.decode (← flash.readChecked (store.slotOff i) AbHdr.size)
      if hdr.magic ≠ store.magic then none
      else if store.storeMax < hdr.len then none
      else
        let payload ← flash.readChecked (store.slotOff i + AbHdr.size) hdr.len
        if abCrc32 (abCrc32 (abCrc32 0 (le32 hdr.seq)) (le32 hdr.verLen)) payload ≠ hdr.crc then none
        else return (hdr, payload.take cap) := by
  simp only [slotRead]
  cases flash.readChecked (store.slotOff i) AbHdr.size with
  | none => rfl
  | some bytes =>
    simp only [Option.bind_eq_bind, Option.bind_some]
    split
    · rfl
    · split
      · rfl
      · have folded := payload_foldlM flash (store.slotOff i + AbHdr.size) (AbHdr.decode bytes).len
          cap (abCrc32 (abCrc32 0 (le32 (AbHdr.decode bytes).seq)) (le32 (AbHdr.decode bytes).verLen))
        simp only [Option.bind_eq_bind] at folded
        rw [folded]
        cases flash.readChecked (store.slotOff i + AbHdr.size) (AbHdr.decode bytes).len <;> rfl

theorem recordAt_eq_some {store : AbStore} {flash : Flash} {i : Fin 2} {hdr : AbHdr}
    {payload : List Byte} :
    store.recordAt flash i = some (hdr, payload) ↔
      ∃ bytes, flash.readChecked (store.slotOff i) AbHdr.size = some bytes ∧
        AbHdr.decode bytes = hdr ∧ hdr.magic = store.magic ∧ hdr.len ≤ store.storeMax ∧
        flash.readChecked (store.slotOff i + AbHdr.size) hdr.len = some payload ∧
        abCrc32 (abCrc32 (abCrc32 0 (le32 hdr.seq)) (le32 hdr.verLen)) payload = hdr.crc := by
  rw [recordAt, slotRead_eq]
  constructor
  · intro read_eq
    obtain ⟨bytes, bytes_eq, rest⟩ := Option.bind_eq_some_iff.mp read_eq
    dsimp only at rest
    split at rest
    · cases rest
    · split at rest
      · cases rest
      · rename_i magic_eq short
        obtain ⟨full, full_eq, checked⟩ := Option.bind_eq_some_iff.mp rest
        split at checked
        · cases checked
        · rename_i crc_eq
          simp only [pure, Option.some.injEq, Prod.mk.injEq] at checked
          obtain ⟨rfl, rfl⟩ := checked
          have full_length := Flash.readChecked_length full_eq
          rw [List.take_of_length_le (by omega)]
          exact ⟨bytes, bytes_eq, rfl, not_not.mp magic_eq, by omega, full_eq, not_not.mp crc_eq⟩
  · rintro ⟨bytes, bytes_eq, rfl, magic_eq, short, full_eq, crc_eq⟩
    have full_length := Flash.readChecked_length full_eq
    simp only [bytes_eq, Option.bind_eq_bind, Option.bind_some, magic_eq, ne_eq, not_true_eq_false,
      if_false, Nat.not_lt.mpr short, full_eq, crc_eq]
    rw [List.take_of_length_le (by omega)]
    rfl

theorem recordAt_length {store : AbStore} {flash : Flash} {i : Fin 2} {hdr : AbHdr}
    {payload : List Byte} (record_eq : store.recordAt flash i = some (hdr, payload)) :
    payload.length = hdr.len := by
  obtain ⟨_, _, _, _, _, read_eq, _⟩ := recordAt_eq_some.mp record_eq
  exact Flash.readChecked_length read_eq

theorem slotRead_eq_map (store : AbStore) (flash : Flash) (i : Fin 2) (cap : Nat) :
    store.slotRead flash i cap = (store.recordAt flash i).map fun record => (record.1, record.2.take cap) := by
  rw [recordAt, slotRead_eq, slotRead_eq]
  cases flash.readChecked (store.slotOff i) AbHdr.size with
  | none => rfl
  | some bytes =>
    simp only [Option.bind_eq_bind, Option.bind_some]
    split
    · rfl
    · split
      · rfl
      · rename_i short
        cases full_eq : flash.readChecked (store.slotOff i + AbHdr.size) (AbHdr.decode bytes).len with
        | none => rfl
        | some full =>
          have full_length := Flash.readChecked_length full_eq
          simp only [Option.bind_some]
          split
          · rfl
          · simp [List.take_of_length_le (show full.length ≤ store.storeMax by omega)]

theorem recordAt_sameOn {store : AbStore} {before after : Flash} {i : Fin 2}
    (same : before.SameOn after (store.slotOff i) Flash.sectorSize) :
    store.recordAt after i = store.recordAt before i := by
  have fits := store.storeMax_fits
  have header_eq : after.readChecked (store.slotOff i) AbHdr.size = before.readChecked (store.slotOff i) AbHdr.size :=
    (same.mono (Nat.le_refl _) (by simp [AbHdr.size, Flash.sectorSize])).readChecked_eq
  apply Option.ext
  rintro ⟨hdr, payload⟩
  have payload_eq (short : hdr.len ≤ store.storeMax) : after.readChecked (store.slotOff i + AbHdr.size) hdr.len =
        before.readChecked (store.slotOff i + AbHdr.size) hdr.len :=
    (same.mono (Nat.le_add_right _ _) (by omega)).readChecked_eq
  change store.recordAt after i = some (hdr, payload) ↔ store.recordAt before i = some (hdr, payload)
  rw [recordAt_eq_some, recordAt_eq_some, header_eq]
  constructor
  · rintro ⟨bytes, bytes_eq, hdr_eq, magic_eq, short, full_eq, crc_eq⟩
    exact ⟨bytes, bytes_eq, hdr_eq, magic_eq, short, (payload_eq short).symm.trans full_eq, crc_eq⟩
  · rintro ⟨bytes, bytes_eq, hdr_eq, magic_eq, short, full_eq, crc_eq⟩
    exact ⟨bytes, bytes_eq, hdr_eq, magic_eq, short, (payload_eq short).trans full_eq, crc_eq⟩

theorem recordAt_blank {store : AbStore} {flash : Flash} {i : Fin 2}
    (blank : flash.Blank (store.slotOff i) AbHdr.size) : store.recordAt flash i = none := by
  have fits := store.storeMax_fits
  rw [Option.eq_none_iff_forall_ne_some]
  rintro ⟨hdr, payload⟩ record_eq
  obtain ⟨bytes, bytes_eq, rfl, -, short, -⟩ := recordAt_eq_some.mp record_eq
  have erased : bytes = List.replicate AbHdr.size 0xFF := by
    simp only [Flash.readChecked, Option.ite_none_right_eq_some, Option.some.injEq] at bytes_eq
    rw [← bytes_eq.2, List.eq_replicate_iff]
    refine ⟨by simp, fun byte member => ?_⟩
    obtain ⟨j, within, rfl⟩ := List.mem_map.mp member
    exact blank _ (Nat.le_add_right _ _) (by have := List.mem_range.mp within; omega)
  have len_eq : (AbHdr.decode bytes).len = 0xFFFF := by
    rw [erased]
    decide
  simp only [AbHdr.size, Flash.sectorSize] at fits
  omega

/-- Compare a slot's payload with a buffer, chunk by chunk. -/
def slotPayloadEquals (store : AbStore) (flash : Flash) (i : Fin 2) (data : List Byte) : Bool :=
  ((strides data.length chunk).foldlM (fun _ pos => do
    let count := min (data.length - pos) chunk
    let buf ← flash.readChecked (store.slotOff i + AbHdr.size + pos) count
    if buf = (data.drop pos).take count then some () else none) ()).isSome

theorem slotPayloadEquals_iff {store : AbStore} {flash : Flash} {i : Fin 2} {data : List Byte} :
    store.slotPayloadEquals flash i data = true ↔
      flash.readChecked (store.slotOff i + AbHdr.size) data.length = some data := by
  have folded := foldlM_strides data.length chunk (by decide)
    (fun (_ : Unit) pos => do
      let count := min (data.length - pos) chunk
      let buf ← flash.readChecked (store.slotOff i + AbHdr.size + pos) count
      if buf = (data.drop pos).take count then some () else none) ()
    (fun pos => if flash.readChecked (store.slotOff i + AbHdr.size) pos = some (data.take pos)
      then some () else none) (by simp) (by
        intro pos below _
        have split : min data.length (pos + chunk) = pos + min (data.length - pos) chunk := by omega
        simp only [split, Flash.readChecked_add, List.take_add]
        cases front_eq : flash.readChecked (store.slotOff i + AbHdr.size) pos with
        | none => simp
        | some front =>
          have front_length := Flash.readChecked_length front_eq
          cases flash.readChecked (store.slotOff i + AbHdr.size + pos) (min (data.length - pos) chunk) with
          | none => by_cases front_same : front = data.take pos <;> simp [front_same]
          | some back =>
            have split_eq : front ++ back = data.take pos ++ (data.drop pos).take (min (data.length - pos) chunk) ↔
                  front = data.take pos ∧ back = (data.drop pos).take (min (data.length - pos) chunk) :=
              ⟨fun equal => List.append_inj equal (by simp; omega), by rintro ⟨rfl, rfl⟩; rfl⟩
            by_cases front_same : front = data.take pos <;> simp [front_same, split_eq])
  rw [slotPayloadEquals, folded]
  simp

end AbStore
end BenchPod.ConfigStore
