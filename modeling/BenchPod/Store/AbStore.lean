import BenchPod.Store.Record

/-!
# The operations of the A/B store

A save erases the slot that does not hold the newest record, programs the payload page by page and
the header last, and reads the result back.  A clear saves an empty record, the tombstone, and then
erases every other source a load could use.  Both are programs over flash commands, so a power cut
may fall between any two flash steps or tear the step it falls into.
-/

namespace BenchPod.ConfigStore

open Endian

/-- The payload length rounded up to whole quad-words. -/
def bodyLen (len : Nat) : Nat := (len + Flash.quadSize - 1) / Flash.quadSize * Flash.quadSize

theorem bodyLen_le (len : Nat) : len ≤ bodyLen len := strides_cover _ _ (by decide)

theorem bodyLen_fits {len : Nat} (fits : len + AbHdr.size ≤ Flash.sectorSize) :
    bodyLen len + AbHdr.size ≤ Flash.sectorSize := by
  simp only [bodyLen, AbHdr.size, Flash.sectorSize, Flash.quadSize] at *
  omega

/-- One filling of the program buffer. -/
def pageAt (data : List Byte) (pos count : Nat) : List Byte := ((data.drop pos).take count).rightpad count 0xFF

theorem pageAt_eq {data : List Byte} {pos count : Nat} (total : Nat) (inside : pos + count ≤ total) :
    pageAt data pos count = ((data.rightpad total 0xFF).drop pos).take count := by
  apply List.ext_getElem?
  intro i
  simp only [pageAt, List.rightpad, List.getElem?_append, List.getElem?_take, List.getElem?_drop,
    List.getElem?_replicate, List.length_take, List.length_drop]
  grind

/-- Program the payload behind the header, one page at a time. -/
def payloadSteps (off : Nat) (data : List Byte) : List FlashStep :=
  (strides (bodyLen data.length) pageSize).flatMap fun pos =>
    rangeProgram (off + AbHdr.size + pos) (pageAt data pos (min (bodyLen data.length - pos) pageSize))

theorem pageAt_length {data : List Byte} {pos count : Nat} : (pageAt data pos count).length = count := by
  simp only [pageAt, List.rightpad, List.length_append, List.length_replicate, List.length_take]
  omega

theorem page_whole {len pos : Nat} (divides : pageSize ∣ pos) : Flash.quadSize ∣ min (bodyLen len - pos) pageSize := by
  obtain ⟨k, rfl⟩ := divides
  simp only [bodyLen, Flash.quadSize, pageSize]
  omega

theorem payloadSteps_inside {off : Nat} (data : List Byte) (aligned : Flash.quadSize ∣ off) :
    FlashStep.Inside (payloadSteps off data) (off + AbHdr.size) (bodyLen data.length) := by
  intro step member
  obtain ⟨pos, within, step_mem⟩ := List.mem_flatMap.mp member
  obtain ⟨below, divides⟩ := (mem_strides (by decide)).mp within
  have page_dvd : Flash.quadSize ∣ off + AbHdr.size + pos :=
    Nat.dvd_add (Nat.dvd_add aligned (by decide)) (Nat.dvd_trans (by decide) divides)
  have whole : Flash.quadSize ∣ (pageAt data pos (min (bodyLen data.length - pos) pageSize)).length := by
    rw [pageAt_length]
    exact page_whole divides
  have inside := rangeProgram_inside whole page_dvd step step_mem
  rw [pageAt_length] at inside
  obtain ⟨quad, above, under⟩ := inside
  exact ⟨quad, by omega, by omega⟩

theorem payloadSteps_run {flash : Flash} {off : Nat} (data : List Byte)
    (aligned : Flash.quadSize ∣ off)
    (blank : flash.Blank (off + AbHdr.size) (bodyLen data.length)) :
    FlashStep.run (payloadSteps off data) flash =
      flash.written (off + AbHdr.size) (data.rightpad (bodyLen data.length) 0xFF) := by
  have padded_length : (data.rightpad (bodyLen data.length) 0xFF).length = bodyLen data.length := by
    have above := bodyLen_le data.length
    simp only [List.rightpad, List.length_append, List.length_replicate]
    omega
  rw [FlashStep.run, payloadSteps, List.foldl_flatMap]
  have initial : flash = flash.written (off + AbHdr.size) ((data.rightpad (bodyLen data.length) 0xFF).take 0) := by simp
  conv_lhs => rw [initial]
  refine (foldl_strides (by decide) _ (fun pos => flash.written (off + AbHdr.size)
    ((data.rightpad (bodyLen data.length) 0xFF).take pos)) ?_).trans ?_
  · intro pos below divides
    have split : min (bodyLen data.length) (pos + pageSize) = pos + min (bodyLen data.length - pos) pageSize := by omega
    have taken : ((data.rightpad (bodyLen data.length) 0xFF).take pos).length = pos := by
      rw [List.length_take]
      omega
    have page_dvd : Flash.quadSize ∣ off + AbHdr.size + pos :=
      Nat.dvd_add (Nat.dvd_add aligned (by decide)) (Nat.dvd_trans (by decide) divides)
    have rest_blank : (flash.written (off + AbHdr.size)
        ((data.rightpad (bodyLen data.length) 0xFF).take pos)).Blank (off + AbHdr.size + pos)
          (min (bodyLen data.length - pos) pageSize) :=
      Flash.written_blank (fun x above under => blank x above (by omega)) taken
    change FlashStep.run (rangeProgram _ _) _ = _
    rw [rangeProgram_run (by rw [pageAt_length]; exact page_whole divides) page_dvd
      (by rwa [pageAt_length]), split, List.take_add, pageAt_eq (bodyLen data.length)
      (by omega)]
    conv_lhs => rw [show off + AbHdr.size + pos = off + AbHdr.size +
      ((data.rightpad (bodyLen data.length) 0xFF).take pos).length by rw [taken]]
    exact Flash.written_append _ _ _ _
  · rw [List.take_of_length_le (Nat.le_of_eq padded_length)]

namespace AbStore

/-- The header of a record about to be written. -/
def newHdr (store : AbStore) (seq : Word) (data : List Byte) : AbHdr where
  magic := store.magic
  seq := seq
  verLen := AbHdr.packVerLen store.version data.length
  crc := abCrc32 (abCrc32 (abCrc32 0 (le32 seq))
    (le32 (AbHdr.packVerLen store.version data.length))) data

/-- Erase the slot, program the payload, program the header last. -/
def recordSteps (store : AbStore) (target : Fin 2) (seq : Word) (data : List Byte) : List FlashStep :=
  .erase (store.slotOff target) :: (payloadSteps (store.slotOff target) data ++
    rangeProgram (store.slotOff target) (store.newHdr seq data).encode)

theorem newHdr_len {store : AbStore} {seq : Word} {data : List Byte}
    (short : data.length ≤ store.storeMax) : (store.newHdr seq data).len = data.length := by
  have fits := store.storeMax_fits
  simp only [AbHdr.size, Flash.sectorSize] at fits
  exact AbHdr.packVerLen_len (by omega)

theorem newHdr_ver {store : AbStore} {seq : Word} {data : List Byte}
    (short : data.length ≤ store.storeMax) :
    (store.newHdr seq data).ver = store.version.setWidth 32 := by
  have fits := store.storeMax_fits
  simp only [AbHdr.size, Flash.sectorSize] at fits
  exact AbHdr.packVerLen_ver (by omega)

theorem slot_quad_aligned (store : AbStore) (i : Fin 2) : Flash.quadSize ∣ store.slotOff i :=
  Nat.dvd_trans (by decide) (store.slots_aligned i)

theorem slots_apart (store : AbStore) {i j : Fin 2} (different : i ≠ j) :
    store.slotOff i + Flash.sectorSize ≤ store.slotOff j ∨ store.slotOff j + Flash.sectorSize ≤ store.slotOff i := by
  obtain ⟨m, m_eq⟩ := store.slots_aligned i
  obtain ⟨n, n_eq⟩ := store.slots_aligned j
  have distinct : store.slotOff i ≠ store.slotOff j := by
    have base := store.slots_distinct
    obtain ⟨rfl, rfl⟩ | ⟨rfl, rfl⟩ : (i = 0 ∧ j = 1) ∨ (i = 1 ∧ j = 0) := by omega
    · exact base
    · exact base.symm
  simp only [Flash.sectorSize] at *
  omega

theorem legacy_apart (store : AbStore) (present : store.legacyOff ≠ 0) (i : Fin 2) :
    store.slotOff i + Flash.sectorSize ≤ store.legacyOff ∨ store.legacyOff + Flash.sectorSize ≤ store.slotOff i := by
  obtain ⟨m, m_eq⟩ := store.slots_aligned i
  obtain ⟨n, n_eq⟩ := store.legacy_aligned
  have distinct := store.legacy_distinct present i
  simp only [Flash.sectorSize] at *
  omega

theorem erase_inside {off : Nat} (aligned : Flash.sectorSize ∣ off) :
    FlashStep.Inside [.erase off] off Flash.sectorSize := by
  intro step member
  obtain rfl := List.mem_singleton.mp member
  exact ⟨Nat.dvd_trans (by decide) aligned, Nat.le_refl _, Nat.le_refl _⟩

theorem erase_blank {flash : Flash} {off count : Nat} (within : count ≤ Flash.sectorSize) :
    ((FlashStep.erase off).apply flash).Blank off count := by
  intro x above below
  simp only [FlashStep.apply]
  exact if_pos ⟨above, by omega⟩

theorem recordSteps_inside (store : AbStore) (target : Fin 2) (seq : Word) {data : List Byte}
    (short : data.length ≤ store.storeMax) :
    FlashStep.Inside (store.recordSteps target seq data) (store.slotOff target) Flash.sectorSize := by
  have fits := bodyLen_fits (Nat.le_trans (Nat.add_le_add_right short _) store.storeMax_fits)
  have aligned := store.slot_quad_aligned target
  intro step member
  rcases List.mem_cons.mp member with rfl | member
  · exact ⟨aligned, Nat.le_refl _, Nat.le_refl _⟩
  · rcases List.mem_append.mp member with member | member
    · obtain ⟨quad, above, below⟩ := payloadSteps_inside data aligned step member
      exact ⟨quad, by omega, by omega⟩
    · obtain ⟨quad, above, below⟩ := rangeProgram_inside (by rw [AbHdr.encode_length]; decide) aligned step member
      rw [AbHdr.encode_length] at below
      exact ⟨quad, above, by omega⟩

theorem recordSteps_run (store : AbStore) (flash : Flash) (target : Fin 2) (seq : Word)
    {data : List Byte} (short : data.length ≤ store.storeMax) :
    FlashStep.run (store.recordSteps target seq data) flash =
      ((((FlashStep.erase (store.slotOff target)).apply flash).written
        (store.slotOff target + AbHdr.size) (data.rightpad (bodyLen data.length) 0xFF)).written
          (store.slotOff target) (store.newHdr seq data).encode) := by
  have fits := bodyLen_fits (Nat.le_trans (Nat.add_le_add_right short _) store.storeMax_fits)
  have aligned := store.slot_quad_aligned target
  rw [recordSteps, FlashStep.run_cons, FlashStep.run_append, payloadSteps_run data aligned,
    rangeProgram_run (by rw [AbHdr.encode_length]; decide) aligned]
  · rw [AbHdr.encode_length]
    intro x above below
    simp only [Flash.written]
    rw [if_neg (by omega)]
    exact erase_blank (Nat.le_refl _) x above (by simp only [AbHdr.size, Flash.sectorSize] at *; omega)
  · intro x above below
    exact erase_blank (Nat.le_refl _) x (by omega) (by omega)

theorem recordAt_recordSteps (store : AbStore) (flash : Flash) (target : Fin 2) (seq : Word)
    {data : List Byte} (short : data.length ≤ store.storeMax) :
    store.recordAt (FlashStep.run (store.recordSteps target seq data) flash) target =
      some (store.newHdr seq data, data) := by
  have fits := store.storeMax_fits
  have aligned := store.slot_quad_aligned target
  have len_eq : (store.newHdr seq data).len = data.length := newHdr_len short
  have clean (start count : Nat) (above : store.slotOff target ≤ start)
      (below : start + count ≤ store.slotOff target + Flash.sectorSize) :
      ((FlashStep.erase (store.slotOff target)).apply flash).clean start count = true := by
    rw [Flash.clean_eq_true]
    intro i within
    obtain ⟨k, off_eq⟩ := aligned
    simp only [FlashStep.apply, off_eq, Flash.quadSize, Flash.sectorSize] at *
    rw [if_pos (by omega)]
  rw [recordSteps_run store flash target seq short, recordAt_eq_some]
  refine ⟨(store.newHdr seq data).encode, ?_, AbHdr.decode_encode _, rfl, by omega, ?_, rfl⟩
  · rw [← AbHdr.encode_length (store.newHdr seq data)]
    exact Flash.readChecked_written (clean _ _ (Nat.le_refl _)
      (by rw [AbHdr.encode_length]; simp [AbHdr.size, Flash.sectorSize]))
  · rw [len_eq, (Flash.written_sameOn _ (store.slotOff target) _
      (by rw [AbHdr.encode_length]; exact .inr (Nat.le_refl _))).readChecked_eq]
    rw [List.rightpad, ← Flash.written_append, (Flash.written_sameOn _ _ _ (.inl (Nat.le_refl _))).readChecked_eq]
    exact Flash.readChecked_written (clean _ _ (Nat.le_add_right _ _) (by omega))

/-- The valid slot with the highest serial number, with its header. -/
def newestSlot (hdr : Fin 2 → Option AbHdr) : Option (Fin 2 × AbHdr) :=
  match hdr 0, hdr 1 with
  | some hdr0, some hdr1 => if 0 < (hdr1.seq - hdr0.seq).toInt then some (1, hdr1) else some (0, hdr0)
  | some hdr0, none => some (0, hdr0)
  | none, some hdr1 => some (1, hdr1)
  | none, none => none

/-- The headers of the valid slots. -/
def scan (store : AbStore) (flash : Flash) : Fin 2 → Option AbHdr := fun i => (store.slotRead flash i 0).map Prod.fst

/-- Read the single-sector layout. -/
def legacyRead (store : AbStore) (flash : Flash) (len : Nat) : Option (List Byte) :=
  if store.legacyOff = 0 then none
  else do
    let magic := rd32 (← flash.readChecked store.legacyOff 4)
    if magic ≠ store.legacyMagic then none
    else flash.readChecked store.legacyOff len

/-- `ab_store_load`: the newest record's payload, if it has this length and the store's version. -/
def load (store : AbStore) (flash : Flash) (len : Nat) : Option (List Byte) :=
  match newestSlot (store.scan flash) with
  | some (n, hdr) =>
    if hdr.len = 0 then none
    else if hdr.ver ≠ store.version.setWidth 32 ∨ hdr.len ≠ len then none
    else (store.slotRead flash n len).map Prod.snd
  | none => store.legacyRead flash len

/-- A header of this version and length. -/
def Matches (version : Half) (len : Nat) (hdr : AbHdr) : Prop := hdr.ver = version.setWidth 32 ∧ hdr.len = len

instance (version : Half) (len : Nat) (hdr : AbHdr) : Decidable (Matches version len hdr) :=
  inferInstanceAs (Decidable (_ ∧ _))

/-- The valid slot of this version and length; the newest slot wins a tie. -/
def bestSlot (hdr : Fin 2 → Option AbHdr) (newest : Fin 2) (version : Half) (len : Nat) :
    Option (Fin 2 × AbHdr) :=
  ([0, 1] : List (Fin 2)).foldl (fun best i =>
    match hdr i with
    | none => best
    | some h =>
      if ¬Matches version len h then best
      else if best.isNone ∨ i = newest then some (i, h) else best) none

/-- `ab_store_load_version`: a record of a given version in either slot, and how many saves older
than the newest record it is. -/
def loadVersion (store : AbStore) (flash : Flash) (version : Half) (len : Nat) :
    Option (List Byte × Word) :=
  match newestSlot (store.scan flash) with
  | none => none
  | some (n, newest) =>
    if newest.len = 0 then none
    else (bestSlot (store.scan flash) n version len).bind fun (i, h) =>
      (store.slotRead flash i len).map fun record => (record.2, newest.seq - h.seq)

/-- `ab_store_load_var`: the newest record of any length up to `cap`. -/
def loadVar (store : AbStore) (flash : Flash) (cap : Nat) : Option (List Byte) :=
  match newestSlot (store.scan flash) with
  | none => none
  | some (n, hdr) =>
    if hdr.len = 0 then none
    else if hdr.ver ≠ store.version.setWidth 32 ∨ cap < hdr.len then none
    else (store.slotRead flash n cap).map Prod.snd

/-- What the store asks of the flash between two reads. -/
inductive Command where
  /-- Write one record into a slot with these steps; a read-back follows. -/
  | write (target : Fin 2) (steps : List FlashStep)
  /-- Erase one sector. -/
  | erase (off : Nat)

/-- The slot or sector of a command reads as nothing or as before, whatever happened to it. -/
def Damaged (store : AbStore) (before after : Flash) : Prop :=
  (∀ i, store.recordAt after i = none ∨ store.recordAt after i = store.recordAt before i) ∧
    ∀ len, len ≤ Flash.sectorSize →
      store.legacyRead after len = none ∨ store.legacyRead after len = store.legacyRead before len

/-- The flash under the store.  A write may fail silently in its own sector; a power cut may leave
the sector or quad-word it hits in any state that reads as nothing or as before. -/
def device (store : AbStore) : Device Flash Command where
  finishes
    | .write target steps, before, after =>
      after = FlashStep.run steps before ∨
        (FlashStep.erase (store.slotOff target)).Confined before after ∧ store.Damaged before after
    | .erase off, before, after => after = FlashStep.run [.erase off] before
  tears
    | .write _ steps, before, after => FlashStep.Interrupted store.Damaged steps before after
    | .erase off, before, after => FlashStep.Interrupted store.Damaged [.erase off] before after

/-- Does the slot read back as the record just written? -/
def readsBack (store : AbStore) (flash : Flash) (target : Fin 2) (seq : Word) (data : List Byte) :
    Bool :=
  match store.slotRead flash target 0 with
  | none => false
  | some (hdr, _) =>
    hdr.seq == seq && hdr.crc == (store.newHdr seq data).crc && store.slotPayloadEquals flash target data

/-- `write_record`: 0 if the record reads back, -1 if not. -/
def writeRecord (store : AbStore) (target : Fin 2) (seq : Word) (data : List Byte) :
    Prog Flash Command Int := do
  Prog.command (.write target (store.recordSteps target seq data))
  let verified ← Prog.inspect fun flash => store.readsBack flash target seq data
  return if verified then 0 else -1

/-- The slot the next record goes to. -/
def targetOf : Option (Fin 2 × AbHdr) → Fin 2
  | none => 0
  | some (n, _) => 1 - n

/-- The serial number of the next record. -/
def seqOf : Option (Fin 2 × AbHdr) → Word
  | none => 1
  | some (_, hdr) => hdr.seq + 1

/-- The newest record already is the payload about to be saved. -/
def unchanged (store : AbStore) (flash : Flash) (data : List Byte) : Bool :=
  match newestSlot (store.scan flash) with
  | none => false
  | some (n, hdr) =>
    hdr.ver == store.version.setWidth 32 && hdr.len == data.length && store.slotPayloadEquals flash n data

/-- `ab_store_save`. -/
def save (store : AbStore) (data : List Byte) : Prog Flash Command Int :=
  if data.length = 0 ∨ store.storeMax < data.length then return -1
  else .read fun flash =>
    if store.unchanged flash data then return 0
    else
      let newest := newestSlot (store.scan flash)
      store.writeRecord (targetOf newest) (seqOf newest) data

/-- The first half of `ab_store_clear`: the tombstone, or else an erased slot in its place. -/
def tombstone (store : AbStore) (newest : Option (Fin 2 × AbHdr)) : Prog Flash Command Int := do
  let rc ← store.writeRecord (targetOf newest) (seqOf newest) []
  if rc ≠ 0 then Prog.command (.erase (store.slotOff (targetOf newest)))
  return rc

/-- The second half of `ab_store_clear`: the other slot and the legacy sector. -/
def wipe (store : AbStore) (newest : Option (Fin 2 × AbHdr)) : Prog Flash Command Unit := do
  Prog.command (.erase (store.slotOff (1 - targetOf newest)))
  if store.legacyOff ≠ 0 then Prog.command (.erase store.legacyOff)

/-- `ab_store_clear`. -/
def clear (store : AbStore) : Prog Flash Command Int :=
  .read fun flash => do
    let newest := newestSlot (store.scan flash)
    let rc ← store.tombstone newest
    store.wipe newest
    return rc

end AbStore

/-- The store of the Wi-Fi configuration. -/
def wifiStore : AbStore where
  slotOff i := if i = 0 then 0x1F8000 else 0x1F6000
  magic := 0xAB5C0F01
  version := 1
  legacyOff := 0x1FE000
  legacyMagic := 0xC0FFEE01
  maxLen := 0
  slots_aligned := by decide
  slots_distinct := by decide
  legacy_aligned := by decide
  legacy_distinct := by decide
  legacyMagic_written := by decide
  maxLen_fits := no_limit_fits

end BenchPod.ConfigStore
