import BenchPod.Store.AbStore

/-!
# The store's view of the flash

Which records the two slots hold, and what the legacy sector reads as, decides everything the store
does.  This file evaluates loads on views and gives the effect of every command, finished or torn,
on the view; later files never look below it.
-/

namespace BenchPod.ConfigStore

/-- What a load can find in the flash. -/
@[ext]
structure View where
  /-- The complete record of each slot. -/
  slot : Fin 2 → Option (AbHdr × List Byte)
  /-- The legacy record, by the length asked for. -/
  legacy : Nat → Option (List Byte)

namespace View

/-- The valid slot with the highest serial number, with its record. -/
def newest (view : View) : Option (Fin 2 × AbHdr × List Byte) :=
  match view.slot 0, view.slot 1 with
  | some record0, some record1 =>
    if 0 < (record1.1.seq - record0.1.seq).toInt then some (1, record1) else some (0, record0)
  | some record0, none => some (0, record0)
  | none, some record1 => some (1, record1)
  | none, none => none

/-- The slot the next record goes to. -/
def target (view : View) : Fin 2 :=
  match view.newest with
  | none => 0
  | some (n, _) => 1 - n

/-- The serial number of the next record. -/
def nextSeq (view : View) : Word :=
  match view.newest with
  | none => 1
  | some (_, hdr, _) => hdr.seq + 1

/-- Replace what one slot holds. -/
def setSlot (view : View) (i : Fin 2) (record : Option (AbHdr × List Byte)) : View :=
  { view with slot := Function.update view.slot i record }

/-- Replace what the legacy sector reads as. -/
def setLegacy (view : View) (legacy : Nat → Option (List Byte)) : View := { view with legacy }

@[simp]
theorem newest_setLegacy (view : View) (legacy : Nat → Option (List Byte)) :
    (view.setLegacy legacy).newest = view.newest := rfl

@[simp]
theorem setLegacy_legacy (view : View) (legacy : Nat → Option (List Byte)) :
    (view.setLegacy legacy).legacy = legacy := rfl

@[simp]
theorem setLegacy_self (view : View) : view.setLegacy view.legacy = view := rfl

@[simp]
theorem setSlot_slot_self (view : View) (i : Fin 2) (record : Option (AbHdr × List Byte)) :
    (view.setSlot i record).slot i = record := Function.update_self ..

theorem setSlot_slot_of_ne (view : View) {i j : Fin 2} (different : j ≠ i)
    (record : Option (AbHdr × List Byte)) : (view.setSlot i record).slot j = view.slot j :=
  Function.update_of_ne different ..

@[simp]
theorem setSlot_legacy (view : View) (i : Fin 2) (record : Option (AbHdr × List Byte)) :
    (view.setSlot i record).legacy = view.legacy := rfl

@[simp]
theorem setSlot_self (view : View) (i : Fin 2) : view.setSlot i (view.slot i) = view := by
  simp [setSlot]

/-- Two valid slots differ by exactly one save. -/
def Ordered (view : View) : Prop :=
  ∀ record0 record1, view.slot 0 = some record0 → view.slot 1 = some record1 →
    record1.1.seq = record0.1.seq + 1 ∨ record0.1.seq = record1.1.seq + 1

theorem newest_slot {view : View} {n : Fin 2} {record : AbHdr × List Byte}
    (newest_eq : view.newest = some (n, record)) : view.slot n = some record := by
  simp only [newest] at newest_eq
  split at newest_eq
  · split at newest_eq <;> cases newest_eq <;> assumption
  · cases newest_eq
    assumption
  · cases newest_eq
    assumption
  · cases newest_eq

theorem newest_eq_none {view : View} : view.newest = none ↔ ∀ i, view.slot i = none := by
  rw [Fin.forall_fin_two]
  simp only [newest]
  split
  · split <;> simp_all
  all_goals simp_all

theorem newest_of_succ {view : View} {n : Fin 2} {old new : AbHdr × List Byte}
    (old_eq : view.slot (1 - n) = some old) (new_eq : view.slot n = some new)
    (succ : new.1.seq = old.1.seq + 1) : view.newest = some (n, new) := by
  have forward : old.1.seq + 1 - old.1.seq = 1 := by rw [BitVec.add_comm, BitVec.add_sub_cancel]
  have backward : old.1.seq - (old.1.seq + 1) = -1 := by rw [← BitVec.sub_sub, BitVec.sub_self, BitVec.zero_sub]
  obtain rfl | rfl : n = 0 ∨ n = 1 := by omega
  · change view.slot 1 = some old at old_eq
    simp only [newest, old_eq, new_eq, succ, backward]
    rfl
  · change view.slot 0 = some old at old_eq
    simp only [newest, old_eq, new_eq, succ, forward]
    rfl

theorem newest_of_single {view : View} {n : Fin 2} {record : AbHdr × List Byte}
    (other_eq : view.slot (1 - n) = none) (record_eq : view.slot n = some record) :
    view.newest = some (n, record) := by
  obtain rfl | rfl : n = 0 ∨ n = 1 := by omega
  · change view.slot 1 = none at other_eq
    simp [newest, other_eq, record_eq]
  · change view.slot 0 = none at other_eq
    simp [newest, other_eq, record_eq]

theorem ordered_of_none {view : View} {i : Fin 2} (empty : view.slot i = none) : view.Ordered := by
  intro record0 record1 record0_eq record1_eq
  obtain rfl | rfl : i = 0 ∨ i = 1 := by omega
  · rw [empty] at record0_eq
    cases record0_eq
  · rw [empty] at record1_eq
    cases record1_eq

theorem ordered_of_succ {view : View} {n : Fin 2} {old new : AbHdr × List Byte}
    (old_eq : view.slot (1 - n) = some old) (new_eq : view.slot n = some new)
    (succ : new.1.seq = old.1.seq + 1) : view.Ordered := by
  intro record0 record1 record0_eq record1_eq
  obtain rfl | rfl : n = 0 ∨ n = 1 := by omega
  · change view.slot 1 = some old at old_eq
    obtain rfl := Option.some.inj (record1_eq.symm.trans old_eq)
    obtain rfl := Option.some.inj (record0_eq.symm.trans new_eq)
    exact .inr succ
  · change view.slot 0 = some old at old_eq
    obtain rfl := Option.some.inj (record0_eq.symm.trans old_eq)
    obtain rfl := Option.some.inj (record1_eq.symm.trans new_eq)
    exact .inl succ

theorem other_ne (n : Fin 2) : 1 - n ≠ n := by omega

theorem other_other (n : Fin 2) : 1 - (1 - n) = n := by omega

theorem newest_setSlot_none (view : View) : (view.setSlot view.target none).newest = view.newest := by
  cases newest_eq : view.newest with
  | none =>
    have empty := newest_eq_none.mp newest_eq
    rw [newest_eq_none]
    intro i
    by_cases same : i = view.target
    · rw [same, setSlot_slot_self]
    · rw [setSlot_slot_of_ne _ same, empty]
  | some found =>
    obtain ⟨n, record⟩ := found
    have target_eq : view.target = 1 - n := by simp [target, newest_eq]
    rw [target_eq]
    refine newest_of_single (setSlot_slot_self ..) ?_
    rw [setSlot_slot_of_ne _ (other_ne n).symm]
    exact newest_slot newest_eq

theorem newest_setSlot_some (view : View) {record : AbHdr × List Byte}
    (seq_eq : record.1.seq = view.nextSeq) :
    (view.setSlot view.target (some record)).newest = some (view.target, record) ∧
      (view.setSlot view.target (some record)).Ordered := by
  cases newest_eq : view.newest with
  | none =>
    have empty : (view.setSlot view.target (some record)).slot (1 - view.target) = none := by
      rw [setSlot_slot_of_ne _ (other_ne _), newest_eq_none.mp newest_eq]
    exact ⟨newest_of_single empty (setSlot_slot_self ..), ordered_of_none empty⟩
  | some found =>
    obtain ⟨n, old⟩ := found
    have target_eq : view.target = 1 - n := by simp [target, newest_eq]
    have old_eq : (view.setSlot view.target (some record)).slot (1 - view.target) = some old := by
      rw [setSlot_slot_of_ne _ (other_ne _), target_eq, other_other]
      exact newest_slot newest_eq
    have succ : record.1.seq = old.1.seq + 1 := by simpa [nextSeq, newest_eq] using seq_eq
    exact ⟨newest_of_succ old_eq (setSlot_slot_self ..) succ, ordered_of_succ old_eq (setSlot_slot_self ..) succ⟩

theorem target_seq {view : View} {record : AbHdr × List Byte}
    (record_eq : view.slot view.target = some record) : record.1.seq ≠ view.nextSeq := by
  intro succ
  cases newest_eq : view.newest with
  | none =>
    rw [newest_eq_none.mp newest_eq] at record_eq
    cases record_eq
  | some found =>
    obtain ⟨n, new⟩ := found
    have target_eq : view.target = 1 - n := by simp [target, newest_eq]
    rw [target_eq] at record_eq
    rw [nextSeq, newest_eq] at succ
    have new_eq := newest_slot newest_eq
    rw [← other_other n] at new_eq
    have other := newest_of_succ new_eq record_eq succ
    rw [newest_eq] at other
    simp only [Option.some.injEq, Prod.mk.injEq] at other
    exact other_ne n other.1.symm

/-- What a load returns. -/
def load (view : View) (version : Half) (len : Nat) : Option (List Byte) :=
  match view.newest with
  | some (_, hdr, payload) =>
    if hdr.len = 0 then none
    else if hdr.ver ≠ version.setWidth 32 ∨ hdr.len ≠ len then none
    else some payload
  | none => view.legacy len

/-- What a load of one version returns, and how many saves older than the newest it is. -/
def loadVersion (view : View) (version : Half) (len : Nat) : Option (List Byte × Word) :=
  match view.newest with
  | none => none
  | some (n, hdr, payload) =>
    if hdr.len = 0 then none
    else if AbStore.Matches version len hdr then some (payload, 0)
    else match view.slot (1 - n) with
      | none => none
      | some (older, stored) =>
        if AbStore.Matches version len older then some (stored, hdr.seq - older.seq) else none

end View

namespace AbStore

/-- The store's view of a flash; legacy reads stay inside their sector. -/
def view (store : AbStore) (flash : Flash) : View where
  slot := store.recordAt flash
  legacy len := if len ≤ Flash.sectorSize then store.legacyRead flash len else none

@[simp]
theorem view_slot (store : AbStore) (flash : Flash) (i : Fin 2) :
    (store.view flash).slot i = store.recordAt flash i := rfl

theorem scan_eq (store : AbStore) (flash : Flash) (i : Fin 2) :
    store.scan flash i = (store.recordAt flash i).map Prod.fst := by
  rw [scan, slotRead_eq_map]
  cases store.recordAt flash i <;> rfl

theorem newestSlot_scan (store : AbStore) (flash : Flash) :
    newestSlot (store.scan flash) = (store.view flash).newest.map fun found => (found.1, found.2.1) := by
  simp only [newestSlot, scan_eq, View.newest, view_slot]
  cases store.recordAt flash 0 with
  | none => cases store.recordAt flash 1 <;> rfl
  | some record0 =>
    cases store.recordAt flash 1 with
    | none => rfl
    | some record1 =>
      simp only [Option.map_some]
      split <;> rfl

theorem targetOf_scan (store : AbStore) (flash : Flash) :
    targetOf (newestSlot (store.scan flash)) = (store.view flash).target := by
  rw [newestSlot_scan, View.target]
  cases (store.view flash).newest <;> rfl

theorem seqOf_scan (store : AbStore) (flash : Flash) :
    seqOf (newestSlot (store.scan flash)) = (store.view flash).nextSeq := by
  rw [newestSlot_scan, View.nextSeq]
  cases (store.view flash).newest <;> rfl

theorem load_eq (store : AbStore) (flash : Flash) {len : Nat}
    (within : len ≤ Flash.sectorSize ∨ (store.view flash).newest ≠ none) :
    store.load flash len = (store.view flash).load store.version len := by
  rw [load, View.load, newestSlot_scan]
  cases newest_eq : (store.view flash).newest with
  | none =>
    have short := within.resolve_right (not_not.mpr newest_eq)
    simp [view, short]
  | some found =>
    obtain ⟨n, hdr, payload⟩ := found
    have record_eq : store.recordAt flash n = some (hdr, payload) := View.newest_slot newest_eq
    have length_eq := recordAt_length record_eq
    simp only [Option.map_some]
    split
    · rfl
    · split
      · rfl
      · rename_i agrees
        have exact_len : hdr.len = len := not_not.mp fun other => agrees (.inr other)
        rw [slotRead_eq_map, record_eq, Option.map_some, Option.map_some,
          List.take_of_length_le (show payload.length ≤ len by omega)]

theorem bestSlot_newest {hdr : Fin 2 → Option AbHdr} {n : Fin 2} {h : AbHdr} {version : Half}
    {len : Nat} (hdr_eq : hdr n = some h) (fits : Matches version len h) :
    bestSlot hdr n version len = some (n, h) := by
  obtain rfl | rfl : n = 0 ∨ n = 1 := by omega
  · cases other_eq : hdr 1 <;> simp [bestSlot, hdr_eq, other_eq, fits]
  · cases other_eq : hdr 0 <;> simp [bestSlot, hdr_eq, other_eq, fits]

theorem bestSlot_older {hdr : Fin 2 → Option AbHdr} {n : Fin 2} {h : AbHdr} {version : Half}
    {len : Nat} (hdr_eq : hdr n = some h) (other : ¬Matches version len h) :
    bestSlot hdr n version len =
      (hdr (1 - n)).bind fun older => if Matches version len older then some (1 - n, older) else none := by
  obtain rfl | rfl : n = 0 ∨ n = 1 := by omega
  · change _ = (hdr 1).bind _
    cases other_eq : hdr 1 with
    | none => simp [bestSlot, hdr_eq, other_eq, other]
    | some older => by_cases fits : Matches version len older <;>
        simp [bestSlot, hdr_eq, other_eq, other, fits]
  · change _ = (hdr 0).bind _
    cases other_eq : hdr 0 with
    | none => simp [bestSlot, hdr_eq, other_eq, other]
    | some older => by_cases fits : Matches version len older <;>
        simp [bestSlot, hdr_eq, other_eq, other, fits]

theorem loadVersion_eq (store : AbStore) (flash : Flash) (version : Half) (len : Nat) :
    store.loadVersion flash version len = (store.view flash).loadVersion version len := by
  rw [loadVersion, View.loadVersion, newestSlot_scan]
  cases newest_eq : (store.view flash).newest with
  | none => rfl
  | some found =>
    obtain ⟨n, hdr, payload⟩ := found
    have record_eq : store.recordAt flash n = some (hdr, payload) := View.newest_slot newest_eq
    have hdr_eq : store.scan flash n = some hdr := by rw [scan_eq, record_eq, Option.map_some]
    have read {i : Fin 2} {h : AbHdr} {p : List Byte} (slot_eq : store.recordAt flash i = some (h, p))
        (len_eq : h.len = len) : store.slotRead flash i len = some (h, p) := by
      have length_eq := recordAt_length slot_eq
      rw [slotRead_eq_map, slot_eq, Option.map_some, List.take_of_length_le (by simp; omega)]
    simp only [Option.map_some, view_slot]
    split
    · rfl
    · by_cases fits : Matches version len hdr
      · rw [bestSlot_newest hdr_eq fits, if_pos fits, Option.bind_some, read record_eq fits.2,
          Option.map_some, BitVec.sub_self]
        rfl
      · rw [bestSlot_older hdr_eq fits, if_neg fits, scan_eq]
        cases other_eq : store.recordAt flash (1 - n) with
        | none => rfl
        | some other =>
          obtain ⟨older, stored⟩ := other
          by_cases older_fits : Matches version len older
          · simp [older_fits, read other_eq older_fits.2]
          · simp [older_fits]

theorem unchanged_iff (store : AbStore) (flash : Flash) (data : List Byte) :
    store.unchanged flash data = true ↔
      ∃ n hdr, (store.view flash).newest = some (n, hdr, data) ∧ hdr.ver = store.version.setWidth 32 := by
  rw [unchanged, newestSlot_scan]
  cases newest_eq : (store.view flash).newest with
  | none => simp
  | some found =>
    obtain ⟨n, hdr, payload⟩ := found
    have record_eq : store.recordAt flash n = some (hdr, payload) := View.newest_slot newest_eq
    obtain ⟨_, _, _, _, _, read_eq, _⟩ := recordAt_eq_some.mp record_eq
    have length_eq := Flash.readChecked_length read_eq
    simp only [Option.map_some, Bool.and_eq_true, beq_iff_eq, slotPayloadEquals_iff, Option.some.injEq, Prod.mk.injEq]
    constructor
    · rintro ⟨⟨ver_eq, len_eq⟩, same⟩
      rw [← len_eq, read_eq] at same
      exact ⟨n, hdr, ⟨rfl, rfl, Option.some.inj same⟩, ver_eq⟩
    · rintro ⟨_, _, ⟨rfl, rfl, rfl⟩, ver_eq⟩
      exact ⟨⟨ver_eq, length_eq.symm⟩, by rw [length_eq, read_eq]⟩

theorem legacyRead_sameOn {store : AbStore} {before after : Flash}
    (same : before.SameOn after store.legacyOff Flash.sectorSize) {len : Nat}
    (within : len ≤ Flash.sectorSize) :
    store.legacyRead after len = store.legacyRead before len := by
  have magic_eq : after.readChecked store.legacyOff 4 = before.readChecked store.legacyOff 4 :=
    (same.mono (Nat.le_refl _) (by simp [Flash.sectorSize])).readChecked_eq
  have data_eq : after.readChecked store.legacyOff len = before.readChecked store.legacyOff len :=
    (same.mono (Nat.le_refl _) (by omega)).readChecked_eq
  rw [legacyRead, legacyRead, magic_eq, data_eq]

theorem view_of_slot_confined {store : AbStore} {before after : Flash} {target : Fin 2}
    (confined : (FlashStep.erase (store.slotOff target)).Confined before after) :
    store.view after = (store.view before).setSlot target (store.recordAt after target) := by
  ext1
  · funext i
    by_cases same : i = target
    · rw [same, View.setSlot_slot_self, view_slot]
    · rw [View.setSlot_slot_of_ne _ same, view_slot, view_slot]
      exact recordAt_sameOn (confined _ _ (store.slots_apart same))
  · funext len
    simp only [view, View.setSlot_legacy]
    by_cases within : len ≤ Flash.sectorSize
    · by_cases absent : store.legacyOff = 0
      · simp [legacyRead, absent]
      · rw [if_pos within, if_pos within]
        exact legacyRead_sameOn (confined _ _ (store.legacy_apart absent target).symm) within
    · rw [if_neg within, if_neg within]

theorem view_of_legacy_confined {store : AbStore} {before after : Flash}
    (present : store.legacyOff ≠ 0)
    (confined : (FlashStep.erase store.legacyOff).Confined before after) :
    store.view after = (store.view before).setLegacy (store.view after).legacy := by
  ext1
  · funext i
    exact recordAt_sameOn (confined _ _ (store.legacy_apart present i))
  · rfl

/-- What an unfinished or failed write may leave in its slot. -/
def Spoiled (old : Option (AbHdr × List Byte)) (record : Option (AbHdr × List Byte)) : Prop :=
  record = none ∨ record = old

theorem view_finishes_write {store : AbStore} {before after : Flash} {target : Fin 2} {seq : Word}
    {data : List Byte} (short : data.length ≤ store.storeMax)
    (step : store.device.finishes (.write target (store.recordSteps target seq data)) before after) :
    store.view after = (store.view before).setSlot target (some (store.newHdr seq data, data)) ∨
      ∃ record, Spoiled (store.recordAt before target) record ∧
        store.view after = (store.view before).setSlot target record := by
  rcases step with rfl | ⟨confined, damaged⟩
  · left
    rw [← store.recordAt_recordSteps before target seq short]
    exact view_of_slot_confined fun _ _ apart =>
      FlashStep.run_sameOn (store.recordSteps_inside target seq short) before apart
  · right
    exact ⟨_, damaged.1 target, view_of_slot_confined confined⟩

theorem header_steps (off : Nat) (hdr : AbHdr) : rangeProgram off hdr.encode = [.program off (quadAt hdr.encode 0)] := by
  rw [rangeProgram, AbHdr.encode_length]
  rfl

/-- A torn write leaves its slot spoiled, or it only lost what came after the header. -/
theorem view_tears_write {store : AbStore} {before after : Flash} {target : Fin 2} {seq : Word}
    {data : List Byte} (short : data.length ≤ store.storeMax)
    (step : store.device.tears (.write target (store.recordSteps target seq data)) before after) :
    ∃ record, (Spoiled (store.recordAt before target) record ∨
        record = some (store.newHdr seq data, data)) ∧
      store.view after = (store.view before).setSlot target record := by
  have inside := store.recordSteps_inside target seq short
  have aligned := store.slot_quad_aligned target
  refine ⟨store.recordAt after target, ?_, view_of_slot_confined fun _ _ apart =>
    FlashStep.interrupted_sameOn inside step apart⟩
  have complete := store.recordAt_recordSteps before target seq short
  change FlashStep.Interrupted store.Damaged (store.recordSteps target seq data) before after at step
  rw [recordSteps, FlashStep.run_cons, FlashStep.run_append] at complete
  rw [recordSteps] at step
  cases step with
  | between => exact .inl (.inr rfl)
  | inside _ torn => exact .inl (torn.1 target)
  | later rest =>
    -- The header stays blank until the last program, so nothing torn before it can be read.
    have erased : ((FlashStep.erase (store.slotOff target)).apply before).Blank
        (store.slotOff target) AbHdr.size := erase_blank (by simp [AbHdr.size, Flash.sectorSize])
    have still_blank {flash : Flash} (same : ((FlashStep.erase (store.slotOff target)).apply
        before).SameOn flash (store.slotOff target) AbHdr.size) :
        store.recordAt flash target = none := by
      refine recordAt_blank fun x above below => ?_
      obtain ⟨i, rfl⟩ := Nat.exists_eq_add_of_le above
      rw [(same i (by omega)).1]
      exact erased _ above below
    have payload_inside := payloadSteps_inside data aligned
    rcases FlashStep.interrupted_append rest with in_payload | in_header
    · exact .inl (.inl (still_blank (FlashStep.interrupted_sameOn payload_inside in_payload (.inl (Nat.le_refl _)))))
    · have before_header := still_blank (FlashStep.run_sameOn payload_inside
        ((FlashStep.erase (store.slotOff target)).apply before) (.inl (Nat.le_refl _)))
      rw [header_steps] at in_header complete
      cases in_header with
      | between => exact .inl (.inl before_header)
      | inside _ torn =>
        have spoiled := torn.1 target
        rw [before_header, or_self] at spoiled
        exact .inl (.inl spoiled)
      | later finished =>
        cases finished with
        | between => exact .inr complete

theorem view_finishes_erase_slot {store : AbStore} {before after : Flash} {i : Fin 2}
    (step : store.device.finishes (.erase (store.slotOff i)) before after) :
    store.view after = (store.view before).setSlot i none := by
  obtain rfl : after = FlashStep.run [.erase (store.slotOff i)] before := step
  have empty : store.recordAt (FlashStep.run [.erase (store.slotOff i)] before) i = none :=
    recordAt_blank (erase_blank (by simp [AbHdr.size, Flash.sectorSize]))
  rw [← empty]
  exact view_of_slot_confined fun _ _ apart =>
    FlashStep.run_sameOn (erase_inside (store.slots_aligned i)) before apart

theorem view_tears_erase_slot {store : AbStore} {before after : Flash} {i : Fin 2}
    (step : store.device.tears (.erase (store.slotOff i)) before after) :
    ∃ record, Spoiled (store.recordAt before i) record ∧ store.view after = (store.view before).setSlot i record := by
  refine ⟨store.recordAt after i, ?_, view_of_slot_confined fun _ _ apart =>
    FlashStep.interrupted_sameOn (erase_inside (store.slots_aligned i)) step apart⟩
  change FlashStep.Interrupted store.Damaged [.erase (store.slotOff i)] before after at step
  cases step with
  | between => exact .inr rfl
  | inside _ torn => exact torn.1 i
  | later finished =>
    cases finished with
    | between => exact .inl (recordAt_blank (erase_blank (by simp [AbHdr.size, Flash.sectorSize])))

/-- A legacy sector that a power cut hit: every length reads as nothing or as before. -/
def LegacySpoiled (old legacy : Nat → Option (List Byte)) : Prop := ∀ len, legacy len = none ∨ legacy len = old len

theorem legacyRead_erased (store : AbStore) (flash : Flash) (len : Nat) :
    store.legacyRead (FlashStep.run [.erase store.legacyOff] flash) len = none := by
  rw [legacyRead]
  split
  · rfl
  · rename_i present
    cases read_eq : (FlashStep.run [.erase store.legacyOff] flash).readChecked store.legacyOff 4 with
    | none => rfl
    | some bytes =>
      have erased : bytes = List.replicate 4 0xFF := by
        simp only [Flash.readChecked, Option.ite_none_right_eq_some, Option.some.injEq] at read_eq
        rw [← read_eq.2, List.eq_replicate_iff]
        refine ⟨by simp, fun byte member => ?_⟩
        obtain ⟨i, within, rfl⟩ := List.mem_map.mp member
        have small := List.mem_range.mp within
        exact erase_blank (Nat.le_refl _) _ (Nat.le_add_right _ _) (by simp only [Flash.sectorSize]; omega)
      have blank_word : Endian.rd32 bytes = 0xFFFFFFFF := by
        rw [erased]
        decide
      have unwritten := store.legacyMagic_written present
      simp only [Option.bind_eq_bind, Option.bind_some, blank_word]
      rw [if_pos unwritten.symm]

theorem view_finishes_erase_legacy {store : AbStore} {before after : Flash}
    (present : store.legacyOff ≠ 0)
    (step : store.device.finishes (.erase store.legacyOff) before after) :
    store.view after = (store.view before).setLegacy fun _ => none := by
  obtain rfl : after = FlashStep.run [.erase store.legacyOff] before := step
  have confined : (FlashStep.erase store.legacyOff).Confined before
      (FlashStep.run [.erase store.legacyOff] before) := fun _ _ apart =>
    FlashStep.run_sameOn (erase_inside store.legacy_aligned) before apart
  rw [view_of_legacy_confined present confined]
  simp only [view, legacyRead_erased, ite_self]

theorem view_tears_erase_legacy {store : AbStore} {before after : Flash}
    (present : store.legacyOff ≠ 0)
    (step : store.device.tears (.erase store.legacyOff) before after) :
    ∃ legacy, LegacySpoiled (store.view before).legacy legacy ∧
      store.view after = (store.view before).setLegacy legacy := by
  refine ⟨(store.view after).legacy, ?_, view_of_legacy_confined present fun _ _ apart =>
    FlashStep.interrupted_sameOn (erase_inside store.legacy_aligned) step apart⟩
  change FlashStep.Interrupted store.Damaged [.erase store.legacyOff] before after at step
  intro len
  simp only [view]
  by_cases within : len ≤ Flash.sectorSize
  · rw [if_pos within, if_pos within]
    cases step with
    | between => exact .inr rfl
    | inside _ torn => exact torn.2 len within
    | later finished =>
      cases finished with
      | between => exact .inl (store.legacyRead_erased before len)
  · rw [if_neg within]
    exact .inl rfl

theorem readsBack_eq (store : AbStore) (flash : Flash) (target : Fin 2) (seq : Word)
    (data : List Byte) :
    store.readsBack flash target seq data =
      match store.recordAt flash target with
      | none => false
      | some (hdr, _) =>
        hdr.seq == seq && hdr.crc == (store.newHdr seq data).crc && store.slotPayloadEquals flash target data := by
  rw [readsBack, slotRead_eq_map]
  cases store.recordAt flash target <;> rfl

theorem writeRecord_done {store : AbStore} {before after : Flash} {target : Fin 2} {seq : Word}
    {data : List Byte} {rc : Int} (short : data.length ≤ store.storeMax)
    (fresh : ∀ record, store.recordAt before target = some record → record.1.seq ≠ seq)
    (execution : Exec store.device (store.writeRecord target seq data) before (.done rc) after) :
    rc = 0 ∧ store.view after =
        (store.view before).setSlot target (some (store.newHdr seq data, data)) ∨
      rc = -1 ∧ ∃ record, Spoiled (store.recordAt before target) record ∧
        store.view after = (store.view before).setSlot target record := by
  simp only [writeRecord, Exec.bind_done_iff, Exec.command_done_iff, Exec.inspect_done_iff] at execution
  obtain ⟨_, middle, step, verified, _, ⟨rfl, rfl⟩, returned⟩ := execution
  obtain ⟨rfl, rfl⟩ := Exec.ret_done_iff.mp returned
  have slot_eq {record} (view_eq : store.view after = (store.view before).setSlot target record) :
      store.recordAt after target = record := by
    rw [← view_slot, view_eq, View.setSlot_slot_self]
  rcases view_finishes_write short step with view_eq | ⟨record, spoiled, view_eq⟩
  · left
    have record_eq := slot_eq view_eq
    obtain ⟨_, _, _, _, _, read_eq, _⟩ := recordAt_eq_some.mp record_eq
    rw [newHdr_len short] at read_eq
    have payload_eq := slotPayloadEquals_iff.mpr read_eq
    refine ⟨?_, view_eq⟩
    rw [readsBack_eq, record_eq]
    simp [newHdr, payload_eq]
  · right
    refine ⟨?_, record, spoiled, view_eq⟩
    rw [readsBack_eq, slot_eq view_eq]
    rcases spoiled with rfl | rfl
    · rfl
    · cases old_eq : store.recordAt before target with
      | none => rfl
      | some old => simp [fresh old old_eq]

theorem writeRecord_exec (store : AbStore) (flash : Flash) (target : Fin 2) (seq : Word)
    {data : List Byte} (short : data.length ≤ store.storeMax) :
    Exec store.device (store.writeRecord target seq data) flash (.done 0)
      (FlashStep.run (store.recordSteps target seq data) flash) := by
  have record_eq := store.recordAt_recordSteps flash target seq short
  obtain ⟨_, _, _, _, _, read_eq, _⟩ := recordAt_eq_some.mp record_eq
  rw [newHdr_len short] at read_eq
  have verified : store.readsBack (FlashStep.run (store.recordSteps target seq data) flash) target seq data = true := by
    rw [readsBack_eq, record_eq]
    simp [newHdr, slotPayloadEquals_iff.mpr read_eq]
  rw [writeRecord, Exec.bind_done_iff]
  refine ⟨(), _, Exec.command_done_iff.mpr (.inl rfl), ?_⟩
  rw [Exec.bind_done_iff]
  exact ⟨_, _, Exec.inspect_done_iff.mpr ⟨rfl, rfl⟩, Exec.ret_done_iff.mpr ⟨by rw [verified, if_pos rfl], rfl⟩⟩

theorem writeRecord_fails {store : AbStore} {flash : Flash} {target : Fin 2} (seq : Word)
    (data : List Byte) (empty : store.recordAt flash target = none) :
    Exec store.device (store.writeRecord target seq data) flash (.done (-1)) flash := by
  have unverified : store.readsBack flash target seq data = false := by rw [readsBack_eq, empty]
  rw [writeRecord, Exec.bind_done_iff]
  refine ⟨(), flash, Exec.command_done_iff.mpr (.inr ⟨fun _ _ _ => .refl _ _ _,
    fun _ => .inr rfl, fun _ _ => .inr rfl⟩), ?_⟩
  rw [Exec.bind_done_iff]
  exact ⟨_, _, Exec.inspect_done_iff.mpr ⟨rfl, rfl⟩, Exec.ret_done_iff.mpr ⟨by rw [unverified]; rfl, rfl⟩⟩

theorem writeRecord_cut {store : AbStore} {before after : Flash} {target : Fin 2} {seq : Word}
    {data : List Byte} (short : data.length ≤ store.storeMax)
    (execution : Exec store.device (store.writeRecord target seq data) before .cut after) :
    ∃ record, (Spoiled (store.recordAt before target) record ∨
        record = some (store.newHdr seq data, data)) ∧
      store.view after = (store.view before).setSlot target record := by
  have finished {flash : Flash} (step : store.device.finishes
      (.write target (store.recordSteps target seq data)) before flash) :
      ∃ record, (Spoiled (store.recordAt before target) record ∨ record = some (store.newHdr seq data, data)) ∧
        store.view flash = (store.view before).setSlot target record := by
    rcases view_finishes_write short step with view_eq | ⟨record, spoiled, view_eq⟩
    · exact ⟨_, .inr rfl, view_eq⟩
    · exact ⟨record, .inl spoiled, view_eq⟩
  rw [writeRecord, Exec.bind_cut_iff, Exec.command_cut_iff] at execution
  rcases execution with (rfl | step | step) | ⟨_, middle, step, rest⟩
  · exact ⟨store.recordAt after target, .inl (.inr rfl), (View.setSlot_self _ _).symm⟩
  · exact view_tears_write short step
  · exact finished step
  · rw [Exec.bind_cut_iff, Exec.inspect_cut_iff] at rest
    rw [Exec.command_done_iff] at step
    rcases rest with rfl | ⟨verified, _, inspected, returned⟩
    · exact finished step
    · obtain ⟨rfl, rfl⟩ := Exec.inspect_done_iff.mp inspected
      obtain rfl := Exec.ret_cut_iff.mp returned
      exact finished step

end AbStore
end BenchPod.ConfigStore
