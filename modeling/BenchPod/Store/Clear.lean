import BenchPod.Store.PowerLoss

/-!
# Clears under power loss

A clear first makes the tombstone the newest record and then erases the other slot and the legacy
sector.  When the tombstone does not verify, the erases alone must clear the store; they empty the
slots before the legacy sector, so a cut between them uncovers whatever the legacy sector holds.
-/

namespace BenchPod.ConfigStore
namespace AbStore

theorem setSlot_setSlot (view : View) (i : Fin 2) (first second : Option (AbHdr × List Byte)) :
    (view.setSlot i first).setSlot i second = view.setSlot i second := by
  simp [View.setSlot]

theorem admits_tombstone (store : AbStore) : ([] : List Byte).length ≤ store.storeMax := Nat.zero_le _

theorem tombstone_done {store : AbStore} {before after : Flash} {rc : Int}
    (execution : Exec store.device (store.tombstone (newestSlot (store.scan before))) before
      (.done rc) after) :
    rc = 0 ∧ store.view after = store.put (store.view before) [] ∨
      rc = -1 ∧ store.view after = (store.view before).setSlot (store.view before).target none := by
  rw [tombstone, targetOf_scan, seqOf_scan, Exec.bind_done_iff] at execution
  obtain ⟨written, middle, write, rest⟩ := execution
  rcases writeRecord_done store.admits_tombstone (fun _ found => View.target_seq found) write with
    ⟨rfl, view_eq⟩ | ⟨rfl, record, -, view_eq⟩
  · left
    simp only [ne_eq, not_true_eq_false, if_false] at rest
    obtain ⟨rfl, rfl⟩ := Exec.ret_done_iff.mp rest
    exact ⟨rfl, view_eq⟩
  · right
    rw [if_pos (by decide)] at rest
    obtain ⟨_, erased, erase, returned⟩ := Exec.bind_done_iff.mp rest
    obtain ⟨rfl, rfl⟩ := Exec.ret_done_iff.mp returned
    refine ⟨rfl, ?_⟩
    rw [view_finishes_erase_slot (Exec.command_done_iff.mp erase), view_eq, setSlot_setSlot]

theorem tombstone_cut {store : AbStore} {before after : Flash}
    (execution : Exec store.device (store.tombstone (newestSlot (store.scan before))) before .cut
      after) :
    TargetSpoiled (store.view before) (store.view after) ∨ store.view after = store.put (store.view before) [] := by
  rw [tombstone, targetOf_scan, seqOf_scan, Exec.bind_cut_iff] at execution
  rcases execution with write | ⟨written, middle, write, rest⟩
  · obtain ⟨record, spoiled | rfl, view_eq⟩ := writeRecord_cut store.admits_tombstone write
    · exact .inl ⟨record, spoiled, view_eq⟩
    · exact .inr view_eq
  · rcases writeRecord_done store.admits_tombstone (fun _ found => View.target_seq found) write
      with ⟨rfl, view_eq⟩ | ⟨rfl, record, spoiled, view_eq⟩
    · simp only [ne_eq, not_true_eq_false, if_false] at rest
      obtain rfl := Exec.ret_cut_iff.mp rest
      exact .inr view_eq
    · left
      rw [if_pos (by decide)] at rest
      have slot_eq : store.recordAt middle (store.view before).target = record := by
        rw [← view_slot, view_eq, View.setSlot_slot_self]
      have emptied {state : Flash} (step : store.device.finishes
          (.erase (store.slotOff (store.view before).target)) middle state) :
          TargetSpoiled (store.view before) (store.view state) := by
        refine ⟨none, .inl rfl, ?_⟩
        rw [view_finishes_erase_slot step, view_eq, setSlot_setSlot]
      rcases Exec.bind_cut_iff.mp rest with erase | ⟨_, _, erase, returned⟩
      · rcases Exec.command_cut_iff.mp erase with rfl | torn | step
        · exact ⟨record, spoiled, view_eq⟩
        · obtain ⟨remains, torn_spoiled, torn_eq⟩ := view_tears_erase_slot torn
          refine ⟨remains, ?_, by rw [torn_eq, view_eq, setSlot_setSlot]⟩
          rcases torn_spoiled with rfl | rfl
          · exact .inl rfl
          · rwa [slot_eq]
        · exact emptied step
      · obtain rfl := Exec.ret_cut_iff.mp returned
        exact emptied (Exec.command_done_iff.mp erase)

theorem legacy_absent {store : AbStore} (absent : store.legacyOff = 0) (flash : Flash) :
    (store.view flash).legacy = fun _ => none := by
  funext len
  simp [view, legacyRead, absent]

theorem wipe_done {store : AbStore} {newest : Option (Fin 2 × AbHdr)} {before after : Flash}
    {result : Unit}
    (execution : Exec store.device (store.wipe newest) before (.done result) after) :
    store.view after = ((store.view before).setSlot (1 - targetOf newest) none).setLegacy fun _ => none := by
  rw [wipe, Exec.bind_done_iff] at execution
  obtain ⟨_, middle, erase, rest⟩ := execution
  have other_eq := view_finishes_erase_slot (Exec.command_done_iff.mp erase)
  rw [← other_eq]
  split at rest
  · rename_i present
    exact view_finishes_erase_legacy present (Exec.command_done_iff.mp rest)
  · rename_i absent
    obtain ⟨-, rfl⟩ := Exec.ret_done_iff.mp rest
    rw [← legacy_absent (not_not.mp absent) after, View.setLegacy_self]

theorem wipe_cut {store : AbStore} {newest : Option (Fin 2 × AbHdr)} {before after : Flash}
    (execution : Exec store.device (store.wipe newest) before .cut after) :
    ∃ record legacy, Spoiled (store.recordAt before (1 - targetOf newest)) record ∧
      LegacySpoiled (store.view before).legacy legacy ∧
      store.view after = ((store.view before).setSlot (1 - targetOf newest) record).setLegacy legacy := by
  have unspoiled (legacy : Nat → Option (List Byte)) : LegacySpoiled legacy legacy := fun _ => .inr rfl
  have emptied {state : Flash} (step : store.device.finishes
      (.erase (store.slotOff (1 - targetOf newest))) before state) :
      store.view state = (store.view before).setSlot (1 - targetOf newest) none :=
    view_finishes_erase_slot step
  rw [wipe, Exec.bind_cut_iff, Exec.command_cut_iff] at execution
  rcases execution with (rfl | torn | step) | ⟨_, middle, erase, rest⟩
  · exact ⟨_, _, .inr rfl, unspoiled _, by
      rw [← view_slot, View.setSlot_self, View.setLegacy_self]⟩
  · obtain ⟨record, spoiled, view_eq⟩ := view_tears_erase_slot torn
    exact ⟨record, _, spoiled, unspoiled _, view_eq⟩
  · exact ⟨none, _, .inl rfl, unspoiled _, emptied step⟩
  · have middle_eq := emptied (Exec.command_done_iff.mp erase)
    split at rest
    · rename_i present
      rcases Exec.command_cut_iff.mp rest with rfl | torn | step
      · exact ⟨none, _, .inl rfl, unspoiled _, middle_eq⟩
      · obtain ⟨legacy, spoiled, view_eq⟩ := view_tears_erase_legacy present torn
        rw [middle_eq] at spoiled view_eq
        exact ⟨none, legacy, .inl rfl, spoiled, view_eq⟩
      · have view_eq := view_finishes_erase_legacy present step
        rw [middle_eq] at view_eq
        exact ⟨none, _, .inl rfl, fun _ => .inl rfl, view_eq⟩
    · obtain rfl := Exec.ret_cut_iff.mp rest
      exact ⟨none, _, .inl rfl, unspoiled _, middle_eq⟩

/-- How one clear ended. -/
inductive ClearEvent where
  /-- It returned. -/
  | finished (rc : Int)
  /-- The power was lost before the first erase of the wipe began. -/
  | cutTombstone
  /-- The power was lost in the wipe, which the tombstone's read-back entered with `rc`. -/
  | cutWipe (rc : Int)

/-- One clear, by how it ended. -/
def ClearStep (store : AbStore) (before : Flash) (event : ClearEvent) (after : Flash) : Prop :=
  match event with
  | .finished rc => Exec store.device store.clear before (.done rc) after
  | .cutTombstone => Exec store.device (store.tombstone (newestSlot (store.scan before))) before .cut after
  | .cutWipe rc =>
    ∃ middle, Exec store.device (store.tombstone (newestSlot (store.scan before))) before
        (.done rc) middle ∧
      Exec store.device (store.wipe (newestSlot (store.scan before))) middle .cut after

theorem clear_done_iff {store : AbStore} {before after : Flash} {rc : Int} :
    Exec store.device store.clear before (.done rc) after ↔
      ∃ middle, Exec store.device (store.tombstone (newestSlot (store.scan before))) before
          (.done rc) middle ∧
        Exec store.device (store.wipe (newestSlot (store.scan before))) middle (.done ()) after := by
  rw [clear, Exec.read_iff, Exec.bind_done_iff]
  constructor
  · rintro ⟨_, middle, first, rest⟩
    obtain ⟨⟨⟩, _, second, returned⟩ := Exec.bind_done_iff.mp rest
    obtain ⟨rfl, rfl⟩ := Exec.ret_done_iff.mp returned
    exact ⟨middle, first, second⟩
  · rintro ⟨middle, first, second⟩
    exact ⟨rc, middle, first, Exec.bind_done_iff.mpr ⟨(), after, second, .ret⟩⟩

theorem clear_cut_iff {store : AbStore} {before after : Flash} :
    Exec store.device store.clear before .cut after ↔
      store.ClearStep before .cutTombstone after ∨
        (∃ rc, store.ClearStep before (.cutWipe rc) after) ∨ ∃ rc, store.ClearStep before (.finished rc) after := by
  rw [clear, Exec.read_iff, Exec.bind_cut_iff]
  constructor
  · rintro (first | ⟨rc, middle, first, rest⟩)
    · exact .inl first
    · rcases Exec.bind_cut_iff.mp rest with second | ⟨⟨⟩, _, second, returned⟩
      · exact .inr (.inl ⟨rc, middle, first, second⟩)
      · obtain rfl := Exec.ret_cut_iff.mp returned
        exact .inr (.inr ⟨rc, clear_done_iff.mpr ⟨middle, first, second⟩⟩)
  · rintro (first | ⟨rc, middle, first, second⟩ | ⟨rc, whole⟩)
    · exact .inl first
    · exact .inr ⟨rc, middle, first, Exec.bind_cut_iff.mpr (.inl second)⟩
    · obtain ⟨middle, first, second⟩ := clear_done_iff.mp whole
      exact .inr ⟨rc, middle, first,
        Exec.bind_cut_iff.mpr (.inr ⟨(), after, second, Exec.ret_cut_iff.mpr rfl⟩)⟩

/-- The flash no longer yields anything but what it yielded before. -/
def Forgets (store : AbStore) (before after : Flash) : Prop :=
  ∀ len, len ≤ Flash.sectorSize → store.load after len = none ∨ store.load after len = store.load before len

/-- The legacy sector holds nothing that a load would not return anyway. -/
def LegacyHarmless (store : AbStore) (flash : Flash) : Prop :=
  ∀ len, len ≤ Flash.sectorSize → store.legacyRead flash len = none ∨ store.legacyRead flash len = store.load flash len

/-- The power is not lost in the wipe of a clear whose tombstone failed its read-back, unless the
legacy sector is harmless. -/
def WipeGuarded (store : AbStore) (before : Flash) : ClearEvent → Prop
  | .cutWipe rc => rc = 0 ∨ store.LegacyHarmless before
  | _ => True

theorem view_legacy {store : AbStore} {flash : Flash} {len : Nat}
    (within : len ≤ Flash.sectorSize) :
    (store.view flash).legacy len = store.legacyRead flash len := by simp [view, within]

theorem load_tombstone {store : AbStore} {flash : Flash} {n : Fin 2} {hdr : AbHdr}
    (newest_eq : (store.view flash).newest = some (n, hdr, [])) (len : Nat) :
    store.load flash len = none := by
  rw [store.load_eq flash (.inr (by simp [newest_eq])), View.load, newest_eq]
  have length_eq : ([] : List Byte).length = hdr.len := recordAt_length (View.newest_slot newest_eq)
  exact if_pos length_eq.symm

theorem load_of_newest {store : AbStore} {before after : Flash}
    (newest_eq : (store.view after).newest = (store.view before).newest)
    (legacy : LegacySpoiled (store.view before).legacy (store.view after).legacy) :
    store.Forgets before after := by
  intro len within
  rw [store.load_eq after (.inl within), store.load_eq before (.inl within), View.load, View.load, newest_eq]
  cases (store.view before).newest with
  | none => exact legacy len
  | some found => exact .inr rfl

theorem load_of_empty {store : AbStore} {flash : Flash} (empty : (store.view flash).newest = none)
    {len : Nat} (within : len ≤ Flash.sectorSize) :
    store.load flash len = (store.view flash).legacy len := by
  rw [store.load_eq flash (.inl within), View.load, empty]

theorem put_wiped_newest (store : AbStore) (view : View) (data : List Byte)
    {record : Option (AbHdr × List Byte)}
    (spoiled : Spoiled ((store.put view data).slot (1 - view.target)) record) :
    ((store.put view data).setSlot (1 - view.target) record).newest =
      some (view.target, store.newHdr view.nextSeq data, data) := by
  rcases spoiled with rfl | rfl
  · refine View.newest_of_single (View.setSlot_slot_self ..) ?_
    rw [View.setSlot_slot_of_ne _ (View.other_ne _).symm, put, View.setSlot_slot_self]
  · rw [View.setSlot_self, put_newest]

theorem emptied_newest (view : View) :
    ((view.setSlot view.target none).setSlot (1 - view.target) none).newest = none := by
  rw [View.newest_eq_none]
  intro i
  by_cases other : i = 1 - view.target
  · rw [other, View.setSlot_slot_self]
  · have same : i = view.target := by omega
    rw [View.setSlot_slot_of_ne _ other, same, View.setSlot_slot_self]

/-- A guarded clear never brings anything back. -/
theorem clear_step_forgets {store : AbStore} {before after : Flash} {event : ClearEvent}
    (guarded : store.WipeGuarded before event)
    (step : store.ClearStep before event after) : store.Forgets before after := by
  cases event with
  | finished rc =>
    obtain ⟨middle, first, second⟩ := clear_done_iff.mp step
    have view_eq := wipe_done second
    rw [targetOf_scan] at view_eq
    intro len within
    left
    rcases tombstone_done first with ⟨-, middle_eq⟩ | ⟨-, middle_eq⟩
    · have newest_eq := store.put_wiped_newest (store.view before) [] (.inl rfl)
      rw [← middle_eq, ← View.newest_setLegacy _ fun _ => none, ← view_eq] at newest_eq
      exact load_tombstone newest_eq len
    · have empty : (store.view after).newest = none := by
        rw [view_eq, middle_eq, View.newest_setLegacy]
        exact emptied_newest _
      rw [load_of_empty empty within, view_eq, View.setLegacy_legacy]
  | cutTombstone =>
    rcases tombstone_cut step with spoiled | view_eq
    · exact load_of_newest spoiled.newest_eq fun _ => .inr (congrFun spoiled.legacy_eq _)
    · exact fun len _ => .inl (load_tombstone (view_eq ▸ store.put_newest _ []) len)
  | cutWipe rc =>
    obtain ⟨middle, first, second⟩ := step
    obtain ⟨record, legacy, spoiled, legacy_spoiled, view_eq⟩ := wipe_cut second
    rw [targetOf_scan] at spoiled view_eq
    rw [← view_slot] at spoiled
    rcases tombstone_done first with ⟨-, middle_eq⟩ | ⟨rfl, middle_eq⟩
    · rw [middle_eq] at view_eq spoiled
      have newest_eq := store.put_wiped_newest (store.view before) [] spoiled
      rw [← View.newest_setLegacy _ legacy, ← view_eq] at newest_eq
      exact fun len _ => .inl (load_tombstone newest_eq len)
    · rw [middle_eq] at view_eq spoiled legacy_spoiled
      have legacy_eq : (store.view after).legacy = legacy := by rw [view_eq, View.setLegacy_legacy]
      rcases spoiled with rfl | rfl
      · intro len within
        have empty : (store.view after).newest = none := by
          rw [view_eq, View.newest_setLegacy]
          exact emptied_newest _
        rw [load_of_empty empty within, legacy_eq]
        rcases legacy_spoiled len with gone | kept
        · exact .inl gone
        · rw [kept, View.setSlot_legacy, view_legacy within]
          exact guarded.resolve_left (by decide) len within
      · rw [View.setSlot_self] at view_eq
        refine load_of_newest ?_ (legacy_eq ▸ legacy_spoiled)
        rw [view_eq, View.newest_setLegacy]
        exact View.newest_setSlot_none _

theorem clear_step_ordered {store : AbStore} {before after : Flash} {event : ClearEvent}
    (ordered : (store.view before).Ordered) (step : store.ClearStep before event after) :
    (store.view after).Ordered := by
  cases event with
  | finished rc =>
    obtain ⟨middle, -, second⟩ := clear_done_iff.mp step
    rw [wipe_done second]
    exact View.ordered_of_none (View.setSlot_slot_self ..)
  | cutTombstone =>
    rcases tombstone_cut step with spoiled | view_eq
    · exact spoiled.ordered ordered
    · rw [view_eq]
      exact store.put_ordered _ _
  | cutWipe rc =>
    obtain ⟨middle, first, second⟩ := step
    have middle_ordered : (store.view middle).Ordered := by
      rcases tombstone_done first with ⟨-, middle_eq⟩ | ⟨-, middle_eq⟩
      · rw [middle_eq]
        exact store.put_ordered _ _
      · rw [middle_eq]
        exact View.ordered_of_none (View.setSlot_slot_self ..)
    obtain ⟨record, legacy, rfl | rfl, -, view_eq⟩ := wipe_cut second
    · rw [view_eq]
      exact View.ordered_of_none (View.setSlot_slot_self ..)
    · rw [view_eq, ← view_slot, View.setSlot_self]
      exact middle_ordered

/-- Everything the firmware does to a store. -/
inductive StoreEvent where
  | save (event : SaveEvent (List Byte))
  | clear (event : ClearEvent)

/-- One save or clear, by how it ended. -/
def StoreStep (store : AbStore) (before : Flash) (event : StoreEvent) (after : Flash) : Prop :=
  match event with
  | .save event => store.SaveStep before event after
  | .clear event => store.ClearStep before event after

theorem store_run_ordered {store : AbStore} {before after : Flash} {events : List StoreEvent}
    (ordered : (store.view before).Ordered) (run : Run store.StoreStep before events after) :
    (store.view after).Ordered := by
  refine run.invariant (fun _ => True) (fun flash => (store.view flash).Ordered) (fun _ _ => trivial) ?_ ordered
  rintro source (event | event) target - good step
  · obtain ⟨_, -, represents⟩ := save_step_register (represents_view good) step
    exact represents.ordered
  · exact clear_step_ordered good step

/-- One clear whose wipe is guarded. -/
def GuardedClearStep (store : AbStore) (before : Flash) (event : ClearEvent) (after : Flash) : Prop :=
  store.ClearStep before event after ∧ store.WipeGuarded before event

theorem Forgets.trans {store : AbStore} {before middle after : Flash}
    (first : store.Forgets before middle) (second : store.Forgets middle after) :
    store.Forgets before after := by
  intro len within
  rcases second len within with gone | kept
  · exact .inl gone
  · rw [kept]
    exact first len within

/-- From every flash that saves and clears can reach, a run of guarded clears, cut anywhere, leaves
nothing to load but what was current when it began. -/
theorem clear_run_forgets (store : AbStore) {start before after : Flash}
    {history : List StoreEvent} {clears : List ClearEvent}
    (initial : store.recordAt start 0 = none ∨ store.recordAt start 1 = none)
    (reached : Run store.StoreStep start history before)
    (run : Run store.GuardedClearStep before clears after) : store.Forgets before after := by
  have start_ordered : (store.view start).Ordered :=
    initial.elim (fun empty => View.ordered_of_none empty) fun empty => View.ordered_of_none empty
  have before_ordered := store_run_ordered start_ordered reached
  have both : (store.view after).Ordered ∧ store.Forgets before after := by
    refine run.invariant (fun _ => True)
      (fun flash => (store.view flash).Ordered ∧ store.Forgets before flash)
      (fun _ _ => trivial) ?_ ⟨before_ordered, fun _ _ => .inr rfl⟩
    rintro source event target - ⟨ordered, forgets⟩ ⟨step, guarded⟩
    exact ⟨clear_step_ordered ordered step,
      forgets.trans (clear_step_forgets guarded step)⟩
  exact both.2

theorem clear_exec (store : AbStore) (flash : Flash) : ∃ after, Exec store.device store.clear flash (.done 0) after := by
  have written := store.writeRecord_exec flash (targetOf (newestSlot (store.scan flash)))
    (seqOf (newestSlot (store.scan flash))) store.admits_tombstone
  have first : Exec store.device (store.tombstone (newestSlot (store.scan flash))) flash (.done 0) _ :=
    Exec.bind_done_iff.mpr ⟨0, _, written, .ret⟩
  have wiped (newest) (middle : Flash) : ∃ after, Exec store.device (store.wipe newest) middle (.done ()) after := by
    rw [wipe]
    simp only [Exec.bind_done_iff]
    split
    · exact ⟨_, (), _, Exec.command_done_iff.mpr rfl, Exec.command_done_iff.mpr rfl⟩
    · exact ⟨_, (), _, Exec.command_done_iff.mpr rfl, .ret⟩
  obtain ⟨after, second⟩ := wiped (newestSlot (store.scan flash)) _
  exact ⟨after, clear_done_iff.mpr ⟨_, first, second⟩⟩

theorem legacyRead_written (store : AbStore) (rest : List Byte) (present : store.legacyOff ≠ 0) :
    store.legacyRead (Flash.erased.written store.legacyOff (Endian.le32 store.legacyMagic ++ rest))
      (4 + rest.length) = some (Endian.le32 store.legacyMagic ++ rest) := by
  have clean (count : Nat) : Flash.erased.clean store.legacyOff count = true := Flash.clean_eq_true.mpr fun _ _ => rfl
  have whole := Flash.readChecked_written (clean (Endian.le32 store.legacyMagic ++ rest).length)
  rw [List.length_append, Endian.le32_length] at whole
  have front : (Flash.erased.written store.legacyOff
      (Endian.le32 store.legacyMagic ++ rest)).readChecked store.legacyOff 4 = some (Endian.le32 store.legacyMagic) := by
    rw [← Flash.written_append, (Flash.written_sameOn _ _ _
      (.inl (by simp))).readChecked_eq, ← Endian.le32_length store.legacyMagic]
    exact Flash.readChecked_written (clean _)
  simp [legacyRead, present, front, whole]

theorem tombstone_fails (store : AbStore) (flash : Flash)
    (empty : store.recordAt flash (store.view flash).target = none) :
    Exec store.device (store.tombstone (newestSlot (store.scan flash))) flash (.done (-1))
      (FlashStep.run [.erase (store.slotOff (store.view flash).target)] flash) := by
  rw [tombstone, targetOf_scan, Exec.bind_done_iff]
  refine ⟨-1, flash, writeRecord_fails _ _ empty, ?_⟩
  rw [if_pos (by decide)]
  exact Exec.bind_done_iff.mpr ⟨(), _, Exec.command_done_iff.mpr rfl, .ret⟩

theorem wipe_cut_between (store : AbStore) (newest : Option (Fin 2 × AbHdr)) (flash : Flash) :
    Exec store.device (store.wipe newest) flash .cut
      (FlashStep.run [.erase (store.slotOff (1 - targetOf newest))] flash) := by
  rw [wipe, Exec.bind_cut_iff]
  exact .inl (Exec.command_cut_iff.mpr (.inr (.inr rfl)))

end AbStore

/-- A Wi-Fi configuration image: magic, version and 160 more bytes. -/
def configImage (fill : Byte) : List Byte := Endian.le32 0xC0FFEE01 ++ (Endian.le32 1 ++ List.replicate 160 fill)

theorem configImage_length (fill : Byte) : (configImage fill).length = 168 := by
  rw [configImage, List.length_append, List.length_append, Endian.le32_length, Endian.le32_length, List.length_replicate]

theorem configImage_admits (fill : Byte) : wifiStore.Admits (configImage fill) := by
  rw [AbStore.Admits, configImage_length]
  decide

theorem configImage_injective {first second : Byte}
    (same : configImage first = configImage second) : first = second := by
  have tail := List.append_cancel_left (List.append_cancel_left same)
  exact (List.replicate_inj.mp tail).2.resolve_left (by decide)

/-- A pod that still carries a configuration in the legacy sector. -/
def legacyPod : Flash := Flash.erased.written wifiStore.legacyOff (configImage 1)

theorem legacyPod_empty (i : Fin 2) : wifiStore.recordAt legacyPod i = none := by
  rw [legacyPod, AbStore.recordAt_sameOn (Flash.written_sameOn _ _ _ ?_)]
  · exact AbStore.recordAt_blank (Flash.erased_blank _ _)
  · obtain rfl | rfl : i = 0 ∨ i = 1 := by omega
    all_goals exact .inl (by decide)

theorem legacyPod_legacy : (wifiStore.view legacyPod).legacy 168 = some (configImage 1) := by
  rw [AbStore.view_legacy (by decide)]
  have read := wifiStore.legacyRead_written (Endian.le32 1 ++ List.replicate 160 1) (by decide)
  rw [List.length_append, Endian.le32_length, List.length_replicate] at read
  exact read

/-- The legacy configuration, a save over it and an undisturbed clear. -/
theorem clear_run_forgets_pod :
    ∃ before after, Run wifiStore.StoreStep legacyPod [.save (.saved (configImage 2))] before ∧
      Run wifiStore.GuardedClearStep before [.finished 0] after ∧ wifiStore.Forgets before after := by
  obtain ⟨before, saved⟩ := wifiStore.save_exec legacyPod (configImage_admits 2)
  obtain ⟨after, cleared⟩ := wifiStore.clear_exec before
  have reached : Run wifiStore.StoreStep legacyPod [.save (.saved (configImage 2))] before := .cons saved .nil
  have run : Run wifiStore.GuardedClearStep before [.finished 0] after := .cons ⟨cleared, trivial⟩ .nil
  exact ⟨before, after, reached, run,
    AbStore.clear_run_forgets wifiStore (.inl (legacyPod_empty 0)) reached run⟩

/-- A saved configuration replaced the legacy one; the tombstone of a clear fails its read-back and
the power is lost before the legacy sector is erased: the legacy configuration is back. -/
theorem clear_resurrects_legacy :
    ∃ before after, Run wifiStore.StoreStep legacyPod [.save (.saved (configImage 2))] before ∧
      Exec wifiStore.device wifiStore.clear before .cut after ∧
      wifiStore.load before 168 = some (configImage 2) ∧
      wifiStore.load after 168 = some (configImage 1) ∧ ¬wifiStore.Forgets before after := by
  have start_empty : (wifiStore.view legacyPod).newest = none := View.newest_eq_none.mpr legacyPod_empty
  have start_ordered : (wifiStore.view legacyPod).Ordered := View.ordered_of_none (legacyPod_empty 0)
  have start_target : (wifiStore.view legacyPod).target = 0 := by rw [View.target, start_empty]
  obtain ⟨before, saved⟩ := wifiStore.save_exec legacyPod (configImage_admits 2)
  have before_eq : wifiStore.view before = wifiStore.put (wifiStore.view legacyPod) (configImage 2) := by
    rcases AbStore.save_done saved with ⟨failed, -⟩ | ⟨-, -, ⟨-, same⟩ | view_eq⟩
    · exact absurd failed (by decide)
    · obtain ⟨_, _, newest_eq, -⟩ := (wifiStore.unchanged_iff _ _).mp same
      rw [start_empty] at newest_eq
      cases newest_eq
    · exact view_eq
  have before_target : (wifiStore.view before).target = 1 := by
    rw [View.target, before_eq, AbStore.put_newest, start_target]
    rfl
  have other_empty : wifiStore.recordAt before 1 = none := by
    rw [← AbStore.view_slot, before_eq, AbStore.put, start_target,
      View.setSlot_slot_of_ne _ (by decide)]
    exact legacyPod_empty 1
  have loaded : wifiStore.load before 168 = some (configImage 2) := by
    have current := AbStore.put_current (wifiStore.view legacyPod) (configImage_admits 2)
    rw [← before_eq] at current
    have loads := (AbStore.loads_of_current current (configImage_admits 2).1).1
    rwa [configImage_length] at loads
  have first := wifiStore.tombstone_fails before
    (by rw [before_target]; exact other_empty)
  have second := wifiStore.wipe_cut_between (AbStore.newestSlot (wifiStore.scan before))
    (FlashStep.run [.erase (wifiStore.slotOff (wifiStore.view before).target)] before)
  have cut : wifiStore.ClearStep before (.cutWipe (-1)) _ := ⟨_, first, second⟩
  rw [AbStore.targetOf_scan, before_target] at cut
  have after_eq : wifiStore.view (FlashStep.run [.erase (wifiStore.slotOff (1 - 1))]
      (FlashStep.run [.erase (wifiStore.slotOff 1)] before)) =
        ((wifiStore.view before).setSlot 1 none).setSlot (1 - 1) none := by
    have erased (middle : Flash) (i : Fin 2) :
        wifiStore.view (FlashStep.run [.erase (wifiStore.slotOff i)] middle) =
          (wifiStore.view middle).setSlot i none := AbStore.view_finishes_erase_slot rfl
    rw [erased, erased]
  have emptied := AbStore.emptied_newest (wifiStore.view before)
  rw [before_target, ← after_eq] at emptied
  have resurrected : wifiStore.load (FlashStep.run [.erase (wifiStore.slotOff (1 - 1))]
      (FlashStep.run [.erase (wifiStore.slotOff 1)] before)) 168 = some (configImage 1) := by
    rw [AbStore.load_of_empty emptied (by decide), after_eq, before_eq]
    exact legacyPod_legacy
  refine ⟨before, _, .cons saved .nil, ?_, loaded, resurrected, fun forgets => ?_⟩
  · exact AbStore.clear_cut_iff.mpr (.inr (.inl ⟨-1, cut⟩))
  · rcases forgets 168 (by decide) with gone | kept
    · rw [resurrected] at gone
      cases gone
    · rw [resurrected, loaded, Option.some.injEq] at kept
      exact absurd (configImage_injective kept) (by decide)

end BenchPod.ConfigStore
