import BenchPod.Library.CrashRegister
import BenchPod.Store.View

/-!
# Saves under power loss

A save replaces the slot that does not hold the newest record, so until its header lands the newest
record is untouched.  Runs of saves, cut anywhere, therefore refine an atomic register; the serial
numbers of two valid slots stay one apart, which keeps the signed comparison of a load right across
any number of saves and across the wrap of the counter.
-/

namespace BenchPod.ConfigStore

/-- The newest record's version and payload. -/
def View.current (view : View) : Option (Word × List Byte) := view.newest.map fun found => (found.2.1.ver, found.2.2)

namespace AbStore

/-- A payload `ab_store_save` does not refuse outright. -/
def Admits (store : AbStore) (data : List Byte) : Prop := data.length ≠ 0 ∧ data.length ≤ store.storeMax

instance (store : AbStore) (data : List Byte) : Decidable (store.Admits data) := inferInstanceAs (Decidable (_ ∧ _))

theorem refuses_iff {store : AbStore} {data : List Byte} :
    (data.length = 0 ∨ store.storeMax < data.length) ↔ ¬store.Admits data := by
  simp only [Admits]
  omega

/-- The view with one more record saved into it. -/
def put (store : AbStore) (view : View) (data : List Byte) : View :=
  view.setSlot view.target (some (store.newHdr view.nextSeq data, data))

/-- The view with the target of the next save spoiled. -/
def TargetSpoiled (before after : View) : Prop :=
  ∃ record, Spoiled (before.slot before.target) record ∧ after = before.setSlot before.target record

theorem TargetSpoiled.same (view : View) : TargetSpoiled view view :=
  ⟨view.slot view.target, .inr rfl, (view.setSlot_self _).symm⟩

theorem save_done {store : AbStore} {before after : Flash} {data : List Byte} {rc : Int}
    (execution : Exec store.device (store.save data) before (.done rc) after) :
    rc = -1 ∧ TargetSpoiled (store.view before) (store.view after) ∨
      rc = 0 ∧ store.Admits data ∧
        (after = before ∧ store.unchanged before data = true ∨
          store.view after = store.put (store.view before) data) := by
  rw [save] at execution
  split at execution
  · obtain ⟨rfl, rfl⟩ := Exec.ret_done_iff.mp execution
    exact .inl ⟨rfl, .same _⟩
  · rename_i admitted
    have admits : store.Admits data := not_not.mp fun refused => admitted (refuses_iff.mpr refused)
    rw [Exec.read_iff] at execution
    split at execution
    · rename_i unchanged
      obtain ⟨rfl, rfl⟩ := Exec.ret_done_iff.mp execution
      exact .inr ⟨rfl, admits, .inl ⟨rfl, unchanged⟩⟩
    · simp only [targetOf_scan, seqOf_scan] at execution
      rcases writeRecord_done admits.2 (fun _ found => View.target_seq found) execution with
        ⟨rfl, view_eq⟩ | ⟨rfl, record, spoiled, view_eq⟩
      · exact .inr ⟨rfl, admits, .inr view_eq⟩
      · exact .inl ⟨rfl, record, spoiled, view_eq⟩

theorem save_cut {store : AbStore} {before after : Flash} {data : List Byte}
    (execution : Exec store.device (store.save data) before .cut after) :
    TargetSpoiled (store.view before) (store.view after) ∨
      store.Admits data ∧ store.view after = store.put (store.view before) data := by
  rw [save] at execution
  split at execution
  · obtain rfl := Exec.ret_cut_iff.mp execution
    exact .inl (.same _)
  · rename_i admitted
    have admits : store.Admits data := not_not.mp fun refused => admitted (refuses_iff.mpr refused)
    rw [Exec.read_iff] at execution
    split at execution
    · obtain rfl := Exec.ret_cut_iff.mp execution
      exact .inl (.same _)
    · simp only [targetOf_scan, seqOf_scan] at execution
      obtain ⟨record, spoiled | rfl, view_eq⟩ := writeRecord_cut admits.2 execution
      · exact .inl ⟨record, spoiled, view_eq⟩
      · exact .inr ⟨admits, view_eq⟩

theorem save_exec (store : AbStore) (flash : Flash) {data : List Byte} (admits : store.Admits data) :
    ∃ after, Exec store.device (store.save data) flash (.done 0) after := by
  rw [save, if_neg (not_not.mpr admits ∘ refuses_iff.mp)]
  simp only [Exec.read_iff]
  split
  · exact ⟨flash, .ret⟩
  · exact ⟨_, store.writeRecord_exec flash _ _ admits.2⟩

theorem TargetSpoiled.newest_eq {before after : View} (spoiled : TargetSpoiled before after) :
    after.newest = before.newest := by
  obtain ⟨record, rfl | rfl, rfl⟩ := spoiled
  · exact before.newest_setSlot_none
  · rw [View.setSlot_self]

theorem TargetSpoiled.ordered {before after : View} (spoiled : TargetSpoiled before after)
    (ordered : before.Ordered) : after.Ordered := by
  obtain ⟨record, rfl | rfl, rfl⟩ := spoiled
  · exact View.ordered_of_none (View.setSlot_slot_self ..)
  · rwa [View.setSlot_self]

theorem TargetSpoiled.legacy_eq {before after : View} (spoiled : TargetSpoiled before after) :
    after.legacy = before.legacy := by
  obtain ⟨record, -, rfl⟩ := spoiled
  rfl

theorem put_newest (store : AbStore) (view : View) (data : List Byte) :
    (store.put view data).newest = some (view.target, store.newHdr view.nextSeq data, data) :=
  (view.newest_setSlot_some rfl).1

theorem put_ordered (store : AbStore) (view : View) (data : List Byte) : (store.put view data).Ordered :=
  (view.newest_setSlot_some (show (store.newHdr view.nextSeq data, data).1.seq = _ from rfl)).2

theorem put_current {store : AbStore} (view : View) {data : List Byte} (admits : store.Admits data) :
    (store.put view data).current = some (store.version.setWidth 32, data) := by
  rw [View.current, put_newest, Option.map_some, newHdr_ver admits.2]

theorem unchanged_current {store : AbStore} {flash : Flash} {data : List Byte}
    (unchanged : store.unchanged flash data = true) :
    (store.view flash).current = some (store.version.setWidth 32, data) := by
  obtain ⟨n, hdr, newest_eq, ver_eq⟩ := (store.unchanged_iff flash data).mp unchanged
  rw [View.current, newest_eq, Option.map_some, ver_eq]

/-- One attempt to save, by its outcome. -/
def SaveStep (store : AbStore) (before : Flash) (event : SaveEvent (List Byte)) (after : Flash) :
    Prop :=
  match event with
  | .saved data => Exec store.device (store.save data) before (.done 0) after
  | .refused data => Exec store.device (store.save data) before (.done (-1)) after
  | .interrupted data => Exec store.device (store.save data) before .cut after

/-- The register event a save amounts to; a payload that is not admitted is never stored. -/
def registerEvent (store : AbStore) : SaveEvent (List Byte) → SaveEvent (Option (Word × List Byte))
  | .interrupted data =>
    if store.Admits data then .interrupted (some (store.version.setWidth 32, data))
    else .refused none
  | event => event.map fun data => some (store.version.setWidth 32, data)

/-- A flash that represents a register value, over a fixed legacy sector. -/
structure Represents (store : AbStore) (legacy : Nat → Option (List Byte)) (flash : Flash)
    (value : Option (Word × List Byte)) : Prop where
  ordered : (store.view flash).Ordered
  legacy_eq : (store.view flash).legacy = legacy
  current_eq : (store.view flash).current = value

namespace Represents

variable {store : AbStore} {legacy : Nat → Option (List Byte)} {before after : Flash}
  {value : Option (Word × List Byte)} {data : List Byte}

theorem spoil (represents : store.Represents legacy before value)
    (spoiled : TargetSpoiled (store.view before) (store.view after)) :
    store.Represents legacy after value where
  ordered := spoiled.ordered represents.ordered
  legacy_eq := spoiled.legacy_eq.trans represents.legacy_eq
  current_eq := by rw [View.current, spoiled.newest_eq, ← View.current, represents.current_eq]

theorem store_put (represents : store.Represents legacy before value) (admits : store.Admits data)
    (view_eq : store.view after = store.put (store.view before) data) :
    store.Represents legacy after (some (store.version.setWidth 32, data)) where
  ordered := by
    rw [view_eq]
    exact store.put_ordered _ _
  legacy_eq := by
    rw [view_eq]
    exact represents.legacy_eq
  current_eq := by
    rw [view_eq]
    exact put_current _ admits

end Represents

theorem save_step_register {store : AbStore} {legacy : Nat → Option (List Byte)}
    {before after : Flash} {event : SaveEvent (List Byte)} {value : Option (Word × List Byte)}
    (represents : store.Represents legacy before value) (step : store.SaveStep before event after) :
    ∃ value', RegisterStep value (store.registerEvent event) value' ∧ store.Represents legacy after value' := by
  cases event with
  | saved data =>
    rcases save_done step with ⟨failed, -⟩ | ⟨-, admits, ⟨rfl, same⟩ | view_eq⟩
    · exact absurd failed (by decide)
    · exact ⟨_, .saved, represents.ordered, represents.legacy_eq, unchanged_current same⟩
    · exact ⟨_, .saved, represents.store_put admits view_eq⟩
  | refused data =>
    rcases save_done step with ⟨-, spoiled⟩ | ⟨succeeded, -⟩
    · exact ⟨value, .refused, represents.spoil spoiled⟩
    · exact absurd succeeded (by decide)
  | interrupted data =>
    simp only [registerEvent]
    rcases save_cut step with spoiled | ⟨admits, view_eq⟩
    · split
      · exact ⟨value, .kept, represents.spoil spoiled⟩
      · exact ⟨value, .refused, represents.spoil spoiled⟩
    · rw [if_pos admits]
      exact ⟨_, .landed, represents.store_put admits view_eq⟩

/-- A load returns exactly this payload, and nothing when asked for another length. -/
def Loads (store : AbStore) (flash : Flash) (payload : List Byte) : Prop :=
  store.load flash payload.length = some payload ∧ ∀ len, len ≠ payload.length → store.load flash len = none

/-- What a load returns for a register value over a legacy sector. -/
def currentLoad (version : Half) (legacy : Nat → Option (List Byte)) (len : Nat) :
    Option (Word × List Byte) → Option (List Byte)
  | none => legacy len
  | some (ver, payload) =>
    if payload.length = 0 then none
    else if ver ≠ version.setWidth 32 ∨ payload.length ≠ len then none
    else some payload

theorem load_current (store : AbStore) (flash : Flash) (len : Nat)
    (within : len ≤ Flash.sectorSize ∨ (store.view flash).current ≠ none) :
    store.load flash len = currentLoad store.version (store.view flash).legacy len (store.view flash).current := by
  rw [View.current] at *
  rw [store.load_eq flash (within.imp_right (by simp)), View.load]
  cases newest_eq : (store.view flash).newest with
  | none => rfl
  | some found =>
    obtain ⟨n, hdr, payload⟩ := found
    have length_eq : payload.length = hdr.len := recordAt_length (View.newest_slot newest_eq)
    simp only [Option.map_some, currentLoad, length_eq]

theorem loads_of_current {store : AbStore} {flash : Flash} {payload : List Byte}
    (current_eq : (store.view flash).current = some (store.version.setWidth 32, payload))
    (nonempty : payload.length ≠ 0) : store.Loads flash payload := by
  have load_eq (len : Nat) := store.load_current flash len (.inr (by simp [current_eq]))
  simp only [current_eq, currentLoad, nonempty, if_false, ne_eq, not_true_eq_false, false_or] at load_eq
  exact ⟨by simp [load_eq], fun len other => by rw [load_eq, if_pos (Ne.symm other)]⟩

theorem represents_view {store : AbStore} {flash : Flash} (ordered : (store.view flash).Ordered) :
    store.Represents (store.view flash).legacy flash (store.view flash).current :=
  ⟨ordered, rfl, rfl⟩

theorem run_register {store : AbStore} {before after : Flash} {events : List (SaveEvent (List Byte))}
    (ordered : (store.view before).Ordered) (run : Run store.SaveStep before events after) :
    ∃ value, Run RegisterStep (store.view before).current (events.map store.registerEvent) value ∧
      store.Represents (store.view before).legacy after value :=
  run.simulation save_step_register (represents_view ordered)

theorem registerEvent_saved {store : AbStore} {event : SaveEvent (List Byte)}
    {value : Option (Word × List Byte)} (event_eq : store.registerEvent event = .saved value) :
    ∃ data, event = .saved data := by
  cases event with
  | saved data => exact ⟨data, rfl⟩
  | refused data => cases event_eq
  | interrupted data =>
    simp only [registerEvent] at event_eq
    split at event_eq <;> cases event_eq

theorem interrupted_mem {store : AbStore} {events : List (SaveEvent (List Byte))}
    {value : Option (Word × List Byte)}
    (member : SaveEvent.interrupted value ∈ events.map store.registerEvent) :
    ∃ data, SaveEvent.interrupted data ∈ events ∧ store.Admits data ∧ value = some (store.version.setWidth 32, data) := by
  obtain ⟨event, event_mem, event_eq⟩ := List.mem_map.mp member
  cases event with
  | saved data => cases event_eq
  | refused data => cases event_eq
  | interrupted data =>
    simp only [registerEvent] at event_eq
    split at event_eq
    · rename_i admits
      exact ⟨data, event_mem, admits, (SaveEvent.interrupted.inj event_eq).symm⟩
    · cases event_eq

/-- The serial numbers of two valid slots are one apart and the scan picks the later one. -/
def SeqAdjacent (store : AbStore) (flash : Flash) : Prop :=
  ∀ record0 record1, store.recordAt flash 0 = some record0 → store.recordAt flash 1 = some record1 →
    record1.1.seq = record0.1.seq + 1 ∧ newestSlot (store.scan flash) = some (1, record1.1) ∨
      record0.1.seq = record1.1.seq + 1 ∧ newestSlot (store.scan flash) = some (0, record0.1)

theorem seqAdjacent_of_ordered {store : AbStore} {flash : Flash}
    (ordered : (store.view flash).Ordered) : store.SeqAdjacent flash := by
  intro record0 record1 record0_eq record1_eq
  rcases ordered record0 record1 record0_eq record1_eq with succ | succ
  · refine .inl ⟨succ, ?_⟩
    rw [newestSlot_scan, View.newest_of_succ (n := 1) record0_eq record1_eq succ]
    rfl
  · refine .inr ⟨succ, ?_⟩
    rw [newestSlot_scan, View.newest_of_succ (n := 0) record1_eq record0_eq succ]
    rfl

/-- Power-loss safety of saves: whatever saves ran and were cut, a load returns the payload of the
last completed save or of one interrupted since; before any completed save it may still return what
the flash held at first. -/
theorem save_run_atomic (store : AbStore) {before after : Flash}
    {events : List (SaveEvent (List Byte))}
    (initial : store.recordAt before 0 = none ∨ store.recordAt before 1 = none)
    (run : Run store.SaveStep before events after) :
    store.SeqAdjacent after ∧
      (∀ front data back, events = front ++ .saved data :: back →
        (∀ later, SaveEvent.saved later ∉ back) →
          ∃ payload, (payload = data ∨ SaveEvent.interrupted payload ∈ back) ∧
            store.Loads after payload) ∧
      ((∀ data, SaveEvent.saved data ∉ events) →
        (∀ len, len ≤ Flash.sectorSize → store.load after len = store.load before len) ∨
          ∃ payload, SaveEvent.interrupted payload ∈ events ∧ store.Loads after payload) := by
  have ordered : (store.view before).Ordered :=
    initial.elim (fun empty => View.ordered_of_none empty) fun empty => View.ordered_of_none empty
  obtain ⟨value, register_run, represents⟩ := run_register ordered run
  refine ⟨seqAdjacent_of_ordered represents.ordered, ?_, ?_⟩
  · rintro front data back rfl last
    obtain ⟨middle, front_run, rest⟩ := Run.append_iff.mp run
    obtain ⟨stored, saved_step, -⟩ := Run.cons_iff.mp rest
    obtain ⟨_, -, middle_represents⟩ := run_register ordered front_run
    have admits : store.Admits data := by
      rcases save_done saved_step with ⟨failed, -⟩ | ⟨-, admits, -⟩
      · exact absurd failed (by decide)
      · exact admits
    rw [List.map_append, List.map_cons] at register_run
    have unsaved (later) : SaveEvent.saved later ∉ back.map store.registerEvent := by
      intro member
      obtain ⟨event, event_mem, event_eq⟩ := List.mem_map.mp member
      obtain ⟨payload, rfl⟩ := registerEvent_saved event_eq
      exact last payload event_mem
    rcases RegisterStep.run_saved register_run unsaved with rfl | member
    · exact ⟨data, .inl rfl, loads_of_current represents.current_eq admits.1⟩
    · obtain ⟨payload, payload_mem, payload_admits, rfl⟩ := interrupted_mem member
      exact ⟨payload, .inr payload_mem, loads_of_current represents.current_eq payload_admits.1⟩
  · intro unsaved
    have register_unsaved (later) : SaveEvent.saved later ∉ events.map store.registerEvent := by
      intro member
      obtain ⟨event, event_mem, event_eq⟩ := List.mem_map.mp member
      obtain ⟨payload, rfl⟩ := registerEvent_saved event_eq
      exact unsaved payload event_mem
    rcases RegisterStep.run_unsaved register_run register_unsaved with rfl | member
    · left
      intro len within
      rw [store.load_current after _ (.inl within), store.load_current before _ (.inl within),
        represents.legacy_eq, represents.current_eq]
    · obtain ⟨payload, payload_mem, payload_admits, rfl⟩ := interrupted_mem member
      exact .inr ⟨payload, payload_mem, loads_of_current represents.current_eq payload_admits.1⟩

/-- A save on a blank flash, then one that is cut before its first flash step. -/
theorem save_run_atomic_blank :
    ∃ after, Run wifiStore.SaveStep Flash.erased [.saved [7], .interrupted [8]] after ∧
      ∃ payload, (payload = [7] ∨ SaveEvent.interrupted payload ∈ [SaveEvent.interrupted [8]]) ∧
        wifiStore.Loads after payload := by
  obtain ⟨after, saved⟩ := wifiStore.save_exec Flash.erased (show wifiStore.Admits [7] by decide)
  have run : Run wifiStore.SaveStep Flash.erased [.saved [7], .interrupted [8]] after := .cons saved (.cons .lost .nil)
  have atomic := wifiStore.save_run_atomic (.inl (recordAt_blank (Flash.erased_blank _ _))) run
  exact ⟨after, run, atomic.2.1 [] [7] [.interrupted [8]] rfl (by simp)⟩

end AbStore
end BenchPod.ConfigStore
