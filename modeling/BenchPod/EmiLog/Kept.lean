import BenchPod.EmiLog.Newest

/-!
# Runs of the run log

From an erased ring, whatever programs fail and whenever the ring is scanned again, the walk around the ring
stays in order and a scan finds the newest record, as long as no preparation reaches around to it.
-/

namespace BenchPod.EmiLog

/-- A try that fails leaves no record in its slot. -/
def Ring.Attempt.Spoils : Ring.Attempt → Prop
  | .stored => True
  | .failed content => emiLogDecode content = none

/-- What may happen while the newest record stays. -/
def Allowed (ring : Ring) : Event → Prop
  | .append _ first second => first.Spoils ∧ second.Spoils ∧ ring.l.nextSeq.toNat + 1 < 4294967296
  | .prepare minReady => ring.Spares (ring.wanted minReady)
  | .rescan => True

/-- The numbers of the good records, from the oldest slot to the newest. -/
def Ring.goodNumbers (ring : Ring) : List Nat :=
  (arc ring.l.slots ring.l.oldestSlot ring.l.slots).filterMap fun slot =>
    if ring.l.slotGood slot then (record ring.flash slot).map fun found => found.1.toNat else none

/-- The log is in order, counts its records and is found again by a scan. -/
structure Kept (ring : Ring) : Prop where
  order : Consecutive ring.goodNumbers ring.l.nextSeq.toNat
  valid_eq : ring.l.valid = ((List.range ring.l.slots).filter ring.l.good).length
  rescan : ∃ l, emiLogScan ring.flash (ring.l.slots / emiLogPerSector) = some l ∧ l.any = ring.l.any ∧
    l.nextSeq = ring.l.nextSeq ∧ (ring.l.any = true → l.newestSeq = ring.l.newestSeq ∧ l.newestRun = ring.l.newestRun)

/-- A preparation erases no sector that holds the newest record. -/
def SparesNewest (ring : Ring) (minReady : Nat) : Prop :=
  ∀ sector ∈ (ring.emiLogPrepare minReady).2, ∀ slot, ring.Newest slot → slot / emiLogPerSector ≠ sector

namespace Sound

variable {ring : Ring}

theorem append (sound : Sound ring) (r : EmiRec) {first second : Ring.Attempt} (first_spoils : first.Spoils)
    (second_spoils : second.Spoils) (numbered : ring.l.nextSeq.toNat + 1 < 4294967296) :
    Sound (ring.emiLogAppend r first second).1 := by
  rw [Ring.emiLogAppend]
  split
  · exact sound
  rename_i room
  cases first with
  | stored => exact sound.stored room numbered
  | failed content =>
    have after := sound.failed (r := r) room first_spoils
    have same : (ring.appendTry r (.failed content)).1.l.nextSeq = ring.l.nextSeq := rfl
    change Sound (if (ring.appendTry r (.failed content)).1.l.ready = 0 then _ else _ : Ring × Int).1
    split
    · exact after
    rename_i more
    cases second with
    | stored => exact after.stored more (same ▸ numbered)
    | failed content' => exact after.failed (r := r) more second_spoils

theorem prepare (sound : Sound ring) {minReady : Nat} (spares : ring.Spares (ring.wanted minReady)) :
    Sound (ring.emiLogPrepare minReady).1 ∧ SparesNewest ring minReady := by
  obtain ⟨sectors, two, _, slots_eq⟩ := sound.sectors
  have most : ring.wanted minReady + emiLogPerSector ≤ ring.l.slots := by
    simp only [Ring.wanted, slots_eq, emiLogPerSector]
    omega
  have kept := @Sound.prepareLoop ring (ring.wanted minReady) (ring.l.slots / emiLogPerSector + 2) sound most spares
  exact ⟨kept.1, kept.2.2⟩

theorem step (sound : Sound ring) {event : Event} (allowed : Allowed ring event) : Sound (ring.step event) := by
  cases event with
  | append r first second => exact sound.append r allowed.1 allowed.2.1 allowed.2.2
  | prepare minReady => exact (sound.prepare allowed).1
  | rescan =>
    obtain ⟨l, scanned, sound', _⟩ := sound.rescan
    change Sound { ring with l := (emiLogScan ring.flash (ring.l.slots / emiLogPerSector)).getD ring.l }
    rwa [scanned]

theorem scan_empty {flash : Nat → Slot} {sectors : Nat} {l : EmiLogT} (empty : ∀ slot, record flash slot = none)
    (scanned : emiLogScan flash sectors = some l) : Sound { flash, l } := by
  rw [emiLogScan] at scanned
  split at scanned
  · cases scanned
  rename_i enough
  have scan := Scanned.scan flash (min sectors emiLogMaxSectors * emiLogPerSector)
    (min sectors emiLogMaxSectors * emiLogPerSector)
  dsimp only at scanned
  generalize (List.range (min sectors emiLogMaxSectors * emiLogPerSector)).foldl (scanSlot flash)
    ({ slots := min sectors emiLogMaxSectors * emiLogPerSector }, 0) = found at scan scanned
  have none_found : found.1.any = false := by
    by_contra any
    obtain ⟨_, newest_eq, _⟩ := scan.newest (by simpa using any)
    rw [empty] at newest_eq
    cases newest_eq
  have off : ¬found.1.any = true := by
    rw [none_found]
    exact Bool.false_ne_true
  simp only [if_neg off] at scanned
  obtain rfl := Option.some.inj scanned
  have none_left : records flash (min sectors emiLogMaxSectors * emiLogPerSector) 0 = [] :=
    List.filterMap_eq_nil_iff.mpr fun place _ => empty place
  refine scan.sound ⟨_, Nat.not_lt.mp enough, Nat.min_le_right _ _, rfl⟩ ?_ ?_ ?_ fun _ => rfl
  · exact Nat.mul_pos (by omega) (by decide)
  · rw [none_left]
    exact ⟨by decide, rfl⟩
  · rw [none_left, none_found]
    rfl

theorem kept (sound : Sound ring) : Kept ring := by
  have write_lt := sound.write_lt
  have good_numbers : ring.goodNumbers = numbers (records ring.flash ring.l.slots ring.l.oldestSlot) := by
    rw [numbers, records, List.map_filterMap]
    apply List.filterMap_congr
    intro slot member
    obtain ⟨i, _, rfl⟩ := mem_arc.mp member
    have within := Nat.mod_lt (ring.l.oldestSlot + i) sound.positive
    rw [EmiLogT.slotGood, Nat.mod_mod, sound.good_eq _ within]
    cases record ring.flash ((ring.l.oldestSlot + i) % ring.l.slots) with
    | none => rfl
    | some found => rfl
  have oldest : records ring.flash ring.l.slots ring.l.oldestSlot = records ring.flash ring.l.slots ring.l.writeSlot := by
    refine records_skip sound.counted.ready_le fun place member => ?_
    obtain ⟨i, below, rfl⟩ := mem_arc.mp member
    exact sound.record_ready below
  refine ⟨?_, ?_, ?_⟩
  · rw [good_numbers, oldest]
    exact sound.order
  · rw [sound.valid_eq, records_length (Nat.le_of_lt write_lt), ← List.countP_eq_length_filter]
    apply List.countP_congr
    intro slot member
    rw [sound.good_eq slot (List.mem_range.mp member)]
  · obtain ⟨l, scanned, _, _, any_eq, next_eq, newest_eq⟩ := sound.rescan
    exact ⟨l, scanned, any_eq, next_eq, newest_eq⟩

end Sound

/-- Some record. -/
def sample : EmiRec where
  type := 2
  led := 0
  seq := 0
  run := 0
  uptimeMs := 0
  payload := Vector.replicate 44 0
  known := by decide

/-- The first scan of an erased ring of two sectors. -/
def firstScan : EmiLogT := (emiLogScan (fun _ => erasedSlot) 2).getD { slots := 0 }

theorem firstScan_eq : emiLogScan (fun _ => erasedSlot) 2 = some firstScan := by
  have found : (emiLogScan (fun _ => erasedSlot) 2).isSome := by decide +kernel
  obtain ⟨l, l_eq⟩ := Option.isSome_iff_exists.mp found
  rw [firstScan, l_eq]
  rfl

/-- A full sector of records, and two programs that fail in the next sector. -/
def filledSector : List Event :=
  List.replicate 64 (.append sample .stored .stored) ++
    [.append sample (.failed (List.replicate 64 0)) (.failed (List.replicate 64 0))]

end BenchPod.EmiLog
