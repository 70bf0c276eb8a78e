import BenchPod.EmiLog.Order

/-!
# The newest record of the run log

`emi_log_prepare` erases ahead of the write position.  Failed programs carry the write position away from
the newest record, so the space it is asked for may reach around the ring to that record's sector; while it
does not, the newest record stays, and a scan finds the same one.
-/

namespace BenchPod.EmiLog

/-- The empty slots a sector begins with. -/
def EmiLogT.leadingBlank (l : EmiLogT) (sector : Nat) : Nat :=
  ((List.range emiLogPerSector).takeWhile fun k => l.blank (sector * emiLogPerSector + k)).length

namespace Ring

variable (ring : Ring)

/-- The slots from one slot on that can be empty while the sector of another is not erased. -/
def room (start slot : Nat) : Nat :=
  (slot / emiLogPerSector * emiLogPerSector + ring.l.slots - start) % ring.l.slots +
    ring.l.leadingBlank (slot / emiLogPerSector)

/-- Getting so many slots empty passes over no good record and does not reach the newest one's sector. -/
def Spares (ready : Nat) : Prop :=
  ring.l.ready < ready →
    (ring.Skips → ∀ slot, ring.l.writeSlot ≤ slot →
      slot / emiLogPerSector = ring.l.writeSlot / emiLogPerSector → ring.l.good slot = false) ∧
    ∀ slot, ring.Newest slot → ready ≤ ring.room (if ring.Skips then ring.skip.l.writeSlot else ring.l.writeSlot) slot

end Ring

theorem takeWhile_range_le {n i : Nat} {p : Nat → Bool} (stop : p i = false) :
    ((List.range n).takeWhile p).length ≤ i := by
  by_contra beyond
  have within : i < ((List.range n).takeWhile p).length := by omega
  have holds := List.all_takeWhile (l := List.range n) (p := p)
  rw [List.all_eq_true] at holds
  have member := List.getElem_mem within
  have at_eq : ((List.range n).takeWhile p)[i] = i := by
    have prefix_eq := (List.takeWhile_prefix (l := List.range n) p).getElem within
    rw [prefix_eq, List.getElem_range]
  rw [at_eq] at member
  rw [holds i member] at stop
  cases stop

theorem takeWhile_same {xs : List Nat} {p q : Nat → Bool} (same : ∀ x ∈ xs, p x = q x) :
    xs.takeWhile p = xs.takeWhile q := by
  induction xs with
  | nil => rfl
  | cons x xs ih =>
    rw [List.takeWhile_cons, List.takeWhile_cons, same x (List.mem_cons_self ..),
      ih fun y member => same y (List.mem_cons_of_mem _ member)]

namespace Sound

variable {ring : Ring} {ready : Nat}

theorem spared (sound : Sound ring) (short : ring.l.ready < ready) (most : ready + emiLogPerSector ≤ ring.l.slots)
    (stays : ¬ring.Skips) {slot : Nat} (room : ready ≤ ring.room ring.l.writeSlot slot) :
    slot / emiLogPerSector ≠ ring.stopSector := by
  intro same
  have positive : 0 < emiLogPerSector := by decide
  have write_lt := sound.write_lt
  obtain ⟨behind, starts⟩ := sound.stop_offset (by omega) stays
  have offset_lt : ring.l.ready - ring.l.oldestSlot % emiLogPerSector < ring.l.slots := by omega
  have ahead : (slot / emiLogPerSector * emiLogPerSector + ring.l.slots - ring.l.writeSlot) % ring.l.slots =
      ring.l.ready - ring.l.oldestSlot % emiLogPerSector := by
    rw [same, ← starts, turn write_lt offset_lt]
    split
    · rw [show ring.l.writeSlot + (ring.l.ready - ring.l.oldestSlot % emiLogPerSector) + ring.l.slots -
        ring.l.writeSlot = ring.l.ready - ring.l.oldestSlot % emiLogPerSector + ring.l.slots by omega,
        Nat.add_mod_right, Nat.mod_eq_of_lt offset_lt]
    · rw [show ring.l.writeSlot + (ring.l.ready - ring.l.oldestSlot % emiLogPerSector) - ring.l.slots +
        ring.l.slots - ring.l.writeSlot = ring.l.ready - ring.l.oldestSlot % emiLogPerSector by omega,
        Nat.mod_eq_of_lt offset_lt]
  have leading : ring.l.leadingBlank (slot / emiLogPerSector) ≤ ring.l.oldestSlot % emiLogPerSector := by
    apply takeWhile_range_le
    rw [same, Ring.stopSector, Nat.mul_comm, Nat.div_add_mod]
    exact sound.counted.stop (by omega)
  rw [Ring.room, ahead] at room
  omega

theorem eraseStop_ready (sound : Sound ring) (used : ring.l.ready < ring.l.slots) (stays : ¬ring.Skips) :
    ring.l.ready - ring.l.oldestSlot % emiLogPerSector + emiLogPerSector ≤ ring.eraseStop.l.ready ∨
      ring.l.slots ≤ ring.eraseStop.l.ready := by
  by_contra few
  obtain ⟨sectors, two, most, slots_eq⟩ := sound.sectors
  obtain ⟨behind, starts⟩ := sound.stop_offset used stays
  rw [not_or, Nat.not_le, Nat.not_le] at few
  have stop := (EmiLogT.countReady_counted (ring.eraseSector ring.stopSector).l).stop few.2
  change (if _ then true else ring.l.blank ((ring.l.writeSlot + ring.eraseStop.l.ready) % ring.l.slots)) = false at stop
  split at stop
  · cases stop
  rename_i other
  by_cases before : ring.eraseStop.l.ready < ring.l.ready - ring.l.oldestSlot % emiLogPerSector
  · rw [sound.counted.blank _ (by omega)] at stop
    cases stop
  · have inside : (ring.l.writeSlot + ring.eraseStop.l.ready) % ring.l.slots ∈ arc ring.l.slots
        (ring.l.writeSlot + (ring.l.ready - ring.l.oldestSlot % emiLogPerSector)) emiLogPerSector := by
      refine mem_arc.mpr ⟨ring.eraseStop.l.ready - (ring.l.ready - ring.l.oldestSlot % emiLogPerSector), by omega, ?_⟩
      congr 1
      omega
    rw [arc_sector (slots_eq ▸ Nat.dvd_mul_left ..) sound.positive starts] at inside
    obtain ⟨k, member, place_eq⟩ := List.mem_map.mp inside
    refine other ?_
    change (ring.l.writeSlot + ring.eraseStop.l.ready) % ring.l.slots / emiLogPerSector = _
    rw [← place_eq, Nat.mul_comm, Nat.mul_add_div (by decide), Nat.div_eq_of_lt (List.mem_range.mp member),
      Nat.add_zero]

theorem skip_spares (sound : Sound ring) (short : ring.l.ready < ready) (spares : ring.Spares ready)
    (skips : ring.Skips) : ring.skip.Spares ready := by
  obtain ⟨sectors, two, most, slots_eq⟩ := sound.sectors
  have start : ring.skip.l.writeSlot % emiLogPerSector = 0 := by
    change (ring.l.writeSlot / emiLogPerSector + 1) * emiLogPerSector % ring.l.slots % emiLogPerSector = 0
    rw [slots_eq, Nat.mul_mod_mul_right, Nat.mul_mod_left]
  intro _
  have stays : ¬ring.skip.Skips := fun again => again.2 start
  refine ⟨fun again => absurd again stays, fun slot newest => ?_⟩
  have room := (spares short).2 slot newest
  rw [if_pos skips] at room
  rw [if_neg stays]
  exact room

theorem eraseStop_stays (sound : Sound ring) (short : ring.l.ready < ready) (most : ready + emiLogPerSector ≤ ring.l.slots)
    (stays : ¬ring.Skips) (again : ring.eraseStop.l.ready < ready) : ¬ring.eraseStop.Skips := by
  rintro ⟨same, inside⟩
  obtain ⟨sectors, two, _, slots_eq⟩ := sound.sectors
  have write_lt := sound.write_lt
  have enough := sound.eraseStop_ready (by omega) stays
  have turned := turn write_lt (show ring.eraseStop.l.ready < ring.l.slots by omega)
  change (ring.l.writeSlot + ring.eraseStop.l.ready) % ring.l.slots / emiLogPerSector =
    ring.l.writeSlot / emiLogPerSector at same
  change ring.l.writeSlot % emiLogPerSector ≠ 0 at inside
  rw [turned] at same
  simp only [emiLogPerSector] at *
  split_ifs at same <;> omega

theorem eraseStop_newest (spared : ∀ slot, ring.Newest slot → slot / emiLogPerSector ≠ ring.stopSector) (slot : Nat) :
    ring.eraseStop.Newest slot ↔ ring.Newest slot := by
  by_cases there : slot / emiLogPerSector = ring.stopSector
  · constructor
    · rintro ⟨_, good, _⟩
      change (if _ then false else _) = true at good
      rw [if_pos there] at good
      cases good
    · intro newest
      exact absurd there (spared slot newest)
  · change (_ ∧ (if _ then false else _) = true ∧ (record (ring.eraseSector ring.stopSector).flash slot).map _ = _) ↔ _
    have same : record (ring.eraseSector ring.stopSector).flash slot = record ring.flash slot := by
      rw [record, Ring.eraseSector]
      simp only [if_neg there]
      rfl
    rw [if_neg there, same]
    rfl

theorem eraseStop_spares (sound : Sound ring) (short : ring.l.ready < ready)
    (most : ready + emiLogPerSector ≤ ring.l.slots) (spares : ring.Spares ready) (stays : ¬ring.Skips)
    (spared : ∀ slot, ring.Newest slot → slot / emiLogPerSector ≠ ring.stopSector) : ring.eraseStop.Spares ready := by
  intro again
  have stays' := sound.eraseStop_stays short most stays again
  refine ⟨fun skips => absurd skips stays', fun slot newest => ?_⟩
  rw [eraseStop_newest spared] at newest
  have room := (spares short).2 slot newest
  rw [if_neg stays] at room
  rw [if_neg stays']
  have elsewhere := spared slot newest
  have leading : ring.eraseStop.l.leadingBlank (slot / emiLogPerSector) =
      ring.l.leadingBlank (slot / emiLogPerSector) := by
    rw [EmiLogT.leadingBlank, EmiLogT.leadingBlank, takeWhile_same]
    intro k member
    have place : (slot / emiLogPerSector * emiLogPerSector + k) / emiLogPerSector = slot / emiLogPerSector := by
      rw [Nat.mul_comm, Nat.mul_add_div (by decide), Nat.div_eq_of_lt (List.mem_range.mp member), Nat.add_zero]
    change (if _ then true else _) = _
    rw [place, if_neg elsewhere]
  change ready ≤ _ + _
  rw [leading]
  exact room

theorem prepareLoop {guard : Nat} (sound : Sound ring) (most : ready + emiLogPerSector ≤ ring.l.slots)
    (spares : ring.Spares ready) :
    Sound (Ring.prepareLoop ready guard ring).1 ∧
      (∀ slot, ring.Newest slot → (Ring.prepareLoop ready guard ring).1.Newest slot) ∧
        ∀ sector ∈ (Ring.prepareLoop ready guard ring).2, ∀ slot, ring.Newest slot → slot / emiLogPerSector ≠ sector := by
  induction guard generalizing ring with
  | zero => exact ⟨sound, fun _ newest => newest, by simp [Ring.prepareLoop]⟩
  | succ guard ih =>
    rw [Ring.prepareLoop]
    split
    · exact ⟨sound, fun _ newest => newest, by simp⟩
    rename_i short
    rw [Nat.not_le] at short
    split
    · rename_i skips
      exact ih (sound.skip ((spares short).1 skips)) most (sound.skip_spares short spares skips)
    · rename_i stays
      have spared (slot : Nat) (newest : ring.Newest slot) : slot / emiLogPerSector ≠ ring.stopSector := by
        have room := (spares short).2 slot newest
        rw [if_neg stays] at room
        exact sound.spared short most stays room
      obtain ⟨sound', kept, elsewhere⟩ := ih (sound.eraseStop (by omega) stays spared) most
        (sound.eraseStop_spares short most spares stays spared)
      have newest' (slot : Nat) (newest : ring.Newest slot) := (eraseStop_newest spared slot).mpr newest
      refine ⟨sound', fun slot newest => kept slot (newest' slot newest), ?_⟩
      rintro sector (_ | ⟨_, member⟩) slot newest
      · exact spared slot newest
      · exact elsewhere sector member slot (newest' slot newest)

end Sound

/-- What the scan knows after it looked at some slots. -/
structure Scanned (flash : Nat → Slot) (slots count : Nat) (found : EmiLogT × Nat) : Prop where
  slots_eq : found.1.slots = slots
  blank_eq : ∀ slot, found.1.blank slot = (decide (slot < count) && emiLogBlank (flash slot))
  good_eq : ∀ slot, found.1.good slot = (decide (slot < count) && (record flash slot).isSome)
  valid_eq : found.1.valid = (List.range count).countP fun slot => (record flash slot).isSome
  none_found : found.1.any = false → ∀ slot < count, record flash slot = none
  newest : found.1.any = true → found.2 < count ∧
    record flash found.2 = some (found.1.newestSeq, found.1.newestRun) ∧
      ∀ slot < count, ∀ r, record flash slot = some r → r.1 ≤ found.1.newestSeq

namespace Scanned

variable {flash : Nat → Slot} {slots count : Nat} {found : EmiLogT × Nat}

theorem start (flash : Nat → Slot) (slots : Nat) : Scanned flash slots 0 ({ slots }, 0) := by
  refine ⟨rfl, by simp, by simp, rfl, by simp, by simp⟩

theorem below_succ (slot count : Nat) (value : Bool) :
    (decide (slot < count + 1) && value) = if slot = count then value else (decide (slot < count) && value) := by
  split
  · rename_i same
    simp [same]
  · rename_i other
    have same_lt : slot < count + 1 ↔ slot < count := by omega
    simp only [same_lt]

theorem valid_succ (scanned : Scanned flash slots count found) :
    (List.range (count + 1)).countP (fun slot => (record flash slot).isSome) =
      found.1.valid + if (record flash count).isSome then 1 else 0 := by
  rw [List.range_succ, List.countP_append, ← scanned.valid_eq, List.countP_singleton]

theorem pass (scanned : Scanned flash slots count found) (none : record flash count = none) {blank : Nat → Bool}
    (blank_eq : ∀ slot, blank slot = (decide (slot < count + 1) && emiLogBlank (flash slot))) :
    Scanned flash slots (count + 1) ({ found.1 with blank }, found.2) := by
  refine ⟨scanned.slots_eq, blank_eq, ?_, ?_, ?_, ?_⟩
  · intro slot
    rw [below_succ]
    by_cases same : slot = count
    · rw [if_pos same, same, none, scanned.good_eq, decide_eq_false (Nat.lt_irrefl _)]
      rfl
    · rw [if_neg same]
      exact scanned.good_eq slot
  · rw [scanned.valid_succ, none]
    rfl
  · intro any slot below
    rcases Nat.lt_succ_iff_lt_or_eq.mp below with before | rfl
    · exact scanned.none_found any slot before
    · exact none
  · intro any
    obtain ⟨newest_lt, newest_eq, most⟩ := scanned.newest any
    refine ⟨Nat.lt_succ_of_lt newest_lt, newest_eq, fun slot below r found_eq => ?_⟩
    rcases Nat.lt_succ_iff_lt_or_eq.mp below with before | rfl
    · exact most slot before r found_eq
    · rw [none] at found_eq
      cases found_eq

theorem step (scanned : Scanned flash slots count found) : Scanned flash slots (count + 1) (scanSlot flash found count) := by
  rw [scanSlot]
  split
  · rename_i blank
    refine scanned.pass (record_blank blank) fun slot => ?_
    rw [below_succ]
    by_cases same : slot = count
    · rw [same, Function.update_self, if_pos rfl, blank]
    · rw [Function.update_of_ne same, if_neg same, scanned.blank_eq]
  rename_i written
  have blank_eq (slot : Nat) : found.1.blank slot = (decide (slot < count + 1) && emiLogBlank (flash slot)) := by
    rw [below_succ]
    by_cases same : slot = count
    · rw [same, if_pos rfl, scanned.blank_eq, decide_eq_false (Nat.lt_irrefl _), Bool.eq_false_of_not_eq_true written]
      rfl
    · rw [if_neg same, scanned.blank_eq]
  split
  · rename_i undecoded
    exact scanned.pass (by rw [record, undecoded]; rfl) blank_eq
  · rename_i r decoded
    have record_eq : record flash count = some (r.seq, r.run) := by
      rw [record, decoded]
      rfl
    have good_eq (slot : Nat) : Function.update found.1.good count true slot =
        (decide (slot < count + 1) && (record flash slot).isSome) := by
      rw [below_succ]
      by_cases same : slot = count
      · rw [same, Function.update_self, if_pos rfl, record_eq]
        rfl
      · rw [Function.update_of_ne same, if_neg same, scanned.good_eq]
    have valid_eq : found.1.valid + 1 = (List.range (count + 1)).countP fun slot => (record flash slot).isSome := by
      rw [scanned.valid_succ, record_eq]
      rfl
    dsimp only
    split
    · rename_i newer
      refine ⟨scanned.slots_eq, blank_eq, good_eq, valid_eq, fun any => by simp at any, fun _ =>
        ⟨Nat.lt_succ_self _, record_eq, fun slot below r' found_eq => ?_⟩⟩
      rcases Nat.lt_succ_iff_lt_or_eq.mp below with before | rfl
      · rcases newer with none | newer
        · rw [scanned.none_found none slot before] at found_eq
          cases found_eq
        · have any : found.1.any = true := by
            by_contra none
            rw [scanned.none_found (by simpa using none) slot before] at found_eq
            cases found_eq
          exact BitVec.le_trans ((scanned.newest any).2.2 slot before r' found_eq) (BitVec.le_of_lt newer)
      · rw [record_eq, Option.some.injEq] at found_eq
        rw [← found_eq]
        exact BitVec.le_refl _
    · rename_i older
      rw [not_or, BitVec.not_lt] at older
      obtain ⟨newest_lt, newest_eq, most⟩ := scanned.newest (by simpa using older.1)
      refine ⟨scanned.slots_eq, blank_eq, good_eq, valid_eq, fun any => absurd any older.1, fun _ =>
        ⟨Nat.lt_succ_of_lt newest_lt, newest_eq, fun slot below r' found_eq => ?_⟩⟩
      rcases Nat.lt_succ_iff_lt_or_eq.mp below with before | rfl
      · exact most slot before r' found_eq
      · rw [record_eq, Option.some.injEq] at found_eq
        rw [← found_eq]
        exact older.2

theorem scan (flash : Nat → Slot) (slots count : Nat) :
    Scanned flash slots count ((List.range count).foldl (scanSlot flash) ({ slots }, 0)) := by
  induction count with
  | zero => exact start flash slots
  | succ count ih =>
    rw [List.range_succ, List.foldl_concat]
    exact ih.step

end Scanned

section Rescan

variable {flash : Nat → Slot} {slots start : Nat}

theorem records_length (within : start ≤ slots) :
    (records flash slots start).length = (List.range slots).countP fun slot => (record flash slot).isSome := by
  have whole : arc slots 0 slots = List.range slots := by
    refine (List.map_congr_left fun i member => ?_).trans (List.map_id _)
    rw [Nat.zero_add, Nat.mod_eq_of_lt (List.mem_range.mp member)]
    rfl
  have around := arc_around within 0
  rw [Nat.zero_add] at around
  rw [records, around, ← whole, arc_split within 0, ← List.length_filterMap_eq_countP, List.filterMap_append,
    List.filterMap_append, List.length_append, List.length_append, Nat.zero_add, Nat.add_comm]

theorem records_after {place : Nat} {newest : Word × Word} (once : (numbers (records flash slots start)).Nodup)
    (last : (records flash slots start).getLast? = some newest) (start_lt : start < slots) (place_lt : place < slots)
    (there : record flash place = some newest) :
    records flash slots ((place + 1) % slots) = records flash slots start := by
  obtain ⟨i, within, place_eq⟩ := mem_arc.mp ((@mem_arc_around slots start place (by omega)).mpr place_lt)
  have split : records flash slots start = (arc slots start (i + 1)).filterMap (record flash) ++
      (arc slots (start + (i + 1)) (slots - (i + 1))).filterMap (record flash) := by
    rw [records, arc_split (show i + 1 ≤ slots by omega), List.filterMap_append]
  have front : newest ∈ (arc slots start (i + 1)).filterMap (record flash) :=
    List.mem_filterMap.mpr ⟨place, mem_arc.mpr ⟨i, Nat.lt_succ_self i, place_eq⟩, there⟩
  have empty : ∀ other ∈ arc slots (start + (i + 1)) (slots - (i + 1)), record flash other = none := by
    intro other member
    by_contra some_there
    have back : (arc slots (start + (i + 1)) (slots - (i + 1))).filterMap (record flash) ≠ [] := by
      rw [ne_eq, List.filterMap_eq_nil_iff]
      exact fun none => some_there (none other member)
    -- The newest record would be read twice.
    rw [split, List.getLast?_append_of_ne_nil _ back] at last
    rw [split, numbers, List.map_append, List.nodup_append] at once
    exact once.2.2 _ (List.mem_map_of_mem front) _ (List.mem_map_of_mem (List.mem_of_getLast? last)) rfl
  have skipped := records_skip (Nat.sub_le slots (i + 1)) empty
  rw [show start + (i + 1) + (slots - (i + 1)) = start + slots by omega, Nat.add_mod_right,
    Nat.mod_eq_of_lt start_lt] at skipped
  rw [skipped, ← place_eq, Nat.mod_add_mod, records_mod, Nat.add_assoc]

end Rescan

theorem Scanned.sound {flash : Nat → Slot} {slots : Nat} {found : EmiLogT × Nat} (scanned : Scanned flash slots slots found)
    (sectors : ∃ sectors, 2 ≤ sectors ∧ sectors ≤ emiLogMaxSectors ∧ slots = sectors * emiLogPerSector)
    {writeSlot : Nat} {nextSeq run : Word} (write_lt : writeSlot < slots)
    (order : Consecutive (numbers (records flash slots writeSlot)) nextSeq.toNat)
    (newest : (records flash slots writeSlot).getLast? =
      if found.1.any then some (found.1.newestSeq, found.1.newestRun) else none)
    (fresh : found.1.any = false → nextSeq = 1) :
    Sound { flash, l := EmiLogT.countReady { found.1 with writeSlot, nextSeq, run } } := by
  obtain ⟨slots_eq, blank_eq, good_eq, valid_eq, _, _⟩ := scanned
  constructor
  · exact slots_eq ▸ sectors
  · exact slots_eq ▸ write_lt
  · exact EmiLogT.countReady_counted _
  · intro slot within blank
    change found.1.blank slot = true at blank
    rw [blank_eq] at blank
    exact (Bool.and_eq_true_iff.mp blank).2
  · intro slot within
    change slot < found.1.slots at within
    change found.1.good slot = _
    rw [good_eq, decide_eq_true (slots_eq ▸ within)]
    rfl
  · change Consecutive (numbers (records flash found.1.slots writeSlot)) nextSeq.toNat
    rwa [slots_eq]
  · change (records flash found.1.slots writeSlot).getLast? = _
    rwa [slots_eq]
  · exact fresh
  · change found.1.valid = (records flash found.1.slots writeSlot).length
    rw [slots_eq, records_length (Nat.le_of_lt write_lt), valid_eq]

/-- A scan finds the newest record and the number of the next. -/
theorem Sound.rescan {ring : Ring} (sound : Sound ring) :
    ∃ l, emiLogScan ring.flash (ring.l.slots / emiLogPerSector) = some l ∧ Sound { ring with l } ∧
      l.slots = ring.l.slots ∧ l.any = ring.l.any ∧ l.nextSeq = ring.l.nextSeq ∧
        (ring.l.any = true → l.newestSeq = ring.l.newestSeq ∧ l.newestRun = ring.l.newestRun) := by
  obtain ⟨sectors, two, most, slots_eq⟩ := sound.sectors
  have sectors_eq : min (ring.l.slots / emiLogPerSector) emiLogMaxSectors * emiLogPerSector = ring.l.slots := by
    rw [slots_eq, Nat.mul_div_cancel _ (by decide), Nat.min_eq_left most]
  have enough : ¬min (ring.l.slots / emiLogPerSector) emiLogMaxSectors < 2 := by
    rw [slots_eq, Nat.mul_div_cancel _ (by decide), Nat.min_eq_left most]
    omega
  have scanned := Scanned.scan ring.flash ring.l.slots ring.l.slots
  simp only [emiLogScan, if_neg enough, sectors_eq]
  generalize (List.range ring.l.slots).foldl (scanSlot ring.flash) ({ slots := ring.l.slots }, 0) = found at scanned
  refine ⟨_, rfl, ?_⟩
  rcases Bool.eq_false_or_eq_true found.1.any with any | any
  · obtain ⟨newest_lt, newest_eq, largest⟩ := scanned.newest any
    have found_mem : (found.1.newestSeq, found.1.newestRun) ∈ records ring.flash ring.l.slots ring.l.writeSlot :=
      (mem_records sound.positive).mpr ⟨_, newest_lt, newest_eq⟩
    have last := sound.newest
    have any_eq : ring.l.any = true := by
      by_contra none
      rw [Bool.eq_false_of_not_eq_true none] at last
      rw [List.getLast?_eq_none_iff.mp last] at found_mem
      cases found_mem
    rw [any_eq, if_pos rfl] at last
    have last_mem := List.mem_of_getLast? last
    have last_number : ring.l.newestSeq.toNat + 1 = ring.l.nextSeq.toNat :=
      sound.order.last (by rw [numbers, List.getLast?_map, last]; rfl)
    have seq_eq : found.1.newestSeq = ring.l.newestSeq := by
      obtain ⟨slot, within, there⟩ := (mem_records sound.positive).mp last_mem
      have above : ring.l.newestSeq.toNat ≤ found.1.newestSeq.toNat := largest slot within _ there
      have below : found.1.newestSeq.toNat < ring.l.nextSeq.toNat := sound.order.lt _ (List.mem_map_of_mem found_mem)
      apply BitVec.eq_of_toNat_eq
      omega
    have same : (found.1.newestSeq, found.1.newestRun) = (ring.l.newestSeq, ring.l.newestRun) :=
      List.inj_on_of_nodup_map sound.order.nodup found_mem last_mem (congrArg BitVec.toNat seq_eq)
    have after := records_after sound.order.nodup last sound.write_lt newest_lt (newest_eq.trans (congrArg some same))
    have next_eq : found.1.newestSeq + 1 = ring.l.nextSeq := by
      apply BitVec.eq_of_toNat_eq
      rw [seq_eq, BitVec.toNat_add, ← last_number]
      exact Nat.mod_eq_of_lt (last_number ▸ ring.l.nextSeq.isLt)
    have write_eq : (found.2 + 1) % found.1.slots = (found.2 + 1) % ring.l.slots := by rw [scanned.slots_eq]
    simp only [if_pos any]
    refine ⟨scanned.sound sound.sectors ?_ ?_ ?_ fun none => ?_, scanned.slots_eq, ?_, ?_, ?_⟩
    · rw [write_eq]
      exact Nat.mod_lt _ sound.positive
    · rw [write_eq, after, next_eq]
      exact sound.order
    · rw [write_eq, after, any, if_pos rfl, same]
      exact last
    · rw [any] at none
      cases none
    · exact any.trans any_eq.symm
    · exact next_eq
    · exact fun _ => ⟨seq_eq, congrArg Prod.snd same⟩
  · have none_left (start : Nat) : records ring.flash ring.l.slots start = [] := by
      refine List.filterMap_eq_nil_iff.mpr fun place member => ?_
      obtain ⟨i, _, rfl⟩ := mem_arc.mp member
      exact scanned.none_found any _ (Nat.mod_lt _ sound.positive)
    have any_eq : ring.l.any = false := by
      have newest := sound.newest
      rw [none_left] at newest
      cases none : ring.l.any with
      | false => rfl
      | true =>
        rw [none] at newest
        cases newest
    have off : ¬found.1.any = true := by rw [any]; exact Bool.false_ne_true
    simp only [if_neg off]
    refine ⟨scanned.sound sound.sectors sound.positive ?_ ?_ fun _ => rfl, scanned.slots_eq, ?_, ?_, ?_⟩
    · rw [none_left]
      exact ⟨by decide, rfl⟩
    · rw [none_left, any]
      rfl
    · exact any.trans any_eq.symm
    · exact (sound.fresh any_eq).symm
    · intro none
      rw [any_eq] at none
      cases none

end BenchPod.EmiLog
