import BenchPod.EmiLog.Ring

/-!
# The order of the run log

Walking around the ring from the write position visits the records oldest first, without a gap in their
numbers.  A try, a skip and an erased sector keep that, and a scan finds the position again.
-/

namespace BenchPod.EmiLog

/-- What a scan takes from a slot: the number and the run of its record. -/
def record (flash : Nat → Slot) (slot : Nat) : Option (Word × Word) :=
  (emiLogDecode (flash slot)).map fun r => (r.seq, r.run)

/-- The records of the ring in the order of a walk from one slot on. -/
def records (flash : Nat → Slot) (slots start : Nat) : List (Word × Word) :=
  (arc slots start slots).filterMap (record flash)

/-- Numbers without a gap that end before the next one. -/
def Consecutive (numbers : List Nat) (next : Nat) : Prop :=
  numbers.length < next ∧ numbers = List.range' (next - numbers.length) numbers.length

namespace Consecutive

variable {numbers front back : List Nat} {next : Nat}

theorem push (consecutive : Consecutive numbers next) : Consecutive (numbers ++ [next]) (next + 1) := by
  obtain ⟨few, numbers_eq⟩ := consecutive
  rw [Consecutive, List.length_append, List.length_singleton]
  refine ⟨by omega, ?_⟩
  rw [Nat.add_sub_add_right, List.range'_concat, ← numbers_eq]
  simp only [Nat.one_mul, List.append_cancel_left_eq, List.cons.injEq, and_true]
  omega

theorem drop (consecutive : Consecutive (front ++ back) next) : Consecutive back next := by
  obtain ⟨few, numbers_eq⟩ := consecutive
  rw [List.length_append] at few numbers_eq
  refine ⟨by omega, ?_⟩
  have split := numbers_eq.trans (List.range'_append_1 (s := next - (front.length + back.length))).symm
  have back_eq := (List.append_inj split (by simp)).2
  rwa [show next - (front.length + back.length) + front.length = next - back.length by omega] at back_eq

theorem last (consecutive : Consecutive numbers next) {number : Nat} (found : numbers.getLast? = some number) :
    number + 1 = next := by
  obtain ⟨few, numbers_eq⟩ := consecutive
  cases count : numbers.length with
  | zero =>
    rw [List.length_eq_zero_iff] at count
    rw [count] at found
    cases found
  | succ n =>
    rw [count] at numbers_eq few
    rw [numbers_eq, List.range'_concat, List.getLast?_concat, Option.some.injEq] at found
    omega

theorem nodup (consecutive : Consecutive numbers next) : numbers.Nodup := by
  rw [consecutive.2]
  exact List.nodup_range'

theorem lt (consecutive : Consecutive numbers next) : ∀ number ∈ numbers, number < next := by
  obtain ⟨few, numbers_eq⟩ := consecutive
  intro number member
  rw [numbers_eq, List.mem_range'_1] at member
  omega

end Consecutive

/-- The numbers of records. -/
def numbers (records : List (Word × Word)) : List Nat := records.map fun record => record.1.toNat

section Walk

variable {flash flash' : Nat → Slot} {slots start count slot : Nat}

theorem record_blank (blank : emiLogBlank (flash slot) = true) : record flash slot = none := by
  have erased : flash slot = erasedSlot := by simpa [emiLogBlank] using blank
  have unread : emiLogDecode erasedSlot = none := by rw [emiLogDecode, if_pos (by decide)]
  rw [record, erased, unread]
  rfl

theorem record_encode (r : EmiRec) : record (Function.update flash slot (emiLogEncode r)) slot = some (r.seq, r.run) := by
  rw [record, Function.update_self, emiLogDecode_encode]
  rfl

theorem record_update (other : start ≠ slot) (content : Slot) :
    record (Function.update flash slot content) start = record flash start := by
  rw [record, Function.update_of_ne other, record]

theorem records_mod (flash : Nat → Slot) (slots start : Nat) :
    records flash slots (start % slots) = records flash slots start := by
  rw [records, arc_mod, records]

theorem records_push (within : start < slots) (empty : record flash start = none) (content : Slot) :
    records (Function.update flash start content) slots ((start + 1) % slots) =
      records flash slots start ++ (record (Function.update flash start content) start).toList := by
  have first : arc slots start 1 = [start] := by simp [arc, Nat.mod_eq_of_lt within]
  have split := arc_split (show 1 ≤ slots by omega) start
  have around := arc_around (show 1 ≤ slots by omega) start
  have once : (arc slots start slots).Nodup := arc_nodup (Nat.le_refl slots)
  rw [split, first, List.nodup_append] at once
  have rest_eq : (arc slots (start + 1) (slots - 1)).filterMap (record (Function.update flash start content)) =
      (arc slots (start + 1) (slots - 1)).filterMap (record flash) := by
    apply List.filterMap_congr
    intro place member
    exact record_update (once.2.2 start (List.mem_singleton_self _) place member).symm content
  rw [records_mod, records, around, List.filterMap_append, rest_eq, records, split, List.filterMap_append, first]
  simp only [List.filterMap_cons, List.filterMap_nil, empty, List.nil_append]
  cases record (Function.update flash start content) start with
  | none => rfl
  | some found => rfl

theorem records_skip (within : count ≤ slots) (empty : ∀ place ∈ arc slots start count, record flash place = none) :
    records flash slots ((start + count) % slots) = records flash slots start := by
  rw [records_mod]
  exact filterMap_arc_skip within empty

theorem mem_records {found : Word × Word} (positive : 0 < slots) :
    found ∈ records flash slots start ↔ ∃ place < slots, record flash place = some found := by
  simp only [records, List.mem_filterMap, mem_arc_around positive]

theorem arc_sector {sector : Nat} (sectors : emiLogPerSector ∣ slots) (positive : 0 < slots)
    (starts : start % slots = sector * emiLogPerSector) :
    arc slots start emiLogPerSector = (List.range emiLogPerSector).map fun k => sector * emiLogPerSector + k := by
  refine List.map_congr_left fun k member => ?_
  have small := List.mem_range.mp member
  obtain ⟨sectors, rfl⟩ := sectors
  have start_lt := Nat.mod_lt start positive
  rw [← Nat.mod_add_mod, starts]
  rw [starts, Nat.mul_comm] at start_lt
  have sector_lt := Nat.lt_of_mul_lt_mul_left start_lt
  refine Nat.mod_eq_of_lt ?_
  calc sector * emiLogPerSector + k < sector * emiLogPerSector + emiLogPerSector := by omega
    _ = emiLogPerSector * (sector + 1) := by rw [Nat.mul_comm, ← Nat.mul_succ]
    _ ≤ emiLogPerSector * sectors := Nat.mul_le_mul_left _ sector_lt

/-- What is read from the places of a sector that lies a number of empty slots ahead. -/
theorem records_erase {sector : Nat} (sectors : emiLogPerSector ∣ slots) (inside : count + emiLogPerSector ≤ slots)
    (starts : (start + count) % slots = sector * emiLogPerSector)
    (empty : ∀ place ∈ arc slots start count, record flash place = none)
    (same : ∀ place, place / emiLogPerSector ≠ sector → flash' place = flash place)
    (erased : ∀ place, place / emiLogPerSector = sector → record flash' place = none) :
    records flash slots start =
      (arc slots (start + count) emiLogPerSector).filterMap (record flash) ++ records flash' slots start := by
  have positive : 0 < emiLogPerSector := by decide
  have whole : arc slots start slots = arc slots start count ++ (arc slots (start + count) emiLogPerSector ++
      arc slots (start + (count + emiLogPerSector)) (slots - (count + emiLogPerSector))) := by
    rw [arc_split inside start, arc_append, List.append_assoc]
  have there_iff (place : Nat) :
      place ∈ arc slots (start + count) emiLogPerSector ↔ place / emiLogPerSector = sector := by
    rw [arc_sector sectors (by omega) starts, List.mem_map]
    constructor
    · rintro ⟨k, member, rfl⟩
      rw [Nat.mul_comm, Nat.mul_add_div positive, Nat.div_eq_of_lt (List.mem_range.mp member), Nat.add_zero]
    · rintro rfl
      refine ⟨place % emiLogPerSector, List.mem_range.mpr (Nat.mod_lt _ positive), ?_⟩
      rw [Nat.mul_comm, Nat.div_add_mod]
  have once : (arc slots start slots).Nodup := arc_nodup (Nat.le_refl slots)
  rw [whole] at once
  have apart := (List.nodup_append.mp (List.nodup_append.mp once).2.1).2.2
  have front : (arc slots start count).filterMap (record flash) = [] := List.filterMap_eq_nil_iff.mpr empty
  have front' : (arc slots start count).filterMap (record flash') = [] := by
    refine List.filterMap_eq_nil_iff.mpr fun place member => ?_
    by_cases there : place / emiLogPerSector = sector
    · exact erased place there
    · rw [record, same place there]
      exact empty place member
  have middle' : (arc slots (start + count) emiLogPerSector).filterMap (record flash') = [] :=
    List.filterMap_eq_nil_iff.mpr fun place member => erased place ((there_iff place).mp member)
  have back : (arc slots (start + (count + emiLogPerSector)) (slots - (count + emiLogPerSector))).filterMap
      (record flash') = (arc slots (start + (count + emiLogPerSector))
        (slots - (count + emiLogPerSector))).filterMap (record flash) := by
    apply List.filterMap_congr
    intro place member
    rw [record, same place fun there => apart place ((there_iff place).mpr there) place member rfl, record]
  simp only [records, whole, List.filterMap_append, front, front', middle', back, List.nil_append]

end Walk

namespace EmiLogT

/-- `ready` is the number of empty slots from the write position on. -/
structure Counted (l : EmiLogT) : Prop where
  ready_le : l.ready ≤ l.slots
  blank : ∀ i < l.ready, l.blank ((l.writeSlot + i) % l.slots) = true
  stop : l.ready < l.slots → l.blank ((l.writeSlot + l.ready) % l.slots) = false

theorem countReady_counted (l : EmiLogT) : l.countReady.Counted := by
  have count_eq : l.countReady.ready = (List.range l.slots).findIdx fun i => !l.blank ((l.writeSlot + i) % l.slots) := by
    simp only [countReady, List.takeWhile_eq_take_findIdx_not, List.length_take, List.length_range]
    exact Nat.min_eq_left (List.findIdx_le_length.trans (by simp))
  constructor
  · rw [count_eq]
    exact List.findIdx_le_length.trans (by simp [countReady])
  · intro i below
    rw [count_eq] at below
    have blank := List.not_of_lt_findIdx below
    rw [List.getElem_range] at blank
    have blank_eq : l.blank ((l.writeSlot + i) % l.slots) = true := by simpa using blank
    exact blank_eq
  · intro within
    have inside : l.countReady.ready < (List.range l.slots).length := by simpa [countReady] using within
    rw [count_eq] at inside
    have found := List.findIdx_getElem (w := inside)
    rw [List.getElem_range, ← count_eq] at found
    have stop_eq : l.blank ((l.writeSlot + l.countReady.ready) % l.slots) = false := by simpa using found
    exact stop_eq

end EmiLogT

/-- The log in RAM knows the ring, and the ring is in order. -/
structure Sound (ring : Ring) : Prop where
  sectors : ∃ sectors, 2 ≤ sectors ∧ sectors ≤ emiLogMaxSectors ∧ ring.l.slots = sectors * emiLogPerSector
  write_lt : ring.l.writeSlot < ring.l.slots
  counted : ring.l.Counted
  blank_eq : ∀ slot < ring.l.slots, ring.l.blank slot = true → emiLogBlank (ring.flash slot) = true
  good_eq : ∀ slot < ring.l.slots, ring.l.good slot = (record ring.flash slot).isSome
  order : Consecutive (numbers (records ring.flash ring.l.slots ring.l.writeSlot)) ring.l.nextSeq.toNat
  newest : (records ring.flash ring.l.slots ring.l.writeSlot).getLast? =
    if ring.l.any then some (ring.l.newestSeq, ring.l.newestRun) else none
  fresh : ring.l.any = false → ring.l.nextSeq = 1
  valid_eq : ring.l.valid = (records ring.flash ring.l.slots ring.l.writeSlot).length

namespace Sound

variable {ring : Ring} {r : EmiRec} {content : Slot}

theorem positive (sound : Sound ring) : 0 < ring.l.slots := Nat.lt_of_le_of_lt (Nat.zero_le _) sound.write_lt

theorem record_ready (sound : Sound ring) {i : Nat} (below : i < ring.l.ready) :
    record ring.flash ((ring.l.writeSlot + i) % ring.l.slots) = none :=
  record_blank (sound.blank_eq _ (Nat.mod_lt _ sound.positive) (sound.counted.blank i below))

theorem record_write (sound : Sound ring) (room : ring.l.ready ≠ 0) : record ring.flash ring.l.writeSlot = none := by
  have empty := sound.record_ready (i := 0) (by omega)
  rwa [Nat.add_zero, Nat.mod_eq_of_lt sound.write_lt] at empty

theorem counted_next (sound : Sound ring) (room : ring.l.ready ≠ 0) {l : EmiLogT} (slots_eq : l.slots = ring.l.slots)
    (write_eq : l.writeSlot = (ring.l.writeSlot + 1) % ring.l.slots) (ready_eq : l.ready = ring.l.ready - 1)
    (blank_eq : l.blank = Function.update ring.l.blank ring.l.writeSlot false) : l.Counted := by
  have ready_le := sound.counted.ready_le
  have write_lt := sound.write_lt
  have place (i : Nat) : (l.writeSlot + i) % l.slots = (ring.l.writeSlot + (i + 1)) % ring.l.slots := by
    rw [write_eq, slots_eq, Nat.mod_add_mod, Nat.add_assoc, Nat.add_comm 1]
  constructor
  · omega
  · intro i below
    rw [place, blank_eq, Function.update_of_ne]
    · exact sound.counted.blank (i + 1) (by omega)
    · intro same
      have back : ring.l.writeSlot + (i + 1) ≡ ring.l.writeSlot + 0 [MOD ring.l.slots] := by
        rw [Nat.ModEq, same, Nat.add_zero, Nat.mod_eq_of_lt write_lt]
      have zero := (Nat.ModEq.add_left_cancel' _ back).eq_of_lt_of_lt (by omega) (by omega)
      exact Nat.succ_ne_zero i zero
  · intro _
    rw [place, ready_eq, blank_eq, Nat.sub_add_cancel (by omega)]
    by_cases full : ring.l.ready = ring.l.slots
    · rw [full, Nat.add_mod_right, Nat.mod_eq_of_lt write_lt, Function.update_self]
    · have stop := sound.counted.stop (by omega)
      by_cases same : (ring.l.writeSlot + ring.l.ready) % ring.l.slots = ring.l.writeSlot
      · rw [same, Function.update_self]
      · rwa [Function.update_of_ne same]

theorem blank_update (sound : Sound ring) {slot : Nat} (within : slot < ring.l.slots)
    (blank : Function.update ring.l.blank ring.l.writeSlot false slot = true) :
    emiLogBlank (Function.update ring.flash ring.l.writeSlot content slot) = true := by
  by_cases same : slot = ring.l.writeSlot
  · rw [same, Function.update_self] at blank
    cases blank
  · rw [Function.update_of_ne same] at blank ⊢
    exact sound.blank_eq slot within blank

theorem failed (sound : Sound ring) (room : ring.l.ready ≠ 0) (spoiled : emiLogDecode content = none) :
    Sound (ring.appendTry r (.failed content)).1 := by
  have empty := sound.record_write room
  have left : record (Function.update ring.flash ring.l.writeSlot content) ring.l.writeSlot = none := by
    rw [record, Function.update_self, spoiled]
    rfl
  have records_eq := records_push sound.write_lt empty content
  rw [left, Option.toList_none, List.append_nil] at records_eq
  refine ⟨sound.sectors, Nat.mod_lt _ sound.positive, sound.counted_next room rfl rfl rfl rfl, ?_, ?_, ?_, ?_,
    sound.fresh, ?_⟩
  · exact fun _ within blank => sound.blank_update within blank
  · intro slot within
    simp only [Ring.appendTry] at within ⊢
    by_cases same : slot = ring.l.writeSlot
    · rw [same, left, sound.good_eq _ sound.write_lt, empty]
    · rw [record_update same]
      exact sound.good_eq slot within
  · simp only [Ring.appendTry, records_eq]
    exact sound.order
  · simp only [Ring.appendTry, records_eq]
    exact sound.newest
  · simp only [Ring.appendTry, records_eq]
    exact sound.valid_eq

/-- A try that stores the record. -/
theorem stored (sound : Sound ring) (room : ring.l.ready ≠ 0) (numbered : ring.l.nextSeq.toNat + 1 < 4294967296) :
    Sound (ring.appendTry r .stored).1 := by
  have empty := sound.record_write room
  have written : record (Function.update ring.flash ring.l.writeSlot
      (emiLogEncode { r with seq := ring.l.nextSeq, run := ring.l.run })) ring.l.writeSlot =
        some (ring.l.nextSeq, ring.l.run) := record_encode _
  have records_eq := records_push sound.write_lt empty (emiLogEncode { r with seq := ring.l.nextSeq, run := ring.l.run })
  rw [written, Option.toList_some] at records_eq
  have next_eq : (ring.l.nextSeq + 1).toNat = ring.l.nextSeq.toNat + 1 := by
    rw [BitVec.toNat_add]
    exact Nat.mod_eq_of_lt numbered
  refine ⟨sound.sectors, Nat.mod_lt _ sound.positive, sound.counted_next room rfl rfl rfl rfl, ?_, ?_, ?_, ?_,
    fun none => by simp [Ring.appendTry] at none, ?_⟩
  · exact fun _ within blank => sound.blank_update within blank
  · intro slot within
    simp only [Ring.appendTry] at within ⊢
    by_cases same : slot = ring.l.writeSlot
    · rw [same, written, Function.update_self]
      rfl
    · rw [record_update same, Function.update_of_ne same]
      exact sound.good_eq slot within
  · simp only [Ring.appendTry, records_eq, next_eq]
    rw [numbers, List.map_append]
    exact sound.order.push
  · simp only [Ring.appendTry, records_eq]
    rw [List.getLast?_concat]
    rfl
  · simp only [Ring.appendTry, records_eq]
    rw [List.length_append, ← sound.valid_eq]
    rfl

end Sound

/-- The slot holds the newest good record. -/
def Ring.Newest (ring : Ring) (slot : Nat) : Prop :=
  slot < ring.l.slots ∧ ring.l.good slot = true ∧ (record ring.flash slot).map Prod.fst = some ring.l.newestSeq

namespace Sound

variable {ring : Ring}

theorem turn {size start count : Nat} (start_lt : start < size) (count_lt : count < size) :
    (start + count) % size = if start + count < size then start + count else start + count - size := by
  split
  · rename_i short
    exact Nat.mod_eq_of_lt short
  · rename_i long
    rw [Nat.mod_eq_sub_mod (by omega), Nat.mod_eq_of_lt (by omega)]

theorem stop_offset (sound : Sound ring) (used : ring.l.ready < ring.l.slots) (stays : ¬ring.Skips) :
    ring.l.oldestSlot % emiLogPerSector ≤ ring.l.ready ∧
      (ring.l.writeSlot + (ring.l.ready - ring.l.oldestSlot % emiLogPerSector)) % ring.l.slots =
        ring.stopSector * emiLogPerSector := by
  obtain ⟨sectors, -, -, slots_eq⟩ := sound.sectors
  have write_lt := sound.write_lt
  have stop_eq := turn write_lt used
  simp only [Ring.Skips, Ring.stopSector, EmiLogT.oldestSlot, not_and, not_not, emiLogPerSector] at *
  generalize (ring.l.writeSlot + ring.l.ready) % ring.l.slots = stop at *
  have behind : stop % 64 ≤ ring.l.ready := by
    by_contra ahead
    have same : stop / 64 = ring.l.writeSlot / 64 := by split_ifs at stop_eq <;> omega
    have start := stays same
    split_ifs at stop_eq <;> omega
  refine ⟨behind, ?_⟩
  rw [turn write_lt (by omega)]
  split_ifs at stop_eq ⊢ <;> omega

theorem skip (sound : Sound ring) (rest : ∀ slot, ring.l.writeSlot ≤ slot →
      slot / emiLogPerSector = ring.l.writeSlot / emiLogPerSector → ring.l.good slot = false) : Sound ring.skip := by
  obtain ⟨sectors, two, most, slots_eq⟩ := sound.sectors
  have write_lt := sound.write_lt
  have next_eq : (ring.l.writeSlot / emiLogPerSector + 1) * emiLogPerSector % ring.l.slots =
      (ring.l.writeSlot + (emiLogPerSector - ring.l.writeSlot % emiLogPerSector)) % ring.l.slots := by
    congr 1
    simp only [emiLogPerSector]
    omega
  have records_eq : records ring.flash ring.l.slots
      ((ring.l.writeSlot / emiLogPerSector + 1) * emiLogPerSector % ring.l.slots) =
        records ring.flash ring.l.slots ring.l.writeSlot := by
    rw [next_eq]
    refine records_skip (by rw [slots_eq]; simp only [emiLogPerSector]; omega) ?_
    intro place member
    obtain ⟨i, small, rfl⟩ := mem_arc.mp member
    simp only [emiLogPerSector] at small slots_eq
    have inside : ring.l.writeSlot + i < ring.l.slots := by omega
    rw [Nat.mod_eq_of_lt inside]
    have none := rest (ring.l.writeSlot + i) (Nat.le_add_right _ _) (by simp only [emiLogPerSector]; omega)
    rw [sound.good_eq _ inside, Option.isSome_eq_false_iff, Option.isNone_iff_eq_none] at none
    exact none
  refine ⟨sound.sectors, Nat.mod_lt _ sound.positive, EmiLogT.countReady_counted _, sound.blank_eq, sound.good_eq,
    ?_, ?_, sound.fresh, ?_⟩
  · simp only [Ring.skip, EmiLogT.countReady, records_eq]
    exact sound.order
  · simp only [Ring.skip, EmiLogT.countReady, records_eq]
    exact sound.newest
  · simp only [Ring.skip, EmiLogT.countReady, records_eq]
    exact sound.valid_eq

/-- Erasing the sector of the first slot in use, when the newest record is in another. -/
theorem eraseStop (sound : Sound ring) (used : ring.l.ready + emiLogPerSector < ring.l.slots) (stays : ¬ring.Skips)
    (spared : ∀ slot, ring.Newest slot → slot / emiLogPerSector ≠ ring.stopSector) : Sound ring.eraseStop := by
  obtain ⟨sectors, two, most, slots_eq⟩ := sound.sectors
  obtain ⟨behind, starts⟩ := sound.stop_offset (by omega) stays
  have empty : ∀ place ∈ arc ring.l.slots ring.l.writeSlot (ring.l.ready - ring.l.oldestSlot % emiLogPerSector),
      record ring.flash place = none := by
    intro place member
    obtain ⟨i, small, rfl⟩ := mem_arc.mp member
    exact sound.record_ready (by omega)
  have erased (place : Nat) (there : place / emiLogPerSector = ring.stopSector) :
      record (ring.eraseSector ring.stopSector).flash place = none := by
    refine record_blank ?_
    simp only [Ring.eraseSector, if_pos there]
    decide
  have same (place : Nat) (other : place / emiLogPerSector ≠ ring.stopSector) :
      (ring.eraseSector ring.stopSector).flash place = ring.flash place := if_neg other
  have divides : emiLogPerSector ∣ ring.l.slots := slots_eq ▸ Nat.dvd_mul_left ..
  have split := records_erase divides (by omega) starts empty same erased
  have order := sound.order
  have newest := sound.newest
  have valid_eq := sound.valid_eq
  rw [split] at order newest valid_eq
  rw [numbers, List.map_append] at order
  refine ⟨sound.sectors, sound.write_lt, EmiLogT.countReady_counted _, ?_, ?_, order.drop, ?_, sound.fresh, ?_⟩
  · intro slot within blank
    simp only [Ring.eraseStop, Ring.eraseSector, EmiLogT.countReady] at within blank ⊢
    split at blank
    · rename_i there
      rw [if_pos there]
      decide
    · rename_i other
      rw [if_neg other]
      exact sound.blank_eq slot within blank
  · intro slot within
    by_cases there : slot / emiLogPerSector = ring.stopSector
    · change (if _ then _ else _) = (record (ring.eraseSector ring.stopSector).flash slot).isSome
      rw [if_pos there, erased slot there]
      rfl
    · change (if _ then _ else _) = (record (ring.eraseSector ring.stopSector).flash slot).isSome
      rw [if_neg there, record, same slot there]
      exact sound.good_eq slot within
  · change (records (ring.eraseSector ring.stopSector).flash ring.l.slots ring.l.writeSlot).getLast? =
      if ring.l.any then some (ring.l.newestSeq, ring.l.newestRun) else none
    cases any : ring.l.any with
    | false =>
      rw [any] at newest
      have none_left := List.getLast?_eq_none_iff.mp newest
      rw [(List.append_eq_nil_iff.mp none_left).2]
      rfl
    | true =>
      -- The newest record is in another sector, so it is still there.
      rw [any, if_pos rfl] at newest
      have member : (ring.l.newestSeq, ring.l.newestRun) ∈ records ring.flash ring.l.slots ring.l.writeSlot := by
        rw [split]
        exact List.mem_of_getLast? newest
      obtain ⟨slot, within, found⟩ := (mem_records sound.positive).mp member
      have elsewhere := spared slot ⟨within, by rw [sound.good_eq slot within, found]; rfl, by rw [found]; rfl⟩
      have kept : (ring.l.newestSeq, ring.l.newestRun) ∈
          records (ring.eraseSector ring.stopSector).flash ring.l.slots ring.l.writeSlot := by
        rw [mem_records sound.positive]
        refine ⟨slot, within, ?_⟩
        rw [record, same slot elsewhere]
        exact found
      rw [if_pos rfl, ← newest, List.getLast?_append_of_ne_nil _ (List.ne_nil_of_mem kept)]
  · change ring.l.valid - _ = (records (ring.eraseSector ring.stopSector).flash ring.l.slots ring.l.writeSlot).length
    have dropped : (List.range emiLogPerSector).countP (fun k => ring.l.good (ring.stopSector * emiLogPerSector + k)) =
          ((arc ring.l.slots (ring.l.writeSlot + (ring.l.ready - ring.l.oldestSlot % emiLogPerSector))
            emiLogPerSector).filterMap (record ring.flash)).length := by
      rw [List.length_filterMap_eq_countP, arc_sector divides sound.positive starts, List.countP_map]
      apply List.countP_congr
      intro k member
      have on_arc : ring.stopSector * emiLogPerSector + k ∈ arc ring.l.slots
          (ring.l.writeSlot + (ring.l.ready - ring.l.oldestSlot % emiLogPerSector)) emiLogPerSector := by
        rw [arc_sector divides sound.positive starts]
        exact List.mem_map_of_mem member
      obtain ⟨i, _, place_eq⟩ := mem_arc.mp on_arc
      rw [sound.good_eq _ (place_eq ▸ Nat.mod_lt _ sound.positive)]
      rfl
    rw [dropped, valid_eq, List.length_append, Nat.add_sub_cancel_left]

end Sound

end BenchPod.EmiLog
