import BenchPod.Blob.Store

/-!
# What a write leaves on the chip

The slots lie apart, a write stays inside its slot, its first erase takes the commit word, and a
write that came to its commit word has the whole blob on the chip.
-/

namespace BenchPod.Blob

open Endian

/-- End of a slot. -/
def slotEnd (id : Nat) : Nat := blobSlotBase id + (slotAt id).size

theorem slot_shape {id : Nat} (known : id < blobSlotCount) :
    w25qBlock ∣ blobSlotBase id ∧ w25qSector ∣ (slotAt id).size ∧ blobHdrSize ≤ (slotAt id).size ∧
      slotEnd id ≤ 0x800000 := by
  have all : ∀ id < blobSlotCount, w25qBlock ∣ blobSlotBase id ∧ w25qSector ∣ (slotAt id).size ∧
      blobHdrSize ≤ (slotAt id).size ∧ slotEnd id ≤ 0x800000 := by
    decide
  exact all id known

theorem slots_apart {id other : Nat} (known : id < blobSlotCount) (found : other < blobSlotCount)
    (apart : id ≠ other) : slotEnd id ≤ blobSlotBase other ∨ slotEnd other ≤ blobSlotBase id := by
  have all : ∀ id < blobSlotCount, ∀ other < blobSlotCount, id ≠ other →
      slotEnd id ≤ blobSlotBase other ∨ slotEnd other ≤ blobSlotBase id := by
    decide
  exact all id known other found apart

/-- The end of the sectors that a blob of `len` bytes covers in its slot. -/
def blobEnd (id len : Nat) : Nat := (blobData id + len + w25qSector - 1) / w25qSector * w25qSector

theorem blobEnd_bounds {id len : Nat} (known : id < blobSlotCount) (fits : len ≤ blobSlotCapacity id) :
    blobData id + len ≤ blobEnd id len ∧ blobEnd id len < blobData id + len + w25qSector ∧
      blobEnd id len ≤ slotEnd id := by
  obtain ⟨⟨k, base⟩, ⟨m, size⟩, header, -⟩ := slot_shape known
  simp only [blobSlotCapacity, blobEnd, slotEnd, blobData, base, size, w25qBlock, w25qSector, blobHdrSize] at *
  omega

theorem eraseRange_slot {id len : Nat} (known : id < blobSlotCount) (fits : len ≤ blobSlotCapacity id) :
    eraseRange (blobSlotBase id) (blobHdrSize + len) = eraseLoop (blobEnd id len) (blobSlotBase id) := by
  obtain ⟨⟨k, base⟩, ⟨m, size⟩, header, limit⟩ := slot_shape known
  have small : blobSlotBase id + (blobHdrSize + len) + w25qSector - 1 < 2 ^ 32 := by
    simp only [blobSlotCapacity, slotEnd, w25qSector, blobHdrSize] at *
    omega
  have starts : blobSlotBase id / w25qSector * w25qSector = blobSlotBase id := by
    refine Nat.div_mul_cancel (Nat.dvd_trans ?_ ⟨k, base⟩)
    decide
  rw [eraseRange, Nat.mod_eq_of_lt small, starts, blobEnd, blobData, ← Nat.add_assoc]

theorem eraseRange_erases {id len : Nat} (known : id < blobSlotCount)
    (fits : len ≤ blobSlotCapacity id) :
    Erases (eraseRange (blobSlotBase id) (blobHdrSize + len)) (blobSlotBase id) (blobEnd id len) := by
  rw [eraseRange_slot known fits]
  refine eraseLoop_erases _ _ (Nat.dvd_mul_left _ _) ?_
  exact Nat.dvd_trans (by decide) (slot_shape known).1

theorem eraseLoop_cons {stop addr : Nat} (below : addr < stop) :
    ∃ size, eraseLoop stop addr = .erase addr size :: eraseLoop stop (addr + size) ∧
      w25qSector ≤ size ∧ w25qSector ∣ size := by
  rw [eraseLoop, if_pos below]
  split
  · exact ⟨w25qBlock, rfl, by decide, by decide⟩
  · exact ⟨w25qSector, rfl, Nat.le_refl _, Nat.dvd_refl _⟩

theorem eraseRange_head {id len : Nat} (known : id < blobSlotCount) (fits : len ≤ blobSlotCapacity id) :
    ∃ size rest, eraseRange (blobSlotBase id) (blobHdrSize + len) = .erase (blobSlotBase id) size :: rest ∧
      blobHdrSize ≤ size ∧ blobSlotBase id + size ≤ slotEnd id ∧
      NorOp.Inside rest (blobData id) (slotEnd id) := by
  obtain ⟨first, -, last⟩ := blobEnd_bounds known fits
  have below : blobSlotBase id < blobEnd id len := by
    simp only [blobData, blobHdrSize] at first
    omega
  obtain ⟨size, split, least, divides⟩ := eraseLoop_cons below
  have whole := eraseRange_erases known fits
  rw [eraseRange_slot known fits, split] at whole ⊢
  have head := whole.inside _ (List.mem_cons_self ..)
  have rest := eraseLoop_erases (blobEnd id len) (blobSlotBase id + size) (Nat.dvd_mul_left _ _)
    (Nat.dvd_add (Nat.dvd_trans (by decide) (slot_shape known).1) divides)
  refine ⟨size, _, rfl, least, Nat.le_trans head.2 last, ?_⟩
  intro op member
  obtain ⟨above, under⟩ := rest.inside op member
  refine ⟨Nat.le_trans ?_ above, Nat.le_trans under last⟩
  exact Nat.add_le_add_left least _

theorem w25qProgram_inside (addr : Nat) (data : List Byte) :
    NorOp.Inside (w25qProgram addr data) addr (addr + data.length) := by
  induction addr, data using w25qProgram.induct with
  | case1 addr =>
    rw [w25qProgram, if_pos rfl]
    intro op member
    simp at member
  | case2 addr data left n ih =>
    rw [w25qProgram, if_neg left]
    intro op member
    obtain rfl | later := List.mem_cons.mp member
    · simp only [NorOp.off, NorOp.size, List.length_take]
      omega
    · obtain ⟨above, below⟩ := ih op later
      simp only [List.length_drop] at below
      omega

theorem w25qProgram_page {addr : Nat} {data : List Byte} (left : data ≠ [])
    (room : addr % w25qPage + data.length ≤ w25qPage) : w25qProgram addr data = [.program addr data] := by
  have all : min data.length (w25qPage - addr % w25qPage) = data.length := by omega
  rw [w25qProgram, if_neg left]
  simp only [all, List.take_length, List.drop_length]
  rw [w25qProgram, if_pos rfl]

theorem program_blank {chip : Nor} {addr : Nat} {data : List Byte} (left : data ≠ [])
    (room : addr % w25qPage + data.length ≤ w25qPage)
    (done : (chip.attempts (w25qProgram addr data)).2 = .done)
    (blank : ∀ i < data.length, chip.byte (addr + i) = 0xFF) :
    Nor.bytes (chip.attempts (w25qProgram addr data)).1.byte addr data.length = data := by
  rw [Nor.attempts_done done, w25qProgram_page left room]
  apply List.ext_getElem
  · simp
  · intro i _ within
    have covered : addr ≤ addr + i ∧ addr + i < addr + data.length := ⟨Nat.le_add_right _ _, by omega⟩
    simp only [Nor.bytes, List.getElem_map, List.getElem_range, NorOp.results, List.foldl_cons,
      List.foldl_nil, NorOp.result, if_pos covered, blank i within, Nat.add_sub_cancel_left,
      List.getD, List.getElem?_eq_getElem within, Option.getD_some]
    exact BitVec.allOnes_and

theorem page_eq {off i : Nat} (divides : w25qPage ∣ off) :
    i / w25qPage * w25qPage = off ↔ off ≤ i ∧ i < off + w25qPage := by
  obtain ⟨k, rfl⟩ := divides
  simp only [w25qPage]
  omega

namespace Request

variable {r : Request} {hash : List Byte → Digest} {chip : Nor} {data id : Nat} {read : Bool}

theorem programPages_apart {offs : List Nat} {x : Nat}
    (apart : ∀ off ∈ offs, x < data + off ∨ data + off + min (r.len - off) w25qPage ≤ x) :
    (r.programPages data chip offs).1.byte x = chip.byte x := by
  induction offs generalizing chip with
  | nil => rfl
  | cons off offs ih =>
    unfold programPages
    split
    · rfl
    · refine Nor.andThen_keeps ?_ ?_
      · refine Nor.attempts_inside (w25qProgram_inside _ _) ?_
        rw [Nor.bytes_length]
        exact apart off (List.mem_cons_self ..)
      · intro same
        rw [ih fun other member => apart other (List.mem_cons_of_mem _ member), same]

theorem programPages_outside {x : Nat} (apart : x < data ∨ data + r.len ≤ x) :
    (r.programPages data chip (strides r.len w25qPage)).1.byte x = chip.byte x := by
  refine programPages_apart ?_
  intro off member
  have below := (mem_strides (by decide)).mp member
  omega

/-- The page at an offset, once it is programmed over blank bytes. -/
theorem programPages_done {offs : List Nat} (aligned : w25qPage ∣ data)
    (below : ∀ off ∈ offs, off < r.len ∧ w25qPage ∣ off) (distinct : offs.Nodup)
    (blank : ∀ i < r.len, i / w25qPage * w25qPage ∈ offs → chip.byte (data + i) = 0xFF)
    (done : (r.programPages data chip offs).2 = .done) {i : Nat} (within : i < r.len)
    (listed : i / w25qPage * w25qPage ∈ offs) :
    (r.programPages data chip offs).1.byte (data + i) = r.content i := by
  induction offs generalizing chip with
  | nil => simp at listed
  | cons off offs ih =>
    obtain ⟨inside, divides⟩ := below off (List.mem_cons_self ..)
    have rest : ∀ other ∈ offs, other < r.len ∧ w25qPage ∣ other :=
      fun other member => below other (List.mem_cons_of_mem _ member)
    obtain ⟨fresh, distinct⟩ := List.nodup_cons.mp distinct
    unfold programPages at done ⊢
    split at done
    · cases done
    · rename_i page found
      obtain ⟨now, later⟩ := Nor.andThen_done.mp done
      dsimp only
      rw [Nor.andThen_of_done now]
      have length : (Nor.bytes page 0 (min (r.len - off) w25qPage)).length =
          min (r.len - off) w25qPage := Nor.bytes_length ..
      have apart : ∀ j < r.len, j / w25qPage * w25qPage ≠ off →
          data + j < data + off ∨ data + off + min (r.len - off) w25qPage ≤ data + j := by
        intro j _ other
        rw [Ne, page_eq divides] at other
        omega
      obtain same | behind := List.mem_cons.mp listed
      · obtain ⟨above, under⟩ := (page_eq divides).mp same
        have placed : off + i % w25qPage = i := by rw [← same, Nat.mul_comm, Nat.div_add_mod]
        have short : i % w25qPage < min (r.len - off) w25qPage := by omega
        have left : Nor.bytes page 0 (min (r.len - off) w25qPage) ≠ [] := by
          rw [← List.length_pos_iff, length]
          omega
        have room : (data + off) % w25qPage + (Nor.bytes page 0 (min (r.len - off) w25qPage)).length ≤ w25qPage := by
          rw [length, Nat.mod_eq_zero_of_dvd (Nat.dvd_add aligned divides)]
          omega
        have programmed := program_blank left room now (by
          intro j small
          rw [length] at small
          rw [Nat.add_assoc]
          refine blank _ (by omega) (List.mem_cons.mpr (.inl ?_))
          rw [page_eq divides]
          omega)
        rw [length] at programmed
        have byte := Nor.byte_eq_of_bytes programmed short
        rw [Nat.add_assoc, placed, Nat.zero_add] at byte
        have unlisted : ∀ other ∈ offs, data + i < data + other ∨
            data + other + min (r.len - other) w25qPage ≤ data + i := by
          intro other member
          have ne := ne_of_mem_of_not_mem member fresh
          rw [← same, ne_comm, Ne, page_eq (rest other member).2] at ne
          omega
        rw [programPages_apart unlisted, byte, content, same, found]
        rfl
      · refine ih rest distinct ?_ later behind
        intro j inside member
        have kept := apart j inside (ne_of_mem_of_not_mem member fresh)
        rw [Nor.attempts_inside (w25qProgram_inside _ _) (by rwa [length])]
        exact blank j inside (List.mem_cons_of_mem _ member)

@[simp]
theorem hashesBack_fst : (r.hashesBack hash read data chip).1 = chip := rfl

@[simp]
theorem data_length : r.blob.data.length = r.len := by simp [blob]

@[simp]
theorem header_length : (r.blob.info.header id).length = 64 := by
  simp [BlobInfo.header, Contents.info]

theorem staged_keeps {x : Nat} {value : Byte}
    (erased : (chip.attempts (eraseRange (blobSlotBase id) (blobHdrSize + r.len))).1.byte x = value)
    (data : x < blobData id ∨ blobData id + r.len ≤ x)
    (extra : x < blobSlotBase id + blobExtraOff ∨ blobSlotBase id + blobExtraOff + r.extra.length ≤ x)
    (header : x < blobSlotBase id ∨ blobSlotBase id + 64 ≤ x) :
    (r.staged hash id read chip).1.byte x = value := by
  refine Nor.andThen_keeps erased fun same => ?_
  refine Nor.andThen_keeps ((programPages_outside data).trans same) fun same => ?_
  refine Nor.andThen_keeps same fun same => ?_
  refine Nor.andThen_keeps ((Nor.attempts_inside (w25qProgram_inside _ _) extra).trans same) fun same => ?_
  refine (Nor.attempts_inside (w25qProgram_inside _ _) ?_).trans same
  rwa [header_length]

theorem staged_outside (known : id < blobSlotCount) (fits : r.len ≤ blobSlotCapacity id)
    (brief : r.extra.length ≤ blobExtraMax) {x : Nat} (apart : x < blobSlotBase id ∨ slotEnd id ≤ x) :
    (r.staged hash id read chip).1.byte x = chip.byte x := by
  obtain ⟨least, -, last⟩ := blobEnd_bounds known fits
  obtain ⟨-, -, header, -⟩ := slot_shape known
  have whole := (eraseRange_erases known fits).inside
  refine staged_keeps (Nor.attempts_inside whole ?_) ?_ ?_ ?_ <;>
    simp only [blobData, slotEnd, blobHdrSize, blobExtraOff, blobExtraMax] at * <;> omega

theorem staged_stopped {op : NorOp} {rest : List NorOp}
    (split : eraseRange (blobSlotBase id) (blobHdrSize + r.len) = op :: rest)
    (stopped : (chip.attempt op).2 ≠ .done) : r.staged hash id read chip = chip.attempt op := by
  have erases : chip.attempts (eraseRange (blobSlotBase id) (blobHdrSize + r.len)) = chip.attempt op := by
    rw [split]
    exact Nor.andThen_of_ne stopped
  unfold staged
  dsimp only
  rw [erases, Nor.andThen_of_ne stopped]

theorem staged_uncommitted {size : Nat} {rest : List NorOp}
    (split : eraseRange (blobSlotBase id) (blobHdrSize + r.len) = .erase (blobSlotBase id) size :: rest)
    (covers : blobHdrSize ≤ size) (behind : NorOp.Inside rest (blobData id) (slotEnd id))
    (erased : (chip.attempt (.erase (blobSlotBase id) size)).2 = .done) {i : Nat} (within : i < 4) :
    (r.staged hash id read chip).1.byte (blobSlotBase id + blobCommitOff + i) = 0xFF := by
  have low : blobCommitOff + i < blobHdrSize := by
    simp only [blobCommitOff, blobHdrSize]
    omega
  have header : blobSlotBase id + blobCommitOff + i < blobData id := by
    rw [Nat.add_assoc]
    exact Nat.add_lt_add_left low _
  have blank : (chip.attempt (.erase (blobSlotBase id) size)).1.byte (blobSlotBase id + blobCommitOff + i) =
      0xFF := by
    rw [Nor.attempt_done erased]
    refine if_pos ⟨?_, ?_⟩
    · omega
    · rw [Nat.add_assoc]
      exact Nat.add_lt_add_left (Nat.lt_of_lt_of_le low covers) _
  refine staged_keeps ?_ (.inl header) ?_ ?_
  · rw [split]
    refine Nor.andThen_keeps blank fun same => ?_
    exact (Nor.attempts_inside behind (.inl header)).trans same
  · simp only [blobCommitOff, blobExtraOff]
    omega
  · simp only [blobCommitOff]
    omega

theorem mem_pages {i : Nat} (within : i < r.len) : i / w25qPage * w25qPage ∈ strides r.len w25qPage := by
  rw [mem_strides (by decide)]
  exact ⟨Nat.lt_of_le_of_lt (Nat.div_mul_le_self _ _) within, Nat.dvd_mul_left _ _⟩

theorem pages_done (known : id < blobSlotCount)
    (blank : ∀ x, blobData id ≤ x → x < blobData id + r.len → chip.byte x = 0xFF)
    (done : (r.programPages (blobData id) chip (strides r.len w25qPage)).2 = .done) :
    Nor.bytes (r.programPages (blobData id) chip (strides r.len w25qPage)).1.byte (blobData id) r.len = r.blob.data := by
  have aligned : w25qPage ∣ blobData id := Nat.dvd_add (Nat.dvd_trans (by decide) (slot_shape known).1) (by decide)
  apply List.map_congr_left
  intro i listed
  have within := List.mem_range.mp listed
  refine programPages_done aligned ?_ (strides_nodup (by decide)) ?_ done within (mem_pages within)
  · intro off member
    exact (mem_strides (by decide)).mp member
  · intro j below _
    exact blank _ (Nat.le_add_right _ _) (Nat.add_lt_add_left below _)

theorem header_done (known : id < blobSlotCount) (brief : r.extra.length ≤ blobExtraMax)
    (blank : ∀ i < 64, chip.byte (blobSlotBase id + i) = 0xFF)
    (headed : ((chip.attempts (w25qProgram (blobSlotBase id + blobExtraOff) r.extra)).1.attempts
      (w25qProgram (blobSlotBase id) (r.blob.info.header id))).2 = .done) :
    Nor.bytes ((chip.attempts (w25qProgram (blobSlotBase id + blobExtraOff) r.extra)).1.attempts
        (w25qProgram (blobSlotBase id) (r.blob.info.header id))).1.byte (blobSlotBase id) 64 =
        r.blob.info.header id ∧
      ∀ x, blobData id ≤ x →
        ((chip.attempts (w25qProgram (blobSlotBase id + blobExtraOff) r.extra)).1.attempts
          (w25qProgram (blobSlotBase id) (r.blob.info.header id))).1.byte x = chip.byte x := by
  have page : blobSlotBase id % w25qPage = 0 := Nat.mod_eq_zero_of_dvd (Nat.dvd_trans (by decide) (slot_shape known).1)
  have length : (r.blob.info.header id).length = 64 := header_length
  have left : r.blob.info.header id ≠ [] := by
    rw [← List.length_pos_iff, length]
    decide
  have room : blobSlotBase id % w25qPage + (r.blob.info.header id).length ≤ w25qPage := by
    rw [page, length]
    decide
  have programmed := program_blank left room headed (by
    intro i within
    rw [length] at within
    rw [Nor.attempts_inside (w25qProgram_inside _ _) (.inl ?_), blank i within]
    exact Nat.add_lt_add_left (Nat.lt_trans within (by decide)) _)
  rw [length] at programmed
  refine ⟨programmed, ?_⟩
  intro x behind
  simp only [blobData, blobHdrSize, blobExtraMax] at behind brief
  rw [Nor.attempts_inside (w25qProgram_inside _ _) (.inr (by omega)),
    Nor.attempts_inside (w25qProgram_inside _ _) (.inr (by simp only [blobExtraOff]; omega))]

/-- What is on the chip when a write comes to its commit word. -/
theorem staged_done (known : id < blobSlotCount) (fits : r.len ≤ blobSlotCapacity id)
    (brief : r.extra.length ≤ blobExtraMax) (done : (r.staged hash id read chip).2 = .done) :
    Nor.bytes (r.staged hash id read chip).1.byte (blobSlotBase id) 64 = r.blob.info.header id ∧
      Nor.bytes (r.staged hash id read chip).1.byte (blobData id) r.len = r.blob.data ∧
      hash r.blob.data = r.sha256 := by
  obtain ⟨least, -, -⟩ := blobEnd_bounds known fits
  obtain ⟨erased, done⟩ := Nor.andThen_done.mp done
  obtain ⟨paged, done⟩ := Nor.andThen_done.mp done
  obtain ⟨hashed, done⟩ := Nor.andThen_done.mp done
  obtain ⟨added, headed⟩ := Nor.andThen_done.mp done
  unfold staged
  dsimp only
  rw [Nor.andThen_of_done erased, Nor.andThen_of_done paged, Nor.andThen_of_done hashed, Nor.andThen_of_done added]
  have blank : ∀ x, blobSlotBase id ≤ x → x < blobEnd id r.len →
      (chip.attempts (eraseRange (blobSlotBase id) (blobHdrSize + r.len))).1.byte x = 0xFF := by
    intro x above below
    have whole := eraseRange_erases known fits
    rw [Nor.attempts_done erased]
    exact NorOp.results_erased whole.erases (whole.covers x above below) _
  have data := pages_done known (fun x above below =>
    blank x (Nat.le_trans (Nat.le_add_right _ _) above) (Nat.lt_of_lt_of_le below least)) paged
  have untouched : ∀ i < 64, (r.programPages (blobData id)
      (chip.attempts (eraseRange (blobSlotBase id) (blobHdrSize + r.len))).1
      (strides r.len w25qPage)).1.byte (blobSlotBase id + i) = 0xFF := by
    intro i within
    have header : blobSlotBase id + i < blobData id := Nat.add_lt_add_left (Nat.lt_trans within (by decide)) _
    rw [programPages_outside (.inl header)]
    exact blank _ (Nat.le_add_right _ _) (by omega)
  obtain ⟨header, kept⟩ := header_done known brief untouched headed
  refine ⟨header, ?_, ?_⟩
  · rw [← data]
    exact Nor.bytes_congr fun x above _ => kept x above
  · rw [← data]
    simp only [hashesBack, ite_eq_left_iff, reduceCtorEq, imp_false, not_not] at hashed
    exact hashed.2

end Request
end BenchPod.Blob
