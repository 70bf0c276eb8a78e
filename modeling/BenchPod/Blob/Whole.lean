import BenchPod.Blob.Written

/-!
# Only whole blobs are presented

What `load_slot` accepts is the blob committed last to the slot, as long as no erase of a header's
sector is torn so that the header outlives the data it vouches for.
-/

namespace BenchPod.Blob

open Endian

theorem slice_append {front middle back : List Byte} {start count : Nat} (starts : front.length = start)
    (counts : middle.length = count) : ((front ++ (middle ++ back)).drop start).take count = middle := by
  rw [← starts, List.drop_left, ← counts, List.take_left]

/-- A header that was written is read back once its slot has a commit word. -/
theorem loadSlot_header {byte : Nat → Byte} {id : Nat} {blob : Contents}
    (header : Nor.bytes byte (blobSlotBase id) 64 = blob.info.header id) (known : id < 2 ^ 16)
    (short : blob.data.length < 2 ^ 32) :
    loadSlot byte id =
      if rd32 (Nor.bytes byte (blobSlotBase id + blobCommitOff) 4) ≠ blobCommitMagic ∨
        blob.data.length = 0 ∨ blobSlotCapacity id < blob.data.length then none
      else some blob.info := by
  have field {start count : Nat} (inside : start + count ≤ 64) :
      Nor.bytes byte (blobSlotBase id + start) count = ((blob.info.header id).drop start).take count := by
    rw [← header]
    exact Nor.bytes_slice byte _ inside
  simp only [BlobInfo.header, List.append_assoc] at field
  have magic : Nor.bytes byte (blobSlotBase id) 4 = le32 blobHdrMagic :=
    (@field 0 4 (by decide)).trans (List.take_left' (by simp))
  have version : Nor.bytes byte (blobSlotBase id + 4) 2 = le16 blobHdrVersion :=
    (field (by decide)).trans (slice_append (by simp) (by simp))
  have number : Nor.bytes byte (blobSlotBase id + 6) 2 = leBytes 2 id := by
    rw [field (by decide), ← List.append_assoc (le32 _)]
    exact slice_append (by simp) (by simp)
  have len : Nor.bytes byte (blobSlotBase id + 8) 4 = leBytes 4 blob.info.len := by
    rw [field (by decide), ← List.append_assoc (le32 _), ← List.append_assoc]
    exact slice_append (by simp) (by simp)
  have release : Nor.bytes byte (blobSlotBase id + 12) 4 = le32 blob.info.version := by
    rw [field (by decide), ← List.append_assoc (le32 _), ← List.append_assoc, ← List.append_assoc]
    exact slice_append (by simp) (by simp)
  have sha256 : Nor.bytes byte (blobSlotBase id + 16) 32 = blob.info.sha256 := by
    rw [field (by decide), ← List.append_assoc (le32 _), ← List.append_assoc, ← List.append_assoc,
      ← List.append_assoc]
    exact slice_append (by simp) (by simp [Contents.info])
  have length : leNat (leBytes 4 blob.info.len) = blob.data.length := leNat_leBytes_of_lt short
  unfold loadSlot
  dsimp only
  rw [magic, version, number, len, length, release, sha256, rd32_le32, rd32_le32, rd16_le16, leNat_leBytes_of_lt known]
  simp only [ne_eq, not_true_eq_false, false_or]
  rfl

theorem loadSlot_congr {before after : Nat → Byte} {id : Nat}
    (same : ∀ x, blobSlotBase id ≤ x → x < blobData id → after x = before x) :
    loadSlot after id = loadSlot before id := by
  have field {start count : Nat} (inside : start + count ≤ blobHdrSize) :
      Nor.bytes after (blobSlotBase id + start) count = Nor.bytes before (blobSlotBase id + start) count := by
    refine Nor.bytes_congr fun x above below => same x (by omega) ?_
    simp only [blobData]
    omega
  have magic := @field 0 4 (by decide)
  rw [Nat.add_zero] at magic
  have committed : Nor.bytes after (blobSlotBase id + blobCommitOff) 4 =
      Nor.bytes before (blobSlotBase id + blobCommitOff) 4 := field (by decide)
  unfold loadSlot
  dsimp only
  rw [magic, committed, @field 4 _ (by decide), @field 6 _ (by decide),
    @field 8 _ (by decide), @field 12 _ (by decide), @field 16 _ (by decide)]

theorem loadSlot_uncommitted {byte : Nat → Byte} {id : Nat}
    (uncommitted : rd32 (Nor.bytes byte (blobSlotBase id + blobCommitOff) 4) ≠ blobCommitMagic) :
    loadSlot byte id = none := if_pos (.inr (.inr (.inr (.inl uncommitted))))

theorem loadSlot_blank {byte : Nat → Byte} {id : Nat}
    (blank : byte (blobSlotBase id + blobCommitOff) = 0xFF) : loadSlot byte id = none := by
  refine loadSlot_uncommitted ?_
  intro committed
  have low : leNat (Nor.bytes byte (blobSlotBase id + blobCommitOff) 4) % 256 = 255 := by
    change ((byte (blobSlotBase id + blobCommitOff)).toNat + 256 * _) % 256 = 255
    rw [blank, Nat.add_mul_mod_self_left]
    rfl
  have word := congrArg (fun word : Word => word.toNat % 256) committed
  simp only [rd32, BitVec.toNat_ofNat] at word
  rw [Nat.mod_mod_of_dvd _ (by decide), low] at word
  exact absurd word (by decide)

/-- Whatever a slot presents is the blob committed last to it, whole and with its digest. -/
def Whole (hash : List Byte → Digest) (byte : Nat → Byte) (last : Nat → Option Contents) : Prop :=
  ∀ id < blobSlotCount, ∀ found, loadSlot byte id = some found →
    ∃ blob, last id = some blob ∧ blob.info = found ∧
      Nor.bytes byte (blobData id) found.len = blob.data ∧ hash blob.data = blob.sha256

/-- A torn erase of a header leaves no header, or the old one with all of its data. -/
def Spares (byte : Nat → Byte) (id : Nat) (op : NorOp) : List NorFault → Prop
  | .fails leaves :: _ | .cut leaves :: _ =>
    loadSlot (op.spoiled leaves byte) id = none ∨
      (loadSlot (op.spoiled leaves byte) id = loadSlot byte id ∧
        ∀ found ∈ loadSlot byte id, Nor.bytes (op.spoiled leaves byte) (blobData id) found.len =
          Nor.bytes byte (blobData id) found.len)
  | _ => True

/-- The first erase of a write and the erase of a clear spare what they tear. -/
def Event.spares (s : BlobStore) : Event → Prop
  | .write id r w =>
    r.accepted s.capacity id = true →
      ∀ op ∈ (eraseRange (blobSlotBase id) (blobHdrSize + r.len)).head?, Spares s.byte id op w.ops
  | .clear id w => slotOk s.capacity id = true → Spares s.byte id (.erase (blobSlotBase id) w25qSector) w.ops
  | _ => True

variable {hash : List Byte → Digest} {last : Nat → Option Contents} {before after : Nat → Byte}

theorem Whole.keep (whole : Whole hash before last)
    (kept : ∀ id < blobSlotCount, loadSlot after id = none ∨ (loadSlot after id = loadSlot before id ∧
      ∀ found ∈ loadSlot before id, Nor.bytes after (blobData id) found.len =
        Nor.bytes before (blobData id) found.len)) : Whole hash after last := by
  intro id known found loaded
  obtain empty | ⟨same, data⟩ := kept id known
  · rw [empty] at loaded
    cases loaded
  · rw [same] at loaded
    obtain ⟨blob, committed, info, stored, digest⟩ := whole id known found loaded
    exact ⟨blob, committed, info, (data found loaded).trans stored, digest⟩

theorem slotOk_known {capacity id : Nat} (ok : slotOk capacity id = true) : id < blobSlotCount := by
  simp only [slotOk, Bool.and_eq_true, decide_eq_true_eq] at ok
  exact ok.1

theorem loadSlot_len {byte : Nat → Byte} {id : Nat} {found : BlobInfo}
    (loaded : loadSlot byte id = some found) : found.len ≤ blobSlotCapacity id := by
  unfold loadSlot at loaded
  dsimp only at loaded
  split at loaded
  · cases loaded
  · rename_i accepted
    rw [← Option.some.inj loaded]
    simp only [not_or, Nat.not_lt] at accepted
    exact accepted.2.2.2.2.2

theorem slot_same {id : Nat} (known : id < blobSlotCount)
    (same : ∀ x, blobSlotBase id ≤ x → x < slotEnd id → after x = before x) :
    loadSlot after id = loadSlot before id ∧
      ∀ found ∈ loadSlot before id, Nor.bytes after (blobData id) found.len =
        Nor.bytes before (blobData id) found.len := by
  obtain ⟨-, -, header, -⟩ := slot_shape known
  constructor
  · refine loadSlot_congr fun x above below => same x above ?_
    simp only [blobData, slotEnd] at below ⊢
    omega
  · intro found loaded
    have fits := loadSlot_len loaded
    refine Nor.bytes_congr fun x above below => same x ?_ ?_
    · exact Nat.le_trans (Nat.le_add_right _ _) above
    · simp only [blobData, slotEnd, blobSlotCapacity] at *
      omega

namespace Request

variable {r : Request} {chip : Nor} {id : Nat} {read : Bool}

theorem accepted_iff {capacity : Nat} : r.accepted capacity id = true ↔ slotOk capacity id = true ∧
    r.len ≠ 0 ∧ r.len ≤ blobSlotCapacity id ∧ r.extra.length ≤ blobExtraMax := by
  simp [accepted, and_assoc]

theorem written_after {x : Nat}
    (apart : x < blobSlotBase id + blobCommitOff ∨ blobSlotBase id + blobCommitOff + 4 ≤ x) :
    (r.written hash id read chip).1.byte x = (r.staged hash id read chip).1.byte x := by
  refine Nor.andThen_keeps rfl fun _ => ?_
  refine Nor.attempts_inside (w25qProgram_inside _ _) ?_
  rwa [le32_length]

theorem written_outside (known : id < blobSlotCount) (fits : r.len ≤ blobSlotCapacity id)
    (brief : r.extra.length ≤ blobExtraMax) {x : Nat} (apart : x < blobSlotBase id ∨ slotEnd id ≤ x) :
    (r.written hash id read chip).1.byte x = chip.byte x := by
  obtain ⟨-, -, header, -⟩ := slot_shape known
  rw [written_after, staged_outside known fits brief apart]
  simp only [slotEnd, blobHdrSize, blobCommitOff] at *
  omega

theorem written_uncommitted (known : id < blobSlotCount) (fits : r.len ≤ blobSlotCapacity id)
    (uncommitted : ¬((r.staged hash id read chip).2 = .done ∧
      rd32 (Nor.bytes (r.written hash id read chip).1.byte (blobSlotBase id + blobCommitOff) 4) =
        blobCommitMagic)) :
    loadSlot (r.written hash id read chip).1.byte id = none ∨
      ∃ op, op ∈ (eraseRange (blobSlotBase id) (blobHdrSize + r.len)).head? ∧
        (chip.attempt op).2 ≠ .done ∧ r.written hash id read chip = chip.attempt op := by
  obtain ⟨size, rest, split, covers, -, behind⟩ := eraseRange_head known fits
  by_cases erased : (chip.attempt (.erase (blobSlotBase id) size)).2 = .done
  · left
    by_cases done : (r.staged hash id read chip).2 = .done
    · exact loadSlot_uncommitted fun committed => uncommitted ⟨done, committed⟩
    · rw [written, Nor.andThen_of_ne done]
      exact loadSlot_blank (staged_uncommitted split covers behind erased (Nat.succ_pos 3))
  · right
    have stopped := @staged_stopped r hash chip id read _ _ split erased
    refine ⟨_, by rw [split]; rfl, erased, ?_⟩
    rw [written, stopped, Nor.andThen_of_ne erased]

theorem written_committed (known : id < blobSlotCount) (fits : r.len ≤ blobSlotCapacity id)
    (brief : r.extra.length ≤ blobExtraMax) (done : (r.staged hash id read chip).2 = .done)
    {found : BlobInfo} (loaded : loadSlot (r.written hash id read chip).1.byte id = some found) :
    r.blob.info = found ∧
      Nor.bytes (r.written hash id read chip).1.byte (blobData id) found.len = r.blob.data ∧
      hash r.blob.data = r.sha256 := by
  obtain ⟨header, data, digest⟩ := staged_done known fits brief done
  have same : Nor.bytes (r.written hash id read chip).1.byte (blobSlotBase id) 64 = r.blob.info.header id := by
    rw [← header]
    refine Nor.bytes_congr fun x above below => written_after (.inl ?_)
    exact Nat.lt_trans below (Nat.add_lt_add_left (by decide) _)
  have short : r.blob.data.length < 2 ^ 32 := by
    obtain ⟨-, -, -, limit⟩ := slot_shape known
    simp only [data_length, blobSlotCapacity, slotEnd] at *
    omega
  rw [loadSlot_header same (Nat.lt_trans known (by decide)) short] at loaded
  have info : r.blob.info = found := (ite_eq_iff.mp loaded).elim (fun left => absurd left.2 (by simp))
    fun right => Option.some.inj right.2
  refine ⟨info, ?_, digest⟩
  rw [← data, ← info]
  simp only [Contents.info, data_length]
  refine Nor.bytes_congr fun x above _ => written_after (.inr ?_)
  exact Nat.le_trans (Nat.add_le_add_left (show blobCommitOff + 4 ≤ blobHdrSize by decide) _) above

end Request

@[simp]
theorem settle_byte (s : BlobStore) (id : Nat) (read : Bool) (ended : Nor × NorStatus) :
    (s.settle id read ended).byte = ended.1.byte := by
  obtain ⟨chip, status⟩ := ended
  cases status <;> rfl

theorem spares_kept {chip : Nor} {id : Nat} {op : NorOp} (spares : Spares chip.byte id op chip.ahead)
    (stopped : (chip.attempt op).2 ≠ .done) :
    loadSlot (chip.attempt op).1.byte id = none ∨
      (loadSlot (chip.attempt op).1.byte id = loadSlot chip.byte id ∧
        ∀ found ∈ loadSlot chip.byte id, Nor.bytes (chip.attempt op).1.byte (blobData id) found.len =
          Nor.bytes chip.byte (blobData id) found.len) := by
  obtain ⟨byte, ahead⟩ := chip
  cases ahead with
  | nil => exact absurd rfl stopped
  | cons fault ahead =>
    cases fault with
    | none => exact absurd rfl stopped
    | fails leaves => exact spares
    | cut leaves => exact spares

theorem other_slots {id : Nat} (known : id < blobSlotCount)
    (outside : ∀ x, x < blobSlotBase id ∨ slotEnd id ≤ x → after x = before x)
    {other : Nat} (found : other < blobSlotCount) (apart : other ≠ id) :
    ∀ x, blobSlotBase other ≤ x → x < slotEnd other → after x = before x := by
  intro x above below
  have away := slots_apart known found apart.symm
  exact outside x (by omega)

theorem Whole.write {s : BlobStore} {id : Nat} {r : Request} {w : Weather}
    (whole : Whole hash s.byte last) (spares : (Event.write id r w).spares s) :
    Whole hash (s.step hash (.write id r w)).byte (latest last (s.commit hash (.write id r w)).toList) := by
  by_cases accepted : r.accepted s.capacity id = true
  · obtain ⟨ok, -, fits, brief⟩ := Request.accepted_iff.mp accepted
    have known := slotOk_known ok
    have byte : (s.step hash (.write id r w)).byte = (r.written hash id w.hashRead ⟨s.byte, w.ops⟩).1.byte := by
      simp [BlobStore.step, BlobStore.blobStoreWriteExt, accepted]
    have outside : ∀ x, x < blobSlotBase id ∨ slotEnd id ≤ x → (s.step hash (.write id r w)).byte x = s.byte x := by
      intro x apart
      rw [byte]
      exact Request.written_outside known fits brief apart
    by_cases committed : (r.staged hash id w.hashRead ⟨s.byte, w.ops⟩).2 = .done ∧
        rd32 (Nor.bytes (r.written hash id w.hashRead ⟨s.byte, w.ops⟩).1.byte
          (blobSlotBase id + blobCommitOff) 4) = blobCommitMagic
    · have commit : s.commit hash (.write id r w) = some (id, r.blob) := if_pos ⟨accepted, committed⟩
      rw [commit]
      intro other found info loaded
      by_cases same : other = id
      · subst same
        rw [byte] at loaded ⊢
        obtain ⟨written, data, digest⟩ := Request.written_committed known fits brief committed.1 loaded
        exact ⟨r.blob, Function.update_self .., written, data, digest⟩
      · obtain ⟨header, data⟩ := slot_same found (other_slots known outside found same)
        rw [header] at loaded
        obtain ⟨blob, latest, stored, contents, digest⟩ := whole other found info loaded
        refine ⟨blob, ?_, stored, (data info loaded).trans contents, digest⟩
        exact (Function.update_of_ne same ..).trans latest
    · have commit : s.commit hash (.write id r w) = none := if_neg fun both => committed both.2
      rw [commit]
      refine whole.keep fun other found => ?_
      by_cases same : other = id
      · subst same
        rw [byte]
        obtain empty | ⟨op, head, stopped, only⟩ := Request.written_uncommitted known fits committed
        · exact .inl empty
        · rw [only]
          exact spares_kept (spares accepted op head) stopped
      · exact .inr (slot_same found (other_slots known outside found same))
  · have commit : s.commit hash (.write id r w) = none := if_neg fun both => accepted both.1
    rw [commit]
    have same : s.step hash (.write id r w) = s := by simp [BlobStore.step, BlobStore.blobStoreWriteExt, accepted]
    rw [same]
    exact whole

theorem clear_outside {chip : Nor} {id : Nat} (known : id < blobSlotCount) {x : Nat}
    (apart : x < blobSlotBase id ∨ slotEnd id ≤ x) :
    (chip.attempts [.erase (blobSlotBase id) w25qSector]).1.byte x = chip.byte x := by
  obtain ⟨-, -, header, -⟩ := slot_shape known
  refine @Nor.attempts_inside chip _ (blobSlotBase id) (slotEnd id) x ?_ apart
  intro op member
  obtain rfl := List.mem_singleton.mp member
  exact ⟨Nat.le_refl _, Nat.add_le_add_left header _⟩

theorem Whole.clear {s : BlobStore} {id : Nat} {w : Weather} (whole : Whole hash s.byte last)
    (spares : (Event.clear id w).spares s) : Whole hash (s.step hash (.clear id w)).byte last := by
  by_cases ok : slotOk s.capacity id = true
  · have known := slotOk_known ok
    have byte : (s.step hash (.clear id w)).byte =
        (Nor.attempts ⟨s.byte, w.ops⟩ [.erase (blobSlotBase id) w25qSector]).1.byte := by
      simp [BlobStore.step, BlobStore.blobStoreClear, ok]
    refine whole.keep fun other found => ?_
    rw [byte]
    by_cases same : other = id
    · subst same
      by_cases erased : (Nor.attempt ⟨s.byte, w.ops⟩ (.erase (blobSlotBase other) w25qSector)).2 = .done
      · left
        refine loadSlot_blank ?_
        rw [Nor.attempts, Nor.andThen_of_done erased]
        change (Nor.attempt ⟨s.byte, w.ops⟩ _).1.byte _ = _
        rw [Nor.attempt_done erased]
        exact if_pos ⟨Nat.le_add_right _ _, Nat.add_lt_add_left (by decide) _⟩
      · rw [Nor.attempts, Nor.andThen_of_ne erased]
        exact spares_kept (spares ok) erased
    · exact .inr (slot_same found (other_slots known (fun x => clear_outside known) found same))
  · have same : s.step hash (.clear id w) = s := by
      simp [BlobStore.step, BlobStore.blobStoreClear, ok]
    rw [same]
    exact whole

theorem latest_append (front back : List (Nat × Contents)) :
    latest last (front ++ back) = latest (latest last front) back := List.foldl_append

theorem Whole.step {s : BlobStore} {event : Event} (whole : Whole hash s.byte last)
    (spares : event.spares s) :
    Whole hash (s.step hash event).byte (latest last (s.commit hash event).toList) := by
  cases event with
  | load capacity reads =>
    have same : (s.step hash (.load capacity reads)).byte = s.byte := by
      simp only [BlobStore.step, BlobStore.blobStoreLoad]
      split <;> rfl
    rw [same]
    exact whole
  | write id r w => exact whole.write spares
  | clear id w => exact whole.clear spares
  | off => exact whole

theorem Whole.run {s : BlobStore} {events : List Event} (whole : Whole hash s.byte last)
    (along : (store hash).Along (fun s event => event.spares s) s events) :
    Whole hash ((store hash).run s events).byte (latest last ((store hash).emitted s events)) := by
  induction events generalizing s last with
  | nil => exact whole
  | cons event events ih =>
    have rest := ih (whole.step along.1) along.2
    rw [← latest_append] at rest
    exact rest

/-- The slot a call works on. -/
def Event.target : Event → Option Nat
  | .write id _ _ => some id
  | .clear id _ => some id
  | _ => none

theorem step_outside {s : BlobStore} {event : Event} {x : Nat}
    (apart : ∀ id ∈ event.target, x < blobSlotBase id ∨ slotEnd id ≤ x) :
    (s.step hash event).byte x = s.byte x := by
  cases event with
  | load capacity reads =>
    simp only [BlobStore.step, BlobStore.blobStoreLoad]
    split <;> rfl
  | write id r w =>
    by_cases accepted : r.accepted s.capacity id = true
    · obtain ⟨ok, -, fits, brief⟩ := Request.accepted_iff.mp accepted
      simp only [BlobStore.step, BlobStore.blobStoreWriteExt, accepted, if_true, settle_byte]
      exact Request.written_outside (slotOk_known ok) fits brief (apart id rfl)
    · simp [BlobStore.step, BlobStore.blobStoreWriteExt, accepted]
  | clear id w =>
    by_cases ok : slotOk s.capacity id = true
    · simp only [BlobStore.step, BlobStore.blobStoreClear, ok, if_true, settle_byte]
      exact clear_outside (slotOk_known ok) (apart id rfl)
    · simp [BlobStore.step, BlobStore.blobStoreClear, ok]
  | off => rfl

namespace Request

variable {r : Request} {chip : Nor} {id : Nat}

theorem programPages_calm {data : Nat} {offs : List Nat} (calm : chip.ahead = [])
    (delivered : ∀ off, (r.src off).isSome) :
    (r.programPages data chip offs).2 = .done ∧ (r.programPages data chip offs).1.ahead = [] := by
  induction offs generalizing chip with
  | nil => exact ⟨rfl, calm⟩
  | cons off offs ih =>
    unfold programPages
    obtain ⟨page, found⟩ := Option.isSome_iff_exists.mp (delivered off)
    rw [found]
    obtain ⟨done, still⟩ := @Nor.attempts_calm chip (w25qProgram (data + off)
      (Nor.bytes page 0 (min (r.len - off) w25qPage))) calm
    dsimp only
    rw [Nor.andThen_of_done done]
    exact ih still

theorem staged_calm (known : id < blobSlotCount) (fits : r.len ≤ blobSlotCapacity id)
    (calm : chip.ahead = []) (delivered : ∀ off, (r.src off).isSome)
    (digest : hash r.blob.data = r.sha256) :
    (r.staged hash id true chip).2 = .done ∧ (r.staged hash id true chip).1.ahead = [] := by
  obtain ⟨least, -, -⟩ := blobEnd_bounds known fits
  obtain ⟨erased, calm⟩ := @Nor.attempts_calm chip (eraseRange (blobSlotBase id) (blobHdrSize + r.len)) calm
  have blank : ∀ x, blobData id ≤ x → x < blobData id + r.len →
      (chip.attempts (eraseRange (blobSlotBase id) (blobHdrSize + r.len))).1.byte x = 0xFF := by
    intro x above below
    have whole := eraseRange_erases known fits
    rw [Nor.attempts_done erased]
    refine NorOp.results_erased whole.erases (whole.covers x ?_ (Nat.lt_of_lt_of_le below least)) _
    exact Nat.le_trans (Nat.le_add_right _ _) above
  obtain ⟨paged, calm⟩ := @programPages_calm r _ (blobData id) (strides r.len w25qPage) calm delivered
  have hashed : (r.hashesBack hash true (blobData id) (r.programPages (blobData id)
      (chip.attempts (eraseRange (blobSlotBase id) (blobHdrSize + r.len))).1
      (strides r.len w25qPage)).1).2 = .done := by
    simp [hashesBack, pages_done known blank paged, digest]
  obtain ⟨added, calm⟩ := @Nor.attempts_calm _ (w25qProgram (blobSlotBase id + blobExtraOff) r.extra) calm
  unfold staged
  dsimp only
  rw [Nor.andThen_of_done erased, Nor.andThen_of_done paged, Nor.andThen_of_done hashed, hashesBack_fst,
    Nor.andThen_of_done added]
  exact Nor.attempts_calm calm

end Request

/-- A write on which nothing goes wrong commits its blob, and the slot presents it. -/
theorem write_calm {s : BlobStore} {id : Nat} {r : Request}
    (accepted : r.accepted s.capacity id = true) (delivered : ∀ off, (r.src off).isSome)
    (digest : hash r.blob.data = r.sha256) :
    s.commit hash (.write id r {}) = some (id, r.blob) ∧
      loadSlot (s.step hash (.write id r {})).byte id = some r.blob.info := by
  obtain ⟨ok, some_data, fits, brief⟩ := Request.accepted_iff.mp accepted
  have known := slotOk_known ok
  obtain ⟨done, calm⟩ : (r.staged hash id true ⟨s.byte, []⟩).2 = .done ∧
      (r.staged hash id true ⟨s.byte, []⟩).1.ahead = [] :=
    Request.staged_calm known fits rfl delivered digest
  obtain ⟨header, -, -⟩ := Request.staged_done known fits brief done
  obtain ⟨size, rest, split, covers, -, behind⟩ := eraseRange_head known fits
  have page : blobSlotBase id % w25qPage = 0 := Nat.mod_eq_zero_of_dvd (Nat.dvd_trans (by decide) (slot_shape known).1)
  have room : (blobSlotBase id + blobCommitOff) % w25qPage + (le32 blobCommitMagic).length ≤ w25qPage := by
    rw [Nat.add_mod, page]
    decide
  have left : le32 blobCommitMagic ≠ [] := by decide
  have programmed := program_blank left room
    (Nor.attempts_calm calm).1 fun i within => Request.staged_uncommitted split covers behind rfl within
  have bytes : Nor.bytes (r.written hash id true ⟨s.byte, []⟩).1.byte (blobSlotBase id + blobCommitOff) 4 =
      le32 blobCommitMagic := by
    rw [Request.written, Nor.andThen_of_done done]
    exact programmed
  have committed : rd32 (Nor.bytes (r.written hash id true ⟨s.byte, []⟩).1.byte
      (blobSlotBase id + blobCommitOff) 4) = blobCommitMagic := by
    rw [bytes, rd32_le32]
  refine ⟨if_pos ⟨accepted, done, committed⟩, ?_⟩
  have byte : (s.step hash (.write id r {})).byte = (r.written hash id true ⟨s.byte, []⟩).1.byte := by
    simp [BlobStore.step, BlobStore.blobStoreWriteExt, accepted]
  have same : Nor.bytes (r.written hash id true ⟨s.byte, []⟩).1.byte (blobSlotBase id) 64 = r.blob.info.header id := by
    rw [← header]
    refine Nor.bytes_congr fun x above below => Request.written_after (.inl ?_)
    exact Nat.lt_trans below (Nat.add_lt_add_left (by decide) _)
  have short : r.blob.data.length < 2 ^ 32 := by
    obtain ⟨-, -, -, limit⟩ := slot_shape known
    simp only [Request.data_length, blobSlotCapacity, slotEnd] at *
    omega
  rw [byte, loadSlot_header same (Nat.lt_trans known (by decide)) short, committed, if_neg]
  simp only [Request.data_length, ne_eq, not_true_eq_false, false_or, not_or, Nat.not_lt]
  exact ⟨some_data, fits⟩

/-- A chip that was never written. -/
def blank : BlobStore := { byte := fun _ => 0xFF }

/-- A digest of the first byte only. -/
def firstByte (data : List Byte) : Digest := Vector.replicate 32 (data.headD 0)

/-- A blob of zeros. -/
def zeros (len : Nat) : Request := ⟨len, 1, Vector.replicate 32 0, fun _ => some fun _ => 0, []⟩

/-- The store after the zeros were written to the first slot. -/
def zerosStored (len : Nat) : BlobStore := (store firstByte).run blank [.write 0 (zeros len) {}]

section Zeros

variable {len : Nat} (some_data : len ≠ 0) (fits : len ≤ blobSlotCapacity 0)
include some_data

theorem zeros_digest : firstByte (zeros len).blob.data = (zeros len).sha256 := by
  have data : (zeros len).blob.data = List.replicate len 0 := by
    change (List.range len).map (fun _ => (0 : Byte)) = _
    simp
  obtain ⟨rest, rfl⟩ := Nat.exists_eq_succ_of_ne_zero some_data
  rw [firstByte, data]
  rfl

include fits

theorem zeros_accepted (capacity : Nat) : (zeros len).accepted capacity 0 = true := by
  rw [Request.accepted_iff]
  exact ⟨rfl, some_data, fits, Nat.zero_le _⟩

theorem zeros_stored : blank.commit firstByte (.write 0 (zeros len) {}) = some (0, (zeros len).blob) ∧
    loadSlot (zerosStored len).byte 0 = some (zeros len).blob.info :=
  write_calm (zeros_accepted some_data fits _) (fun _ => rfl) (zeros_digest some_data)

theorem zeros_torn {s : BlobStore} (stored : loadSlot s.byte 0 = some (zeros len).blob.info)
    (block : blobEnd 0 len = blobSlotBase 0 + w25qBlock) :
    ∃ w : Weather, loadSlot (s.step firstByte (.write 0 (zeros len) w)).byte 0 = some (zeros len).blob.info ∧
      (firstByte (Nor.bytes (s.step firstByte (.write 0 (zeros len) w)).byte (blobData 0) len)).toList ≠
        (zeros len).blob.info.sha256 := by
  let leaves (x : Nat) : Byte := if x < blobData 0 then s.byte x else 0xFF
  have head : eraseRange (blobSlotBase 0) (blobHdrSize + (zeros len).len) =
      .erase (blobSlotBase 0) w25qBlock :: eraseLoop (blobEnd 0 len) (blobSlotBase 0 + w25qBlock) := by
    change eraseRange (blobSlotBase 0) (blobHdrSize + len) = _
    rw [eraseRange_slot (by decide) fits, eraseLoop, if_pos, if_pos]
    · refine ⟨by decide, Nat.le_of_eq ?_⟩
      rw [block, Nat.add_sub_cancel_left]
    · rw [block]
      exact Nat.lt_add_of_pos_right (by decide)
  have lost : (Nor.attempt ⟨s.byte, [.cut leaves]⟩ (.erase (blobSlotBase 0) w25qBlock)).2 ≠ .done := by
    simp [Nor.attempt]
  have byte : (s.step firstByte (.write 0 (zeros len) { ops := [.cut leaves] })).byte =
      (NorOp.erase (blobSlotBase 0) w25qBlock).spoiled leaves s.byte := by
    rw [BlobStore.step, BlobStore.blobStoreWriteExt, if_pos (zeros_accepted some_data fits _), settle_byte,
      Request.written, Request.staged_stopped head lost, Nor.andThen_of_ne lost]
    rfl
  refine ⟨{ ops := [.cut leaves] }, ?_, ?_⟩
  · rw [← stored, byte]
    refine loadSlot_congr fun x above below => ?_
    simp only [NorOp.spoiled, leaves, if_pos below, ite_self]
  · obtain ⟨rest, rfl⟩ := Nat.exists_eq_succ_of_ne_zero some_data
    have gone : (NorOp.erase (blobSlotBase 0) w25qBlock).spoiled leaves s.byte (blobData 0) = 0xFF := by
      rw [NorOp.spoiled, if_pos (by decide)]
      exact if_neg (Nat.lt_irrefl _)
    rw [byte, Nor.bytes_succ, gone]
    simp [firstByte, zeros, Request.blob, Contents.info]

end Zeros

/-- After any run on a chip that presented nothing, in which no erase of a header is torn so that the
header outlives its data, a reloaded index presents only the blob committed last to a slot, whole and
with its digest; a call changes nothing outside its slot; and the erases of a write are exactly the
sectors of its header and data. -/
theorem presented_whole (hash : List Byte → Digest) (s : BlobStore)
    (fresh : ∀ id < blobSlotCount, loadSlot s.byte id = none) (events : List Event) :
    ((store hash).Along (fun s event => event.spares s) s events →
      ∀ capacity reads id found,
        (((store hash).run s events).blobStoreLoad capacity reads).1.info id = some found →
        ∃ blob, latest (fun _ => none) ((store hash).emitted s events) id = some blob ∧
          blob.info = found ∧
          Nor.bytes ((store hash).run s events).byte (blobData id) found.len = blob.data ∧
          hash blob.data = blob.sha256) ∧
      (∀ event x, (∀ id ∈ Event.target event, x < blobSlotBase id ∨ slotEnd id ≤ x) →
        (((store hash).run s events).step hash event).byte x = ((store hash).run s events).byte x) ∧
      ∀ id < blobSlotCount, ∀ len ≤ blobSlotCapacity id,
        Erases (eraseRange (blobSlotBase id) (blobHdrSize + len)) (blobSlotBase id) (blobEnd id len) ∧
          blobData id + len ≤ blobEnd id len ∧ blobEnd id len < blobData id + len + w25qSector ∧
          blobEnd id len ≤ slotEnd id := by
  refine ⟨?_, fun event x apart => step_outside apart, fun id known len fits =>
    ⟨eraseRange_erases known fits, blobEnd_bounds known fits⟩⟩
  intro along capacity reads id found listed
  have initial : Whole hash s.byte fun _ => none := by
    intro id known found loaded
    rw [fresh id known] at loaded
    cases loaded
  have whole := initial.run along
  unfold BlobStore.blobStoreLoad at listed
  split at listed
  · cases listed
  · simp only [Option.ite_none_right_eq_some, Bool.and_eq_true] at listed
    obtain ⟨⟨ok, -⟩, loaded⟩ := listed
    exact whole id (slotOk_known ok) found loaded

theorem presented_whole_zeros :
    ((zerosStored 57345).blobStoreLoad 0x800000 fun _ => true).1.info 0 = some (zeros 57345).blob.info ∧
      ∃ blob, latest (fun _ => none) ((store firstByte).emitted blank [.write 0 (zeros 57345) {}]) 0 =
          some blob ∧ blob.info = (zeros 57345).blob.info ∧ firstByte blob.data = blob.sha256 := by
  have long : ∀ len, len ≠ 0 → len ≤ blobSlotCapacity 0 →
      ((zerosStored len).blobStoreLoad 0x800000 fun _ => true).1.info 0 = some (zeros len).blob.info ∧
        ∃ blob, latest (fun _ => none) ((store firstByte).emitted blank [.write 0 (zeros len) {}]) 0 =
            some blob ∧ blob.info = (zeros len).blob.info ∧ firstByte blob.data = blob.sha256 := by
    intro len some_data fits
    have listed := (zeros_stored some_data fits).2
    obtain ⟨blob, committed, info, -, digest⟩ :=
      (presented_whole firstByte blank (fun _ _ => loadSlot_blank rfl) [.write 0 (zeros len) {}]).1
        ⟨fun _ _ _ => trivial, trivial⟩ 0x800000 (fun _ => true) 0 _ listed
    exact ⟨listed, blob, committed, info, digest⟩
  exact long 57345 (by decide) (by decide)

/-- A torn slot is presented although its data does not hash to the recorded digest. -/
theorem presented_torn :
    ¬∀ (hash : List Byte → Digest) (events : List Event) (id : Nat) (found : BlobInfo),
      (((store hash).run blank events).blobStoreLoad 0x800000 fun _ => true).1.info id = some found →
      (hash (Nor.bytes ((store hash).run blank events).byte (blobData id) found.len)).toList =
        found.sha256 := by
  intro whole
  have long : ∀ len, len ≠ 0 → len ≤ blobSlotCapacity 0 → blobEnd 0 len = blobSlotBase 0 + w25qBlock →
      False := by
    intro len some_data fits block
    obtain ⟨w, listed, gone⟩ := zeros_torn some_data fits (zeros_stored some_data fits).2 block
    have digest := whole firstByte [.write 0 (zeros len) {}, .write 0 (zeros len) w] 0 _ listed
    rw [Contents.info, Request.data_length] at digest
    exact gone digest
  exact long 57345 (by decide) (by decide) (by decide)

end BenchPod.Blob
