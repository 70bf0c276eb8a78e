import BenchPod.Calibration.AdcCal

/-!
# What a faulty calibration save leaves

A completed save leaves the version-2 record and, one save newer, its version-1 copy.  This file
follows the next save through every fault of its two writes and says which faults leave a whole
calibration: those that spare the old version-2 record until the new one has landed.
-/

namespace BenchPod.Calibration

open ConfigStore

/-- The flash as a completed save of a calibration leaves it. -/
def CompletePair (fits : Fits) (flash : Flash) (cal : AdcCal) : Prop :=
  ∃ n hdr2 hdr1, calStore.recordAt flash (1 - n) = some (hdr2, cal.bytes) ∧
    calStore.recordAt flash n = some (hdr1, (fits.v1Copy cal).encode) ∧
      hdr2.ver = 2 ∧ hdr1.ver = 1 ∧ hdr1.seq = hdr2.seq + 1

/-- A calibration that a load takes: not empty and in range. -/
def Loadable (fits : Fits) (cal : AdcCal) : Prop := ¬cal.recordEmpty ∧ fits.derives cal = true

theorem accept_loadable {fits : Fits} {cal : AdcCal} (loadable : Loadable fits cal) : fits.accept cal = some cal := by
  rw [Fits.accept, if_neg loadable.1, if_pos loadable.2]

theorem admits_v2 (cal : AdcCal) : calStore.Admits cal.bytes := by
  rw [AbStore.Admits, cal.bytes_length]
  decide

theorem admits_v1 (v1 : AdcCalV1) : calStoreV1.Admits v1.encode := by
  rw [AbStore.Admits, AdcCalV1.encode_length]
  decide

theorem matches_v2 {flash : Flash} {n : Fin 2} {hdr : AbHdr} {cal : AdcCal}
    (record_eq : calStore.recordAt flash n = some (hdr, cal.bytes)) (ver_eq : hdr.ver = 2) :
    AbStore.Matches 2 116 hdr :=
  ⟨ver_eq, (AbStore.recordAt_length record_eq).symm.trans cal.bytes_length⟩

theorem matches_v1 {flash : Flash} {n : Fin 2} {hdr : AbHdr} {v1 : AdcCalV1}
    (record_eq : calStore.recordAt flash n = some (hdr, v1.encode)) (ver_eq : hdr.ver = 1) :
    AbStore.Matches 1 32 hdr :=
  ⟨ver_eq, (AbStore.recordAt_length record_eq).symm.trans v1.encode_length⟩

theorem not_matches_v2 {hdr : AbHdr} (first : AbStore.Matches 1 32 hdr) :
    ¬AbStore.Matches 2 116 hdr :=
  fun both => absurd (first.2.symm.trans both.2) (by decide)

theorem load_newest_v2 {fits : Fits} {flash : Flash} {cal : AdcCal} {n : Fin 2} {hdr : AbHdr}
    (loadable : Loadable fits cal)
    (newest_eq : (calStore.view flash).newest = some (n, hdr, cal.bytes)) (ver_eq : hdr.ver = 2) :
    adcCalLoad fits flash = some cal := by
  have fits2 := matches_v2 (View.newest_slot newest_eq) ver_eq
  have found : calStore.loadVersion flash 2 116 = some (cal.bytes, 0) := by
    rw [AbStore.loadVersion_eq, View.loadVersion, newest_eq]
    simp only [fits2.2, if_neg (show ¬(116 = 0) by decide), if_pos fits2]
  simp only [adcCalLoad, pickRecord, found]
  rw [if_pos (.inl trivial), AdcCal.ofBytes_bytes, Option.bind_some, accept_loadable loadable]

theorem found_newest_v1 {flash : Flash} {v1 : AdcCalV1} {n : Fin 2} {hdr : AbHdr}
    (newest_eq : (calStore.view flash).newest = some (n, hdr, v1.encode)) (ver_eq : hdr.ver = 1) :
    calStoreV1.loadVersion flash 1 32 = some (v1.encode, 0) := by
  have fits1 := matches_v1 (View.newest_slot newest_eq) ver_eq
  rw [AbStore.loadVersion_eq, View.loadVersion, calStoreV1_view, newest_eq]
  simp only [fits1.2, if_neg (show ¬(32 = 0) by decide), if_pos fits1]

theorem load_pair {fits : Fits} {flash : Flash} {cal : AdcCal}
    (loadable : Loadable fits cal) (pair : CompletePair fits flash cal) :
    adcCalLoad fits flash = some cal := by
  obtain ⟨n, hdr2, hdr1, old_eq, new_eq, ver2, ver1, succ⟩ := pair
  have newest_eq : (calStore.view flash).newest = some (n, hdr1, _) := View.newest_of_succ old_eq new_eq succ
  have fits1 := matches_v1 new_eq ver1
  have fits2 := matches_v2 old_eq ver2
  have behind : hdr1.seq - hdr2.seq = 1 := by rw [succ, BitVec.add_comm, BitVec.add_sub_cancel]
  have found2 : calStore.loadVersion flash 2 116 = some (cal.bytes, 1) := by
    rw [AbStore.loadVersion_eq, View.loadVersion, newest_eq]
    simp only [fits1.2, if_neg (show ¬(32 = 0) by decide), if_neg (not_matches_v2 fits1),
      AbStore.view_slot, old_eq, if_pos fits2, behind]
  have found1 := found_newest_v1 newest_eq ver1
  simp only [adcCalLoad, pickRecord, found1, found2]
  rw [if_pos (.inr ⟨rfl, trivial⟩), AdcCal.ofBytes_bytes, Option.bind_some, accept_loadable loadable]

/-- What is left of a calibration when only its version-1 copy survives. -/
def converted (fits : Fits) (cal : AdcCal) : Option AdcCal := (fits.ofV1 (fits.v1Copy cal)).bind fits.accept

theorem load_v1_only {fits : Fits} {flash : Flash} {cal : AdcCal} {n : Fin 2} {hdr : AbHdr}
    (lost : calStore.recordAt flash (1 - n) = none)
    (kept : calStore.recordAt flash n = some (hdr, (fits.v1Copy cal).encode))
    (ver_eq : hdr.ver = 1) : adcCalLoad fits flash = converted fits cal := by
  have newest_eq : (calStore.view flash).newest = some (n, hdr, _) := View.newest_of_single lost kept
  have fits1 := matches_v1 kept ver_eq
  have found2 : calStore.loadVersion flash 2 116 = none := by
    rw [AbStore.loadVersion_eq, View.loadVersion, newest_eq]
    simp only [fits1.2, if_neg (show ¬(32 = 0) by decide), if_neg (not_matches_v2 fits1),
      AbStore.view_slot, lost]
  have found1 := found_newest_v1 newest_eq ver_eq
  simp only [adcCalLoad, pickRecord, found1, found2, AdcCalV1.decode_encode]
  rfl

/-- What a failed or interrupted write leaves in its slot. -/
inductive Left where
  /-- The record that was there before. -/
  | kept
  /-- Nothing readable. -/
  | lost
  /-- The new record. -/
  | landed

/-- The slot's record after a write that left this. -/
def Left.record (left : Left) (before new : Option (AbHdr × List Byte)) :
    Option (AbHdr × List Byte) :=
  match left with
  | .kept => before
  | .lost => none
  | .landed => new

/-- The faults of one save: its version-2 write or its version-1 write may fail its read-back or
be interrupted. -/
inductive CommitFault where
  /-- Both writes complete. -/
  | none
  /-- The first write fails its read-back. -/
  | firstFails (left : Left)
  /-- The power is lost during the first write. -/
  | firstCut (left : Left)
  /-- The second write fails its read-back. -/
  | secondFails
  /-- The power is lost during or after the second write. -/
  | secondCut

/-- The target of a save after it, by what its write left there. -/
def LeavesTarget (left : Left) (cal : AdcCal) (before after : Flash) : Prop :=
  calStore.view after = (calStore.view before).setSlot (calStore.view before).target
    (left.record ((calStore.view before).slot (calStore.view before).target)
      (some (calStore.newHdr (calStore.view before).nextSeq cal.bytes, cal.bytes)))

/-- One save of a calibration under a given fault. -/
def CommitRun (fits : Fits) (cal : AdcCal) (fault : CommitFault) (before : Flash)
    (outcome : Outcome Int) (after : Flash) : Prop :=
  match fault with
  | .none => outcome = .done 0 ∧
      ∃ middle, Exec calStore.device (calStore.save cal.bytes) before (.done 0) middle ∧
        Exec calStore.device (calStoreV1.save (fits.v1Copy cal).encode) middle (.done 0) after
  | .firstFails left => outcome = .done (-1) ∧
      Exec calStore.device (calStore.save cal.bytes) before (.done (-1)) after ∧
        LeavesTarget left cal before after ∧ left ≠ .landed
  | .firstCut left => outcome = .cut ∧
      Exec calStore.device (calStore.save cal.bytes) before .cut after ∧ LeavesTarget left cal before after
  | .secondFails => outcome = .done (-1) ∧
      ∃ middle, Exec calStore.device (calStore.save cal.bytes) before (.done 0) middle ∧
        Exec calStore.device (calStoreV1.save (fits.v1Copy cal).encode) middle (.done (-1)) after
  | .secondCut => outcome = .cut ∧
      ∃ middle, Exec calStore.device (calStore.save cal.bytes) before (.done 0) middle ∧
        Exec calStore.device (calStoreV1.save (fits.v1Copy cal).encode) middle .cut after

theorem spoiled_leaves {before after : Flash} (cal : AdcCal)
    (spoiled : AbStore.TargetSpoiled (calStore.view before) (calStore.view after)) :
    ∃ left, LeavesTarget left cal before after ∧ left ≠ .landed := by
  obtain ⟨record, rfl | rfl, view_eq⟩ := spoiled
  · exact ⟨.lost, view_eq, nofun⟩
  · exact ⟨.kept, view_eq, nofun⟩

theorem first_cut_leaves {cal : AdcCal} {before after : Flash}
    (execution : Exec calStore.device (calStore.save cal.bytes) before .cut after) :
    ∃ left, LeavesTarget left cal before after := by
  rcases AbStore.save_cut execution with spoiled | ⟨-, view_eq⟩
  · obtain ⟨left, leaves, -⟩ := spoiled_leaves cal spoiled
    exact ⟨left, leaves⟩
  · exact ⟨.landed, view_eq⟩

/-- The executions of a save are its runs under the faults. -/
theorem commit_exec_iff {fits : Fits} {cal : AdcCal} {before after : Flash} {outcome : Outcome Int}
    (ordered : (calStore.view before).Ordered) (occupied : ¬cal.recordEmpty) :
    Exec calStore.device (commit fits cal) before outcome after ↔
      ∃ fault, CommitRun fits cal fault before outcome after := by
  have first_rc {rc : Int} {middle : Flash}
      (saved : Exec calStore.device (calStore.save cal.bytes) before (.done rc) middle) :
      rc = -1 ∧ (∃ left, LeavesTarget left cal before middle ∧ left ≠ .landed) ∨
        rc = 0 ∧ (calStore.view middle).Ordered := by
    rcases AbStore.save_done saved with ⟨rfl, spoiled⟩ | ⟨rfl, -, ⟨rfl, -⟩ | view_eq⟩
    · exact .inl ⟨rfl, spoiled_leaves cal spoiled⟩
    · exact .inr ⟨rfl, ordered⟩
    · refine .inr ⟨rfl, ?_⟩
      rw [view_eq]
      exact calStore.put_ordered _ _
  have second_rc {rc : Int} {middle : Flash}
      (saved : Exec calStore.device (calStoreV1.save (fits.v1Copy cal).encode) middle (.done rc)
        after) : rc = -1 ∨ rc = 0 := by
    have saved : Exec calStoreV1.device (calStoreV1.save (fits.v1Copy cal).encode) middle (.done rc)
        after := saved
    rcases AbStore.save_done saved with ⟨rfl, -⟩ | ⟨rfl, -⟩
    · exact .inl rfl
    · exact .inr rfl
  rw [commit, if_neg occupied]
  constructor
  · intro execution
    cases outcome with
    | done result =>
      obtain ⟨rc, middle, first, rest⟩ := Exec.bind_done_iff.mp execution
      rcases first_rc first with ⟨rfl, left, leaves⟩ | ⟨rfl, middle_ordered⟩
      · rw [if_pos (by decide)] at rest
        obtain ⟨rfl, rfl⟩ := Exec.ret_done_iff.mp rest
        exact ⟨.firstFails left, rfl, first, leaves⟩
      · rw [if_neg (by decide)] at rest
        obtain ⟨rc, last, second, returned⟩ := Exec.bind_done_iff.mp rest
        obtain ⟨rfl, rfl⟩ := Exec.ret_done_iff.mp returned
        rcases second_rc second with rfl | rfl
        · exact ⟨.secondFails, rfl, middle, first, second⟩
        · exact ⟨.none, rfl, middle, first, second⟩
    | cut =>
      rcases Exec.bind_cut_iff.mp execution with first | ⟨rc, middle, first, rest⟩
      · obtain ⟨left, leaves⟩ := first_cut_leaves first
        exact ⟨.firstCut left, rfl, first, leaves⟩
      · rcases first_rc first with ⟨rfl, left, leaves⟩ | ⟨rfl, middle_ordered⟩
        · rw [if_pos (by decide)] at rest
          obtain rfl := Exec.ret_cut_iff.mp rest
          exact ⟨.firstCut left, rfl, first.cut_of_done, leaves.1⟩
        · rw [if_neg (by decide)] at rest
          rcases Exec.bind_cut_iff.mp rest with second | ⟨rc, last, second, returned⟩
          · exact ⟨.secondCut, rfl, middle, first, second⟩
          · obtain rfl := Exec.ret_cut_iff.mp returned
            exact ⟨.secondCut, rfl, middle, first, second.cut_of_done⟩
  · rintro ⟨fault, run⟩
    cases fault with
    | none =>
      obtain ⟨rfl, middle, first, second⟩ := run
      refine Exec.bind_done_iff.mpr ⟨0, middle, first, ?_⟩
      rw [if_neg (by decide)]
      exact Exec.bind_done_iff.mpr ⟨0, after, second, .ret⟩
    | firstFails left =>
      obtain ⟨rfl, first, -⟩ := run
      refine Exec.bind_done_iff.mpr ⟨-1, after, first, ?_⟩
      rw [if_pos (by decide)]
      exact .ret
    | firstCut left =>
      obtain ⟨rfl, first, -⟩ := run
      exact Exec.bind_cut_iff.mpr (.inl first)
    | secondFails =>
      obtain ⟨rfl, middle, first, second⟩ := run
      refine Exec.bind_done_iff.mpr ⟨0, middle, first, ?_⟩
      rw [if_neg (by decide)]
      exact Exec.bind_done_iff.mpr ⟨-1, after, second, .ret⟩
    | secondCut =>
      obtain ⟨rfl, middle, first, second⟩ := run
      refine Exec.bind_cut_iff.mpr (.inr ⟨0, middle, first, ?_⟩)
      rw [if_neg (by decide)]
      exact Exec.bind_cut_iff.mpr (.inl second)

theorem first_newest {cal : AdcCal} {before after : Flash} (ordered : (calStore.view before).Ordered)
    (saved : Exec calStore.device (calStore.save cal.bytes) before (.done 0) after) :
    (calStore.view after).Ordered ∧ ∃ n hdr, (calStore.view after).newest = some (n, hdr, cal.bytes) ∧ hdr.ver = 2 := by
  rcases AbStore.save_done saved with ⟨failed, -⟩ | ⟨-, admits, ⟨rfl, same⟩ | view_eq⟩
  · exact absurd failed (by decide)
  · obtain ⟨n, hdr, newest_eq, ver_eq⟩ := (calStore.unchanged_iff _ _).mp same
    exact ⟨ordered, n, hdr, newest_eq, ver_eq⟩
  · rw [view_eq]
    exact ⟨calStore.put_ordered _ _, _, _, calStore.put_newest _ _, AbStore.newHdr_ver admits.2⟩

theorem second_pair {fits : Fits} {cal : AdcCal} {middle after : Flash} {n : Fin 2} {hdr : AbHdr}
    (newest_eq : (calStore.view middle).newest = some (n, hdr, cal.bytes)) (ver_eq : hdr.ver = 2)
    (view_eq : calStoreV1.view after =
      calStoreV1.put (calStoreV1.view middle) (fits.v1Copy cal).encode) :
    CompletePair fits after cal := by
  rw [calStoreV1_view, calStoreV1_view, AbStore.put] at view_eq
  have target_eq : (calStore.view middle).target = 1 - n := by rw [View.target, newest_eq]
  have seq_eq : (calStore.view middle).nextSeq = hdr.seq + 1 := by rw [View.nextSeq, newest_eq]
  rw [target_eq, seq_eq] at view_eq
  refine ⟨1 - n, hdr, _, ?_, ?_, ver_eq, AbStore.newHdr_ver (admits_v1 (fits.v1Copy cal)).2, rfl⟩
  · rw [← AbStore.view_slot, view_eq, View.other_other, View.setSlot_slot_of_ne _ (View.other_ne n).symm]
    exact View.newest_slot newest_eq
  · rw [← AbStore.view_slot, view_eq, View.setSlot_slot_self]

theorem second_loads {fits : Fits} {cal : AdcCal} {middle after : Flash} {outcome : Outcome Int}
    {n : Fin 2} {hdr : AbHdr} (loadable : Loadable fits cal)
    (ordered : (calStore.view middle).Ordered)
    (newest_eq : (calStore.view middle).newest = some (n, hdr, cal.bytes)) (ver_eq : hdr.ver = 2)
    (execution : Exec calStore.device (calStoreV1.save (fits.v1Copy cal).encode) middle outcome
      after) : adcCalLoad fits after = some cal := by
  have spoiled_loads (spoiled : AbStore.TargetSpoiled (calStore.view middle) (calStore.view after)) :
      adcCalLoad fits after = some cal :=
    load_newest_v2 loadable (spoiled.newest_eq.trans newest_eq) ver_eq
  cases outcome with
  | done rc =>
    have execution : Exec calStoreV1.device (calStoreV1.save (fits.v1Copy cal).encode) middle
      (.done rc) after := execution
    rcases AbStore.save_done execution with
      ⟨-, spoiled⟩ | ⟨-, -, ⟨rfl, -⟩ | view_eq⟩
    · exact spoiled_loads spoiled
    · exact load_newest_v2 loadable newest_eq ver_eq
    · exact load_pair loadable (second_pair newest_eq ver_eq view_eq)
  | cut =>
    have execution : Exec calStoreV1.device (calStoreV1.save (fits.v1Copy cal).encode) middle .cut
      after := execution
    rcases AbStore.save_cut execution with spoiled | ⟨-, view_eq⟩
    · exact spoiled_loads spoiled
    · exact load_pair loadable (second_pair newest_eq ver_eq view_eq)

theorem commit_completes {fits : Fits} {cal : AdcCal} {before after : Flash}
    (ordered : (calStore.view before).Ordered) (run : CommitRun fits cal .none before (.done 0) after) :
    CompletePair fits after cal := by
  obtain ⟨-, middle, first, second⟩ := run
  obtain ⟨-, n, hdr, newest_eq, ver_eq⟩ := first_newest ordered first
  have second : Exec calStoreV1.device (calStoreV1.save (fits.v1Copy cal).encode) middle (.done 0)
    after := second
  rcases AbStore.save_done second with
    ⟨failed, -⟩ | ⟨-, -, ⟨rfl, same⟩ | view_eq⟩
  · exact absurd failed (by decide)
  · obtain ⟨_, _, copy_eq, -⟩ := (calStoreV1.unchanged_iff _ _).mp same
    rw [calStoreV1_view, newest_eq] at copy_eq
    have length_eq := congrArg (fun found => found.map fun record => record.2.2.length) copy_eq
    simp [cal.bytes_length] at length_eq
  · exact second_pair newest_eq ver_eq view_eq

theorem pair_ordered {fits : Fits} {flash : Flash} {cal : AdcCal}
    (pair : CompletePair fits flash cal) : (calStore.view flash).Ordered := by
  obtain ⟨n, hdr2, hdr1, old_eq, new_eq, -, -, succ⟩ := pair
  have old_eq : (calStore.view flash).slot (1 - n) = some _ := old_eq
  exact View.ordered_of_succ old_eq new_eq succ

theorem first_fault_loads {fits : Fits} {old new : AdcCal} {before after : Flash} {left : Left}
    (pair : CompletePair fits before old) (old_loads : Loadable fits old)
    (new_loads : Loadable fits new) (leaves : LeavesTarget left new before after) :
    adcCalLoad fits after =
      match left with
      | .kept => some old
      | .lost => converted fits old
      | .landed => some new := by
  obtain ⟨n, hdr2, hdr1, old_eq, copy_eq, ver2, ver1, succ⟩ := pair
  have newest_eq : (calStore.view before).newest = some (n, hdr1, _) := View.newest_of_succ old_eq copy_eq succ
  have target_eq : (calStore.view before).target = 1 - n := by rw [View.target, newest_eq]
  rw [LeavesTarget] at leaves
  cases left with
  | kept =>
    change calStore.view after = (calStore.view before).setSlot _ _ at leaves
    rw [Left.record, View.setSlot_self] at leaves
    have same (i : Fin 2) : calStore.recordAt after i = calStore.recordAt before i :=
      congrFun (congrArg View.slot leaves) i
    exact load_pair old_loads ⟨n, hdr2, hdr1, (same _).trans old_eq, (same _).trans copy_eq, ver2, ver1, succ⟩
  | lost =>
    rw [target_eq, Left.record] at leaves
    refine load_v1_only (n := n) ?_ ?_ ver1
    · rw [← AbStore.view_slot, leaves, View.setSlot_slot_self]
    · rw [← AbStore.view_slot, leaves, View.setSlot_slot_of_ne _ (View.other_ne n).symm]
      exact copy_eq
  | landed =>
    change calStore.view after = calStore.put (calStore.view before) new.bytes at leaves
    have put_eq := calStore.put_newest (calStore.view before) new.bytes
    rw [← leaves] at put_eq
    exact load_newest_v2 new_loads put_eq (AbStore.newHdr_ver (admits_v2 new).2)

/-- Power-loss atomicity of a save from `old` to `new`: what is loaded afterwards is one of the two
as a whole, and the old one if the save reported failure. -/
def Atomic (fits : Fits) (old new : AdcCal) (outcome : Outcome Int) (after : Flash) : Prop :=
  (adcCalLoad fits after = some old ∨ adcCalLoad fits after = some new) ∧
    (outcome = .done (-1) → adcCalLoad fits after = some old)

/-- The faults that a save survives: they do not lose the old version-2 record before the new one
has landed, unless the version-1 copy alone gives a whole calibration back, and a second write fails
only when the calibration did not change. -/
def CommitFault.Harmless (fits : Fits) (old new : AdcCal) : CommitFault → Prop
  | .none => True
  | .firstFails left => left = .lost → converted fits old = some old
  | .firstCut left => left = .lost → converted fits old = some old ∨ converted fits old = some new
  | .secondFails => new = old
  | .secondCut => True

/-- A calibration save over a complete pair runs exactly as its faults say, and it is atomic exactly
under the harmless ones. -/
theorem commit_atomic_iff (fits : Fits) {old new : AdcCal} {before : Flash}
    (pair : CompletePair fits before old) (old_loads : Loadable fits old)
    (new_loads : Loadable fits new) :
    (∀ outcome after, Exec calStore.device (commit fits new) before outcome after ↔
      ∃ fault, CommitRun fits new fault before outcome after) ∧
    ∀ fault outcome after, CommitRun fits new fault before outcome after →
      (Atomic fits old new outcome after ↔ fault.Harmless fits old new) := by
  have ordered := pair_ordered pair
  refine ⟨fun _ _ => commit_exec_iff ordered new_loads.1, ?_⟩
  intro fault outcome after run
  cases fault with
  | none =>
    obtain ⟨rfl, middle, first, second⟩ := run
    obtain ⟨middle_ordered, n, hdr, newest_eq, ver_eq⟩ := first_newest ordered first
    have loaded := second_loads new_loads middle_ordered newest_eq ver_eq second
    exact iff_of_true ⟨.inr loaded, fun failed => by cases failed⟩ trivial
  | firstFails left =>
    obtain ⟨rfl, -, leaves, unlanded⟩ := run
    have loaded := first_fault_loads pair old_loads new_loads leaves
    cases left with
    | kept => exact iff_of_true ⟨.inl loaded, fun _ => loaded⟩ nofun
    | lost =>
      simp only [Atomic, loaded, CommitFault.Harmless, forall_const]
      exact ⟨fun atomic => atomic.2, fun whole => ⟨.inl whole, whole⟩⟩
    | landed => exact absurd rfl unlanded
  | firstCut left =>
    obtain ⟨rfl, -, leaves⟩ := run
    have loaded := first_fault_loads pair old_loads new_loads leaves
    cases left with
    | kept => exact iff_of_true ⟨.inl loaded, nofun⟩ nofun
    | lost =>
      simp only [Atomic, loaded, CommitFault.Harmless, forall_const]
      exact ⟨fun atomic => atomic.1, fun whole => ⟨whole, nofun⟩⟩
    | landed => exact iff_of_true ⟨.inr loaded, nofun⟩ nofun
  | secondFails =>
    obtain ⟨rfl, middle, first, second⟩ := run
    obtain ⟨middle_ordered, n, hdr, newest_eq, ver_eq⟩ := first_newest ordered first
    have loaded := second_loads new_loads middle_ordered newest_eq ver_eq second
    simp only [Atomic, loaded, CommitFault.Harmless, Option.some.injEq, forall_const]
    exact ⟨fun atomic => atomic.2, fun same => ⟨.inr trivial, same⟩⟩
  | secondCut =>
    obtain ⟨rfl, middle, first, second⟩ := run
    obtain ⟨middle_ordered, n, hdr, newest_eq, ver_eq⟩ := first_newest ordered first
    have loaded := second_loads new_loads middle_ordered newest_eq ver_eq second
    exact iff_of_true ⟨.inr loaded, nofun⟩ trivial

/-- A calibration with one DMM line: the codes driven on the 5 V output and the voltages read. -/
def dmmCal (uv : Word) : AdcCal where
  bytes := [0, 2, 0, 0] ++ List.replicate 16 0 ++ Endian.le16 13069 ++ Endian.le16 52374 ++
    Endian.le32 uv ++ Endian.le32 3992900 ++ List.replicate 84 0
  bytes_length := by simp

/-- Fits that accept every record; none of these records holds a zero, so nothing is converted. -/
def dmmFits : Fits where
  derives _ := true
  offsetUv count := count
  hasSlope := true
  zeroCount offset := offset

theorem dmmCal_loadable (uv : Word) : Loadable dmmFits (dmmCal uv) :=
  ⟨fun empty => absurd empty.2.2.1 (by simp [AdcCal.dacSet, dmmCal]), rfl⟩

theorem dmmCal_converted (uv : Word) : converted dmmFits (dmmCal uv) = none := by
  simp [converted, Fits.v1Copy, Fits.ofV1, AdcCal.zeroSet, dmmCal]

theorem exists_pair (fits : Fits) (cal : AdcCal) : ∃ flash, CompletePair fits flash cal := by
  have ordered : (calStore.view Flash.erased).Ordered :=
    View.ordered_of_none (i := 0) (AbStore.recordAt_blank (Flash.erased_blank _ _))
  obtain ⟨middle, first⟩ := calStore.save_exec Flash.erased (admits_v2 cal)
  obtain ⟨after, second⟩ := calStoreV1.save_exec middle (admits_v1 (fits.v1Copy cal))
  exact ⟨after, commit_completes ordered ⟨rfl, middle, first, second⟩⟩

theorem commit_cut_after_erase {fits : Fits} {old new : AdcCal} {before : Flash}
    (pair : CompletePair fits before old) (occupied : ¬new.recordEmpty) :
    ∃ after, Exec calStore.device (commit fits new) before .cut after ∧ LeavesTarget .lost new before after := by
  obtain ⟨n, hdr2, hdr1, old_eq, copy_eq, -, -, succ⟩ := pair
  have newest_eq : (calStore.view before).newest = some (n, hdr1, _) := View.newest_of_succ old_eq copy_eq succ
  have changed : ¬calStore.unchanged before new.bytes = true := by
    intro same
    obtain ⟨_, _, same_eq, -⟩ := (calStore.unchanged_iff _ _).mp same
    rw [newest_eq] at same_eq
    have length_eq := congrArg (fun found => found.map fun record => record.2.2.length) same_eq
    simp [new.bytes_length] at length_eq
  refine ⟨FlashStep.run [.erase (calStore.slotOff (calStore.view before).target)] before, ?_, ?_⟩
  · rw [commit, if_neg occupied]
    refine Exec.bind_cut_iff.mpr (.inl ?_)
    rw [AbStore.save, if_neg (not_not.mpr (admits_v2 new) ∘ AbStore.refuses_iff.mp), Exec.read_iff, if_neg changed]
    simp only [AbStore.targetOf_scan, AbStore.seqOf_scan, AbStore.writeRecord]
    refine Exec.bind_cut_iff.mpr (.inl (Exec.command_cut_iff.mpr (.inr (.inl ?_))))
    exact .later .between
  · exact AbStore.view_finishes_erase_slot rfl

/-- A saved calibration whose next save met a power cut right after its first erase: neither
calibration is loaded. -/
theorem commit_loses_both :
    ∃ before after, CompletePair dmmFits before (dmmCal 995900) ∧
      adcCalLoad dmmFits before = some (dmmCal 995900) ∧
      Exec calStore.device (commit dmmFits (dmmCal 996000)) before .cut after ∧
      adcCalLoad dmmFits after = none ∧
      ¬Atomic dmmFits (dmmCal 995900) (dmmCal 996000) .cut after := by
  obtain ⟨before, pair⟩ := exists_pair dmmFits (dmmCal 995900)
  obtain ⟨after, execution, leaves⟩ := commit_cut_after_erase pair (dmmCal_loadable 996000).1
  have lost : adcCalLoad dmmFits after = none :=
    (first_fault_loads pair (dmmCal_loadable _) (dmmCal_loadable _) leaves).trans
      (dmmCal_converted _)
  refine ⟨before, after, pair, load_pair (dmmCal_loadable _) pair, execution, lost, ?_⟩
  rintro ⟨either, -⟩
  rw [lost] at either
  rcases either with old_eq | new_eq
  · cases old_eq
  · cases new_eq

/-- The faults a save over a saved DMM line survives. -/
theorem commit_atomic_iff_dmm :
    ∃ before, CompletePair dmmFits before (dmmCal 995900) ∧
      ∀ fault outcome after, CommitRun dmmFits (dmmCal 996000) fault before outcome after →
        (Atomic dmmFits (dmmCal 995900) (dmmCal 996000) outcome after ↔
          fault.Harmless dmmFits (dmmCal 995900) (dmmCal 996000)) := by
  obtain ⟨before, pair⟩ := exists_pair dmmFits (dmmCal 995900)
  exact ⟨before, pair,
    (commit_atomic_iff dmmFits pair (dmmCal_loadable _) (dmmCal_loadable _)).2⟩

end BenchPod.Calibration
