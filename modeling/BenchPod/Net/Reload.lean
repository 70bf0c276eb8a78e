import BenchPod.Net.Latch

/-!
# No reload is lost or early

Every statement of the worker has an assertion that its own steps establish and that no take
disturbs.  What is requested is returned by a take; and what a take returns was committed and has
settled, or the first request has waited long enough, as long as no take that finds something due
falls inside a request.
-/

namespace BenchPod.NetReload

variable {start : Word} {l : Latch} {r : Record}

/-- The clock was started by a call in the past. -/
def Stamped (start : Word) (l : Latch) (r : Record) : Prop := l.reqMs = clockAt start r.first ∧ r.first ≤ r.time

/-- Every completed request has been committed before the commit under way. -/
def Covered (r : Record) : Prop := ∀ a ∈ r.asked, ∃ time, a.committed = some time ∧ time ≤ r.called

/-- What holds where the worker is. -/
def Assertion (start : Word) (l : Latch) (r : Record) : Prop :=
  match l.worker with
  | .idle => True
  | .compare _ now => now = clockAt start r.called
  | .stamp _ now => now = clockAt start r.called ∧ r.asked = []
  | .load _ => Stamped start l r ∧ (r.clean = true → r.asked = [] → r.first = r.called)
  | .store _ loaded => Stamped start l r ∧ (r.clean = true → r.asked = [] → r.first = r.called) ∧
      (∀ i, l.bits.getLsbD i = true → loaded.getLsbD i = true) ∧ (r.clean = true → loaded = l.bits)
  | .bump what => Stamped start l r ∧ (r.clean = true → r.asked = [] → r.first = r.called) ∧
      (r.clean = true → ∀ i, l.bits.getLsbD i = true → what.getLsbD i = true ∨ ∃ a ∈ r.asked, a.what.getLsbD i = true)
  | .commitRead now => now = clockAt start r.called ∧ Covered r
  | .commitCheck seq now => seq = l.reqSeq ∧ now = clockAt start r.called ∧ Covered r
  | .commitMs seq now => seq = l.reqSeq ∧ now = clockAt start r.called ∧ Covered r ∧ r.uncommitted ≠ 0
  | .commitSeq seq => seq = l.reqSeq ∧ l.commitMs = clockAt start r.called ∧ Covered r ∧ r.uncommitted ≠ 0

/-- What holds throughout. -/
structure Kept (start : Word) (l : Latch) (r : Record) : Prop where
  /-- The sequence numbers count the requests since the last take and since the last commit. -/
  taken : l.reqSeq - l.takenSeq = BitVec.ofNat 32 r.asked.length
  few_asked : r.asked.length < 2 ^ 32
  counted : l.reqSeq - l.commitSeq = BitVec.ofNat 32 r.uncommitted
  few_uncommitted : r.uncommitted < 2 ^ 32
  called : r.called ≤ r.time
  /-- What is owed is there to be taken, and makes the latch pending. -/
  owed : ∀ i, r.owed.getLsbD i = true → l.bits.getLsbD i = true
  waiting : ∀ i, r.owed.getLsbD i = true → r.asked ≠ [] ∨ ∃ what, l.worker = .bump what
  stamped : r.asked ≠ [] → Stamped start l r
  /-- The first of the completed requests started the clock. -/
  earliest : r.clean = true → ∀ a ∈ r.asked.head?, a.time = r.first
  /-- What can be taken was requested since the last take. -/
  origin : r.clean = true → (∀ what, l.worker ≠ .bump what) →
    ∀ i, l.bits.getLsbD i = true → ∃ a ∈ r.asked, a.what.getLsbD i = true
  past : ∀ a ∈ r.asked, ∀ time ∈ a.committed, time ≤ r.time
  /-- When no request is uncommitted, the last commit covers them all. -/
  committed : r.uncommitted = 0 → r.asked ≠ [] →
    (l.commitMs = clockAt start r.commitTime ∧ r.commitTime ≤ r.time) ∧
      ∀ a ∈ r.asked, ∃ time, a.committed = some time ∧ time ≤ r.commitTime
  assertion : Assertion start l r

theorem seq_eq_iff {later earlier : Word} {count : Nat} (few : count < 2 ^ 32)
    (counted : later - earlier = BitVec.ofNat 32 count) : later = earlier ↔ count = 0 := by
  have toNat := congrArg BitVec.toNat counted
  rw [BitVec.toNat_ofNat, Nat.mod_eq_of_lt few] at toNat
  constructor
  · rintro rfl
    rw [BitVec.sub_self] at toNat
    exact toNat.symm
  · rintro rfl
    rw [BitVec.toNat_sub] at toNat
    have later_lt := later.isLt
    have earlier_lt := earlier.isLt
    exact BitVec.eq_of_toNat_eq (by omega)

theorem Kept.pending_iff (kept : Kept start l r) : l.pending = true ↔ r.asked ≠ [] := by
  rw [Latch.pending, bne_iff_ne, ne_eq, seq_eq_iff kept.few_asked kept.taken, List.length_eq_zero_iff]

theorem Kept.commitSeq_iff (kept : Kept start l r) : l.reqSeq = l.commitSeq ↔ r.uncommitted = 0 :=
  seq_eq_iff kept.few_uncommitted kept.counted

theorem Kept.asked_of_owed (kept : Kept start l r) (resting : ∀ what, l.worker ≠ .bump what) {i : Nat}
    (owed : r.owed.getLsbD i = true) : r.asked ≠ [] := by
  obtain asked | ⟨what, busy⟩ := kept.waiting i owed
  · exact asked
  · exact absurd busy (resting what)

theorem Stamped.later (stamped : Stamped start l r) {time : Nat} (past : r.time ≤ time) :
    Stamped start l { r with time } :=
  ⟨stamped.1, Nat.le_trans stamped.2 past⟩

/-- Time passes. -/
theorem Kept.later (kept : Kept start l r) {time : Nat} (past : r.time ≤ time) : Kept start l { r with time } where
  taken := kept.taken
  few_asked := kept.few_asked
  counted := kept.counted
  few_uncommitted := kept.few_uncommitted
  called := Nat.le_trans kept.called past
  owed := kept.owed
  waiting := kept.waiting
  stamped asked := (kept.stamped asked).later past
  earliest := kept.earliest
  origin := kept.origin
  past a member tc committed := Nat.le_trans (kept.past a member tc committed) past
  committed none_left asked := by
    obtain ⟨⟨commitMs, earlier⟩, all⟩ := kept.committed none_left asked
    exact ⟨⟨commitMs, Nat.le_trans earlier past⟩, all⟩
  assertion := by
    have assertion := kept.assertion
    unfold Assertion at assertion ⊢
    cases at_worker : l.worker with
    | idle => trivial
    | compare what now =>
      simp only [at_worker] at assertion ⊢
      exact assertion
    | stamp what now =>
      simp only [at_worker] at assertion ⊢
      exact assertion
    | load what =>
      simp only [at_worker] at assertion ⊢
      exact ⟨assertion.1.later past, assertion.2⟩
    | store what loaded =>
      simp only [at_worker] at assertion ⊢
      exact ⟨assertion.1.later past, assertion.2⟩
    | bump what =>
      simp only [at_worker] at assertion ⊢
      exact ⟨assertion.1.later past, assertion.2⟩
    | commitRead now =>
      simp only [at_worker] at assertion ⊢
      exact assertion
    | commitCheck seq now =>
      simp only [at_worker] at assertion ⊢
      exact assertion
    | commitMs seq now =>
      simp only [at_worker] at assertion ⊢
      exact assertion
    | commitSeq seq =>
      simp only [at_worker] at assertion ⊢
      exact assertion

theorem Kept.request (kept : Kept start l r) (idle : l.worker = .idle) {time : Nat}
    (past : r.time ≤ time) (what : Word) :
    Kept start (l.request what (clockAt start time)) { r with time, called := time } := by
  have kept := kept.later past
  have resting : ∀ what, l.worker ≠ .bump what := fun _ => by simp [idle]
  unfold Latch.request
  split
  · have resting : Assertion start l { r with time, called := time } := by
      simp only [Assertion, idle]
    exact { kept with called := Nat.le_refl _, assertion := resting }
  · exact
      { taken := kept.taken
        few_asked := kept.few_asked
        counted := kept.counted
        few_uncommitted := kept.few_uncommitted
        called := Nat.le_refl _
        owed := kept.owed
        waiting := fun i owed => .inl (kept.asked_of_owed resting owed)
        stamped := kept.stamped
        earliest := kept.earliest
        origin := fun clean _ => kept.origin clean resting
        past := kept.past
        committed := kept.committed
        assertion := rfl }

/-- A commit is called: it covers every completed request. -/
theorem Kept.commit (kept : Kept start l r) (idle : l.worker = .idle) {time : Nat}
    (past : r.time ≤ time) : Kept start (l.commit (clockAt start time)) (r.commit time) := by
  have kept := kept.later past
  have resting : ∀ what, l.worker ≠ .bump what := fun _ => by simp [idle]
  have covered : Covered (r.commit time) := by
    intro a member
    obtain ⟨earlier, earlier_mem, rfl⟩ := List.mem_map.mp member
    cases committed : earlier.committed with
    | none => exact ⟨time, rfl, Nat.le_refl _⟩
    | some before => exact ⟨before, rfl, kept.past earlier earlier_mem before committed⟩
  have length : (r.commit time).asked.length = r.asked.length := List.length_map _
  have asked_ne : (r.commit time).asked ≠ [] ↔ r.asked ≠ [] := by rw [ne_eq, ne_eq, Record.commit, List.map_eq_nil_iff]
  exact
    { taken := by rw [length]; exact kept.taken
      few_asked := by rw [length]; exact kept.few_asked
      counted := kept.counted
      few_uncommitted := kept.few_uncommitted
      called := Nat.le_refl _
      owed := kept.owed
      waiting := fun i owed => .inl (asked_ne.mpr (kept.asked_of_owed resting owed))
      stamped := fun asked => kept.stamped (asked_ne.mp asked)
      earliest := by
        intro clean a first
        rw [Record.commit, List.head?_map] at first
        obtain ⟨earlier, earlier_first, rfl⟩ := Option.map_eq_some_iff.mp first
        exact kept.earliest clean earlier earlier_first
      origin := by
        intro clean _ i present
        obtain ⟨a, member, what⟩ := kept.origin clean resting i present
        exact ⟨_, List.mem_map_of_mem member, what⟩
      past := by
        intro a member tc committed
        obtain ⟨at_commit, equal, past⟩ := covered a member
        rw [equal] at committed
        cases committed
        exact past
      committed := by
        intro none_left asked
        obtain ⟨marks, all⟩ := kept.committed none_left (asked_ne.mp asked)
        refine ⟨marks, fun a member => ?_⟩
        obtain ⟨earlier, earlier_mem, rfl⟩ := List.mem_map.mp member
        obtain ⟨tc, committed, past⟩ := all earlier earlier_mem
        exact ⟨tc, by simp [committed], past⟩
      assertion := ⟨rfl, covered⟩ }

section Work

variable {what now seq loaded : Word}

theorem Kept.work_compare (kept : Kept start l r) (at_worker : l.worker = .compare what now) :
    Kept start l.work (r.work l) := by
  have assertion := kept.assertion
  simp only [Assertion, at_worker] at assertion
  simp only [Latch.work, Record.work, at_worker]
  have resting : ∀ what, l.worker ≠ .bump what := fun _ => by simp [at_worker]
  by_cases none_pending : l.reqSeq = l.takenSeq
  · have asked : r.asked = [] := by
      have unpending : ¬ l.pending = true := by simp [Latch.pending, none_pending]
      simpa [kept.pending_iff] using unpending
    rw [if_pos none_pending]
    exact
      { kept with
        waiting := fun i owed =>
          .inl (kept.asked_of_owed resting owed)
        origin := fun clean _ => kept.origin clean resting
        assertion := ⟨assertion, asked⟩ }
  · have asked : r.asked ≠ [] := by
      rw [← kept.pending_iff]
      simp [Latch.pending, none_pending]
    rw [if_neg none_pending]
    exact
      { kept with
        waiting := fun i owed => .inl asked
        origin := fun clean _ => kept.origin clean resting
        assertion := ⟨kept.stamped asked, fun _ empty => absurd empty asked⟩ }

theorem Kept.work_stamp (kept : Kept start l r) (at_worker : l.worker = .stamp what now) :
    Kept start l.work (r.work l) := by
  have assertion := kept.assertion
  simp only [Assertion, at_worker] at assertion
  simp only [Latch.work, Record.work, at_worker]
  have resting : ∀ what, l.worker ≠ .bump what := fun _ => by simp [at_worker]
  obtain ⟨now_eq, asked⟩ := assertion
  exact
    { kept with
      waiting := fun i owed =>
        .inl (kept.asked_of_owed resting owed)
      stamped := fun some_asked => absurd asked some_asked
      earliest := by simp [asked]
      origin := fun clean _ => kept.origin clean resting
      committed := fun _ some_asked => absurd asked some_asked
      assertion := ⟨⟨now_eq, kept.called⟩, fun _ _ => rfl⟩ }

theorem Kept.work_load (kept : Kept start l r) (at_worker : l.worker = .load what) : Kept start l.work (r.work l) := by
  have assertion := kept.assertion
  simp only [Assertion, at_worker] at assertion
  simp only [Latch.work, Record.work, at_worker]
  have resting : ∀ what, l.worker ≠ .bump what := fun _ => by simp [at_worker]
  exact
    { kept with
      waiting := fun i owed =>
        .inl (kept.asked_of_owed resting owed)
      origin := fun clean _ => kept.origin clean resting
      assertion := ⟨assertion.1, assertion.2, fun _ present => present, fun _ => rfl⟩ }

theorem Kept.work_store (kept : Kept start l r) (at_worker : l.worker = .store what loaded) :
    Kept start l.work (r.work l) := by
  have assertion := kept.assertion
  simp only [Assertion, at_worker] at assertion
  simp only [Latch.work, Record.work, at_worker]
  obtain ⟨stamped, first, superset, equal⟩ := assertion
  have resting : ∀ what, l.worker ≠ .bump what := fun _ => by simp [at_worker]
  exact
    { kept with
      owed := by
        intro i owed
        rw [BitVec.getLsbD_or, Bool.or_eq_true] at owed ⊢
        exact owed.imp (fun before => superset i (kept.owed i before)) id
      waiting := fun _ _ => .inr ⟨what, rfl⟩
      origin := fun _ elsewhere => absurd rfl (elsewhere what)
      assertion := by
        refine ⟨stamped, first, fun clean i present => ?_⟩
        rw [equal clean, BitVec.getLsbD_or, Bool.or_eq_true] at present
        exact present.symm.imp id (kept.origin clean resting i) }

/-- A request is completed. -/
theorem Kept.work_bump (kept : Kept start l r) (at_worker : l.worker = .bump what)
    (few_asked : r.asked.length + 1 < 2 ^ 32) (few_uncommitted : r.uncommitted + 1 < 2 ^ 32) :
    Kept start l.work (r.work l) := by
  have assertion := kept.assertion
  simp only [Assertion, at_worker] at assertion
  simp only [Latch.work, Record.work, at_worker]
  obtain ⟨stamped, first, origin⟩ := assertion
  have counts {earlier : Word} {count : Nat} (counted : l.reqSeq - earlier = BitVec.ofNat 32 count) :
      l.reqSeq + 1 - earlier = BitVec.ofNat 32 (count + 1) := by
    rw [BitVec.ofNat_add, ← counted]
    rw [BitVec.sub_eq_add_neg, BitVec.sub_eq_add_neg, BitVec.add_assoc, BitVec.add_assoc, BitVec.add_comm 1]
    rfl
  have some_asked : r.asked ++ [({ what, time := r.called } : Asked)] ≠ [] := by simp
  exact
    { taken := by
        rw [List.length_append]
        exact counts kept.taken
      few_asked := by
        rw [List.length_append]
        exact few_asked
      counted := counts kept.counted
      few_uncommitted
      called := kept.called
      owed := kept.owed
      waiting := fun _ _ => .inl some_asked
      stamped := fun _ => stamped
      earliest := by
        intro clean a head
        cases asked : r.asked with
        | nil =>
          rw [asked] at head
          cases head
          exact (first clean asked).symm
        | cons before rest =>
          refine kept.earliest clean a ?_
          rw [asked] at head ⊢
          exact head
      origin := by
        intro clean _ i present
        obtain new | ⟨a, member, old⟩ := origin clean i present
        · exact ⟨_, List.mem_append_right _ (List.mem_singleton_self _), new⟩
        · exact ⟨a, List.mem_append_left _ member, old⟩
      past := by
        intro a member time committed
        obtain old | new := List.mem_append.mp member
        · exact kept.past a old time committed
        · cases List.mem_singleton.mp new
          cases committed
      committed := fun none_left => absurd none_left (Nat.succ_ne_zero _)
      assertion := trivial }

theorem Kept.work_commitRead (kept : Kept start l r) (at_worker : l.worker = .commitRead now) :
    Kept start l.work (r.work l) := by
  have assertion := kept.assertion
  simp only [Assertion, at_worker] at assertion
  simp only [Latch.work, Record.work, at_worker]
  have resting : ∀ what, l.worker ≠ .bump what := fun _ => by simp [at_worker]
  exact
    { kept with
      waiting := fun i owed =>
        .inl (kept.asked_of_owed resting owed)
      origin := fun clean _ => kept.origin clean resting
      assertion := ⟨rfl, assertion⟩ }

theorem Kept.work_commitCheck (kept : Kept start l r) (at_worker : l.worker = .commitCheck seq now) :
    Kept start l.work (r.work l) := by
  have assertion := kept.assertion
  simp only [Assertion, at_worker] at assertion
  simp only [Latch.work, Record.work, at_worker]
  obtain ⟨seq_eq, now_eq, covered⟩ := assertion
  have resting : ∀ what, l.worker ≠ .bump what := fun _ => by simp [at_worker]
  split
  · exact
      { kept with
        waiting := fun i owed => .inl (kept.asked_of_owed resting owed)
        origin := fun clean _ => kept.origin clean resting
        assertion := trivial }
  · rename_i unrecorded
    have some_left : r.uncommitted ≠ 0 := by
      rw [not_or, seq_eq] at unrecorded
      exact mt kept.commitSeq_iff.mpr unrecorded.2
    exact
      { kept with
        waiting := fun i owed => .inl (kept.asked_of_owed resting owed)
        origin := fun clean _ => kept.origin clean resting
        assertion := ⟨seq_eq, now_eq, covered, some_left⟩ }

theorem Kept.work_commitMs (kept : Kept start l r) (at_worker : l.worker = .commitMs seq now) :
    Kept start l.work (r.work l) := by
  have assertion := kept.assertion
  simp only [Assertion, at_worker] at assertion
  simp only [Latch.work, Record.work, at_worker]
  obtain ⟨seq_eq, now_eq, covered, some_left⟩ := assertion
  have resting : ∀ what, l.worker ≠ .bump what := fun _ => by simp [at_worker]
  exact
    { kept with
      waiting := fun i owed =>
        .inl (kept.asked_of_owed resting owed)
      origin := fun clean _ => kept.origin clean resting
      committed := fun none_left => absurd none_left some_left
      assertion := ⟨seq_eq, now_eq, covered, some_left⟩ }

theorem Kept.work_commitSeq (kept : Kept start l r) (at_worker : l.worker = .commitSeq seq) :
    Kept start l.work (r.work l) := by
  have assertion := kept.assertion
  simp only [Assertion, at_worker] at assertion
  simp only [Latch.work, Record.work, at_worker]
  obtain ⟨seq_eq, commitMs, covered, _⟩ := assertion
  have resting : ∀ what, l.worker ≠ .bump what := fun _ => by simp [at_worker]
  exact
    { kept with
      counted := by rw [seq_eq, BitVec.sub_self]
      few_uncommitted := Nat.two_pow_pos 32
      waiting := fun i owed =>
        .inl (kept.asked_of_owed resting owed)
      origin := fun clean _ => kept.origin clean resting
      committed := fun _ _ => ⟨⟨commitMs, kept.called⟩, covered⟩
      assertion := trivial }

theorem Kept.work (kept : Kept start l r) (few_asked : r.asked.length + 1 < 2 ^ 32)
    (few_uncommitted : r.uncommitted + 1 < 2 ^ 32) : Kept start l.work (r.work l) := by
  cases at_worker : l.worker with
  | idle =>
    simp only [Latch.work, Record.work, at_worker]
    exact kept
  | compare what now => exact kept.work_compare at_worker
  | stamp what now => exact kept.work_stamp at_worker
  | load what => exact kept.work_load at_worker
  | store what loaded => exact kept.work_store at_worker
  | bump what => exact kept.work_bump at_worker few_asked few_uncommitted
  | commitRead now => exact kept.work_commitRead at_worker
  | commitCheck seq now => exact kept.work_commitCheck at_worker
  | commitMs seq now => exact kept.work_commitMs at_worker
  | commitSeq seq => exact kept.work_commitSeq at_worker

end Work

@[simp]
theorem and_not_self_getLsbD (x : Word) (i : Nat) : (x &&& ~~~x).getLsbD i = false := by
  simp only [BitVec.getLsbD_and, BitVec.getLsbD_not]
  cases x.getLsbD i
  · rfl
  · simp

theorem take_not_due {now : Word} {txBusy : Bool} (idle : (l.pending && l.due now txBusy) = false) :
    l.take now txBusy = (l, 0) := by
  rw [Bool.and_eq_false_iff] at idle
  unfold Latch.take
  split
  · rfl
  · rename_i pending
    rw [if_pos (idle.resolve_left pending)]

theorem take_due {now : Word} {txBusy : Bool} (due : (l.pending && l.due now txBusy) = true) :
    l.take now txBusy = ({ l with bits := l.bits &&& ~~~l.bits, takenSeq := l.reqSeq }, l.bits) := by
  rw [Bool.and_eq_true] at due
  rw [Latch.take, if_neg (by simp [due.1]), if_neg (by simp [due.2])]

/-- No take disturbs what holds where the worker is. -/
theorem Kept.take (kept : Kept start l r) {time : Nat} (past : r.time ≤ time) (txBusy : Bool) :
    Kept start (l.take (clockAt start time) txBusy).1 (r.take l (clockAt start time) time txBusy) := by
  have kept := kept.later past
  cases due : l.pending && l.due (clockAt start time) txBusy with
  | false =>
    rw [take_not_due due, Record.take, due, if_neg Bool.false_ne_true]
    exact kept
  | true =>
    rw [take_due due, Record.take, due, if_pos rfl, take_due due]
    rw [Bool.and_eq_true, kept.pending_iff] at due
    have unowed : ∀ i, (r.owed &&& ~~~l.bits).getLsbD i = false := by
      intro i
      rw [BitVec.getLsbD_and, BitVec.getLsbD_not]
      cases owed : r.owed.getLsbD i with
      | false => rfl
      | true => simp [kept.owed i owed]
    have assertion := kept.assertion
    refine
      { taken := by rw [BitVec.sub_self]; rfl
        few_asked := Nat.two_pow_pos 32
        counted := kept.counted
        few_uncommitted := kept.few_uncommitted
        called := kept.called
        owed := fun i owed => absurd (unowed i) (by rw [owed]; exact Bool.noConfusion)
        waiting := fun i owed => absurd (unowed i) (by rw [owed]; exact Bool.noConfusion)
        stamped := fun asked => absurd rfl asked
        earliest := by rintro _ a ⟨⟩
        origin := by simp
        past := by rintro a ⟨⟩
        committed := fun _ asked => absurd rfl asked
        assertion := ?_ }
    unfold Assertion at assertion ⊢
    cases at_worker : l.worker with
    | idle => trivial
    | compare what now =>
      simp only [at_worker] at assertion ⊢
      exact assertion
    | stamp what now =>
      simp only [at_worker] at assertion
      exact absurd assertion.2 due.1
    | load what =>
      simp only [at_worker, Latch.requesting] at assertion ⊢
      exact ⟨assertion.1, nofun⟩
    | store what loaded =>
      simp only [at_worker, Latch.requesting] at assertion ⊢
      exact ⟨assertion.1, nofun, by simp, nofun⟩
    | bump what =>
      simp only [at_worker, Latch.requesting] at assertion ⊢
      exact ⟨assertion.1, nofun, nofun⟩
    | commitRead now =>
      simp only [at_worker] at assertion ⊢
      exact ⟨assertion.1, nofun⟩
    | commitCheck seq now =>
      simp only [at_worker] at assertion ⊢
      exact ⟨assertion.1, assertion.2.1, nofun⟩
    | commitMs seq now =>
      simp only [at_worker] at assertion ⊢
      exact ⟨assertion.1, assertion.2.1, nofun, assertion.2.2.2⟩
    | commitSeq seq =>
      simp only [at_worker] at assertion ⊢
      exact ⟨assertion.1, assertion.2.1, nofun, assertion.2.2.2⟩

theorem Kept.step {entry : Latch × Record} {event : Event} (kept : Kept start entry.1 entry.2)
    (fair : event.Fair entry) :
    Kept start ((recorded start).step entry event).1 ((recorded start).step entry event).2 := by
  cases event with
  | request what time => exact kept.request fair.1 fair.2 what
  | commit time => exact kept.commit fair.1 fair.2
  | work => exact kept.work fair.1 fair.2
  | take time txBusy => exact kept.take fair txBusy

/-- A bit that was requested and not returned since, with the clock that was started for it. -/
structure Waits (start : Word) (i : Nat) (first : Nat) (entry : Latch × Record) : Prop where
  kept : Kept start entry.1 entry.2
  owed : entry.2.owed.getLsbD i = true
  asked : entry.2.asked ≠ []
  first_eq : entry.2.first = first

theorem Waits.take {i first time : Nat} {txBusy : Bool} {entry : Latch × Record}
    (waits : Waits start i first entry)
    (due : entry.1.due (clockAt start time) txBusy = true) :
    (entry.1.take (clockAt start time) txBusy).2.getLsbD i = true := by
  have due : (entry.1.pending && entry.1.due (clockAt start time) txBusy) = true := by
    rw [Bool.and_eq_true, waits.kept.pending_iff]
    exact ⟨waits.asked, due⟩
  rw [take_due due]
  exact waits.kept.owed i waits.owed

/-- A bit waits, and its clock runs on, until a take returns it. -/
theorem Waits.step {i first : Nat} {entry : Latch × Record} {event : Event}
    (waits : Waits start i first entry) (fair : event.Fair entry)
    (unreturned : ∀ word ∈ (recorded start).emit entry event, word.getLsbD i = false) :
    Waits start i first ((recorded start).step entry event) := by
  have kept := waits.kept.step fair
  obtain ⟨l, r⟩ := entry
  cases event with
  | request what time => exact ⟨kept, waits.owed, waits.asked, waits.first_eq⟩
  | commit time =>
    refine ⟨kept, waits.owed, ?_, waits.first_eq⟩
    exact fun empty => waits.asked (List.map_eq_nil_iff.mp empty)
  | take time txBusy =>
    have undue : (l.pending && l.due (clockAt start time) txBusy) = false := by
      rw [Bool.and_eq_false_iff]
      right
      rw [Bool.eq_false_iff]
      intro due
      have returned := waits.take due
      rw [unreturned _ rfl] at returned
      cases returned
    have record_eq : r.take l (clockAt start time) time txBusy = { r with time } := by
      rw [Record.take, undue, if_neg Bool.false_ne_true]
    refine ⟨kept, ?_, ?_, ?_⟩
    · change (r.take l (clockAt start time) time txBusy).owed.getLsbD i = true
      rw [record_eq]
      exact waits.owed
    · change (r.take l (clockAt start time) time txBusy).asked ≠ []
      rw [record_eq]
      exact waits.asked
    · change (r.take l (clockAt start time) time txBusy).first = first
      rw [record_eq]
      exact waits.first_eq
  | work =>
    have assertion := waits.kept.assertion
    obtain ⟨owed, asked, first_eq⟩ : (r.work l).owed.getLsbD i = true ∧ (r.work l).asked ≠ [] ∧
        (r.work l).first = first := by
      cases at_worker : l.worker with
      | stamp what now =>
        simp only [Assertion, at_worker] at assertion
        exact absurd assertion.2 waits.asked
      | store what loaded =>
        simp only [Record.work, at_worker]
        refine ⟨?_, waits.asked, waits.first_eq⟩
        rw [BitVec.getLsbD_or, waits.owed]
        rfl
      | bump what =>
        simp only [Record.work, at_worker]
        exact ⟨waits.owed, by simp, waits.first_eq⟩
      | _ =>
        simp only [Record.work, at_worker]
        exact ⟨waits.owed, waits.asked, waits.first_eq⟩
    exact ⟨kept, owed, asked, first_eq⟩

theorem Waits.run {i first : Nat} {entry : Latch × Record} {events : List Event}
    (waits : Waits start i first entry)
    (fair : (recorded start).Along (fun entry event => event.Fair entry) entry events)
    (unreturned : ∀ word ∈ (recorded start).emitted entry events, word.getLsbD i = false) :
    Waits start i first ((recorded start).run entry events) := by
  induction events generalizing entry with
  | nil => exact waits
  | cons event events ih =>
    refine ih (waits.step fair.1 fun word member => ?_) fair.2 fun word member => ?_
    · exact unreturned word (List.mem_append_left _ (Option.mem_toList.mpr member))
    · exact unreturned word (List.mem_append_right _ member)

theorem Waits.due {i first time : Nat} {entry : Latch × Record} (waits : Waits start i first entry)
    (late : maxWaitMs ≤ clockAt start time - clockAt start first) (txBusy : Bool) :
    entry.1.due (clockAt start time) txBusy = true := by
  have stamped := (waits.kept.stamped waits.asked).1
  rw [waits.first_eq] at stamped
  rw [Latch.due, stamped, Bool.or_eq_true]
  exact .inl (decide_eq_true late)

/-- Of two takes a bit that waits is returned by the second at the latest. -/
theorem Waits.returned {i first : Nat} {entry : Latch × Record} (waits : Waits start i first entry)
    {before after : Nat} {busy busy' : Bool} {more : List Event}
    (fair : (recorded start).Along (fun entry event => event.Fair entry) entry
      (.take before busy :: (more ++ [.take after busy'])))
    (apart : before + maxWaitMs.toNat ≤ after)
    (close : after + maxWaitMs.toNat ≤ before + 2 ^ 32) :
    ∃ word ∈ (recorded start).emitted entry (.take before busy :: (more ++ [.take after busy'])),
      word.getLsbD i = true := by
  by_contra none_returned
  have unreturned : ∀ word ∈ (recorded start).emitted entry
      (.take before busy :: (more ++ [.take after busy'])), word.getLsbD i = false := by
    intro word member
    rw [Bool.eq_false_iff]
    exact fun returned => none_returned ⟨word, member, returned⟩
  obtain ⟨fair_first, fair_rest⟩ := fair
  obtain ⟨fair_more, fair_second, _⟩ := ((recorded start).along_append more _).mp fair_rest
  have first_word : ∀ word ∈ (recorded start).emit entry (.take before busy), word.getLsbD i = false := fun word member =>
    unreturned word (List.mem_append_left _ (Option.mem_toList.mpr member))
  have later : ∀ word ∈ (recorded start).emitted ((recorded start).step entry (.take before busy))
      (more ++ [.take after busy']), word.getLsbD i = false := fun word member =>
    unreturned word (List.mem_append_right _ member)
  rw [(recorded start).emitted_append] at later
  have waits_more := (waits.step fair_first first_word).run fair_more fun word member =>
    later word (List.mem_append_left _ member)
  have past : first ≤ before := by
    have stamped := (waits.kept.stamped waits.asked).2
    rw [waits.first_eq] at stamped
    exact Nat.le_trans stamped fair_first
  obtain early | late := clockAt_late past apart close
  · have returned := waits.take (waits.due early busy)
    rw [first_word _ rfl] at returned
    cases returned
  · have returned := waits_more.take (waits_more.due late busy')
    refine absurd returned ?_
    rw [Bool.not_eq_true]
    exact later _ (List.mem_append_right _ (List.mem_append_left _ (List.mem_singleton_self _)))

/-- What a take returns was requested since the last one, and either committed and settled on an idle
link or the first of these requests has waited long enough. -/
theorem Kept.timely (kept : Kept start l r) (clean : r.clean = true) (outside : l.requesting = false)
    {time : Nat} (past : r.time ≤ time) {txBusy : Bool} {i : Nat}
    (returned : (l.take (clockAt start time) txBusy).2.getLsbD i = true) :
    (∃ a ∈ r.asked, a.what.getLsbD i = true) ∧
      ((∀ a ∈ r.asked, ∃ since, a.committed = some since ∧ since + settleMs.toNat ≤ time ∧
          txBusy = false) ∨
        ∃ earliest ∈ r.asked.head?, earliest.time + maxWaitMs.toNat ≤ time) := by
  have kept := kept.later past
  cases due : l.pending && l.due (clockAt start time) txBusy with
  | false =>
    rw [take_not_due due] at returned
    simp at returned
  | true =>
    rw [take_due due] at returned
    rw [Bool.and_eq_true, kept.pending_iff] at due
    obtain ⟨asked, due⟩ := due
    have resting : ∀ what, l.worker ≠ .bump what := by
      intro what busy
      simp [Latch.requesting, busy] at outside
    refine ⟨kept.origin clean resting i returned, ?_⟩
    rw [Latch.due, Bool.or_eq_true, Bool.and_eq_true, Bool.and_eq_true, beq_iff_eq,
      decide_eq_true_eq, decide_eq_true_eq, Bool.not_eq_true'] at due
    obtain late | ⟨recorded, settled, idle⟩ := due
    · obtain ⟨reqMs, earlier⟩ := kept.stamped asked
      rw [reqMs] at late
      have waited := clockAt_elapsed earlier late
      obtain ⟨earliest, rest, asked_eq⟩ := List.exists_cons_of_ne_nil asked
      have head : r.asked.head? = some earliest := by rw [asked_eq]; rfl
      refine .inr ⟨earliest, head, ?_⟩
      rw [kept.earliest clean earliest head]
      exact waited
    · obtain ⟨⟨commitMs, earlier⟩, all⟩ :=
        kept.committed (kept.commitSeq_iff.mp recorded.symm) asked
      rw [commitMs] at settled
      have waited := clockAt_elapsed earlier settled
      refine .inl fun a member => ?_
      obtain ⟨since, committed, before⟩ := all a member
      exact ⟨since, committed, Nat.le_trans (Nat.add_le_add_right before _) waited, idle⟩

theorem kept_init (start : Word) : Kept start {} {} where
  taken := rfl
  few_asked := Nat.two_pow_pos 32
  counted := rfl
  few_uncommitted := Nat.two_pow_pos 32
  called := Nat.le_refl _
  owed i owed := by simp at owed
  waiting i owed := by simp at owed
  stamped asked := absurd rfl asked
  earliest := by rintro _ a ⟨⟩
  origin _ _ i present := by simp at present
  past := by rintro a ⟨⟩
  committed _ asked := absurd rfl asked
  assertion := trivial

/-- Over every interleaving: of two takes that are apart by the longest wait the second at the latest
returns a bit that was requested and not returned since; and what a take between requests returns was
requested since the last such take, and is committed and settled on an idle link, or the first of these
requests has waited the longest time. -/
theorem reload_kept (start : Word) (events : List Event)
    (fair : (recorded start).Along (fun entry event => event.Fair entry) ({}, {}) events) :
    let entry := (recorded start).run ({}, {}) events
    (∀ i, entry.2.owed.getLsbD i = true → entry.1.requesting = false →
      ∀ before busy more after busy',
        (recorded start).Along (fun entry event => event.Fair entry) entry
          (.take before busy :: (more ++ [.take after busy'])) →
        before + maxWaitMs.toNat ≤ after → after + maxWaitMs.toNat ≤ before + 2 ^ 32 →
        ∃ word ∈ (recorded start).emitted entry (.take before busy :: (more ++ [.take after busy'])),
          word.getLsbD i = true) ∧
      (entry.2.clean = true → entry.1.requesting = false → ∀ time txBusy i, entry.2.time ≤ time →
        (entry.1.take (clockAt start time) txBusy).2.getLsbD i = true →
        (∃ a ∈ entry.2.asked, a.what.getLsbD i = true) ∧
          ((∀ a ∈ entry.2.asked, ∃ since, a.committed = some since ∧
              since + settleMs.toNat ≤ time ∧ txBusy = false) ∨
            ∃ earliest ∈ entry.2.asked.head?, earliest.time + maxWaitMs.toNat ≤ time)) := by
  intro entry
  have kept := fair.invariant _ (fun entry => Kept start entry.1 entry.2)
    (fun kept fair => kept.step fair) (kept_init start)
  constructor
  · intro i owed outside before busy more after busy' fair apart close
    have resting : ∀ what, entry.1.worker ≠ .bump what := by
      intro what at_worker
      simp [Latch.requesting, at_worker] at outside
    have waits : Waits start i entry.2.first entry := ⟨kept, owed, kept.asked_of_owed resting owed, rfl⟩
    exact waits.returned fair apart close
  · intro clean outside time txBusy i past returned
    exact kept.timely clean outside past returned

/-- A call of the worker that nothing interrupts. -/
def undisturbed (call : Event) : List Event := call :: List.replicate 5 .work

theorem reload_kept_sample :
    let events := undisturbed (.request 1 1000) ++ undisturbed (.commit 1001)
    let entry := (recorded 0).run ({}, {}) events
    (entry.1.take (clockAt 0 1021) false).2 = 1 ∧
      ∀ a ∈ entry.2.asked, (∃ since, a.committed = some since ∧ since + settleMs.toNat ≤ 1021 ∧
        false = false) ∨ ∃ earliest ∈ entry.2.asked.head?, earliest.time + maxWaitMs.toNat ≤ 1021 := by
  intro events entry
  have fair : (recorded 0).Along (fun entry event => event.Fair entry) ({}, {}) events := by decide
  have taken : (entry.1.take (clockAt 0 1021) false).2 = 1 := by decide
  obtain ⟨_, timely⟩ := (reload_kept 0 events fair).2 (by decide) (by decide) 1021 false 0 (by decide)
    (by rw [taken]; decide)
  exact ⟨taken, fun a member => timely.imp (fun all => all a member) id⟩

/-- The longest wait runs from the first request: a second one for another link, 100 ms old and not
committed, is taken with it. -/
theorem second_request_early :
    ¬ ∀ (start : Word) (events : List Event),
      (recorded start).Along (fun entry event => event.Fair entry) ({}, {}) events →
      let entry := (recorded start).run ({}, {}) events
      ∀ time txBusy i, entry.2.time ≤ time →
        (entry.1.take (clockAt start time) txBusy).2.getLsbD i = true →
        ∃ a ∈ entry.2.asked, a.what.getLsbD i = true ∧
          ((∃ since, a.committed = some since ∧ since + settleMs.toNat ≤ time ∧ txBusy = false) ∨
            a.time + maxWaitMs.toNat ≤ time) := by
  intro timely
  have fair : (recorded 0).Along (fun entry event => event.Fair entry) ({}, {})
      (undisturbed (.request 1 6000) ++ undisturbed (.request 2 6900)) := by decide
  obtain ⟨a, member, what, waited⟩ := timely 0 _ fair 7000 true 1 (by decide) (by decide)
  have asked : a = { what := 1, time := 6000 } ∨ a = { what := 2, time := 6900 } := by
    simpa using (show a ∈ [({ what := 1, time := 6000 } : Asked), { what := 2, time := 6900 }] from member)
  obtain rfl | rfl := asked
  · exact absurd what (by decide)
  · obtain ⟨since, committed, _⟩ | late := waited
    · cases committed
    · exact absurd late (by decide)

/- A take inside a request may return its bits before they are committed, when an earlier request is
due: the bits are written before the sequence number. -/
example :
    let events := undisturbed (.request 1 1000) ++ undisturbed (.commit 1000) ++
      [.request 2 1020, .work, .work, .work]
    let entry := (recorded 0).run ({}, {}) events
    entry.1.worker = .bump 2 ∧ (entry.1.take (clockAt 0 1020) false).2 = 3 := by
  decide

end BenchPod.NetReload
