import BenchPod.Boot.Guard
import Mathlib.Data.List.Induction
import Mathlib.Data.List.Pairwise

/-!
# Safe mode means a crash loop

The count a boot finds is the length of the unbroken row of failed boots before it.  Planned resets
are skipped, a boot that became healthy restarts the row, and a boot in safe mode always lengthens
it.
-/

namespace BenchPod.BootGuard

/-- The last planned reset announced in a boot was not withdrawn. -/
def plannedInForce (calls : List Call) : Bool :=
  calls.foldl (fun planned call =>
    match call with
    | .plannedReset value => value
    | _ => planned) false

/-- Whether a call announces or withdraws a planned reset. -/
def Call.isPlanned : Call → Bool
  | .plannedReset _ => true
  | _ => false

/-- No planned reset is announced or withdrawn after the boot became healthy. -/
def Orderly (calls : List Call) : Prop :=
  calls.Pairwise fun earlier later => ¬(earlier = .healthy ∧ later.isPlanned = true)

instance (calls : List Call) : Decidable (Orderly calls) := inferInstanceAs (Decidable (calls.Pairwise _))

theorem plannedInForce_planned (calls : List Call) (planned : Bool) :
    plannedInForce (calls ++ [.plannedReset planned]) = planned := by
  rw [plannedInForce, List.foldl_append]
  rfl

theorem plannedInForce_other (calls : List Call) {call : Call} (other : call.isPlanned = false) :
    plannedInForce (calls ++ [call]) = plannedInForce calls := by
  rw [plannedInForce, List.foldl_append]
  cases call with
  | plannedReset planned => cases other
  | _ => rfl

/-- What a boot counts as for the boots after it. -/
inductive Verdict where
  /-- It lengthens the row of failed boots. -/
  | failed
  /-- It is skipped. -/
  | planned
  /-- It restarts the row. -/
  | good

/-- A boot in safe mode counts as failed whatever it does. -/
def verdict (safe : Bool) (calls : List Call) : Verdict :=
  if safe then .failed
  else if .healthy ∈ calls then .good
  else if plannedInForce calls then .planned
  else .failed

/-- The failed boots in a row in a history, newest first.  Each boot comes with whether it ran in
safe mode. -/
def failedInRow : List (Boot × Bool) → Nat
  | [] => 0
  | (boot, safe) :: older =>
    let before := if boot.fresh then 0 else failedInRow older
    match verdict safe boot.calls with
    | .failed => before + 1
    | .planned => before
    | .good => 0

/-- The boots of a run in order, each with whether it ran in safe mode. -/
def history (noinit : Noinit) : List Boot → List (Boot × Bool)
  | [] => []
  | boot :: boots => (boot, (begin boot.fresh boot.crashTask noinit).safe) :: history (boot.finish noinit).noinit boots

theorem history_append (noinit : Noinit) (front back : List Boot) :
    history noinit (front ++ back) = history noinit front ++ history (runBoots noinit front) back := by
  induction front generalizing noinit with
  | nil => rfl
  | cons boot front ih =>
    simp only [List.cons_append, history, ih]
    rfl

theorem runBoots_append (noinit : Noinit) (front back : List Boot) :
    runBoots noinit (front ++ back) = runBoots (runBoots noinit front) back := List.foldl_append

/-- Every boot outside safe mode is orderly. -/
def OrderlyBoots (noinit : Noinit) (boots : List Boot) : Prop :=
  ∀ entry ∈ history noinit boots, entry.2 = true ∨ Orderly entry.1.calls

theorem run_keeps (state : BootState) (call : Call) :
    (call.run state).safe = state.safe ∧ (call.run state).priorFailed = state.priorFailed ∧
      (call.run state).noinit.record.magic = state.noinit.record.magic := by
  cases call with
  | stage step => exact ⟨rfl, rfl, rfl⟩
  | subStart sub => exact ⟨rfl, rfl, rfl⟩
  | subDone sub => exact ⟨rfl, rfl, rfl⟩
  | healthy =>
    simp only [Call.run, BootState.healthy]
    split <;> exact ⟨rfl, rfl, rfl⟩
  | plannedReset planned =>
    simp only [Call.run, BootState.plannedReset]
    split <;> exact ⟨rfl, rfl, rfl⟩
  | setHwReady => exact ⟨rfl, rfl, rfl⟩
  | armTestLoop boots sub => exact ⟨rfl, rfl, rfl⟩
  | testLoopPoint sub =>
    simp only [Call.run, BootState.testLoopPoint]
    split
    · exact ⟨rfl, rfl, rfl⟩
    · split <;> exact ⟨rfl, rfl, rfl⟩

theorem calls_keep (state : BootState) (calls : List Call) :
    (calls.foldl Call.run state).safe = state.safe ∧
      (calls.foldl Call.run state).priorFailed = state.priorFailed ∧
      (calls.foldl Call.run state).noinit.record.magic = state.noinit.record.magic := by
  induction calls generalizing state with
  | nil => exact ⟨rfl, rfl, rfl⟩
  | cons call calls ih =>
    obtain ⟨safe_eq, prior_eq, magic_eq⟩ := ih (call.run state)
    obtain ⟨safe_call, prior_call, magic_call⟩ := run_keeps state call
    exact ⟨safe_eq.trans safe_call, prior_eq.trans prior_call, magic_eq.trans magic_call⟩

theorem run_failed {state : BootState} (normal : state.safe = false) (call : Call) :
    (call.run state).noinit.record.failed =
      match call with
      | .healthy => 0
      | .plannedReset planned => if planned then state.priorFailed else state.priorFailed + 1
      | _ => state.noinit.record.failed := by
  cases call with
  | stage step => rfl
  | subStart sub => rfl
  | subDone sub => rfl
  | healthy =>
    simp only [Call.run, BootState.healthy, normal]
    rfl
  | plannedReset planned =>
    simp only [Call.run, BootState.plannedReset, normal]
    rfl
  | setHwReady => rfl
  | armTestLoop boots sub => rfl
  | testLoopPoint sub =>
    simp only [Call.run, BootState.testLoopPoint]
    split
    · rfl
    · split <;> rfl

theorem run_failed_safe {state : BootState} (safe : state.safe = true) (call : Call) :
    (call.run state).noinit.record.failed = state.noinit.record.failed := by
  cases call with
  | healthy => simp only [Call.run, BootState.healthy, safe, if_true]
  | plannedReset planned => simp only [Call.run, BootState.plannedReset, safe, if_true]
  | testLoopPoint sub =>
    simp only [Call.run, BootState.testLoopPoint]
    split
    · rfl
    · split <;> rfl
  | stage step => rfl
  | subStart sub => rfl
  | subDone sub => rfl
  | setHwReady => rfl
  | armTestLoop boots sub => rfl

theorem calls_failed_safe {state : BootState} (safe : state.safe = true) (calls : List Call) :
    (calls.foldl Call.run state).noinit.record.failed = state.noinit.record.failed := by
  induction calls generalizing state with
  | nil => rfl
  | cons call calls ih => exact (ih ((run_keeps state call).1.trans safe)).trans (run_failed_safe safe call)

theorem calls_failed {state : BootState} (normal : state.safe = false)
    (counted : state.noinit.record.failed = state.priorFailed + 1) {calls : List Call}
    (orderly : Orderly calls) :
    (calls.foldl Call.run state).noinit.record.failed =
      if .healthy ∈ calls then 0
      else if plannedInForce calls then state.priorFailed else state.priorFailed + 1 := by
  induction calls using List.reverseRecOn with
  | nil => simpa [plannedInForce] using counted
  | append_singleton calls call ih =>
    obtain ⟨front_orderly, -, apart⟩ := List.pairwise_append.mp orderly
    obtain ⟨safe_eq, prior_eq, -⟩ := calls_keep state calls
    rw [List.foldl_append, List.foldl_cons, List.foldl_nil, run_failed (safe_eq.trans normal)]
    cases call with
    | healthy => simp
    | plannedReset planned =>
      have unhealthy : Call.healthy ∉ calls := fun member => apart _ member _ (List.mem_singleton_self _) ⟨rfl, rfl⟩
      simp [unhealthy, prior_eq, plannedInForce_planned]
    | _ =>
      rw [plannedInForce_other calls rfl]
      simp [ih front_orderly]

theorem begin_prior (fresh : Bool) (crashTask : String) {noinit : Noinit}
    (known : noinit.record.magic = recordMagic) :
    (begin fresh crashTask noinit).priorFailed = if fresh then 0 else noinit.record.failed := by
  cases fresh <;> simp [begin, known]

theorem begin_counted (fresh : Bool) (crashTask : String) (noinit : Noinit) :
    (begin fresh crashTask noinit).noinit.record.failed = (begin fresh crashTask noinit).priorFailed + 1 := rfl

theorem begin_safe (fresh : Bool) (crashTask : String) (noinit : Noinit) :
    (begin fresh crashTask noinit).safe = true ↔ 2 ≤ (begin fresh crashTask noinit).priorFailed.toNat := by
  simp only [begin, BitVec.ule_eq_decide, decide_eq_true_eq]
  rfl

theorem begin_fresh (crashTask : String) (noinit : Noinit) : (begin true crashTask noinit).priorFailed = 0 := rfl

theorem finish_failed (boot : Boot) (noinit : Noinit)
    (orderly : (begin boot.fresh boot.crashTask noinit).safe = true ∨ Orderly boot.calls) :
    (boot.finish noinit).noinit.record.failed =
      match verdict (begin boot.fresh boot.crashTask noinit).safe boot.calls with
      | .failed => (begin boot.fresh boot.crashTask noinit).priorFailed + 1
      | .planned => (begin boot.fresh boot.crashTask noinit).priorFailed
      | .good => 0 := by
  cases safe_eq : (begin boot.fresh boot.crashTask noinit).safe with
  | true =>
    rw [Boot.finish, calls_failed_safe safe_eq]
    rfl
  | false =>
    rw [Boot.finish, calls_failed safe_eq rfl (orderly.resolve_left (by simp [safe_eq]))]
    by_cases healthy : Call.healthy ∈ boot.calls
    · simp [verdict, healthy]
    · by_cases planned : plannedInForce boot.calls = true <;> simp [verdict, healthy, planned]

theorem finish_magic (boot : Boot) (noinit : Noinit) : (boot.finish noinit).noinit.record.magic = recordMagic :=
  (calls_keep (begin boot.fresh boot.crashTask noinit) boot.calls).2.2

theorem succ_toNat_mod {word : Word} {count : Nat} (word_eq : word.toNat = count % 2 ^ 32) :
    (word + 1).toNat = (count + 1) % 2 ^ 32 := by
  rw [BitVec.toNat_add, word_eq]
  exact Nat.mod_add_mod _ _ _

theorem runBoots_failed (noinit : Noinit) (first : Boot) (boots : List Boot)
    (first_fresh : first.fresh = true) (orderly : OrderlyBoots noinit (first :: boots)) :
    (runBoots noinit (first :: boots)).record.magic = recordMagic ∧
      (runBoots noinit (first :: boots)).record.failed.toNat =
        failedInRow (history noinit (first :: boots)).reverse % 2 ^ 32 := by
  -- One more boot, whose own count stands for the row before it.
  have extend (before : Noinit) (boot : Boot) (older : List (Boot × Bool))
      (boot_orderly : (begin boot.fresh boot.crashTask before).safe = true ∨ Orderly boot.calls)
      (prior : (begin boot.fresh boot.crashTask before).priorFailed.toNat =
        (if boot.fresh then 0 else failedInRow older) % 2 ^ 32) :
      (boot.finish before).noinit.record.failed.toNat =
        failedInRow ((boot, (begin boot.fresh boot.crashTask before).safe) :: older) % 2 ^ 32 := by
    rw [finish_failed boot before boot_orderly, failedInRow]
    cases verdict (begin boot.fresh boot.crashTask before).safe boot.calls with
    | failed => exact succ_toNat_mod prior
    | planned => exact prior
    | good => rfl
  induction boots using List.reverseRecOn with
  | nil =>
    refine ⟨finish_magic first noinit, ?_⟩
    refine extend noinit first [] (orderly _ (List.mem_cons_self ..)) ?_
    simp [first_fresh, begin_fresh]
  | append_singleton boots boot ih =>
    have split : first :: (boots ++ [boot]) = (first :: boots) ++ [boot] := rfl
    rw [split] at orderly ⊢
    rw [OrderlyBoots, history_append] at orderly
    obtain ⟨magic_eq, failed_eq⟩ := ih fun entry member => orderly entry (List.mem_append_left _ member)
    rw [runBoots_append, history_append, List.reverse_append]
    refine ⟨finish_magic boot _, ?_⟩
    refine extend _ boot _ (orderly _ (List.mem_append_right _ (List.mem_cons_self ..))) ?_
    rw [begin_prior _ _ magic_eq]
    split
    · rfl
    · exact failed_eq

/-- RAM that no boot has written. -/
def blankNoinit : Noinit where
  record := { magic := 0, failed := 0, stage := 0, lastStage := 0, started := 0, done := 0, off := 0 }
  testMagic := 0
  testLeft := 0
  testSub := 0

/-- Boots in a row, newest first, that ended without ever becoming healthy, with those skipped that
ended by a planned reset. -/
def neverHealthyInRow : List Boot → Nat
  | [] => 0
  | boot :: older =>
    if plannedInForce boot.calls then neverHealthyInRow older
    else if .healthy ∈ boot.calls then 0
    else neverHealthyInRow older + 1

end BenchPod.BootGuard
