import Mathlib.Data.List.Basic
import Mathlib.Data.Set.Insert

/-!
# A line with an overflow

One party puts values and marks into a line, another takes them out at the front.  A mark that does
not fit is parked behind the whole line; while something is parked no value gets in.  What is parked
is taken together, when no value stands in the line.

Every mark asked for is run exactly when the values accepted before it have been processed.
-/

namespace BenchPod

/-- What stands in a line. -/
inductive Entry (α κ : Type*) where
  | data (value : α)
  | mark (kind : κ)

/-- A line, the marks parked behind it and the marks taken from there. -/
@[ext]
structure Line (α κ : Type*) where
  entries : List (Entry α κ)
  parked : Set κ
  taken : Set κ

namespace Line

variable {α κ : Type*}

/-- What is done to a line. -/
inductive Act (α κ : Type*) where
  | accept (value : α)
  | process (value : α)
  | ask (kind : κ)
  | run (kind : κ)

/-- The values that stand in a line. -/
def values : List (Entry α κ) → List α
  | [] => []
  | .data value :: entries => value :: values entries
  | .mark _ :: entries => values entries

@[simp]
theorem values_append (front back : List (Entry α κ)) : values (front ++ back) = values front ++ values back := by
  induction front with
  | nil => rfl
  | cons entry front ih =>
    cases entry with
    | data value => exact congrArg (value :: ·) ih
    | mark kind => exact ih

/-- One act on a line, or a step that leaves its marks alone. -/
inductive Move : Line α κ → Option (Act α κ) → Line α κ → Prop where
  | still {line} : Move line none line
  | accept {line value} (clear : line.parked = ∅) :
      Move line (some (.accept value)) { line with entries := line.entries ++ [.data value] }
  | queue {line kind} :
      Move line (some (.ask kind)) { line with entries := line.entries ++ [.mark kind] }
  | park {line kind} :
      Move line (some (.ask kind)) { line with parked := insert kind line.parked }
  | process {line value entries} (idle : line.taken = ∅)
      (first : line.entries = .data value :: entries) :
      Move line (some (.process value)) { line with entries }
  | run {line kind entries} (first : line.entries = .mark kind :: entries) :
      Move line (some (.run kind)) { line with entries }
  | take {line} (idle : line.taken = ∅) (clear : values line.entries = []) :
      Move line none { line with parked := ∅, taken := line.parked }
  | apply {line kind} (taken : kind ∈ line.taken) :
      Move line (some (.run kind)) { line with taken := line.taken \ {kind} }

/-- A mark that has not run, with the values that stand before it. -/
inductive Waits (line : Line α κ) (kind : κ) : List α → Prop where
  | queued {front back} (split : line.entries = front ++ .mark kind :: back) :
      Waits line kind (values front)
  | parked (member : kind ∈ line.parked) : Waits line kind (values line.entries)
  | taken (member : kind ∈ line.taken) : Waits line kind []

def Act.accepted : Act α κ → Option α
  | .accept value => some value
  | _ => none

def Act.processed : Act α κ → Option α
  | .process value => some value
  | _ => none

/-- The values that an act puts into a line. -/
def added (act : Option (Act α κ)) : List α := (act.bind Act.accepted).toList

/-- The values that an act takes out of a line. -/
def removed (act : Option (Act α κ)) : List α := (act.bind Act.processed).toList

variable {line next : Line α κ} {act : Option (Act α κ)} {kind : κ}

theorem Move.values (move : Move line act next) :
    values line.entries ++ added act = removed act ++ values next.entries := by
  cases move with
  | still => exact List.append_nil _
  | @accept value => exact (values_append line.entries [.data value]).symm
  | @queue kind => exact (values_append line.entries [.mark kind]).symm
  | park => exact List.append_nil _
  | process _ first =>
    rw [first]
    exact List.append_nil _
  | run first =>
    rw [first]
    exact List.append_nil _
  | take => exact List.append_nil _
  | apply => exact List.append_nil _

/-- A mark that waits runs when nothing stands before it, and waits on otherwise. -/
theorem Waits.move {before : List α} (waits : Waits line kind before) (move : Move line act next) :
    (act = some (.run kind) ∧ before = []) ∨ ∃ rest, Waits next kind rest ∧ before = removed act ++ rest := by
  cases move with
  | still => exact .inr ⟨before, waits, rfl⟩
  | accept clear =>
    cases waits with
    | queued split => exact .inr ⟨_, .queued (by rw [split, List.append_assoc]; rfl), rfl⟩
    | parked member => exact absurd (clear ▸ member) (Set.notMem_empty kind)
    | taken member => exact .inr ⟨_, .taken member, rfl⟩
  | queue =>
    cases waits with
    | queued split => exact .inr ⟨_, .queued (by rw [split, List.append_assoc]; rfl), rfl⟩
    | parked member =>
      refine .inr ⟨_, .parked member, ?_⟩
      exact ((values_append line.entries _).trans (List.append_nil _)).symm
    | taken member => exact .inr ⟨_, .taken member, rfl⟩
  | park =>
    cases waits with
    | queued split => exact .inr ⟨_, .queued split, rfl⟩
    | parked member => exact .inr ⟨_, .parked (Set.mem_insert_of_mem _ member), rfl⟩
    | taken member => exact .inr ⟨_, .taken member, rfl⟩
  | process idle first =>
    cases waits with
    | @queued front back split =>
      cases front with
      | nil =>
        rw [first] at split
        cases split
      | cons entry front =>
        obtain ⟨rfl, same⟩ := List.cons.inj (first.symm.trans split)
        exact .inr ⟨_, .queued same, rfl⟩
    | parked member =>
      rw [first]
      exact .inr ⟨_, .parked member, rfl⟩
    | taken member => exact absurd (idle ▸ member) (Set.notMem_empty kind)
  | run first =>
    cases waits with
    | @queued front back split =>
      cases front with
      | nil =>
        obtain ⟨same, _⟩ := List.cons.inj (first.symm.trans split)
        cases same
        exact .inl ⟨rfl, rfl⟩
      | cons entry front =>
        obtain ⟨rfl, same⟩ := List.cons.inj (first.symm.trans split)
        exact .inr ⟨_, .queued same, rfl⟩
    | parked member =>
      rw [first]
      exact .inr ⟨_, .parked member, rfl⟩
    | taken member => exact .inr ⟨_, .taken member, rfl⟩
  | take idle clear =>
    cases waits with
    | queued split => exact .inr ⟨_, .queued split, rfl⟩
    | parked member =>
      rw [clear]
      exact .inr ⟨_, .taken member, rfl⟩
    | taken member => exact absurd (idle ▸ member) (Set.notMem_empty kind)
  | @apply other taken =>
    cases waits with
    | queued split => exact .inr ⟨_, .queued split, rfl⟩
    | parked member => exact .inr ⟨_, .parked member, rfl⟩
    | taken member =>
      by_cases same : kind = other
      · exact .inl ⟨congrArg (some <| Act.run ·) same.symm, rfl⟩
      · exact .inr ⟨_, .taken ⟨member, same⟩, rfl⟩

theorem split_concat {entry last : Entry α κ} {entries front back : List (Entry α κ)}
    (split : entries ++ [last] = front ++ entry :: back) :
    (last = entry ∧ entries = front) ∨ ∃ back', entries = front ++ entry :: back' := by
  obtain rfl | ⟨back, final, rfl⟩ := List.eq_nil_or_concat back
  · obtain ⟨same, last_eq⟩ := List.append_inj' split rfl
    exact .inl ⟨List.singleton_inj.mp last_eq, same⟩
  · refine .inr ⟨back, ?_⟩
    have whole : entries ++ [last] = (front ++ entry :: back) ++ [final] := by
      rw [split, List.concat_eq_append, List.append_assoc, List.cons_append]
    exact (List.append_inj' whole rfl).1

/-- A mark that waits did so before, unless it was asked for just now, behind every value. -/
theorem Move.waits {rest : List α} (move : Move line act next) (waits : Waits next kind rest) :
    Waits line kind (removed act ++ rest) ∨ (act = some (.ask kind) ∧ rest = Line.values line.entries) := by
  cases move with
  | still => exact .inl waits
  | accept clear =>
    cases waits with
    | queued split =>
      obtain ⟨last, _⟩ | ⟨back, split⟩ := split_concat split
      · cases last
      · exact .inl (.queued split)
    | parked member => exact absurd (clear ▸ member) (Set.notMem_empty kind)
    | taken member => exact .inl (.taken member)
  | @queue other =>
    cases waits with
    | queued split =>
      obtain ⟨last, same⟩ | ⟨back, split⟩ := split_concat split
      · cases last
        exact .inr ⟨rfl, congrArg _ same.symm⟩
      · exact .inl (.queued split)
    | parked member =>
      have same : Line.values (line.entries ++ [.mark other]) = Line.values line.entries :=
        (values_append ..).trans (List.append_nil _)
      rw [same]
      exact .inl (.parked member)
    | taken member => exact .inl (.taken member)
  | park =>
    cases waits with
    | queued split => exact .inl (.queued split)
    | parked member =>
      obtain rfl | already := member
      · exact .inr ⟨rfl, rfl⟩
      · exact .inl (.parked already)
    | taken member => exact .inl (.taken member)
  | @process value _ idle first =>
    cases waits with
    | @queued front back split =>
      have longer : line.entries = (.data value :: front) ++ .mark kind :: back := by
        rw [first]
        exact congrArg (_ :: ·) split
      exact .inl (.queued longer)
    | parked member =>
      have waits : Waits line kind (Line.values line.entries) := .parked member
      rw [first] at waits
      exact .inl waits
    | taken member => exact absurd (idle ▸ member) (Set.notMem_empty kind)
  | @run other _ first =>
    cases waits with
    | @queued front back split =>
      have longer : line.entries = (.mark other :: front) ++ .mark kind :: back := by
        rw [first]
        exact congrArg (_ :: ·) split
      have waits : Waits line kind (Line.values (.mark other :: front)) := .queued longer
      exact .inl waits
    | parked member =>
      have waits : Waits line kind (Line.values line.entries) := .parked member
      rw [first] at waits
      exact .inl waits
    | taken member => exact .inl (.taken member)
  | take idle clear =>
    cases waits with
    | queued split => exact .inl (.queued split)
    | parked member => exact absurd member (Set.notMem_empty kind)
    | taken member =>
      have waits : Waits line kind (Line.values line.entries) := .parked member
      rw [clear] at waits
      exact .inl waits
  | apply taken =>
    cases waits with
    | queued split => exact .inl (.queued split)
    | parked member => exact .inl (.parked member)
    | taken member => exact .inl (.taken member.1)

theorem Move.ran (move : Move line (some (.run kind)) next) : Waits line kind [] := by
  cases move with
  | run first => exact .queued (show line.entries = [] ++ _ from first)
  | apply taken => exact .taken taken

theorem Move.asked (move : Move line (some (.ask kind)) next) : Waits next kind (Line.values line.entries) := by
  cases move with
  | queue => exact .queued rfl
  | park => exact .parked (Set.mem_insert kind _)

theorem Move.parked (move : Move line act next) (parked : kind ∈ line.parked) :
    added act = [] ∧
      ((kind ∈ next.parked ∧ (kind ∈ next.taken → kind ∈ line.taken)) ∨
        (kind ∈ next.taken ∧ removed act = [] ∧ Line.values line.entries = [])) := by
  cases move with
  | accept clear => exact absurd (clear ▸ parked) (Set.notMem_empty kind)
  | take idle clear => exact ⟨rfl, .inr ⟨parked, rfl, clear⟩⟩
  | park => exact ⟨rfl, .inl ⟨Set.mem_insert_of_mem _ parked, id⟩⟩
  | apply => exact ⟨rfl, .inl ⟨parked, fun taken => taken.1⟩⟩
  | _ => exact ⟨rfl, .inl ⟨parked, id⟩⟩

theorem Move.taken (move : Move line act next) (taken : kind ∈ line.taken) :
    act = some (.run kind) ∨ (kind ∈ next.taken ∧ removed act = []) := by
  cases move with
  | process idle first => exact absurd (idle ▸ taken) (Set.notMem_empty kind)
  | take idle clear => exact absurd (idle ▸ taken) (Set.notMem_empty kind)
  | @apply other _ =>
    by_cases same : kind = other
    · exact .inl (congrArg (some <| Act.run ·) same.symm)
    · exact .inr ⟨⟨taken, same⟩, rfl⟩
  | _ => exact .inr ⟨taken, rfl⟩

section Forever

variable {lines : Nat → Line α κ} {acts : Nat → Option (Act α κ)}

/-- The values put into the line before a time. -/
def into (acts : Nat → Option (Act α κ)) : Nat → List α
  | 0 => []
  | n + 1 => into acts n ++ added (acts n)

/-- The values taken out of the line before a time. -/
def out (acts : Nat → Option (Act α κ)) : Nat → List α
  | 0 => []
  | n + 1 => out acts n ++ removed (acts n)

variable (moves : ∀ n, Move (lines n) (acts n) (lines (n + 1)))

include moves in
theorem into_eq (empty : values (lines 0).entries = []) (n : Nat) :
    into acts n = out acts n ++ values (lines n).entries := by
  induction n with
  | zero => exact empty.symm
  | succ n ih => rw [into, ih, out, List.append_assoc, List.append_assoc, (moves n).values]

include moves in
theorem waits_on {n m : Nat} {before : List α} (waits : Waits (lines n) kind before) (le : n ≤ m) :
    (∃ j, n ≤ j ∧ j < m ∧ acts j = some (.run kind) ∧ out acts j = out acts n ++ before) ∨
      ∃ rest, Waits (lines m) kind rest ∧ out acts n ++ before = out acts m ++ rest := by
  induction le with
  | refl => exact .inr ⟨before, waits, rfl⟩
  | @step m le ih =>
    obtain ⟨j, from_n, lt, run, same⟩ | ⟨rest, waiting, same⟩ := ih
    · exact .inl ⟨j, from_n, Nat.lt_succ_of_lt lt, run, same⟩
    · obtain ⟨run, rfl⟩ | ⟨rest, waits, rfl⟩ := waiting.move (moves m)
      · exact .inl ⟨m, le, Nat.lt_succ_self m, run, by rw [same, List.append_nil]⟩
      · refine .inr ⟨rest, waits, ?_⟩
        rw [same, out, List.append_assoc]

include moves in
theorem was_asked (empty : values (lines 0).entries = [])
    (fresh : ∀ kind before, ¬ Waits (lines 0) kind before) {m : Nat} {rest : List α}
    (waits : Waits (lines m) kind rest) :
    ∃ n < m, acts n = some (.ask kind) ∧ into acts n = out acts m ++ rest := by
  induction m generalizing rest with
  | zero => exact absurd waits (fresh kind rest)
  | succ m ih =>
    obtain already | ⟨asked, rfl⟩ := (moves m).waits waits
    · obtain ⟨n, lt, asked, same⟩ := ih already
      refine ⟨n, Nat.lt_succ_of_lt lt, asked, ?_⟩
      rw [same, out, List.append_assoc]
    · refine ⟨m, Nat.lt_succ_self m, asked, ?_⟩
      rw [into_eq moves empty, out, asked]
      exact congrArg (· ++ _) (List.append_nil _).symm

end Forever
end Line
end BenchPod
