import BenchPod.Json.Document

/-!
# Skipping values

The loops that count brackets pass over strings, whatever is in them, and are back at their depth behind
every value.
-/

namespace BenchPod.Json

/-! ## Strings -/

/-- Whether a scan is inside a string, and behind a backslash there. -/
abbrev Lexed := Bool × Bool

/-- Outside of any string. -/
abbrev outside : Lexed := (false, false)

/-- The scan of one more character. -/
def lexNext (state : Lexed) (c : Byte) : Lexed :=
  if state.2 then (state.1, false)
  else if state.1 then if c = ascii '\\' then (true, true) else (c ≠ ascii '"', false)
  else (c = ascii '"', false)

theorem lexNext_plain {c : Byte} (fine : plain c) : lexNext (true, false) c = (true, false) := by
  obtain ⟨quote, escape, -⟩ := plain_parts fine
  simp [lexNext, quote, escape]

theorem lexNext_outside {c : Byte} (fine : c ≠ ascii '"') : lexNext outside c = outside := by
  simp [lexNext, fine]

theorem quoted_raw {raw : List Byte} (fine : Raw raw) (rest : List Byte) :
    quoted (raw ++ ascii '"' :: rest) = some (raw, rest) := by
  induction fine with
  | nil =>
    rw [List.nil_append]
    unfold quoted
    rw [if_pos rfl]
  | char here later ih =>
    obtain ⟨quote, escape, -⟩ := plain_parts here
    rw [List.cons_append]
    unfold quoted
    rw [if_neg quote, if_neg escape, ih]
    rfl
  | escape here later ih =>
    rw [List.cons_append, List.cons_append]
    unfold quoted
    rw [if_neg (by decide), if_pos rfl]
    dsimp only
    rw [ih]
    rfl

/-! ## Brackets -/

/-- A scan that counts brackets: the depth, and where it is in a string. -/
structure Nest where
  depth : Nat
  lexed : Lexed
  deriving DecidableEq

/-- A bracket that counts; `square` tells whether those of arrays do. -/
def opensNest (square : Bool) (c : Byte) : Prop := c = ascii '\x7b' ∨ square = true ∧ c = ascii '['

def closesNest (square : Bool) (c : Byte) : Prop := c = ascii '\x7d' ∨ square = true ∧ c = ascii ']'

instance (square : Bool) (c : Byte) : Decidable (opensNest square c) := inferInstanceAs (Decidable (_ ∨ _))

instance (square : Bool) (c : Byte) : Decidable (closesNest square c) := inferInstanceAs (Decidable (_ ∨ _))

namespace Nest

/-- The depth after one more character. -/
def next (square : Bool) (state : Nest) (c : Byte) : Nest where
  depth :=
    if state.lexed = outside then
      if opensNest square c then state.depth + 1
      else if closesNest square c then state.depth - 1 else state.depth
    else state.depth
  lexed := lexNext state.lexed c

/-- The character closes the outermost bracket. -/
def Done (square : Bool) (state : Nest) (c : Byte) : Prop :=
  state.lexed = outside ∧ closesNest square c ∧ state.depth = 1

/-- The scan passes over a text without an end. -/
def Passes (square : Bool) : Nest → List Byte → Nest → Prop
  | state, [], last => state = last
  | state, c :: text, last => ¬state.Done square c ∧ Passes square (state.next square c) text last

variable {square : Bool} {state middle last : Nest}

theorem Passes.append {text more : List Byte} (first : Passes square state text middle)
    (second : Passes square middle more last) : Passes square state (text ++ more) last := by
  induction text generalizing state with
  | nil =>
    obtain rfl : state = middle := first
    exact second
  | cons c text ih => exact ⟨first.1, ih first.2⟩

theorem Passes.cons {c : Byte} {text : List Byte} (going : ¬state.Done square c)
    (later : Passes square (state.next square c) text last) : Passes square state (c :: text) last :=
  ⟨going, later⟩

/-- A character that is no quote and no bracket. -/
structure Dull (c : Byte) : Prop where
  quote : c ≠ ascii '"'
  opens : ¬opensNest true c
  closes : ¬closesNest true c

theorem Dull.opens_any {c : Byte} (dull : Dull c) (square : Bool) : ¬opensNest square c :=
  fun either => dull.opens (either.imp id fun bracket => ⟨rfl, bracket.2⟩)

theorem Dull.closes_any {c : Byte} (dull : Dull c) (square : Bool) : ¬closesNest square c :=
  fun either => dull.closes (either.imp id fun bracket => ⟨rfl, bracket.2⟩)

theorem passes_dull {depth : Nat} {text : List Byte} (dull : ∀ c ∈ text, Dull c) :
    Passes square ⟨depth, outside⟩ text ⟨depth, outside⟩ := by
  induction text with
  | nil => rfl
  | cons c text ih =>
    obtain ⟨here, later⟩ := List.forall_mem_cons.mp dull
    refine Passes.cons (fun done => here.closes_any square done.2.1) ?_
    have same : next square ⟨depth, outside⟩ c = ⟨depth, outside⟩ := by
      simp only [next, if_neg (here.opens_any square), if_neg (here.closes_any square), if_true,
        lexNext_outside here.quote]
    rw [same]
    exact ih later

theorem passes_inside {depth : Nat} {raw : List Byte} (fine : Raw raw) :
    Passes square ⟨depth, true, false⟩ raw ⟨depth, true, false⟩ := by
  have inside (lexed : Lexed) (other : lexed ≠ outside) (c : Byte) (text : List Byte)
      (later : Passes square ⟨depth, lexNext lexed c⟩ text ⟨depth, true, false⟩) :
      Passes square ⟨depth, lexed⟩ (c :: text) ⟨depth, true, false⟩ := by
    refine Passes.cons (fun done => other done.1) ?_
    have same : next square ⟨depth, lexed⟩ c = ⟨depth, lexNext lexed c⟩ := by simp only [next, if_neg other]
    rwa [same]
  induction fine with
  | nil => rfl
  | char here later ih =>
    apply inside (true, false) (by decide)
    rwa [lexNext_plain here]
  | escape here later ih =>
    apply inside (true, false) (by decide)
    exact inside (true, true) (by decide) _ _ ih

theorem passes_str {depth : Nat} {raw : List Byte} (fine : Raw raw) :
    Passes square ⟨depth, outside⟩ (ascii '"' :: (raw ++ [ascii '"'])) ⟨depth, outside⟩ := by
  have still (lexed : Lexed) : next square ⟨depth, lexed⟩ (ascii '"') = ⟨depth, lexNext lexed (ascii '"')⟩ := by
    simp only [next]
    split_ifs with _ opens closes
    · exact absurd opens (by cases square <;> decide)
    · exact absurd closes (by cases square <;> decide)
    · rfl
    · rfl
  have going (lexed : Lexed) : ¬Done square ⟨depth, lexed⟩ (ascii '"') := fun done =>
    absurd done.2.1 (by cases square <;> decide)
  refine Passes.cons (going _) ?_
  rw [still]
  refine (passes_inside fine).append (Passes.cons (going _) ?_)
  rw [still]
  rfl

end Nest

theorem dull_ws {c : Byte} (blank : isWs c) : Nest.Dull c := by
  simp only [isWs, Bool.or_eq_true, beq_iff_eq] at blank
  rcases blank with ((rfl | rfl) | rfl) | rfl
  all_goals exact ⟨by decide, by decide, by decide⟩

theorem dull_bare {c : Byte} (fine : bareChar c) : Nest.Dull c := by
  have parts := bareChar_parts fine
  refine ⟨parts.quote, ?_, ?_⟩
  · rintro (opens | ⟨-, opens⟩)
    · exact parts.openObject opens
    · exact parts.openArray opens
  · rintro (closes | ⟨-, closes⟩)
    · exact (endsBare_parts parts.ends).2.1 closes
    · exact parts.closeArray closes

theorem passes_blank {square : Bool} {depth : Nat} {pad : List Byte} (blank : Blank pad) :
    Nest.Passes square ⟨depth, outside⟩ pad ⟨depth, outside⟩ :=
  Nest.passes_dull fun c member => dull_ws (blank c member)

theorem passes_char {square : Bool} {depth : Nat} {c : Byte} (dull : Nest.Dull c) {text : List Byte} {last : Nest}
    (later : Nest.Passes square ⟨depth, outside⟩ text last) :
    Nest.Passes square ⟨depth, outside⟩ (c :: text) last :=
  (Nest.passes_dull (List.forall_mem_singleton.mpr dull)).append later

theorem dull_colon : Nest.Dull (ascii ':') := ⟨by decide, by decide, by decide⟩

theorem dull_comma : Nest.Dull (ascii ',') := ⟨by decide, by decide, by decide⟩

theorem passes_comma {square : Bool} {depth : Nat} (first : Bool) :
    Nest.Passes square ⟨depth, outside⟩ (comma first) ⟨depth, outside⟩ := by
  cases first with
  | true => rfl
  | false => exact passes_char dull_comma rfl

theorem passes_name {square : Bool} {depth : Nat} {name : Name} (wf : name.Wf) :
    Nest.Passes square ⟨depth, outside⟩ (name.put []) ⟨depth, outside⟩ := by
  have same : name.put [] = (ascii '"' :: (name.raw ++ [ascii '"'])) ++
      (name.before ++ ascii ':' :: (name.after ++ [])) := by
    simp [Name.put]
  rw [same]
  refine (Nest.passes_str wf.raw).append ((passes_blank wf.before).append (passes_char dull_colon ?_))
  rw [List.append_nil]
  exact passes_blank wf.after

theorem passes_brackets {square : Bool} {depth : Nat} (object : Bool) {text : List Byte}
    (inner : ∀ depth, Nest.Passes square ⟨depth + 1, outside⟩ text ⟨depth + 1, outside⟩) :
    Nest.Passes square ⟨depth + 1, outside⟩ (opener object :: (text ++ [closer object])) ⟨depth + 1, outside⟩ := by
  have first : ¬Nest.Done square ⟨depth + 1, outside⟩ (opener object) := fun done =>
    absurd done.2.1 (by cases object <;> cases square <;> decide)
  by_cases counts : object || square
  · have opens : Nest.next square ⟨depth + 1, outside⟩ (opener object) = ⟨depth + 1 + 1, outside⟩ := by
      cases object <;> cases square <;> first | rfl | cases counts
    have last : ¬Nest.Done square ⟨depth + 1 + 1, outside⟩ (closer object) := fun done => absurd done.2.2 (by simp)
    have closes : Nest.next square ⟨depth + 1 + 1, outside⟩ (closer object) = ⟨depth + 1, outside⟩ := by
      cases object <;> cases square <;> first | rfl | cases counts
    refine Nest.Passes.cons first ?_
    rw [opens]
    refine (inner (depth + 1)).append (Nest.Passes.cons last ?_)
    rw [closes]
    rfl
  · obtain ⟨rfl, rfl⟩ : object = false ∧ square = false := by simpa using counts
    have last : ¬Nest.Done false ⟨depth + 1, outside⟩ (closer false) := fun done => absurd done.2.1 (by decide)
    refine Nest.Passes.cons first ?_
    exact (inner depth).append (Nest.Passes.cons last rfl)

mutual
theorem Tree.passes {square : Bool} {depth : Nat} {tree : Tree} (wf : tree.Wf) :
    Nest.Passes square ⟨depth + 1, outside⟩ (tree.put []) ⟨depth + 1, outside⟩ := by
  cases tree with
  | str raw => exact Nest.passes_str wf
  | bare chars =>
    rw [Tree.put, List.append_nil]
    exact Nest.passes_dull fun c member => dull_bare (wf.2 c member)
  | nest object pad parts =>
    rw [Tree.put, Parts.put_append, ← List.append_assoc]
    exact passes_brackets object fun depth => (passes_blank wf.1).append (Parts.passes true wf.2)
/-- Behind the parts of an object or an array the count is what it was in front of them. -/
theorem Parts.passes {square : Bool} {depth : Nat} {parts : Parts} (first : Bool) {object : Bool}
    (wf : parts.Wf object) :
    Nest.Passes square ⟨depth + 1, outside⟩ (parts.put first []) ⟨depth + 1, outside⟩ := by
  cases parts with
  | nil => rfl
  | cons lead name tree trail rest =>
    obtain ⟨lead_blank, -, name_wf, tree_wf, trail_blank, rest_wf⟩ := wf
    rw [Parts.put]
    refine (passes_comma first).append ((passes_blank lead_blank).append ?_)
    have behind : Nest.Passes square ⟨depth + 1, outside⟩ (tree.put (trail ++ rest.put false []))
        ⟨depth + 1, outside⟩ := by
      rw [Tree.put_append]
      exact (Tree.passes tree_wf).append ((passes_blank trail_blank).append (Parts.passes false rest_wf))
    cases name with
    | none => exact behind
    | some name =>
      have same (text : List Byte) : name.put text = name.put [] ++ text := by simp [Name.put]
      rw [putName, same]
      exact (passes_name (name_wf name rfl)).append behind
end

end BenchPod.Json
