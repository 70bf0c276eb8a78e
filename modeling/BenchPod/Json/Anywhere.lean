import BenchPod.Json.Lookup

/-!
# Members at any depth

`find_key` looks for a quoted key with a colon behind it and does not know where strings begin and end.
As long as the first such place is not inside a string, it is the first member with that key.
-/

namespace BenchPod.Json

/-- The quoted key. -/
def needle (key : List Byte) : List Byte := ascii '"' :: key ++ [ascii '"']

/-- What stands behind a colon. -/
def colonValue (text : List Byte) : Option (List Byte) :=
  match skipWs text with
  | q :: value => if q = ascii ':' then some (skipWs value) else none
  | [] => none

/-- What stands behind a quoted key and a colon. -/
def hit (key text : List Byte) : Option (List Byte) :=
  if (needle key).isPrefixOf text then colonValue (text.drop (needle key).length) else none

/-- A search that knows where strings begin and end. -/
def scanKeys (key : List Byte) : Lexed → List Byte → Option (List Byte)
  | _, [] => none
  | state, c :: rest => (if state = outside then hit key (c :: rest) else none).or (scanKeys key (lexNext state c) rest)

/-- The first place that reads like the key and a colon begins inside a string or at its end. -/
def strays (key : List Byte) : Lexed → List Byte → Bool
  | _, [] => false
  | state, c :: rest =>
    if (hit key (c :: rest)).isSome then state ≠ outside else strays key (lexNext state c) rest

theorem findNeedle_cons (key : List Byte) (c : Byte) (rest : List Byte) :
    findNeedle (needle key) (c :: rest) = (hit key (c :: rest)).or (findNeedle (needle key) rest) := by
  rw [findNeedle, hit, colonValue]
  by_cases starts : (needle key).isPrefixOf (c :: rest) = true
  · rw [if_pos starts, if_pos starts]
    cases skipWs ((c :: rest).drop (needle key).length) with
    | nil => rfl
    | cons q value =>
      dsimp only
      split <;> rfl
  · rw [if_neg starts, if_neg starts, Option.none_or]

theorem findNeedle_scanKeys {key : List Byte} {state : Lexed} {text : List Byte}
    (straight : strays key state text = false) : findNeedle (needle key) text = scanKeys key state text := by
  induction text generalizing state with
  | nil => rfl
  | cons c rest ih =>
    rw [strays] at straight
    rw [findNeedle_cons, scanKeys]
    cases found : hit key (c :: rest) with
    | none =>
      rw [found] at straight
      rw [ih straight]
      split <;> rfl
    | some value =>
      rw [found, Option.isSome_some, if_pos rfl, decide_eq_false_iff_not, not_not] at straight
      rw [if_pos straight, Option.some_or, Option.some_or]

/-- A key without quotes and backslashes. -/
def Unquoted (key : List Byte) : Prop := ∀ c ∈ key, c ≠ ascii '"' ∧ c ≠ ascii '\\'

instance (key : List Byte) : Decidable (Unquoted key) :=
  inferInstanceAs (Decidable (∀ c ∈ key, c ≠ ascii '"' ∧ c ≠ ascii '\\'))

section search

variable {key : List Byte}

theorem scanKeys_plain {text : List Byte} (fine : ∀ c ∈ text, c ≠ ascii '"') (rest : List Byte) :
    scanKeys key outside (text ++ rest) = scanKeys key outside rest := by
  induction text with
  | nil => rfl
  | cons c text ih =>
    obtain ⟨here, later⟩ := List.forall_mem_cons.mp fine
    have none : hit key (c :: (text ++ rest)) = none := by
      refine if_neg fun starts => ?_
      rw [List.isPrefixOf_iff_prefix, needle, List.cons_append, List.cons_prefix_cons] at starts
      exact here starts.1.symm
    rw [List.cons_append, scanKeys, none, if_pos rfl, Option.none_or, lexNext_outside here, ih later]

theorem scanKeys_inside {raw : List Byte} (fine : Raw raw) (rest : List Byte) :
    scanKeys key (true, false) (raw ++ ascii '"' :: rest) = scanKeys key outside rest := by
  have inside (state : Lexed) (other : state ≠ outside) (c : Byte) (text : List Byte) :
      scanKeys key state (c :: text) = scanKeys key (lexNext state c) text := by
    rw [scanKeys, if_neg other, Option.none_or]
  induction fine with
  | nil => exact inside (true, false) (by decide) _ rest
  | char here later ih => rw [List.cons_append, inside _ (by decide), lexNext_plain here, ih]
  | escape here later ih =>
    rw [List.cons_append, List.cons_append, inside _ (by decide), inside _ (by decide)]
    exact ih

theorem raw_eq_key (unquoted : Unquoted key) {raw : List Byte} (fine : Raw raw) {more rest : List Byte}
    (same : key ++ ascii '"' :: more = raw ++ ascii '"' :: rest) : raw = key := by
  induction fine generalizing key with
  | nil =>
    cases key with
    | nil => rfl
    | cons k key =>
      injection same with first _
      exact absurd first (unquoted k List.mem_cons_self).1
  | char here later ih =>
    cases key with
    | nil =>
      injection same with first _
      exact absurd first.symm (plain_parts here).1
    | cons k key =>
      injection same with first rest
      rw [first, ih (fun c member => unquoted c (List.mem_cons_of_mem k member)) rest]
  | escape here later ih =>
    cases key with
    | nil =>
      injection same with first _
      exact absurd first (by decide)
    | cons k key =>
      injection same with first _
      exact absurd first (unquoted k List.mem_cons_self).2

theorem scanKeys_quoted (unquoted : Unquoted key) {raw : List Byte} (fine : Raw raw) (rest : List Byte) :
    scanKeys key outside (ascii '"' :: (raw ++ ascii '"' :: rest)) =
      (if raw = key then colonValue rest else none).or (scanKeys key outside rest) := by
  have found : hit key (ascii '"' :: (raw ++ ascii '"' :: rest)) = if raw = key then colonValue rest else none := by
    by_cases same : raw = key
    · subst same
      have starts : ascii '"' :: (raw ++ ascii '"' :: rest) = needle raw ++ rest := by simp [needle]
      have first : (needle raw).isPrefixOf (needle raw ++ rest) = true :=
        List.isPrefixOf_iff_prefix.mpr (List.prefix_append _ rest)
      rw [starts, hit, if_pos first, if_pos rfl, List.drop_left]
    · rw [if_neg same]
      refine if_neg fun starts => same ?_
      obtain ⟨more, starts⟩ := List.isPrefixOf_iff_prefix.mp starts
      have text : needle key ++ more = ascii '"' :: (key ++ ascii '"' :: more) := by simp [needle]
      rw [text] at starts
      exact raw_eq_key unquoted fine (List.cons.inj starts).2
  rw [scanKeys, if_pos rfl, found]
  exact congrArg _ (scanKeys_inside fine rest)

/-- A search passes over a part of the text or comes back with the first of its members. -/
def Scans (key : List Byte) (search after : Option (List Byte)) (members : List (List Byte × Tree)) : Prop :=
  match members.lookup key with
  | none => search = after
  | some tree => Found search (some tree)

theorem Scans.append {search middle after : Option (List Byte)} {members more : List (List Byte × Tree)}
    (first : Scans key search middle members) (second : Scans key middle after more) :
    Scans key search after (members ++ more) := by
  unfold Scans at first second ⊢
  rw [List.lookup_append]
  cases found : members.lookup key with
  | none =>
    rw [found] at first
    obtain rfl : search = middle := first
    exact second
  | some tree =>
    rw [found] at first
    exact first

theorem plain_ws {pad : List Byte} (blank : Blank pad) : ∀ c ∈ pad, c ≠ ascii '"' :=
  fun c member => (dull_ws (blank c member)).quote

theorem colonValue_follows {trail : List Byte} {c : Byte} (follows : Follows trail c) (tail : List Byte) :
    colonValue (trail ++ c :: tail) = none := by
  have other : c ≠ ascii ':' := by rcases follows.stop with rfl | rfl | rfl <;> decide
  rw [colonValue, follows.skip tail]
  exact if_neg other

theorem scans_name (unquoted : Unquoted key) {name : Name} (name_wf : name.Wf) {tree : Tree} (tree_wf : tree.Wf)
    {trail : List Byte} {c : Byte} (follows : Follows trail c) (inObject : c ≠ ascii ']') (tail : List Byte) :
    Scans key (scanKeys key outside (name.put (tree.put (trail ++ c :: tail))))
      (scanKeys key outside (tree.put (trail ++ c :: tail))) [(name.raw, tree)] := by
  have value : colonValue (name.before ++ ascii ':' :: (name.after ++ tree.put (trail ++ c :: tail))) =
      some (tree.put (trail ++ c :: tail)) := by
    rw [colonValue, skipWs_blank name_wf.before, skipWs_solid (by decide)]
    dsimp only
    rw [if_pos rfl, skipWs_blank name_wf.after, Tree.skipWs_put tree_wf]
  have behind : scanKeys key outside (name.before ++ ascii ':' :: (name.after ++ tree.put (trail ++ c :: tail))) =
      scanKeys key outside (tree.put (trail ++ c :: tail)) := by
    have colon (text : List Byte) : scanKeys key outside (ascii ':' :: text) = scanKeys key outside text :=
      scanKeys_plain (List.forall_mem_singleton.mpr (show ascii ':' ≠ ascii '"' by decide)) text
    rw [scanKeys_plain (plain_ws name_wf.before)]
    exact (colon _).trans (scanKeys_plain (plain_ws name_wf.after) _)
  rw [Name.put, scanKeys_quoted unquoted name_wf.raw, value, behind, Scans, List.lookup_cons, List.lookup_nil]
  by_cases here : name.raw = key
  · obtain ⟨d, later, split, ends⟩ := follows.ends inObject tail
    rw [if_pos here, here, beq_self_eq_true, Option.some_or]
    exact ⟨tree_wf, d, later, congrArg (fun text => some (tree.put text)) split, ends⟩
  · have other : (key == name.raw) = false := beq_false_of_ne (Ne.symm here)
    rw [if_neg here, other, Option.none_or]

theorem scanKeys_bracket (object : Bool) (text : List Byte) :
    scanKeys key outside (opener object :: text) = scanKeys key outside text ∧
      scanKeys key outside (closer object :: text) = scanKeys key outside text := by
  constructor
  · exact scanKeys_plain (List.forall_mem_singleton.mpr (by cases object <;> decide)) text
  · exact scanKeys_plain (List.forall_mem_singleton.mpr (by cases object <;> decide)) text

mutual
theorem Tree.scans (unquoted : Unquoted key) {tree : Tree} (wf : tree.Wf) {rest : List Byte} (plain : colonValue rest = none) :
    Scans key (scanKeys key outside (tree.put rest)) (scanKeys key outside rest) tree.members := by
  cases tree with
  | str raw =>
    rw [Tree.put, scanKeys_quoted unquoted wf, plain, ite_self, Option.none_or]
    rfl
  | bare chars => exact scanKeys_plain (fun c member => (dull_bare (wf.2 c member)).quote) rest
  | nest object pad parts =>
    have inner := Parts.scans unquoted true wf.2 rest
    rw [(scanKeys_bracket object rest).2] at inner
    rw [Tree.put, (scanKeys_bracket object _).1, scanKeys_plain (plain_ws wf.1)]
    exact inner
theorem Parts.scans (unquoted : Unquoted key) {parts : Parts} (first : Bool) {object : Bool}
    (wf : parts.Wf object) (tail : List Byte) :
    Scans key (scanKeys key outside (parts.put first (closer object :: tail)))
      (scanKeys key outside (closer object :: tail)) parts.members := by
  cases parts with
  | nil => rfl
  | cons lead name tree trail rest =>
    obtain ⟨lead_blank, named, name_wf, tree_wf, trail_blank, rest_wf⟩ := wf
    obtain ⟨c, behind, same, either⟩ := rest.put_behind object tail
    have follows := follows_behind trail_blank either
    have comma_plain : ∀ d ∈ comma first, d ≠ ascii '"' := by cases first <;> decide
    have later := Parts.scans unquoted false rest_wf tail
    have value : Scans key (scanKeys key outside (tree.put (trail ++ rest.put false (closer object :: tail))))
        (scanKeys key outside (closer object :: tail)) (tree.members ++ rest.members) := by
      rw [same] at later ⊢
      have inner := Tree.scans unquoted tree_wf (colonValue_follows follows behind)
      rw [scanKeys_plain (plain_ws trail_blank)] at inner
      exact inner.append later
    rw [Parts.put, scanKeys_plain comma_plain, scanKeys_plain (plain_ws lead_blank), Parts.members]
    cases name with
    | none => exact value
    | some name =>
      obtain rfl : object = true := named.symm
      have inObject : c ≠ ascii ']' := by rcases either with rfl | rfl <;> decide
      rw [putName]
      rw [same] at value ⊢
      exact (scans_name unquoted (name_wf name rfl) tree_wf follows inObject behind).append value
end

end search

theorem findKey_text (document : Document) {key : List Byte} (unquoted : Unquoted key)
    (short : key.length ≤ 61) (straight : strays key outside document.text = false) :
    Found (findKey document.text key) (document.parts.members.lookup key) := by
  have tree : (Tree.nest true document.pad document.parts).Wf := ⟨document.pad_blank, document.parts_wf⟩
  have plain : colonValue document.trail = none := by
    have skipped : skipWs document.trail = [] := by
      rw [← List.append_nil document.trail, skipWs_blank document.trail_blank]
      rfl
    rw [colonValue, skipped]
  have all := Tree.scans unquoted tree plain
  have rest : scanKeys key outside document.trail = none := by
    rw [← List.append_nil document.trail, scanKeys_plain (plain_ws document.trail_blank)]
    rfl
  have fits : ¬64 ≤ (needle key).length := by
    rw [needle, List.length_append, List.length_cons, List.length_singleton]
    omega
  have search : findKey document.text key =
      scanKeys key outside ((Tree.nest true document.pad document.parts).put document.trail) := by
    rw [← scanKeys_plain (plain_ws document.lead_blank), ← Document.text, ← findNeedle_scanKeys straight]
    exact if_neg fits
  rw [search]
  rw [rest] at all
  unfold Scans at all
  rw [Tree.members] at all
  cases found : document.parts.members.lookup key with
  | none =>
    rw [found] at all
    exact all
  | some value =>
    rw [found] at all
    exact all

theorem bpJsonGet_eq_bind (json key : List Byte) (outLen : Nat) :
    bpJsonGet json key outLen = (findKey json key).bind fun p => copyValue p outLen := by
  rw [bpJsonGet]
  cases findKey json key with
  | none => rfl
  | some p => cases p <;> rfl

/-- An object with one member and no white space. -/
def single (raw : List Byte) (named : Raw raw) (tree : Tree) (wf : tree.Wf) : Document where
  lead := []
  pad := []
  parts := .cons [] (some ⟨raw, [], []⟩) tree [] .nil
  trail := []
  lead_blank := nofun
  pad_blank := nofun
  parts_wf := by
    refine ⟨nofun, rfl, ?_, wf, nofun, trivial⟩
    rintro name ⟨⟩
    exact ⟨named, nofun, nofun⟩
  trail_blank := nofun

theorem raw_plain {text : List Byte} (fine : ∀ c ∈ text, plain c) : Raw text := by
  induction text with
  | nil => exact .nil
  | cons c text ih =>
    obtain ⟨here, later⟩ := List.forall_mem_cons.mp fine
    exact .char here (ih later)

/-- The number under the name "a". -/
def numbered : Document := single (cstr "a") (raw_plain (by decide)) (.bare (cstr "1")) ⟨by decide, by decide⟩

/-- A number under a name of 62 characters. -/
def longNamed : Document :=
  single (List.replicate 62 (ascii 'k')) (raw_plain (by decide)) (.bare (cstr "1")) ⟨by decide, by decide⟩

/-- A number under a name with a quote in it. -/
def quoteNamed : Document :=
  single (cstr "x\\\"key") (.char (by decide) (.escape (by decide) (raw_plain (by decide)))) (.bare (cstr "1"))
    ⟨by decide, by decide⟩

end BenchPod.Json
