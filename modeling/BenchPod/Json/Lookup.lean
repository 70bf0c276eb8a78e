import BenchPod.Json.Nesting
import Mathlib.Data.List.DropRight

/-!
# The members of the outermost object

`find_key_top` walks the members and skips their values; what it finds is the first member whose name is
written as the key.
-/

namespace BenchPod.Json

/-- The copy of `json_object_at` from the value that was found. -/
def objectAt (found : Option (List Byte)) (cap : Nat) : Option (List Byte) :=
  match found with
  | some (c :: rest) =>
    if c = ascii '\x7b' then objectScan (cap - 1) 0 false false (c :: rest) else none
  | _ => none

/-- `bp_json_object_top` with a buffer of `cap` bytes. -/
def bpJsonObjectTop (json key : List Byte) (cap : Nat) : Option (List Byte) := objectAt (findKeyTop json key) cap

/-! ## The bracket counters -/

theorem skipNested_step {state : Nest} {c : Byte} (going : ¬state.Done true c) (rest : List Byte) :
    skipNested state.depth state.lexed.1 state.lexed.2 (c :: rest) =
      skipNested (state.next true c).depth (state.next true c).lexed.1 (state.next true c).lexed.2 rest := by
  obtain ⟨depth, inStr, _ | _⟩ := state
  · cases inStr with
    | true =>
      rw [skipNested, if_neg Bool.false_ne_true, if_pos rfl]
      by_cases escape : c = ascii '\\'
      · subst escape
        rfl
      · simp [Nest.next, lexNext, escape]
    | false =>
      rw [skipNested, if_neg Bool.false_ne_true, if_neg Bool.false_ne_true]
      by_cases quote : c = ascii '"'
      · subst quote
        rfl
      · by_cases opens : opensNest true c
        · have bracket : c = ascii '\x7b' ∨ c = ascii '[' := opens.imp id And.right
          simp [Nest.next, lexNext, quote, opens, if_pos bracket]
        · have bracket : ¬(c = ascii '\x7b' ∨ c = ascii '[') := fun either =>
            opens (either.imp id fun same => ⟨rfl, same⟩)
          by_cases closes : closesNest true c
          · have other : c = ascii '\x7d' ∨ c = ascii ']' := closes.imp id And.right
            have deep : depth ≠ 1 := fun one => going ⟨rfl, closes, one⟩
            simp [Nest.next, lexNext, quote, opens, closes, if_neg bracket, if_pos other, deep]
          · have other : ¬(c = ascii '\x7d' ∨ c = ascii ']') := fun either =>
              closes (either.imp id fun same => ⟨rfl, same⟩)
            simp [Nest.next, lexNext, quote, opens, closes, if_neg bracket, if_neg other]
  · rw [skipNested, if_pos rfl]
    cases inStr <;> rfl

theorem skipNested_passes {state last : Nest} {text : List Byte} (passes : state.Passes true text last)
    (rest : List Byte) :
    skipNested state.depth state.lexed.1 state.lexed.2 (text ++ rest) =
      skipNested last.depth last.lexed.1 last.lexed.2 rest := by
  induction text generalizing state with
  | nil =>
    obtain rfl : state = last := passes
    rfl
  | cons c text ih => rw [List.cons_append, skipNested_step passes.1, ih passes.2]

theorem objectScan_step {state : Nest} {c : Byte} (going : ¬state.Done false c) (left : Nat) (rest : List Byte) :
    objectScan (left + 1) state.depth state.lexed.1 state.lexed.2 (c :: rest) =
      (objectScan left (state.next false c).depth (state.next false c).lexed.1 (state.next false c).lexed.2
        rest).map (c :: ·) := by
  obtain ⟨depth, inStr, _ | _⟩ := state
  · cases inStr with
    | true =>
      rw [objectScan, if_neg Bool.false_ne_true, if_pos rfl]
      by_cases escape : c = ascii '\\'
      · subst escape
        rfl
      · simp [Nest.next, lexNext, escape]
    | false =>
      rw [objectScan, if_neg Bool.false_ne_true, if_neg Bool.false_ne_true]
      by_cases quote : c = ascii '"'
      · subst quote
        rfl
      · have opens : opensNest false c ↔ c = ascii '\x7b' := by simp [opensNest]
        have closes : closesNest false c ↔ c = ascii '\x7d' := by simp [closesNest]
        by_cases opening : c = ascii '\x7b'
        · subst opening
          rfl
        · by_cases closing : c = ascii '\x7d'
          · have deep : depth ≠ 1 := fun one => going ⟨rfl, closes.mpr closing, one⟩
            subst closing
            rw [if_neg quote, if_neg opening, if_pos rfl, if_neg deep]
            rfl
          · simp [Nest.next, lexNext, quote, opens, closes, opening, closing]
  · rw [objectScan, if_pos rfl]
    cases inStr <;> rfl

theorem objectScan_passes {state last : Nest} {text : List Byte} (passes : state.Passes false text last)
    (left : Nat) (rest : List Byte) :
    objectScan left state.depth state.lexed.1 state.lexed.2 (text ++ rest) =
      if left < text.length then none
      else (objectScan (left - text.length) last.depth last.lexed.1 last.lexed.2 rest).map (text ++ ·) := by
  induction text generalizing state left with
  | nil =>
    obtain rfl : state = last := passes
    simp
  | cons c text ih =>
    cases left with
    | zero => rfl
    | succ left =>
      rw [List.cons_append, objectScan_step passes.1, ih passes.2, List.length_cons, Nat.add_sub_add_right]
      by_cases short : left < text.length
      · rw [if_pos short, if_pos (Nat.succ_lt_succ short), Option.map_none]
      · rw [if_neg short, if_neg fun longer => short (Nat.lt_of_succ_lt_succ longer), Option.map_map]
        rfl

/-! ## Skipping a value -/

theorem skipNested_nest {object : Bool} {pad : List Byte} {parts : Parts} (blank : Blank pad)
    (wf : parts.Wf object) (rest : List Byte) :
    skipNested 0 false false ((Tree.nest object pad parts).put rest) = some rest := by
  have opens : skipNested 0 false false ((Tree.nest object pad parts).put rest) =
      skipNested 1 false false (pad ++ parts.put true (closer object :: rest)) := by
    cases object <;> rfl
  have inner : Nest.Passes true ⟨0 + 1, outside⟩ (pad ++ parts.put true []) ⟨0 + 1, outside⟩ :=
    (passes_blank blank).append (Parts.passes true wf)
  have closes : skipNested 1 false false (closer object :: rest) = some rest := by cases object <;> rfl
  rw [opens, Parts.put_append, ← List.append_assoc]
  exact (skipNested_passes inner _).trans closes

/-- What follows a value: white space, and a comma or a closing bracket. -/
structure Follows (trail : List Byte) (c : Byte) : Prop where
  blank : Blank trail
  stop : c = ascii ',' ∨ c = ascii '\x7d' ∨ c = ascii ']'

theorem Follows.solid {trail : List Byte} {c : Byte} (follows : Follows trail c) : isWs c = false := by
  rcases follows.stop with rfl | rfl | rfl <;> decide

theorem Follows.skip {trail : List Byte} {c : Byte} (follows : Follows trail c) (tail : List Byte) :
    skipWs (trail ++ c :: tail) = c :: tail := by
  rw [skipWs_blank follows.blank, skipWs_solid follows.solid]

theorem skipValue_put {tree : Tree} (wf : tree.Wf) {trail : List Byte} {c : Byte} (follows : Follows trail c)
    (tail : List Byte) :
    ∃ rest, skipValue (tree.put (trail ++ c :: tail)) = some rest ∧ skipWs rest = c :: tail := by
  cases tree with
  | str raw =>
    refine ⟨trail ++ c :: tail, ?_, follows.skip tail⟩
    rw [Tree.put, skipValue, if_pos rfl, quoted_raw wf, Option.map_some]
  | bare chars =>
    obtain ⟨some, fine⟩ := wf
    have pass (d : Byte) (member : d ∈ chars ++ trail) : d ≠ ascii ',' ∧ d ≠ ascii '\x7d' ∧ d ≠ ascii ']' := by
      rcases List.mem_append.mp member with inside | behind
      · have parts := bareChar_parts (fine d inside)
        exact ⟨(endsBare_parts parts.ends).1, (endsBare_parts parts.ends).2.1, parts.closeArray⟩
      · have blank := follows.blank d behind
        refine ⟨?_, ?_, ?_⟩ <;> rintro rfl <;> exact absurd blank (by decide)
    have stop : ¬(c ≠ ascii ',' ∧ c ≠ ascii '\x7d' ∧ c ≠ ascii ']') := by
      rintro ⟨comma, brace, bracket⟩
      exact follows.stop.elim comma (Or.elim · brace bracket)
    refine ⟨c :: tail, ?_, ?_⟩
    · have skipped : ((chars ++ trail) ++ c :: tail).dropWhile
          (fun d => d ≠ ascii ',' ∧ d ≠ ascii '\x7d' ∧ d ≠ ascii ']') = c :: tail := by
        rw [List.dropWhile_append_of_pos fun d member => decide_eq_true (pass d member),
          List.dropWhile_cons_of_neg (by simpa using stop)]
      obtain ⟨d, chars, rfl⟩ := List.exists_cons_of_ne_nil some
      have parts := bareChar_parts (fine d List.mem_cons_self)
      have bracket : ¬(d = ascii '\x7b' ∨ d = ascii '[') := fun either => either.elim parts.openObject parts.openArray
      rw [Tree.put, ← List.append_assoc]
      rw [List.cons_append, List.cons_append, skipValue, if_neg parts.quote, if_neg bracket]
      exact congrArg Option.some skipped
    · exact skipWs_solid follows.solid tail
  | nest object pad parts =>
    refine ⟨trail ++ c :: tail, ?_, follows.skip tail⟩
    rw [← skipNested_nest wf.1 wf.2 (trail ++ c :: tail), Tree.put, skipValue]
    cases object <;> rfl

/-! ## Walking the members -/

/-- What a search comes back with: nothing, or the text from a value on. -/
def Found (search : Option (List Byte)) : Option Tree → Prop
  | none => search = none
  | some tree => tree.Wf ∧ ∃ c tail, search = some (tree.put (c :: tail)) ∧ endsBare c

theorem Follows.ends {trail : List Byte} {c : Byte} (follows : Follows trail c) (inObject : c ≠ ascii ']')
    (tail : List Byte) : ∃ d rest, trail ++ c :: tail = d :: rest ∧ endsBare d := by
  cases trail with
  | nil =>
    refine ⟨c, tail, rfl, ?_⟩
    rcases follows.stop with rfl | rfl | same
    · decide
    · decide
    · exact absurd same inObject
  | cons d trail =>
    have blank := follows.blank d List.mem_cons_self
    exact ⟨d, trail ++ c :: tail, rfl, by simp [endsBare, blank]⟩

theorem findMember_skipWs (key : List Byte) (n : Nat) (text : List Byte) :
    findMember key n (skipWs text) = findMember key n text := by
  cases n with
  | zero => rfl
  | succ n =>
    have twice : skipWs (skipWs text) = skipWs text := List.dropWhile_idempotent isWs text
    rw [findMember, findMember, twice]

theorem findMember_blank (key : List Byte) (n : Nat) {pad : List Byte} (blank : Blank pad) (text : List Byte) :
    findMember key n (pad ++ text) = findMember key n text := by
  rw [← findMember_skipWs, skipWs_blank blank, findMember_skipWs]

theorem findMember_name (key : List Byte) (n : Nat) {name : Name} (name_wf : name.Wf) {tree : Tree}
    (tree_wf : tree.Wf) {trail : List Byte} {c : Byte} (follows : Follows trail c) (tail : List Byte) :
    findMember key (n + 1) (name.put (tree.put (trail ++ c :: tail))) =
      if name.raw = key then some (tree.put (trail ++ c :: tail)) else findMember key n (c :: tail) := by
  obtain ⟨rest, skipped, same⟩ := skipValue_put tree_wf follows tail
  have colon (text : List Byte) : skipWs (name.before ++ ascii ':' :: text) = ascii ':' :: text := by
    rw [skipWs_blank name_wf.before, skipWs_solid (by decide)]
  have value : skipWs (name.after ++ tree.put (trail ++ c :: tail)) = tree.put (trail ++ c :: tail) := by
    rw [skipWs_blank name_wf.after, Tree.skipWs_put tree_wf]
  rw [Name.put, findMember, skipWs_solid (by decide)]
  dsimp only
  rw [if_neg (by decide), if_pos rfl, quoted_raw name_wf.raw]
  dsimp only
  rw [colon]
  dsimp only
  rw [if_neg (fun other => other rfl), value, skipped]
  dsimp only
  rw [← findMember_skipWs key n rest, same]

theorem Parts.put_behind (rest : Parts) (object : Bool) (tail : List Byte) :
    ∃ c behind, rest.put false (closer object :: tail) = c :: behind ∧ (c = ascii ',' ∨ c = closer object) := by
  cases rest with
  | nil => exact ⟨_, tail, rfl, .inr rfl⟩
  | cons lead name tree trail rest => exact ⟨_, _, rfl, .inl rfl⟩

theorem follows_behind {trail : List Byte} (blank : Blank trail) {c : Byte} {object : Bool}
    (either : c = ascii ',' ∨ c = closer object) : Follows trail c := by
  refine ⟨blank, either.imp id fun same => ?_⟩
  cases object with
  | true => exact .inl same
  | false => exact .inr same

theorem Tree.length_put (tree : Tree) (text : List Byte) : text.length ≤ (tree.put text).length := by
  rw [Tree.put_append, List.length_append]
  exact Nat.le_add_left ..

/-- The members are walked one after the other. -/
theorem findMember_parts (key : List Byte) (parts : Parts) (wf : parts.Wf true) (first : Bool) (tail : List Byte)
    {n : Nat} (enough : (parts.put first (closer true :: tail)).length ≤ n) :
    Found (findMember key n (parts.put first (closer true :: tail))) (parts.fields.lookup key) := by
  cases parts with
  | nil =>
    cases n with
    | zero => cases enough
    | succ n =>
      rw [Parts.put, findMember, skipWs_solid (by decide)]
      rfl
  | cons lead name tree trail rest =>
    obtain ⟨lead_blank, named, name_wf, tree_wf, trail_blank, rest_wf⟩ := wf
    obtain ⟨name, rfl⟩ := Option.isSome_iff_exists.mp named
    obtain ⟨c, behind, same, either⟩ := rest.put_behind true tail
    have follows := follows_behind trail_blank either
    have inObject : c ≠ ascii ']' := by rcases either with rfl | rfl <;> decide
    rw [Parts.put, putName, same] at enough ⊢
    have shorter : (c :: behind).length + 1 + (comma first).length ≤ n := by
      have inner := Tree.length_put tree (trail ++ c :: behind)
      simp only [List.length_append, Name.put, List.length_cons] at enough inner ⊢
      omega
    obtain ⟨n, rfl⟩ : ∃ m, n = m + 1 + (comma first).length := ⟨n - 1 - (comma first).length, by omega⟩
    have start : findMember key (n + 1 + (comma first).length)
        (comma first ++ (lead ++ name.put (tree.put (trail ++ c :: behind)))) =
          findMember key (n + 1) (name.put (tree.put (trail ++ c :: behind))) := by
      cases first with
      | true => exact findMember_blank key (n + 1) lead_blank _
      | false => exact (findMember_comma key (n + 1) _).trans (findMember_blank key (n + 1) lead_blank _)
    rw [start, findMember_name key n (name_wf name rfl) tree_wf follows, Parts.fields, Option.map_some,
      Option.toList_some, List.singleton_append]
    by_cases here : name.raw = key
    · obtain ⟨d, later, split, ends⟩ := follows.ends inObject behind
      rw [if_pos here, List.lookup_cons, here, beq_self_eq_true]
      exact ⟨tree_wf, d, later, congrArg (fun text => some (tree.put text)) split, ends⟩
    · have other : (key == name.raw) = false := beq_false_of_ne (Ne.symm here)
      rw [if_neg here, List.lookup_cons, other, ← same]
      exact findMember_parts key rest rest_wf false tail (by rw [same]; omega)

theorem findKeyTop_text (document : Document) (key : List Byte) :
    Found (findKeyTop document.text key) (document.parts.fields.lookup key) := by
  have found := findMember_parts key document.parts document.parts_wf true document.trail
    (show _ ≤ (document.pad ++ document.parts.put true (closer true :: document.trail)).length + 1 by
      rw [List.length_append]
      omega)
  rw [← findMember_blank key _ document.pad_blank] at found
  rw [Document.text, Tree.put, findKeyTop, skipWs_blank document.lead_blank, skipWs_solid (by decide)]
  exact found

/-! ## What is handed out of a value -/

theorem skipHex_length (left : Nat) (text : List Byte) : (skipHex left text).length ≤ text.length := by
  induction left generalizing text with
  | zero => exact Nat.le_refl _
  | succ left ih =>
    cases text with
    | nil => exact Nat.le_refl _
    | cons c rest =>
      rw [skipHex]
      split
      · exact Nat.le_succ_of_le (ih rest)
      · exact Nat.le_refl _

theorem unescape_length (c : Byte) (rest : List Byte) : (unescape c rest).2.length ≤ rest.length := by
  unfold unescape
  split_ifs
  all_goals first | exact Nat.le_refl _ | exact skipHex_length 4 rest

/-- What a string's characters stand for; a numbered character is a question mark. -/
def decoded : List Byte → List Byte
  | [] => []
  | c :: rest =>
    if c = ascii '\\' then
      match rest with
      | [] => [c]
      | e :: rest => (unescape e rest).1 :: decoded (unescape e rest).2
    else c :: decoded rest
termination_by text => text.length
decreasing_by
  · have shorter := unescape_length e rest
    simp only [List.length_cons]
    omega
  · exact Nat.lt_succ_self _

/-- A value as it is handed out into a buffer: the characters of a string, or the text up to the first
comma, closing brace or blank, which has to be some. -/
def Tree.shown (outLen : Nat) : Tree → Option (List Byte)
  | .str raw => some ((decoded raw).take (outLen - 1))
  | tree =>
    if outLen < 2 then none else some (((tree.put []).takeWhile fun c => !endsBare c).take (outLen - 1))

theorem skipHex_raw {raw : List Byte} (fine : Raw raw) (left : Nat) (rest : List Byte) :
    Raw (skipHex left raw) ∧ skipHex left (raw ++ ascii '"' :: rest) = skipHex left raw ++ ascii '"' :: rest := by
  induction left generalizing raw with
  | zero => exact ⟨fine, rfl⟩
  | succ left ih =>
    cases fine with
    | nil => exact ⟨.nil, rfl⟩
    | char here later =>
      rename_i c text
      rw [List.cons_append, skipHex, skipHex]
      split
      · exact ih later
      · exact ⟨.char here later, rfl⟩
    | escape here later =>
      rename_i c text
      rw [List.cons_append, skipHex, skipHex, if_neg (by decide), if_neg (by decide)]
      exact ⟨.escape here later, rfl⟩

theorem unescape_raw {c : Byte} {raw : List Byte} (fine : Raw raw) (rest : List Byte) :
    Raw (unescape c raw).2 ∧ unescape c (raw ++ ascii '"' :: rest) =
      ((unescape c raw).1, (unescape c raw).2 ++ ascii '"' :: rest) := by
  obtain ⟨suffix, same⟩ := skipHex_raw fine 4 rest
  unfold unescape
  split_ifs
  all_goals first | exact ⟨fine, rfl⟩ | exact ⟨suffix, by rw [same]⟩

theorem copyString_raw {raw : List Byte} (fine : Raw raw) (left : Nat) (rest : List Byte) :
    copyString left (raw ++ ascii '"' :: rest) = (decoded raw).take left := by
  induction left generalizing raw with
  | zero => rw [copyString, List.take_zero]
  | succ left ih =>
    cases fine with
    | nil =>
      rw [List.nil_append, decoded, List.take_nil]
      unfold copyString
      rw [if_pos rfl]
    | char here later =>
      obtain ⟨quote, escape, -⟩ := plain_parts here
      rw [List.cons_append]
      unfold copyString decoded
      rw [if_neg quote, if_neg escape, ih later, if_neg escape, List.take_succ_cons]
    | escape here later =>
      rename_i c text
      obtain ⟨suffix, same⟩ := unescape_raw later rest
      rw [List.cons_append, List.cons_append]
      unfold copyString
      rw [if_neg (by decide), if_pos rfl]
      dsimp only
      rw [same, ih suffix, decoded, if_pos rfl, List.take_succ_cons]

theorem copyValue_shown {tree : Tree} (wf : tree.Wf) {c : Byte} (ends : endsBare c) (tail : List Byte)
    (outLen : Nat) : copyValue (tree.put (c :: tail)) outLen = tree.shown outLen := by
  have first (d : Byte) (rest : List Byte) (same : tree.put [] = d :: rest) (solid : endsBare d = false)
      (quote : d ≠ ascii '"') :
      copyValue (tree.put (c :: tail)) outLen =
        if outLen < 2 then none else some (((tree.put []).takeWhile fun c => !endsBare c).take (outLen - 1)) := by
    have stops : (tree.put (c :: tail)).takeWhile (fun c => !endsBare c) =
        (tree.put []).takeWhile fun c => !endsBare c := by
      rw [Tree.put_append, List.takeWhile_append, List.takeWhile_cons_of_neg (by simp [ends]), List.append_nil]
      split
      · rename_i whole
        exact ((List.takeWhile_prefix _).eq_of_length whole).symm
      · rfl
    have kept : ((tree.put []).takeWhile fun c => !endsBare c).take (outLen - 1) = [] ↔ outLen < 2 := by
      rw [same, List.takeWhile_cons_of_pos (by simp [solid]), List.take_eq_nil_iff]
      simp only [List.cons_ne_nil, or_false]
      omega
    have split : tree.put (c :: tail) = d :: (rest ++ c :: tail) := by
      rw [Tree.put_append, same]
      rfl
    rw [← stops] at kept ⊢
    rw [split] at kept ⊢
    rw [copyValue, if_neg quote]
    simp only [kept]
  cases tree with
  | str raw =>
    rw [Tree.put, copyValue, if_pos rfl, copyString_raw wf]
    rfl
  | bare chars =>
    obtain ⟨some, fine⟩ := wf
    obtain ⟨d, chars, rfl⟩ := List.exists_cons_of_ne_nil some
    have parts := bareChar_parts (fine d List.mem_cons_self)
    exact first d (chars ++ []) rfl parts.ends parts.quote
  | nest object pad parts => exact first _ _ rfl (by cases object <;> decide) (by cases object <;> decide)

/-- The object a value is, where there is room for it. -/
def Tree.object (cap : Nat) : Tree → Option (List Byte)
  | .nest true pad parts =>
    if ((Tree.nest true pad parts).put []).length < cap then some ((Tree.nest true pad parts).put []) else none
  | _ => none

theorem objectScan_nest {pad : List Byte} {parts : Parts} (blank : Blank pad) (wf : parts.Wf true) (cap : Nat)
    (rest : List Byte) :
    objectScan (cap - 1) 0 false false ((Tree.nest true pad parts).put rest) = (Tree.nest true pad parts).object cap := by
  have inner : Nest.Passes false ⟨0 + 1, outside⟩ (pad ++ parts.put true []) ⟨0 + 1, outside⟩ :=
    (passes_blank blank).append (Parts.passes true wf)
  have whole : (Tree.nest true pad parts).put [] = opener true :: ((pad ++ parts.put true []) ++ [closer true]) := by
    rw [Tree.put, Parts.put_append, List.append_assoc]
  have length : ((Tree.nest true pad parts).put []).length = (pad ++ parts.put true []).length + 2 := by
    rw [whole, List.length_cons, List.length_append]
    rfl
  have split : (Tree.nest true pad parts).put rest =
      opener true :: ((pad ++ parts.put true []) ++ closer true :: rest) := by
    rw [Tree.put, Parts.put_append, List.append_assoc]
  have scanned (left : Nat) : objectScan left 1 false false
      ((pad ++ parts.put true []) ++ closer true :: rest) = _ := objectScan_passes inner left _
  rw [split, Tree.object, length, whole]
  obtain none | ⟨left, left_eq⟩ : cap - 1 = 0 ∨ ∃ left, cap - 1 = left + 1 := by
    cases cap - 1 with
    | zero => exact .inl rfl
    | succ left => exact .inr ⟨left, rfl⟩
  · rw [none, if_neg (by omega)]
    rfl
  · have opens : objectScan (cap - 1) 0 false false (opener true :: ((pad ++ parts.put true []) ++ closer true :: rest)) =
          (objectScan left 1 false false ((pad ++ parts.put true []) ++ closer true :: rest)).map (opener true :: ·) := by
      rw [left_eq]
      rfl
    rw [opens, scanned]
    by_cases short : left < (pad ++ parts.put true []).length
    · rw [if_pos short, if_neg (by omega)]
      rfl
    · rw [if_neg short]
      obtain full | ⟨more, more_eq⟩ : left - (pad ++ parts.put true []).length = 0 ∨
          ∃ more, left - (pad ++ parts.put true []).length = more + 1 := by
        cases left - (pad ++ parts.put true []).length with
        | zero => exact .inl rfl
        | succ more => exact .inr ⟨more, rfl⟩
      · rw [full, if_neg (by omega)]
        rfl
      · rw [more_eq, if_pos (by omega)]
        rfl

theorem Found.shown {search : Option (List Byte)} {value : Option Tree} (found : Found search value)
    (outLen : Nat) : (search.bind fun p => copyValue p outLen) = value.bind (Tree.shown outLen) := by
  cases value with
  | none =>
    obtain rfl : search = none := found
    rfl
  | some tree =>
    obtain ⟨wf, c, tail, rfl, ends⟩ := found
    exact copyValue_shown wf ends tail outLen

theorem Found.object {search : Option (List Byte)} {value : Option Tree} (found : Found search value)
    (cap : Nat) : objectAt search cap = value.bind (Tree.object cap) := by
  cases value with
  | none =>
    obtain rfl : search = none := found
    rfl
  | some tree =>
    obtain ⟨wf, c, tail, rfl, -⟩ := found
    cases tree with
    | str raw => rfl
    | bare chars =>
      obtain ⟨some, fine⟩ := wf
      obtain ⟨d, chars, rfl⟩ := List.exists_cons_of_ne_nil some
      exact if_neg (bareChar_parts (fine d List.mem_cons_self)).openObject
    | nest object pad parts =>
      cases object with
      | true => exact objectScan_nest wf.1 wf.2 cap (c :: tail)
      | false => rfl

end BenchPod.Json
