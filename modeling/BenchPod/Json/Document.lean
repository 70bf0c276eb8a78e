import BenchPod.Json.Top

/-!
# JSON texts

A JSON text as the tree of its values, with the white space and the raw characters of its strings and
numbers kept, so that the tree says every byte of the text.  The characters of numbers and of escapes are
not checked further than a reader needs to find the end of a value.
-/

namespace BenchPod.Json

/-- The characters between the quotes of a string: plain ones and escaped ones. -/
inductive Raw : List Byte → Prop
  | nil : Raw []
  | char {c : Byte} {text : List Byte} (fine : plain c) : Raw text → Raw (c :: text)
  | escape {c : Byte} {text : List Byte} (fine : c ≠ 0) : Raw text → Raw (ascii '\\' :: c :: text)

/-- White space. -/
def Blank (pad : List Byte) : Prop := ∀ c ∈ pad, isWs c

/-- A character of a number or a literal. -/
def bareChar (c : Byte) : Bool :=
  plain c && !endsBare c && c != ascii ':' && c != ascii '[' && c != ascii ']' && c != ascii '\x7b'

/-- A member's name with the white space around its colon. -/
structure Name where
  raw : List Byte
  before : List Byte
  after : List Byte

/-- The name in front of some text. -/
def Name.put (name : Name) (text : List Byte) : List Byte :=
  ascii '"' :: (name.raw ++ ascii '"' :: (name.before ++ ascii ':' :: (name.after ++ text)))

structure Name.Wf (name : Name) : Prop where
  raw : Raw name.raw
  before : Blank name.before
  after : Blank name.after

mutual
/-- A value. -/
inductive Tree
  | str (raw : List Byte)
  | bare (text : List Byte)
  | nest (object : Bool) (pad : List Byte) (parts : Parts)
/-- What is in an object or an array; only the members of an object have names. -/
inductive Parts
  | nil
  | cons (lead : List Byte) (name : Option Name) (tree : Tree) (trail : List Byte) (rest : Parts)
end

/-- The bracket that opens an object or an array. -/
def opener (object : Bool) : Byte := if object then ascii '\x7b' else ascii '['

/-- The bracket that closes it. -/
def closer (object : Bool) : Byte := if object then ascii '\x7d' else ascii ']'

/-- The comma in front of all parts but the first. -/
def comma (first : Bool) : List Byte := if first then [] else [ascii ',']

/-- The name, where there is one. -/
def putName (name : Option Name) (text : List Byte) : List Byte :=
  match name with
  | none => text
  | some name => name.put text

mutual
/-- The value in front of some text. -/
def Tree.put : Tree → List Byte → List Byte
  | .str raw, text => ascii '"' :: (raw ++ ascii '"' :: text)
  | .bare chars, text => chars ++ text
  | .nest object pad parts, text => opener object :: (pad ++ parts.put true (closer object :: text))
/-- The parts in front of some text. -/
def Parts.put : Parts → Bool → List Byte → List Byte
  | .nil, _, text => text
  | .cons lead name tree trail rest, first, text =>
    comma first ++ (lead ++ putName name (tree.put (trail ++ rest.put false text)))
end

mutual
/-- A value as JSON has it. -/
def Tree.Wf : Tree → Prop
  | .str raw => Raw raw
  | .bare text => text ≠ [] ∧ ∀ c ∈ text, bareChar c
  | .nest object pad parts => Blank pad ∧ parts.Wf object
/-- Parts as JSON has them in an object or an array. -/
def Parts.Wf : Parts → Bool → Prop
  | .nil, _ => True
  | .cons lead name tree trail rest, object =>
    Blank lead ∧ name.isSome = object ∧ (∀ found ∈ name, found.Wf) ∧ tree.Wf ∧ Blank trail ∧ rest.Wf object
end

mutual
/-- The members at any depth, in the order of the text. -/
def Tree.members : Tree → List (List Byte × Tree)
  | .str _ => []
  | .bare _ => []
  | .nest _ _ parts => parts.members
/-- The members at any depth, in the order of the text. -/
def Parts.members : Parts → List (List Byte × Tree)
  | .nil => []
  | .cons _ name tree _ rest => (name.map fun name => (name.raw, tree)).toList ++ (tree.members ++ rest.members)
end

/-- The members of the object itself. -/
def Parts.fields : Parts → List (List Byte × Tree)
  | .nil => []
  | .cons _ name tree _ rest => (name.map fun name => (name.raw, tree)).toList ++ rest.fields

/-- An object with white space around it. -/
structure Document where
  lead : List Byte
  pad : List Byte
  parts : Parts
  trail : List Byte
  lead_blank : Blank lead
  pad_blank : Blank pad
  parts_wf : parts.Wf true
  trail_blank : Blank trail

/-- The text of an object. -/
def Document.text (document : Document) : List Byte :=
  document.lead ++ (Tree.nest true document.pad document.parts).put document.trail

/-! ## What a value begins with and what follows it -/

theorem plain_parts {c : Byte} (fine : plain c) : c ≠ ascii '"' ∧ c ≠ ascii '\\' ∧ c ≠ 0 := by
  simpa [plain] using fine

/-- A character of a number is none of those that stand for something. -/
structure BareChar (c : Byte) : Prop where
  quote : c ≠ ascii '"'
  backslash : c ≠ ascii '\\'
  ends : endsBare c = false
  colon : c ≠ ascii ':'
  openArray : c ≠ ascii '['
  closeArray : c ≠ ascii ']'
  openObject : c ≠ ascii '\x7b'

theorem bareChar_parts {c : Byte} (fine : bareChar c) : BareChar c := by
  simp only [bareChar, Bool.and_eq_true, bne_iff_ne, Bool.not_eq_true'] at fine
  obtain ⟨⟨⟨⟨⟨same, ends⟩, colon⟩, openArray⟩, closeArray⟩, openObject⟩ := fine
  exact ⟨(plain_parts same).1, (plain_parts same).2.1, ends, colon, openArray, closeArray, openObject⟩

theorem endsBare_parts {c : Byte} (fine : endsBare c = false) : c ≠ ascii ',' ∧ c ≠ ascii '\x7d' ∧ isWs c = false := by
  simpa [endsBare, and_assoc] using fine

theorem skipWs_blank {pad : List Byte} (blank : Blank pad) (text : List Byte) : skipWs (pad ++ text) = skipWs text := by
  induction pad with
  | nil => rfl
  | cons c pad ih =>
    obtain ⟨here, later⟩ := List.forall_mem_cons.mp blank
    rw [List.cons_append, skipWs, List.dropWhile_cons_of_pos here]
    exact ih later

theorem Tree.put_head {tree : Tree} (wf : tree.Wf) (text : List Byte) :
    ∃ c rest, tree.put text = c :: rest ∧ isWs c = false := by
  cases tree with
  | str raw => exact ⟨_, _, rfl, by decide⟩
  | bare chars =>
    obtain ⟨some, fine⟩ := wf
    obtain ⟨c, chars, rfl⟩ := List.exists_cons_of_ne_nil some
    exact ⟨c, chars ++ text, rfl, (endsBare_parts (bareChar_parts (fine c List.mem_cons_self)).ends).2.2⟩
  | nest object pad parts => exact ⟨_, _, rfl, by cases object <;> decide⟩

theorem Tree.skipWs_put {tree : Tree} (wf : tree.Wf) (text : List Byte) : skipWs (tree.put text) = tree.put text := by
  obtain ⟨c, rest, same, solid⟩ := Tree.put_head wf text
  rw [same, skipWs_solid solid]

mutual
theorem Tree.put_append (tree : Tree) (text : List Byte) : tree.put text = tree.put [] ++ text := by
  cases tree with
  | str raw => simp [Tree.put]
  | bare chars => simp [Tree.put]
  | nest object pad parts =>
    rw [Tree.put, Tree.put, Parts.put_append parts true (closer object :: text),
      Parts.put_append parts true [closer object]]
    simp
theorem Parts.put_append (parts : Parts) (first : Bool) (text : List Byte) :
    parts.put first text = parts.put first [] ++ text := by
  cases parts with
  | nil => rfl
  | cons lead name tree trail rest =>
    rw [Parts.put, Parts.put, Tree.put_append tree, Tree.put_append tree (trail ++ rest.put false []),
      Parts.put_append rest false text]
    cases name <;> simp [putName, Name.put]
end

end BenchPod.Json
