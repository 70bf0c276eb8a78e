import BenchPod.Json.Get

/-!
# The members of an object

The readers of `bp_json.c` that look only at the members of the outermost object, and the one that
scans a text that is no C string.  What they find in an object of plain members is what was put there.
-/

namespace BenchPod.Json

/-- A quoted string after its opening quote: its raw text, and what follows the closing quote. -/
def quoted : List Byte → Option (List Byte × List Byte)
  | [] => none
  | c :: rest =>
    if c = ascii '"' then some ([], rest)
    else if c = ascii '\\' then
      match rest with
      | [] => none
      | e :: rest => (quoted rest).map fun found => (c :: e :: found.1, found.2)
    else (quoted rest).map fun found => (c :: found.1, found.2)

/-- The scan of `skip_value` over an object or an array. -/
def skipNested : Nat → Bool → Bool → List Byte → Option (List Byte)
  | _, _, _, [] => none
  | depth, inStr, esc, c :: rest =>
    if esc then skipNested depth inStr false rest
    else if inStr then skipNested depth (c ≠ ascii '"') (c = ascii '\\') rest
    else if c = ascii '"' then skipNested depth true false rest
    else if c = ascii '\x7b' ∨ c = ascii '[' then skipNested (depth + 1) false false rest
    else if c = ascii '\x7d' ∨ c = ascii ']' then
      if depth = 1 then some rest else skipNested (depth - 1) false false rest
    else skipNested depth false false rest

def skipValue : List Byte → Option (List Byte)
  | [] => some []
  | c :: rest =>
    if c = ascii '"' then (quoted rest).map Prod.snd
    else if c = ascii '\x7b' ∨ c = ascii '[' then skipNested 0 false false (c :: rest)
    else some ((c :: rest).dropWhile fun c => c ≠ ascii ',' ∧ c ≠ ascii '\x7d' ∧ c ≠ ascii ']')

/-- The walk of `find_key_top`, for at most so many members and commas. -/
def findMember (key : List Byte) : Nat → List Byte → Option (List Byte)
  | 0, _ => none
  | n + 1, p =>
    match skipWs p with
    | [] => none
    | c :: rest =>
      if c = ascii ',' then findMember key n rest
      else if c = ascii '"' then
        match quoted rest with
        | none => none
        | some (name, after) =>
          match skipWs after with
          | [] => none
          | colon :: value =>
            if colon ≠ ascii ':' then none
            else if name = key then some (skipWs value)
            else
              match skipValue (skipWs value) with
              | none => none
              | some p => findMember key n p
      else none

def findKeyTop (json key : List Byte) : Option (List Byte) :=
  match skipWs json with
  | [] => none
  | c :: rest => if c = ascii '\x7b' then findMember key (rest.length + 1) rest else none

/-- The copy of `json_get_at2` into a buffer of `outLen` bytes. -/
def copyValue (p : List Byte) (outLen : Nat) : Option (List Byte) :=
  match p with
  | [] => none
  | c :: rest =>
    if c = ascii '"' then some (copyString (outLen - 1) rest)
    else
      let out := (p.takeWhile fun c => !endsBare c).take (outLen - 1)
      if out = [] then none else some out

def bpJsonGetTop (json key : List Byte) (outLen : Nat) : Option (List Byte) :=
  (findKeyTop json key).bind fun p => copyValue p outLen

def isBlank (c : Byte) : Bool := c == ascii ' ' || c == ascii '\t'

/-- What `bp_json_scan_str` does behind a quoted key. -/
def scanValue (text : List Byte) (cap : Nat) : Option (List Byte) :=
  match text.dropWhile isBlank with
  | [] => none
  | colon :: rest =>
    if colon ≠ ascii ':' then none
    else
      match rest.dropWhile isBlank with
      | [] => none
      | quote :: rest =>
        if quote ≠ ascii '"' then none
        else
          let value := (rest.takeWhile fun c => c ≠ ascii '"').take (cap - 1)
          if (rest.drop value.length).head? = some (ascii '"') then some value else none

def bpJsonScanStr (key : List Byte) (cap : Nat) : List Byte → Option (List Byte)
  | [] => none
  | c :: rest =>
    if rest.length + 1 ≤ key.length + 3 then none
    else if c = ascii '"' ∧ key.isPrefixOf rest ∧ (rest.drop key.length).head? = some (ascii '"') then
      (scanValue (rest.drop (key.length + 1)) cap).or (bpJsonScanStr key cap rest)
    else bpJsonScanStr key cap rest

/-! ## Plain members -/

/-- A character that needs no escape. -/
def plain (c : Byte) : Bool := c ≠ ascii '"' ∧ c ≠ ascii '\\' ∧ c ≠ 0

/-- A value that is no object: a string of plain characters, or a bare one. -/
inductive Value
  | str (text : List Byte)
  | bare (text : List Byte)
  deriving DecidableEq

/-- The value's characters. -/
def Value.text : Value → List Byte
  | .str text | .bare text => text

/-- The value as it is written. -/
def Value.written : Value → List Byte
  | .str text => ascii '"' :: text ++ [ascii '"']
  | .bare text => text

/-- A value that is read as it was written. -/
def Value.Fine : Value → Prop
  | .str text => ∀ c ∈ text, plain c
  | .bare text => text ≠ [] ∧ ∀ c ∈ text, plain c ∧ !endsBare c ∧ c ≠ ascii '[' ∧ c ≠ ascii ']' ∧ c ≠ ascii '\x7b'

instance (value : Value) : Decidable value.Fine :=
  match value with
  | .str text => inferInstanceAs (Decidable (∀ c ∈ text, plain c))
  | .bare text => inferInstanceAs (Decidable (text ≠ [] ∧ ∀ c ∈ text,
      plain c ∧ !endsBare c ∧ c ≠ ascii '[' ∧ c ≠ ascii ']' ∧ c ≠ ascii '\x7b'))

/-- The value is a string. -/
def Value.isStr : Value → Bool
  | .str _ => true
  | .bare _ => false

/-- A key and its value. -/
abbrev Member := List Byte × Value

def Member.written (member : Member) : List Byte := ascii '"' :: member.1 ++ [ascii '"', ascii ':'] ++ member.2.written

def Member.Fine (member : Member) : Prop := member.1 ≠ [] ∧ (∀ c ∈ member.1, plain c) ∧ member.2.Fine

instance (member : Member) : Decidable member.Fine :=
  inferInstanceAs (Decidable (member.1 ≠ [] ∧ (∀ c ∈ member.1, plain c) ∧ member.2.Fine))

/-- The members with commas between them, and the closing brace. -/
def writtenMembers : List Member → List Byte
  | [] => [ascii '\x7d']
  | [member] => member.written ++ [ascii '\x7d']
  | member :: members => member.written ++ ascii ',' :: writtenMembers members

theorem writtenMembers_cons (member next : Member) (members : List Member) :
    writtenMembers (member :: next :: members) = member.written ++ ascii ',' :: writtenMembers (next :: members) := rfl

/-- An object of these members. -/
def writtenObject (members : List Member) : List Byte := ascii '\x7b' :: writtenMembers members

theorem quoted_plain {text : List Byte} (fine : ∀ c ∈ text, plain c) (rest : List Byte) :
    quoted (text ++ ascii '"' :: rest) = some (text, rest) := by
  induction text with
  | nil =>
    rw [List.nil_append]
    unfold quoted
    rw [if_pos rfl]
  | cons c text ih =>
    obtain ⟨here, later⟩ := List.forall_mem_cons.mp fine
    obtain ⟨quote, escape, -⟩ : c ≠ ascii '"' ∧ c ≠ ascii '\\' ∧ c ≠ 0 := by simpa [plain] using here
    rw [List.cons_append]
    unfold quoted
    rw [if_neg quote, if_neg escape, ih later]
    rfl

theorem copyString_plain {text : List Byte} (fine : ∀ c ∈ text, plain c) {left : Nat}
    (fits : text.length ≤ left) (rest : List Byte) : copyString left (text ++ ascii '"' :: rest) = text := by
  induction text generalizing left with
  | nil => cases left <;> simp [copyString]
  | cons c text ih =>
    obtain ⟨here, later⟩ := List.forall_mem_cons.mp fine
    obtain ⟨quote, escape, -⟩ : c ≠ ascii '"' ∧ c ≠ ascii '\\' ∧ c ≠ 0 := by simpa [plain] using here
    cases left with
    | zero => cases fits
    | succ left =>
      rw [List.cons_append]
      unfold copyString
      rw [if_neg quote, if_neg escape, ih later (Nat.le_of_succ_le_succ fits)]

/-- What ends a value in an object: a comma or the closing brace. -/
def Ends (rest : List Byte) : Prop := ∃ c tail, rest = c :: tail ∧ (c = ascii ',' ∨ c = ascii '\x7d')

theorem skipWs_solid {c : Byte} (solid : isWs c = false) (rest : List Byte) : skipWs (c :: rest) = c :: rest :=
  List.dropWhile_cons_of_neg (by rw [solid]; exact Bool.false_ne_true)

theorem copyValue_fine {value : Value} (fine : value.Fine) {outLen : Nat} (fits : value.text.length < outLen)
    {rest : List Byte} (ends : Ends rest) : copyValue (value.written ++ rest) outLen = some value.text := by
  cases value with
  | str text =>
    have short : text.length ≤ outLen - 1 := Nat.le_sub_one_of_lt fits
    rw [Value.written, List.append_assoc, List.cons_append, copyValue, if_pos rfl]
    exact congrArg some (copyString_plain fine short rest)
  | bare text =>
    obtain ⟨some, fine⟩ := fine
    obtain ⟨stop, tail, rfl, stops⟩ := ends
    have all : (text ++ stop :: tail).takeWhile (fun c => !endsBare c) = text := by
      rw [List.takeWhile_append_of_pos fun c member => by simpa using (fine c member).2.1,
        List.takeWhile_cons_of_neg, List.append_nil]
      obtain rfl | rfl := stops <;> decide
    rcases text with _ | ⟨c, text⟩
    · exact absurd rfl some
    · have quote : c ≠ ascii '"' := by
        have here := (fine c (List.mem_cons_self ..)).1
        simp only [plain, decide_eq_true_eq] at here
        exact here.1
      have short : (c :: text).take (outLen - 1) = c :: text := List.take_of_length_le (Nat.le_sub_one_of_lt fits)
      rw [List.cons_append] at all
      rw [Value.written, List.cons_append, copyValue, if_neg quote, all]
      dsimp only
      rw [short, if_neg (List.cons_ne_nil _ _)]
      rfl

theorem skipValue_fine {value : Value} (fine : value.Fine) {rest : List Byte} (ends : Ends rest) :
    skipValue (value.written ++ rest) = some rest := by
  cases value with
  | str text =>
    rw [Value.written, List.append_assoc, List.cons_append, skipValue, if_pos rfl]
    exact congrArg (Option.map Prod.snd) (quoted_plain fine rest)
  | bare text =>
    obtain ⟨some, fine⟩ := fine
    obtain ⟨stop, tail, rfl, stops⟩ := ends
    have all : (text ++ stop :: tail).dropWhile
        (fun c => c ≠ ascii ',' ∧ c ≠ ascii '\x7d' ∧ c ≠ ascii ']') = stop :: tail := by
      rw [List.dropWhile_append_of_pos, List.dropWhile_cons_of_neg]
      · obtain rfl | rfl := stops <;> decide
      · intro c member
        obtain ⟨-, bare, -, close, -⟩ := fine c member
        simp only [endsBare, Bool.not_or, Bool.and_eq_true, Bool.not_eq_true', beq_eq_false_iff_ne] at bare
        simpa using ⟨bare.1.1, bare.1.2, close⟩
    rcases text with _ | ⟨c, text⟩
    · exact absurd rfl some
    · obtain ⟨here, -, open_, -, brace⟩ := fine c (List.mem_cons_self ..)
      have quote : c ≠ ascii '"' := by
        simp only [plain, decide_eq_true_eq] at here
        exact here.1
      rw [Value.written, List.cons_append, skipValue, if_neg quote, if_neg (not_or.mpr ⟨brace, open_⟩),
        ← List.cons_append, all]

theorem written_solid {value : Value} (fine : value.Fine) (rest : List Byte) :
    skipWs (value.written ++ rest) = value.written ++ rest := by
  cases value with
  | str text => exact skipWs_solid (by decide) _
  | bare text =>
    obtain ⟨some, fine⟩ := fine
    rcases text with _ | ⟨c, text⟩
    · exact absurd rfl some
    · obtain ⟨-, bare, -⟩ := fine c (List.mem_cons_self ..)
      simp only [endsBare, Bool.not_or, Bool.and_eq_true, Bool.not_eq_true'] at bare
      exact skipWs_solid bare.2 _

theorem findMember_written {member : Member} (fine : member.Fine) {rest : List Byte} (ends : Ends rest)
    (key : List Byte) (n : Nat) :
    findMember key (n + 1) (member.written ++ rest) =
      if member.1 = key then some (member.2.written ++ rest) else findMember key n rest := by
  obtain ⟨name, value⟩ := member
  obtain ⟨-, named, valued⟩ := fine
  have text : Member.written (name, value) ++ rest =
      ascii '"' :: (name ++ ascii '"' :: ascii ':' :: (value.written ++ rest)) := by
    simp [Member.written]
  have open_ : skipWs (ascii '"' :: (name ++ ascii '"' :: ascii ':' :: (value.written ++ rest))) =
      ascii '"' :: (name ++ ascii '"' :: ascii ':' :: (value.written ++ rest)) := skipWs_solid (by decide) _
  have colon : skipWs (ascii ':' :: (value.written ++ rest)) = ascii ':' :: (value.written ++ rest) :=
    skipWs_solid (by decide) _
  rw [text, findMember, open_]
  dsimp only
  rw [if_neg (by decide), if_pos rfl, quoted_plain named]
  dsimp only
  rw [colon]
  dsimp only
  rw [if_neg (by decide), written_solid valued, skipValue_fine valued ends]

theorem findMember_comma (key : List Byte) (n : Nat) (rest : List Byte) :
    findMember key (n + 1) (ascii ',' :: rest) = findMember key n rest := by
  rw [findMember, skipWs_solid (by decide)]
  dsimp only
  rw [if_pos rfl]

theorem lookup_other {member : Member} {members : List Member} {key : List Byte} (other : member.1 ≠ key) :
    (member :: members).lookup key = members.lookup key := by
  obtain ⟨name, value⟩ := member
  have differs : (key == name) = false := beq_false_of_ne (Ne.symm other)
  rw [List.lookup_cons, differs]

theorem lookup_none {member : Member} {members : List Member} {key : List Byte}
    (missing : (member :: members).lookup key = none) : member.1 ≠ key ∧ members.lookup key = none := by
  have other : member.1 ≠ key := by
    obtain ⟨name, value⟩ := member
    rintro rfl
    simp at missing
  exact ⟨other, lookup_other other ▸ missing⟩

theorem findMember_members {members : List Member} (fine : ∀ member ∈ members, member.Fine) {key : List Byte}
    {value : Value} (found : members.lookup key = some value) {n : Nat} (enough : 2 * members.length ≤ n) :
    ∃ tail, findMember key n (writtenMembers members) = some (value.written ++ tail) ∧ Ends tail := by
  induction members generalizing n with
  | nil => cases found
  | cons member members ih =>
    obtain ⟨here, later⟩ := List.forall_mem_cons.mp fine
    rw [List.length_cons] at enough
    obtain ⟨n, rfl⟩ : ∃ m, n = m + 2 := ⟨n - 2, by omega⟩
    have closes : Ends [ascii '\x7d'] := ⟨_, _, rfl, .inr rfl⟩
    have goesOn (tail : List Byte) : Ends (ascii ',' :: tail) := ⟨_, _, rfl, .inl rfl⟩
    by_cases same : member.1 = key
    · have value_eq : member.2 = value := by
        obtain ⟨name, other⟩ := member
        obtain rfl := same
        simpa using found
      rcases members with _ | ⟨next, members⟩
      · exact ⟨_, by rw [writtenMembers, findMember_written here closes, if_pos same, value_eq], closes⟩
      · exact ⟨_, by rw [writtenMembers_cons, findMember_written here (goesOn _), if_pos same, value_eq],
          goesOn _⟩
    · have found' : members.lookup key = some value := lookup_other same ▸ found
      rcases members with _ | ⟨next, members⟩
      · cases found'
      · obtain ⟨tail, walked, ends⟩ := ih later found' (n := n) (by simp at enough ⊢; omega)
        refine ⟨tail, ?_, ends⟩
        rw [writtenMembers_cons, findMember_written here (goesOn _), if_neg same, findMember_comma, walked]

theorem writtenMembers_length (members : List Member) : 2 * members.length ≤ (writtenMembers members).length := by
  induction members with
  | nil => exact Nat.zero_le _
  | cons member members ih =>
    have here : 2 ≤ member.written.length := by
      simp [Member.written]
      omega
    rcases members with _ | ⟨next, members⟩
    · rw [writtenMembers, List.length_append]
      exact Nat.le_add_right_of_le here
    · have split : (writtenMembers (member :: next :: members)).length =
          member.written.length + ((writtenMembers (next :: members)).length + 1) := by
        rw [writtenMembers_cons, List.length_append, List.length_cons]
      have counts : (member :: next :: members).length = (next :: members).length + 1 := rfl
      omega

theorem findMember_brace (key : List Byte) (n : Nat) : findMember key n [ascii '\x7d'] = none := by
  cases n with
  | zero => rfl
  | succ n => rfl

theorem findMember_missing {members : List Member} (fine : ∀ member ∈ members, member.Fine) {key : List Byte}
    (missing : members.lookup key = none) (n : Nat) : findMember key n (writtenMembers members) = none := by
  induction members generalizing n with
  | nil => exact findMember_brace key n
  | cons member members ih =>
    obtain ⟨here, later⟩ := List.forall_mem_cons.mp fine
    obtain ⟨other, missing⟩ := lookup_none missing
    rcases n with _ | n
    · rfl
    · rcases members with _ | ⟨next, members⟩
      · rw [writtenMembers, findMember_written here ⟨_, _, rfl, .inr rfl⟩, if_neg other, findMember_brace]
      · rw [writtenMembers_cons, findMember_written here ⟨_, _, rfl, .inl rfl⟩, if_neg other]
        rcases n with _ | n
        · rfl
        · rw [findMember_comma, ih later missing n]

theorem findKeyTop_written (members : List Member) (key : List Byte) :
    findKeyTop (writtenObject members) key =
      findMember key ((writtenMembers members).length + 1) (writtenMembers members) := by
  rw [findKeyTop, writtenObject, skipWs_solid (by decide)]
  exact if_pos rfl

theorem bpJsonGetTop_written {members : List Member} (fine : ∀ member ∈ members, member.Fine)
    {key : List Byte} {outLen : Nat} (fits : ∀ value ∈ members.lookup key, value.text.length < outLen) :
    bpJsonGetTop (writtenObject members) key outLen = (members.lookup key).map Value.text := by
  rw [bpJsonGetTop, findKeyTop_written]
  cases found : members.lookup key with
  | none => rw [findMember_missing fine found, Option.bind_none, Option.map_none]
  | some value =>
    have valued : value.Fine := by
      obtain ⟨front, back, rfl, -⟩ := List.lookup_eq_some_iff.mp found
      exact (fine (key, value) (by simp)).2.2
    obtain ⟨tail, walked, ends⟩ := findMember_members fine found
      (n := (writtenMembers members).length + 1) (Nat.le_succ_of_le (writtenMembers_length members))
    rw [walked, Option.bind_some, copyValue_fine valued (fits value found) ends, Option.map_some]

section Scan

variable {key : List Byte} {cap : Nat}

/-- A key of plain characters that neither a colon nor the end of a value starts. -/
structure Named (key : List Byte) : Prop where
  plain : ∀ c ∈ key, plain c
  head : ∃ c ∈ key.head?, c ≠ ascii ':' ∧ c ≠ ascii ',' ∧ c ≠ ascii '\x7d'

theorem plain_quote {c : Byte} (fine : plain c) : c ≠ ascii '"' := by
  simp only [Json.plain, decide_eq_true_eq] at fine
  exact fine.1

theorem scan_short {text : List Byte} (short : text.length ≤ key.length + 3) : bpJsonScanStr key cap text = none := by
  cases text with
  | nil => rfl
  | cons c rest =>
    rw [bpJsonScanStr]
    exact if_pos short

theorem scan_plain {text : List Byte} (fine : ∀ c ∈ text, c ≠ ascii '"') (rest : List Byte) :
    bpJsonScanStr key cap (text ++ rest) = bpJsonScanStr key cap rest := by
  induction text with
  | nil => rfl
  | cons c text ih =>
    obtain ⟨here, later⟩ := List.forall_mem_cons.mp fine
    rw [List.cons_append, bpJsonScanStr]
    split_ifs with short found
    · have shorter : rest.length ≤ key.length + 3 := by
        rw [List.length_append] at short
        omega
      exact (scan_short shorter).symm
    · exact absurd found.1 here
    · exact ih later

/-- The quoted key would start at the quote before this text. -/
def Opens (key rest : List Byte) : Prop := key.isPrefixOf rest ∧ (rest.drop key.length).head? = some (ascii '"')

theorem scan_quote {rest : List Byte}
    (other : Opens key rest → scanValue (rest.drop (key.length + 1)) cap = none) :
    bpJsonScanStr key cap (ascii '"' :: rest) = bpJsonScanStr key cap rest := by
  rw [bpJsonScanStr]
  split_ifs with short found
  · exact (scan_short (Nat.le_of_succ_le short)).symm
  · rw [other found.2, Option.none_or]
  · rfl

theorem Opens.eq (named : Named key) {text rest : List Byte} (fine : ∀ c ∈ text, plain c)
    (opens : Opens key (text ++ ascii '"' :: rest)) : text = key := by
  obtain ⟨starts, ends⟩ := opens
  rw [List.isPrefixOf_iff_prefix] at starts
  have shorter : key.length ≤ text.length := by
    by_contra longer
    have quote : ascii '"' ∈ key := by
      have pre : text ++ [ascii '"'] <+: key := List.prefix_of_prefix_length_le ⟨rest, by simp⟩ starts (by simp; omega)
      exact pre.subset (by simp)
    exact plain_quote (named.plain _ quote) rfl
  have within : key <+: text := List.prefix_of_prefix_length_le starts ⟨_, rfl⟩ shorter
  obtain ⟨more, rfl⟩ := within
  rw [List.append_assoc, List.drop_left] at ends
  rcases more with _ | ⟨c, more⟩
  · exact List.append_nil key
  · have quote : c = ascii '"' := by simpa using ends
    exact absurd quote (plain_quote (fine c (by simp)))

theorem Named.not_opens (named : Named key) {c : Byte} {rest : List Byte}
    (mark : c = ascii ':' ∨ c = ascii ',' ∨ c = ascii '\x7d') : ¬Opens key (c :: rest) := by
  rintro ⟨starts, -⟩
  obtain ⟨head, first, colon, comma, brace⟩ := named.head
  rcases key with _ | ⟨k, key⟩
  · cases first
  · obtain rfl : k = head := by simpa using first
    rw [List.isPrefixOf_iff_prefix, List.cons_prefix_cons] at starts
    obtain ⟨rfl, -⟩ := starts
    obtain rfl | rfl | rfl := mark
    · exact colon rfl
    · exact comma rfl
    · exact brace rfl

theorem scanValue_ends {rest : List Byte} (ends : Ends rest) : scanValue rest cap = none := by
  obtain ⟨c, tail, rfl, rfl | rfl⟩ := ends <;> rfl

theorem Ends.mark {rest : List Byte} (ends : Ends rest) :
    ∃ c tail, rest = c :: tail ∧ (c = ascii ':' ∨ c = ascii ',' ∨ c = ascii '\x7d') := by
  obtain ⟨c, tail, rfl, stops⟩ := ends
  exact ⟨c, tail, rfl, .inr stops⟩

theorem scan_value (named : Named key) {value : Value} (fine : value.Fine) {rest : List Byte}
    (ends : Ends rest) : bpJsonScanStr key cap (value.written ++ rest) = bpJsonScanStr key cap rest := by
  cases value with
  | str text =>
    have written : (Value.str text).written ++ rest = ascii '"' :: (text ++ ascii '"' :: rest) := by
      simp [Value.written]
    rw [written, scan_quote, scan_plain fun c member => plain_quote (fine c member), scan_quote]
    · obtain ⟨c, tail, rfl, mark⟩ := ends.mark
      exact fun opens => absurd opens (named.not_opens mark)
    · intro opens
      obtain rfl := opens.eq named fine
      rw [← List.drop_drop, List.drop_left]
      exact scanValue_ends ends
  | bare text => exact scan_plain (fun c member => plain_quote (fine.2 c member).1) rest

theorem scan_member (named : Named key) {member : Member} (fine : member.Fine) (other : member.1 ≠ key)
    {rest : List Byte} (ends : Ends rest) :
    bpJsonScanStr key cap (member.written ++ rest) = bpJsonScanStr key cap rest := by
  obtain ⟨name, value⟩ := member
  obtain ⟨-, plainName, valued⟩ := fine
  have written : Member.written (name, value) ++ rest =
      ascii '"' :: (name ++ ascii '"' :: ([ascii ':'] ++ (value.written ++ rest))) := by
    simp [Member.written]
  have colon : bpJsonScanStr key cap (ascii '"' :: ([ascii ':'] ++ (value.written ++ rest))) =
      bpJsonScanStr key cap ([ascii ':'] ++ (value.written ++ rest)) :=
    scan_quote fun opens => absurd opens (named.not_opens (.inl rfl))
  rw [written, scan_quote fun opens => absurd (opens.eq named plainName) other,
    scan_plain fun c member => plain_quote (plainName c member), colon, scan_plain (by decide),
    scan_value named valued ends]

theorem scan_found {text : List Byte} (fine : ∀ c ∈ text, plain c) (fits : text.length < cap)
    (rest : List Byte) :
    bpJsonScanStr key cap (Member.written (key, .str text) ++ rest) = some text := by
  have written : Member.written (key, .str text) ++ rest =
      ascii '"' :: (key ++ ascii '"' :: ascii ':' :: ascii '"' :: (text ++ ascii '"' :: rest)) := by
    simp [Member.written, Value.written]
  have long : ¬ (key ++ ascii '"' :: ascii ':' :: ascii '"' :: (text ++ ascii '"' :: rest)).length + 1 ≤
      key.length + 3 := by simp
  have value : scanValue (ascii ':' :: ascii '"' :: (text ++ ascii '"' :: rest)) cap = some text := by
    have all : (text ++ ascii '"' :: rest).takeWhile (fun c => c ≠ ascii '"') = text := by
      rw [List.takeWhile_append_of_pos fun c member => by simpa using plain_quote (fine c member),
        List.takeWhile_cons_of_neg (by decide), List.append_nil]
    have short : text.take (cap - 1) = text := List.take_of_length_le (Nat.le_sub_one_of_lt fits)
    rw [scanValue, List.dropWhile_cons_of_neg (by decide)]
    dsimp only
    rw [if_neg (by decide), List.dropWhile_cons_of_neg (by decide)]
    dsimp only
    rw [if_neg (by decide), all, short, List.drop_left, List.head?_cons, if_pos rfl]
  rw [written, bpJsonScanStr, if_neg long, if_pos, ← List.drop_drop, List.drop_left]
  · exact congrArg (Option.or · _) value
  · refine ⟨rfl, ?_, ?_⟩
    · rw [List.isPrefixOf_iff_prefix]
      exact ⟨_, rfl⟩
    · rw [List.drop_left]
      rfl

theorem scan_members (named : Named key) {members : List Member} (fine : ∀ member ∈ members, member.Fine)
    {text : List Byte} (found : members.lookup key = some (.str text)) (fits : text.length < cap) :
    bpJsonScanStr key cap (writtenMembers members) = some text := by
  induction members with
  | nil => cases found
  | cons member members ih =>
    obtain ⟨here, later⟩ := List.forall_mem_cons.mp fine
    by_cases same : member.1 = key
    · obtain ⟨name, value⟩ := member
      obtain rfl : name = key := same
      obtain rfl : value = .str text := by simpa using found
      rcases members with _ | ⟨next, members⟩
      · rw [writtenMembers, scan_found here.2.2 fits]
      · rw [writtenMembers_cons, scan_found here.2.2 fits]
    · have found' : members.lookup key = some (.str text) := lookup_other same ▸ found
      rcases members with _ | ⟨next, members⟩
      · cases found'
      · have comma : ascii ',' :: writtenMembers (next :: members) =
            [ascii ','] ++ writtenMembers (next :: members) := rfl
        rw [writtenMembers_cons, scan_member named here same ⟨_, _, rfl, .inl rfl⟩, comma, scan_plain (by decide)]
        exact ih later found'

theorem scan_missing (named : Named key) {members : List Member} (fine : ∀ member ∈ members, member.Fine)
    (missing : members.lookup key = none) : bpJsonScanStr key cap (writtenMembers members) = none := by
  have comma (rest : List Byte) : bpJsonScanStr key cap ([ascii ','] ++ rest) = bpJsonScanStr key cap rest :=
    scan_plain (by decide) rest
  have brace : bpJsonScanStr key cap [ascii '\x7d'] = none := scan_short (Nat.le_add_left ..)
  induction members with
  | nil => exact brace
  | cons member members ih =>
    obtain ⟨here, later⟩ := List.forall_mem_cons.mp fine
    obtain ⟨other, missing⟩ := lookup_none missing
    rcases members with _ | ⟨next, members⟩
    · rw [writtenMembers, scan_member named here other ⟨_, _, rfl, .inr rfl⟩, brace]
    · rw [writtenMembers_cons, scan_member named here other ⟨_, _, rfl, .inl rfl⟩]
      exact (comma _).trans (ih later missing)

theorem bpJsonScanStr_written (named : Named key) {members : List Member}
    (fine : ∀ member ∈ members, member.Fine)
    (fits : ∀ value ∈ members.lookup key, value.isStr ∧ value.text.length < cap) :
    bpJsonScanStr key cap (writtenObject members) = (members.lookup key).map Value.text := by
  have brace : writtenObject members = [ascii '\x7b'] ++ writtenMembers members := rfl
  rw [brace, scan_plain (by decide)]
  cases found : members.lookup key with
  | none => rw [scan_missing named fine found, Option.map_none]
  | some value =>
    obtain ⟨string, short⟩ := fits value found
    cases value with
    | str text => rw [scan_members named fine found short, Option.map_some, Value.text]
    | bare text => cases string

end Scan

end BenchPod.Json
