import BenchPod.Library.Word

/-!
# Chains of tagged fields

A chain is a sequence of fields, each a one-byte tag, a two-byte big-endian length and a value.
Taking fields off the front inverts putting them there, so a well formed front is read the same
whatever follows it.
-/

namespace BenchPod.Tlv

/-- A field read from a chain, with the position its value starts at. -/
structure Field where
  tag : Byte
  pos : Nat
  val : List Byte
  deriving DecidableEq, Repr

/-- The bytes of one field. -/
def put (tag : Byte) (val : List Byte) : List Byte := tag :: (Endian.be16 (BitVec.ofNat 16 val.length) ++ val)

/-- Take one field off the front: its tag, its value and the bytes after it. -/
def next : List Byte → Option (Byte × List Byte × List Byte)
  | tag :: high :: low :: rest =>
    let len := (Endian.getBe16 [high, low]).toNat
    if rest.length < len then none else some (tag, rest.take len, rest.drop len)
  | _ => none

/-- The fields an iterator yields, up to the first that does not fit. -/
def walk : Nat → Nat → List Byte → List Field
  | 0, _, _ => []
  | fuel + 1, pos, bytes =>
    match next bytes with
    | none => []
    | some (tag, val, rest) => ⟨tag, pos + 3, val⟩ :: walk fuel (pos + 3 + val.length) rest

/-- Every field fits. -/
def check : Nat → List Byte → Bool
  | 0, bytes => bytes.isEmpty
  | fuel + 1, bytes =>
    bytes.isEmpty ||
      match next bytes with
      | none => false
      | some (_, _, rest) => check fuel rest

/-- The fields of a chain in order. -/
def fields (bytes : List Byte) : List Field := walk bytes.length 0 bytes

/-- Whether a chain is well formed. -/
def valid (bytes : List Byte) : Bool := check bytes.length bytes

/-- The value of the first field with a tag. -/
def find (bytes : List Byte) (tag : Byte) : Option (List Byte) :=
  ((fields bytes).find? fun field => field.tag == tag).map (·.val)

/-- Well formed chains, field by field. -/
inductive Valid : List Byte → Prop where
  | nil : Valid []
  | field (tag : Byte) {val rest : List Byte} (fits : val.length < 65536) (tail : Valid rest) :
      Valid (put tag val ++ rest)

@[simp]
theorem put_length (tag : Byte) (val : List Byte) : (put tag val).length = val.length + 3 := by
  simp only [put, List.length_cons, List.length_append, Endian.be16_length]
  omega

theorem next_put {tag : Byte} {val : List Byte} (fits : val.length < 65536) (rest : List Byte) :
    next (put tag val ++ rest) = some (tag, val, rest) := by
  obtain ⟨high, low, lengthBytes⟩ := List.length_eq_two.mp (Endian.be16_length (BitVec.ofNat 16 val.length))
  have len : (Endian.getBe16 [high, low]).toNat = val.length := by
    rw [← lengthBytes, Endian.getBe16_be16, BitVec.toNat_ofNat, Nat.mod_eq_of_lt (by omega)]
  simp only [put, lengthBytes, List.cons_append, List.nil_append, next, len, List.length_append]
  rw [if_neg (by omega), List.take_left, List.drop_left]

theorem eq_put_of_next {bytes rest val : List Byte} {tag : Byte}
    (taken : next bytes = some (tag, val, rest)) :
    val.length < 65536 ∧ bytes = put tag val ++ rest := by
  unfold next at taken
  split at taken
  · rename_i first high low tail
    simp only at taken
    split at taken
    · cases taken
    · rename_i fits
      simp only [Option.some.injEq, Prod.mk.injEq] at taken
      obtain ⟨rfl, rfl, rfl⟩ := taken
      have len_lt := (Endian.getBe16 [high, low]).isLt
      have taken_length : (tail.take (Endian.getBe16 [high, low]).toNat).length = (Endian.getBe16 [high, low]).toNat := by
        rw [List.length_take]
        omega
      refine ⟨by omega, ?_⟩
      rw [put, taken_length, BitVec.ofNat_toNat, BitVec.setWidth_eq, Endian.be16_getBe16 rfl]
      simp
  · cases taken

theorem valid_iff_check (fuel : Nat) (bytes : List Byte) (enough : bytes.length ≤ fuel) :
    check fuel bytes = true ↔ Valid bytes := by
  induction fuel generalizing bytes with
  | zero =>
    have empty : bytes = [] := List.length_eq_zero_iff.mp (by omega)
    subst empty
    exact iff_of_true rfl .nil
  | succ fuel ih =>
    cases bytes with
    | nil => exact iff_of_true rfl .nil
    | cons head tail =>
      simp only [check, List.isEmpty_cons, Bool.false_or]
      constructor
      · intro checked
        split at checked
        · cases checked
        · rename_i taken
          obtain ⟨fits, split⟩ := eq_put_of_next taken
          rw [split] at enough ⊢
          simp only [List.length_append, put_length] at enough
          exact .field _ fits ((ih _ (by omega)).mp checked)
      · intro wellFormed
        generalize chain : head :: tail = bytes at wellFormed enough
        cases wellFormed with
        | nil => cases chain
        | field tag fits rest =>
          simp only [List.length_append, put_length] at enough
          rw [next_put fits]
          exact (ih _ (by omega)).mpr rest

theorem valid_iff (bytes : List Byte) : valid bytes = true ↔ Valid bytes := valid_iff_check _ _ (Nat.le_refl _)

theorem walk_enough {fuel other : Nat} {bytes : List Byte} (enough : bytes.length ≤ fuel)
    (other_enough : bytes.length ≤ other) (pos : Nat) : walk fuel pos bytes = walk other pos bytes := by
  induction fuel generalizing bytes pos other with
  | zero =>
    have empty : bytes = [] := List.length_eq_zero_iff.mp (by omega)
    subst empty
    cases other <;> rfl
  | succ fuel ih =>
    cases other with
    | zero =>
      have empty : bytes = [] := List.length_eq_zero_iff.mp (by omega)
      subst empty
      rfl
    | succ other =>
      simp only [walk]
      cases taken : next bytes with
      | none => rfl
      | some field =>
        obtain ⟨tag, val, rest⟩ := field
        obtain ⟨_, split⟩ := eq_put_of_next taken
        rw [split] at enough other_enough
        simp only [List.length_append, put_length] at enough other_enough
        exact congrArg _ (ih (by omega) (by omega) _)

/-- Move a field read from a chain to where the chain starts. -/
def Field.shift (start : Nat) (field : Field) : Field := { field with pos := start + field.pos }

theorem walk_shift (fuel pos : Nat) (bytes : List Byte) :
    walk fuel pos bytes = (walk fuel 0 bytes).map (Field.shift pos) := by
  induction fuel generalizing pos bytes with
  | zero => rfl
  | succ fuel ih =>
    simp only [walk]
    cases next bytes with
    | none => rfl
    | some field =>
      obtain ⟨tag, val, rest⟩ := field
      simp only [List.map_cons]
      rw [ih (pos + 3 + val.length), ih (0 + 3 + val.length), List.map_map]
      congr 1
      apply List.map_congr_left
      intro field _
      simp only [Function.comp, Field.shift, Field.mk.injEq, and_true, true_and]
      omega

@[simp]
theorem fields_nil : fields [] = [] := rfl

theorem fields_put {tag : Byte} {val : List Byte} (fits : val.length < 65536) (rest : List Byte) :
    fields (put tag val ++ rest) = ⟨tag, 3, val⟩ :: (fields rest).map (Field.shift (val.length + 3)) := by
  have length : (put tag val ++ rest).length = (val.length + 2 + rest.length) + 1 := by
    rw [List.length_append, put_length]
    omega
  rw [fields, length, walk, next_put fits]
  simp only
  have enough : rest.length ≤ val.length + 2 + rest.length := by omega
  rw [walk_shift, walk_enough enough (Nat.le_refl _), ← fields, Nat.zero_add, Nat.add_comm 3]

theorem fields_append {front : List Byte} (wellFormed : Valid front) (back : List Byte) :
    fields (front ++ back) = fields front ++ (fields back).map (Field.shift front.length) := by
  induction wellFormed with
  | nil =>
    have same : Field.shift 0 = id := by
      funext field
      simp [Field.shift]
    simp [same]
  | @field tag val rest fits _ ih =>
    rw [List.append_assoc, fields_put fits, fields_put fits, ih]
    simp only [List.map_append, List.map_map, List.cons_append, List.length_append, put_length]
    congr 3
    funext field
    simp only [Function.comp, Field.shift, Field.mk.injEq, and_true, true_and]
    omega

theorem Valid.append {front back : List Byte} (left : Valid front) (right : Valid back) : Valid (front ++ back) := by
  induction left with
  | nil => exact right
  | field tag fits _ ih =>
    rw [List.append_assoc]
    exact .field tag fits ih

theorem valid_put {tag : Byte} {val : List Byte} (fits : val.length < 65536) : Valid (put tag val) := by
  have chain := Valid.field tag fits .nil
  rwa [List.append_nil] at chain

theorem find_append {front : List Byte} (wellFormed : Valid front) (back : List Byte) (tag : Byte) :
    find (front ++ back) tag = (find front tag).or (find back tag) := by
  simp only [find, fields_append wellFormed, List.find?_append, List.find?_map, Option.map_or, Option.map_map]
  rfl

theorem find_put {tag : Byte} {val : List Byte} (fits : val.length < 65536) (rest : List Byte)
    (wanted : Byte) :
    find (put tag val ++ rest) wanted = if tag == wanted then some val else find rest wanted := by
  simp only [find, fields_put fits, List.find?_cons]
  split <;> rename_i same
  · simp only [same, if_true, Option.map_some]
  · simp only [same, List.find?_map, Option.map_map]
    rfl

theorem Valid.inside {body : List Byte} (wellFormed : Valid body) :
    ∀ field ∈ fields body, field.pos + field.val.length ≤ body.length ∧
      (body.drop field.pos).take field.val.length = field.val := by
  induction wellFormed with
  | nil => simp
  | @field tag val rest fits _ ih =>
    intro field member
    rw [fields_put fits] at member
    obtain rfl | later := List.mem_cons.mp member
    · simp only [List.length_append, put_length]
      refine ⟨by omega, ?_⟩
      have front : tag :: Endian.be16 (BitVec.ofNat 16 val.length) ++ val ++ rest = put tag val ++ rest := by simp [put]
      rw [← front, List.append_assoc, List.drop_append_of_le_length (by simp),
        List.drop_eq_nil_of_le (by simp), List.nil_append, List.take_left]
    · obtain ⟨inner, inner_mem, rfl⟩ := List.mem_map.mp later
      obtain ⟨within, value⟩ := ih inner inner_mem
      simp only [Field.shift, List.length_append, put_length]
      refine ⟨by omega, ?_⟩
      rw [List.drop_append, List.drop_eq_nil_of_le (by rw [put_length]; omega), List.nil_append,
        put_length, Nat.add_sub_cancel_left]
      exact value

theorem Valid.last {body : List Byte} (wellFormed : Valid body) {front : List Field} {last : Field}
    (split : fields body = front ++ [last]) :
    ∃ head, Valid head ∧ fields head = front ∧ body = head ++ put last.tag last.val ∧
      last.pos = head.length + 3 ∧ last.val.length < 65536 := by
  induction wellFormed generalizing front last with
  | nil => simp at split
  | @field tag val rest fits tail ih =>
    rw [fields_put fits] at split
    cases front with
    | nil =>
      simp only [List.nil_append, List.cons.injEq, List.map_eq_nil_iff] at split
      obtain ⟨rfl, empty⟩ := split
      have rest_nil : rest = [] := by
        cases tail with
        | nil => rfl
        | field tag fits _ => simp [fields_put fits] at empty
      subst rest_nil
      exact ⟨[], .nil, rfl, by simp, rfl, fits⟩
    | cons first front =>
      simp only [List.cons_append, List.cons.injEq] at split
      obtain ⟨rfl, mapped⟩ := split
      obtain ⟨back, final, fields_eq, back_eq, final_eq⟩ := List.map_eq_append_iff.mp mapped
      obtain ⟨inner, rfl, rfl⟩ := List.map_eq_singleton_iff.mp final_eq
      obtain ⟨head, head_valid, head_fields, rfl, pos_eq, inner_fits⟩ := ih fields_eq
      refine ⟨put tag val ++ head, .field tag fits head_valid, ?_, by simp [Field.shift], ?_, inner_fits⟩
      · rw [fields_put fits, head_fields, back_eq]
      · simp only [Field.shift, List.length_append, put_length, pos_eq]
        omega
end BenchPod.Tlv
