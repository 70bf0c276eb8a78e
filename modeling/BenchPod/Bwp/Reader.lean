import BenchPod.Bwp.Sender

/-!
# The codec's reader, read by read

Every byte the reader takes is taken at a position, and a position outside the frame has no byte.  The
checks come before the reads, so no read fails, and what is read is what the writer wrote.
-/

namespace BenchPod.Bwp

/-- The byte at a position. -/
def readAt (frame : List Byte) (pos : Nat) : Option Byte := frame[pos]?

def readBe16 (frame : List Byte) (pos : Nat) : Option Half :=
  match readAt frame pos, readAt frame (pos + 1) with
  | some high, some low => some (Endian.getBe16 [high, low])
  | _, _ => none

/-- Whether every field of a chain in the frame fits. -/
def tlvValid (frame : List Byte) (pos left : Nat) : Option Bool :=
  if left = 0 then some true
  else if left < 3 then some false
  else
    match readBe16 frame (pos + 1) with
    | none => none
    | some vlen =>
      if left - 3 < vlen.toNat then some false
      else tlvValid frame (pos + (3 + vlen.toNat)) (left - (3 + vlen.toNat))
termination_by left

/-- Validate a frame; none when a byte outside of it is read. -/
def readParse (frame : List Byte) : Option (Except ParseError Msg) := do
  let len := frame.length
  if len < ethHdrLen + 2 then return .error .notBwp
  if (← readBe16 frame 12) ≠ ethertype then return .error .notBwp
  if (← readAt frame 14) ≠ magic0 then return .error .notBwp
  if (← readAt frame 15) ≠ magic1 then return .error .notBwp
  if len < ethHdrLen + hdrLen then return .error .malformed
  let version' ← readAt frame 16
  let type ← readAt frame 17
  let seq ← readBe16 frame 18
  let bodyLen ← readBe16 frame 20
  if version' ≠ version then return .error .badVersion
  if bodyLen.toNat > len - ethHdrLen - hdrLen then return .error .malformed
  if (← tlvValid frame (ethHdrLen + hdrLen) bodyLen.toNat) = false then return .error .malformed
  return .ok
    { dst := slice frame 0 6
      src := slice frame 6 6
      type
      seq
      body := slice frame (ethHdrLen + hdrLen) bodyLen.toNat }

/-- Where an iterator is, and how many bytes are left to it. -/
structure Iter where
  pos : Nat
  left : Nat

namespace Iter

/-- The next field, where there is one; none when a byte outside of the frame is read. -/
def next (frame : List Byte) (it : Iter) : Option (Option Tlv.Field × Iter) :=
  if it.left < 3 then some (none, it)
  else
    match readBe16 frame (it.pos + 1), readAt frame it.pos with
    | some vlen, some tag =>
      if it.left - 3 < vlen.toNat then some (none, { it with left := 0 })
      else
        some (some ⟨tag, it.pos + 3, slice frame (it.pos + 3) vlen.toNat⟩,
          ⟨it.pos + (3 + vlen.toNat), it.left - (3 + vlen.toNat)⟩)
    | _, _ => none

theorem next_left {frame : List Byte} {it after : Iter} {field : Tlv.Field}
    (taken : it.next frame = some (some field, after)) : after.left < it.left := by
  rw [next] at taken
  split at taken
  · cases taken
  · split at taken
    · split at taken
      · cases taken
      · cases taken
        dsimp only
        omega
    · cases taken

/-- All the fields. -/
def drain (frame : List Byte) (it : Iter) : Option (List Tlv.Field) :=
  match taken : it.next frame with
  | none => none
  | some (none, _) => some []
  | some (some field, after) =>
    have : after.left < it.left := next_left taken
    (drain frame after).map (field :: ·)
termination_by it.left

end Iter

/-! ## Reads inside the frame -/

variable {frame : List Byte} {pos left : Nat}

theorem readBe16_slice (within : pos + 2 ≤ frame.length) :
    readBe16 frame pos = some (Endian.getBe16 (slice frame pos 2)) := by
  have bytes : slice frame pos 2 = [frame[pos], frame[pos + 1]] := by
    rw [slice, List.drop_eq_getElem_cons (by omega), List.drop_eq_getElem_cons (by omega)]
    rfl
  rw [readBe16, readAt, readAt, List.getElem?_eq_getElem (by omega), List.getElem?_eq_getElem (by omega),
    bytes]

theorem readAt_getD (within : pos < frame.length) : readAt frame pos = some (frame.getD pos 0) := by
  rw [readAt, List.getD_eq_getElem?_getD, List.getElem?_eq_getElem within]
  rfl

theorem next_slice (within : pos + left ≤ frame.length) (three : 3 ≤ left) :
    Tlv.next (slice frame pos left) =
      let len := (Endian.getBe16 (slice frame (pos + 1) 2)).toNat
      if left - 3 < len then none
      else some (frame.getD pos 0, slice frame (pos + 3) len, slice frame (pos + (3 + len)) (left - (3 + len))) := by
  have head : slice frame pos left =
      frame.getD pos 0 :: frame[pos + 1] :: frame[pos + 2] :: slice frame (pos + 3) (left - 3) := by
    obtain ⟨rest, rfl⟩ := Nat.exists_eq_add_of_le' three
    rw [slice, List.drop_eq_getElem_cons (by omega), List.drop_eq_getElem_cons (by omega),
      List.drop_eq_getElem_cons (by omega), List.getD_eq_getElem?_getD, List.getElem?_eq_getElem (by omega)]
    rfl
  have two : slice frame (pos + 1) 2 = [frame[pos + 1], frame[pos + 2]] := by
    rw [slice, List.drop_eq_getElem_cons (by omega), List.drop_eq_getElem_cons (by omega)]
    rfl
  have length : (slice frame (pos + 3) (left - 3)).length = left - 3 := by
    rw [slice, List.length_take, List.length_drop]
    omega
  rw [head, two, Tlv.next]
  simp only [length]
  split
  · rfl
  · next room =>
      have value : (slice frame (pos + 3) (left - 3)).take (Endian.getBe16 [frame[pos + 1], frame[pos + 2]]).toNat =
          slice frame (pos + 3) (Endian.getBe16 [frame[pos + 1], frame[pos + 2]]).toNat := by
        rw [slice, slice, List.take_take, Nat.min_eq_left (by omega)]
      have rest : (slice frame (pos + 3) (left - 3)).drop (Endian.getBe16 [frame[pos + 1], frame[pos + 2]]).toNat =
          slice frame (pos + (3 + (Endian.getBe16 [frame[pos + 1], frame[pos + 2]]).toNat))
            (left - (3 + (Endian.getBe16 [frame[pos + 1], frame[pos + 2]]).toNat)) := by
        rw [slice, slice, List.drop_take, List.drop_drop, Nat.sub_sub, Nat.add_assoc]
      rw [value, rest]

theorem next_short {bytes : List Byte} (short : bytes.length < 3) : Tlv.next bytes = none := by
  match bytes, short with
  | [], _ => rfl
  | [_], _ => rfl
  | [_, _], _ => rfl

theorem slice_length (within : pos + left ≤ frame.length) : (slice frame pos left).length = left := by
  rw [slice, List.length_take, List.length_drop]
  omega

theorem valid_of_next {bytes val rest : List Byte} {tag : Byte} (taken : Tlv.next bytes = some (tag, val, rest)) :
    Tlv.valid bytes = Tlv.valid rest := by
  obtain ⟨fits, rfl⟩ := Tlv.eq_put_of_next taken
  rw [Bool.eq_iff_iff, Tlv.valid_iff, Tlv.valid_iff]
  constructor
  · intro chain
    generalize bytes_eq : Tlv.put tag val ++ rest = bytes at chain
    cases chain with
    | nil => cases bytes_eq
    | field tag' fits' tail =>
      have both := (Tlv.next_put fits' _).symm.trans ((congrArg Tlv.next bytes_eq).symm.trans taken)
      cases both
      exact tail
  · exact .field tag fits

theorem tlvValid_eq (within : pos + left ≤ frame.length) :
    tlvValid frame pos left = some (Tlv.valid (slice frame pos left)) := by
  induction left using Nat.strongRecOn generalizing pos with
  | ind left ih =>
    have length := slice_length within
    rw [tlvValid]
    split
    · next zero =>
        have empty : slice frame pos left = [] := List.eq_nil_of_length_eq_zero (length.trans zero)
        rw [empty]
        rfl
    · next some_left =>
        have bad (taken : Tlv.next (slice frame pos left) = none) : Tlv.valid (slice frame pos left) = false := by
          rw [Bool.eq_false_iff, ne_eq, Tlv.valid_iff]
          intro chain
          generalize slice frame pos left = bytes at chain taken length
          cases chain with
          | nil => exact some_left length.symm
          | field tag fits tail => cases (Tlv.next_put fits _).symm.trans taken
        split
        · next short => rw [bad (next_short (by rw [length]; exact short))]
        · next three =>
            have taken := next_slice within (Nat.le_of_not_lt three)
            rw [readBe16_slice (by omega)]
            simp only at taken ⊢
            split
            · next past =>
                rw [if_pos past] at taken
                rw [bad taken]
            · next room =>
                rw [if_neg room] at taken
                rw [valid_of_next taken]
                exact ih _ (by omega) (by omega)

/-- No read of the validation is outside the frame. -/
theorem readParse_eq (frame : List Byte) : readParse frame = some (parse frame) := by
  have byte {pos : Nat} (within : pos < frame.length) := readAt_getD within
  have half {pos : Nat} (within : pos + 2 ≤ frame.length) := readBe16_slice within
  rw [readParse, parse]
  by_cases short : frame.length < ethHdrLen + 2
  · rw [if_pos short, if_pos (.inl short)]
    rfl
  · have sixteen : 16 ≤ frame.length := Nat.le_of_not_lt short
    rw [if_neg short, half (by omega), byte (by omega), byte (by omega)]
    simp only [Option.bind_eq_bind, Option.bind_some, Option.pure_def]
    by_cases foreign : Endian.getBe16 (slice frame 12 2) ≠ ethertype
    · rw [if_pos foreign, if_pos (.inr foreign)]
    · rw [if_neg foreign, if_neg (not_or.mpr ⟨short, foreign⟩)]
      by_cases first : frame.getD 14 0 ≠ magic0
      · rw [if_pos first, if_pos (.inl first)]
      · rw [if_neg first]
        by_cases second : frame.getD 15 0 ≠ magic1
        · rw [if_pos second, if_pos (.inr second)]
        · rw [if_neg second, if_neg (not_or.mpr ⟨first, second⟩)]
          by_cases header : frame.length < ethHdrLen + hdrLen
          · rw [if_pos header, if_pos header]
          · have long : 22 ≤ frame.length := Nat.le_of_not_lt header
            rw [if_neg header, if_neg header, byte (by omega), byte (by omega), half (by omega),
              half (by omega)]
            simp only [Option.bind_some]
            by_cases other : frame.getD 16 0 ≠ version
            · rw [if_pos other, if_pos other]
            · rw [if_neg other, if_neg other]
              by_cases past : (Endian.getBe16 (slice frame 20 2)).toNat > frame.length - ethHdrLen - hdrLen
              · rw [if_pos past, if_pos past]
              · have inside : ethHdrLen + hdrLen + (Endian.getBe16 (slice frame 20 2)).toNat ≤ frame.length := by
                  simp only [ethHdrLen, hdrLen] at past ⊢
                  omega
                rw [if_neg past, if_neg past, tlvValid_eq inside]
                simp only [Option.bind_some]
                split <;> rfl

namespace Iter

theorem next_inside (it : Iter) (within : it.pos + it.left ≤ frame.length) :
    ∃ found after, it.next frame = some (found, after) ∧ it.pos ≤ after.pos ∧
      after.pos + after.left ≤ it.pos + it.left ∧
      ∀ field, found = some field → after.left < it.left ∧ it.pos + 3 ≤ field.pos ∧
        field.pos + field.val.length ≤ it.pos + it.left ∧
        field.val = slice frame field.pos field.val.length := by
  rw [next]
  split
  · exact ⟨none, it, rfl, Nat.le_refl _, Nat.le_refl _, nofun⟩
  · next three =>
      rw [readBe16_slice (by omega), readAt_getD (by omega)]
      simp only
      split
      · exact ⟨none, _, rfl, Nat.le_refl _, Nat.add_le_add_left (Nat.zero_le _) _, nofun⟩
      · next room =>
          have length : (slice frame (it.pos + 3) (Endian.getBe16 (slice frame (it.pos + 1) 2)).toNat).length =
              (Endian.getBe16 (slice frame (it.pos + 1) 2)).toNat := slice_length (by omega)
          refine ⟨_, _, rfl, Nat.le_add_right _ _, by dsimp only; omega, fun field found => ?_⟩
          cases found
          refine ⟨by dsimp only; omega, Nat.le_refl _, ?_, ?_⟩
          · dsimp only
            rw [length]
            omega
          · dsimp only
            rw [length]

/-- The iterator gives the fields of the run. -/
theorem drain_walk {fuel : Nat} (within : pos + left ≤ frame.length) (enough : left ≤ fuel) :
    drain frame ⟨pos, left⟩ = some (Tlv.walk fuel pos (slice frame pos left)) := by
  induction left using Nat.strongRecOn generalizing pos fuel with
  | ind left ih =>
    have length := slice_length within
    have stops (taken : Tlv.next (slice frame pos left) = none) : Tlv.walk fuel pos (slice frame pos left) = [] := by
      cases fuel with
      | zero => rfl
      | succ fuel => rw [Tlv.walk, taken]
    by_cases short : left < 3
    · have done : Iter.next frame ⟨pos, left⟩ = some (none, ⟨pos, left⟩) := by
        rw [next, if_pos short]
      rw [drain, stops (next_short (by rw [length]; exact short))]
      split
      · next failed => cases done.symm.trans failed
      · rfl
      · next taken => cases done.symm.trans taken
    · have taken := next_slice within (Nat.le_of_not_lt short)
      simp only at taken
      have read : Iter.next frame ⟨pos, left⟩ =
          if left - 3 < (Endian.getBe16 (slice frame (pos + 1) 2)).toNat then some (none, ⟨pos, 0⟩)
          else some (some ⟨frame.getD pos 0, pos + 3,
              slice frame (pos + 3) (Endian.getBe16 (slice frame (pos + 1) 2)).toNat⟩,
            ⟨pos + (3 + (Endian.getBe16 (slice frame (pos + 1) 2)).toNat),
              left - (3 + (Endian.getBe16 (slice frame (pos + 1) 2)).toNat)⟩) := by
        rw [next, if_neg short, readBe16_slice (by dsimp only; omega), readAt_getD (by dsimp only; omega)]
      split at read
      · next past =>
          rw [if_pos past] at taken
          rw [drain, stops taken]
          split
          · next failed => cases read.symm.trans failed
          · rfl
          · next found => cases read.symm.trans found
      · next room =>
          rw [if_neg room] at taken
          have three : 3 ≤ left := Nat.le_of_not_lt short
          cases fuel with
          | zero => omega
          | succ fuel =>
            have val_length : (slice frame (pos + 3) (Endian.getBe16 (slice frame (pos + 1) 2)).toNat).length =
                (Endian.getBe16 (slice frame (pos + 1) 2)).toNat := slice_length (by omega)
            have rest : drain frame ⟨pos + (3 + (Endian.getBe16 (slice frame (pos + 1) 2)).toNat),
                left - (3 + (Endian.getBe16 (slice frame (pos + 1) 2)).toNat)⟩ = some (Tlv.walk fuel _ _) :=
              ih _ (by omega) (by omega) (by omega)
            rw [drain, Tlv.walk, taken]
            simp only [val_length]
            split
            · next failed => cases read.symm.trans failed
            · next ended => cases read.symm.trans ended
            · next found =>
                cases read.symm.trans found
                rw [rest, Nat.add_assoc]
                rfl

theorem drain_inside {fields : List Tlv.Field} (within : pos + left ≤ frame.length)
    (drained : drain frame ⟨pos, left⟩ = some fields) :
    ∀ field ∈ fields, pos ≤ field.pos ∧ field.pos + field.val.length ≤ pos + left ∧
      field.val = slice frame field.pos field.val.length := by
  induction left using Nat.strongRecOn generalizing pos fields with
  | ind left ih =>
    obtain ⟨found, after, read, further, inside, taken⟩ := next_inside ⟨pos, left⟩ within
    rw [drain] at drained
    split at drained
    · cases drained
    · cases drained
      nofun
    · next first later read' =>
        cases read.symm.trans read'
        obtain ⟨less, behind, fits, value⟩ := taken first rfl
        obtain ⟨rest, left_over, rfl⟩ := Option.map_eq_some_iff.mp drained
        intro field member
        obtain rfl | member := List.mem_cons.mp member
        · exact ⟨Nat.le_trans (Nat.le_add_right _ 3) behind, fits, value⟩
        · obtain ⟨behind, fits, value⟩ := ih after.left less (Nat.le_trans inside within) left_over field member
          exact ⟨Nat.le_trans further behind, Nat.le_trans fits inside, value⟩

theorem drain_eq (within : pos + left ≤ frame.length) :
    drain frame ⟨pos, left⟩ = some ((Tlv.fields (slice frame pos left)).map (Tlv.Field.shift pos)) := by
  have length := slice_length within
  rw [drain_walk within (Nat.le_of_eq length.symm), Tlv.walk_shift, ← Tlv.fields]

end Iter

/-! ## What is written is read -/

/-- The tags and values that iterating gives. -/
def readFields (fields : List Tlv.Field) : List (Byte × List Byte) := fields.map fun field => (field.tag, field.val)

theorem readFields_shift (start : Nat) (fields : List Tlv.Field) :
    readFields (fields.map (Tlv.Field.shift start)) = readFields fields := by
  rw [readFields, List.map_map]
  rfl

theorem readFields_items {is : List Item} (short : ∀ i ∈ is, i.value.length < 65536) :
    readFields (Tlv.fields (is.flatMap Item.bytes)) = is.map fun i => (i.tag, i.value) := by
  induction is with
  | nil => rfl
  | cons i is ih =>
    rw [List.flatMap_cons, Item.bytes, Tlv.fields_put (short i (List.mem_cons_self ..)), readFields,
      List.map_cons, ← readFields, readFields_shift,
      ih fun j member => short j (List.mem_cons_of_mem _ member)]
    rfl

/-- The calls that write between the headers and the end. -/
inductive Call where
  | put (tag : Byte) (val : List Byte)
  | nestBegin (tag : Byte)
  | nestEnd
  deriving DecidableEq

namespace Writer

variable {w : Writer}

/-- Calls in any order, nested fields left open or closed twice included. -/
def call (w : Writer) : Call → Writer
  | .put tag val => w.put tag val
  | .nestBegin tag => w.nestBegin tag
  | .nestEnd => w.nestEnd

def calls (w : Writer) (calls : List Call) : Writer := calls.foldl call w

/-- The bytes a call writes. -/
def written : Call → Nat
  | .put _ val => val.length + 3
  | .nestBegin _ => 3
  | .nestEnd => 0

/-- A call whose field is too long, or for which there is no room. -/
def Overflows (w : Writer) (call : Call) : Prop :=
  (∃ tag val, call = .put tag val ∧ 0xffff < val.length) ∨ w.cap < w.buf.length + written call

theorem reserve_over {bytes : List Byte} (past : w.overflow = true) : (w.reserve bytes).overflow = true := by
  rw [reserve, if_pos (.inl past)]

theorem call_over (past : w.overflow = true) (call : Call) : (w.call call).overflow = true := by
  cases call with
  | put tag val =>
    rw [Writer.call, put]
    split
    · rfl
    · exact reserve_over past
  | nestBegin tag =>
    rw [Writer.call, nestBegin]
    simp only [reserve_over past, if_true]
  | nestEnd =>
    rw [Writer.call, nestEnd_overflow]
    exact past

theorem calls_over (past : w.overflow = true) (calls : List Call) : (w.calls calls).overflow = true := by
  induction calls generalizing w with
  | nil => exact past
  | cons call calls ih => exact ih (call_over past call)

theorem call_overflows {call : Call} (overflows : w.Overflows call) (writes : call ≠ .nestEnd) :
    (w.call call).overflow = true := by
  cases call with
  | nestEnd => exact absurd rfl writes
  | put tag val =>
    rw [Writer.call, put]
    split
    · rfl
    · next short =>
        obtain ⟨tag', val', same, long⟩ | full := overflows
        · cases same
          exact absurd long short
        · rw [reserve, if_pos]
          refine .inr ?_
          rw [Tlv.put_length]
          exact full
  | nestBegin tag =>
    have full : w.cap < w.buf.length + 3 := by
      obtain ⟨tag', val', same, -⟩ | full := overflows
      · cases same
      · exact full
    have reserved : (w.reserve [tag, 0, 0]).overflow = true := by rw [reserve, if_pos (.inr full)]
    rw [Writer.call, nestBegin]
    simp only [reserved, if_true]

theorem finish_over (past : w.overflow = true) : w.finish = none := by
  rw [finish, if_pos past]

theorem finish_parses {cap : Nat} {dst src : List Byte} {type : Byte} {seq : Half} {is : List Item}
    {frame : List Byte} (dst_length : dst.length = 6) (src_length : src.length = 6)
    (finished : ((start cap dst src type seq).items is).finish = some frame) (padding : List Byte) :
    parse (frame ++ padding) = .ok { dst, src, type, seq, body := is.flatMap Item.bytes } ∧
      ∀ i ∈ is, i.value.length < 65536 := by
  obtain ⟨fits, frame_eq⟩ := finish_some finished
  obtain ⟨start_buf, start_within, start_cap⟩ := start_wrote (items_before fits)
  obtain ⟨wrote, short⟩ := items_wrote start_within start_cap fits
  have buf_eq := wrote.buf
  rw [start_buf] at buf_eq
  have head_length := header_length dst_length src_length type seq 0
  have buf_length := congrArg List.length buf_eq
  rw [List.length_append, head_length] at buf_length
  have within := wrote.within start_within
  have total : ((start cap dst src type seq).items is).buf.length - ethHdrLen - hdrLen =
      (is.flatMap Item.bytes).length := by
    simp only [ethHdrLen, hdrLen]
    omega
  have small : (is.flatMap Item.bytes).length < 65536 := by
    simp only [maxFrame] at start_cap
    omega
  rw [total, patch_header dst_length src_length buf_eq] at frame_eq
  refine ⟨?_, short⟩
  rw [frame_eq, pad, List.append_assoc, List.append_assoc]
  exact parse_header dst_length src_length type seq small (items_chain short) _

end Writer

/-- Writing and reading are inverse.  A finished frame, whatever padding is behind it, parses to its headers
and to the fields that were written, in order, and a nested field's value to those written into it.  The
reader takes no byte outside the frame, whatever the frame is, and comes to an end; every field it gives
lies inside.  A call that does not fit sticks: nothing is finished after it. -/
theorem codec_inverse (cap : Nat) (frame : List Byte) :
    (∀ dst src type seq (is : List Item), dst.length = 6 → src.length = 6 →
      ((Writer.start cap dst src type seq).items is).finish = some frame → ∀ padding,
      ∃ m, parse (frame ++ padding) = .ok m ∧ m.dst = dst ∧ m.src = src ∧ m.type = type ∧ m.seq = seq ∧
        readFields (Tlv.fields m.body) = is.map (fun i => (i.tag, i.value)) ∧
        ∀ tag fields, Item.nest tag fields ∈ is → readFields (Tlv.fields (chainOf fields)) = fields) ∧
    (readParse frame = some (parse frame) ∧
      ∀ pos left, pos + left ≤ frame.length →
        Iter.drain frame ⟨pos, left⟩ = some ((Tlv.fields (slice frame pos left)).map (Tlv.Field.shift pos)) ∧
        ∀ field ∈ (Tlv.fields (slice frame pos left)).map (Tlv.Field.shift pos),
          pos ≤ field.pos ∧ field.pos + field.val.length ≤ pos + left ∧
            field.val = slice frame field.pos field.val.length) ∧
    ∀ (w : Writer) call calls, call ≠ .nestEnd → w.Overflows call → ((w.call call).calls calls).finish = none := by
  refine ⟨?_, ⟨readParse_eq frame, fun pos left within => ⟨Iter.drain_eq within, ?_⟩⟩, ?_⟩
  · intro dst src type seq is dst_length src_length finished padding
    obtain ⟨parsed, short⟩ := Writer.finish_parses dst_length src_length finished padding
    refine ⟨_, parsed, rfl, rfl, rfl, rfl, readFields_items short, fun tag fields member => ?_⟩
    have small : (chainOf fields).length < 65536 := short _ member
    rw [chainOf_items, readFields_items (chainOf_items_short small), List.map_map]
    exact List.map_id _
  · exact Iter.drain_inside within (Iter.drain_eq within)
  · intro w call calls writes overflows
    exact Writer.finish_over (Writer.calls_over (Writer.call_overflows overflows writes) calls)

/-- A frame of two fields in a buffer of its size, and a field for which there is no more room. -/
theorem codec_inverse_sample :
    let written := (Writer.start 60 [2, 0, 0, 0, 0, 1] [2, 0, 0, 0, 0, 2] MsgType.scan 5).items
      [.field Tag.channel [6], .nest Tag.ap [(Tag.rssi, [0xc0])]]
    ∃ frame m, written.finish = some frame ∧ parse (frame ++ zeros 4) = .ok m ∧
      readFields (Tlv.fields m.body) = [(Tag.channel, [6]), (Tag.ap, Tlv.put Tag.rssi [0xc0])] ∧
      ((written.call (.put Tag.message (zeros 100))).calls [.put Tag.state [0]]).finish = none := by
  intro written
  have finishes : written.finish.isSome = true := by decide +kernel
  obtain ⟨frame, finished⟩ := Option.isSome_iff_exists.mp finishes
  obtain ⟨reads, -, sticks⟩ := codec_inverse 60 frame
  obtain ⟨m, parsed, -, -, -, -, fields, -⟩ := reads _ _ MsgType.scan 5 _ rfl rfl finished (zeros 4)
  refine ⟨frame, m, finished, parsed, fields, sticks written _ _ (by decide) (.inr ?_)⟩
  decide +kernel

end BenchPod.Bwp
