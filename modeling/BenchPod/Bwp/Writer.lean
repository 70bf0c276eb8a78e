import BenchPod.Bwp.Frame

/-!
# The codec's writer

Fields are written one after the other into a bounded buffer; an overflow sticks.  What is written,
signed and finished is read back and verified, and what verifies is covered by its MAC.
-/

namespace BenchPod.Bwp

/-- A frame being written. -/
structure Writer where
  buf : List Byte := []
  cap : Nat
  /-- Where the length of an open nested field goes, or 0. -/
  nestAt : Nat := 0
  overflow : Bool := false

namespace Writer

/-- Write bytes when they fit. -/
def reserve (w : Writer) (bytes : List Byte) : Writer :=
  if w.overflow = true ∨ w.buf.length + bytes.length > w.cap then { w with overflow := true }
  else { w with buf := w.buf ++ bytes }

/-- Overwrite a two-byte number. -/
def patch (w : Writer) (pos value : Nat) : Writer :=
  { w with
    buf := w.buf.take pos ++ (Endian.be16 (BitVec.ofNat 16 value) ++ w.buf.drop (pos + 2)) }

/-- Start a frame; its body length is filled in at the end. -/
def start (cap : Nat) (dst src : List Byte) (type : Byte) (seq : Half) : Writer :=
  reserve { cap := if cap > maxFrame then maxFrame else cap } (header dst src type seq 0)

def put (w : Writer) (tag : Byte) (val : List Byte) : Writer :=
  if val.length > 0xffff then { w with overflow := true } else w.reserve (Tlv.put tag val)

def nestBegin (w : Writer) (tag : Byte) : Writer :=
  let reserved := w.reserve [tag, 0, 0]
  if reserved.overflow then reserved else { reserved with nestAt := reserved.buf.length - 2 }

def nestEnd (w : Writer) : Writer :=
  let closed :=
    if w.overflow = false ∧ w.nestAt ≠ 0 then w.patch w.nestAt (w.buf.length - w.nestAt - 2) else w
  { closed with nestAt := 0 }

/-- The finished frame, or none when something did not fit. -/
def finish (w : Writer) : Option (List Byte) :=
  if w.overflow then none
  else
    let framed := w.patch 20 (w.buf.length - ethHdrLen - hdrLen)
    if framed.buf.length < minFrame then
      if framed.cap < minFrame then none
      else some (framed.buf ++ zeros (minFrame - framed.buf.length))
    else some framed.buf

/-- Sign what is written with a counter. -/
def sign (prims : Primitives) (w : Writer) (key nonce : List Byte) (counter : Word) : Writer :=
  let counted := w.put Tag.counter (Endian.be32 counter)
  if counted.overflow = true ∨ counted.buf.length + 3 + 16 > counted.cap then
    { counted with overflow := true }
  else
    let framed := counted.patch 20 (counted.buf.length + 3 + 16 - ethHdrLen - hdrLen)
    framed.put Tag.auth (prims.authMac key nonce (framed.buf.drop ethHdrLen))

end Writer

/-- What is written between the headers and the signature. -/
inductive Item where
  | field (tag : Byte) (val : List Byte)
  /-- A field whose value is written field by field. -/
  | nest (tag : Byte) (fields : List (Byte × List Byte))

def Item.tag : Item → Byte
  | .field tag _ => tag
  | .nest tag _ => tag

/-- The bytes of fields one after the other. -/
def chainOf (fields : List (Byte × List Byte)) : List Byte := fields.flatMap fun field => Tlv.put field.1 field.2

def Item.value : Item → List Byte
  | .field _ val => val
  | .nest _ fields => chainOf fields

def Item.bytes (item : Item) : List Byte := Tlv.put item.tag item.value

namespace Writer

def puts (w : Writer) (fields : List (Byte × List Byte)) : Writer :=
  fields.foldl (fun w field => w.put field.1 field.2) w

def item (w : Writer) : Item → Writer
  | .field tag val => w.put tag val
  | .nest tag fields => ((w.nestBegin tag).puts fields).nestEnd

def items (w : Writer) (items : List Item) : Writer := items.foldl item w

variable {w : Writer}

/-- A write that fits. -/
structure Wrote (w after : Writer) (bytes : List Byte) : Prop where
  before : w.overflow = false
  buf : after.buf = w.buf ++ bytes
  cap : after.cap = w.cap
  within : w.buf.length ≤ w.cap → after.buf.length ≤ w.cap

theorem reserve_wrote {bytes : List Byte} (fits : (w.reserve bytes).overflow = false) :
    Wrote w (w.reserve bytes) bytes ∧ (w.reserve bytes).nestAt = w.nestAt := by
  unfold reserve at fits ⊢
  split at fits
  · cases fits
  · rename_i room
    rw [if_neg room]
    simp only [not_or, Bool.not_eq_true, Nat.not_lt] at room
    refine ⟨⟨room.1, rfl, rfl, fun _ => ?_⟩, rfl⟩
    rw [List.length_append]
    exact room.2

theorem put_wrote {tag : Byte} {val : List Byte} (fits : (w.put tag val).overflow = false) :
    Wrote w (w.put tag val) (Tlv.put tag val) ∧ (w.put tag val).nestAt = w.nestAt ∧ val.length < 65536 := by
  unfold put at fits ⊢
  split at fits
  · cases fits
  · rename_i short
    rw [if_neg short]
    obtain ⟨wrote, nest⟩ := reserve_wrote fits
    exact ⟨wrote, nest, by omega⟩

theorem reserve_room {bytes : List Byte} (before : w.overflow = false)
    (within : w.buf.length + bytes.length ≤ w.cap) :
    w.reserve bytes = { w with buf := w.buf ++ bytes } := by
  rw [reserve, if_neg]
  rw [not_or, Bool.not_eq_true, Nat.not_lt]
  exact ⟨before, within⟩

theorem put_room {tag : Byte} {val : List Byte} (before : w.overflow = false)
    (short : val.length ≤ 0xffff) (within : w.buf.length + (val.length + 3) ≤ w.cap) :
    w.put tag val = { w with buf := w.buf ++ Tlv.put tag val } := by
  rw [put, if_neg (Nat.not_lt.mpr short), reserve_room before (by rwa [Tlv.put_length])]

theorem Wrote.refl (before : w.overflow = false) : Wrote w w [] := ⟨before, (List.append_nil _).symm, rfl, id⟩

theorem Wrote.trans {middle after : Writer} {front back : List Byte} (first : Wrote w middle front)
    (second : Wrote middle after back) : Wrote w after (front ++ back) := by
  refine ⟨first.before, ?_, second.cap.trans first.cap, fun within => ?_⟩
  · rw [second.buf, first.buf, List.append_assoc]
  · rw [← first.cap]
    refine second.within ?_
    rw [first.cap]
    exact first.within within

theorem puts_wrote {fields : List (Byte × List Byte)} (fits : (w.puts fields).overflow = false) :
    Wrote w (w.puts fields) (chainOf fields) ∧ (w.puts fields).nestAt = w.nestAt ∧ Tlv.Valid (chainOf fields) := by
  induction fields generalizing w with
  | nil => exact ⟨.refl fits, rfl, .nil⟩
  | cons field fields ih =>
    obtain ⟨rest, nest, chain⟩ := ih fits
    obtain ⟨first, nest_first, short⟩ := put_wrote rest.before
    refine ⟨first.trans rest, nest.trans nest_first, ?_⟩
    exact .field field.1 short chain

theorem nestEnd_overflow : w.nestEnd.overflow = w.overflow := by
  simp only [nestEnd]
  split <;> rfl

theorem nestBegin_wrote {tag : Byte} (fits : (w.nestBegin tag).overflow = false) :
    Wrote w (w.nestBegin tag) [tag, 0, 0] ∧ (w.nestBegin tag).nestAt = w.buf.length + 1 := by
  unfold nestBegin at fits ⊢
  simp only at fits ⊢
  split at fits
  · rename_i past
    exact absurd (past.symm.trans fits) (by decide)
  · rename_i room
    rw [if_neg room]
    obtain ⟨wrote, _⟩ := reserve_wrote (Bool.not_eq_true _ ▸ room)
    refine ⟨⟨wrote.before, wrote.buf, wrote.cap, wrote.within⟩, ?_⟩
    have length := congrArg List.length wrote.buf
    rw [List.length_append] at length
    simp only [length, List.length_cons, List.length_nil]
    omega

/-- A nested field is written as one field. -/
theorem nest_wrote {tag : Byte} {fields : List (Byte × List Byte)}
    (within : w.buf.length ≤ w.cap) (cap_le : w.cap ≤ maxFrame)
    (fits : (((w.nestBegin tag).puts fields).nestEnd).overflow = false) :
    Wrote w ((w.nestBegin tag).puts fields).nestEnd (Tlv.put tag (chainOf fields)) ∧ (chainOf fields).length < 65536 := by
  have inner_fits := nestEnd_overflow.symm.trans fits
  obtain ⟨inner, nest, _⟩ := puts_wrote inner_fits
  obtain ⟨began, nest_began⟩ := nestBegin_wrote inner.before
  have whole := began.trans inner
  have short : (chainOf fields).length < 65536 := by
    have bound := whole.within within
    rw [whole.buf] at bound
    simp only [List.length_append, List.length_cons, maxFrame] at bound cap_le
    omega
  have closed : ((w.nestBegin tag).puts fields).nestEnd =
      { ((w.nestBegin tag).puts fields).patch (w.buf.length + 1) (chainOf fields).length with
        nestAt := 0 } := by
    have length : ((w.nestBegin tag).puts fields).buf.length - (w.buf.length + 1) - 2 = (chainOf fields).length := by
      rw [whole.buf]
      simp only [List.length_append, List.length_cons, List.length_nil]
      omega
    rw [nestEnd, nest, nest_began, if_pos ⟨inner_fits, Nat.succ_ne_zero _⟩, length]
  have patched : (((w.nestBegin tag).puts fields).patch (w.buf.length + 1)
      (chainOf fields).length).buf = w.buf ++ Tlv.put tag (chainOf fields) := by
    rw [patch, whole.buf]
    simp only
    rw [List.take_append, List.take_of_length_le (Nat.le_succ _), Nat.add_sub_cancel_left,
      List.drop_append, List.drop_eq_nil_of_le (by omega), List.nil_append]
    have skip : w.buf.length + 1 + 2 - w.buf.length = 3 := by omega
    rw [skip, List.append_assoc]
    rfl
  rw [closed]
  refine ⟨⟨whole.before, patched, whole.cap, fun within => ?_⟩, short⟩
  change (((w.nestBegin tag).puts fields).patch (w.buf.length + 1) (chainOf fields).length).buf.length ≤ _
  have bound := whole.within within
  rw [whole.buf] at bound
  rw [patched]
  simp only [List.length_append, List.length_cons, List.length_nil, Tlv.put_length] at bound ⊢
  omega

theorem item_wrote {i : Item} (within : w.buf.length ≤ w.cap) (cap_le : w.cap ≤ maxFrame)
    (fits : (w.item i).overflow = false) :
    Wrote w (w.item i) i.bytes ∧ i.value.length < 65536 := by
  cases i with
  | field tag val =>
    obtain ⟨wrote, _, short⟩ := put_wrote fits
    exact ⟨wrote, short⟩
  | nest tag fields => exact nest_wrote within cap_le fits

theorem item_before {i : Item} (fits : (w.item i).overflow = false) : w.overflow = false := by
  cases i with
  | field tag val => exact (put_wrote fits).1.before
  | nest tag fields =>
    have inner_fits := nestEnd_overflow.symm.trans fits
    exact (nestBegin_wrote (puts_wrote inner_fits).1.before).1.before

theorem items_before {is : List Item} (fits : (w.items is).overflow = false) : w.overflow = false := by
  induction is generalizing w with
  | nil => exact fits
  | cons i is ih => exact item_before (ih fits)

theorem items_wrote {is : List Item} (within : w.buf.length ≤ w.cap) (cap_le : w.cap ≤ maxFrame)
    (fits : (w.items is).overflow = false) :
    Wrote w (w.items is) (is.flatMap Item.bytes) ∧ ∀ i ∈ is, i.value.length < 65536 := by
  induction is generalizing w with
  | nil =>
    refine ⟨.refl fits, ?_⟩
    intro i member
    cases member
  | cons i is ih =>
    have fits_first : (w.item i).overflow = false := items_before fits
    obtain ⟨first, short⟩ := item_wrote within cap_le fits_first
    have within_first : (w.item i).buf.length ≤ (w.item i).cap := by
      rw [first.cap]
      exact first.within within
    obtain ⟨rest, shorts⟩ := ih within_first (by rwa [first.cap]) fits
    refine ⟨first.trans rest, ?_⟩
    intro j member
    obtain rfl | later := List.mem_cons.mp member
    · exact short
    · exact shorts j later

end Writer

theorem items_chain {is : List Item} (short : ∀ i ∈ is, i.value.length < 65536) : Tlv.Valid (is.flatMap Item.bytes) := by
  induction is with
  | nil => exact .nil
  | cons i is ih =>
    rw [List.flatMap_cons]
    exact .field i.tag (short i (List.mem_cons_self ..)) (ih fun j member => short j (List.mem_cons_of_mem _ member))

theorem items_tags {is : List Item} (short : ∀ i ∈ is, i.value.length < 65536) :
    ∀ field ∈ Tlv.fields (is.flatMap Item.bytes), ∃ i ∈ is, field.tag = i.tag := by
  induction is with
  | nil => simp
  | cons i is ih =>
    intro field member
    rw [List.flatMap_cons, Item.bytes, Tlv.fields_put (short i (List.mem_cons_self ..))] at member
    obtain rfl | later := List.mem_cons.mp member
    · exact ⟨i, List.mem_cons_self .., rfl⟩
    · obtain ⟨inner, inner_mem, rfl⟩ := List.mem_map.mp later
      obtain ⟨j, j_mem, tag_eq⟩ := ih (fun j member => short j (List.mem_cons_of_mem _ member)) inner inner_mem
      exact ⟨j, List.mem_cons_of_mem _ j_mem, tag_eq⟩

namespace Writer

variable {w : Writer} {dst src : List Byte}

theorem start_wrote {cap : Nat} {type : Byte} {seq : Half}
    (fits : (start cap dst src type seq).overflow = false) :
    (start cap dst src type seq).buf = header dst src type seq 0 ∧
      (start cap dst src type seq).buf.length ≤ (start cap dst src type seq).cap ∧
      (start cap dst src type seq).cap ≤ maxFrame := by
  obtain ⟨wrote, _⟩ := reserve_wrote fits
  refine ⟨wrote.buf, ?_, ?_⟩
  · refine Nat.le_trans (wrote.within (Nat.zero_le _)) (Nat.le_of_eq wrote.cap.symm)
  · refine Nat.le_trans (Nat.le_of_eq wrote.cap) ?_
    change (if cap > maxFrame then maxFrame else cap) ≤ maxFrame
    split <;> omega

theorem patch_header (dst_length : dst.length = 6) (src_length : src.length = 6) {type : Byte}
    {seq old : Half} {body : List Byte} (buf_eq : w.buf = header dst src type seq old ++ body)
    (value : Nat) :
    (w.patch 20 value).buf = header dst src type seq (BitVec.ofNat 16 value) ++ body := by
  obtain ⟨front, front_length, front_eq⟩ : ∃ front : List Byte, front.length = 20 ∧
      ∀ len, header dst src type seq len = front ++ Endian.be16 len := by
    refine ⟨dst ++ (src ++ (Endian.be16 ethertype ++ ([magic0, magic1, version, type] ++
      Endian.be16 seq))), ?_, fun len => ?_⟩
    · simp only [List.length_append, dst_length, src_length, Endian.be16_length, List.length_cons, List.length_nil]
    · simp only [header, List.append_assoc]
  rw [patch, buf_eq, front_eq, front_eq]
  simp only
  rw [List.append_assoc, List.append_assoc, ← front_length, List.take_left,
    ← List.drop_drop, List.drop_left, List.drop_left' (Endian.be16_length _)]

theorem finish_some {frame : List Byte} (finished : w.finish = some frame) :
    w.overflow = false ∧ frame = pad (w.patch 20 (w.buf.length - ethHdrLen - hdrLen)).buf := by
  simp only [finish] at finished
  split at finished
  · cases finished
  · rename_i fits
    refine ⟨Bool.not_eq_true _ ▸ fits, ?_⟩
    split at finished
    · split at finished
      · cases finished
      · exact (Option.some.inj finished).symm
    · rename_i long
      have none_left : minFrame - (w.patch 20 (w.buf.length - ethHdrLen - hdrLen)).buf.length = 0 := by omega
      rw [pad, none_left]
      exact ((List.append_nil _).trans (Option.some.inj finished)).symm

theorem sign_room {prims : Primitives} {key nonce : List Byte} {counter : Word}
    (fits : (w.sign prims key nonce counter).overflow = false) :
    w.overflow = false ∧ w.buf.length + trailerLen ≤ w.cap := by
  simp only [sign] at fits
  split at fits
  · cases fits
  · rename_i room
    simp only [not_or, Bool.not_eq_true, Nat.not_lt] at room
    obtain ⟨counted, _⟩ := put_wrote room.1
    refine ⟨counted.before, ?_⟩
    have bound := room.2
    rw [counted.cap, counted.buf, List.length_append, Tlv.put_length, Endian.be32_length] at bound
    simp only [trailerLen]
    omega

/-- Where there is room, signing appends the counter and the MAC of what is written with its final
length. -/
theorem sign_wrote {prims : Primitives} {key nonce : List Byte} {counter : Word} {type : Byte}
    {seq old : Half} {body : List Byte} (dst_length : dst.length = 6) (src_length : src.length = 6)
    (buf_eq : w.buf = header dst src type seq old ++ body) (before : w.overflow = false)
    (room : w.buf.length + trailerLen ≤ w.cap) :
    let head := header dst src type seq (BitVec.ofNat 16 (body.length + trailerLen))
    let mac := prims.authMac key nonce (head.drop ethHdrLen ++ (body ++ counterField counter))
    let signed := w.sign prims key nonce counter
    signed.overflow = false ∧ signed.cap = w.cap ∧
      signed.buf = head ++ (body ++ (counterField counter ++ Tlv.put Tag.auth mac)) := by
  intro head mac signed
  have head_length : head.length = 22 := header_length dst_length src_length _ _ _
  have buf_length : w.buf.length = 22 + body.length := by
    rw [buf_eq, List.length_append, header_length dst_length src_length]
  simp only [trailerLen] at room
  have field_length : (counterField counter).length = 7 := Draft.counterField_length counter
  have counted : w.put Tag.counter (Endian.be32 counter) = { w with buf := w.buf ++ counterField counter } := by
    refine put_room before ?_ ?_
    · rw [Endian.be32_length]
      decide
    · rw [Endian.be32_length]
      omega
  have total : (w.buf ++ counterField counter).length + 3 + 16 - ethHdrLen - hdrLen = body.length + trailerLen := by
    rw [List.length_append, field_length, buf_length]
    simp only [ethHdrLen, hdrLen, trailerLen]
    omega
  have framed : ({ w with buf := w.buf ++ counterField counter }.patch 20
      (body.length + trailerLen)).buf = head ++ (body ++ counterField counter) := by
    have counted_buf : ({ w with buf := w.buf ++ counterField counter } : Writer).buf =
        header dst src type seq old ++ (body ++ counterField counter) := by
      rw [← List.append_assoc, ← buf_eq]
    exact patch_header dst_length src_length counted_buf _
  have covered : (head ++ (body ++ counterField counter)).drop ethHdrLen =
      head.drop ethHdrLen ++ (body ++ counterField counter) := by
    refine List.drop_append_of_le_length ?_
    rw [head_length]
    decide
  have fits : ¬ (w.overflow = true ∨ (w.buf ++ counterField counter).length + 3 + 16 > w.cap) := by
    rw [before, List.length_append, field_length]
    simp only [Bool.false_eq_true, false_or, gt_iff_lt, Nat.not_lt]
    omega
  have signed_eq : signed = ({ w with buf := w.buf ++ counterField counter }.patch 20 (body.length + trailerLen)).put
        Tag.auth mac := by
    simp only [signed, sign, counted]
    rw [if_neg fits, total, framed, covered]
  have mac_length : mac.length = 16 := prims.authMac_length ..
  rw [signed_eq]
  generalize patched_eq : { w with buf := w.buf ++ counterField counter }.patch 20
    (body.length + trailerLen) = patched at framed
  have patched_before : patched.overflow = false := by
    rw [← patched_eq]
    exact before
  have patched_cap : patched.cap = w.cap := by
    rw [← patched_eq]
    rfl
  rw [put_room patched_before (by rw [mac_length]; decide)]
  · refine ⟨patched_before, patched_cap, ?_⟩
    simp only
    rw [framed, List.append_assoc, List.append_assoc]
  · rw [framed, mac_length, patched_cap, List.length_append, List.length_append, field_length, head_length]
    omega

theorem finish_sign {prims : Primitives} {key nonce : List Byte} {counter : Word} {draft : Draft}
    (buf_eq : w.buf = header draft.dst draft.src draft.type draft.seq 0 ++ draft.body)
    {frame : List Byte} (finished : (w.sign prims key nonce counter).finish = some frame) :
    frame = draft.signed prims key nonce counter := by
  obtain ⟨fits, frame_eq⟩ := finish_some finished
  obtain ⟨before, room⟩ := sign_room fits
  obtain ⟨_, _, signed_eq⟩ := sign_wrote draft.dst_length draft.src_length buf_eq before room
  change _ = draft.head (draft.body.length + trailerLen) ++ draft.signedBody prims key nonce counter at signed_eq
  have total : (w.sign prims key nonce counter).buf.length - ethHdrLen - hdrLen = draft.body.length + trailerLen := by
    rw [signed_eq, List.length_append, Draft.head_length, Draft.signedBody_length]
    simp only [ethHdrLen, hdrLen]
    omega
  rw [frame_eq, total, patch_header draft.dst_length draft.src_length signed_eq]
  rfl

theorem written_draft {cap : Nat} {type : Byte} {seq : Half} {is : List Item}
    {prims : Primitives} {key nonce : List Byte} {counter : Word}
    (dst_length : dst.length = 6) (src_length : src.length = 6)
    (unsigned : ∀ i ∈ is, i.tag ≠ Tag.counter ∧ i.tag ≠ Tag.auth)
    (fits : (((start cap dst src type seq).items is).sign prims key nonce counter).overflow = false) :
    ∃ draft : Draft, draft.dst = dst ∧ draft.src = src ∧ draft.type = type ∧ draft.seq = seq ∧
      draft.body = is.flatMap Item.bytes ∧
      ((start cap dst src type seq).items is).buf = header dst src type seq 0 ++ draft.body := by
  obtain ⟨written, room⟩ := sign_room fits
  obtain ⟨start_buf, start_within, start_cap⟩ := start_wrote (items_before written)
  obtain ⟨items, short⟩ := items_wrote start_within start_cap written
  have buf_eq := items.buf
  rw [start_buf] at buf_eq
  rw [buf_eq, items.cap, List.length_append, header_length dst_length src_length] at room
  have fits : (is.flatMap Item.bytes).length + trailerLen ≤ maxFrame - ethHdrLen - hdrLen := by
    simp only [maxFrame, ethHdrLen, hdrLen] at start_cap ⊢
    omega
  have unsigned : ∀ field ∈ Tlv.fields (is.flatMap Item.bytes), field.tag ≠ Tag.counter ∧ field.tag ≠ Tag.auth := by
    intro field member
    obtain ⟨i, i_mem, tag_eq⟩ := items_tags short field member
    rw [tag_eq]
    exact unsigned i i_mem
  exact ⟨⟨dst, src, type, seq, is.flatMap Item.bytes, dst_length, src_length, fits,
    items_chain short, unsigned⟩, rfl, rfl, rfl, rfl, rfl, buf_eq⟩

end Writer

/-- What the MAC of an accepted frame covers: the frame from its magic on, up to the MAC. -/
structure Covered (prims : Primitives) (key nonce frame : List Byte) (m : Msg) (counter : Word)
    (covered front : List Byte) : Prop where
  bytes : covered = slice frame ethHdrLen (hdrLen + front.length)
  length : covered.length = hdrLen + front.length
  type : covered.getD 3 0 = m.type
  seq : Endian.getBe16 (slice covered 4 2) = m.seq
  /-- The one MAC comes last. -/
  fields : Tlv.fields m.body = Tlv.fields front ++ [⟨Tag.auth, front.length + 3, prims.authMac key nonce covered⟩]
  unsigned : ∀ field ∈ Tlv.fields front, field.tag ≠ Tag.auth
  /-- Every other field lies in what is covered. -/
  inside : ∀ field ∈ Tlv.fields front,
    hdrLen + field.pos + field.val.length ≤ covered.length ∧
      slice covered (hdrLen + field.pos) field.val.length = field.val
  found : ∀ tag, tag ≠ Tag.auth → Tlv.find m.body tag = Tlv.find front tag
  counter : getU32 m.body Tag.counter = some counter

theorem slice_slice {frame : List Byte} {start total skip count : Nat}
    (within : skip + count ≤ total) :
    slice (slice frame start total) skip count = slice frame (start + skip) count := by
  rw [slice, slice, slice, List.drop_take, List.drop_drop, List.take_take, Nat.min_eq_left (by omega)]

theorem covered_of_accepted {prims : Primitives} {key nonce frame : List Byte} {m : Msg}
    {counter : Word} (parsed : parse frame = .ok m)
    (accepted : verify prims frame m key nonce = .ok counter) :
    ∃ covered front, Covered prims key nonce frame m counter covered front := by
  have frame_of := parse_ok parsed
  obtain ⟨read, front, chain, unsigned, body_eq⟩ := verify_ok frame_of.chain accepted
  have mac_length := prims.authMac_length key nonce (slice frame ethHdrLen (hdrLen + front.length))
  have body_length : m.body.length = front.length + 19 := by
    rw [body_eq, List.length_append, Tlv.put_length, mac_length]
  have inside := frame_of.inside
  have length : (slice frame ethHdrLen (hdrLen + front.length)).length = hdrLen + front.length := by
    rw [slice, List.length_take, List.length_drop]
    simp only [ethHdrLen, hdrLen] at inside ⊢
    omega
  have front_eq : slice (slice frame ethHdrLen (hdrLen + front.length)) hdrLen front.length =
      front := by
    rw [slice_slice (by omega)]
    have body := frame_of.body
    rw [body_length, body_eq] at body
    have taken := congrArg (List.take front.length) body
    rw [List.take_left, slice, List.take_take, Nat.min_eq_left (by omega)] at taken
    exact taken.symm
  refine ⟨_, front, ⟨rfl, length, ?_, ?_, ?_, unsigned, ?_, ?_, read⟩⟩
  · rw [frame_of.type]
    simp only [slice, List.getD_eq_getElem?_getD, List.getElem?_take, List.getElem?_drop, ethHdrLen, hdrLen]
    rw [if_pos (by omega)]
  · rw [frame_of.seq, slice_slice (by simp only [hdrLen]; omega)]
    rfl
  · have last : Tlv.fields (Tlv.put Tag.auth (prims.authMac key nonce (slice frame ethHdrLen (hdrLen + front.length)))) =
          [⟨Tag.auth, 3, prims.authMac key nonce (slice frame ethHdrLen (hdrLen + front.length))⟩] := by
      rw [← List.append_nil (Tlv.put _ _), Tlv.fields_put (by rw [mac_length]; decide)]
      rfl
    rw [body_eq, Tlv.fields_append chain, last]
    rfl
  · intro field member
    obtain ⟨within, value⟩ := chain.inside field member
    refine ⟨by rw [length]; omega, ?_⟩
    have inner : slice front field.pos field.val.length = field.val := value
    rw [← front_eq, slice_slice within] at inner
    exact inner
  · intro tag other
    have last : Tlv.find [] tag = none := rfl
    rw [body_eq, Tlv.find_append chain, ← List.append_nil (Tlv.put _ _),
      Tlv.find_put (by rw [mac_length]; decide), beq_eq_false_iff_ne.mpr other.symm,
      if_neg Bool.false_ne_true, last, Option.or_none]

/-- Of an accepted frame nothing can be read but the MAC itself and what it covers, type and sequence
number included; and what is written, signed and finished is accepted with its counter. -/
theorem mac_covers (prims : Primitives) (key nonce : List Byte) :
    (∀ frame m counter, parse frame = .ok m → verify prims frame m key nonce = .ok counter →
      ∃ covered front, Covered prims key nonce frame m counter covered front) ∧
    (∀ cap dst src type seq (is : List Item) counter frame, dst.length = 6 → src.length = 6 →
      (∀ i ∈ is, i.tag ≠ Tag.counter ∧ i.tag ≠ Tag.auth) →
      (((Writer.start cap dst src type seq).items is).sign prims key nonce counter).finish =
        some frame →
      ∃ m, parse frame = .ok m ∧ m.dst = dst ∧ m.src = src ∧ m.type = type ∧ m.seq = seq ∧
        verify prims frame m key nonce = .ok counter) := by
  refine ⟨fun frame m counter parsed accepted => covered_of_accepted parsed accepted, ?_⟩
  intro cap dst src type seq is counter frame dst_length src_length unsigned finished
  obtain ⟨draft, rfl, rfl, rfl, rfl, _, buf_eq⟩ :=
    Writer.written_draft dst_length src_length unsigned (Writer.finish_some finished).1
  obtain rfl := Writer.finish_sign buf_eq finished
  exact ⟨_, draft.parse_signed prims key nonce counter, rfl, rfl, rfl, rfl,
    draft.verify_signed prims key nonce counter rfl⟩

theorem mac_covers_sample :
    let written := (Writer.start maxFrame [2, 0, 0, 0, 0, 1] [2, 0, 0, 0, 0, 2] MsgType.scan 5).items
      [.field Tag.channel [6], .nest Tag.ap [(Tag.rssi, [0xc0])]]
    ∃ frame m, (written.sign samplePrimitives [1] [2] 7).finish = some frame ∧
      parse frame = .ok m ∧ m.seq = 5 ∧ verify samplePrimitives frame m [1] [2] = .ok 7 ∧
      ∃ covered front, Covered samplePrimitives [1] [2] frame m 7 covered front := by
  intro written
  obtain ⟨reads, accepts⟩ := mac_covers samplePrimitives [1] [2]
  have finishes : ((written.sign samplePrimitives [1] [2] 7).finish).isSome = true := by decide +kernel
  obtain ⟨frame, finished⟩ := Option.isSome_iff_exists.mp finishes
  obtain ⟨m, parsed, _, _, _, seq, verified⟩ :=
    accepts maxFrame _ _ MsgType.scan 5 _ 7 frame rfl rfl (by decide) finished
  exact ⟨frame, m, finished, parsed, seq, verified, reads frame m 7 parsed verified⟩

end BenchPod.Bwp
