import BenchPod.Bwp.Client
import BenchPod.Bwp.Writer

/-!
# The pod's sender and the bridge's codec

The pod puts its frames together by hand.  They are the frames the bridge's writer makes of the same
fields, so the bridge reads them and accepts their signature.
-/

namespace BenchPod.Bwp

namespace Writer

variable {w : Writer} {dst src : List Byte}

theorem puts_room {fields : List (Byte × List Byte)} (before : w.overflow = false)
    (short : (chainOf fields).length ≤ 0xffff)
    (within : w.buf.length + (chainOf fields).length ≤ w.cap) :
    w.puts fields = { w with buf := w.buf ++ chainOf fields } := by
  induction fields generalizing w with
  | nil => simp [puts, chainOf]
  | cons field fields ih =>
    have chain_eq : chainOf (field :: fields) = Tlv.put field.1 field.2 ++ chainOf fields := rfl
    rw [chain_eq, List.length_append, Tlv.put_length] at short within
    have first : w.put field.1 field.2 = { w with buf := w.buf ++ Tlv.put field.1 field.2 } :=
      put_room before (by omega) (by omega)
    have left : (w.buf ++ Tlv.put field.1 field.2).length + (chainOf fields).length ≤ w.cap := by
      rw [List.length_append, Tlv.put_length]
      omega
    have rest := ih (w := { w with buf := w.buf ++ Tlv.put field.1 field.2 }) before (by omega) left
    calc
      w.puts (field :: fields) = (w.put field.1 field.2).puts fields := rfl
      _ = _ := by rw [first, rest, chain_eq, List.append_assoc]

theorem start_room {cap : Nat} (dst_length : dst.length = 6) (src_length : src.length = 6)
    (type : Byte) (seq : Half) (within : 22 ≤ cap) :
    start cap dst src type seq =
      { buf := header dst src type seq 0, cap := if cap > maxFrame then maxFrame else cap } := by
  have length := header_length dst_length src_length type seq 0
  rw [start, reserve_room rfl]
  · rfl
  · rw [length]
    change 0 + 22 ≤ if cap > maxFrame then maxFrame else cap
    split
    · decide
    · omega

theorem start_puts {cap : Nat} {fields : List (Byte × List Byte)} (dst_length : dst.length = 6)
    (src_length : src.length = 6) (type : Byte) (seq : Half) (short : (chainOf fields).length ≤ 0xffff)
    (within : 22 + (chainOf fields).length ≤ if cap > maxFrame then maxFrame else cap) :
    (start cap dst src type seq).puts fields =
      { buf := header dst src type seq 0 ++ chainOf fields
        cap := if cap > maxFrame then maxFrame else cap } := by
  have least : 22 ≤ cap := by
    split at within
    · rename_i capped
      exact Nat.le_trans (by decide) (Nat.le_of_lt capped)
    · omega
  rw [start_room dst_length src_length type seq least, puts_room rfl short]
  change (header dst src type seq 0).length + (chainOf fields).length ≤ _
  rw [header_length dst_length src_length]
  exact within

theorem finish_room {type : Byte} {seq old : Half} {body : List Byte} (dst_length : dst.length = 6)
    (src_length : src.length = 6) (buf_eq : w.buf = header dst src type seq old ++ body)
    (before : w.overflow = false) (within : minFrame ≤ w.cap) :
    w.finish = some (pad (header dst src type seq (BitVec.ofNat 16 body.length) ++ body)) := by
  have total : w.buf.length - ethHdrLen - hdrLen = body.length := by
    rw [buf_eq, List.length_append, header_length dst_length src_length]
    simp only [ethHdrLen, hdrLen]
    omega
  have framed := patch_header dst_length src_length buf_eq body.length
  have fits : ¬ (w.patch 20 body.length).cap < minFrame := Nat.not_lt.mpr within
  simp only [finish]
  rw [before, if_neg Bool.false_ne_true, total, if_neg fits, framed]
  split
  · rfl
  · rename_i long
    rw [pad, Nat.sub_eq_zero_of_le (Nat.le_of_not_lt long), zeros, List.replicate_zero, List.append_nil]

end Writer

theorem chainOf_items (fields : List (Byte × List Byte)) :
    chainOf fields = (fields.map fun field => Item.field field.1 field.2).flatMap Item.bytes := by
  rw [List.flatMap_map]
  rfl

theorem chainOf_short {fields : List (Byte × List Byte)} {field : Byte × List Byte}
    (member : field ∈ fields) : field.2.length ≤ (chainOf fields).length := by
  induction member with
  | head fields =>
    rw [chainOf, List.flatMap_cons, List.length_append, Tlv.put_length]
    omega
  | tail other _ ih =>
    refine Nat.le_trans ih ?_
    rw [chainOf, chainOf, List.flatMap_cons, List.length_append]
    omega

theorem chainOf_items_short {fields : List (Byte × List Byte)}
    (short : (chainOf fields).length < 65536) :
    ∀ i ∈ fields.map fun field => Item.field field.1 field.2, i.value.length < 65536 := by
  intro i member
  obtain ⟨field, field_mem, rfl⟩ := List.mem_map.mp member
  exact Nat.lt_of_le_of_lt (chainOf_short field_mem) short

theorem chainOf_valid {fields : List (Byte × List Byte)} (short : (chainOf fields).length < 65536) :
    Tlv.Valid (chainOf fields) := by
  rw [chainOf_items]
  exact items_chain (chainOf_items_short short)

theorem pad_length (frame : List Byte) : (pad frame).length = max frame.length minFrame := by
  rw [pad, List.length_append, zeros_length]
  omega

namespace Client

variable {prims : Primitives} {b : Client}

/-- The body a request travels with. -/
def sentBody (prims : Primitives) (b : Client) : List Byte :=
  if b.reqSigned then
    let head := header b.mac b.podMac b.reqType b.reqSeq
      (BitVec.ofNat 16 (b.reqBody.length + trailerLen))
    b.reqBody ++ (counterField (b.counter + 1) ++ Tlv.put Tag.auth
      (prims.authMac b.key b.nonce
        (head.drop ethHdrLen ++ (b.reqBody ++ counterField (b.counter + 1)))))
  else b.reqBody

theorem sentBody_length : (b.sentBody prims).length = b.reqBody.length + if b.reqSigned then trailerLen else 0 := by
  unfold sentBody
  cases b.reqSigned
  · rfl
  · simp only [if_true, List.length_append, Draft.counterField_length, Tlv.put_length,
      Primitives.authMac_length, trailerLen]

theorem sendReq_frame (now : Word) :
    (b.sendReq prims now).2.frame =
      pad (header b.mac b.podMac b.reqType b.reqSeq (BitVec.ofNat 16 (b.sentBody prims).length) ++ b.sentBody prims) := by
  rw [sentBody_length]
  unfold sendReq sentBody
  cases b.reqSigned <;> rfl

theorem sentBody_chain (chain : Tlv.Valid b.reqBody) : Tlv.Valid (b.sentBody prims) := by
  unfold sentBody
  split
  · refine chain.append ((Tlv.valid_put ?_).append (Tlv.valid_put ?_))
    · rw [Endian.be32_length]
      decide
    · rw [Primitives.authMac_length]
      decide
  · exact chain

/-- The bridge verifies a signed request. -/
theorem sendReq_verified {fields : List (Byte × List Byte)} (mac_length : b.mac.length = 6)
    (podMac_length : b.podMac.length = 6) (body_eq : b.reqBody = chainOf fields)
    (within : b.reqBody.length ≤ wbBodyMax) (signed : b.reqSigned = true) (now : Word)
    (unsigned : ∀ field ∈ fields, field.1 ≠ Tag.counter ∧ field.1 ≠ Tag.auth) {m : Msg}
    (m_body : m.body = b.sentBody prims) :
    verify prims (b.sendReq prims now).2.frame m b.key b.nonce = .ok (b.counter + 1) := by
  simp only [wbBodyMax, maxFrame, ethHdrLen, hdrLen, trailerLen] at within
  have short : (chainOf fields).length < 65536 := by
    rw [← body_eq]
    omega
  have tags : ∀ read ∈ Tlv.fields b.reqBody, read.tag ≠ Tag.counter ∧ read.tag ≠ Tag.auth := by
    intro read member
    rw [body_eq, chainOf_items] at member
    obtain ⟨i, i_mem, tag_eq⟩ := items_tags (chainOf_items_short short) read member
    obtain ⟨field, field_mem, rfl⟩ := List.mem_map.mp i_mem
    rw [tag_eq]
    exact unsigned field field_mem
  let draft : Draft :=
    { dst := b.mac
      src := b.podMac
      type := b.reqType
      seq := b.reqSeq
      body := b.reqBody
      dst_length := mac_length
      src_length := podMac_length
      fits := by simp only [maxFrame, ethHdrLen, hdrLen, trailerLen]; omega
      chain := body_eq ▸ chainOf_valid short
      unsigned := tags }
  have frame_eq : (b.sendReq prims now).2.frame = draft.signed prims b.key b.nonce (b.counter + 1) := by
    rw [sendReq, if_pos signed, if_pos signed]
    rfl
  rw [frame_eq]
  refine draft.verify_signed prims b.key b.nonce (b.counter + 1) (m_body.trans ?_)
  rw [sentBody, if_pos signed]
  rfl

end Client

/-- For every request the pod sends the frame the bridge's codec writes of the same fields, signs and
finishes; the bridge reads it as that request, and verifies it when it is signed. -/
theorem sender_agrees (prims : Primitives) (b : Client) (now : Word)
    (fields : List (Byte × List Byte)) (cap : Nat) (mac_length : b.mac.length = 6)
    (podMac_length : b.podMac.length = 6) (body_eq : b.reqBody = chainOf fields)
    (within : b.reqBody.length ≤ wbBodyMax)
    (room : (b.sendReq prims now).2.frame.length ≤ cap) :
    let frame := (b.sendReq prims now).2.frame
    let written := (Writer.start cap b.mac b.podMac b.reqType b.reqSeq).puts fields
    (if b.reqSigned then written.sign prims b.key b.nonce (b.counter + 1) else written).finish =
        some frame ∧
      ∃ m, parse frame = .ok m ∧ m.dst = b.mac ∧ m.src = b.podMac ∧ m.type = b.reqType ∧
        m.seq = b.reqSeq ∧ b.reqBody <+: m.body ∧
        (b.reqSigned = true →
          (∀ field ∈ fields, field.1 ≠ Tag.counter ∧ field.1 ≠ Tag.auth) →
          verify prims frame m b.key b.nonce = .ok (b.counter + 1)) := by
  intro frame written
  have short : (chainOf fields).length < 65536 := by
    simp only [wbBodyMax, maxFrame, ethHdrLen, hdrLen, trailerLen] at within
    rw [← body_eq]
    omega
  have chain : Tlv.Valid b.reqBody := body_eq ▸ chainOf_valid short
  have frame_eq : frame = pad (header b.mac b.podMac b.reqType b.reqSeq
      (BitVec.ofNat 16 (b.sentBody prims).length) ++ b.sentBody prims) := b.sendReq_frame now
  have sent_length : (b.sentBody prims).length =
      b.reqBody.length + if b.reqSigned then trailerLen else 0 := b.sentBody_length
  have sent_le : (b.sentBody prims).length ≤ maxFrame - ethHdrLen - hdrLen := by
    simp only [wbBodyMax, maxFrame, ethHdrLen, hdrLen, trailerLen] at within sent_length ⊢
    split at sent_length <;> omega
  have frame_length : frame.length = max (22 + (b.sentBody prims).length) minFrame := by
    rw [frame_eq, pad_length, List.length_append, header_length mac_length podMac_length]
  have frame_ge : 22 + (b.sentBody prims).length ≤ frame.length := by
    rw [frame_length]
    exact Nat.le_max_left ..
  have frame_min : minFrame ≤ frame.length := by
    rw [frame_length]
    exact Nat.le_max_right ..
  have frame_le : frame.length ≤ maxFrame := by
    simp only [maxFrame, ethHdrLen, hdrLen, minFrame] at sent_le frame_length ⊢
    omega
  have room_min : frame.length ≤ if cap > maxFrame then maxFrame else cap := by
    split
    · exact frame_le
    · exact room
  constructor
  · -- the writer: headers, fields, signature, end
    have fields_length : (chainOf fields).length = b.reqBody.length := by rw [body_eq]
    have written_eq : written =
        { buf := header b.mac b.podMac b.reqType b.reqSeq 0 ++ b.reqBody
          cap := if cap > maxFrame then maxFrame else cap } := by
      rw [body_eq]
      exact Writer.start_puts mac_length podMac_length _ _ (by omega) (by omega)
    have buf_length : written.buf.length = 22 + b.reqBody.length := by
      rw [written_eq, List.length_append, header_length mac_length podMac_length]
    have cap_eq : written.cap = if cap > maxFrame then maxFrame else cap := by rw [written_eq]
    rw [← cap_eq] at room_min
    have buf_eq : written.buf = header b.mac b.podMac b.reqType b.reqSeq 0 ++ b.reqBody := by rw [written_eq]
    have before : written.overflow = false := by rw [written_eq]
    rw [frame_eq]
    split
    · rename_i signed
      rw [if_pos signed] at sent_length
      have room_signed : written.buf.length + trailerLen ≤ written.cap := by
        rw [buf_length]
        omega
      obtain ⟨fits, signed_cap, signed_eq⟩ := @Writer.sign_wrote written b.mac b.podMac prims b.key
        b.nonce (b.counter + 1) _ _ _ _ mac_length podMac_length buf_eq before room_signed
      rw [Client.sentBody, if_pos signed]
      refine Writer.finish_room mac_length podMac_length signed_eq fits ?_
      rw [signed_cap]
      omega
    · rename_i unsigned
      rw [Client.sentBody, if_neg unsigned]
      exact Writer.finish_room mac_length podMac_length buf_eq before (by omega)
  · refine ⟨⟨b.mac, b.podMac, b.reqType, b.reqSeq, b.sentBody prims⟩, ?_, rfl, rfl, rfl, rfl, ?_,
      fun signed unsigned => ?_⟩
    · rw [frame_eq, pad, List.append_assoc]
      refine parse_header mac_length podMac_length _ _ ?_ (b.sentBody_chain chain) _
      simp only [maxFrame, ethHdrLen, hdrLen] at sent_le
      omega
    · rw [Client.sentBody]
      split
      · exact List.prefix_append ..
      · exact List.prefix_refl _
    · exact b.sendReq_verified mac_length podMac_length body_eq within signed now unsigned rfl

/-- A signed request in its slot. -/
def sampleSend : Client :=
  { Client.init [2, 0, 0, 0, 0, 2] with
    mac := [2, 0, 0, 0, 0, 1]
    reqType := MsgType.setWifi
    reqSeq := 9
    reqSigned := true
    reqBody := chainOf [(Tag.channel, [6])] }

theorem sender_agrees_sample :
    ∃ m, parse (sampleSend.sendReq samplePrimitives 0).2.frame = .ok m ∧
      m.type = MsgType.setWifi ∧
      verify samplePrimitives (sampleSend.sendReq samplePrimitives 0).2.frame m sampleSend.key
        sampleSend.nonce = .ok (sampleSend.counter + 1) := by
  have room : (sampleSend.sendReq samplePrimitives 0).2.frame.length ≤ maxFrame := by decide +kernel
  obtain ⟨_, m, parsed, _, _, type, _, _, verified⟩ :=
    sender_agrees samplePrimitives sampleSend 0 [(Tag.channel, [6])] maxFrame rfl rfl rfl
      (by decide) room
  exact ⟨m, parsed, type, verified rfl (by decide)⟩

end BenchPod.Bwp
