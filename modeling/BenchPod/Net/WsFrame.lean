import BenchPod.Library.WebSocket
import BenchPod.Net.CloudOrder

/-!
# The frames of the cloud link

The parser looks at a buffer that is still growing.  A verdict other than "more" stands whatever comes
behind; the frames it takes are the whole unmasked messages of at most 65535 bytes, and every other header
is refused.
-/

namespace BenchPod.Cloud

open WebSocket

/-! ## The parser with its reads -/

/-- The end of `ws_parse_frame`, where the payload is in the buffer or not. -/
def parseRest (buf : List Byte) (b0 : Byte) (offset payloadLen : BitVec 64) : Parsed :=
  if buf.length < (offset + payloadLen).toNat then .more
  else .frame (b0 &&& 0x0F) ((buf.drop offset.toNat).take payloadLen.toNat) (offset + payloadLen).toNat

/-- The first bytes behind the second one as one number, most significant first. -/
def readLength (buf : List Byte) (count : Nat) : Option (BitVec 64) :=
  (List.range count).foldlM (fun n i => (buf[2 + i]?).map fun byte => n <<< 8 ||| byte.setWidth 64) 0

/-- `ws_parse_frame` on a buffer whose bytes are read one by one; nothing is behind its end. -/
def wsParseBuffer (buf : List Byte) : Option Parsed :=
  if buf.length < 2 then some .more
  else do
    let b0 ← buf[0]?
    let b1 ← buf[1]?
    if b1 &&& 0x80 ≠ 0 then some .bad
    else if b0 &&& 0x70 ≠ 0 then some .bad
    else if b0 &&& 0x80 = 0 ∨ b0 &&& 0x0F = 0 then some .fragmented
    else if b1 &&& 0x7F = 126 then
      if buf.length < 4 then some .more
      else do
        let high ← buf[2]?
        let low ← buf[3]?
        some (parseRest buf b0 4 (high.setWidth 64 <<< 8 ||| low.setWidth 64))
    else if b1 &&& 0x7F = 127 then
      if buf.length < 10 then some .more
      else do
        let n ← readLength buf 8
        if 0xFFFF < n then some .bad else some (parseRest buf b0 10 n)
    else some (parseRest buf b0 2 ((b1 &&& 0x7F).setWidth 64))

theorem shift_or_byte (value : Nat) (byte : Byte) :
    BitVec.ofNat 64 value <<< 8 ||| byte.setWidth 64 = BitVec.ofNat 64 (byte.toNat + 256 * value) := by
  have apart : BitVec.ofNat 64 value <<< 8 &&& byte.setWidth 64 = 0 := by
    ext i inside
    simp only [BitVec.getElem_and, BitVec.getElem_shiftLeft, BitVec.getElem_setWidth]
    rcases Nat.lt_or_ge i 8 with low | high
    · simp [low]
    · simp [BitVec.getLsbD_of_ge byte i high]
  rw [← BitVec.add_eq_or_of_and_eq_zero _ _ apart]
  apply BitVec.eq_of_toNat_eq
  have fits := byte.isLt
  simp only [BitVec.toNat_add, BitVec.toNat_shiftLeft, BitVec.toNat_ofNat, BitVec.toNat_setWidth]
  omega

theorem beNat_concat (bytes : List Byte) (byte : Byte) :
    Endian.beNat (bytes ++ [byte]) = byte.toNat + 256 * Endian.beNat bytes := by
  simp [Endian.beNat, Endian.leNat]

theorem readLength_eq {b0 b1 : Byte} {rest : List Byte} {count : Nat} (there : count ≤ rest.length) :
    readLength (b0 :: b1 :: rest) count = some (BitVec.ofNat 64 (Endian.beNat (rest.take count))) := by
  induction count with
  | zero => rfl
  | succ count ih =>
    have before := ih (Nat.le_of_succ_le there)
    have read : (b0 :: b1 :: rest)[2 + count]? = some rest[count] := by
      rw [show 2 + count = count + 1 + 1 by omega, List.getElem?_cons_succ, List.getElem?_cons_succ]
      exact List.getElem?_eq_getElem there
    rw [readLength] at before
    rw [readLength, List.range_succ, List.foldlM_append, before]
    simp only [Option.bind_eq_bind, Option.bind_some, List.foldlM_cons, List.foldlM_nil, read, Option.map_some,
      shift_or_byte, Option.pure_def]
    rw [← List.take_append_getElem there, beNat_concat]

theorem parseRest_eq {b0 b1 : Byte} {rest : List Byte} {extra size : Nat} (small : extra ≤ 8)
    (few : size ≤ 0xFFFF) (there : extra ≤ rest.length) :
    parseRest (b0 :: b1 :: rest) b0 (BitVec.ofNat 64 (extra + 2)) (BitVec.ofNat 64 size) =
      parsePayload b0 (extra + 2) size (rest.drop extra) := by
  have offset : (BitVec.ofNat 64 (extra + 2)).toNat = extra + 2 := Nat.mod_eq_of_lt (by omega)
  have payload : (BitVec.ofNat 64 size).toNat = size := Nat.mod_eq_of_lt (by omega)
  have sum : (BitVec.ofNat 64 (extra + 2) + BitVec.ofNat 64 size).toNat = extra + 2 + size := by
    rw [BitVec.toNat_add, offset, payload]
    omega
  have short : (b0 :: b1 :: rest).length < extra + 2 + size ↔ (rest.drop extra).length < size := by
    rw [List.length_cons, List.length_cons, List.length_drop]
    omega
  rw [parseRest, parsePayload, sum, offset, payload]
  simp only [short, List.drop_succ_cons]

theorem beNat_take_lt (bytes : List Byte) (count : Nat) : Endian.beNat (bytes.take count) < 256 ^ count := by
  apply (Endian.leNat_lt _).trans_le
  rw [List.length_reverse]
  exact Nat.pow_le_pow_right (by decide) (List.length_take_le ..)

/-- No read is outside the buffer. -/
theorem wsParseBuffer_eq (buf : List Byte) : wsParseBuffer buf = some (wsParseFrame buf) := by
  rcases buf with _ | ⟨b0, _ | ⟨b1, rest⟩⟩
  · rfl
  · rfl
  · have two : ¬(b0 :: b1 :: rest).length < 2 := by simp
    have length : (b0 :: b1 :: rest).length = rest.length + 2 := rfl
    have four : (b0 :: b1 :: rest).length < 4 ↔ rest.length < 2 := by omega
    have ten : (b0 :: b1 :: rest).length < 10 ↔ rest.length < 8 := by omega
    have small : Endian.beNat (rest.take 8) % 2 ^ 64 = Endian.beNat (rest.take 8) :=
      Nat.mod_eq_of_lt (beNat_take_lt rest 8)
    rw [wsParseBuffer, if_neg two, wsParseFrame]
    simp only [List.getElem?_cons_zero, List.getElem?_cons_succ, Option.bind_eq_bind, Option.bind_some, four, ten]
    split_ifs with masked reserved part word short long short' big
    · rfl
    · rfl
    · rfl
    · rfl
    · obtain ⟨high, low, body, rfl⟩ : ∃ high low body, rest = high :: low :: body := by
        rcases rest with _ | ⟨high, _ | ⟨low, body⟩⟩
        · exact absurd (Nat.zero_lt_succ 1) short
        · exact absurd (Nat.lt_succ_self 1) short
        · exact ⟨high, low, body, rfl⟩
      have value : high.setWidth 64 <<< 8 ||| low.setWidth 64 =
          BitVec.ofNat 64 (Endian.beNat ((high :: low :: body).take 2)) := by
        rw [← BitVec.ofNat_toNat 64 high, shift_or_byte]
        rfl
      simp only [List.getElem?_cons_zero, List.getElem?_cons_succ, Option.bind_some, value]
      exact congrArg some (@parseRest_eq b0 b1 _ 2 _ (by decide) (Nat.le_of_lt_succ (beNat_take_lt _ 2))
        (Nat.le_of_not_lt short))
    · rfl
    · rw [readLength_eq (Nat.le_of_not_lt short'), Option.bind_some, if_pos]
      rwa [BitVec.lt_def, BitVec.toNat_ofNat, small]
    · rw [readLength_eq (Nat.le_of_not_lt short'), Option.bind_some, if_neg]
      · exact congrArg some (@parseRest_eq b0 b1 _ 8 _ (by decide) (Nat.le_of_not_lt big)
          (Nat.le_of_not_lt short'))
      · rwa [BitVec.lt_def, BitVec.toNat_ofNat, small]
    · have few : (b1 &&& 0x7F).toNat ≤ 0xFFFF := (b1 &&& 0x7F).isLt.le.trans (by decide)
      rw [← BitVec.ofNat_toNat 64 (b1 &&& 0x7F)]
      exact congrArg some (@parseRest_eq b0 b1 rest 0 _ (by decide) few (Nat.zero_le _))

/-! ## The frames the firmware sends -/

/-- `ws_build_frame`; none is its 0. -/
def wsBuildFrame (opcode : Byte) (payload : List Byte) (maskKey : Fin 4 → Byte) (outCap : Nat) :
    Option (List Byte) :=
  if 0xFFFF < payload.length then none
  else
    let hdr := (if 126 ≤ payload.length then 2 + 2 else 2) + 4
    if outCap < hdr + payload.length then none
    else
      some ((0x80 ||| (opcode &&& 0x0F)) ::
        ((if payload.length < 126 then [0x80 ||| BitVec.ofNat 8 payload.length]
          else [0x80 ||| 126, BitVec.ofNat 8 (payload.length >>> 8), BitVec.ofNat 8 (payload.length &&& 0xFF)]) ++
        (List.ofFn maskKey ++ payload.mapIdx fun i byte => byte ^^^ maskKey (Fin.ofNat 4 (i &&& 3)))))

/-- The header of a client's message. -/
def clientHeader (opcode : Byte) (payload : List Byte) (maskKey : Fin 4 → Byte) : Header where
  fin := true
  rsv := 0
  opcode := opcode.setWidth 4
  size := Size.least payload.length
  key := some maskKey

theorem firstByte_built (opcode : Byte) : 0x80 ||| (opcode &&& 0x0F) = firstByte true 0 (opcode.setWidth 4) := by
  revert opcode
  decide

theorem low_opcode (opcode : Byte) : (opcode.setWidth 4).setWidth 8 = opcode &&& 0x0F := by
  revert opcode
  decide

theorem masked_eq (key : Fin 4 → Byte) (payload : List Byte) :
    (payload.mapIdx fun i byte => byte ^^^ key (Fin.ofNat 4 (i &&& 3))) = masked key payload := by
  have turn (i : Nat) : Fin.ofNat 4 (i &&& 3) = Fin.ofNat 4 i := by
    apply Fin.ext
    change (i &&& 3) % 4 = i % 4
    rw [Nat.and_two_pow_sub_one_eq_mod i 2, Nat.mod_mod]
  simp only [masked, turn]

theorem built_length {count : Nat} (small : count ≤ 0xFFFF) :
    (if count < 126 then [0x80 ||| BitVec.ofNat 8 count]
      else [0x80 ||| 126, BitVec.ofNat 8 (count >>> 8), BitVec.ofNat 8 (count &&& 0xFF)]) =
      secondByte true (Size.least count).code :: (Size.least count).extended := by
  have flagged (code : BitVec 7) : secondByte true code = 0x80 ||| code.setWidth 8 := by
    revert code
    decide
  unfold Size.least
  rw [flagged]
  split_ifs with few word
  · have value : (BitVec.ofNat 7 count).setWidth 8 = BitVec.ofNat 8 count := by
      apply BitVec.eq_of_toNat_eq
      simp only [BitVec.toNat_setWidth, BitVec.toNat_ofNat]
      omega
    rw [Size.code, value]
    rfl
  · have high : BitVec.ofNat 8 (count >>> 8) = BitVec.ofNat 8 (count / 256) := by
      rw [Nat.shiftRight_eq_div_pow]
    have low : BitVec.ofNat 8 (count &&& 0xFF) = BitVec.ofNat 8 count := by
      apply BitVec.eq_of_toNat_eq
      rw [Nat.and_two_pow_sub_one_eq_mod count 8, BitVec.toNat_ofNat, BitVec.toNat_ofNat, Nat.mod_mod]
    have value : (BitVec.ofNat 16 count).toNat = count := Nat.mod_eq_of_lt word
    rw [high, low, Size.extended, value]
    rfl
  · omega

theorem length_extended_least {count : Nat} (small : count ≤ 0xFFFF) :
    (Size.least count).extended.length + 2 = if 126 ≤ count then 2 + 2 else 2 := by
  unfold Size.least
  split_ifs
  · omega
  · rfl
  · rfl
  · omega
  · omega
  · omega

theorem wsBuildFrame_eq_some {opcode : Byte} {payload : List Byte} {maskKey : Fin 4 → Byte} {outCap : Nat}
    {frame : List Byte} : wsBuildFrame opcode payload maskKey outCap = some frame ↔
      payload.length ≤ 0xFFFF ∧ frame.length ≤ outCap ∧ frame = (clientHeader opcode payload maskKey).frame payload := by
  rw [wsBuildFrame, Option.ite_none_left_eq_some, Nat.not_lt, and_congr_right_iff]
  intro small
  have length : ((clientHeader opcode payload maskKey).frame payload).length =
      (if 126 ≤ payload.length then 2 + 2 else 2) + 4 + payload.length := by
    have size : ((clientHeader opcode payload maskKey).size.extended).length + 2 = _ := length_extended_least small
    have key : (clientHeader opcode payload maskKey).keyBytes.length = 4 := rfl
    have cover : ((clientHeader opcode payload maskKey).cover payload).length = payload.length := List.length_mapIdx
    rw [← size, Header.frame, Header.bytes, List.length_append, List.length_cons, List.length_cons,
      List.length_append, key, cover]
  have same : (0x80 ||| (opcode &&& 0x0F)) :: ((if payload.length < 126 then [0x80 ||| BitVec.ofNat 8 payload.length]
        else [0x80 ||| 126, BitVec.ofNat 8 (payload.length >>> 8), BitVec.ofNat 8 (payload.length &&& 0xFF)]) ++
      (List.ofFn maskKey ++ payload.mapIdx fun i byte => byte ^^^ maskKey (Fin.ofNat 4 (i &&& 3)))) =
        (clientHeader opcode payload maskKey).frame payload := by
    rw [firstByte_built, built_length small, masked_eq, Header.frame, Header.bytes, List.cons_append,
      List.cons_append, List.cons_append, List.append_assoc]
    rfl
  dsimp only
  rw [same, ← length, Option.ite_none_left_eq_some, Nat.not_lt, Option.some.injEq]
  constructor
  · rintro ⟨room, rfl⟩
    exact ⟨room, rfl⟩
  · rintro ⟨room, rfl⟩
    exact ⟨room, rfl⟩

/-! ## What the parser says of a header -/

theorem parsePayload_stable {b0 : Byte} {offset size : Nat} {body : List Byte}
    (verdict : parsePayload b0 offset size body ≠ .more) (tail : List Byte) :
    parsePayload b0 offset size (body ++ tail) = parsePayload b0 offset size body := by
  have whole : ¬body.length < size := fun short => verdict (if_pos short)
  have still : ¬(body ++ tail).length < size := by
    rw [List.length_append]
    omega
  rw [parsePayload, parsePayload, if_neg whole, if_neg still, List.take_append_of_le_length (Nat.le_of_not_lt whole)]

theorem wsParseFrame_stable {buf : List Byte} (verdict : wsParseFrame buf ≠ .more) (tail : List Byte) :
    wsParseFrame (buf ++ tail) = wsParseFrame buf := by
  rcases buf with _ | ⟨b0, _ | ⟨b1, rest⟩⟩
  · exact absurd rfl verdict
  · exact absurd rfl verdict
  · have longer : (rest ++ tail).length = rest.length + tail.length := List.length_append
    rw [wsParseFrame] at verdict
    rw [List.cons_append, List.cons_append, wsParseFrame, wsParseFrame]
    split_ifs at verdict with masked reserved part word short long short' big
    · rw [if_pos masked, if_pos masked]
    · simp only [if_neg masked, if_pos reserved]
    · simp only [if_neg masked, if_neg reserved, if_pos part]
    · exact absurd rfl verdict
    · have still : ¬(rest ++ tail).length < 2 := by omega
      simp only [if_neg masked, if_neg reserved, if_neg part, if_pos word, if_neg short, if_neg still,
        List.take_append_of_le_length (Nat.le_of_not_lt short),
        List.drop_append_of_le_length (Nat.le_of_not_lt short), parsePayload_stable verdict]
    · exact absurd rfl verdict
    · have still : ¬(rest ++ tail).length < 8 := by omega
      simp only [if_neg masked, if_neg reserved, if_neg part, if_neg word, if_pos long, if_neg short',
        if_neg still, List.take_append_of_le_length (Nat.le_of_not_lt short'), if_pos big]
    · have still : ¬(rest ++ tail).length < 8 := by omega
      simp only [if_neg masked, if_neg reserved, if_neg part, if_neg word, if_pos long, if_neg short',
        if_neg still, List.take_append_of_le_length (Nat.le_of_not_lt short'), if_neg big,
        List.drop_append_of_le_length (Nat.le_of_not_lt short'), parsePayload_stable verdict]
    · simp only [if_neg masked, if_neg reserved, if_neg part, if_neg word, if_neg long, parsePayload_stable verdict]

/-- A header that the link speaks: a whole message, not masked and not too long. -/
structure Spoken (header : Header) : Prop where
  fin : header.fin = true
  rsv : header.rsv = 0
  opcode : header.opcode ≠ 0
  bare : header.key = none
  short : header.size.length ≤ 0xFFFF

theorem firstByte_masks (fin : Bool) (rsv : BitVec 3) (opcode : BitVec 4) :
    (firstByte fin rsv opcode &&& 0x80 = 0 ↔ fin = false) ∧ (firstByte fin rsv opcode &&& 0x70 = 0 ↔ rsv = 0) ∧
      (firstByte fin rsv opcode &&& 0x0F = 0 ↔ opcode = 0) ∧
      firstByte fin rsv opcode &&& 0x0F = opcode.setWidth 8 := by
  revert fin rsv opcode
  decide

theorem secondByte_masks (flag : Bool) (code : BitVec 7) :
    (secondByte flag code &&& 0x80 = 0 ↔ flag = false) ∧ (secondByte flag code &&& 0x7F = 126 ↔ code = 126) ∧
      (secondByte flag code &&& 0x7F = 127 ↔ code = 127) ∧
      (secondByte flag code &&& 0x7F).toNat = code.toNat := by
  revert flag code
  decide

/-- Each way to write a length leads to the same payload. -/
theorem parsePayload_size (b0 : Byte) (size : Size) (rest : List Byte) :
    (if size.code = 126 then
      if (size.extended ++ rest).length < 2 then .more
      else parsePayload b0 4 (Endian.beNat ((size.extended ++ rest).take 2)) ((size.extended ++ rest).drop 2)
    else if size.code = 127 then
      if (size.extended ++ rest).length < 8 then .more
      else if 0xFFFF < Endian.beNat ((size.extended ++ rest).take 8) then .bad
      else parsePayload b0 10 (Endian.beNat ((size.extended ++ rest).take 8)) ((size.extended ++ rest).drop 8)
    else parsePayload b0 2 size.code.toNat (size.extended ++ rest)) =
      if 0xFFFF < size.length then .bad
      else parsePayload b0 (size.extended.length + 2) size.length rest := by
  cases size with
  | short count =>
    have value : (Size.short count).code.toNat = count := Nat.mod_eq_of_lt (Nat.lt_trans count.isLt (by decide))
    have few := count.isLt
    have word : (Size.short count).code ≠ 126 := fun same => by
      rw [same] at value
      exact absurd value (Nat.ne_of_gt few)
    have long : (Size.short count).code ≠ 127 := fun same => by
      rw [same] at value
      exact absurd value (Nat.ne_of_gt (Nat.lt_succ_of_lt few))
    have small : ¬0xFFFF < (Size.short count).length := Nat.not_lt.mpr (few.le.trans (by decide))
    rw [if_neg word, if_neg long, if_neg small, value]
    rfl
  | medium count =>
    have head : (Size.medium count).extended.length = 2 := Endian.beBytes_length ..
    have there : ¬((Size.medium count).extended ++ rest).length < 2 := by
      rw [List.length_append]
      omega
    have value : Endian.beNat (Size.medium count).extended = count.toNat :=
      (Endian.beNat_beBytes ..).trans (Nat.mod_eq_of_lt count.isLt)
    have small : ¬0xFFFF < (Size.medium count).length := Nat.not_lt.mpr (Nat.le_of_lt_succ count.isLt)
    have word : (Size.medium count).code = 126 := rfl
    rw [if_pos word, if_neg there, List.take_left' head, List.drop_left' head, value, if_neg small, head]
    rfl
  | long count =>
    have head : (Size.long count).extended.length = 8 := Endian.beBytes_length ..
    have there : ¬((Size.long count).extended ++ rest).length < 8 := by
      rw [List.length_append]
      omega
    have value : Endian.beNat (Size.long count).extended = count.toNat :=
      (Endian.beNat_beBytes ..).trans (Nat.mod_eq_of_lt count.isLt)
    have word : (Size.long count).code ≠ 126 := show (127 : BitVec 7) ≠ 126 by decide
    have long : (Size.long count).code = 127 := rfl
    rw [if_neg word, if_pos long, if_neg there, List.take_left' head, List.drop_left' head, value, head]
    rfl

theorem wsParseFrame_bytes (header : Header) (rest : List Byte) :
    wsParseFrame (header.bytes ++ rest) =
      if header.key.isSome ∨ header.rsv ≠ 0 then .bad
      else if header.fin = false ∨ header.opcode = 0 then .fragmented
      else if 0xFFFF < header.size.length then .bad
      else parsePayload (firstByte header.fin header.rsv header.opcode) header.bytes.length header.size.length
        rest := by
  obtain ⟨fin_zero, rsv_zero, opcode_zero, -⟩ := firstByte_masks header.fin header.rsv header.opcode
  obtain ⟨key_zero, word, long, code_eq⟩ := secondByte_masks header.key.isSome header.size.code
  rw [Header.bytes, List.cons_append, List.cons_append, wsParseFrame]
  simp only [ne_eq, fin_zero, rsv_zero, opcode_zero, key_zero, word, long, code_eq, Bool.not_eq_false]
  by_cases masked : header.key.isSome
  · rw [if_pos masked, if_pos (.inl masked)]
  · rw [if_neg masked]
    by_cases reserved : header.rsv = 0
    · have clear : ¬(header.key.isSome = true ∨ ¬header.rsv = 0) := fun either =>
        either.elim masked fun marked => marked reserved
      rw [if_neg (not_not.mpr reserved), if_neg clear]
      by_cases part : header.fin = false ∨ header.opcode = 0
      · rw [if_pos part, if_pos part]
      · have bare : header.keyBytes = [] := by
          cases key : header.key with
          | none => rw [Header.keyBytes, key]
          | some found => exact absurd (key ▸ rfl) masked
        rw [if_neg part, if_neg part, bare, List.append_nil, parsePayload_size]
        rfl
    · rw [if_pos reserved, if_pos (.inr reserved)]

/-! ## Framing under any arrival -/

theorem wsParseFrame_frame {header : Header} (spoken : Spoken header) {payload : List Byte}
    (size : payload.length = header.size.length) (rest : List Byte) :
    wsParseFrame (header.frame payload ++ rest) =
      .frame (header.opcode.setWidth 8) payload (header.frame payload).length := by
  have clear : ¬(header.key.isSome = true ∨ header.rsv ≠ 0) := by
    rw [spoken.bare, spoken.rsv]
    simp
  have whole : ¬(header.fin = false ∨ header.opcode = 0) := by
    rw [spoken.fin]
    exact fun either => either.elim Bool.noConfusion spoken.opcode
  have sent : header.cover payload = payload := by rw [Header.cover, spoken.bare]
  have enough : ¬(payload ++ rest).length < header.size.length := by
    rw [List.length_append]
    omega
  have low : firstByte header.fin header.rsv header.opcode &&& 0x0F = header.opcode.setWidth 8 :=
    (firstByte_masks header.fin header.rsv header.opcode).2.2.2
  rw [Header.frame, List.append_assoc, wsParseFrame_bytes, if_neg clear, if_neg whole,
    if_neg (Nat.not_lt.mpr spoken.short), sent, parsePayload, if_neg enough, low, List.length_append, size,
    List.take_left' size]

theorem wsParseFrame_take {header : Header} (spoken : Spoken header) {payload : List Byte}
    (size : payload.length = header.size.length) {count : Nat} (part : count < (header.frame payload).length) :
    wsParseFrame ((header.frame payload).take count) = .more := by
  by_contra verdict
  have whole := wsParseFrame_frame spoken size []
  rw [List.append_nil] at whole
  have same := wsParseFrame_stable verdict ((header.frame payload).drop count)
  rw [List.take_append_drop, whole] at same
  obtain ⟨-, inside, -⟩ := wsParseFrame_eq_frame same.symm
  rw [List.length_take] at inside
  omega

theorem wsParseFrame_refused {header : Header} (foreign : ¬Spoken header) (rest : List Byte) :
    wsParseFrame (header.bytes ++ rest) = .bad ∨ wsParseFrame (header.bytes ++ rest) = .fragmented := by
  rw [wsParseFrame_bytes]
  split_ifs with clear whole big
  · exact .inl rfl
  · exact .inr rfl
  · exact .inl rfl
  · refine absurd ⟨?_, ?_, ?_, ?_, Nat.le_of_not_lt big⟩ foreign
    · exact Bool.of_not_eq_false fun clear => whole (.inl clear)
    · exact not_not.mp fun marked => clear (.inr marked)
    · exact fun zero => whole (.inr zero)
    · exact Option.not_isSome_iff_eq_none.mp fun keyed => clear (.inl keyed)

/-- The parser waits for nothing but the rest of a frame it will take, takes it whole, and refuses every
other header; what is built is a masked message for any reader of the protocol. -/
theorem framing_exact :
    (∀ header payload, Spoken header → payload.length = header.size.length →
      (∀ count < (header.frame payload).length,
        wsParseBuffer ((header.frame payload).take count) = some .more) ∧
      ∀ rest, wsParseBuffer (header.frame payload ++ rest) =
        some (.frame (header.opcode.setWidth 8) payload (header.frame payload).length)) ∧
    (∀ header, ¬Spoken header → ∀ rest,
      wsParseBuffer (header.bytes ++ rest) = some .bad ∨
        wsParseBuffer (header.bytes ++ rest) = some .fragmented) ∧
    (∀ buf, wsParseBuffer buf ≠ none) ∧
    ∀ opcode payload maskKey outCap frame, wsBuildFrame opcode payload maskKey outCap = some frame →
      ∃ header, decode frame = some (header, payload, []) ∧ header.fin = true ∧ header.rsv = 0 ∧
        header.key = some maskKey ∧ header.opcode.setWidth 8 = opcode &&& 0x0F := by
  simp only [wsParseBuffer_eq, Option.some.injEq]
  refine ⟨fun header payload spoken size => ⟨?_, ?_⟩, ?_, ?_, ?_⟩
  · exact fun count part => wsParseFrame_take spoken size part
  · exact wsParseFrame_frame spoken size
  · exact fun header foreign rest => wsParseFrame_refused foreign rest
  · exact fun buf => Option.some_ne_none _
  · intro opcode payload maskKey outCap frame built
    obtain ⟨small, -, rfl⟩ := wsBuildFrame_eq_some.mp built
    refine ⟨clientHeader opcode payload maskKey, ?_, rfl, rfl, rfl, low_opcode opcode⟩
    have size : payload.length = (clientHeader opcode payload maskKey).size.length :=
      (Size.length_least (by omega)).symm
    have read := decode_frame size []
    rwa [List.append_nil] at read

/-- An opcode of more than four bits is cut. -/
theorem wide_opcode_cut :
    wsBuildFrame 0x11 [] ![1, 2, 3, 4] 64 = some [0x81, 0x80, 1, 2, 3, 4] ∧
      (decode [0x81, 0x80, 1, 2, 3, 4]).map (fun read => read.1.opcode) = some 1 ∧
      ¬∀ opcode payload maskKey outCap frame, wsBuildFrame opcode payload maskKey outCap = some frame →
        ∃ header, decode frame = some (header, payload, []) ∧ header.opcode.setWidth 8 = opcode := by
  refine ⟨by decide, by decide, fun given => ?_⟩
  obtain ⟨header, read, same⟩ := given 0x11 [] ![1, 2, 3, 4] 64 [0x81, 0x80, 1, 2, 3, 4] (by decide)
  have one : (decode [0x81, 0x80, 1, 2, 3, 4]).map (fun read => read.1.opcode) = some 1 := by decide
  rw [read, Option.map_some, Option.some.injEq] at one
  rw [one] at same
  exact absurd same (by decide)

end BenchPod.Cloud
