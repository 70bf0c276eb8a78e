import BenchPod.Bwp.Crypto
import BenchPod.Library.Tlv
import Mathlib.Data.List.Induction

/-!
# Frames of the bridge protocol

One message per Ethernet frame: a header, a chain of tagged fields, and on signed frames a counter
and a MAC as the last two fields.
-/

namespace BenchPod.Bwp

def ethertype : Half := 0x88b5
def magic0 : Byte := 0x42
def magic1 : Byte := 0x57
def version : Byte := 1

/-- The length of the Ethernet header. -/
def ethHdrLen : Nat := 14

/-- The length of the protocol header. -/
def hdrLen : Nat := 8

def minFrame : Nat := 60
def maxFrame : Nat := 1514
def otaChunkMax : Nat := 1024

/-- The bit that marks an answer. -/
def response : Byte := 0x80

namespace MsgType

def hello : Byte := 0x01
def status : Byte := 0x02
def scan : Byte := 0x03
def setWifi : Byte := 0x04
def clearWifi : Byte := 0x05
def otaBegin : Byte := 0x06
def otaData : Byte := 0x07
def otaEnd : Byte := 0x08
def reboot : Byte := 0x09
def factoryReset : Byte := 0x0a
def otaAbort : Byte := 0x0b
def pair : Byte := 0x0c

end MsgType

/-- The requests the bridge knows. -/
inductive Kind where
  | status
  | scan
  | setWifi
  | clearWifi
  | otaBegin
  | otaData
  | otaEnd
  | otaAbort
  | reboot
  | factoryReset
  | pair
  | unknown
  deriving DecidableEq, Repr

/-- The request a message type stands for. -/
def Kind.ofType (type : Byte) : Kind :=
  if type = MsgType.status then .status
  else if type = MsgType.scan then .scan
  else if type = MsgType.setWifi then .setWifi
  else if type = MsgType.clearWifi then .clearWifi
  else if type = MsgType.otaBegin then .otaBegin
  else if type = MsgType.otaData then .otaData
  else if type = MsgType.otaEnd then .otaEnd
  else if type = MsgType.otaAbort then .otaAbort
  else if type = MsgType.reboot then .reboot
  else if type = MsgType.factoryReset then .factoryReset
  else if type = MsgType.pair then .pair
  else .unknown

theorem Kind.eq_factoryReset {type : Byte} (kind : Kind.ofType type = .factoryReset) : type = MsgType.factoryReset := by
  unfold Kind.ofType at kind
  iterate 9
    split at kind
    · cases kind
  split at kind
  · assumption
  · split at kind <;> cases kind

namespace Tag

def result : Byte := 0x01
def fwVersion : Byte := 0x03
def hwRev : Byte := 0x04
def state : Byte := 0x05
def podMac : Byte := 0x07
def ssid : Byte := 0x08
def passphrase : Byte := 0x09
def channel : Byte := 0x0a
def rssi : Byte := 0x0b
def bssid : Byte := 0x0c
def authmode : Byte := 0x0d
def ap : Byte := 0x0e
def imageSize : Byte := 0x0f
def offset : Byte := 0x10
def data : Byte := 0x11
def uptime : Byte := 0x12
def reason : Byte := 0x13
def counters : Byte := 0x14
def message : Byte := 0x15
def flags : Byte := 0x16
def nonce : Byte := 0x17
def pubkey : Byte := 0x18
def counter : Byte := 0x19
def auth : Byte := 0x1a
def encPassphrase : Byte := 0x1b
def signature : Byte := 0x1c

end Tag

/-- Results of a request. -/
inductive Result where
  | ok
  | badRequest
  | unsupported
  | busy
  | storage
  | otaNotStarted
  | otaBadOffset
  | otaVerify
  | otaTooLarge
  | internal
  | otaWrongImage
  | notPaired
  | auth
  | alreadyPaired
  deriving DecidableEq, Repr

/-- The byte a result travels as. -/
def Result.code : Result → Byte
  | .ok => 0
  | .badRequest => 1
  | .unsupported => 2
  | .busy => 3
  | .storage => 4
  | .otaNotStarted => 5
  | .otaBadOffset => 6
  | .otaVerify => 7
  | .otaTooLarge => 8
  | .internal => 9
  | .otaWrongImage => 10
  | .notPaired => 11
  | .auth => 12
  | .alreadyPaired => 13

/-- A parsed message. -/
structure Msg where
  dst : List Byte
  src : List Byte
  type : Byte
  seq : Half
  body : List Byte
  deriving DecidableEq

/-- Why a frame is dropped. -/
inductive ParseError where
  | notBwp
  | badVersion
  | malformed
  deriving DecidableEq

/-- Validate the headers and the whole chain of fields. -/
def parse (frame : List Byte) : Except ParseError Msg :=
  if frame.length < ethHdrLen + 2 ∨ Endian.getBe16 (slice frame 12 2) ≠ ethertype then .error .notBwp
  else if frame.getD 14 0 ≠ magic0 ∨ frame.getD 15 0 ≠ magic1 then .error .notBwp
  else if frame.length < ethHdrLen + hdrLen then .error .malformed
  else if frame.getD 16 0 ≠ version then .error .badVersion
  else
    let bodyLen := (Endian.getBe16 (slice frame 20 2)).toNat
    if bodyLen > frame.length - ethHdrLen - hdrLen then .error .malformed
    else
      let body := slice frame (ethHdrLen + hdrLen) bodyLen
      if Tlv.valid body = false then .error .malformed
      else .ok
        { dst := slice frame 0 6
          src := slice frame 6 6
          type := frame.getD 17 0
          seq := Endian.getBe16 (slice frame 18 2)
          body }

/-- What a parsed message is of its frame. -/
structure Parsed (frame : List Byte) (m : Msg) : Prop where
  type : m.type = frame.getD 17 0
  seq : m.seq = Endian.getBe16 (slice frame 18 2)
  body : m.body = slice frame (ethHdrLen + hdrLen) m.body.length
  inside : ethHdrLen + hdrLen + m.body.length ≤ frame.length
  chain : Tlv.Valid m.body

theorem parse_ok {frame : List Byte} {m : Msg} (parsed : parse frame = .ok m) : Parsed frame m := by
  unfold parse at parsed
  split at parsed
  · cases parsed
  · split at parsed
    · cases parsed
    · split at parsed
      · cases parsed
      · rename_i long
        split at parsed
        · cases parsed
        · simp only at parsed
          split at parsed
          · cases parsed
          · rename_i within
            split at parsed
            · cases parsed
            · rename_i wellFormed
              have length : (slice frame (ethHdrLen + hdrLen) (Endian.getBe16 (slice frame 20 2)).toNat).length =
                    (Endian.getBe16 (slice frame 20 2)).toNat := by
                rw [slice, List.length_take, List.length_drop]
                omega
              cases parsed
              refine ⟨rfl, rfl, ?_, ?_, (Tlv.valid_iff _).mp (by simpa using wellFormed)⟩
              · simp only [length]
              · simp only [length]
                omega

/-- The value of a one-byte field. -/
def getU8 (body : List Byte) (tag : Byte) : Option Byte :=
  match Tlv.find body tag with
  | some [value] => some value
  | _ => none

/-- The value of a four-byte field. -/
def getU32 (body : List Byte) (tag : Byte) : Option Word :=
  match Tlv.find body tag with
  | some value => if value.length = 4 then some (Endian.getBe32 value) else none
  | none => none

/-- The value of a field of a fixed length. -/
def getBytes (body : List Byte) (tag : Byte) (len : Nat) : Option (List Byte) :=
  match Tlv.find body tag with
  | some value => if value.length = len then some value else none
  | none => none

/-- What the search for the MAC has found: the last MAC with its position, and whether the chain
breaks the rule that the one MAC comes last. -/
structure AuthScan where
  auth : Option (Nat × List Byte) := none
  bad : Bool := false

/-- Look at one field in the search for the MAC. -/
def AuthScan.look (scan : AuthScan) (field : Tlv.Field) : AuthScan :=
  let bad := scan.bad || scan.auth.isSome
  if field.tag = Tag.auth then
    { auth := some (field.pos, field.val), bad := bad || field.val.length != 16 || scan.auth.isSome }
  else { scan with bad }

/-- What a check of a frame's MAC finds. -/
inductive Verdict where
  /-- The MAC is right: the counter it covers. -/
  | ok (counter : Word)
  | missing
  | bad
  deriving DecidableEq

/-- Check a parsed frame's MAC under a key and a nonce. -/
def verify (prims : Primitives) (frame : List Byte) (m : Msg) (key nonce : List Byte) : Verdict :=
  let scan := (Tlv.fields m.body).foldl AuthScan.look {}
  match scan.auth, getU32 m.body Tag.counter with
  | some (pos, auth), some counter =>
    if scan.bad then .bad
    else
      -- everything from the magic up to the tag of the MAC
      let want := prims.authMac key nonce (slice frame ethHdrLen (hdrLen + pos - 3))
      if want = auth then .ok counter else .bad
  | _, _ => .missing

/-- The headers of a frame whose body has a given length. -/
def header (dst src : List Byte) (type : Byte) (seq bodyLen : Half) : List Byte :=
  dst ++ (src ++ (Endian.be16 ethertype ++ ([magic0, magic1, version, type] ++ (Endian.be16 seq ++ Endian.be16 bodyLen))))

/-- Fill a frame up to the Ethernet minimum. -/
def pad (frame : List Byte) : List Byte := frame ++ zeros (minFrame - frame.length)

/-- The field a counter travels in. -/
def counterField (counter : Word) : List Byte := Tlv.put Tag.counter (Endian.be32 counter)

/-- The length of a counter and a MAC behind a body. -/
def trailerLen : Nat := 7 + 3 + 16

/-- A message as its sender knows it, with a body that leaves room for a counter and a MAC. -/
structure Draft where
  dst : List Byte
  src : List Byte
  type : Byte
  seq : Half
  body : List Byte
  dst_length : dst.length = 6
  src_length : src.length = 6
  fits : body.length + trailerLen ≤ maxFrame - ethHdrLen - hdrLen
  chain : Tlv.Valid body
  unsigned : ∀ field ∈ Tlv.fields body, field.tag ≠ Tag.counter ∧ field.tag ≠ Tag.auth

namespace Draft

variable (draft : Draft)

/-- The headers over a body of a given length. -/
def head (bodyLen : Nat) : List Byte := header draft.dst draft.src draft.type draft.seq (BitVec.ofNat 16 bodyLen)

/-- The message unsigned. -/
def frame : List Byte := pad (draft.head draft.body.length ++ draft.body)

/-- What the MAC covers: from the magic to the end of the counter. -/
def covered (counter : Word) : List Byte :=
  (draft.head (draft.body.length + trailerLen)).drop ethHdrLen ++ (draft.body ++ counterField counter)

/-- The body of the signed message. -/
def signedBody (prims : Primitives) (key nonce : List Byte) (counter : Word) : List Byte :=
  draft.body ++ (counterField counter ++ Tlv.put Tag.auth (prims.authMac key nonce (draft.covered counter)))

/-- The message signed under a key, a nonce and a counter. -/
def signed (prims : Primitives) (key nonce : List Byte) (counter : Word) : List Byte :=
  pad (draft.head (draft.body.length + trailerLen) ++ draft.signedBody prims key nonce counter)

end Draft

theorem slice_skip {front : List Byte} {start : Nat} (behind : front.length ≤ start)
    (back : List Byte) (count : Nat) :
    slice (front ++ back) start count = slice back (start - front.length) count := by
  rw [slice, slice, List.drop_append, List.drop_eq_nil_of_le behind, List.nil_append]

theorem slice_front {front : List Byte} {count : Nat} (length : front.length = count)
    (back : List Byte) : slice (front ++ back) 0 count = front := by
  rw [slice, List.drop_zero, ← length, List.take_left]

theorem getD_skip {front : List Byte} {pos : Nat} (behind : front.length ≤ pos) (back : List Byte) :
    (front ++ back).getD pos 0 = back.getD (pos - front.length) 0 := by
  rw [List.getD_eq_getElem?_getD, List.getElem?_append_right behind, List.getD_eq_getElem?_getD]

theorem slice_dst {dst : List Byte} (dst_length : dst.length = 6) (src : List Byte) (type : Byte)
    (seq bodyLen : Half) (rest : List Byte) :
    slice (header dst src type seq bodyLen ++ rest) 0 6 = dst := by
  simp only [header, List.append_assoc]
  exact slice_front dst_length _

section Header

variable {dst src : List Byte} (dst_length : dst.length = 6) (src_length : src.length = 6)
  (type : Byte) (seq bodyLen : Half) (rest : List Byte)

include dst_length src_length

theorem header_length : (header dst src type seq bodyLen).length = 22 := by
  simp only [header, List.length_append, dst_length, src_length, Endian.be16_length, List.length_cons, List.length_nil]

theorem slice_addressed {start : Nat} (behind : 12 ≤ start) (count : Nat) :
    slice (header dst src type seq bodyLen ++ rest) start count =
      slice (Endian.be16 ethertype ++ ([magic0, magic1, version, type] ++ (Endian.be16 seq ++
        (Endian.be16 bodyLen ++ rest)))) (start - 12) count := by
  simp only [header, List.append_assoc]
  rw [slice_skip (by omega), slice_skip (by omega), dst_length, src_length, Nat.sub_sub]

theorem getD_header {pos : Nat} (behind : 14 ≤ pos) :
    (header dst src type seq bodyLen ++ rest).getD pos 0 =
      ([magic0, magic1, version, type] ++ (Endian.be16 seq ++ (Endian.be16 bodyLen ++ rest))).getD (pos - 14) 0 := by
  simp only [header, List.append_assoc]
  rw [getD_skip (by omega), getD_skip (by omega), getD_skip (by simp; omega), dst_length,
    src_length, Endian.be16_length]
  congr 1

theorem slice_src : slice (header dst src type seq bodyLen ++ rest) 6 6 = src := by
  simp only [header, List.append_assoc]
  rw [slice_skip (by omega), dst_length]
  exact slice_front src_length _

theorem slice_ethertype : slice (header dst src type seq bodyLen ++ rest) 12 2 = Endian.be16 ethertype := by
  rw [slice_addressed dst_length src_length _ _ _ _ (by omega)]
  exact slice_front (Endian.be16_length _) _

theorem slice_seq : slice (header dst src type seq bodyLen ++ rest) 18 2 = Endian.be16 seq := by
  rw [slice_addressed dst_length src_length _ _ _ _ (by omega), slice_skip (by simp),
    slice_skip (by simp)]
  exact slice_front (Endian.be16_length _) _

theorem slice_bodyLen : slice (header dst src type seq bodyLen ++ rest) 20 2 = Endian.be16 bodyLen := by
  rw [slice_addressed dst_length src_length _ _ _ _ (by omega), slice_skip (by simp),
    slice_skip (by simp), slice_skip (by simp)]
  exact slice_front (Endian.be16_length _) _

end Header

theorem parse_header {dst src body : List Byte} (dst_length : dst.length = 6)
    (src_length : src.length = 6) (type : Byte) (seq : Half) (fits : body.length < 65536)
    (chain : Tlv.Valid body) (padding : List Byte) :
    parse (header dst src type seq (BitVec.ofNat 16 body.length) ++ (body ++ padding)) =
      .ok { dst, src, type, seq, body } := by
  have length : (header dst src type seq (BitVec.ofNat 16 body.length) ++ (body ++ padding)).length =
      22 + (body.length + padding.length) := by
    rw [List.length_append, List.length_append, header_length dst_length src_length]
  have body_eq : slice (header dst src type seq (BitVec.ofNat 16 body.length) ++ (body ++ padding)) 22
      body.length = body := by
    rw [slice_skip (Nat.le_of_eq (header_length dst_length src_length _ _ _)), header_length dst_length src_length]
    exact slice_front rfl _
  have byte {pos : Nat} (behind : 14 ≤ pos) := getD_header dst_length src_length type seq
    (BitVec.ofNat 16 body.length) (body ++ padding) behind
  unfold parse
  simp only [ethHdrLen, hdrLen, Nat.reduceAdd, slice_ethertype dst_length src_length,
    slice_bodyLen dst_length src_length, slice_dst dst_length,
    slice_src dst_length src_length, slice_seq dst_length src_length, Endian.getBe16_be16,
    BitVec.toNat_ofNat, Nat.mod_eq_of_lt fits, body_eq, byte (Nat.le_refl 14),
    byte (show 14 ≤ 15 by omega), byte (show 14 ≤ 16 by omega), byte (show 14 ≤ 17 by omega), length,
    (Tlv.valid_iff body).mpr chain]
  rw [if_neg (by simp; omega), if_neg (by simp), if_neg (by omega), if_neg (by simp), if_neg (by omega),
    if_neg (by simp)]
  simp


namespace AuthScan

theorem foldl_look {fields : List Tlv.Field} (unsigned : ∀ field ∈ fields, field.tag ≠ Tag.auth) :
    fields.foldl look {} = {} := by
  induction fields with
  | nil => rfl
  | cons field fields ih =>
    have other := unsigned field (List.mem_cons_self ..)
    have first : look {} field = {} := by simp [look, other]
    rw [List.foldl_cons, first]
    exact ih fun field member => unsigned field (List.mem_cons_of_mem _ member)

theorem unsigned_of_none {fields : List Tlv.Field} (none_found : (fields.foldl look {}).auth = none) :
    ∀ field ∈ fields, field.tag ≠ Tag.auth := by
  induction fields using List.reverseRecOn with
  | nil => simp
  | append_singleton fields last ih =>
    rw [List.foldl_append, List.foldl_cons, List.foldl_nil, look] at none_found
    split at none_found
    · cases none_found
    · rename_i other
      intro field member
      rcases List.mem_append.mp member with front | back
      · exact ih none_found field front
      · rwa [List.mem_singleton.mp back]

theorem good_iff {fields : List Tlv.Field} {pos : Nat} {auth : List Byte} :
    fields.foldl look {} = { auth := some (pos, auth), bad := false } ↔
      ∃ front, fields = front ++ [⟨Tag.auth, pos, auth⟩] ∧ auth.length = 16 ∧ ∀ field ∈ front, field.tag ≠ Tag.auth := by
  constructor
  · intro found
    obtain rfl | ⟨front, last, rfl⟩ := List.eq_nil_or_concat fields
    · cases found
    · rw [List.concat_eq_append, List.foldl_append, List.foldl_cons, List.foldl_nil, look] at found
      split at found
      · rename_i tag_eq
        simp only [mk.injEq, Option.some.injEq, Prod.mk.injEq, Bool.or_eq_false_iff, bne_eq_false_iff_eq,
          Option.isSome_eq_false_iff, Option.isNone_iff_eq_none] at found
        obtain ⟨⟨rfl, rfl⟩, ⟨_, length⟩, none_found⟩ := found
        refine ⟨front, ?_, length, unsigned_of_none none_found⟩
        rw [List.concat_eq_append, ← tag_eq]
      · simp only [mk.injEq, Bool.or_eq_false_iff] at found
        simp [found.1] at found
  · rintro ⟨front, rfl, length, unsigned⟩
    rw [List.foldl_append, foldl_look unsigned]
    simp [look, length]

end AuthScan

theorem verify_ok {prims : Primitives} {frame : List Byte} {m : Msg} {key nonce : List Byte}
    {counter : Word} (chain : Tlv.Valid m.body)
    (accepted : verify prims frame m key nonce = .ok counter) :
    getU32 m.body Tag.counter = some counter ∧
      ∃ front, Tlv.Valid front ∧ (∀ field ∈ Tlv.fields front, field.tag ≠ Tag.auth) ∧
        m.body = front ++ Tlv.put Tag.auth (prims.authMac key nonce (slice frame ethHdrLen (hdrLen + front.length))) := by
  unfold verify at accepted
  cases scan : (Tlv.fields m.body).foldl AuthScan.look {} with
  | mk auth bad =>
    simp only [scan] at accepted
    cases auth with
    | none => cases accepted
    | some found =>
      obtain ⟨pos, auth⟩ := found
      cases read : getU32 m.body Tag.counter with
      | none => simp [read] at accepted
      | some value =>
        simp only [read] at accepted
        split at accepted
        · cases accepted
        · rename_i good
          split at accepted
          · rename_i right
            cases accepted
            rw [Bool.not_eq_true] at good
            subst good
            obtain ⟨front, split, length, unsigned⟩ := AuthScan.good_iff.mp scan
            obtain ⟨head, head_chain, head_fields, body_eq, pos_eq, _⟩ := chain.last split
            simp only at body_eq pos_eq
            have covered : hdrLen + pos - 3 = hdrLen + head.length := by omega
            rw [covered] at right
            exact ⟨rfl, head, head_chain, head_fields ▸ unsigned, right ▸ body_eq⟩
          · cases accepted

namespace Draft

variable (draft : Draft) (prims : Primitives) (key nonce : List Byte) (counter : Word)

theorem head_length (bodyLen : Nat) : (draft.head bodyLen).length = 22 :=
  header_length draft.dst_length draft.src_length _ _ _

@[simp]
theorem counterField_length : (counterField counter).length = 7 := by
  rw [counterField, Tlv.put_length, Endian.be32_length]

theorem signedBody_length : (draft.signedBody prims key nonce counter).length = draft.body.length + trailerLen := by
  simp only [signedBody, List.length_append, counterField_length, Tlv.put_length, Primitives.authMac_length, trailerLen]

theorem signedBody_chain : Tlv.Valid (draft.signedBody prims key nonce counter) := by
  refine draft.chain.append ((Tlv.valid_put ?_).append (Tlv.valid_put ?_))
  · simp
  · simp

theorem body_lt : draft.body.length + trailerLen < 65536 := by
  have fits := draft.fits
  simp only [maxFrame, ethHdrLen, hdrLen] at fits
  omega

theorem parse_frame :
    parse draft.frame =
      .ok { dst := draft.dst, src := draft.src, type := draft.type, seq := draft.seq, body := draft.body } := by
  rw [frame, pad, List.append_assoc]
  exact parse_header draft.dst_length draft.src_length _ _ (by have := draft.body_lt; omega) draft.chain _

theorem parse_signed :
    parse (draft.signed prims key nonce counter) =
      .ok { dst := draft.dst, src := draft.src, type := draft.type, seq := draft.seq
            body := draft.signedBody prims key nonce counter } := by
  rw [signed, pad, List.append_assoc, head, ← signedBody_length draft prims key nonce counter]
  refine parse_header draft.dst_length draft.src_length _ _ ?_ (draft.signedBody_chain ..) _
  rw [signedBody_length]
  exact draft.body_lt

theorem find_signed {tag : Byte} (not_counter : tag ≠ Tag.counter) (not_auth : tag ≠ Tag.auth) :
    Tlv.find (draft.signedBody prims key nonce counter) tag = Tlv.find draft.body tag := by
  rw [signedBody, Tlv.find_append draft.chain, counterField, Tlv.find_put (by simp)]
  rw [← List.append_nil (Tlv.put Tag.auth _), Tlv.find_put (by simp)]
  simp [not_counter.symm, not_auth.symm, Tlv.find]

theorem counter_unsigned : Tlv.find draft.body Tag.counter = none := by
  rw [Tlv.find, Option.map_eq_none_iff, List.find?_eq_none]
  intro field member
  simpa using (draft.unsigned field member).1

theorem counter_signed : getU32 (draft.signedBody prims key nonce counter) Tag.counter = some counter := by
  have found : Tlv.find (draft.signedBody prims key nonce counter) Tag.counter = some (Endian.be32 counter) := by
    rw [signedBody, Tlv.find_append draft.chain, draft.counter_unsigned, counterField,
      Tlv.find_put (by simp), beq_self_eq_true, if_pos rfl]
    rfl
  simp [getU32, found]

theorem verify_frame (m : Msg) (body_eq : m.body = draft.body) (frame : List Byte) :
    verify prims frame m key nonce = .missing := by
  rw [verify, body_eq, AuthScan.foldl_look fun field member => (draft.unsigned field member).2]

theorem fields_signed :
    Tlv.fields (draft.signedBody prims key nonce counter) =
      (Tlv.fields draft.body ++ [⟨Tag.counter, draft.body.length + 3, Endian.be32 counter⟩]) ++
        [⟨Tag.auth, draft.body.length + 10, prims.authMac key nonce (draft.covered counter)⟩] := by
  rw [signedBody, Tlv.fields_append draft.chain, counterField, Tlv.fields_put (by simp),
    ← List.append_nil (Tlv.put Tag.auth _), Tlv.fields_put (by simp)]
  simp [Tlv.Field.shift]

theorem slice_covered :
    slice (draft.signed prims key nonce counter) ethHdrLen (hdrLen + (draft.body.length + 10) - 3) =
      draft.covered counter := by
  have cut := List.take_append_drop ethHdrLen (draft.head (draft.body.length + trailerLen))
  have head_length := draft.head_length (draft.body.length + trailerLen)
  rw [signed, pad, ← cut]
  simp only [signedBody, List.append_assoc]
  rw [← List.append_assoc draft.body, ← List.append_assoc (List.drop _ _), ← covered]
  refine slice_append ?_ ?_
  · rw [List.length_take, head_length]
    rfl
  · rw [covered, List.length_append, List.length_append, List.length_drop, head_length, counterField_length]
    simp only [ethHdrLen, hdrLen]
    omega

theorem verify_signed {m : Msg} (body_eq : m.body = draft.signedBody prims key nonce counter) :
    verify prims (draft.signed prims key nonce counter) m key nonce = .ok counter := by
  have scan : (Tlv.fields m.body).foldl AuthScan.look {} =
      { auth := some (draft.body.length + 10, prims.authMac key nonce (draft.covered counter))
        bad := false } := by
    rw [AuthScan.good_iff]
    refine ⟨_, body_eq ▸ draft.fields_signed prims key nonce counter, prims.authMac_length .., ?_⟩
    intro field member
    obtain front | back := List.mem_append.mp member
    · exact (draft.unsigned field front).2
    · rw [List.mem_singleton.mp back]
      change Tag.counter ≠ Tag.auth
      decide
  have read : getU32 m.body Tag.counter = some counter := by
    rw [body_eq]
    exact draft.counter_signed prims key nonce counter
  simp only [verify, scan, read, draft.slice_covered, Bool.false_eq_true, if_false, if_true]

end Draft

end BenchPod.Bwp
