import BenchPod.Net.CloudOrder
import Mathlib.Data.List.TakeWhile

/-!
# What the server's frames are for

A well-formed frame of the server is a text frame with a flat object or any other text, or a control
frame.  What an object says is defined by its members, not by the readers.
-/

namespace BenchPod.Cloud

open Json Command

/-- The header of an unmasked frame. -/
def header (opcode : Byte) (size : Nat) : List Byte :=
  (0x80 ||| opcode) ::
    if size < 126 then [BitVec.ofNat 8 size]
    else if size ≤ 0xFFFF then 126 :: Endian.beBytes 2 size
    else 127 :: Endian.beBytes 8 size

/-- A frame of the server's. -/
inductive ServerFrame
  /-- A text frame with an object of plain members. -/
  | said (members : List Member)
  /-- A text frame with anything else. -/
  | other (payload : List Byte)
  | control (opcode : Byte) (payload : List Byte)
  deriving DecidableEq

namespace ServerFrame

def opcode : ServerFrame → Byte
  | said _ | other _ => 1
  | control opcode _ => opcode

def payload : ServerFrame → List Byte
  | said members => writtenObject members
  | other payload | control _ payload => payload

/-- The frame on the wire. -/
def written (frame : ServerFrame) : List Byte := header frame.opcode frame.payload.length ++ frame.payload

end ServerFrame

/-- The text of a member. -/
def said (members : List Member) (key : String) : Option (List Byte) := (members.lookup (cstr key)).map Value.text

/-- The fields of a frame and the buffers they are read into. -/
def fields : List (String × Nat) :=
  [("type", 32), ("tunnel_id", 64), ("size", 16), ("sha256", 80), ("target", 16), ("version", 16),
    ("sig", 200), ("offset", 16)]

/-- Members that are written as the server writes them. -/
structure WellFormed (members : List Member) : Prop where
  fine : ∀ member ∈ members, member.Fine
  fits : ∀ field ∈ fields, ∀ text ∈ said members field.1, text.length < field.2
  strings : ∀ key ∈ ["type", "tunnel_id"], ∀ value ∈ members.lookup (cstr key), value.isStr

instance (members : List Member) : Decidable (WellFormed members) :=
  decidable_of_iff ((∀ member ∈ members, member.Fine) ∧
      (∀ field ∈ fields, ∀ text ∈ said members field.1, text.length < field.2) ∧
      ∀ key ∈ ["type", "tunnel_id"], ∀ value ∈ members.lookup (cstr key), value.isStr)
    ⟨fun ⟨fine, fits, strings⟩ => ⟨fine, fits, strings⟩, fun ⟨fine, fits, strings⟩ => ⟨fine, fits, strings⟩⟩

/-- The types of the frames that carry something to the worker. -/
def carriers : List (List Byte) :=
  ["tunnel.data", "tunnel.open", "tunnel.close", "ota.begin", "ota.data", "ota.end", "ota.abort", "ota.commit"].map cstr

/-- A frame that a header can describe, and that is what its constructor says. -/
def ServerFrame.Fine (frame : ServerFrame) : Prop :=
  frame.payload.length < 256 ^ 8 ∧
    match frame with
    | said members => WellFormed members
    | other payload =>
      if rxMax ≤ payload.length then
        (bpJsonScanStr (cstr "type") 32 payload).getD [] ≠ cstr "tunnel.data"
      else clJsonStr (payload.takeWhile (· ≠ 0)) "type" 32 ∉ carriers
    | control opcode _ => opcode < 16 ∧ opcode ≠ 0 ∧ opcode ≠ 1 ∧ opcode ≠ 8

instance (frame : ServerFrame) : Decidable frame.Fine :=
  match frame with
  | .said members => inferInstanceAs (Decidable (_ ∧ WellFormed members))
  | .other payload =>
    inferInstanceAs (Decidable (_ ∧
      if rxMax ≤ payload.length then
        (bpJsonScanStr (cstr "type") 32 payload).getD [] ≠ cstr "tunnel.data"
      else clJsonStr (payload.takeWhile (· ≠ 0)) "type" 32 ∉ carriers))
  | .control opcode _ => inferInstanceAs (Decidable (_ ∧ opcode < 16 ∧ opcode ≠ 0 ∧ opcode ≠ 1 ∧ opcode ≠ 8))

/-- What a frame is for. -/
inductive Meaning
  | opens (id : List Byte)
  | closes (id : List Byte)
  /-- Bytes for a tunnel; `none` when they cannot be delivered whole. -/
  | data (id : List Byte) (bytes : Option (List Byte))
  | item (took : Took)
  | nothing
  deriving DecidableEq

/-- The bytes that a base64 text stands for. -/
def whole (text : List Byte) : Option (List Byte) :=
  if (B64url.decode text text.length).2 then some (B64url.decode text text.length).1 else none

/-- What an object of these members says. -/
def meaning (members : List Member) : Meaning :=
  let text key := (said members key).getD []
  let cutOff := decide (rxMax ≤ (writtenObject members).length)
  let type := text "type"
  if type = cstr "tunnel.data" then
    .data (text "tunnel_id") (if cutOff then none else (said members "data_b64").bind whole)
  else if cutOff then .nothing
  else if type = cstr "tunnel.open" then .opens (text "tunnel_id")
  else if type = cstr "tunnel.close" then .closes (text "tunnel_id")
  else if type = cstr "ota.begin" then
    match said members "size", said members "sha256" with
    | some size, some sha =>
      .item (.otaBegin (strtoul0 size)
        (Sessions.otaArg sha (text "target") (strtoul0 (text "version")) (text "sig")))
    | _, _ => .nothing
  else if type = cstr "ota.data" then
    match (said members "data_b64").bind whole with
    | some (c :: bytes) => .item (.otaData (strtoul0 (text "offset")) (c :: bytes))
    | _ => .nothing
  else if type = cstr "ota.end" then .item .otaEnd
  else if type = cstr "ota.abort" then .item .otaAbort
  else if type = cstr "ota.commit" then .item .otaCommit
  else .nothing

def ServerFrame.meaning : ServerFrame → Meaning
  | said members => Cloud.meaning members
  | other _ | control .. => .nothing

/-- What the frame is for is done.  Bytes for a tunnel that is bound are one item, or end it. -/
def Sessions.carry (s : Sessions) (busy : Slot → Bool) : Meaning → Sessions
  | .opens id =>
    if id = [] then s
    else
      match (s.slotById id).or (s.freeSlot busy) with
      | none => s
      | some slot => s.rebind slot id
  | .closes id =>
    match s.slotById id with
    | none => s
    | some slot => s.rebind slot []
  | .data id bytes =>
    match s.slotById id with
    | none => s
    | some slot =>
      match bytes with
      | none => s.rebind slot []
      | some [] => s
      | some (c :: bytes) => { s with log := s.log ++ [.bytes slot (c :: bytes)] }
  | .item took => { s with log := s.log ++ [took] }
  | .nothing => s

/-! ## Frames on the wire -/

theorem header_bits {opcode : Byte} (small : opcode < 16) (data : opcode ≠ 0) :
    (0x80 ||| opcode) &&& 0x70 = 0 ∧ ¬((0x80 ||| opcode) &&& 0x80 = 0 ∨ (0x80 ||| opcode) &&& 0x0F = 0) ∧
      (0x80 ||| opcode) &&& 0x0F = opcode := by
  revert opcode
  decide

theorem size_bits {size : Nat} (small : size < 126) :
    BitVec.ofNat 8 size &&& 0x80 = 0 ∧ BitVec.ofNat 8 size &&& 0x7F ≠ 126 ∧
      BitVec.ofNat 8 size &&& 0x7F ≠ 127 ∧ (BitVec.ofNat 8 size &&& 0x7F).toNat = size := by
  have all : ∀ size : Fin 126, BitVec.ofNat 8 size &&& 0x80 = 0 ∧ BitVec.ofNat 8 size &&& 0x7F ≠ 126 ∧
      BitVec.ofNat 8 size &&& 0x7F ≠ 127 ∧ (BitVec.ofNat 8 size &&& 0x7F).toNat = size := by decide
  exact all ⟨size, small⟩

theorem parsePayload_all (b0 : Byte) (offset : Nat) (payload rest : List Byte) :
    parsePayload b0 offset payload.length (payload ++ rest) = .frame (b0 &&& 0x0F) payload (offset + payload.length) := by
  rw [parsePayload, if_neg (by simp), List.take_left]

/-- A frame is found as it was written, or refused when it is too long for any buffer. -/
theorem wsParseFrame_written {opcode : Byte} (small : opcode < 16) (data : opcode ≠ 0)
    (payload rest : List Byte) (possible : payload.length < 256 ^ 8) :
    wsParseFrame (header opcode payload.length ++ payload ++ rest) =
      if payload.length ≤ 0xFFFF then
        .frame opcode payload (header opcode payload.length ++ payload).length
      else .bad := by
  obtain ⟨reserved, part, code⟩ := header_bits small data
  rw [List.append_assoc, header, List.cons_append]
  split_ifs with short fits large
  · obtain ⟨unmasked, two, eight, size⟩ := size_bits short
    rw [List.cons_append, List.nil_append, wsParseFrame, if_neg (not_not_intro unmasked),
      if_neg (not_not_intro reserved), if_neg part, if_neg two, if_neg eight, size, parsePayload_all, code]
    congr 1
    simp
    omega
  · omega
  · have length : (Endian.beBytes 2 payload.length).length = 2 := Endian.beBytes_length ..
    have size : Endian.beNat (Endian.beBytes 2 payload.length) = payload.length := by
      rw [Endian.beNat_beBytes, Nat.mod_eq_of_lt (by omega)]
    have enough : ¬(Endian.beBytes 2 payload.length ++ (payload ++ rest)).length < 2 := by
      rw [List.length_append]
      omega
    rw [List.cons_append, wsParseFrame, if_neg (by decide), if_neg (not_not_intro reserved), if_neg part,
      if_pos (by decide), if_neg enough, List.take_left' length, List.drop_left' length, size,
      parsePayload_all, code]
    congr 1
    simp [length]
    omega
  · have length : (Endian.beBytes 8 payload.length).length = 8 := Endian.beBytes_length ..
    have size : Endian.beNat (Endian.beBytes 8 payload.length) = payload.length := by
      rw [Endian.beNat_beBytes, Nat.mod_eq_of_lt possible]
    have enough : ¬(Endian.beBytes 8 payload.length ++ (payload ++ rest)).length < 8 := by
      rw [List.length_append]
      omega
    rw [List.cons_append, wsParseFrame, if_neg (by decide), if_neg (not_not_intro reserved), if_neg part,
      if_neg (by decide), if_pos (by decide), if_neg enough, List.take_left' length, size,
      if_pos (Nat.lt_of_not_le large)]

/-! ## What the readers find in an object -/

section members

variable {members : List Member}

theorem lookup_length {key : List Byte} {value : Value} (found : members.lookup key = some value) :
    value.text.length < (writtenMembers members).length := by
  induction members with
  | nil => cases found
  | cons member members ih =>
    have fits : member.2.text.length < member.written.length := by
      cases shape : member.2 <;> simp [Member.written, shape, Value.written, Value.text] <;> omega
    have longer : member.written.length ≤ (writtenMembers (member :: members)).length := by
      rcases members with _ | ⟨next, members⟩
      · simp [writtenMembers]
      · simp [writtenMembers_cons]
    by_cases same : member.1 = key
    · obtain ⟨name, other⟩ := member
      obtain rfl : name = key := same
      obtain rfl : other = value := by simpa using found
      exact Nat.lt_of_lt_of_le fits longer
    · rw [lookup_other same] at found
      have shorter := ih found
      rcases members with _ | ⟨next, members⟩
      · cases found
      · rw [writtenMembers_cons, List.length_append, List.length_cons]
        omega

theorem written_nonzero (fine : ∀ member ∈ members, member.Fine) :
    (writtenObject members).takeWhile (· ≠ 0) = writtenObject members := by
  rw [List.takeWhile_eq_self_iff]
  have plain_nonzero {c : Byte} (fine : plain c) : c ≠ 0 := by
    simp only [plain, decide_eq_true_eq] at fine
    exact fine.2.2
  have member_nonzero {member : Member} (fine : member.Fine) : ∀ c ∈ member.written, c ≠ 0 := by
    obtain ⟨name, value⟩ := member
    obtain ⟨-, named, valued⟩ := fine
    have value_nonzero : ∀ c ∈ value.written, c ≠ 0 := by
      cases value with
      | str text =>
        intro c member
        simp only [Value.written, List.mem_cons, List.mem_append, List.not_mem_nil, or_false, List.cons_append] at member
        obtain rfl | inside | rfl := member
        · decide
        · exact plain_nonzero (valued c inside)
        · decide
      | bare text => exact fun c member => plain_nonzero (valued.2 c member).1
    intro c member
    simp only [Member.written, List.mem_cons, List.mem_append, List.cons_append, List.not_mem_nil, or_false] at member
    obtain rfl | (inside | rfl | rfl) | inside := member
    · decide
    · exact plain_nonzero (named c inside)
    · decide
    · decide
    · exact value_nonzero c inside
  have all : ∀ c ∈ writtenMembers members, c ≠ 0 := by
    induction members with
    | nil => decide
    | cons member members ih =>
      obtain ⟨here, later⟩ := List.forall_mem_cons.mp fine
      rcases members with _ | ⟨next, members⟩
      · intro c inside
        obtain within | last := List.mem_append.mp inside
        · exact member_nonzero here c within
        · obtain rfl := List.mem_singleton.mp last
          decide
      · intro c inside
        rw [writtenMembers_cons] at inside
        obtain within | last := List.mem_append.mp inside
        · exact member_nonzero here c within
        · obtain rfl | last := List.mem_cons.mp last
          · decide
          · exact ih later c last
  intro c inside
  obtain rfl | inside := List.mem_cons.mp inside
  · decide
  · simpa using all c inside

theorem WellFormed.get (formed : WellFormed members) {key : String} {cap : Nat} (field : (key, cap) ∈ fields) :
    bpJsonGetTop (writtenObject members) (cstr key) cap = said members key := by
  refine bpJsonGetTop_written formed.fine fun value found => ?_
  refine formed.fits (key, cap) field value.text ?_
  rw [said, found]
  rfl

theorem WellFormed.str (formed : WellFormed members) {key : String} {cap : Nat} (field : (key, cap) ∈ fields) :
    clJsonStr (writtenObject members) key cap = (said members key).getD [] := by
  rw [clJsonStr, formed.get field]

theorem WellFormed.body (formed : WellFormed members) (short : (writtenObject members).length < rxMax) :
    bpJsonGetTop (writtenObject members) (cstr "data_b64") rxMax = said members "data_b64" := by
  refine bpJsonGetTop_written formed.fine fun value found => ?_
  have within := lookup_length found
  have longer : (writtenObject members).length = (writtenMembers members).length + 1 := rfl
  omega

theorem WellFormed.scan (formed : WellFormed members) {key : String} {cap : Nat} (field : (key, cap) ∈ fields)
    (string : key ∈ ["type", "tunnel_id"]) :
    bpJsonScanStr (cstr key) cap (writtenObject members) = said members key := by
  have named : Named (cstr key) := by
    simp only [List.mem_cons, List.not_mem_nil, or_false] at string
    obtain rfl | rfl := string
    · exact ⟨by decide, ascii 't', by decide⟩
    · exact ⟨by decide, ascii 't', by decide⟩
  refine bpJsonScanStr_written named formed.fine fun value found =>
    ⟨formed.strings key string value found, formed.fits (key, cap) field value.text ?_⟩
  rw [said, found]
  rfl

end members

theorem decode_short {text : List Byte} (short : text.length < rxMax) :
    B64url.decode text (rxMax * 3 / 4) = B64url.decode text text.length ∧
      (B64url.decode text text.length).1.length ≤ HwWorker.workDataMax := by
  have shorter : (B64url.unpadded text).length ≤ text.length := by
    rw [B64url.unpadded, List.length_reverse]
    refine Nat.le_trans (List.dropWhile_sublist _).length_le ?_
    rw [List.length_reverse]
  have small : B64url.decodedLength (B64url.unpadded text).length ≤ (B64url.unpadded text).length ∧
      B64url.decodedLength (B64url.unpadded text).length ≤ rxMax * 3 / 4 := by
    unfold rxMax at *
    unfold B64url.decodedLength
    split <;> omega
  have written := B64url.decodeGroups_length_le (B64url.unpadded text)
  have room : rxMax * 3 / 4 ≤ HwWorker.workDataMax := by decide
  unfold B64url.decode
  dsimp only
  split_ifs with first second second
  · exact ⟨rfl, Nat.zero_le _⟩
  · omega
  · omega
  · exact ⟨rfl, by omega⟩

theorem decode_whole {text : List Byte} (short : text.length < rxMax) :
    (B64url.decode text (rxMax * 3 / 4)).2 = false ∧ whole text = none ∨
      ∃ bytes, B64url.decode text (rxMax * 3 / 4) = (bytes, true) ∧ whole text = some bytes ∧
        bytes.take HwWorker.workDataMax = bytes := by
  obtain ⟨same, fits⟩ := decode_short short
  rw [same, whole]
  cases ok : (B64url.decode text text.length).2 with
  | false => exact .inl ⟨rfl, rfl⟩
  | true =>
    refine .inr ⟨(B64url.decode text text.length).1, ?_, rfl, List.take_of_length_le fits⟩
    rw [← ok]

theorem said_short {members : List Member} {key : String} {text : List Byte} (found : said members key = some text)
    (short : (writtenObject members).length < rxMax) : text.length < rxMax := by
  obtain ⟨value, member, rfl⟩ := Option.map_eq_some_iff.mp found
  have within := lookup_length member
  have longer : (writtenObject members).length = (writtenMembers members).length + 1 := rfl
  omega

/-! ## What the handlers do with an object -/

section handlers

variable {members : List Member} {s : Sessions} (busy : Slot → Bool)

theorem handleTunnelData_said (formed : WellFormed members) (short : (writtenObject members).length < rxMax) :
    (s.handleTunnelData { busy } (writtenObject members)).1 =
      s.carry busy (.data ((said members "tunnel_id").getD []) ((said members "data_b64").bind whole)) := by
  have id : clJsonStr (writtenObject members) "tunnel_id" tunnelIdMax = (said members "tunnel_id").getD [] :=
    formed.str (by decide)
  rw [Sessions.handleTunnelData, id, formed.body short, Sessions.carry]
  cases s.slotById ((said members "tunnel_id").getD []) with
  | none => rfl
  | some slot =>
    cases found : said members "data_b64" with
    | none => rfl
    | some text =>
      rw [Option.bind_some]
      dsimp only
      obtain ⟨refused, nothing⟩ | ⟨bytes, decoded, all, fits⟩ := decode_whole (said_short found short)
      · rw [if_pos refused, nothing]
        rfl
      · rw [decoded, all]
        dsimp only
        rw [fits, if_neg (by decide)]
        cases bytes with
        | nil => rfl
        | cons c bytes => rw [if_neg (List.cons_ne_nil _ _)]; rfl

theorem handleOtaData_said (formed : WellFormed members) (short : (writtenObject members).length < rxMax) :
    (s.handleOtaData { busy } (writtenObject members)).1 = s.carry busy
      (match (said members "data_b64").bind whole with
      | some (c :: bytes) => .item (.otaData (strtoul0 ((said members "offset").getD [])) (c :: bytes))
      | _ => .nothing) := by
  have offset : clJsonStr (writtenObject members) "offset" 16 = (said members "offset").getD [] :=
    formed.str (by decide)
  rw [Sessions.handleOtaData, formed.body short, offset]
  cases found : said members "data_b64" with
  | none => rfl
  | some text =>
    rw [Option.bind_some]
    dsimp only
    obtain ⟨refused, nothing⟩ | ⟨bytes, decoded, all, fits⟩ := decode_whole (said_short found short)
    · rw [if_pos (.inl refused), nothing]
      rfl
    · rw [decoded, all]
      dsimp only
      rw [fits]
      cases bytes with
      | nil => rfl
      | cons c bytes => rw [if_neg (by simp)]; rfl

theorem otaArg_length {sha target sig : List Byte} (version : Word) (shaFits : sha.length < 80)
    (targetFits : target.length < 16) (sigFits : sig.length < 200) :
    (Sessions.otaArg sha target version sig).length < 320 := by
  have digits : (cstr (Nat.repr version.toNat)).length ≤ 10 := by
    rw [cstr, List.length_map]
    exact (Nat.length_repr_le_iff (by decide)).mpr (Nat.lt_of_lt_of_le version.isLt (by decide))
  have name : (if target = [] then cstr "firmware" else target).length < 16 := by
    split
    · decide
    · exact targetFits
  simp only [Sessions.otaArg, List.length_append, List.length_singleton]
  omega

theorem handleOtaBegin_said (formed : WellFormed members) :
    (s.handleOtaBegin { busy } (writtenObject members)).1 = s.carry busy
      (match said members "size", said members "sha256" with
      | some size, some sha =>
        .item (.otaBegin (strtoul0 size) (Sessions.otaArg sha ((said members "target").getD [])
          (strtoul0 ((said members "version").getD [])) ((said members "sig").getD [])))
      | _, _ => .nothing) := by
  have fits {key : String} {cap : Nat} (field : (key, cap) ∈ fields) (some : 0 < cap) :
      ((said members key).getD []).length < cap := by
    cases found : said members key with
    | none => exact some
    | some text => exact formed.fits (key, cap) field text found
  have target : clJsonStr (writtenObject members) "target" 16 = (said members "target").getD [] :=
    formed.str (by decide)
  have version : clJsonStr (writtenObject members) "version" 16 = (said members "version").getD [] :=
    formed.str (by decide)
  have sig : clJsonStr (writtenObject members) "sig" 200 = (said members "sig").getD [] := formed.str (by decide)
  have size : bpJsonGetTop (writtenObject members) (cstr "size") 16 = said members "size" := formed.get (by decide)
  have sha : bpJsonGetTop (writtenObject members) (cstr "sha256") 80 = said members "sha256" := formed.get (by decide)
  rw [Sessions.handleOtaBegin, size, sha, target, version, sig]
  cases said members "size" with
  | none => rfl
  | some size =>
    cases found : said members "sha256" with
    | none => rfl
    | some sha =>
      have short := otaArg_length (strtoul0 ((said members "version").getD []))
        (formed.fits ("sha256", 80) (by decide) sha found)
        (fits (by decide : ("target", 16) ∈ fields) (by decide))
        (fits (by decide : ("sig", 200) ∈ fields) (by decide))
      dsimp only
      rw [if_neg (Nat.not_le_of_lt short)]
      rfl

theorem handleCutOff_said (formed : WellFormed members) :
    s.handleCutOff (writtenObject members) =
      if (said members "type").getD [] = cstr "tunnel.data" then
        s.carry busy (.data ((said members "tunnel_id").getD []) none)
      else s := by
  rw [Sessions.handleCutOff, formed.scan (by decide : ("type", 32) ∈ fields) (by decide),
    formed.scan (by decide : ("tunnel_id", tunnelIdMax) ∈ fields) (by decide)]
  rfl

/-- A text frame with an object does what the object says. -/
theorem handleTextFrame_said (formed : WellFormed members) :
    (s.handleTextFrame { busy } (writtenObject members)).1 = s.carry busy (meaning members) := by
  have type : clJsonStr (writtenObject members) "type" 32 = (said members "type").getD [] := formed.str (by decide)
  have id : clJsonStr (writtenObject members) "tunnel_id" tunnelIdMax = (said members "tunnel_id").getD [] :=
    formed.str (by decide)
  rw [Sessions.handleTextFrame, meaning]
  dsimp only
  by_cases cutOff : rxMax ≤ (writtenObject members).length
  · have cut : decide (rxMax ≤ (writtenObject members).length) = true := decide_eq_true cutOff
    rw [if_pos cutOff, handleCutOff_said busy formed, cut]
    by_cases data : (said members "type").getD [] = cstr "tunnel.data"
    · rw [if_pos data, if_pos data, if_pos rfl]
    · rw [if_neg data, if_neg data, if_pos rfl]
      rfl
  · have short : (writtenObject members).length < rxMax := Nat.lt_of_not_le cutOff
    have kept : decide (rxMax ≤ (writtenObject members).length) = false := decide_eq_false cutOff
    rw [if_neg cutOff, written_nonzero formed.fine, type, kept]
    by_cases data : (said members "type").getD [] = cstr "tunnel.data"
    · rw [if_pos data, if_pos data, handleTunnelData_said busy formed short]
      rfl
    rw [if_neg data, if_neg data, if_neg Bool.false_ne_true]
    by_cases opens : (said members "type").getD [] = cstr "tunnel.open"
    · rw [if_pos opens, if_pos opens, Sessions.handleTunnelOpen, id]
      rfl
    rw [if_neg opens, if_neg opens]
    by_cases closes : (said members "type").getD [] = cstr "tunnel.close"
    · rw [if_pos closes, if_pos closes, Sessions.handleTunnelClose, id]
      rfl
    rw [if_neg closes, if_neg closes]
    by_cases begins : (said members "type").getD [] = cstr "ota.begin"
    · rw [if_pos begins, if_pos begins, handleOtaBegin_said busy formed]
    rw [if_neg begins, if_neg begins]
    by_cases chunk : (said members "type").getD [] = cstr "ota.data"
    · rw [if_pos chunk, if_pos chunk, handleOtaData_said busy formed short]
    rw [if_neg chunk, if_neg chunk]
    by_cases ends : (said members "type").getD [] = cstr "ota.end"
    · rw [if_pos ends, if_pos ends]
      rfl
    rw [if_neg ends, if_neg ends]
    by_cases aborts : (said members "type").getD [] = cstr "ota.abort"
    · rw [if_pos aborts, if_pos aborts]
      rfl
    rw [if_neg aborts, if_neg aborts]
    by_cases commits : (said members "type").getD [] = cstr "ota.commit"
    · rw [if_pos commits, if_pos commits]
      rfl
    rw [if_neg commits, if_neg commits]
    rfl

theorem handleTextFrame_other {payload : List Byte} (fine : (ServerFrame.other payload).Fine) :
    (s.handleTextFrame { busy } payload).1 = s := by
  obtain ⟨-, fine⟩ := fine
  dsimp only at fine
  rw [Sessions.handleTextFrame]
  split_ifs at fine with cutOff
  · rw [if_pos cutOff, Sessions.handleCutOff, if_neg fine]
  · rw [if_neg cutOff]
    dsimp only
    have none_of {type : List Byte} (carrier : type ∈ carriers) :
        clJsonStr (payload.takeWhile (· ≠ 0)) "type" 32 ≠ type := fun same => fine (same ▸ carrier)
    rw [if_neg (none_of (by simp [carriers])), if_neg (none_of (by simp [carriers])),
      if_neg (none_of (by simp [carriers])), if_neg (none_of (by simp [carriers])),
      if_neg (none_of (by simp [carriers])), if_neg (none_of (by simp [carriers])),
      if_neg (none_of (by simp [carriers])), if_neg (none_of (by simp [carriers]))]

end handlers

/-! ## Runs over the server's frames -/

theorem take_frame {frame : ServerFrame} (fine : frame.Fine) {turn : Turn} (opcode : turn.opcode = frame.opcode)
    (payload : turn.payload = frame.payload) (s : Sessions) :
    turn.take s = s.carry turn.busy frame.meaning := by
  rw [Turn.take, opcode, payload]
  cases frame with
  | said members => exact (if_pos rfl).trans (handleTextFrame_said turn.busy fine.2)
  | other payload => exact (if_pos rfl).trans (handleTextFrame_other turn.busy fine)
  | control opcode payload => exact if_neg fine.2.2.2.1

theorem ServerFrame.Fine.parse {frame : ServerFrame} (fine : frame.Fine) (rest : List Byte) :
    wsParseFrame (frame.written ++ rest) =
      if frame.payload.length ≤ 0xFFFF then .frame frame.opcode frame.payload frame.written.length
      else .bad := by
  have text : (1 : Byte) < 16 ∧ (1 : Byte) ≠ 0 := by decide
  have code : frame.opcode < 16 ∧ frame.opcode ≠ 0 := by
    cases frame with
    | said members => exact text
    | other payload => exact text
    | control opcode payload => exact ⟨fine.2.1, fine.2.2.1⟩
  exact wsParseFrame_written code.1 code.2 frame.payload rest fine.1

theorem turn_frame {turn : Turn} (whole : turn.Whole) {frame : ServerFrame} (fine : frame.Fine)
    {rest more : List Byte} (stream : turn.raw ++ more = frame.written ++ rest) :
    turn.opcode = frame.opcode ∧ turn.payload = frame.payload ∧ turn.raw = frame.written := by
  have parsed := (wsParseFrame_eq_frame whole).2.2 more
  rw [List.take_length, stream, fine.parse rest] at parsed
  split_ifs at parsed with fits
  injection parsed with opcode payload length
  exact ⟨opcode.symm, payload.symm, List.append_inj_left stream length.symm⟩

theorem turns_frames {turns : List Turn} (whole : ∀ turn ∈ turns, turn.Whole) {frames : List ServerFrame}
    (fine : ∀ frame ∈ frames, frame.Fine) (stream : turns.flatMap Turn.raw <+: frames.flatMap ServerFrame.written) :
    ∃ served : List (ServerFrame × (Slot → Bool)), served.map Prod.fst <+: frames ∧
      (served.map Prod.fst).flatMap ServerFrame.written = turns.flatMap Turn.raw ∧
      ∀ s, turns.foldl Turn.take s = served.foldl (fun s turn => s.carry turn.2 turn.1.meaning) s := by
  induction turns generalizing frames with
  | nil => exact ⟨[], List.nil_prefix, rfl, fun _ => rfl⟩
  | cons turn turns ih =>
    obtain ⟨here, later⟩ := List.forall_mem_cons.mp whole
    obtain ⟨more, split⟩ := stream
    rw [List.flatMap_cons, List.append_assoc] at split
    cases frames with
    | nil =>
      have two := (wsParseFrame_eq_frame here).1
      have empty : turn.raw = [] := (List.append_eq_nil_iff.mp split).1
      rw [empty] at two
      cases two
    | cons frame frames =>
      obtain ⟨fine, fines⟩ := List.forall_mem_cons.mp fine
      rw [List.flatMap_cons] at split
      obtain ⟨opcode, payload, raw⟩ := turn_frame here fine split
      rw [raw] at split
      obtain ⟨served, front, bytes, does⟩ := ih later fines ⟨more, List.append_cancel_left split⟩
      refine ⟨(frame, turn.busy) :: served, ?_, ?_, fun s => ?_⟩
      · exact (List.prefix_cons_inj frame).mpr front
      · rw [List.map_cons, List.flatMap_cons, List.flatMap_cons, bytes, raw]
      · rw [List.foldl_cons, List.foldl_cons, take_frame fine opcode payload]
        exact does _

theorem whole_found {frame : ServerFrame} (fine : frame.Fine) {rx rest : List Byte}
    (stream : rx <+: frame.written ++ rest) (drained : wsParseFrame rx = .more) :
    rx.length < frame.written.length := by
  by_contra longer
  have front : frame.written <+: rx :=
    List.prefix_of_prefix_length_le (List.prefix_append _ _) stream (Nat.le_of_not_lt longer)
  obtain ⟨more, rfl⟩ := front
  rw [fine.parse more] at drained
  split_ifs at drained

/-- While the link stays up, however its bytes were cut, refused and polled, what was handed to the worker
is what the server's first frames are for, each once and in order, and the later frames are still in the
buffer or with the TLS layer.  A poll that finds room for everything leaves no whole frame. -/
theorem frames_in_order (events : List Event) {frames : List ServerFrame}
    (fine : ∀ frame ∈ frames, frame.Fine)
    (stream : (Link.run events).sent <+: frames.flatMap ServerFrame.written)
    (stays : (Link.run events).Stays) :
    ∃ served : List (ServerFrame × (Slot → Bool)), served.map Prod.fst <+: frames ∧
      (Link.run events).sent = (served.map Prod.fst).flatMap ServerFrame.written ++ (Link.run events).rx ++
        (Link.run events).wire ∧
      (Link.run events).sessions = served.foldl (fun s turn => s.carry turn.2 turn.1.meaning) {} ∧
      ∀ front answers, events = front ++ [.poll answers] → (∀ n, (answers n).accepts = true) →
        ∀ frame, served.map Prod.fst ++ [frame] <+: frames →
          (Link.run events).rx.length < frame.written.length := by
  obtain ⟨turns, kept⟩ := run_kept events stays
  have handled : turns.flatMap Turn.raw <+: frames.flatMap ServerFrame.written := by
    refine List.IsPrefix.trans ?_ stream
    rw [kept.sent, List.append_assoc]
    exact List.prefix_append _ _
  obtain ⟨served, front, bytes, does⟩ := turns_frames kept.whole fine handled
  refine ⟨served, front, ?_, ?_, ?_⟩
  · rw [bytes]
    exact kept.sent
  · rw [kept.sessions]
    exact does _
  · rintro earlier answers rfl room frame next
    have last : Link.run (earlier ++ [.poll answers]) = (Link.run earlier).step (.poll answers) := List.foldl_concat ..
    have drained : wsParseFrame (Link.run (earlier ++ [.poll answers])).rx = .more := by
      rw [last] at stays ⊢
      exact poll_drains room stays
    obtain ⟨more, split⟩ := next
    have member : frame ∈ frames := by
      rw [← split]
      simp
    rw [← split, kept.sent, ← bytes, List.flatMap_append, List.flatMap_append, List.flatMap_singleton,
      List.append_assoc, List.append_assoc, List.prefix_append_right_inj] at stream
    exact whole_found (fine frame member) ((List.prefix_append _ _).trans stream) drained

/-- A member with a string. -/
def strMember (key text : String) : Member := (cstr key, .str (cstr text))

/-- A tunnel is opened, given two bytes and closed. -/
def tunnelFrames : List ServerFrame :=
  [.said [strMember "tunnel_id" "a", strMember "type" "tunnel.open"],
    .said [strMember "data_b64" "AQI", strMember "tunnel_id" "a", strMember "type" "tunnel.data"],
    .said [strMember "tunnel_id" "a", strMember "type" "tunnel.close"]]

/-- The frames arrive at once, are offered in two chains, and the queue is full for a while. -/
def tunnelEvents : List Event :=
  [.arrive (tunnelFrames.flatMap ServerFrame.written), .offer [20, 30], .poll fun _ => {},
    .offer [60, 4], .poll fun _ => { accepts := false }, .poll fun _ => {}]

theorem frames_in_order_tunnel :
    ∃ served : List (ServerFrame × (Slot → Bool)), served.map Prod.fst <+: tunnelFrames ∧
      (Link.run tunnelEvents).sessions = served.foldl (fun s turn => s.carry turn.2 turn.1.meaning) {} ∧
      (Link.run tunnelEvents).sessions.log = [.reset 0, .bytes 0 [1, 2]] ∧
      ∀ frame, served.map Prod.fst ++ [frame] <+: tunnelFrames →
        (Link.run tunnelEvents).rx.length < frame.written.length := by
  have fine : ∀ frame ∈ tunnelFrames, frame.Fine := by decide +kernel
  have stays : (Link.run tunnelEvents).Stays := ⟨by decide +kernel, by decide +kernel⟩
  have sent : (Link.run tunnelEvents).sent <+: tunnelFrames.flatMap ServerFrame.written := by decide +kernel
  obtain ⟨served, front, -, does, drained⟩ := frames_in_order tunnelEvents fine sent stays
  exact ⟨served, front, does, by decide +kernel,
    drained (tunnelEvents.take 5) _ rfl fun _ => rfl⟩

/-- Bytes for a tunnel that is not bound are dropped, and so is a chunk of an image that is no base64: both
frames are gone, and neither an item nor the end of a tunnel has come of them. -/
theorem frames_dropped :
    let frames : List ServerFrame :=
      [.said [strMember "data_b64" "AQI", strMember "tunnel_id" "a", strMember "type" "tunnel.data"],
        .said [strMember "data_b64" "!", strMember "offset" "0", strMember "type" "ota.data"]]
    let events : List Event := [.arrive (frames.flatMap ServerFrame.written), .offer [106], .poll fun _ => {}]
    (Link.run events).sent = frames.flatMap ServerFrame.written ∧ (Link.run events).up = true ∧
      (Link.run events).rx = [] ∧ (Link.run events).wire = [] ∧
      frames.map ServerFrame.meaning = [.data (cstr "a") (some [1, 2]), .nothing] ∧
      (Link.run events).sessions.log = [] := by
  decide +kernel

end BenchPod.Cloud
