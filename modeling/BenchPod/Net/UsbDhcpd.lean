import BenchPod.Library.Fields
import BenchPod.Library.Word

/-!
# The DHCP server of the USB link

The link has one host, and the server has one address to give.  It answers a datagram of the host with one
message or not at all; the options of the datagram are a chain that the host has laid out.  `usb_dhcpd.c`.
-/

namespace BenchPod.UsbDhcpd

open Endian Fields

/-- `usb_dhcpd_cfg_t`. -/
structure Cfg where
  serverIp : Word
  clientIp : Word
  netmask : Word
  leaseS : Word

def offOptions : Nat := 240
def usbDhcpdMaxMsg : Nat := 300

def optPad : Byte := 0
def optMask : Byte := 1
def optReqIp : Byte := 50
def optLease : Byte := 51
def optMsgType : Byte := 53
def optServerId : Byte := 54
def optEnd : Byte := 255

def discover : Byte := 1
def offer : Byte := 2
def request : Byte := 3
def ack : Byte := 5
def nak : Byte := 6

def kCookie : List Byte := [99, 130, 83, 99]

/-- Read so many bytes of the datagram; `none` past its end. -/
def slice (req : List Byte) (offset count : Nat) : Option (List Byte) :=
  if offset + count ≤ req.length then some (part req offset count) else none

/-- `find_opt`: the position of the length byte, in a walk that stands at `i`. -/
def findOpt (req : List Byte) (code : Byte) (i : Nat) : Option (Option Nat) :=
  if i < req.length then
    req[i]?.bind fun c =>
      if c = optEnd then some none
      else if c = optPad then findOpt req code (i + 1)
      else if req.length ≤ i + 1 then some none
      else
        req[i + 1]?.bind fun l =>
          if req.length < i + 2 + l.toNat then some none
          else if c = code then some (some (i + 1))
          else findOpt req code (i + 2 + l.toNat)
  else some none
termination_by req.length - i

/-- `(p && p[0] == 4) ? get_u32(&p[1])`, for an option that was looked for. -/
def optWord (req : List Byte) : Option Nat → Option (Option Word)
  | none => some none
  | some p => do
    let len ← req[p]?
    if len = 4 then (slice req (p + 1) 4).map (some ∘ getBe32) else some none

/-- The type of the reply to a message of this type, if it is answered. -/
def replyType (cfg : Cfg) (req : List Byte) (kind : Byte) : Option (Option Byte) :=
  if kind = discover then some (some offer)
  else if kind = request then do
    let want ← match ← optWord req (← findOpt req optReqIp offOptions) with
      | some want => some want
      | none => (slice req 12 4).map getBe32
    let sid ← optWord req (← findOpt req optServerId offOptions)
    if sid.any (· ≠ cfg.serverIp) then some none
    else some (some (if want = cfg.clientIp then ack else nak))
  else some none

/-- `opt_u32`. -/
def optU32 (code : Byte) (v : Word) : List Byte := code :: 4 :: be32 v

/-- The fields of the reply. -/
def fields (cfg : Cfg) (xid flags chaddr : List Byte) (type : Byte) : List (Fields.Field Byte) :=
  [(0, [2]), (1, [1]), (2, [6]), (4, xid), (10, flags), (28, chaddr), (236, kCookie),
    (240, [optMsgType, 1, type]), (243, optU32 optServerId cfg.serverIp)] ++
  if type ≠ nak then
    [(16, be32 cfg.clientIp), (20, be32 cfg.serverIp), (249, optU32 optLease cfg.leaseS),
      (255, optU32 optMask cfg.netmask), (261, [optEnd])]
  else [(249, [optEnd])]

/-- The message in `out`, over zeros. -/
def message (out : List Byte) (fields : List (Fields.Field Byte)) : List Byte :=
  puts (List.replicate usbDhcpdMaxMsg 0 ++ out.drop usbDhcpdMaxMsg) fields

/-- `usb_dhcpd_reply`: what it returns and what it leaves in `out`; `none` if it reads past the datagram. -/
def usbDhcpdReply (cfg : Cfg) (req out : List Byte) : Option (Nat × List Byte) :=
  if req.length < offOptions ∨ out.length < usbDhcpdMaxMsg then some (0, out)
  else do
    if (← req[0]?) ≠ 1 ∨ (← req[1]?) ≠ 1 ∨ (← req[2]?) ≠ 6 then some (0, out)
    else if (← slice req 236 4) ≠ kCookie then some (0, out)
    else
      match ← findOpt req optMsgType offOptions with
      | none => some (0, out)
      | some mt =>
        if (← req[mt]?) ≠ 1 then some (0, out)
        else
          match ← replyType cfg req (← req[mt + 1]?) with
          | none => some (0, out)
          | some type =>
            some (usbDhcpdMaxMsg, message out (fields cfg (← slice req 4 4) (← slice req 10 2) (← slice req 28 16) type))

/-! ## The options of a message -/

/-- The options, up to the end marker or to one that is cut off. -/
def options : List Byte → List (Byte × List Byte)
  | [] => []
  | c :: rest =>
    if c = optEnd then []
    else if c = optPad then options rest
    else
      match rest with
      | [] => []
      | l :: rest => if rest.length < l.toNat then [] else (c, rest.take l.toNat) :: options (rest.drop l.toNat)
termination_by area => area.length
decreasing_by
  · exact Nat.lt_succ_self _
  · simp only [List.length_drop, List.length_cons]
    omega

theorem options_end (rest : List Byte) : options (optEnd :: rest) = [] := by
  rw [options.eq_def]
  exact if_pos rfl

theorem options_pad (rest : List Byte) : options (optPad :: rest) = options rest := by
  rw [options.eq_def]
  exact (if_neg (by decide)).trans (if_pos rfl)

theorem options_append {c : Byte} (marker : c ≠ optEnd) (pad : c ≠ optPad) {l : Byte} {value : List Byte}
    (whole : l.toNat = value.length) (rest : List Byte) :
    options (c :: l :: (value ++ rest)) = (c, value) :: options rest := by
  rw [options, if_neg marker, if_neg pad, whole, List.take_left' rfl, List.drop_left' rfl, if_neg]
  rw [List.length_append]
  omega

theorem options_u32 {code : Byte} (marker : code ≠ optEnd) (pad : code ≠ optPad) (v : Word) (rest : List Byte) :
    options (optU32 code v ++ rest) = (code, be32 v) :: options rest :=
  @options_append code marker pad 4 _ (be32_length v).symm rest

/-- The first option with a code. -/
def option (req : List Byte) (code : Byte) : Option (List Byte) := (options (req.drop offOptions)).lookup code

/-- An option that holds an address. -/
def address (req : List Byte) (code : Byte) : Option Word :=
  (option req code).bind fun value => if value.length = 4 then some (getBe32 value) else none

/-- The address that a request asks for. -/
def asks (req : List Byte) : Word := (address req optReqIp).getD (getBe32 (part req 12 4))

/-- A message of a client with this type, and room for the reply. -/
def Asked (req out : List Byte) (kind : Byte) : Prop :=
  offOptions ≤ req.length ∧ usbDhcpdMaxMsg ≤ out.length ∧ part req 0 3 = [1, 1, 6] ∧ part req 236 4 = kCookie ∧
    option req optMsgType = some [kind]

instance : Decidable (Asked req out kind) := inferInstanceAs (Decidable (_ ∧ _ ∧ _ ∧ _ ∧ _))

/-- The type of the reply that a message deserves. -/
def deserved (cfg : Cfg) (req out : List Byte) : Option Byte :=
  if Asked req out discover then some offer
  else if Asked req out request ∧ ∀ server ∈ address req optServerId, server = cfg.serverIp then
    some (if asks req = cfg.clientIp then ack else nak)
  else none

variable {cfg : Cfg} {req out : List Byte} {code : Byte} {i : Nat}

theorem drop_cons {c : Byte} {rest : List Byte} (stands : req.drop i = c :: rest) :
    i < req.length ∧ req[i]? = some c ∧ req.drop (i + 1) = rest := by
  have inside : i < req.length := by
    by_contra past
    rw [List.drop_eq_nil_of_le (Nat.not_lt.mp past)] at stands
    cases stands
  rw [List.drop_eq_getElem_cons inside] at stands
  obtain ⟨here, rest⟩ := List.cons.inj stands
  exact ⟨inside, (List.getElem?_eq_getElem inside).trans (congrArg some here), rest⟩

/-- A step of the walk, by what is left of the datagram. -/
theorem findOpt_cons {c : Byte} {rest : List Byte} (stands : req.drop i = c :: rest) :
    findOpt req code i =
      if c = optEnd then some none
      else if c = optPad then findOpt req code (i + 1)
      else
        match rest with
        | [] => some none
        | l :: behind =>
          if behind.length < l.toNat then some none
          else if c = code then some (some (i + 1)) else findOpt req code (i + 2 + l.toNat) := by
  obtain ⟨inside, here, next⟩ := drop_cons stands
  rw [findOpt, if_pos inside, here, Option.bind_some]
  cases rest with
  | nil => rw [if_pos (List.drop_eq_nil_iff.mp next)]
  | cons l behind =>
    obtain ⟨inside', there, last⟩ := drop_cons next
    have short : req.length < i + 2 + l.toNat ↔ behind.length < l.toNat := by
      rw [← last, List.length_drop]
      omega
    simp only [if_neg (Nat.not_le.mpr inside'), there, Option.bind_some, short]

/-- The walk finds the first whole option with the code, before the end marker. -/
theorem findOpt_eq {area : List Byte} (stands : req.drop i = area) :
    findOpt req code i = some none ∧ (options area).lookup code = none ∨
    ∃ p l value rest, findOpt req code i = some (some p) ∧ (options area).lookup code = some value ∧
      req.drop p = l :: (value ++ rest) ∧ l.toNat = value.length := by
  induction area using options.induct generalizing i with
  | case1 =>
    rw [findOpt, if_neg (Nat.not_lt.mpr (List.drop_eq_nil_iff.mp stands)), options]
    exact .inl ⟨rfl, rfl⟩
  | case2 rest =>
    rw [findOpt_cons stands, if_pos rfl, options_end]
    exact .inl ⟨rfl, rfl⟩
  | case3 rest other ih =>
    rw [findOpt_cons stands, if_neg other, if_pos rfl, options_pad]
    exact ih (drop_cons stands).2.2
  | case4 c marker pad =>
    rw [findOpt_cons stands, if_neg marker, if_neg pad, options, if_neg marker, if_neg pad]
    exact .inl ⟨rfl, rfl⟩
  | case5 c marker pad l rest short =>
    rw [findOpt_cons stands, options]
    simp only [if_neg marker, if_neg pad, if_pos short]
    exact .inl ⟨trivial, rfl⟩
  | case6 c marker pad l rest whole ih =>
    have next := (drop_cons stands).2.2
    rw [findOpt_cons stands, options]
    simp only [if_neg marker, if_neg pad, if_neg whole, List.lookup_cons]
    by_cases same : c = code
    · subst same
      refine .inr ⟨i + 1, l, rest.take l.toNat, rest.drop l.toNat, if_pos rfl, by rw [beq_self_eq_true], ?_, ?_⟩
      · rw [next, List.take_append_drop]
      · rw [List.length_take_of_le (Nat.not_lt.mp whole)]
    · rw [if_neg same, beq_false_of_ne (Ne.symm same)]
      apply ih
      rw [← (drop_cons next).2.2, List.drop_drop]

theorem slice_eq {offset count : Nat} (within : offset + count ≤ req.length) :
    slice req offset count = some (part req offset count) := if_pos within

theorem optWord_eq (code : Byte) : (findOpt req code offOptions).bind (optWord req) = some (address req code) := by
  obtain ⟨walk, missing⟩ | ⟨p, l, value, rest, walk, found, stands, whole⟩ := @findOpt_eq req code _ _ rfl
  · rw [walk, address, option, missing]
    rfl
  · obtain ⟨inside, here, behind⟩ := drop_cons stands
    have four : l = 4 ↔ value.length = 4 := by
      rw [← whole, ← BitVec.toNat_inj]
      rfl
    rw [walk, address, option, found, Option.bind_some, optWord, here]
    simp only [Option.bind_eq_bind, Option.bind_some, four]
    split
    · rename_i length_eq
      have within : p + 1 + 4 ≤ req.length := by
        have counts := congrArg List.length behind
        rw [List.length_drop, List.length_append] at counts
        omega
      rw [slice_eq within, part, behind, List.take_left' length_eq]
      rfl
    · rfl

theorem replyType_eq (long : offOptions ≤ req.length) (kind : Byte) :
    replyType cfg req kind = some (if kind = discover then some offer
      else if kind = request ∧ ∀ server ∈ address req optServerId, server = cfg.serverIp then
        some (if asks req = cfg.clientIp then ack else nak)
      else none) := by
  rw [replyType]
  split
  · rfl
  · split
    · rename_i asked
      have ciaddr := @slice_eq req 12 4 (Nat.le_trans (by decide) long)
      simp only [Option.bind_eq_bind, ← Option.bind_assoc, optWord_eq, Option.bind_some, ciaddr]
      have judged (want : Word) : (if (address req optServerId).any (· ≠ cfg.serverIp) then some none
            else some (some (if want = cfg.clientIp then ack else nak))) =
          some (if kind = request ∧ ∀ server ∈ address req optServerId, server = cfg.serverIp then
            some (if want = cfg.clientIp then ack else nak) else none) := by
        cases address req optServerId with
        | none => simp [asked]
        | some server => by_cases same : server = cfg.serverIp <;> simp [asked, same]
      rw [asks]
      cases address req optReqIp with
      | none => exact judged _
      | some want => exact judged want
    · rename_i other
      rw [if_neg fun both => other both.1]

theorem deserved_none (refused : ∀ kind, ¬Asked req out kind) : deserved cfg req out = none := by
  rw [deserved, if_neg (refused _), if_neg fun both => refused _ both.1]

theorem usbDhcpdReply_eq :
    usbDhcpdReply cfg req out = some (match deserved cfg req out with
      | none => (0, out)
      | some type => (usbDhcpdMaxMsg,
          message out (fields cfg (part req 4 4) (part req 10 2) (part req 28 16) type))) := by
  rw [usbDhcpdReply]
  split
  · rename_i short
    rw [deserved_none]
    rintro kind ⟨long, room, -⟩
    exact short.elim (Nat.not_lt.mpr long) (Nat.not_lt.mpr room)
  · rename_i enough
    rw [not_or, Nat.not_lt, Nat.not_lt] at enough
    obtain ⟨long, room⟩ := enough
    obtain ⟨a, b, c, front, first, second, third⟩ :
        ∃ a b c, part req 0 3 = [a, b, c] ∧ req[0]? = some a ∧ req[1]? = some b ∧ req[2]? = some c := by
      match req, long with
      | a :: b :: c :: _, _ => exact ⟨a, b, c, rfl, rfl, rfl, rfl⟩
    have cookie := @slice_eq req 236 4 long
    have xid := @slice_eq req 4 4 (Nat.le_trans (by decide) long)
    have flags := @slice_eq req 10 2 (Nat.le_trans (by decide) long)
    have chaddr := @slice_eq req 28 16 (Nat.le_trans (by decide) long)
    have header : (a ≠ 1 ∨ b ≠ 1 ∨ c ≠ 6) ↔ ¬part req 0 3 = [1, 1, 6] := by
      rw [front]
      simp only [List.cons.injEq, and_true, not_and_or, ne_eq]
    simp only [Option.bind_eq_bind, Option.bind_some, first, second, third, cookie, xid, flags, chaddr, header]
    by_cases head : part req 0 3 = [1, 1, 6]
    · by_cases magic : part req 236 4 = kCookie
      · rw [if_neg (not_not.mpr head), if_neg (not_not.mpr magic)]
        obtain ⟨walk, missing⟩ | ⟨p, l, value, rest, walk, found, stands, whole⟩ := @findOpt_eq req optMsgType _ _ rfl
        · rw [walk, deserved_none]
          · rfl
          · exact fun kind asked => nomatch missing.symm.trans asked.2.2.2.2
        · obtain ⟨-, here, behind⟩ := drop_cons stands
          rw [walk, Option.bind_some]
          simp only [here, Option.bind_some]
          have one : l = 1 ↔ value.length = 1 := by
            rw [← whole, ← BitVec.toNat_inj]
            rfl
          by_cases single : l = 1
          · obtain ⟨kind, rfl⟩ := List.length_eq_one_iff.mp (one.mp single)
            obtain ⟨-, there, -⟩ := drop_cons behind
            have asked (other : Byte) : Asked req out other ↔ kind = other := by
              rw [Asked, option, found, Option.some_inj, List.singleton_inj]
              exact ⟨fun all => all.2.2.2.2, fun same => ⟨long, room, head, magic, same⟩⟩
            rw [if_neg (not_not.mpr single), there, Option.bind_some, replyType_eq long, Option.bind_some]
            simp only [deserved, asked]
            split <;> rfl
          · rw [if_pos single, deserved_none]
            intro kind asked
            have same : value = [kind] := Option.some.inj (found.symm.trans asked.2.2.2.2)
            exact single (one.mpr (congrArg List.length same))
      · rw [deserved_none fun kind asked => magic asked.2.2.2.1, if_neg (not_not.mpr head), if_pos magic]
    · rw [deserved_none fun kind asked => head asked.2.2.1, if_pos head]

/-! ## The reply -/

variable {xid flags chaddr : List Byte} {type : Byte}

theorem fields_apart (xid_four : xid.length = 4) (flags_two : flags.length = 2) (chaddr_whole : chaddr.length = 16) :
    (fields cfg xid flags chaddr type).Pairwise Fields.Apart ∧
      ∀ f ∈ fields cfg xid flags chaddr type, Inside usbDhcpdMaxMsg f := by
  have layout : (fields cfg xid flags chaddr type).map (fun f => (f.1, f.2.length)) =
      [(0, 1), (1, 1), (2, 1), (4, 4), (10, 2), (28, 16), (236, 4), (240, 3), (243, 6)] ++
        if type ≠ nak then [(16, 4), (20, 4), (249, 6), (255, 6), (261, 1)] else [(249, 1)] := by
    rw [fields, List.map_append]
    simp only [List.map_cons, xid_four, flags_two, chaddr_whole]
    split <;> rfl
  constructor
  · have numbers : ((fields cfg xid flags chaddr type).map fun f => (f.1, f.2.length)).Pairwise
        fun f g => f.1 + f.2 ≤ g.1 ∨ g.1 + g.2 ≤ f.1 := by
      rw [layout]
      split <;> decide
    rwa [List.pairwise_map] at numbers
  · have numbers : ∀ f ∈ (fields cfg xid flags chaddr type).map fun f => (f.1, f.2.length), f.1 + f.2 ≤ 300 := by
      rw [layout]
      split <;> decide
    rwa [List.forall_mem_map] at numbers

/-- Every field of a reply is read back, and its options are the ones that were written. -/
theorem message_read (room : usbDhcpdMaxMsg ≤ out.length) (xid_four : xid.length = 4) (flags_two : flags.length = 2)
    (chaddr_whole : chaddr.length = 16) :
    let sent := message out (fields cfg xid flags chaddr type)
    sent.length = out.length ∧ (∀ f ∈ fields cfg xid flags chaddr type, part sent f.1 f.2.length = f.2) ∧
      options (sent.drop offOptions) = [(optMsgType, [type]), (optServerId, be32 cfg.serverIp)] ++
        if type ≠ nak then [(optLease, be32 cfg.leaseS), (optMask, be32 cfg.netmask)] else [] := by
  intro sent
  obtain ⟨apart, inside⟩ := @fields_apart cfg _ _ _ type xid_four flags_two chaddr_whole
  have blank : (List.replicate usbDhcpdMaxMsg (0 : Byte) ++ out.drop usbDhcpdMaxMsg).length = out.length := by
    rw [List.length_append, List.length_replicate, List.length_drop, Nat.add_sub_cancel' room]
  have within : ∀ f ∈ fields cfg xid flags chaddr type,
      Inside (List.replicate usbDhcpdMaxMsg (0 : Byte) ++ out.drop usbDhcpdMaxMsg).length f := fun f member =>
    Nat.le_trans (inside f member) (blank.symm ▸ room)
  have read := part_puts within apart
  refine ⟨(puts_length within).trans blank, read, ?_⟩
  have cut {offset : Nat} {content : List Byte} (member : (offset, content) ∈ fields cfg xid flags chaddr type) :
      sent.drop offset = content ++ sent.drop (offset + content.length) := by
    conv_lhs => rw [← List.take_append_drop content.length (sent.drop offset), List.drop_drop]
    exact congrArg (· ++ _) (read _ member)
  have first : sent.drop 240 = [optMsgType, 1, type] ++ sent.drop 243 := cut (by simp [fields])
  have second : sent.drop 243 = optU32 optServerId cfg.serverIp ++ sent.drop 249 := cut (by simp [fields])
  rw [offOptions, first, second]
  change options (optMsgType :: 1 :: ([type] ++ _)) = _
  rw [options_append (by decide) (by decide) rfl, options_u32 (by decide) (by decide)]
  by_cases refused : type = nak
  · have last : sent.drop 249 = [optEnd] ++ sent.drop 250 := cut (by simp [fields, refused])
    rw [last, List.singleton_append, options_end, if_neg (not_not.mpr refused)]
    rfl
  · have third : sent.drop 249 = optU32 optLease cfg.leaseS ++ sent.drop 255 := cut (by simp [fields, refused])
    have fourth : sent.drop 255 = optU32 optMask cfg.netmask ++ sent.drop 261 := cut (by simp [fields, refused])
    have last : sent.drop 261 = [optEnd] ++ sent.drop 262 := cut (by simp [fields, refused])
    rw [third, fourth, last, options_u32 (by decide) (by decide), options_u32 (by decide) (by decide),
      List.singleton_append, options_end, if_pos refused]
    rfl

/-- Whatever the datagram, nothing is read behind its end, and a host is answered as it deserves: an offer for a
discovery, an acknowledgement for a request of its own address, a refusal for any other, and none of these for a
request that names another server.  The reply reads back field by field and option by option. -/
theorem usbDhcpdReply_answers (cfg : Cfg) (req out : List Byte) :
    match deserved cfg req out with
    | none => usbDhcpdReply cfg req out = some (0, out)
    | some type => ∃ sent, usbDhcpdReply cfg req out = some (usbDhcpdMaxMsg, sent) ∧ sent.length = out.length ∧
        (∀ f ∈ fields cfg (part req 4 4) (part req 10 2) (part req 28 16) type, part sent f.1 f.2.length = f.2) ∧
        options (sent.drop offOptions) = [(optMsgType, [type]), (optServerId, be32 cfg.serverIp)] ++
          if type ≠ nak then [(optLease, be32 cfg.leaseS), (optMask, be32 cfg.netmask)] else [] := by
  rw [usbDhcpdReply_eq]
  cases verdict : deserved cfg req out with
  | none => rfl
  | some type =>
    obtain ⟨long, room⟩ : offOptions ≤ req.length ∧ usbDhcpdMaxMsg ≤ out.length := by
      by_contra short
      rw [deserved_none] at verdict
      · cases verdict
      · exact fun kind asked => short ⟨asked.1, asked.2.1⟩
    have part_length {offset count : Nat} (within : offset + count ≤ 240) : (part req offset count).length = count := by
      rw [part, List.length_take_of_le]
      rw [List.length_drop]
      exact Nat.le_sub_of_add_le (Nat.add_comm .. ▸ Nat.le_trans within long)
    have xid : (part req 4 4).length = 4 := part_length (by decide)
    have flags : (part req 10 2).length = 2 := part_length (by decide)
    have chaddr : (part req 28 16).length = 16 := part_length (by decide)
    exact ⟨_, rfl, message_read room xid flags chaddr⟩

end BenchPod.UsbDhcpd
