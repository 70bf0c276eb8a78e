import BenchPod.Library.Fields
import BenchPod.Library.Word
import Mathlib.Algebra.BigOperators.Group.List.Basic
import Mathlib.Tactic.IntervalCases

/-!
# esp_hosted_frame_build and esp_hosted_frame_parse

A header of twelve bytes in front of a payload, with a sum over both in it.  The length of what is summed
is handed over in 16 bits, so of a frame of 65536 bytes or more only the front is.
-/

namespace BenchPod.EspHosted

open Endian Fields

def espHostedChecksum (frame : List Byte) (len : Half) : Half :=
  (frame.take len.toNat).foldl (fun s byte => s + byte.setWidth 16) 0

def espHostedHdrLen : Nat := 12

/-- esp_hosted_frame_build over the caller's buffer: what it returns, and the buffer. -/
def espHostedFrameBuild (out : List Byte) (ifType ifNum flags privPktType : Byte) (seqNum : Half)
    (payload : List Byte) (len : Half) : Nat × List Byte :=
  let total := espHostedHdrLen + len.toNat
  if out.length < total then (0, out)
  else
    let out := puts out
      [(0, List.replicate espHostedHdrLen 0), (0, [ifNum <<< 4 ||| ifType &&& 0x0F]), (1, [flags]),
        (2, le16 len), (4, le16 (BitVec.ofNat 16 espHostedHdrLen)), (6, le16 0), (8, le16 seqNum), (10, [0]),
        (11, [privPktType]), (espHostedHdrLen, payload)]
    (total, put out (6, le16 (espHostedChecksum out (BitVec.ofNat 16 total))))

/-- `esp_hosted_rx_t` -/
structure Rx where
  ifType : Byte
  ifNum : Byte
  flags : Byte
  privPktType : Byte
  seqNum : Half
  payload : List Byte
  payloadLen : Half
  deriving DecidableEq

/-- The offset that a header gives. -/
def offset (buf : List Byte) : Half := rd16 (part buf 4 2)

/-- The payload's length that a header gives. -/
def plen (buf : List Byte) : Half := rd16 (part buf 2 2)

/-- The length of the frame that a header describes. -/
def total (buf : List Byte) : Nat := (offset buf).toNat + (plen buf).toNat

def espHostedFrameParse (buf : List Byte) : Option Rx :=
  if buf.length < espHostedHdrLen then none
  else if (offset buf).toNat < espHostedHdrLen then none
  else if buf.length < total buf then none
  else
    let stored := rd16 (part buf 6 2)
    let calculated := espHostedChecksum buf (BitVec.ofNat 16 (total buf)) - (buf.getD 6 0).setWidth 16 -
      (buf.getD 7 0).setWidth 16
    if calculated ≠ stored then none
    else
      some
        { ifType := buf.getD 0 0 &&& 0x0F
          ifNum := buf.getD 0 0 >>> 4
          flags := buf.getD 1 0
          privPktType := buf.getD 11 0
          seqNum := rd16 (part buf 8 2)
          payload := part buf (offset buf).toNat (plen buf).toNat
          payloadLen := plen buf }

/-- The sum of bytes. -/
def octets (bytes : List Byte) : Nat := (bytes.map BitVec.toNat).sum

/-- The checksum field is the sum of all bytes of the frame, that field taken for zeros. -/
def RightChecksum (buf : List Byte) : Prop :=
  rd16 (part buf 6 2) = BitVec.ofNat 16 (octets (put (buf.take (total buf)) (6, [0, 0])))

/-- What is accepted lies inside the buffer, behind the header, and has the right checksum. -/
def Sound (buf : List Byte) : Prop :=
  ∀ rx, espHostedFrameParse buf = some rx →
    espHostedHdrLen ≤ (offset buf).toNat ∧ total buf ≤ buf.length ∧
      rx.payload = part buf (offset buf).toNat (plen buf).toNat ∧ rx.payload.length = rx.payloadLen.toNat ∧
        RightChecksum buf

/-- The frames of this interface, these flags and this length are read back. -/
def ReadBack (ifType ifNum flags : Byte) (len : Half) : Prop :=
  len.toNat ≤ 65524 ∨ 65532 ≤ len.toNat ∨ (len.toNat = 65525 ∧ ifType = 0 ∧ ifNum = 0) ∨
    (len.toNat = 65526 ∧ ifType = 0 ∧ ifNum = 0 ∧ flags = 0)

/-- The checksum field is the sum of as much of the frame as 16 bits can count. -/
def FrontChecked (buf : List Byte) : Prop :=
  octets (buf.take (total buf % 65536)) % 65536 = (2 * (buf.getD 6 0).toNat + 257 * (buf.getD 7 0).toNat) % 65536

variable {buf rest payload tail : List Byte} {ifType ifNum flags priv : Byte} {seq len ck : Half} {n : Nat}

/-! ## Sums -/

theorem octets_append (front back : List Byte) : octets (front ++ back) = octets front + octets back := by
  rw [octets, List.map_append, List.sum_append]
  rfl

theorem octets_cons (byte : Byte) (bytes : List Byte) : octets (byte :: bytes) = byte.toNat + octets bytes := by
  rw [octets, List.map_cons, List.sum_cons]
  rfl

theorem foldl_octets (bytes : List Byte) (s : Half) :
    bytes.foldl (fun s byte => s + byte.setWidth 16) s = BitVec.ofNat 16 (s.toNat + octets bytes) := by
  induction bytes generalizing s with
  | nil => simp [octets]
  | cons byte bytes ih =>
    rw [List.foldl_cons, ih, octets_cons]
    apply BitVec.eq_of_toNat_eq
    have small := byte.isLt
    simp only [BitVec.toNat_ofNat, BitVec.toNat_add, BitVec.toNat_setWidth]
    omega

theorem espHostedChecksum_eq (frame : List Byte) (length : Nat) :
    espHostedChecksum frame (BitVec.ofNat 16 length) = BitVec.ofNat 16 (octets (frame.take (length % 65536))) := by
  rw [espHostedChecksum, foldl_octets, BitVec.toNat_ofNat]
  congr 1
  exact Nat.zero_add _

theorem calc_eq (sum : Nat) (low high : Byte) :
    BitVec.ofNat 16 sum - low.setWidth 16 - high.setWidth 16 = rd16 [low, high] ↔
      sum % 65536 = (2 * low.toNat + 257 * high.toNat) % 65536 := by
  have hl := low.isLt
  have hh := high.isLt
  rw [← BitVec.toNat_inj]
  simp only [rd16, leNat, BitVec.toNat_sub, BitVec.toNat_ofNat, BitVec.toNat_setWidth]
  omega

/-! ## Received buffers -/

theorem exists_header (enough : 12 ≤ buf.length) :
    ∃ b₀ b₁ l₀ l₁ o₀ o₁ c₀ c₁ s₀ s₁ t p, ∃ rest : List Byte,
      buf = b₀ :: b₁ :: l₀ :: l₁ :: o₀ :: o₁ :: c₀ :: c₁ :: s₀ :: s₁ :: t :: p :: rest := by
  match buf, enough with
  | b₀ :: b₁ :: l₀ :: l₁ :: o₀ :: o₁ :: c₀ :: c₁ :: s₀ :: s₁ :: t :: p :: rest, _ =>
    exact ⟨b₀, b₁, l₀, l₁, o₀, o₁, c₀, c₁, s₀, s₁, t, p, rest, rfl⟩

theorem parse_isSome (buf : List Byte) :
    (espHostedFrameParse buf).isSome = true ↔
      12 ≤ buf.length ∧ 12 ≤ (offset buf).toNat ∧ total buf ≤ buf.length ∧ FrontChecked buf := by
  rw [espHostedFrameParse, espHostedHdrLen, FrontChecked]
  split
  · next short => exact ⟨fun wrong => (Bool.false_ne_true wrong).elim, fun ⟨long, _⟩ => by omega⟩
  next long =>
    split
    · next inside => exact ⟨fun wrong => (Bool.false_ne_true wrong).elim, fun ⟨_, behind, _⟩ => by omega⟩
    next behind =>
      split
      · next beyond => exact ⟨fun wrong => (Bool.false_ne_true wrong).elim, fun ⟨_, _, fits, _⟩ => by omega⟩
      next fits =>
        have two : part buf 6 2 = [buf.getD 6 0, buf.getD 7 0] := by
          obtain ⟨b₀, b₁, l₀, l₁, o₀, o₁, c₀, c₁, s₀, s₁, t, p, rest, rfl⟩ := exists_header (Nat.not_lt.mp long)
          rfl
        dsimp only
        rw [espHostedChecksum_eq, two]
        split
        · next wrong =>
            refine ⟨fun found => (Bool.false_ne_true found).elim, fun ⟨_, _, _, right⟩ => ?_⟩
            exact absurd ((calc_eq _ _ _).mpr right) wrong
        · next right =>
            exact ⟨fun _ => ⟨by omega, by omega, by omega, (calc_eq _ _ _).mp (not_not.mp right)⟩, fun _ => rfl⟩

theorem parse_fields {rx : Rx} (accepted : espHostedFrameParse buf = some rx) :
    rx =
      { ifType := buf.getD 0 0 &&& 0x0F
        ifNum := buf.getD 0 0 >>> 4
        flags := buf.getD 1 0
        privPktType := buf.getD 11 0
        seqNum := rd16 (part buf 8 2)
        payload := part buf (offset buf).toNat (plen buf).toNat
        payloadLen := plen buf } := by
  rw [espHostedFrameParse] at accepted
  split at accepted
  · cases accepted
  split at accepted
  · cases accepted
  split at accepted
  · cases accepted
  dsimp only at accepted
  split at accepted
  · cases accepted
  exact (Option.some.inj accepted).symm

theorem rightChecksum_iff (long : 12 ≤ total buf) (fits : total buf ≤ buf.length) :
    RightChecksum buf ↔
      octets (buf.take (total buf)) % 65536 = (2 * (buf.getD 6 0).toNat + 257 * (buf.getD 7 0).toNat) % 65536 := by
  rw [RightChecksum]
  generalize total buf = length at long fits
  obtain ⟨b₀, b₁, l₀, l₁, o₀, o₁, c₀, c₁, s₀, s₁, t, p, rest, rfl⟩ := exists_header (Nat.le_trans long fits)
  obtain ⟨more, rfl⟩ := Nat.exists_eq_add_of_le' long
  have hl := c₀.isLt
  have hh := c₁.isLt
  change rd16 [c₀, c₁] = BitVec.ofNat 16
      (octets (b₀ :: b₁ :: l₀ :: l₁ :: o₀ :: o₁ :: 0 :: 0 :: s₀ :: s₁ :: t :: p :: rest.take more)) ↔
    octets (b₀ :: b₁ :: l₀ :: l₁ :: o₀ :: o₁ :: c₀ :: c₁ :: s₀ :: s₁ :: t :: p :: rest.take more) % 65536 =
      (2 * c₀.toNat + 257 * c₁.toNat) % 65536
  rw [← BitVec.toNat_inj]
  have zero : (0 : Byte).toNat = 0 := rfl
  simp only [rd16, leNat, BitVec.toNat_ofNat, octets_cons, zero]
  omega

/-- A buffer is judged right as far as the sum over the last 65536 bytes of a long frame adds nothing. -/
theorem sound_iff (buf : List Byte) :
    Sound buf ↔
      (12 ≤ (offset buf).toNat → total buf ≤ buf.length → 65536 ≤ total buf → FrontChecked buf →
        octets (part buf (total buf - 65536) 65536) % 65536 = 0) := by
  have split_sum (long : 65536 ≤ total buf) (fits : total buf ≤ buf.length) : octets (buf.take (total buf)) =
        octets (buf.take (total buf % 65536)) + octets (part buf (total buf - 65536) 65536) := by
    have most : total buf < 131072 := by
      have ho := (offset buf).isLt
      have hp := (plen buf).isLt
      rw [total]
      omega
    have rest : total buf % 65536 = total buf - 65536 := by omega
    have cut := List.take_append_drop (total buf - 65536) (buf.take (total buf))
    rw [← cut, octets_append, List.take_take, Nat.min_eq_left (by omega), List.drop_take,
      Nat.sub_sub_self long, rest, part]
  constructor
  · intro sound behind fits long front
    have accepted := (parse_isSome buf).mpr ⟨by omega, behind, fits, front⟩
    obtain ⟨rx, accepted⟩ := Option.isSome_iff_exists.mp accepted
    have right := (rightChecksum_iff (by omega) fits).mp (sound rx accepted).2.2.2.2
    rw [split_sum long fits] at right
    rw [FrontChecked] at front
    omega
  · intro spill rx accepted
    obtain ⟨enough, behind, fits, front⟩ := (parse_isSome buf).mp (Option.isSome_iff_exists.mpr ⟨rx, accepted⟩)
    have fields := parse_fields accepted
    subst fields
    refine ⟨behind, fits, rfl, ?_, ?_⟩
    · dsimp only
      rw [part, List.length_take, List.length_drop]
      rw [total] at fits
      omega
    · have least : 12 ≤ total buf := Nat.le_trans behind (Nat.le_add_right ..)
      rw [rightChecksum_iff least fits]
      rcases Nat.lt_or_ge (total buf) 65536 with short | long
      · rw [FrontChecked, Nat.mod_eq_of_lt short] at front
        exact front
      · have none := spill behind fits long front
        rw [split_sum long fits]
        rw [FrontChecked] at front
        omega

/-! ## Built frames -/

/-- The header that esp_hosted_frame_build writes, with a checksum. -/
def header (ifByte flags priv : Byte) (seq len ck : Half) : List Byte :=
  [ifByte, flags] ++ le16 len ++ [12, 0] ++ le16 ck ++ le16 seq ++ [0, priv]

theorem octets_le16 (half : Half) : octets (le16 half) = half.toNat % 256 + half.toNat / 256 := by
  have small := half.isLt
  simp only [le16, leBytes, octets, List.map_cons, List.map_nil, List.sum_cons, List.sum_nil, BitVec.toNat_ofNat]
  omega

theorem puts_header (i f l l' s s' p : Byte) (front : List Byte) (whole : front.length = 12) (rest : List Byte) :
    puts (front ++ rest)
      [(0, List.replicate 12 0), (0, [i]), (1, [f]), (2, [l, l']), (4, [12, 0]), (6, [0, 0]), (8, [s, s']),
        (10, [0]), (11, [p])] =
      [i, f, l, l', 12, 0, 0, 0, s, s', 0, p] ++ rest := by
  have cleared : put (front ++ rest) (0, List.replicate 12 0) = List.replicate 12 0 ++ rest := by
    rw [put, List.take_zero, List.nil_append, List.length_replicate, Nat.zero_add, List.drop_left' whole]
  rw [puts, List.foldl_cons, cleared]
  rfl

/-- The frame in a buffer that has room for it. -/
theorem build_eq {out : List Byte} (length_eq : payload.length = len.toNat) (room : 12 + len.toNat ≤ out.length) :
    let sum (ck : Half) := header (ifNum <<< 4 ||| ifType &&& 0x0F) flags priv seq len ck ++ payload
    let built := espHostedFrameBuild out ifType ifNum flags priv seq payload len
    built.1 = 12 + len.toNat ∧
      built.2.take built.1 = sum (BitVec.ofNat 16 (octets ((sum 0).take ((12 + len.toNat) % 65536)))) := by
  intro sum
  have whole : (out.take 12).length = 12 := List.length_take_of_le (by omega)
  have laid : puts out [(0, List.replicate 12 0), (0, [ifNum <<< 4 ||| ifType &&& 0x0F]), (1, [flags]),
        (2, le16 len), (4, le16 (BitVec.ofNat 16 12)), (6, le16 0), (8, le16 seq), (10, [0]), (11, [priv]),
        (12, payload)] = sum 0 ++ (out.drop 12).drop len.toNat := by
    have zero : le16 0 = [0, 0] := by decide
    have twelve : le16 (BitVec.ofNat 16 12) = [12, 0] := by decide
    obtain ⟨len₀, len₁, len_eq⟩ : ∃ low high, le16 len = [low, high] := ⟨_, _, rfl⟩
    obtain ⟨seq₀, seq₁, seq_eq⟩ : ∃ low high, le16 seq = [low, high] := ⟨_, _, rfl⟩
    have front := puts_header (ifNum <<< 4 ||| ifType &&& 0x0F) flags len₀ len₁ seq₀ seq₁ priv
      (out.take 12) whole (out.drop 12)
    rw [List.take_append_drop] at front
    have own (front : List Byte) (whole : front.length = 12) :
        put (front ++ out.drop 12) (12, payload) = front ++ payload ++ (out.drop 12).drop len.toNat := by
      rw [put, List.take_left' whole, ← List.drop_drop, List.drop_left' whole, length_eq]
    simp only [sum, header, zero, twelve, len_eq, seq_eq]
    have last := puts_concat out
      [(0, List.replicate 12 0), (0, [ifNum <<< 4 ||| ifType &&& 0x0F]), (1, [flags]), (2, [len₀, len₁]), (4, [12, 0]),
        (6, [0, 0]), (8, [seq₀, seq₁]), (10, [0]), (11, [priv])] (12, payload)
    rw [front, own _ rfl] at last
    exact last
  have summed (ck : Half) : (sum ck).length = 12 + len.toNat := by
    rw [← length_eq]
    exact List.length_append
  have front : (sum 0 ++ (out.drop 12).drop len.toNat).take ((12 + len.toNat) % 65536) =
      (sum 0).take ((12 + len.toNat) % 65536) := by
    rw [List.take_append_of_le_length]
    rw [summed]
    exact Nat.mod_le ..
  have checked (ck : Half) (behind : List Byte) : put (sum 0 ++ behind) (6, le16 ck) = sum ck ++ behind := by
    obtain ⟨ck₀, ck₁, ck_eq⟩ : ∃ low high, le16 ck = [low, high] := ⟨_, _, rfl⟩
    obtain ⟨len₀, len₁, len_eq⟩ : ∃ low high, le16 len = [low, high] := ⟨_, _, rfl⟩
    simp only [sum, header, ck_eq, len_eq]
    rfl
  rw [espHostedFrameBuild, espHostedHdrLen, if_neg (Nat.not_lt.mpr room)]
  refine ⟨rfl, ?_⟩
  dsimp only
  rw [laid, espHostedChecksum_eq, front, checked]
  exact List.take_left' (summed _)

theorem le16_bytes (half : Half) : le16 half = [BitVec.ofNat 8 half.toNat, BitVec.ofNat 8 (half.toNat / 256)] := rfl

theorem header_fields (ifByte flags priv : Byte) (seq len ck : Half) (rest : List Byte) :
    let buf := header ifByte flags priv seq len ck ++ rest
    offset buf = 12 ∧ plen buf = len ∧ rd16 (part buf 8 2) = seq ∧ buf.getD 0 0 = ifByte ∧ buf.getD 1 0 = flags ∧
      buf.getD 11 0 = priv ∧ buf.getD 6 0 = BitVec.ofNat 8 ck.toNat ∧
        buf.getD 7 0 = BitVec.ofNat 8 (ck.toNat / 256) ∧ buf.drop 12 = rest := by
  obtain ⟨len₀, len₁, len_eq⟩ : ∃ low high, le16 len = [low, high] := ⟨_, _, rfl⟩
  obtain ⟨seq₀, seq₁, seq_eq⟩ : ∃ low high, le16 seq = [low, high] := ⟨_, _, rfl⟩
  have len_read := rd16_le16 len
  have seq_read := rd16_le16 seq
  rw [len_eq] at len_read
  rw [seq_eq] at seq_read
  intro buf
  simp only [buf, header, len_eq, seq_eq, le16_bytes ck]
  have twelve : rd16 [12, 0] = 12 := by decide
  exact ⟨twelve, len_read, seq_read, rfl, rfl, rfl, rfl, rfl, rfl⟩

/-- The bytes of a header in front of its checksum. -/
def headerFront (ifByte flags : Byte) (len : Half) : List Byte := [ifByte, flags] ++ le16 len ++ [12, 0]

theorem header_split (ifByte flags priv : Byte) (seq len ck : Half) :
    header ifByte flags priv seq len ck = headerFront ifByte flags len ++ (le16 ck ++ (le16 seq ++ [0, priv])) := by
  simp only [header, headerFront, List.append_assoc]

theorem headerFront_length (ifByte flags : Byte) (len : Half) : (headerFront ifByte flags len).length = 6 := rfl

section Front

variable (ifByte flags priv : Byte) (seq len ck : Half) (payload : List Byte)

theorem octets_six {count : Nat} (few : count ≤ 6) :
    octets ((header ifByte flags priv seq len ck ++ payload).take count) =
      octets ((headerFront ifByte flags len).take count) := by
  rw [header_split, List.append_assoc, List.take_append_of_le_length]
  exact few

theorem octets_seven :
    octets ((header ifByte flags priv seq len ck ++ payload).take 7) =
      octets (headerFront ifByte flags len) + ck.toNat % 256 := by
  have laid : (header ifByte flags priv seq len ck ++ payload).take 7 =
      headerFront ifByte flags len ++ [BitVec.ofNat 8 ck.toNat] := by
    rw [header_split, List.append_assoc]
    exact @List.take_length_add_append _ (headerFront ifByte flags len) _ 1
  rw [laid, octets_append, octets_cons, BitVec.toNat_ofNat]
  rfl

theorem octets_eight (count : Nat) :
    octets ((header ifByte flags priv seq len ck ++ payload).take (8 + count)) =
      octets (headerFront ifByte flags len) + (ck.toNat % 256 + ck.toNat / 256) +
        octets ((le16 seq ++ [0, priv] ++ payload).take count) := by
  have later : 8 + count = (headerFront ifByte flags len).length + ((le16 ck).length + count) := by
    rw [headerFront_length, le16_length]
    omega
  rw [header_split, List.append_assoc, later, List.take_length_add_append, List.append_assoc (le16 ck),
    List.take_length_add_append, octets_append, octets_append, octets_le16]
  omega

end Front

theorem octets_headerFront (ifByte flags : Byte) (len : Half) :
    octets (headerFront ifByte flags len) = ifByte.toNat + flags.toNat + len.toNat % 256 + len.toNat / 256 + 12 := by
  rw [headerFront, octets_append, octets_append, octets_le16, octets_cons, octets_cons]
  have rest : octets [12, 0] = 12 := by decide
  rw [rest]
  have none : octets [] = 0 := rfl
  omega

theorem octets_take_headerFront {count : Nat} (few : count ≤ 6) (length_eq : len.toNat = 65524 + count) :
    octets ((headerFront ifByte flags len).take count) < 65536 ∧
      (octets ((headerFront ifByte flags len).take count) = 0 ↔
        count = 0 ∨ (count = 1 ∧ ifByte = 0) ∨ (count = 2 ∧ ifByte = 0 ∧ flags = 0)) := by
  have hi := ifByte.isLt
  have hf := flags.isLt
  have zero (byte : Byte) : byte = 0 ↔ byte.toNat = 0 := by
    rw [← BitVec.toNat_inj]
    rfl
  have none : octets [] = 0 := rfl
  have laid : headerFront ifByte flags len =
      [ifByte, flags, BitVec.ofNat 8 (65524 + count), BitVec.ofNat 8 ((65524 + count) / 256), 12, 0] := by
    rw [headerFront, le16_bytes, length_eq]
    rfl
  rw [laid, zero, zero]
  interval_cases count <;>
    simp only [List.take_succ_cons, List.take_zero, octets_cons, none, BitVec.toNat_ofNat, true_and, true_or,
      iff_self, and_true] <;>
    omega

/-- The checksum of a frame that was built is found right, by what 16 bits leave of the frame's length. -/
theorem built_frontChecked (ifByte flags priv : Byte) (seq len ck : Half) (payload tail : List Byte)
    (length_eq : payload.length = len.toNat)
    (ck_eq : ck.toNat =
      octets ((header ifByte flags priv seq len 0 ++ payload).take ((12 + len.toNat) % 65536)) % 65536) :
    FrontChecked (header ifByte flags priv seq len ck ++ (payload ++ tail)) ↔
      len.toNat ≤ 65524 ∨ 65532 ≤ len.toNat ∨ (len.toNat = 65525 ∧ ifByte = 0) ∨
        (len.toNat = 65526 ∧ ifByte = 0 ∧ flags = 0) := by
  obtain ⟨offset_eq, plen_eq, _, _, _, _, low, high, _⟩ := header_fields ifByte flags priv seq len ck (payload ++ tail)
  have total_eq : total (header ifByte flags priv seq len ck ++ (payload ++ tail)) = 12 + len.toNat := by
    rw [total, offset_eq, plen_eq]
    rfl
  have small := len.isLt
  have ck_lt := ck.isLt
  have hi := ifByte.isLt
  have hf := flags.isLt
  have zero : (0 : Half).toNat = 0 := rfl
  have high_lt : ck.toNat / 256 < 256 := by omega
  have ck_split := Nat.div_add_mod ck.toNat 256
  rw [FrontChecked, total_eq, low, high, BitVec.toNat_ofNat, BitVec.toNat_ofNat, Nat.mod_eq_of_lt high_lt]
  rcases Nat.lt_or_ge ((12 + len.toNat) % 65536) 8 with few | many
  · have length_is : len.toNat = 65524 + (12 + len.toNat) % 65536 := by omega
    generalize (12 + len.toNat) % 65536 = count at few length_is ck_eq ⊢
    rcases Nat.lt_or_ge count 7 with six | seven
    · have few : count ≤ 6 := Nat.le_of_lt_succ six
      obtain ⟨short, front_zero⟩ := @octets_take_headerFront flags len ifByte count few length_is
      rw [octets_six _ _ _ _ _ _ _ (Nat.le_of_lt_succ six)] at ck_eq ⊢
      generalize octets _ = front at ck_eq short front_zero ⊢
      rw [Nat.mod_eq_of_lt short] at ck_eq
      have only_zero : front % 65536 = (2 * (ck.toNat % 2 ^ 8) + 257 * (ck.toNat / 256)) % 65536 ↔ front = 0 := by
        rw [← ck_eq, Nat.mod_eq_of_lt ck_lt]
        have low_lt : ck.toNat % 2 ^ 8 < 256 := Nat.mod_lt _ (by decide)
        generalize ck.toNat % 2 ^ 8 = l at ck_split low_lt ⊢
        generalize ck.toNat / 256 = h at ck_split high_lt ⊢
        rw [← ck_split]
        rcases Nat.lt_or_ge (2 * l + 257 * h) 65536 with fits | wraps
        · rw [Nat.mod_eq_of_lt fits]
          omega
        · have wrapped : (2 * l + 257 * h) % 65536 = 2 * l + 257 * h - 65536 := by omega
          rw [wrapped]
          omega
      have none : len.toNat ≤ 65524 ↔ count = 0 := by omega
      have one : len.toNat = 65525 ↔ count = 1 := by omega
      have two : len.toNat = 65526 ↔ count = 2 := by omega
      have many : ¬65532 ≤ len.toNat := by omega
      rw [only_zero, front_zero, none, one, two, or_iff_right many]
    · obtain rfl : count = 7 := by omega
      rw [octets_seven, octets_headerFront] at ck_eq ⊢
      rw [zero] at ck_eq
      omega
  · obtain ⟨count, count_eq⟩ := Nat.exists_eq_add_of_le many
    have within : count ≤ (le16 seq ++ [0, priv] ++ payload).length := by
      rw [List.length_append, List.length_append, le16_length, length_eq]
      simp only [List.length_cons, List.length_nil]
      omega
    rw [count_eq, octets_eight, ← List.append_assoc, List.take_append_of_le_length within]
    rw [count_eq, octets_eight, zero] at ck_eq
    generalize octets _ = front at ck_eq ⊢
    generalize octets _ = back at ck_eq ⊢
    generalize ck.toNat % 2 ^ 8 = l at ck_eq ck_split ⊢
    generalize ck.toNat / 256 = h at ck_split high_lt ⊢
    omega

theorem ifByte_parts (type_lt : ifType.toNat < 16) (num_lt : ifNum.toNat < 16) :
    (ifNum <<< 4 ||| ifType &&& 0x0F) &&& 0x0F = ifType ∧ (ifNum <<< 4 ||| ifType &&& 0x0F) >>> 4 = ifNum ∧
      (ifNum <<< 4 ||| ifType &&& 0x0F = 0 ↔ ifType = 0 ∧ ifNum = 0) := by
  have every : ∀ t n : Fin 16,
      let type := BitVec.ofNat 8 t.val
      let num := BitVec.ofNat 8 n.val
      (num <<< 4 ||| type &&& 0x0F) &&& 0x0F = type ∧ (num <<< 4 ||| type &&& 0x0F) >>> 4 = num ∧
        (num <<< 4 ||| type &&& 0x0F = 0 ↔ type = 0 ∧ num = 0) := by
    decide +kernel
  have found := every ⟨ifType.toNat, type_lt⟩ ⟨ifNum.toNat, num_lt⟩
  simpa only [BitVec.ofNat_toNat, BitVec.setWidth_eq] using found

/-- A frame that was built is read back, or its length lies where 16 bits lose what the checksum needs. -/
theorem parse_build {out : List Byte} (type_lt : ifType.toNat < 16) (num_lt : ifNum.toNat < 16)
    (length_eq : payload.length = len.toNat) (room : 12 + len.toNat ≤ out.length) (tail : List Byte) :
    let built := espHostedFrameBuild out ifType ifNum flags priv seq payload len
    espHostedFrameParse (built.2.take built.1 ++ tail) = some
          { ifType, ifNum, flags, privPktType := priv, seqNum := seq, payload, payloadLen := len } ↔
      ReadBack ifType ifNum flags len := by
  intro built
  obtain ⟨_, frame⟩ : built.1 = 12 + len.toNat ∧ built.2.take built.1 = _ := build_eq length_eq room
  obtain ⟨type_eq, num_eq, zero_iff⟩ := ifByte_parts type_lt num_lt
  rw [frame]
  generalize ifNum <<< 4 ||| ifType &&& 0x0F = ifByte at type_eq num_eq zero_iff ⊢
  generalize ck_is : BitVec.ofNat 16
    (octets ((header ifByte flags priv seq len 0 ++ payload).take ((12 + len.toNat) % 65536))) = ck
  have ck_eq : ck.toNat =
      octets ((header ifByte flags priv seq len 0 ++ payload).take ((12 + len.toNat) % 65536)) % 65536 := by
    rw [← ck_is, BitVec.toNat_ofNat]
  have checked := built_frontChecked ifByte flags priv seq len ck payload tail length_eq ck_eq
  obtain ⟨offset_eq, plen_eq, seq_eq, if_eq, flags_eq, priv_eq, _, _, behind⟩ :=
    header_fields ifByte flags priv seq len ck (payload ++ tail)
  rw [List.append_assoc]
  have twelve : (12 : Half).toNat = 12 := rfl
  have total_eq : total (header ifByte flags priv seq len ck ++ (payload ++ tail)) = 12 + len.toNat := by
    rw [total, offset_eq, plen_eq, twelve]
  have size : (header ifByte flags priv seq len ck ++ (payload ++ tail)).length = 12 + (len.toNat + tail.length) := by
    rw [List.length_append, List.length_append, length_eq]
    rfl
  rw [zero_iff, and_assoc] at checked
  rw [ReadBack, ← checked]
  constructor
  · intro found
    exact ((parse_isSome _).mp (Option.isSome_iff_exists.mpr ⟨_, found⟩)).2.2.2
  · intro right
    have accepted := (parse_isSome (header ifByte flags priv seq len ck ++ (payload ++ tail))).mpr
      ⟨by omega, by rw [offset_eq, twelve], by omega, right⟩
    obtain ⟨rx, accepted⟩ := Option.isSome_iff_exists.mp accepted
    have fields := parse_fields accepted
    have whole : (payload ++ tail).take len.toNat = payload := List.take_left' length_eq
    rw [offset_eq, plen_eq, seq_eq, if_eq, flags_eq, priv_eq, type_eq, num_eq, twelve, part, behind, whole] at fields
    rw [accepted, fields]

/-! ## Long frames -/

theorem octets_replicate (count : Nat) : octets (List.replicate count 0) = 0 := by
  induction count with
  | zero => rfl
  | succ count ih =>
    rw [List.replicate_succ, octets_cons, ih]
    rfl

/-- The first bytes of a header. -/
def eight (first : Byte) (off plen ck : Half) : List Byte := [first, 0] ++ le16 plen ++ le16 off ++ le16 ck

theorem eight_length (first : Byte) (off plen ck : Half) : (eight first off plen ck).length = 8 := rfl

theorem octets_eight_le (first : Byte) (off plen ck : Half) : octets (eight first off plen ck) ≤ 2040 := by
  have hf := first.isLt
  have ho := off.isLt
  have hp := plen.isLt
  have hc := ck.isLt
  have zero : octets [0] = 0 := by decide
  rw [eight, octets_append, octets_append, octets_append, octets_le16, octets_le16, octets_le16, octets_cons, zero]
  omega

/-- A buffer with a frame of this length at its front, whose bytes behind the checksum are zero but the last. -/
def stretched (first : Byte) (off plen ck : Half) (last : Byte) (more : Nat) : List Byte :=
  eight first off plen ck ++ List.replicate (off.toNat + plen.toNat - 9) 0 ++ ([last] ++ List.replicate more 0)

theorem settle (front : Nat) (few : front ≤ 1020) :
    (∃ (first : Byte) (ck : Half), front + first.toNat = 2 * (ck.toNat % 256) + 257 * (ck.toNat / 256)) ∧
      ∃ (first : Byte) (ck : Half), front + first.toNat = ck.toNat % 256 + 257 * (ck.toNat / 256) := by
  obtain ⟨q, r, front_eq, r_lt⟩ : ∃ q r, front = 257 * q + r ∧ r < 257 :=
    ⟨front / 257, front % 257, (Nat.div_add_mod front 257).symm, Nat.mod_lt _ (by decide)⟩
  have bytes (high low : Nat) (high_lt : high < 256) (low_lt : low < 256) :
      (BitVec.ofNat 16 (256 * high + low)).toNat % 256 = low ∧
        (BitVec.ofNat 16 (256 * high + low)).toNat / 256 = high := by
    have fits : 256 * high + low < 2 ^ 16 := by omega
    rw [BitVec.toNat_ofNat, Nat.mod_eq_of_lt fits]
    omega
  have byte (value : Nat) (fits : value < 256) : (BitVec.ofNat 8 value).toNat = value := by
    rw [BitVec.toNat_ofNat, Nat.mod_eq_of_lt fits]
  constructor
  · obtain ⟨low, high⟩ := bytes q ((r + 1) / 2) (by omega) (by omega)
    refine ⟨BitVec.ofNat 8 (r % 2), BitVec.ofNat 16 (256 * q + (r + 1) / 2), ?_⟩
    rw [low, high, byte _ (by omega)]
    omega
  · obtain ⟨low, high⟩ := bytes (q + r / 256) (r % 256) (by omega) (by omega)
    refine ⟨BitVec.ofNat 8 (r / 256), BitVec.ofNat 16 (256 * (q + r / 256) + r % 256), ?_⟩
    rw [low, high, byte _ (by omega)]
    omega

theorem octets_take_le (bytes : List Byte) (count : Nat) : octets (bytes.take count) ≤ octets bytes := by
  have whole := octets_append (bytes.take count) (bytes.drop count)
  rw [List.take_append_drop] at whole
  omega

section Stretched

variable (off plen : Half) (more : Nat)

theorem stretched_fields (first last : Byte) (ck : Half) :
    let buf := stretched first off plen ck last more
    offset buf = off ∧ EspHosted.plen buf = plen ∧ buf.getD 6 0 = BitVec.ofNat 8 ck.toNat ∧
      buf.getD 7 0 = BitVec.ofNat 8 (ck.toNat / 256) := by
  obtain ⟨plen₀, plen₁, plen_eq⟩ : ∃ low high, le16 plen = [low, high] := ⟨_, _, rfl⟩
  obtain ⟨off₀, off₁, off_eq⟩ : ∃ low high, le16 off = [low, high] := ⟨_, _, rfl⟩
  have plen_read := rd16_le16 plen
  have off_read := rd16_le16 off
  rw [plen_eq] at plen_read
  rw [off_eq] at off_read
  intro buf
  simp only [buf, stretched, eight, plen_eq, off_eq, le16_bytes ck]
  exact ⟨off_read, plen_read, rfl, rfl⟩

theorem octets_stretched (first last : Byte) (ck : Half) {count : Nat} (long : 65536 ≤ off.toNat + plen.toNat)
    (front : count < off.toNat + plen.toNat) :
    octets ((stretched first off plen ck last more).take count) = octets ((eight first off plen ck).take count) := by
  have zeros : (eight first off plen ck ++ List.replicate (off.toNat + plen.toNat - 9) 0).length =
      off.toNat + plen.toNat - 1 := by
    rw [List.length_append, eight_length, List.length_replicate]
    omega
  have within : count ≤ (eight first off plen ck ++ List.replicate (off.toNat + plen.toNat - 9) 0).length := by
    rw [zeros]
    omega
  rw [stretched, List.take_append_of_le_length within, List.take_append, octets_append, List.take_replicate,
    octets_replicate, Nat.add_zero]

theorem octets_stretched_whole (first last : Byte) (ck : Half) (long : 65536 ≤ off.toNat + plen.toNat) :
    octets ((stretched first off plen ck last more).take (off.toNat + plen.toNat)) =
      octets (eight first off plen ck) + last.toNat := by
  have whole : (eight first off plen ck ++ List.replicate (off.toNat + plen.toNat - 9) 0 ++ [last]).length =
      off.toNat + plen.toNat := by
    rw [List.length_append, List.length_append, eight_length, List.length_replicate, List.length_singleton]
    omega
  rw [stretched, ← List.append_assoc, List.take_left' whole, octets_append, octets_append, octets_replicate, octets_cons]
  rfl

/-- Some checksum is right for the front of a frame, wherever that ends. -/
theorem exists_front (count : Nat) :
    ∃ (first : Byte) (ck : Half), octets ((eight first off plen ck).take count) % 65536 =
      (2 * (ck.toNat % 256) + 257 * (ck.toNat / 256)) % 65536 := by
  have five_le : octets ([0] ++ le16 plen ++ le16 off) ≤ 1020 := by
    have hp := plen.isLt
    have ho := off.isLt
    have zero : octets [0] = 0 := by decide
    rw [octets_append, octets_append, octets_le16, octets_le16, zero]
    omega
  have five : ([0] ++ le16 plen ++ le16 off).length = 5 := rfl
  have laid (first : Byte) (ck : Half) : eight first off plen ck =
      first :: (([0] ++ le16 plen ++ le16 off) ++ le16 ck) := rfl
  generalize [0] ++ le16 plen ++ le16 off = middle at five_le five laid
  cases count with
  | zero => exact ⟨0, 0, rfl⟩
  | succ count =>
    simp only [laid, List.take_succ_cons, octets_cons]
    obtain few | six | many : count ≤ 5 ∨ count = 6 ∨ 7 ≤ count := by omega
    · have most := octets_take_le middle count
      obtain ⟨first, ck, settled⟩ := (settle (octets (middle.take count)) (by omega)).1
      refine ⟨first, ck, ?_⟩
      rw [List.take_append_of_le_length (by omega), Nat.add_comm, settled]
    · obtain ⟨first, ck, settled⟩ := (settle (octets middle) five_le).2
      have one : (middle ++ le16 ck).take 6 = middle ++ [BitVec.ofNat 8 ck.toNat] := by
        have more := @List.take_length_add_append _ middle (le16 ck) 1
        rw [five] at more
        exact more
      refine ⟨first, ck, ?_⟩
      rw [six, one, octets_append, octets_cons, BitVec.toNat_ofNat]
      have none : octets [] = 0 := rfl
      rw [none]
      congr 1
      omega
    · refine ⟨0, BitVec.ofNat 16 (octets middle), ?_⟩
      have whole : (middle ++ le16 (BitVec.ofNat 16 (octets middle))).length ≤ count := by
        rw [List.length_append, five, le16_length]
        exact many
      have zero : (0 : Byte).toNat = 0 := rfl
      have fits : octets middle < 2 ^ 16 := by omega
      rw [List.take_of_length_le whole, octets_append, octets_le16, BitVec.toNat_ofNat, zero, Nat.mod_eq_of_lt fits]
      omega

end Stretched

theorem exists_not_sound {off plen : Half} {size : Nat} (behind : 12 ≤ off.toNat)
    (fits : off.toNat + plen.toNat ≤ size) (long : 65536 ≤ off.toNat + plen.toNat) :
    ∃ buf, buf.length = size ∧ offset buf = off ∧ EspHosted.plen buf = plen ∧ ¬Sound buf := by
  have ho := off.isLt
  have hp := plen.isLt
  obtain ⟨first, ck, settled⟩ := exists_front off plen ((off.toNat + plen.toNat) % 65536)
  obtain ⟨offset_eq, plen_eq, low, high⟩ := stretched_fields off plen (size - (off.toNat + plen.toNat)) first 1 ck
  have front := octets_stretched off plen (size - (off.toNat + plen.toNat)) first 1 ck long
    (Nat.lt_of_lt_of_le (Nat.mod_lt (off.toNat + plen.toNat) (by decide)) long)
  have whole := octets_stretched_whole off plen (size - (off.toNat + plen.toNat)) first 1 ck long
  have length_eq : (stretched first off plen ck 1 (size - (off.toNat + plen.toNat))).length = size := by
    rw [stretched, List.length_append, List.length_append, List.length_append, eight_length, List.length_replicate,
      List.length_replicate, List.length_singleton]
    omega
  generalize stretched first off plen ck 1 (size - (off.toNat + plen.toNat)) = buf at *
  have total_eq : total buf = off.toNat + plen.toNat := by rw [total, offset_eq, plen_eq]
  refine ⟨buf, length_eq, offset_eq, plen_eq, fun sound => ?_⟩
  have checked : FrontChecked buf := by
    have ck_lt := ck.isLt
    have high_lt : ck.toNat / 256 < 2 ^ 8 := by omega
    rw [FrontChecked, total_eq, front, low, high, BitVec.toNat_ofNat, BitVec.toNat_ofNat, Nat.mod_eq_of_lt high_lt]
    exact settled
  obtain ⟨rx, accepted⟩ := Option.isSome_iff_exists.mp
    ((parse_isSome buf).mpr ⟨by omega, by rw [offset_eq]; exact behind, by omega, checked⟩)
  have right := (rightChecksum_iff (by omega) (by omega)).mp (sound rx accepted).2.2.2.2
  rw [FrontChecked, ← right, total_eq, front, whole] at checked
  have less := octets_take_le (eight first off plen ck) ((off.toNat + plen.toNat) % 65536)
  have most := octets_eight_le first off plen ck
  have one : (1 : Byte).toNat = 1 := rfl
  rw [one] at checked
  omega

/-- The frames that are read back as they were built, and the buffers that are judged right: those of which
16 bits count every byte, and few others. -/
theorem frames_iff (ifType ifNum flags priv : Byte) (seq len off plen : Half) (payload out tail received : List Byte)
    (size : Nat) :
    (ifType.toNat < 16 → ifNum.toNat < 16 → payload.length = len.toNat → 12 + len.toNat ≤ out.length →
      let built := espHostedFrameBuild out ifType ifNum flags priv seq payload len
      (espHostedFrameParse (built.2.take built.1 ++ tail) =
          some { ifType, ifNum, flags, privPktType := priv, seqNum := seq, payload, payloadLen := len } ↔
        ReadBack ifType ifNum flags len)) ∧
    (Sound received ↔
      (12 ≤ (offset received).toNat → total received ≤ received.length → 65536 ≤ total received →
        FrontChecked received → octets (part received (total received - 65536) 65536) % 65536 = 0)) ∧
    ((∀ buf, buf.length = size → offset buf = off → EspHosted.plen buf = plen → Sound buf) ↔
      (12 ≤ off.toNat → off.toNat + plen.toNat ≤ size → off.toNat + plen.toNat < 65536)) := by
  refine ⟨?_, sound_iff received, ?_⟩
  · intro type_lt num_lt length_eq room
    exact parse_build type_lt num_lt length_eq room tail
  · constructor
    · intro every behind fits
      by_contra long
      obtain ⟨buf, length_eq, offset_eq, plen_eq, wrong⟩ := exists_not_sound behind fits (Nat.not_lt.mp long)
      exact wrong (every buf length_eq offset_eq plen_eq)
    · rintro short buf rfl rfl rfl
      rw [sound_iff]
      intro behind fits long
      exact absurd (short behind fits) (Nat.not_lt.mpr long)

/-- A short frame in a buffer of twenty bytes. -/
theorem frames_iff_short :
    let built := espHostedFrameBuild (List.replicate 20 0xAA) 3 1 8 2 0x1234 [1, 2, 3] 3
    espHostedFrameParse (built.2.take built.1 ++ [9]) =
        some
          { ifType := 3, ifNum := 1, flags := 8, privPktType := 2, seqNum := 0x1234, payload := [1, 2, 3]
            payloadLen := 3 } ↔
      ReadBack 3 1 8 3 :=
  (frames_iff 3 1 8 2 0x1234 3 12 3 [1, 2, 3] (List.replicate 20 0xAA) [9] [] 20).1 (by decide) (by decide) rfl
    (by decide)

/-- A buffer with the header of a frame of 65536 bytes is accepted with a wrong checksum, and a frame of 65537
bytes on the first interface is not read back. -/
theorem frames_not_sound :
    (∃ buf, buf.length = 65536 ∧ offset buf = 12 ∧ EspHosted.plen buf = 65524 ∧ ¬Sound buf) ∧
    let built := espHostedFrameBuild (List.replicate 65537 0) 1 0 0 0 0 (List.replicate 65525 0) 65525
    espHostedFrameParse (built.2.take built.1 ++ []) ≠
      some
        { ifType := 1, ifNum := 0, flags := 0, privPktType := 0, seqNum := 0, payload := List.replicate 65525 0
          payloadLen := 65525 } := by
  refine ⟨exists_not_sound (by decide) (by decide) (by decide), fun found => ?_⟩
  have length_eq : (List.replicate 65525 (0 : Byte)).length = (65525 : Half).toNat := List.length_replicate
  have room : 12 + (65525 : Half).toNat ≤ (List.replicate 65537 (0 : Byte)).length := by
    rw [List.length_replicate]
    decide
  have one_lt : (1 : Byte).toNat < 16 := by decide
  have zero_lt : (0 : Byte).toNat < 16 := by decide
  have read : ReadBack 1 0 0 65525 := (parse_build one_lt zero_lt length_eq room []).mp found
  rw [ReadBack] at read
  revert read
  decide

end BenchPod.EspHosted
