import BenchPod.EmiLog.Ring
import BenchPod.Library.Fields
import Mathlib.Data.List.GetD
import Mathlib.Data.List.TakeWhile

/-!
# The records of the run log

emi_log_encode puts the fields of a record at fixed offsets of a slot that was cleared, each of the three
types its own, with texts cut at their NUL.  emi_log_decode takes them out again behind a magic and a check.
-/

namespace BenchPod.EmiRecord

open Endian EmiLog Fields

/-- A `char` array. -/
abbrev Chars (n : Nat) := Vector Byte n

/-- The string that an array holds. -/
def Chars.text {n : Nat} (s : Chars n) : List Byte := s.toList.takeWhile (· ≠ 0)

/-- The string of an array ends inside it. -/
def Chars.Terminated {n : Nat} (s : Chars n) : Prop := 0 ∈ s.toList

/-- An array of zeros with so many bytes at its front. -/
def fill (n : Nat) (bytes : List Byte) : Chars n := Vector.ofFn fun i => bytes.getD i 0

/-- An array with nothing behind its string. -/
def Chars.padded {n : Nat} (s : Chars n) : Chars n := fill n s.text

/-- What `put_str` leaves in a field. -/
def putStr {n : Nat} (s : Chars n) : List Byte := s.text ++ List.replicate (n - s.text.length) 0

/-- What `get_str` leaves in an array that was cleared. -/
def getStr (n : Nat) (p : List Byte) : Chars n := fill n ((p.take (n - 1)).takeWhile (· ≠ 0))

/-- `u.start` -/
structure Start where
  fw : Chars 16
  reset : Chars 16
  coreMhz : Half
  dac : Byte
  netMbit : Byte
  gwVersion : Word

/-- `u.ev` -/
structure Ev where
  kind : Byte
  from' : Byte
  to' : Byte
  captures : Word
  errors : Word
  netSent : Word
  text : Chars 28

/-- `u.cp` -/
structure Cp where
  captures : Word
  errors : Word
  netSent : Word
  netDrops : Word
  linkLosses : Word
  recDropped : Word
  glitchUsMax : Word
  dac : Byte
  netMbit : Byte
  running : Byte
  link : Byte
  text : Chars 12

/-- `emi_rec_t.u`, by `emi_rec_type_t`. -/
inductive U
  | start (start : Start)
  | ev (ev : Ev)
  | cp (cp : Cp)

/-- `emi_rec_t` -/
structure EmiRec where
  led : Byte
  seq : Word
  run : Word
  uptimeMs : Word
  u : U

/-- `emi_rec_type_t` -/
def U.type : U → Byte
  | start _ => 1
  | ev _ => 2
  | cp _ => 3

/-- The fields that `emi_log_encode` puts into a slot for the type. -/
def U.fields : U → List (Fields.Field Byte)
  | start s =>
    [(16, putStr s.fw), (32, putStr s.reset), (48, le16 s.coreMhz), (50, [s.dac]), (51, [s.netMbit]),
      (52, le32 s.gwVersion)]
  | ev e =>
    [(16, [e.kind]), (17, [e.from']), (18, [e.to']), (20, le32 e.captures), (24, le32 e.errors),
      (28, le32 e.netSent), (32, putStr e.text)]
  | cp c =>
    [(16, le32 c.captures), (20, le32 c.errors), (24, le32 c.netSent), (28, le32 c.netDrops),
      (32, le32 c.linkLosses), (36, le32 c.recDropped), (40, le32 c.glitchUsMax), (44, [c.dac]),
      (45, [c.netMbit]), (46, [c.running]), (47, [c.link]), (48, putStr c.text)]

/-- All fields, in the order of their writes. -/
def EmiRec.fields (r : EmiRec) : List (Fields.Field Byte) :=
  [(0, le16 emiLogMagic), (2, [r.u.type]), (3, [r.led]), (4, le32 r.seq), (8, le32 r.run),
    (12, le32 r.uptimeMs)] ++ r.u.fields

def emiLogEncode (r : EmiRec) : Slot :=
  let out := puts (List.replicate emiLogRec 0) r.fields
  put out (60, le32 (crc32Le (out.take 60)))

def emiLogDecode (slot : Slot) : Option EmiRec :=
  if rd16 (part slot 0 2) ≠ emiLogMagic then none
  else if rd32 (part slot 60 4) ≠ crc32Le (slot.take 60) then none
  else if slot.getD 2 0 < 1 ∨ 3 < slot.getD 2 0 then none
  else
    some
      { led := slot.getD 3 0
        seq := rd32 (part slot 4 4)
        run := rd32 (part slot 8 4)
        uptimeMs := rd32 (part slot 12 4)
        u :=
          if slot.getD 2 0 = 1 then
            .start
              { fw := getStr 16 (part slot 16 16)
                reset := getStr 16 (part slot 32 16)
                coreMhz := rd16 (part slot 48 2)
                dac := slot.getD 50 0
                netMbit := slot.getD 51 0
                gwVersion := rd32 (part slot 52 4) }
          else if slot.getD 2 0 = 2 then
            .ev
              { kind := slot.getD 16 0
                from' := slot.getD 17 0
                to' := slot.getD 18 0
                captures := rd32 (part slot 20 4)
                errors := rd32 (part slot 24 4)
                netSent := rd32 (part slot 28 4)
                text := getStr 28 (part slot 32 28) }
          else
            .cp
              { captures := rd32 (part slot 16 4)
                errors := rd32 (part slot 20 4)
                netSent := rd32 (part slot 24 4)
                netDrops := rd32 (part slot 28 4)
                linkLosses := rd32 (part slot 32 4)
                recDropped := rd32 (part slot 36 4)
                glitchUsMax := rd32 (part slot 40 4)
                dac := slot.getD 44 0
                netMbit := slot.getD 45 0
                running := slot.getD 46 0
                link := slot.getD 47 0
                text := getStr 12 (part slot 48 12) } }

/-- Every text of a record ends inside its array. -/
def U.Terminated : U → Prop
  | start s => s.fw.Terminated ∧ s.reset.Terminated
  | ev e => e.text.Terminated
  | cp c => c.text.Terminated

/-- The same strings, and nothing behind them. -/
def U.padded : U → U
  | start s => .start { s with fw := s.fw.padded, reset := s.reset.padded }
  | ev e => .ev { e with text := e.text.padded }
  | cp c => .cp { c with text := c.text.padded }

/-- The record with the same values and the same strings, and nothing behind the strings. -/
def EmiRec.padded (r : EmiRec) : EmiRec := { r with u := r.u.padded }

variable {n : Nat} {s : Chars n} {bytes : List Byte} {slot : Slot} {r : EmiRec} {u : U}

/-! ## Texts -/

theorem toList_fill (fits : bytes.length ≤ n) : (fill n bytes).toList = bytes ++ List.replicate (n - bytes.length) 0 := by
  apply List.ext_getElem
  · rw [Vector.length_toList, List.length_append, List.length_replicate]
    omega
  · intro i inside inside'
    have cell : (fill n bytes).toList[i] = bytes.getD i 0 := by
      rw [Vector.getElem_toList]
      exact Vector.getElem_ofFn ..
    rw [cell, List.getElem_append]
    split
    · next front => exact List.getD_eq_getElem _ _ front
    · next behind =>
        rw [List.getElem_replicate]
        exact List.getD_eq_default _ _ (Nat.not_lt.mp behind)

theorem takeWhile_zeros (plain : ∀ c ∈ bytes, c ≠ 0) (count : Nat) :
    (bytes ++ List.replicate count 0).takeWhile (· ≠ 0) = bytes := by
  rw [List.takeWhile_append_of_pos fun c member => decide_eq_true (plain c member)]
  cases count with
  | zero => exact List.append_nil bytes
  | succ count => rw [List.replicate_succ, List.takeWhile_cons_of_neg (by decide), List.append_nil]

theorem text_fill (fits : bytes.length ≤ n) (plain : ∀ c ∈ bytes, c ≠ 0) : (fill n bytes).text = bytes := by
  rw [Chars.text, toList_fill fits, takeWhile_zeros plain]

theorem text_plain (bytes : List Byte) : ∀ c ∈ bytes.takeWhile (· ≠ 0), c ≠ 0 := by
  intro c member
  have kept := List.mem_takeWhile_imp member
  exact of_decide_eq_true kept

theorem text_length (s : Chars n) : s.text.length ≤ n := by
  have most := (List.takeWhile_prefix (l := s.toList) (· ≠ 0)).length_le
  rwa [Vector.length_toList] at most

theorem text_padded (s : Chars n) : s.padded.text = s.text := text_fill (text_length s) (text_plain _)

theorem putStr_length (s : Chars n) : (putStr s).length = n := by
  have most := text_length s
  rw [putStr, List.length_append, List.length_replicate]
  omega

theorem text_lt (terminated : s.Terminated) : s.text.length < n := by
  have most := text_length s
  rcases Nat.lt_or_eq_of_le most with less | full
  · exact less
  · have whole : s.text = s.toList :=
      (List.takeWhile_prefix _).eq_of_length (full.trans (Vector.length_toList ..).symm)
    have zero : 0 ∈ s.text := whole.symm ▸ terminated
    exact absurd rfl (text_plain _ 0 zero)

theorem getStr_putStr (terminated : s.Terminated) : getStr n (putStr s) = s.padded := by
  have room := text_lt terminated
  have front : (putStr s).take (n - 1) = s.text ++ List.replicate (n - 1 - s.text.length) 0 := by
    rw [putStr, List.take_append, List.take_of_length_le (by omega), List.take_replicate]
    congr 2
    omega
  have text : (s.text ++ List.replicate (n - 1 - s.text.length) 0).takeWhile (· ≠ 0) = s.text :=
    takeWhile_zeros (text_plain _) _
  rw [getStr, front, text, Chars.padded]

theorem getStr_length (n : Nat) (p : List Byte) : ((p.take (n - 1)).takeWhile (· ≠ 0)).length ≤ n - 1 :=
  Nat.le_trans (List.takeWhile_prefix _).length_le (List.length_take_le ..)

theorem getStr_terminated (some_room : 0 < n) (p : List Byte) : (getStr n p).Terminated := by
  have most := getStr_length n p
  rw [getStr, Chars.Terminated, toList_fill (by omega)]
  exact List.mem_append_right _ (List.mem_replicate.mpr ⟨by omega, rfl⟩)

theorem getStr_padded (n : Nat) (p : List Byte) : (getStr n p).padded = getStr n p := by
  have most := getStr_length n p
  rw [Chars.padded, getStr, text_fill (by omega) (text_plain _)]

/-! ## Fields -/

theorem apart (r : EmiRec) : r.fields.Pairwise Fields.Apart := by
  cases u_eq : r.u with
  | start s => simp [EmiRec.fields, u_eq, U.fields, Fields.Apart, putStr_length]
  | ev e => simp [EmiRec.fields, u_eq, U.fields, Fields.Apart, putStr_length]
  | cp c => simp [EmiRec.fields, u_eq, U.fields, Fields.Apart, putStr_length]

theorem inside (r : EmiRec) : ∀ f ∈ r.fields, Inside 60 f := by
  cases u_eq : r.u with
  | start s => simp [EmiRec.fields, u_eq, U.fields, Inside, putStr_length]
  | ev e => simp [EmiRec.fields, u_eq, U.fields, Inside, putStr_length]
  | cp c => simp [EmiRec.fields, u_eq, U.fields, Inside, putStr_length]

theorem part_encode (r : EmiRec) :
    (∀ f ∈ r.fields, part (emiLogEncode r) f.1 f.2.length = f.2) ∧
      part (emiLogEncode r) 60 4 = le32 (crc32Le ((emiLogEncode r).take 60)) := by
  let out := puts (List.replicate emiLogRec 0) r.fields
  have cleared : (List.replicate emiLogRec (0 : Byte)).length = 64 := List.length_replicate
  have within : ∀ f ∈ r.fields, Inside (List.replicate emiLogRec (0 : Byte)).length f := by
    intro f member
    rw [cleared]
    exact Nat.le_trans (inside r f member) (by decide)
  have size : out.length = 64 := (puts_length within).trans cleared
  have check : Inside out.length (60, le32 (crc32Le (out.take 60))) := by rw [Inside, size, le32_length]
  have front : (emiLogEncode r).take 60 = out.take 60 := by
    have kept : part (emiLogEncode r) 0 60 = part out 0 60 := part_put_apart check (.inr (Nat.le_refl 60))
    exact kept
  refine ⟨fun f member => ?_, ?_⟩
  · rw [emiLogEncode, part_put_apart check (.inr (inside r f member))]
    exact part_puts within (apart r) f member
  · rw [front]
    have own := part_put check
    rwa [le32_length] at own

theorem getD_of_part {o : Nat} {byte : Byte} (found : part slot o 1 = [byte]) : slot.getD o 0 = byte := by
  have first : (part slot o 1)[0]? = some byte := by rw [found]; rfl
  rw [part, List.getElem?_take_of_lt Nat.one_pos, List.getElem?_drop, Nat.add_zero] at first
  rw [List.getD_eq_getElem?_getD, first]
  rfl

/-- A record whose texts end inside their arrays is read back with its values and its strings. -/
theorem emiLogDecode_encode (terminated : r.u.Terminated) : emiLogDecode (emiLogEncode r) = some r.padded := by
  obtain ⟨led, seq, run, uptimeMs, u⟩ := r
  cases u with
  | start s =>
    obtain ⟨got, check⟩ := part_encode ⟨led, seq, run, uptimeMs, .start s⟩
    generalize emiLogEncode _ = slot at got check ⊢
    simp only [EmiRec.fields, U.fields, U.type, List.cons_append, List.nil_append, List.forall_mem_cons,
      le16_length, le32_length, putStr_length, List.length_singleton] at got
    obtain ⟨magic, type, led_eq, seq_eq, run_eq, uptime_eq, fw, reset, core, dac, net, gw, _⟩ := got
    have fw_eq := getStr_putStr terminated.1
    have reset_eq := getStr_putStr terminated.2
    simp only [emiLogDecode, magic, check, getD_of_part type, getD_of_part led_eq, seq_eq, run_eq, uptime_eq, fw,
      reset, core, getD_of_part dac, getD_of_part net, gw, rd16_le16, rd32_le32, fw_eq, reset_eq, ne_eq,
      not_true_eq_false, if_false, if_true]
    exact if_neg (by decide)
  | ev e =>
    obtain ⟨got, check⟩ := part_encode ⟨led, seq, run, uptimeMs, .ev e⟩
    generalize emiLogEncode _ = slot at got check ⊢
    simp only [EmiRec.fields, U.fields, U.type, List.cons_append, List.nil_append, List.forall_mem_cons,
      le16_length, le32_length, putStr_length, List.length_singleton] at got
    obtain ⟨magic, type, led_eq, seq_eq, run_eq, uptime_eq, kind, from_eq, to_eq, captures, errors, sent, text, _⟩ := got
    have text_eq := getStr_putStr (s := e.text) terminated
    simp only [emiLogDecode, magic, check, getD_of_part type, getD_of_part led_eq, seq_eq, run_eq, uptime_eq,
      getD_of_part kind, getD_of_part from_eq, getD_of_part to_eq, captures, errors, sent, text, rd16_le16,
      rd32_le32, text_eq, ne_eq, not_true_eq_false, if_false, if_true]
    exact if_neg (by decide)
  | cp c =>
    obtain ⟨got, check⟩ := part_encode ⟨led, seq, run, uptimeMs, .cp c⟩
    generalize emiLogEncode _ = slot at got check ⊢
    simp only [EmiRec.fields, U.fields, U.type, List.cons_append, List.nil_append, List.forall_mem_cons,
      le16_length, le32_length, putStr_length, List.length_singleton] at got
    obtain ⟨magic, type, led_eq, seq_eq, run_eq, uptime_eq, captures, errors, sent, drops, losses, dropped,
      glitch, dac, net, running, link, text, _⟩ := got
    have text_eq := getStr_putStr (s := c.text) terminated
    simp only [emiLogDecode, magic, check, getD_of_part type, getD_of_part led_eq, seq_eq, run_eq, uptime_eq,
      captures, errors, sent, drops, losses, dropped, glitch, getD_of_part dac, getD_of_part net,
      getD_of_part running, getD_of_part link, text, rd16_le16, rd32_le32, text_eq, ne_eq, not_true_eq_false,
      if_false]
    exact if_neg (by decide)

theorem of_emiLogDecode (accepted : emiLogDecode slot = some r) : r.u.Terminated ∧ r.padded = r := by
  rw [emiLogDecode] at accepted
  split at accepted
  · cases accepted
  split at accepted
  · cases accepted
  split at accepted
  · cases accepted
  rw [Option.some.injEq] at accepted
  subst accepted
  rw [EmiRec.padded]
  dsimp only
  split
  · exact ⟨⟨getStr_terminated (by decide) _, getStr_terminated (by decide) _⟩, by
      rw [U.padded, getStr_padded, getStr_padded]⟩
  · split
    · exact ⟨getStr_terminated (by decide) _, by rw [U.padded, getStr_padded]⟩
    · exact ⟨getStr_terminated (by decide) _, by rw [U.padded, getStr_padded]⟩

theorem emiLogDecode_erased : emiLogDecode erasedSlot = none := by
  have magic : rd16 (part erasedSlot 0 2) ≠ emiLogMagic := by decide
  rw [emiLogDecode, if_pos magic]

/-- emi_log_decode returns the record that emi_log_encode was given, up to what lies behind the ends of its
strings; what it takes from any slot ends its strings and survives another round, and an erased slot is none. -/
theorem record_round_trip :
    (∀ r : EmiRec, r.u.Terminated → emiLogDecode (emiLogEncode r) = some r.padded) ∧
    (∀ (n : Nat) (s : Chars n), s.padded.text = s.text) ∧
    (∀ (slot : Slot) (r : EmiRec), slot.length = 64 → emiLogDecode slot = some r →
      r.u.Terminated ∧ emiLogDecode (emiLogEncode r) = some r) ∧
    ∀ slot : Slot, slot.length = 64 → emiLogBlank slot = true → emiLogDecode slot = none := by
  refine ⟨fun r => emiLogDecode_encode, fun n => text_padded, ?_, ?_⟩
  · intro slot r _ accepted
    obtain ⟨terminated, padded⟩ := of_emiLogDecode accepted
    refine ⟨terminated, ?_⟩
    rw [emiLogDecode_encode terminated, padded]
  · intro slot _ blank
    rw [show slot = erasedSlot by simpa [emiLogBlank] using blank]
    exact emiLogDecode_erased

/-- An event with the text "E" and a byte behind its end. -/
def sampleEvent : EmiRec where
  led := 1
  seq := 7
  run := 2
  uptimeMs := 12345
  u := .ev
    { kind := 1
      from' := 0
      to' := 1
      captures := 100
      errors := 1
      netSent := 70000
      text := fill 28 [0x45, 0, 0x58] }

theorem sampleEvent_round_trip :
    emiLogDecode (emiLogEncode sampleEvent) = some sampleEvent.padded ∧
      (sampleEvent.padded.u.Terminated ∧
        emiLogDecode (emiLogEncode sampleEvent.padded) = some sampleEvent.padded) ∧
      emiLogDecode erasedSlot = none := by
  have ended : sampleEvent.u.Terminated := show (0 : Byte) ∈ (fill 28 [0x45, 0, 0x58]).toList by decide +kernel
  have once := record_round_trip.1 sampleEvent ended
  refine ⟨once, record_round_trip.2.2.1 _ _ (by decide +kernel) once, ?_⟩
  exact record_round_trip.2.2.2 erasedSlot rfl (by decide +kernel)

theorem ring_emiLogDecode (whole : slot.length = 64) :
    (EmiLog.emiLogDecode slot).map (fun r => (r.type, r.led, r.seq, r.run, r.uptimeMs)) =
      (emiLogDecode slot).map fun r => (r.u.type, r.led, r.seq, r.run, r.uptimeMs) := by
  have last : part slot 60 4 = slot.drop 60 := List.take_of_length_le (by rw [List.length_drop, whole])
  have known : ∀ type : Byte, 1 ≤ type ∧ type ≤ 3 ↔ ¬(type < 1 ∨ 3 < type) := by decide +kernel
  have types : ∀ type : Byte, ¬(type < 1 ∨ 3 < type) → ¬type = 1 → ¬type = 2 → type = 3 := by decide +kernel
  rw [EmiLog.emiLogDecode, emiLogDecode, last]
  change Option.map _ (if rd16 (part slot 0 2) ≠ emiLogMagic then none else _) = _
  split
  · rfl
  split
  · rfl
  split
  · next good =>
      rw [if_neg ((known _).mp good)]
      rw [Option.map_some, Option.map_some, Option.some.injEq]
      refine Prod.ext ?_ rfl
      dsimp only
      split
      · next start => exact start
      · next other =>
          split
          · next event => exact event
          · next other' => exact types _ ((known _).mp good) other other'
  · next bad => rw [if_pos (not_not.mp fun good => bad ((known _).mpr good))]; rfl

end BenchPod.EmiRecord
