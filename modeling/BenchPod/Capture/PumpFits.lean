import BenchPod.Capture.Pump

/-!
# Room for every frame

The pump budgets a frame before it writes it.  The budget covers every shape of a frame but the first one of a
decimal reply, whose metadata it leaves out.
-/

namespace BenchPod.Capture

open Json Command

/-- A number takes so many decimal digits. -/
def digits (n : Nat) : Nat := (Nat.toDigits 10 n).length

/-- A rate that is reported. -/
def rateLength (name hz : Nat) : Nat := if hz = 0 then 0 else name + digits hz + 1

/-- An outcome of the trigger. -/
def triggerLength : Option (LaTrigger × Bool) → Nat
  | none => 0
  | some (trig, fired) => 37 + digits trig.la + trig.edge.name.length + if fired then 4 else 5

theorem rateText_eq_length (name : List Byte) (hz : Nat) : (rateText name hz).length = rateLength name.length hz := by
  rw [rateText, rateLength]
  split
  · rfl
  · rw [List.length_append, List.length_append, decimal, List.length_map]
    rfl

theorem triggerText_eq_length (trigger : Option (LaTrigger × Bool)) :
    (triggerText trigger).length = triggerLength trigger := by
  cases trigger with
  | none => rfl
  | some outcome =>
    obtain ⟨trig, fired⟩ := outcome
    have start : (cstr ",\"trigger\":\x7b\"la\":").length = 17 := rfl
    have middle : (cstr ",\"edge\":\"").length = 9 := rfl
    have result : (cstr "\",\"fired\":").length = 10 := rfl
    have flag : (if fired then cstr "true" else cstr "false").length = if fired then 4 else 5 := by cases fired <;> rfl
    have finish : (cstr "\x7d").length = 1 := rfl
    simp only [triggerText, triggerLength, List.length_append, start, middle, result, flag, finish, decimal,
      List.length_map, digits]
    omega

theorem closeText_eq_length (trigger : Option (LaTrigger × Bool)) (more : Bool) :
    (closeText trigger more).length = triggerLength trigger + if more then 14 else 15 := by
  have start : (cstr ",\"more\":").length = 8 := rfl
  have flag : (if more then cstr "true" else cstr "false").length = if more then 4 else 5 := by cases more <;> rfl
  have finish : (cstr "\x7d\n").length = 2 := rfl
  simp only [closeText, List.length_append, triggerText_eq_length, start, flag, finish]
  cases more <;> simp only [if_true, Bool.false_eq_true, if_false]

theorem samplesText_eq_length {samples : List Half} (some_samples : samples ≠ []) :
    (samplesText samples).length + 1 = (samples.map fun sample => digits sample.toNat + 1).sum := by
  have comma : (cstr ",").length = 1 := rfl
  rw [samplesText]
  induction samples with
  | nil => exact absurd rfl some_samples
  | cons sample samples ih =>
    cases samples with
    | nil => simp [digits, decimal]
    | cons next samples =>
      have rest := ih (List.cons_ne_nil next samples)
      rw [List.map_cons, List.map_cons, List.intercalate_cons_cons, List.length_append, List.length_append,
        comma, List.map_cons, List.sum_cons]
      rw [List.map_cons] at rest
      rw [← rest, decimal, List.length_map, digits]
      omega

namespace Pumping

/-- The state of a read-back has the types of the source, and a change capture that is decoded is sent. -/
structure Typed (s : Pumping) : Prop where
  total : s.bulk.total < 2 ^ 32
  adcRate : s.bulk.adcRateHz < 2 ^ 32
  laRate : s.bulk.laRateHz < 2 ^ 32
  pre : s.bulk.chgPre < 2 ^ 32
  named : s.bulk.trig.la < 256
  pend : ∀ i ∈ s.chg.pendI, i < 2 ^ 32
  done : s.chg.done = true → s.bulk.total ≤ s.bulk.sent

variable {s : Pumping} {seen : Found}

theorem close_length (typed : s.Typed) (last : Bool) :
    (closeText (if last then s.trigger else none) !last).length ≤ if s.bulk.trigPresent then 67 else 15 := by
  rw [closeText_eq_length, ← triggerText_eq_length]
  cases last with
  | false =>
    change (triggerText none).length + 14 ≤ _
    rw [show (triggerText none).length = 0 from rfl]
    split <;> omega
  | true =>
    change (triggerText s.trigger).length + 15 ≤ _
    rw [trigger]
    split
    · have named := triggerText_length typed.named s.bulk.trigFired
      omega
    · exact Nat.le_refl _

theorem openSamples_length (typed : s.Typed) : s.openSamples.length ≤ 74 := by
  have adc := @rateText_length (cstr "\"adc_rate_hz\":") _ typed.adcRate
  have la := @rateText_length (cstr "\"la_rate_hz\":") _ typed.laRate
  have adcName : (cstr "\"adc_rate_hz\":").length = 14 := rfl
  have laName : (cstr "\"la_rate_hz\":").length = 13 := rfl
  have start : (cstr "\x7b\"status\":\"ok\",").length = 15 := rfl
  have bits : (if s.bulk.is16 then cstr "\"bits\":16," else []).length ≤ 10 := by split <;> decide
  rw [openSamples]
  split
  · simp only [List.length_append, start]
    omega
  · rw [openText_none_length]
    decide

theorem denseCount_le (some_room : s.denseCount seen.avail ≠ 0) :
    s.denseCount seen.avail ≤ chunkSamples ∧
      if s.dense64 then
        bulkFooterReserve s.bulk + bulkB64HeaderMax + 8 < seen.avail ∧
          s.denseCount seen.avail ≤ (seen.avail - bulkFooterReserve s.bulk - bulkB64HeaderMax) * 3 / 8
      else
        bulkFooterReserve s.bulk + 7 < seen.avail ∧
          s.denseCount seen.avail ≤ (seen.avail - bulkFooterReserve s.bulk) / 7 := by
  have fewer : s.denseCount seen.avail ≤
      min (min (s.bulk.total - s.bulk.sent) chunkSamples) (s.denseRoom seen.avail) := by
    rw [denseCount]
    split <;> omega
  have room : s.denseCount seen.avail ≤ s.denseRoom seen.avail := Nat.le_trans fewer (Nat.min_le_right _ _)
  have positive : 0 < s.denseRoom seen.avail := Nat.lt_of_lt_of_le (Nat.pos_of_ne_zero some_room) room
  refine ⟨Nat.le_trans fewer (Nat.le_trans (Nat.min_le_left _ _) (Nat.min_le_right _ _)), ?_⟩
  rw [denseRoom] at room positive
  cases compact : s.dense64 with
  | true =>
    simp only [compact, if_true] at room positive ⊢
    split at room
    · next full =>
        rw [if_pos full] at positive
        cases positive
    · next free => exact ⟨Nat.not_le.mp free, room⟩
  | false =>
    simp only [compact, Bool.false_eq_true, if_false] at room positive ⊢
    split at room
    · next full =>
        rw [if_pos full] at positive
        cases positive
    · next free => exact ⟨Nat.not_le.mp free, room⟩

@[simp]
theorem denseWords_length (stock : Stock) (count : Nat) : (s.denseWords stock count).length = count := by
  simp [denseWords]

section Dense

variable (typed : s.Typed) (some_room : s.denseCount seen.avail ≠ 0) (last : Bool)

/-- The text of a chunk. -/
abbrev denseText (s : Pumping) (seen : Found) (last : Bool) : List Byte :=
  s.openSamples ++ (s.denseBody seen.stock (s.denseCount seen.avail)).text ++
    closeText (if last then s.trigger else none) !last

include typed some_room

theorem dense64_fits (compact : s.dense64 = true) :
    (s.denseText seen last).length ≤ seen.avail ∧ (s.denseText seen last).length ≤ chunkBufSize := by
  have opens := openSamples_length typed
  have close := close_length typed last
  have body : (s.denseBody seen.stock (s.denseCount seen.avail)).text.length =
      8 + (8 * s.denseCount seen.avail + 2) / 3 := by
    have start : (cstr "\"b64\":\"").length = 7 := rfl
    have finish : (cstr "\"").length = 1 := rfl
    simp only [denseBody, if_pos compact, Body.text, List.length_append, Sending.encode_words_length,
      denseWords_length, start, finish]
    omega
  obtain ⟨few, room⟩ := denseCount_le some_room
  rw [if_pos compact] at room
  have header : bulkB64HeaderMax = 96 := rfl
  have chunk : chunkSamples = 256 := rfl
  have size : chunkBufSize = 1840 := rfl
  rw [bulkFooterReserve] at room
  simp only [denseText, List.length_append]
  cases present : s.bulk.trigPresent with
  | true =>
    simp only [present, if_true] at close room
    omega
  | false =>
    simp only [present, Bool.false_eq_true, if_false] at close room
    omega

theorem decimal_fits (plain : s.dense64 = false) :
    (s.denseText seen last).length ≤ chunkBufSize ∧ (s.bulk.sent ≠ 0 → (s.denseText seen last).length ≤ seen.avail) := by
  have opens := openSamples_length typed
  have close := close_length typed last
  have body : (s.denseBody seen.stock (s.denseCount seen.avail)).text.length ≤ 9 + 6 * s.denseCount seen.avail := by
    have samples := samplesText_length (s.denseWords seen.stock (s.denseCount seen.avail))
    have start : (cstr "\"data\":[").length = 8 := rfl
    have finish : (cstr "]").length = 1 := rfl
    rw [denseWords_length] at samples
    simp only [denseBody, plain, Bool.false_eq_true, if_false, Body.text, List.length_append, start, finish]
    omega
  obtain ⟨few, room⟩ := denseCount_le some_room
  rw [if_neg (by simp [plain])] at room
  have chunk : chunkSamples = 256 := rfl
  have size : chunkBufSize = 1840 := rfl
  rw [bulkFooterReserve] at room
  simp only [denseText, List.length_append]
  have later (more : s.bulk.sent ≠ 0) : s.openSamples.length = 18 := by
    rw [openSamples, if_neg more, openText_none_length]
  cases present : s.bulk.trigPresent with
  | true =>
    simp only [present, if_true] at close room
    exact ⟨by omega, fun more => by have := later more; omega⟩
  | false =>
    simp only [present, Bool.false_eq_true, if_false] at close room
    exact ⟨by omega, fun more => by have := later more; omega⟩

end Dense

/-- The next frame is the first one of a decimal reply. -/
structure FirstDecimal (s : Pumping) (seen : Found) : Prop where
  active : s.ended = none
  start : s.bulk.sent = 0
  left : 0 < s.bulk.total
  plain : s.dense64 = false
  samples : ¬(s.bulk.adcSamples = 0 ∧ (s.bulk.chg = true ∨ s.bulk.is16 = true ∧ s.bulk.fromPsram = true))
  room : 96 ≤ seen.avail
  some_room : s.denseCount seen.avail ≠ 0
  reads : s.bulk.fromPsram = true → seen.reads = true

/-- What the first frame of a decimal reply takes: the opening, the rates, the samples with what separates them, and
the end. -/
def firstLength (s : Pumping) (seen : Found) : Nat :=
  let count := s.denseCount seen.avail
  23 + (if s.bulk.is16 then 10 else 0) + rateLength 14 s.bulk.adcRateHz + rateLength 13 s.bulk.laRateHz +
    ((s.denseWords seen.stock count).map fun sample => digits sample.toNat + 1).sum +
    if s.bulk.total ≤ count then triggerLength s.trigger + 15 else 14

theorem first_length (first : s.FirstDecimal seen) :
    (s.denseText seen (decide (s.bulk.total ≤ s.bulk.sent + s.denseCount seen.avail))).length = s.firstLength seen := by
  have some_words : s.denseWords seen.stock (s.denseCount seen.avail) ≠ [] := by
    rw [← List.length_pos_iff, denseWords_length]
    exact Nat.pos_of_ne_zero first.some_room
  have samples := samplesText_eq_length some_words
  have start : (cstr "\x7b\"status\":\"ok\",").length = 15 := rfl
  have bits : (if s.bulk.is16 then cstr "\"bits\":16," else []).length = if s.bulk.is16 then 10 else 0 := by
    split <;> rfl
  have adcName : (cstr "\"adc_rate_hz\":").length = 14 := rfl
  have laName : (cstr "\"la_rate_hz\":").length = 13 := rfl
  have data : (cstr "\"data\":[").length = 8 := rfl
  have finish : (cstr "]").length = 1 := rfl
  have plain : ¬s.dense64 = true := by simp [first.plain]
  have close : (closeText (if decide (s.bulk.total ≤ s.denseCount seen.avail) = true then s.trigger else none)
      !decide (s.bulk.total ≤ s.denseCount seen.avail)).length =
        if s.bulk.total ≤ s.denseCount seen.avail then triggerLength s.trigger + 15 else 14 := by
    rw [closeText_eq_length]
    by_cases whole : s.bulk.total ≤ s.denseCount seen.avail <;> simp [whole, triggerLength]
  simp only [denseText, firstLength, List.length_append, openSamples, if_true, denseBody, if_neg plain,
    Body.text, start, bits, rateText_eq_length, adcName, laName, data, finish, first.start, Nat.zero_add, close]
  omega

/-- A frame of logic-analyzer edges fits. -/
theorem la_fits {text : List Byte} (typed : s.Typed) (left : s.bulk.sent < s.bulk.total)
    (passed : (s.laTurn seen).2 = some text) : text.length ≤ seen.avail ∧ text.length ≤ chunkBufSize := by
  rw [laTurn] at passed
  split at passed
  · exact nomatch passed
  split at passed
  · exact nomatch passed
  next room _ =>
    obtain rfl := Option.some.inj passed
    have opens : s.laOpen.length ≤ 96 := by
      have start := openText_length typed.adcRate typed.laRate
      rw [laOpen, List.length_append, edgesOpen_length]
      split
      · omega
      · rw [openText_none_length]
        decide
    have edges : s.laOpen.length + (edgesText true (s.laRun seen).edges).length ≤
        max s.laOpen.length (s.edgeLimit seen) := by
      refine laEdges_text ?_
      have total := typed.total
      rw [List.length_map, List.length_range]
      omega
    have close := close_length typed (decide (s.bulk.total ≤ s.bulk.sent + (s.laRun seen).covered))
    have number := decimal_word_length
      (Nat.mod_lt (s.bulk.sent - s.bulk.adcSamples + (s.laRun seen).covered) (show 0 < 2 ^ 32 by decide))
    have footer : (cstr "],\"la_upto\":").length = 12 := rfl
    have size : chunkBufSize = 1840 := rfl
    rw [edgeLimit] at edges
    simp only [List.length_append]
    cases present : s.bulk.trigPresent with
    | true =>
      simp only [present, if_true] at close edges
      omega
    | false =>
      simp only [present, Bool.false_eq_true, if_false] at close edges
      omega

end Pumping

namespace ChgFrame

/-- A frame of events within its limit, with nothing of the read-back moved but how far it is. -/
structure Within (limit : Nat) (b : Bulk) (g : ChgFrame) : Prop where
  text : g.text.length ≤ limit
  bulk : g.s.bulk = { b with sent := g.s.bulk.sent }
  pend : ∀ i ∈ g.s.chg.pendI, i < 2 ^ 32

/-- What a step of the decoding leaves is within. -/
def Decoded.Within (limit : Nat) (b : Bulk) : Decoded → Prop
  | .more g | .stop g => g.Within limit b
  | .unreadable => True

variable {f : ChgFrame} {seen : Found} {limit : Nat} {b : Bulk} {w : Half}

theorem flush_length {i : Nat} (small : i < 2 ^ 32) : (f.flush i).text.length ≤ f.text.length + 19 := by
  rw [flush]
  split
  · exact Nat.le_add_right _ _
  · have edge := @edgeText_length (i, f.s.chg.pendW) small f.first
    simp only [emit, List.length_append]
    omega

theorem place_within (within : f.Within (limit - 24) b) (room : 24 ≤ limit) (t : Nat) : (f.place t w).Within limit b := by
  have text := within.text
  rw [place]
  simp only
  split
  · exact ⟨by show f.text.length ≤ limit; omega, within.bulk, within.pend⟩
  have pend : ∀ i ∈ (if sampleOf f.s.bulk t < 2 ^ 31 then some (sampleOf f.s.bulk t) else none), i < 2 ^ 32 := by
    intro i member
    split at member
    · next small =>
        obtain rfl := Option.some.inj member
        omega
    · cases member
  split
  · exact ⟨by show f.text.length ≤ limit; omega, within.bulk, pend⟩
  · next i waiting =>
      have small := within.pend i waiting
      split
      · exact ⟨by show f.text.length ≤ limit; omega, within.bulk, pend⟩
      · refine ⟨?_, ?_, pend⟩
        · have flushed := @flush_length f i small
          show (f.flush i).text.length ≤ limit
          omega
        · rw [within.bulk]

theorem Within.move (within : f.Within limit b) (chg : ChgRead) (same : chg.pendI = f.s.chg.pendI) :
    (f.move chg).Within limit b := by
  refine ⟨within.text, within.bulk, ?_⟩
  intro i member
  exact within.pend i (same ▸ member)

theorem event_within (within : f.Within (limit - 24) b) (room : 24 ≤ limit) : f.event.Within limit b := by
  rw [event]
  simp only
  split
  · apply place_within _ room
    exact within.move _ rfl
  split
  · exact ⟨by show f.text.length ≤ limit; have := within.text; omega, within.bulk, within.pend⟩
  · apply place_within _ room
    exact within.move _ rfl

theorem step_within (within : f.Within (limit - 24) b) (room : 24 ≤ limit) : (f.step seen).Within limit b := by
  have stays : f.Within limit b := ⟨by have := within.text; omega, within.bulk, within.pend⟩
  rw [step]
  split
  · exact event_within within room
  split
  · exact stays
  split
  · exact ⟨stays.text, stays.bulk, stays.pend⟩
  split
  · exact trivial
  · exact event_within ⟨within.text, within.bulk, within.pend⟩ room

theorem loop_within (within : f.Within limit b) : (f.loop seen limit).Within limit b := by
  induction work : f.work using Nat.strongRecOn generalizing f with
  | ind size ih =>
    rw [loop]
    split
    · exact within
    next more =>
      have room : f.text.length + 24 ≤ limit := by
        have := not_or.mp more
        omega
      have inside : f.Within (limit - 24) b := ⟨by omega, within.bulk, within.pend⟩
      have stepped := @step_within f seen limit b inside (by omega)
      split
      · next g next =>
          rw [next] at stepped
          exact ih g.work (work ▸ step_work next) stepped rfl
      · next g next =>
          rw [next] at stepped
          exact stepped
      · exact trivial

theorem finish_length {f : ChgFrame} (within : f.Within limit b) : f.finish.text.length ≤ limit + 19 := by
  have text := within.text
  cases pend : f.s.chg.pendI with
  | none =>
    rw [finish, pend]
    exact Nat.le_trans text (Nat.le_add_right _ _)
  | some i =>
    have flushed := @flush_length f i (within.pend i pend)
    rw [finish, pend]
    show (f.flush i).text.length ≤ limit + 19
    omega

end ChgFrame

namespace Pumping

variable {s : Pumping} {seen : Found}

theorem chgOpen_length (typed : s.Typed) : s.chgOpen.length ≤ 117 := by
  have la := @rateText_length (cstr "\"la_rate_hz\":") _ typed.laRate
  have pre := @rateText_length (cstr "\"pre_samples\":") _ typed.pre
  have laName : (cstr "\"la_rate_hz\":").length = 13 := rfl
  have preName : (cstr "\"pre_samples\":").length = 14 := rfl
  have start : (cstr "\x7b\"status\":\"ok\",\"bits\":16,").length = 25 := rfl
  have cut : (if s.bulk.chgTrunc = 0 then []
      else cstr "\"truncated\":\"" ++ (if s.bulk.chgTrunc = 1 then cstr "busy" else cstr "memory") ++
        cstr "\",").length ≤ 21 := by
    split
    · exact Nat.zero_le _
    · split <;> decide
  rw [chgOpen, List.length_append, edgesOpen_length]
  split
  · rw [openText_none_length]
    decide
  · simp only [List.length_append, start]
    omega

/-- A frame of the events of a change capture fits. -/
theorem chg_fits {text : List Byte} (typed : s.Typed) (left : s.bulk.sent < s.bulk.total) (room : 200 ≤ seen.avail)
    (passed : (s.bulkPumpChanges seen).2 = some text) : text.length ≤ seen.avail ∧ text.length ≤ chunkBufSize := by
  have opens := chgOpen_length typed
  have undone : s.chg.done = false := Bool.eq_false_iff.mpr fun done => absurd (typed.done done) (Nat.not_le.mpr left)
  have footer : (cstr "],\"la_upto\":").length = 12 := rfl
  have size : chunkBufSize = 1840 := rfl
  have number (n m : Nat) : (decimal (sub32 n m)).length ≤ 10 := decimal_word_length (Nat.mod_lt _ (by decide))
  have none_text : (closeText none true).length = 14 := rfl
  by_cases full : s.edgeLimit seen - 24 < s.chgOpen.length + 24
  · have stops : ChgFrame.loop seen (s.edgeLimit seen - 24) { s, text := s.chgOpen } =
        .stop { s, text := s.chgOpen } := by
      rw [ChgFrame.loop]
      exact if_pos (.inr full)
    rw [bulkPumpChanges, stops] at passed
    obtain rfl := Option.some.inj passed
    have upto := number s.bulk.sent s.bulk.adcSamples
    simp only [undone, Bool.false_eq_true, if_false, Bool.not_false, List.length_append]
    omega
  · have within := @ChgFrame.loop_within { s, text := s.chgOpen } seen (s.edgeLimit seen - 24) s.bulk
      ⟨by show s.chgOpen.length ≤ _; omega, rfl, typed.pend⟩
    have sent (f : ChgFrame) (last : Bool) (within : f.Within (s.edgeLimit seen - 24) s.bulk) (text : List Byte)
        (same : text = (if last then f.finish else f).text ++ cstr "],\"la_upto\":" ++
          decimal (sub32 (if last then f.finish else f).s.bulk.sent (if last then f.finish else f).s.bulk.adcSamples) ++
          closeText (if last then s.trigger else none) !last) :
        text.length ≤ seen.avail ∧ text.length ≤ chunkBufSize := by
      have whole : (if last then f.finish else f).text.length ≤ s.edgeLimit seen - 24 + 19 := by
        split
        · exact ChgFrame.finish_length within
        · exact Nat.le_trans within.text (Nat.le_add_right _ _)
      have upto := number (if last then f.finish else f).s.bulk.sent (if last then f.finish else f).s.bulk.adcSamples
      have close := close_length typed last
      rw [edgeLimit] at whole full
      rw [same]
      simp only [List.length_append]
      cases present : s.bulk.trigPresent with
      | true =>
        simp only [present, if_true] at close whole full
        omega
      | false =>
        simp only [present, Bool.false_eq_true, if_false] at close whole full
        omega
    rw [bulkPumpChanges] at passed
    split at passed
    · exact nomatch passed
    · next f stopped =>
        rw [stopped] at within
        exact sent f f.s.chg.done within text (Option.some.inj passed).symm
    · next f stopped =>
        rw [stopped] at within
        exact sent f f.s.chg.done within text (Option.some.inj passed).symm

section Kept

variable {after : Pumping}

end Kept

theorem dense_passed {text : List Byte} (passed : (s.denseTurn seen).2 = some text) :
    s.denseCount seen.avail ≠ 0 ∧ (s.bulk.fromPsram = true → seen.reads = true) ∧
      text = s.denseText seen (decide (s.bulk.total ≤ s.bulk.sent + s.denseCount seen.avail)) := by
  rw [denseTurn] at passed
  simp only at passed
  split at passed
  · exact nomatch passed
  split at passed
  · exact nomatch passed
  next some_room readable =>
    refine ⟨some_room, ?_, (Option.some.inj passed).symm⟩
    intro psram
    cases reads : seen.reads with
    | true => rfl
    | false => exact absurd ⟨psram, reads⟩ readable

/-- A turn passes a frame that fits the free space it was paced against, and the buffer, except where the first frame
of a decimal reply is longer than the free space. -/
theorem frame_fits (s : Pumping) (seen : Found) (typed : s.Typed) :
    (∀ text, (s.turn seen).2 = some text → text.length ≤ seen.avail ∧ text.length ≤ chunkBufSize) ↔
      (s.FirstDecimal seen → s.firstLength seen ≤ seen.avail) := by
  have next : ({ s with progress := seen.now } : Pumping).Typed :=
    ⟨typed.total, typed.adcRate, typed.laRate, typed.pre, typed.named, typed.pend, typed.done⟩
  constructor
  · intro fits first
    have length := first_length first
    rw [← length]
    refine (fits _ ?_).1
    have region : ¬(s.bulk.chg = true ∧ s.bulk.adcSamples ≤ s.bulk.sent) ∧
        ¬(s.bulk.is16 = true ∧ s.bulk.fromPsram = true ∧ s.bulk.adcSamples ≤ s.bulk.sent) := by
      have samples := first.samples
      have start := first.start
      rw [start, Nat.le_zero]
      tauto
    have left : ¬s.bulk.total ≤ s.bulk.sent := by
      have := first.left
      rw [first.start]
      omega
    have readable : ¬(s.bulk.fromPsram = true ∧ seen.reads = false) := fun unreadable =>
      Bool.false_ne_true (unreadable.2.symm.trans (first.reads unreadable.1))
    have some_room : ¬({ s with progress := seen.now } : Pumping).denseCount seen.avail = 0 := first.some_room
    rw [turn, if_neg (by simp [first.active]), if_neg left, if_neg (Nat.not_lt.mpr first.room)]
    simp only
    rw [if_neg region.1, if_neg region.2, denseTurn]
    simp only
    rw [if_neg some_room, if_neg readable]
    rfl
  · intro short text passed
    rw [turn] at passed
    split at passed
    · exact nomatch passed
    split at passed
    · exact nomatch passed
    split at passed
    · split at passed <;> exact nomatch passed
    next active left room =>
      have left : s.bulk.sent < s.bulk.total := Nat.not_le.mp left
      simp only at passed
      split at passed
      · split at passed
        · exact nomatch passed
        · next free => exact chg_fits next left (Nat.not_lt.mp free) passed
      split at passed
      · exact la_fits next left passed
      next changes words =>
        obtain ⟨some_room, readable, rfl⟩ := dense_passed passed
        cases compact : s.dense64 with
        | true => exact dense64_fits next some_room _ compact
        | false =>
          obtain ⟨buffer, later⟩ := decimal_fits next some_room
            (decide (s.bulk.total ≤ s.bulk.sent + s.denseCount seen.avail)) compact
          refine ⟨?_, buffer⟩
          by_cases start : s.bulk.sent = 0
          · have samples : ¬(s.bulk.adcSamples = 0 ∧
                (s.bulk.chg = true ∨ s.bulk.is16 = true ∧ s.bulk.fromPsram = true)) := by
              rintro ⟨none, chg | la⟩
              · exact changes ⟨chg, by show s.bulk.adcSamples ≤ s.bulk.sent; omega⟩
              · exact words ⟨la.1, la.2, by show s.bulk.adcSamples ≤ s.bulk.sent; omega⟩
            have active : s.ended = none := by simpa using active
            have whole : s.firstLength seen ≤ seen.avail :=
              short ⟨active, start, by omega, compact, samples, Nat.not_lt.mp room, some_room, readable⟩
            have length := @first_length { s with progress := seen.now } seen
              ⟨active, start, by show 0 < s.bulk.total; omega, compact, samples, Nat.not_lt.mp room, some_room, readable⟩
            exact Nat.le_trans (Nat.le_of_eq length) whole
          · exact later start

/-- A read-back that goes on, into a ring with 96 bytes left. -/
theorem frame_fits_later :
    ∃ text, (({ bulk := { connId := 0, total := 16, sent := 4, is16 := true } } : Pumping).turn
      { avail := 96 }).2 = some text ∧ text.length ≤ 96 ∧ text.length ≤ chunkBufSize := by
  refine ⟨_, rfl, (frame_fits { bulk := { connId := 0, total := 16, sent := 4, is16 := true } } { avail := 96 } ?_).mpr
    ?_ _ rfl⟩
  · refine ⟨by decide, by decide, by decide, by decide, by decide, ?_, fun done => nomatch done⟩
    exact fun _ member => nomatch member
  · exact fun first => nomatch first.start

/-- The first frame of a capture with both rates does not fit 96 bytes. -/
theorem first_overflows :
    let bulk : Bulk :=
      { connId := 0
        total := 4
        is16 := true
        fromPsram := true
        adcSamples := 4
        adcRateHz := 480000
        laRateHz := 24000000 }
    ¬∀ text ∈ (({ bulk } : Pumping).turn { avail := 96, stock := { psram16 := fun _ => 65535 } }).2,
      text.length ≤ 96 ∧ text.length ≤ chunkBufSize := by
  decide +kernel

end Pumping
end BenchPod.Capture
