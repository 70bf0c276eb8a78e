import BenchPod.Capture.Readback

/-!
# Frames that fit

How long the frames of a read-back get.  Except for the first one in decimal, a frame fits the room that
the pump found in the send ring.
-/

namespace BenchPod.Capture

open Json Command

theorem decimal_length_le {n digits : Nat} (some_digit : 0 < digits) (small : n < 10 ^ digits) :
    (decimal n).length ≤ digits := by
  rw [decimal, List.length_map]
  exact (Nat.length_toDigits_le_iff (by decide) some_digit).mpr small

theorem decimal_word_length {n : Nat} (small : n < 2 ^ 32) : (decimal n).length ≤ 10 :=
  decimal_length_le (by decide) (Nat.lt_of_lt_of_le small (by decide))

theorem decimal_half_length (half : Half) : (decimal half.toNat).length ≤ 5 :=
  decimal_length_le (by decide) (Nat.lt_of_lt_of_le half.isLt (by decide))

theorem rateText_length {name : List Byte} {hz : Nat} (small : hz < 2 ^ 32) :
    (rateText name hz).length ≤ name.length + 11 := by
  have digits := decimal_word_length small
  have comma : (cstr ",").length = 1 := rfl
  unfold rateText
  split
  · exact Nat.zero_le _
  · simp only [List.length_append, comma]
    omega

theorem openText_none_length : (openText none).length = 18 := rfl

theorem openText_length {adcHz laHz : Nat} (adc : adcHz < 2 ^ 32) (la : laHz < 2 ^ 32) :
    (openText (some (adcHz, laHz))).length ≤ 74 := by
  have adcText := @rateText_length (cstr "\"adc_rate_hz\":") adcHz adc
  have laText := @rateText_length (cstr "\"la_rate_hz\":") laHz la
  have start : (cstr "\x7b\"status\":\"ok\",\"bits\":16,").length = 25 := rfl
  have adcName : (cstr "\"adc_rate_hz\":").length = 14 := rfl
  have laName : (cstr "\"la_rate_hz\":").length = 13 := rfl
  simp only [openText, List.length_append, start]
  omega

theorem openText_la_length {laHz : Nat} (la : laHz < 2 ^ 32) : (openText (some (0, laHz))).length ≤ 49 := by
  have laText := @rateText_length (cstr "\"la_rate_hz\":") laHz la
  have start : (cstr "\x7b\"status\":\"ok\",\"bits\":16,").length = 25 := rfl
  have laName : (cstr "\"la_rate_hz\":").length = 13 := rfl
  simp only [openText, rateText, if_pos, List.length_append, List.length_nil, start]
  change 25 + 0 + (rateText (cstr "\"la_rate_hz\":") laHz).length ≤ 49
  omega

theorem edgesOpen_length : edgesOpen.length = 22 := rfl

theorem edgeText_length {edge : Nat × Half} (small : edge.1 < 2 ^ 32) (first : Bool) :
    (edgeText first edge).length ≤ 19 := by
  have index := decimal_word_length small
  have word := decimal_half_length edge.2
  have comma : (cstr ",").length = 1 := rfl
  have opens : (cstr "[").length = 1 := rfl
  have closes : (cstr "]").length = 1 := rfl
  unfold edgeText
  split
  all_goals
    simp only [List.length_append, List.length_nil, comma, opens, closes]
    omega

theorem samplesText_length (samples : List Half) : (samplesText samples).length ≤ 6 * samples.length := by
  have comma : (cstr ",").length = 1 := rfl
  unfold samplesText
  induction samples with
  | nil => exact Nat.le_refl _
  | cons sample samples ih =>
    have digits := decimal_half_length sample
    cases samples with
    | nil =>
      simp only [List.map_cons, List.map_nil, List.intercalate_singleton, List.length_cons, List.length_nil]
      omega
    | cons next samples =>
      rw [List.map_cons, List.map_cons, List.intercalate_cons_cons, List.length_append, List.length_append,
        comma, List.length_cons]
      rw [List.map_cons] at ih
      omega

theorem edgeName_length (edge : LaEdge) : edge.name.length ≤ 7 := by
  cases edge <;> decide

theorem triggerText_length {trig : LaTrigger} (named : trig.la < 256) (fired : Bool) :
    (triggerText (some (trig, fired))).length ≤ 52 := by
  have la : (decimal trig.la).length ≤ 3 := decimal_length_le (by decide) (Nat.lt_of_lt_of_le named (by decide))
  have name := edgeName_length trig.edge
  have start : (cstr ",\"trigger\":\x7b\"la\":").length = 17 := rfl
  have middle : (cstr ",\"edge\":\"").length = 9 := rfl
  have outcome : (cstr "\",\"fired\":").length = 10 := rfl
  have flag : (if fired then cstr "true" else cstr "false").length ≤ 5 := by cases fired <;> decide
  have finish : (cstr "\x7d").length = 1 := rfl
  simp only [triggerText, List.length_append, start, middle, outcome, finish]
  omega

theorem closeText_length (trigger : Option (LaTrigger × Bool)) (more : Bool) :
    (closeText trigger more).length ≤ (triggerText trigger).length + 15 := by
  have start : (cstr ",\"more\":").length = 8 := rfl
  have flag : (if more then cstr "true" else cstr "false").length ≤ 5 := by cases more <;> decide
  have finish : (cstr "\x7d\n").length = 2 := rfl
  simp only [closeText, List.length_append, start, finish]
  omega

section Edges

variable {limit i pos : Nat} {words : List Half} {last : Option Half} {first : Bool}

theorem laEdges_edges : (laEdges limit words i pos last first).edges =
    Edges.changes last i (words.take (laEdges limit words i pos last first).covered) := by
  induction words generalizing i pos last first with
  | nil => rfl
  | cons word words ih =>
    unfold laEdges
    split
    · rename_i same
      simp only [List.take_succ_cons, Edges.changes, if_pos same]
      exact ih
    · rename_i other
      split
      · rfl
      · simp only [List.take_succ_cons, Edges.changes, if_neg other]
        exact congrArg _ ih

theorem laEdges_covered_le : (laEdges limit words i pos last first).covered ≤ words.length := by
  induction words generalizing i pos last first with
  | nil => exact Nat.le_refl _
  | cons word words ih =>
    unfold laEdges
    split
    · exact Nat.succ_le_succ ih
    · split
      · exact Nat.zero_le _
      · exact Nat.succ_le_succ ih

theorem laEdges_covered_pos (some_words : words ≠ []) (room : pos + 24 ≤ limit) :
    0 < (laEdges limit words i pos last first).covered := by
  cases words with
  | nil => exact absurd rfl some_words
  | cons word words =>
    unfold laEdges
    split
    · exact Nat.succ_pos _
    · rw [if_neg (Nat.not_lt.mpr room)]
      exact Nat.succ_pos _

theorem laEdges_last : (laEdges limit words i pos last first).last =
    ((words.take (laEdges limit words i pos last first).covered).getLast?).or last := by
  induction words generalizing i pos last first with
  | nil => rfl
  | cons word words ih =>
    have after (rest : List Half) (kept : Option Half) (same : kept = some word) :
        (rest.getLast?).or kept = ((word :: rest).getLast?).or last := by
      cases rest with
      | nil => simp [same]
      | cons next rest =>
        rw [List.getLast?_cons_cons]
        cases found : (next :: rest).getLast? with
        | none => simp at found
        | some value => rfl
    unfold laEdges
    split
    · rename_i same
      rw [List.take_succ_cons]
      exact ih.trans (after _ _ same)
    · split
      · rfl
      · rw [List.take_succ_cons]
        exact ih.trans (after _ _ rfl)

theorem laEdges_text (small : i + words.length ≤ 2 ^ 32) :
    pos + (edgesText first (laEdges limit words i pos last first).edges).length ≤ max pos limit := by
  induction words generalizing i pos last first with
  | nil => exact Nat.le_max_left _ _
  | cons word words ih =>
    rw [List.length_cons] at small
    unfold laEdges
    split
    · exact ih (by omega)
    · split
      · exact Nat.le_max_left _ _
      · rename_i room
        have edge := @edgeText_length (i, word) (show i < 2 ^ 32 by omega) first
        have rest := @ih (i + 1) (pos + (edgeText first (i, word)).length) (some word) false (by omega)
        simp only [edgesText, List.length_append]
        omega

end Edges

@[simp]
theorem Content.read16_length (c : Content) (index count : Nat) : (c.read16 index count).length = count := by
  unfold Content.read16
  split <;> simp

/-- What a read-back of a content goes by. -/
structure Content.Pumps (c : Content) (bulk : Bulk) : Prop where
  total : bulk.total = c.total
  adcSamples : bulk.adcSamples = c.adcSamples
  adcRate : bulk.adcRateHz < 2 ^ 32
  laRate : bulk.laRateHz < 2 ^ 32
  unrated : c.adcSamples = 0 → bulk.adcRateHz = 0
  named : bulk.trig.la < 256

namespace Sending

variable {c : Content} {s : Sending} {seen : Seen} {body : Body} {count : Nat}

theorem frame_text_length (pumps : c.Pumps s.bulk) :
    (s.frame body count).text.length ≤ (openText s.header).length + body.text.length +
      (if s.bulk.trigPresent then 67 else 15) := by
  have close := closeText_length (s.frame body count).trigger (s.frame body count).more
  have trigger : (triggerText (s.frame body count).trigger).length ≤ if s.bulk.trigPresent then 52 else 0 := by
    dsimp only [frame, Sending.trigger]
    split
    · split
      · exact triggerText_length pumps.named _
      · exact Nat.le_refl _
    · exact Nat.zero_le _
  have same : (s.frame body count).text.length = (openText s.header).length + body.text.length +
      (closeText (s.frame body count).trigger (s.frame body count).more).length := by
    rw [Frame.text, List.length_append, List.length_append]
    rfl
  rw [same]
  split at trigger <;> rename_i present
  · rw [if_pos present]
    omega
  · rw [if_neg present]
    omega

theorem openText_header_length (pumps : c.Pumps s.bulk) : (openText s.header).length ≤ 74 := by
  unfold header
  split
  · exact openText_length pumps.adcRate pumps.laRate
  · rw [openText_none_length]
    decide

theorem openText_la_header_length (pumps : c.Pumps s.bulk) (la : s.bulk.adcSamples ≤ s.bulk.sent) :
    (openText s.header).length ≤ 49 := by
  unfold header
  split
  · rename_i start
    have none_of_adc : c.adcSamples = 0 := by
      rw [← pumps.adcSamples]
      omega
    rw [pumps.unrated none_of_adc]
    exact openText_la_length pumps.laRate
  · rw [openText_none_length]
    decide

section Edges

variable (pumps : c.Pumps s.bulk) (la : s.bulk.adcSamples ≤ s.bulk.sent) (room : 200 ≤ seen.avail)

include pumps la room

theorem edges_open : (openText s.header ++ edgesOpen).length + 24 ≤
    min chunkBufSize seen.avail - (56 + if s.bulk.trigPresent then 48 else 0) := by
  have opens := openText_la_header_length pumps la
  have start := edgesOpen_length
  have size : chunkBufSize = 1840 := rfl
  rw [List.length_append]
  split <;> omega

theorem edgeRun_covered_pos (left : s.bulk.sent < s.bulk.total) : 0 < (s.edgeRun c seen).covered := by
  unfold edgeRun
  refine laEdges_covered_pos ?_ (edges_open pumps la room)
  have some_words : 0 < min (s.bulk.total - s.bulk.sent) chunkSamples := by
    have size : chunkSamples = 256 := rfl
    omega
  rw [← List.length_pos_iff, Content.read16_length]
  exact some_words

theorem edges_fit (within : s.bulk.sent ≤ s.bulk.total) {upto : Nat} (small : upto < 2 ^ 32) :
    (s.frame (.edges (s.edgeRun c seen).edges upto) count).text.length ≤ seen.avail := by
  have opens := edges_open pumps la room
  have text := @frame_text_length c s (.edges (s.edgeRun c seen).edges upto) count pumps
  have countable := c.countable
  have total := pumps.total
  have last : s.bulk.sent - s.bulk.adcSamples +
      (c.read16 s.bulk.sent (min (s.bulk.total - s.bulk.sent) chunkSamples)).length ≤ 2 ^ 32 := by
    rw [Content.read16_length]
    unfold Content.total at total
    omega
  have edges : (openText s.header ++ edgesOpen).length + (edgesText true (s.edgeRun c seen).edges).length ≤
      max (openText s.header ++ edgesOpen).length
        (min chunkBufSize seen.avail - (56 + if s.bulk.trigPresent then 48 else 0)) := laEdges_text last
  have digits := decimal_word_length small
  have footer : (cstr "],\"la_upto\":").length = 12 := rfl
  have size : chunkBufSize = 1840 := rfl
  have body : (Body.text (.edges (s.edgeRun c seen).edges upto)).length =
      edgesOpen.length + (edgesText true (s.edgeRun c seen).edges).length + 12 + (decimal upto).length := by
    simp only [Body.text, List.length_append, footer]
  rw [List.length_append] at opens edges
  split at text <;> rename_i present
  · rw [if_pos present] at opens edges
    omega
  · rw [if_neg present] at opens edges
    omega

end Edges

/-- The samples of a dense frame, as far as there is room for them. -/
theorem denseCount_spec (some_room : 0 < s.denseCount seen.avail) :
    s.denseCount seen.avail ≤ s.bulk.total - s.bulk.sent ∧ s.denseCount seen.avail ≤ chunkSamples ∧
      (s.bulk.sent < s.bulk.adcSamples → s.bulk.sent + s.denseCount seen.avail ≤ s.bulk.adcSamples) ∧
      if s.bulk.b64 then
        bulkFooterReserve s.bulk + bulkB64HeaderMax + 8 < seen.avail ∧
          s.denseCount seen.avail ≤ (seen.avail - bulkFooterReserve s.bulk - bulkB64HeaderMax) * 3 / 8
      else
        bulkFooterReserve s.bulk + 7 < seen.avail ∧
          s.denseCount seen.avail ≤ (seen.avail - bulkFooterReserve s.bulk) / 7 := by
  have cut (n : Nat) : (if s.bulk.sent < s.bulk.adcSamples ∧ s.bulk.adcSamples < s.bulk.sent + n then
        s.bulk.adcSamples - s.bulk.sent else n) ≤ n ∧
      (s.bulk.sent < s.bulk.adcSamples → s.bulk.sent + (if s.bulk.sent < s.bulk.adcSamples ∧
        s.bulk.adcSamples < s.bulk.sent + n then s.bulk.adcSamples - s.bulk.sent else n) ≤ s.bulk.adcSamples) := by
    split <;> omega
  unfold denseCount at some_room ⊢
  dsimp only at some_room ⊢
  obtain ⟨fewer, inside⟩ := cut (min (min (s.bulk.total - s.bulk.sent) chunkSamples) (if s.bulk.b64 then
      if seen.avail ≤ bulkFooterReserve s.bulk + bulkB64HeaderMax + 8 then 0
      else (seen.avail - bulkFooterReserve s.bulk - bulkB64HeaderMax) * 3 / 8
    else if seen.avail ≤ bulkFooterReserve s.bulk + 7 then 0
    else (seen.avail - bulkFooterReserve s.bulk) / 7))
  have room := Nat.le_trans fewer (Nat.min_le_right _ _)
  have left := Nat.le_trans fewer (Nat.min_le_left _ _)
  refine ⟨Nat.le_trans left (Nat.min_le_left _ _), Nat.le_trans left (Nat.min_le_right _ _), inside, ?_⟩
  have some_left := Nat.lt_of_lt_of_le some_room room
  by_cases b64 : s.bulk.b64 = true
  · simp only [if_pos b64] at room some_left ⊢
    by_cases full : seen.avail ≤ bulkFooterReserve s.bulk + bulkB64HeaderMax + 8
    · rw [if_pos full] at some_left
      cases some_left
    · simp only [if_neg full] at room ⊢
      exact ⟨Nat.not_le.mp full, room⟩
  · simp only [if_neg b64] at room some_left ⊢
    by_cases full : seen.avail ≤ bulkFooterReserve s.bulk + 7
    · rw [if_pos full] at some_left
      cases some_left
    · simp only [if_neg full] at room ⊢
      exact ⟨Nat.not_le.mp full, room⟩

theorem encode_words_length (words : List Half) :
    (B64url.encode (words.flatMap Endian.le16)).length = (8 * words.length + 2) / 3 := by
  have bytes : (words.flatMap Endian.le16).length = 2 * words.length := by
    induction words with
    | nil => rfl
    | cons word words ih =>
      rw [List.flatMap_cons, List.length_append, ih, Endian.le16_length, List.length_cons]
      omega
  rw [B64url.encode_length, bytes]
  omega

theorem b64_fit (pumps : c.Pumps s.bulk) (b64 : s.bulk.b64 = true) (some_room : 0 < s.denseCount seen.avail) :
    (s.frame (s.denseBody c (s.denseCount seen.avail)) count).text.length ≤ seen.avail := by
  have text := @frame_text_length c s (s.denseBody c (s.denseCount seen.avail)) count pumps
  have opens := openText_header_length pumps
  have body : (s.denseBody c (s.denseCount seen.avail)).text.length = 8 + (8 * s.denseCount seen.avail + 2) / 3 := by
    have start : (cstr "\"b64\":\"").length = 7 := rfl
    have finish : (cstr "\"").length = 1 := rfl
    simp only [denseBody, if_pos b64, Body.text, List.length_append, encode_words_length,
      Content.read16_length, start, finish]
    omega
  obtain ⟨-, -, -, room⟩ := denseCount_spec some_room
  rw [if_pos b64] at room
  have header : bulkB64HeaderMax = 96 := rfl
  unfold bulkFooterReserve at room
  split at text <;> rename_i present
  · rw [if_pos present] at room
    omega
  · rw [if_neg present] at room
    omega

theorem decimal_fit (pumps : c.Pumps s.bulk) (plain : s.bulk.b64 = false) (later : s.bulk.sent ≠ 0)
    (some_room : 0 < s.denseCount seen.avail) :
    (s.frame (s.denseBody c (s.denseCount seen.avail)) count).text.length ≤ seen.avail := by
  have text := @frame_text_length c s (s.denseBody c (s.denseCount seen.avail)) count pumps
  have opens : (openText s.header).length = 18 := by rw [header, if_neg later, openText_none_length]
  have body : (s.denseBody c (s.denseCount seen.avail)).text.length ≤ 9 + 6 * s.denseCount seen.avail := by
    have samples := samplesText_length (c.read16 s.bulk.sent (s.denseCount seen.avail))
    have start : (cstr "\"data\":[").length = 8 := rfl
    have finish : (cstr "]").length = 1 := rfl
    rw [Content.read16_length] at samples
    simp only [denseBody, plain, Bool.false_eq_true, if_false, Body.text, List.length_append, start, finish]
    omega
  obtain ⟨-, -, -, room⟩ := denseCount_spec some_room
  rw [if_neg (by simp [plain])] at room
  unfold bulkFooterReserve at room
  split at text <;> rename_i present
  · rw [if_pos present] at room
    omega
  · rw [if_neg present] at room
    omega

end Sending
end BenchPod.Capture
