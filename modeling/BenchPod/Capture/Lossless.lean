import BenchPod.Capture.Frames

/-!
# A read-back loses nothing

Whatever room the pump finds in the send ring, the frames it has sent hold the samples from the start of
the reply on, each once, up to where it has come.
-/

namespace BenchPod.Capture

open Json Command

/-- Words out of their bytes. -/
def wordsOf : List Byte → List Half
  | low :: high :: bytes => Endian.rd16 [low, high] :: wordsOf bytes
  | _ => []

/-- The samples of a dense frame. -/
def Body.dense : Body → List Half
  | .data samples => samples
  | .b64 text => wordsOf (B64url.decode text text.length).1
  | .edges _ _ => []

/-- How far a frame of edges reaches. -/
def Body.upto : Body → Option Nat
  | .edges _ upto => some upto
  | _ => none

/-- A frame of edges filled forward, behind the words that are there from a first index on. -/
def readLaFrame (first : Nat) (words : List Half) (frame : Frame) : List Half :=
  match frame.body with
  | .edges changes upto => Edges.read words (changes.map fun edge => (edge.1 - first, edge.2)) (upto - first)
  | _ => words

/-- The logic-analyzer words of a reply. -/
def readLa (first : Nat) (frames : List Frame) : List Half := frames.foldl (readLaFrame first) []

/-- The frames hold exactly the samples from `start` to where the read-back has come. -/
structure Lossless (c : Content) (start : Nat) (s : Sending) (frames : List Frame) : Prop where
  adc : frames.flatMap (·.body.dense) = (c.adcWords.take s.bulk.sent).drop start
  la : readLa (start - c.adcSamples) frames = (c.laWords.take (s.bulk.sent - c.adcSamples)).drop (start - c.adcSamples)
  rising : (frames.filterMap (·.body.upto)).Pairwise (· < ·)
  more : ∀ i frame, frames[i]? = some frame → (frame.more = false ↔ i + 1 = frames.length ∧ s.bulk.sent = c.total)
  metadata : ∀ i frame, frames[i]? = some frame → (frame.header.isSome = true ↔ i = 0 ∧ start = 0)
  whole : s.ended = some .complete → s.bulk.sent = c.total

/-- A read-back under way. -/
structure Going (c : Content) (start : Nat) (s : Sending) (frames : List Frame) : Prop
    extends Lossless c start s frames where
  pumps : c.Pumps s.bulk
  ahead : start ≤ s.bulk.sent
  within : s.bulk.sent ≤ c.total
  none_yet : frames = [] ↔ s.bulk.sent = start
  last : s.laLast = (readLa (start - c.adcSamples) frames).getLast?
  below : ∀ upto ∈ frames.filterMap (·.body.upto), upto ≤ s.bulk.sent - c.adcSamples

theorem wordsOf_bytes (words : List Half) : wordsOf (words.flatMap Endian.le16) = words := by
  induction words with
  | nil => rfl
  | cons word words ih =>
    have two := Endian.le16_length word
    match bytes : Endian.le16 word, two with
    | [low, high], _ =>
      have same : Endian.rd16 [low, high] = word := by
        rw [← bytes]
        exact Endian.rd16_le16 word
      rw [List.flatMap_cons, bytes, List.cons_append, List.cons_append, List.nil_append, wordsOf, same, ih]

theorem denseBody_dense (c : Content) (s : Sending) (count : Nat) :
    (s.denseBody c count).dense = c.read16 s.bulk.sent count := by
  unfold Sending.denseBody
  dsimp only
  split
  · have enough : ((c.read16 s.bulk.sent count).flatMap Endian.le16).length ≤
        (B64url.encode ((c.read16 s.bulk.sent count).flatMap Endian.le16)).length := by
      rw [B64url.encode_length]
      omega
    rw [Body.dense, B64url.decode_encode enough, wordsOf_bytes]
  · rfl

section Words

variable {c : Content} {index count : Nat}

theorem read16_adc (inside : index + count ≤ c.adcSamples) (some_words : 0 < count) :
    c.read16 index count = (c.adcWords.drop index).take count := by
  rw [Content.read16, if_pos (by omega), Content.adcWords]
  apply List.ext_getElem
  · simp
    omega
  · intro i small _
    simp

theorem read16_la (behind : c.adcSamples ≤ index) (inside : index + count ≤ c.total) :
    c.read16 index count = (c.laWords.drop (index - c.adcSamples)).take count := by
  unfold Content.total at inside
  rw [Content.read16, if_neg (Nat.not_lt.mpr behind), Content.laWords]
  apply List.ext_getElem
  · simp
    omega
  · intro i small _
    simp

theorem take_drop_append {α : Type*} (l : List α) {start sent : Nat} (count : Nat) (ahead : start ≤ sent)
    (inside : sent ≤ l.length) :
    (l.take sent).drop start ++ (l.drop sent).take count = (l.take (sent + count)).drop start := by
  rw [List.take_add, List.drop_append_of_le_length]
  rwa [List.length_take_of_le inside]

@[simp]
theorem adcWords_length : c.adcWords.length = c.adcSamples := by simp [Content.adcWords]

@[simp]
theorem laWords_length : c.laWords.length = c.laSamples := by simp [Content.laWords]

end Words

/-- The room is enough for the first frame of a reply in decimal, with its metadata. -/
def Sending.roomy (c : Content) (s : Sending) (seen : Seen) : Bool :=
  let count := s.denseCount seen.avail
  s.ended.isSome || s.bulk.sent ≠ 0 || c.adcSamples = 0 || s.bulk.b64 || seen.avail < 96 || count = 0 ||
    !seen.reads || (s.frame (.data (c.adcWords.take count)) count).text.length ≤ seen.avail + seen.drained

/-- The PSRAM can be read and the connection has not stalled for too long. -/
def Sending.patient (s : Sending) (seen : Seen) : Bool :=
  seen.reads && !(decide (seen.avail < 96) && decide (bulkStallMs < (seen.now - s.progress).toNat))

/-- What a turn of the pump can come to. -/
inductive Turned (c : Content) (s : Sending) (seen : Seen) : Sending × Option Frame → Prop
  | rests (t : Sending) (bulk : t.bulk = s.bulk) (laLast : t.laLast = s.laLast)
      (ended : t.ended = s.ended ∨ s.ended = none ∧ (t.ended = some .stalled ∨ t.ended = some .unreadable ∨
        t.ended = some .complete ∧ s.bulk.total ≤ s.bulk.sent)) (roomy : s.roomy c seen = true) :
      Turned c s seen (t, none)
  | edges (t : Sending) (behind : c.adcSamples ≤ s.bulk.sent) (run : EdgeRun) (some_words : 0 < run.covered)
      (inside : s.bulk.sent + run.covered ≤ c.total) (laLast : t.laLast = run.last)
      (changes : run.edges = Edges.changes s.laLast (s.bulk.sent - c.adcSamples)
        ((c.laWords.drop (s.bulk.sent - c.adcSamples)).take run.covered))
      (last : run.last = (((c.laWords.drop (s.bulk.sent - c.adcSamples)).take run.covered).getLast?).or s.laLast)
      (bulk : t.bulk = { s.bulk with sent := s.bulk.sent + run.covered }) (active : s.ended = none)
      (ended : t.ended = none) (roomy : s.roomy c seen = true) :
      Turned c s seen
        (t, some (s.frame (.edges run.edges (s.bulk.sent - c.adcSamples + run.covered)) run.covered))
  | dense (t : Sending) (body : Body) (count : Nat) (some_words : 0 < count)
      (inside : s.bulk.sent + count ≤ c.adcSamples) (upto : body.upto = none)
      (words : body.dense = (c.adcWords.drop s.bulk.sent).take count) (laLast : t.laLast = s.laLast)
      (bulk : t.bulk = { s.bulk with sent := s.bulk.sent + count }) (active : s.ended = none)
      (ended : t.ended = none) (roomy : s.roomy c seen = true) : Turned c s seen (t, some (s.frame body count))
  | unsent (t : Sending) (bulk : t.bulk = s.bulk) (laLast : t.laLast = s.laLast)
      (ended : t.ended = some .unsent) (tight : s.roomy c seen = false) : Turned c s seen (t, none)

namespace Sending

variable {c : Content} {s : Sending} {seen : Seen}

theorem deliver_fits {frame : Frame} (fits : frame.text.length ≤ seen.avail + seen.drained) (count : Nat) :
    s.deliver seen frame count = ({ s with bulk := { s.bulk with sent := s.bulk.sent + count } }, some frame) :=
  if_neg (Nat.not_lt.mpr fits)

theorem turned_edges (pumps : c.Pumps s.bulk) (behind : s.bulk.adcSamples ≤ s.bulk.sent)
    (left : s.bulk.sent < s.bulk.total) (room : 200 ≤ seen.avail) (roomy : s.roomy c seen = true)
    (active : s.ended = none) (now : Word) :
    Turned c s seen (Sending.deliver { s with progress := now, laLast := (s.edgeRun c seen).last } seen
        (s.frame (.edges (s.edgeRun c seen).edges
          (s.bulk.sent - s.bulk.adcSamples + (s.edgeRun c seen).covered)) (s.edgeRun c seen).covered)
        (s.edgeRun c seen).covered) := by
  have total := pumps.total
  have boundary := pumps.adcSamples
  have countable := c.countable
  have some_words := edgeRun_covered_pos pumps behind room left
  have fewer : (s.edgeRun c seen).covered ≤ min (s.bulk.total - s.bulk.sent) chunkSamples := by
    refine Nat.le_trans laEdges_covered_le (Nat.le_of_eq ?_)
    rw [Content.read16_length]
  have inside : s.bulk.sent + (s.edgeRun c seen).covered ≤ c.total := by omega
  have upto : s.bulk.sent - s.bulk.adcSamples + (s.edgeRun c seen).covered < 2 ^ 32 := by
    unfold Content.total at inside
    omega
  have fits := @edges_fit c s seen (s.edgeRun c seen).covered pumps behind room (Nat.le_of_lt left) _ upto
  rw [deliver_fits (Nat.le_trans fits (Nat.le_add_right _ _))]
  have covers : (c.read16 s.bulk.sent (min (s.bulk.total - s.bulk.sent) chunkSamples)).take (s.edgeRun c seen).covered =
      (c.laWords.drop (s.bulk.sent - c.adcSamples)).take (s.edgeRun c seen).covered := by
    rw [read16_la (by omega) (by omega), List.take_take, Nat.min_eq_left fewer]
  rw [boundary]
  refine .edges _ (boundary ▸ behind) (s.edgeRun c seen) some_words inside rfl ?_ ?_ rfl active active roomy
  · rw [← covers, ← boundary]
    exact laEdges_edges
  · rw [← covers]
    exact laEdges_last

/-- A turn in the ADC part with room for a sample. -/
theorem turned_dense (pumps : c.Pumps s.bulk) (before : s.bulk.sent < s.bulk.adcSamples)
    (enough : ¬seen.avail < 96) (some_room : 0 < s.denseCount seen.avail) (reads : seen.reads = true)
    (active : s.ended = none) (now : Word) :
    Turned c s seen (Sending.deliver { s with progress := now } seen
        (s.frame (s.denseBody c (s.denseCount seen.avail)) (s.denseCount seen.avail))
        (s.denseCount seen.avail)) := by
  obtain ⟨-, -, inside, -⟩ := denseCount_spec some_room
  have boundary := pumps.adcSamples
  have inside : s.bulk.sent + s.denseCount seen.avail ≤ c.adcSamples := boundary ▸ inside before
  have words := read16_adc inside some_room
  have upto : (s.denseBody c (s.denseCount seen.avail)).upto = none := by
    unfold denseBody
    dsimp only
    split <;> rfl
  -- only the first frame in decimal may be too long for the room
  have first (start : s.bulk.sent = 0) (plain : s.bulk.b64 = false) :
      s.denseBody c (s.denseCount seen.avail) = .data (c.adcWords.take (s.denseCount seen.avail)) := by
    rw [denseBody, words, start, List.drop_zero, plain]
    rfl
  by_cases fits : (s.frame (s.denseBody c (s.denseCount seen.avail)) (s.denseCount seen.avail)).text.length ≤
      seen.avail + seen.drained
  · rw [deliver_fits fits]
    refine .dense _ _ _ some_room inside upto ((denseBody_dense c s _).trans words) rfl rfl active active ?_
    by_cases later : s.bulk.sent ≠ 0
    · simp [roomy, later]
    · cases b64 : s.bulk.b64 with
      | true => simp [roomy, b64]
      | false =>
        rw [first (not_not.mp later) b64] at fits
        simp [roomy, fits]
  · have plain : s.bulk.b64 = false := by
      cases b64 : s.bulk.b64 with
      | false => rfl
      | true => exact absurd (Nat.le_trans (b64_fit pumps b64 some_room) (Nat.le_add_right _ _)) fits
    have start : s.bulk.sent = 0 := by
      by_contra later
      exact fits (Nat.le_trans (decimal_fit pumps plain later some_room) (Nat.le_add_right _ _))
    rw [deliver, if_pos (Nat.not_le.mp fits)]
    refine .unsent _ rfl rfl rfl ?_
    rw [first start plain] at fits
    have some_adc : c.adcSamples ≠ 0 := by omega
    simp [roomy, active, start, some_adc, plain, enough, Nat.ne_of_gt some_room, reads, fits]

/-- Every turn of the pump comes to one of the four. -/
theorem turn_turned (pumps : c.Pumps s.bulk) : Turned c s seen (s.turn c seen) := by
  have total := pumps.total
  have boundary := pumps.adcSamples
  unfold turn
  split
  · rename_i past
    exact .rests s rfl rfl (.inl rfl) (by simp [roomy, past])
  · rename_i running
    have active : s.ended = none := by simpa using running
    split
    · rename_i all
      have still : s.bulk.sent ≠ 0 ∨ c.adcSamples = 0 := by
        unfold Content.total at total
        omega
      refine .rests _ rfl rfl (.inr ⟨active, .inr (.inr ⟨rfl, all⟩)⟩) ?_
      rcases still with later | none_of_adc
      · simp [roomy, later]
      · simp [roomy, none_of_adc]
    · rename_i left
      split
      · rename_i full
        have roomy : s.roomy c seen = true := by simp [roomy, full]
        split
        · exact .rests _ rfl rfl (.inr ⟨active, .inl rfl⟩) roomy
        · exact .rests s rfl rfl (.inl rfl) roomy
      · rename_i enough
        dsimp only
        split
        · rename_i behind
          have roomy : s.roomy c seen = true := by
            have start : s.bulk.sent ≠ 0 ∨ c.adcSamples = 0 := by omega
            rcases start with later | none_of_adc
            · simp [Sending.roomy, later]
            · simp [Sending.roomy, none_of_adc]
          split
          · exact .rests _ rfl rfl (.inl rfl) roomy
          · split
            · exact .rests _ rfl rfl (.inr ⟨active, .inr (.inl rfl)⟩) roomy
            · exact turned_edges pumps behind (by omega) (by omega) roomy active seen.now
        · rename_i before
          split
          · rename_i none_fit
            change s.denseCount seen.avail = 0 at none_fit
            exact .rests _ rfl rfl (.inl rfl) (by simp [roomy, none_fit])
          · rename_i some_fit
            split
            · rename_i unread
              exact .rests _ rfl rfl (.inr ⟨active, .inr (.inl rfl)⟩) (by simp [roomy, unread])
            · rename_i read
              exact turned_dense pumps (by omega) enough (Nat.pos_of_ne_zero some_fit) (by simpa using read)
                active seen.now

end Sending

namespace Going

variable {c : Content} {start : Nat} {s t : Sending} {frames : List Frame} {body : Body} {count : Nat}

theorem rests (going : Going c start s frames) (bulk : t.bulk = s.bulk) (laLast : t.laLast = s.laLast)
    (whole : t.ended = some .complete → s.bulk.sent = c.total) : Going c start t frames where
  adc := bulk ▸ going.adc
  la := bulk ▸ going.la
  rising := going.rising
  more := bulk ▸ going.more
  metadata := going.metadata
  whole := bulk ▸ whole
  pumps := bulk ▸ going.pumps
  ahead := bulk ▸ going.ahead
  within := bulk ▸ going.within
  none_yet := bulk ▸ going.none_yet
  last := laLast.trans going.last
  below := bulk ▸ going.below

theorem more_sent (going : Going c start s frames) (left : s.bulk.sent < c.total)
    (inside : s.bulk.sent + count ≤ c.total) (i : Nat) (frame : Frame)
    (found : (frames ++ [s.frame body count])[i]? = some frame) :
    frame.more = false ↔ i + 1 = (frames ++ [s.frame body count]).length ∧ s.bulk.sent + count = c.total := by
  have total := going.pumps.total
  rw [List.length_append, List.length_singleton]
  by_cases earlier : i < frames.length
  · rw [List.getElem?_append_left earlier] at found
    rw [going.more i frame found]
    omega
  · rw [List.getElem?_append_right (Nat.not_lt.mp earlier)] at found
    have now : i - frames.length = 0 := by
      have bound := (List.getElem?_eq_some_iff.mp found).1
      simp at bound
      omega
    rw [now] at found
    cases found
    simp only [Sending.frame, Bool.not_eq_false', decide_eq_true_eq]
    omega

theorem metadata_sent (going : Going c start s frames) (i : Nat) (frame : Frame)
    (found : (frames ++ [s.frame body count])[i]? = some frame) :
    frame.header.isSome = true ↔ i = 0 ∧ start = 0 := by
  by_cases earlier : i < frames.length
  · rw [List.getElem?_append_left earlier] at found
    exact going.metadata i frame found
  · rw [List.getElem?_append_right (Nat.not_lt.mp earlier)] at found
    have now : i - frames.length = 0 := by
      have bound := (List.getElem?_eq_some_iff.mp found).1
      simp at bound
      omega
    rw [now] at found
    cases found
    have ahead := going.ahead
    have none_yet := going.none_yet
    rw [← List.length_eq_zero_iff] at none_yet
    simp only [Sending.frame, Sending.header]
    split <;> simp <;> omega

theorem pumps_sent (going : Going c start s frames) (bulk : t.bulk = { s.bulk with sent := s.bulk.sent + count }) :
    c.Pumps t.bulk := by
  obtain ⟨total, adcSamples, adcRate, laRate, unrated, named⟩ := going.pumps
  rw [bulk]
  exact ⟨total, adcSamples, adcRate, laRate, unrated, named⟩

/-- A dense frame is sent. -/
theorem dense (going : Going c start s frames) (some_words : 0 < count)
    (inside : s.bulk.sent + count ≤ c.adcSamples) (upto : body.upto = none)
    (words : body.dense = (c.adcWords.drop s.bulk.sent).take count) (laLast : t.laLast = s.laLast)
    (bulk : t.bulk = { s.bulk with sent := s.bulk.sent + count }) (ended : t.ended = none) :
    Going c start t (frames ++ [s.frame body count]) := by
  have ahead := going.ahead
  have total : c.adcSamples ≤ c.total := Nat.le_add_right _ _
  have sent : t.bulk.sent = s.bulk.sent + count := by rw [bulk]
  have la_none : s.bulk.sent - c.adcSamples = 0 := by omega
  have skipped : readLa (start - c.adcSamples) (frames ++ [s.frame body count]) =
      readLa (start - c.adcSamples) frames := by
    rw [readLa, List.foldl_append]
    cases body with
    | edges _ _ => cases upto
    | _ => rfl
  have uptos : (frames ++ [s.frame body count]).filterMap (·.body.upto) = frames.filterMap (·.body.upto) := by
    have none_more : [s.frame body count].filterMap (·.body.upto) = [] := List.filterMap_cons_none upto
    rw [List.filterMap_append, none_more, List.append_nil]
  refine ⟨⟨?_, ?_, ?_, ?_, ?_, ?_⟩, going.pumps_sent bulk, ?_, ?_, ?_, ?_, ?_⟩
  · rw [List.flatMap_append, going.adc, List.flatMap_singleton, sent]
    change _ ++ body.dense = _
    rw [words]
    exact take_drop_append _ count ahead (by simp; omega)
  · rw [skipped, going.la, la_none, sent, Nat.sub_eq_zero_of_le inside]
  · rw [uptos]
    exact going.rising
  · rw [sent]
    exact going.more_sent (by omega) (by omega)
  · exact going.metadata_sent
  · intro complete
    rw [ended] at complete
    cases complete
  · omega
  · omega
  · simp
    omega
  · rw [laLast, skipped]
    exact going.last
  · intro reach member
    rw [uptos] at member
    have below := going.below reach member
    omega

/-- A frame of edges is sent. -/
theorem edges (going : Going c start s frames) (behind : c.adcSamples ≤ s.bulk.sent) {run : EdgeRun}
    (some_words : 0 < run.covered) (inside : s.bulk.sent + run.covered ≤ c.total) (laLast : t.laLast = run.last)
    (changes : run.edges = Edges.changes s.laLast (s.bulk.sent - c.adcSamples)
      ((c.laWords.drop (s.bulk.sent - c.adcSamples)).take run.covered))
    (last : run.last = (((c.laWords.drop (s.bulk.sent - c.adcSamples)).take run.covered).getLast?).or s.laLast)
    (bulk : t.bulk = { s.bulk with sent := s.bulk.sent + run.covered }) (ended : t.ended = none) :
    Going c start t (frames ++ [s.frame (.edges run.edges (s.bulk.sent - c.adcSamples + run.covered)) run.covered]) := by
  have ahead := going.ahead
  have total : c.total = c.adcSamples + c.laSamples := rfl
  have sent : t.bulk.sent = s.bulk.sent + run.covered := by rw [bulk]
  have uptos : (frames ++ [s.frame (.edges run.edges (s.bulk.sent - c.adcSamples + run.covered))
      run.covered]).filterMap (·.body.upto) =
      frames.filterMap (·.body.upto) ++ [s.bulk.sent - c.adcSamples + run.covered] := by
    rw [List.filterMap_append]
    rfl
  have covered : ((c.laWords.drop (s.bulk.sent - c.adcSamples)).take run.covered).length = run.covered := by
    simp
    omega
  have length : (readLa (start - c.adcSamples) frames).length = s.bulk.sent - c.adcSamples - (start - c.adcSamples) := by
    rw [going.la]
    simp
    omega
  have index : s.bulk.sent - c.adcSamples = (start - c.adcSamples) + (readLa (start - c.adcSamples) frames).length := by
    omega
  have read : readLa (start - c.adcSamples)
      (frames ++ [s.frame (.edges run.edges (s.bulk.sent - c.adcSamples + run.covered)) run.covered]) =
      readLa (start - c.adcSamples) frames ++ (c.laWords.drop (s.bulk.sent - c.adcSamples)).take run.covered := by
    have reads := @Edges.read_changes _ (readLa (start - c.adcSamples) frames) s.laLast _
      ((c.laWords.drop (s.bulk.sent - c.adcSamples)).take run.covered) (.inr going.last)
    have upto : s.bulk.sent - c.adcSamples + run.covered - (start - c.adcSamples) =
        (readLa (start - c.adcSamples) frames).length + run.covered := by
      omega
    have shifted : run.edges.map (fun edge => (edge.1 - (start - c.adcSamples), edge.2)) =
        Edges.changes s.laLast (readLa (start - c.adcSamples) frames).length
          ((c.laWords.drop (s.bulk.sent - c.adcSamples)).take run.covered) := by
      rw [changes, ← Edges.changes_shift (start - c.adcSamples) (readLa (start - c.adcSamples) frames).length, ← index]
    rw [covered] at reads
    rw [← reads, readLa, List.foldl_append, List.foldl_cons, List.foldl_nil]
    dsimp only [readLaFrame, Sending.frame]
    rw [shifted, upto]
    rfl
  refine ⟨⟨?_, ?_, ?_, ?_, ?_, ?_⟩, going.pumps_sent bulk, ?_, ?_, ?_, ?_, ?_⟩
  · have all (count : Nat) (enough : c.adcSamples ≤ count) : c.adcWords.take count = c.adcWords :=
      List.take_of_length_le (by simpa using enough)
    rw [List.flatMap_append, going.adc, List.flatMap_singleton, sent, all _ behind, all _ (by omega)]
    exact List.append_nil _
  · rw [read, going.la, sent]
    rw [take_drop_append _ _ (by omega) (by simp; omega)]
    congr 2
    omega
  · rw [uptos, List.pairwise_append]
    refine ⟨going.rising, List.pairwise_singleton _ _, ?_⟩
    intro earlier member later now
    rw [List.mem_singleton] at now
    have below := going.below earlier member
    omega
  · rw [sent]
    exact going.more_sent (by omega) inside
  · exact going.metadata_sent
  · intro complete
    rw [ended] at complete
    cases complete
  · omega
  · omega
  · simp
    omega
  · rw [read, laLast, last, going.last, List.getLast?_append]
  · intro reach member
    rw [uptos, List.mem_append, List.mem_singleton] at member
    rcases member with earlier | now
    · have below := going.below reach earlier
      omega
    · omega

theorem turn (going : Going c start s frames) (seen : Seen) :
    Going c start (s.turn c seen).1 (frames ++ (s.turn c seen).2.toList) ∧
      ((s.turn c seen).1.ended = some .unsent ↔ s.ended = some .unsent ∨ s.roomy c seen = false) := by
  have turned := @Sending.turn_turned c s seen going.pumps
  have total := going.pumps.total
  have within := going.within
  generalize s.turn c seen = after at turned
  cases turned with
  | rests t bulk laLast ended roomy =>
    rw [Option.toList_none, List.append_nil]
    refine ⟨going.rests bulk laLast ?_, ?_⟩
    · intro complete
      rcases ended with same | ⟨-, stalled | unreadable | ⟨-, all⟩⟩
      · exact going.whole (same ▸ complete)
      · cases stalled.symm.trans complete
      · cases unreadable.symm.trans complete
      · omega
    · rcases ended with same | ⟨active, stalled | unreadable | ⟨complete, -⟩⟩
      · simp [same, roomy]
      · simp [active, stalled, roomy]
      · simp [active, unreadable, roomy]
      · simp [active, complete, roomy]
  | edges t behind run some_words inside laLast changes last bulk active ended roomy =>
    refine ⟨going.edges behind some_words inside laLast changes last bulk ended, ?_⟩
    simp [active, ended, roomy]
  | dense t body count some_words inside upto words laLast bulk active ended roomy =>
    refine ⟨going.dense some_words inside upto words laLast bulk ended, ?_⟩
    simp [active, ended, roomy]
  | unsent t bulk laLast ended tight =>
    rw [Option.toList_none, List.append_nil]
    refine ⟨going.rests bulk laLast ?_, by simp [ended, tight]⟩
    intro complete
    rw [ended] at complete
    cases complete

end Going

namespace Request

variable {c : Content} (conn : ConnId) (adcHz laHz began : Word) (b64 : Bool)

theorem going_start (request : Request c) : Going c request.offset (request.start conn adcHz laHz b64 began) [] := by
  have rate (count : Nat) (hz : Word) : (if count = 0 then 0 else hz.toNat) < 2 ^ 32 := by
    split
    · decide
    · exact hz.isLt
  have unrated (count : Nat) (hz : Word) (zero : count = 0) : (if count = 0 then 0 else hz.toNat) = 0 := if_pos zero
  cases request with
  | capture trig named =>
    refine ⟨⟨by simp [start, bulk, bulkBeginCapture16], ?_, List.Pairwise.nil, by simp, by simp, ?_⟩,
      ⟨rfl, rfl, rate _ _, rate _ _, unrated _ _, named⟩, Nat.le_refl _, Nat.zero_le _, ?_, rfl, by simp⟩
    · simp [start, bulk, bulkBeginCapture16, readLa]
    · intro complete
      cases complete
    · simp [start, bulk, bulkBeginCapture16, offset]
  | resume offset inside =>
    refine ⟨⟨?_, ?_, List.Pairwise.nil, by simp, by simp, ?_⟩,
      ⟨rfl, rfl, rate _ _, rate _ _, unrated _ _, Nat.zero_lt_succ _⟩, Nat.le_refl _, Nat.le_of_lt inside, ?_, rfl, by simp⟩
    · simp [start, bulk, bulkBeginCapture16Resume, Request.offset]
    · simp [start, bulk, bulkBeginCapture16Resume, Request.offset, readLa]
    · intro complete
      cases complete
    · simp [start, bulk, bulkBeginCapture16Resume, Request.offset]

end Request

section Runs

variable {c : Content} {start : Nat} {s : Sending} {frames : List Frame}

theorem Going.run (going : Going c start s frames) (seen : List Seen) :
    Going c start ((readback c).run s seen) (frames ++ (readback c).emitted s seen) ∧
      (((readback c).run s seen).ended ≠ some .unsent ↔
        s.ended ≠ some .unsent ∧ (readback c).Along (fun s seen => s.roomy c seen = true) s seen) := by
  induction seen generalizing s frames with
  | nil =>
    refine ⟨?_, (and_iff_left trivial).symm⟩
    rw [Emitter.emitted, List.append_nil]
    exact going
  | cons now seen ih =>
    obtain ⟨going_on, ended⟩ := going.turn now
    obtain ⟨going_then, ended_then⟩ := ih going_on
    refine ⟨?_, ?_⟩
    · rw [Emitter.emitted, ← List.append_assoc]
      exact going_then
    · have kept : (s.turn c now).1.ended ≠ some .unsent ↔ s.ended ≠ some .unsent ∧ s.roomy c now = true := by
        rw [Ne, ended, not_or, Bool.not_eq_false]
      exact ended_then.trans ((and_congr_left fun _ => kept).trans and_assoc)

/-- Neither stalled nor unreadable. -/
def Sending.alive (s : Sending) : Prop := s.ended ≠ some .stalled ∧ s.ended ≠ some .unreadable

theorem Sending.turn_alive (alive : s.alive) {seen : Seen} (patient : s.patient seen = true) :
    (s.turn c seen).1.alive := by
  have delivered (t : Sending) (same : t.ended = s.ended) (frame : Frame) (count : Nat) :
      (t.deliver seen frame count).1.alive := by
    unfold Sending.deliver Sending.alive
    split
    · simp
    · rw [same]
      exact alive
  simp only [Sending.patient, Bool.and_eq_true, Bool.not_eq_true', Bool.and_eq_false_iff,
    decide_eq_false_iff_not] at patient
  obtain ⟨reads, moving⟩ := patient
  unfold Sending.turn
  split
  · exact alive
  · split
    · simp [Sending.alive]
    · split
      · rename_i full
        rw [if_neg (moving.resolve_left (not_not.mpr full))]
        exact alive
      · dsimp only
        split
        · split
          · exact alive
          · rw [if_neg (by simp [reads])]
            refine delivered _ ?_ _ _
            rfl
        · split
          · exact alive
          · rw [if_neg (by simp [reads])]
            refine delivered _ ?_ _ _
            rfl

theorem Sending.turn_delivers (active : s.ended = none) (left : s.bulk.sent < s.bulk.total) {seen : Seen}
    (room : 216 < seen.avail) (reads : seen.reads = true) :
    ∃ t frame count, s.turn c seen = Sending.deliver t seen frame count := by
  have some_fit : s.denseCount seen.avail ≠ 0 := by
    have header : bulkB64HeaderMax = 96 := rfl
    have chunk : chunkSamples = 256 := rfl
    have reserve : bulkFooterReserve s.bulk ≤ 112 := by
      unfold bulkFooterReserve
      split <;> decide
    have cut (n : Nat) (some_room : 0 < n) :
        (if s.bulk.sent < s.bulk.adcSamples ∧ s.bulk.adcSamples < s.bulk.sent + n then
          s.bulk.adcSamples - s.bulk.sent else n) ≠ 0 := by
      split <;> omega
    unfold Sending.denseCount
    dsimp only
    rw [if_neg (by omega : ¬seen.avail ≤ bulkFooterReserve s.bulk + bulkB64HeaderMax + 8),
      if_neg (by omega : ¬seen.avail ≤ bulkFooterReserve s.bulk + 7)]
    refine cut _ ?_
    split <;> omega
  unfold Sending.turn
  rw [if_neg (by simp [active]), if_neg (Nat.not_le.mpr left), if_neg (by omega : ¬seen.avail < 96)]
  dsimp only
  split
  · rw [if_neg (by omega : ¬seen.avail < 200), if_neg (by simp [reads])]
    exact ⟨_, _, _, rfl⟩
  · change ∃ t frame count, (if s.denseCount seen.avail = 0 then _ else _) = _
    rw [if_neg some_fit, if_neg (by simp [reads])]
    exact ⟨_, _, _, rfl⟩

/-- With room to spare a turn that is not held up takes the read-back further. -/
theorem Going.turn_advances (going : Going c start s frames) {seen : Seen} (ended : s.ended ≠ some .unsent)
    (alive : s.alive) (roomy : s.roomy c seen = true) (patient : s.patient seen = true) :
    s.bulk.sent ≤ (s.turn c seen).1.bulk.sent ∧
      (216 < seen.avail → s.bulk.sent < c.total → s.bulk.sent < (s.turn c seen).1.bulk.sent) := by
  have turned := @Sending.turn_turned c s seen going.pumps
  have sends (room : 216 < seen.avail) (left : s.bulk.sent < c.total) :
      (s.turn c seen).2 ≠ none ∨ (s.turn c seen).1.ended = some .unsent := by
    have total := going.pumps.total
    have active : s.ended = none := by
      cases past : s.ended with
      | none => rfl
      | some ending =>
        cases ending with
        | complete => exact absurd (going.whole past) (Nat.ne_of_lt left)
        | stalled => exact absurd past alive.1
        | unreadable => exact absurd past alive.2
        | unsent => exact absurd past ended
    obtain ⟨t, frame, count, delivers⟩ :=
      @Sending.turn_delivers c s active (by omega) seen room (Bool.and_eq_true _ _ ▸ patient).1
    rw [delivers, Sending.deliver]
    split
    · exact .inr rfl
    · exact .inl (by simp)
  generalize s.turn c seen = after at turned sends
  cases turned with
  | rests t bulk laLast past roomy =>
    refine ⟨Nat.le_of_eq (by rw [bulk]), ?_⟩
    intro room left
    rcases sends room left with sent | unsent
    · exact absurd rfl sent
    · change t.ended = some .unsent at unsent
      rcases past with same | ⟨-, stalled | unreadable | ⟨complete, -⟩⟩
      · exact absurd (same.symm.trans unsent) ended
      · cases stalled.symm.trans unsent
      · cases unreadable.symm.trans unsent
      · cases complete.symm.trans unsent
  | edges t behind run some_words inside laLast changes last bulk active ended roomy =>
    have sent : t.bulk.sent = s.bulk.sent + run.covered := by rw [bulk]
    dsimp only
    exact ⟨by omega, fun _ _ => by omega⟩
  | dense t body count some_words inside upto words laLast bulk active ended roomy =>
    have sent : t.bulk.sent = s.bulk.sent + count := by rw [bulk]
    dsimp only
    exact ⟨by omega, fun _ _ => by omega⟩
  | unsent t bulk laLast past tight => exact absurd (roomy.symm.trans tight) (by decide)

theorem Going.run_advances (going : Going c start s frames) (ended : s.ended ≠ some .unsent) (alive : s.alive)
    {seen : List Seen} (along : (readback c).Along (fun s seen => s.roomy c seen = true) s seen)
    (patient : (readback c).Along (fun s seen => s.patient seen = true) s seen) :
    min c.total (s.bulk.sent + seen.countP fun seen => 216 < seen.avail) ≤ ((readback c).run s seen).bulk.sent := by
  induction seen generalizing s frames with
  | nil => exact Nat.min_le_right _ _
  | cons now seen ih =>
    obtain ⟨kept, further⟩ := going.turn_advances ended alive along.1 patient.1
    have going_on := (going.turn now).1
    have still : (s.turn c now).1.ended ≠ some .unsent := by
      rw [Ne, (going.turn now).2, not_or, Bool.not_eq_false]
      exact ⟨ended, along.1⟩
    have rest := ih going_on still (Sending.turn_alive alive patient.1) along.2 patient.2
    refine Nat.le_trans ?_ rest
    have within := going.within
    rw [List.countP_cons]
    by_cases room : 216 < now.avail
    · have further := further room
      simp only [room, decide_true, if_true]
      omega
    · simp only [room, decide_false, Bool.false_eq_true, if_false]
      omega

theorem pump_run (fuel : Nat) (seen : Nat → Seen) :
    ∃ turns, Sending.pump c fuel s seen =
      ((readback c).run s ((List.range turns).map seen), (readback c).emitted s ((List.range turns).map seen)) := by
  induction fuel generalizing s seen with
  | zero => exact ⟨0, rfl⟩
  | succ fuel ih =>
    have unfolded (turns : Nat) : (List.range (turns + 1)).map seen =
        seen 0 :: (List.range turns).map fun i => seen (i + 1) := by
      rw [List.range_succ_eq_map, List.map_cons, List.map_map]
      rfl
    unfold Sending.pump
    dsimp only
    cases sends : (s.turn c (seen 0)).2 with
    | none =>
      refine ⟨1, ?_⟩
      rw [unfolded, Emitter.emitted]
      change _ = (_, (s.turn c (seen 0)).2.toList ++ [])
      rw [sends]
      rfl
    | some frame =>
      obtain ⟨turns, rest⟩ := @ih (s.turn c (seen 0)).1 fun i => seen (i + 1)
      refine ⟨turns + 1, ?_⟩
      dsimp only
      rw [rest, unfolded, Emitter.emitted]
      change _ = (_, (s.turn c (seen 0)).2.toList ++ _)
      rw [sends]
      rfl

theorem Going.pump_settled (going : Going c start s frames) {fuel : Nat} (enough : s.bulk.total - s.bulk.sent < fuel)
    (seen : Nat → Seen) : Sending.pump c fuel s seen = s.bulkPump c seen := by
  have settled : ∀ (fuel more : Nat) (s : Sending) (frames : List Frame) (seen : Nat → Seen),
      Going c start s frames → s.bulk.total - s.bulk.sent < fuel →
      Sending.pump c (fuel + more) s seen = Sending.pump c fuel s seen := by
    intro fuel more
    induction fuel with
    | zero => intro s frames seen _ impossible; cases impossible
    | succ fuel ih =>
      intro s frames seen going enough
      have turned := @Sending.turn_turned c s (seen 0) going.pumps
      have going_on := (going.turn (seen 0)).1
      have total := going_on.pumps.total
      have total_was := going.pumps.total
      rw [Nat.succ_add_eq_add_succ, Nat.add_succ]
      unfold Sending.pump
      dsimp only
      generalize s.turn c (seen 0) = after at turned going_on total
      cases turned with
      | rests t bulk laLast past roomy => rfl
      | unsent t bulk laLast past tight => rfl
      | edges t behind run some_words inside laLast changes last bulk active ended roomy =>
        have sent : t.bulk.sent = s.bulk.sent + run.covered := by rw [bulk]
        dsimp only at total ⊢
        rw [ih t _ _ going_on (by omega)]
      | dense t body count some_words inside upto words laLast bulk active ended roomy =>
        have sent : t.bulk.sent = s.bulk.sent + count := by rw [bulk]
        have part : c.adcSamples ≤ c.total := Nat.le_add_right _ _
        dsimp only at total ⊢
        rw [ih t _ _ going_on (by omega)]
  obtain ⟨more, rfl⟩ := Nat.exists_eq_add_of_le (Nat.succ_le_of_lt enough)
  exact settled _ more s frames seen going (Nat.lt_succ_self _)

end Runs

/-- Under any pacing the frames of a read-back hold the samples from its start on, and the connection is kept,
exactly if no first frame in decimal is too long for the room with its metadata; and then enough turns
with room send everything. -/
theorem readback_lossless (c : Content) (request : Request c) (conn : ConnId) (adcHz laHz began : Word)
    (b64 : Bool) (seen : List Seen) :
    ((((readback c).run (request.start conn adcHz laHz b64 began) seen).ended ≠ some .unsent ∧
        Lossless c request.offset ((readback c).run (request.start conn adcHz laHz b64 began) seen)
          ((readback c).emitted (request.start conn adcHz laHz b64 began) seen)) ↔
      (readback c).Along (fun s seen => s.roomy c seen = true) (request.start conn adcHz laHz b64 began) seen) ∧
    ((readback c).Along (fun s seen => s.roomy c seen = true) (request.start conn adcHz laHz b64 began) seen →
      (readback c).Along (fun s seen => s.patient seen = true) (request.start conn adcHz laHz b64 began) seen →
      c.total - request.offset ≤ (seen.countP fun seen => 216 < seen.avail) →
      ((readback c).run (request.start conn adcHz laHz b64 began) seen).bulk.sent = c.total) := by
  have going := request.going_start conn adcHz laHz began b64
  have fresh : (request.start conn adcHz laHz b64 began).ended = none := rfl
  obtain ⟨after, ended⟩ := going.run seen
  constructor
  · rw [ended, fresh]
    constructor
    · rintro ⟨⟨-, along⟩, -⟩
      exact along
    · intro along
      exact ⟨⟨by simp, along⟩, after.toLossless⟩
  · intro along patient enough
    have advances := going.run_advances (by simp [fresh]) (by simp [Sending.alive, fresh]) along patient
    have ahead := going.ahead
    have within := after.within
    omega

/-- A capture of both with its rates, in decimal. -/
def bothCaptured : Content where
  adc _ := 4095
  la i := if i < 3 then 1 else 2
  adcSamples := 300
  laSamples := 5
  countable := by decide

theorem readback_lossless_both :
    ((readback bothCaptured).run (Request.start 0 400000 12000000 false 0 (.resume 298 (by decide) : Request bothCaptured))
      (List.replicate 7 ⟨300, 0, 0, true⟩)).bulk.sent = bothCaptured.total := by
  refine (readback_lossless bothCaptured (.resume 298 (by decide)) 0 400000 12000000 0 false _).2 ?_ ?_ ?_
  · decide +kernel
  · decide +kernel
  · decide +kernel

/-- The first turn finds a ring that other replies have filled almost up. -/
theorem readback_dropped :
    ¬∀ (c : Content) (request : Request c) (conn : ConnId) (adcHz laHz began : Word) (b64 : Bool)
        (seen : List Seen),
      ((readback c).run (request.start conn adcHz laHz b64 began) seen).ended ≠ some .unsent ∧
        Lossless c request.offset ((readback c).run (request.start conn adcHz laHz b64 began) seen)
          ((readback c).emitted (request.start conn adcHz laHz b64 began) seen) := by
  intro lossless
  have kept := (lossless bothCaptured (.capture {} (by decide)) 0 400000 12000000 0 false [⟨96, 0, 0, true⟩]).1
  exact kept (by decide +kernel)

/-- One call of the pump, and the frames so far with those it sends. -/
def pumpCall (c : Content) (r : Sending × List Frame) (seen : Nat → Seen) : Sending × List Frame :=
  ((r.1.bulkPump c seen).1, r.2 ++ (r.1.bulkPump c seen).2)

theorem Going.pumpCalls {c : Content} {start : Nat} {r : Sending × List Frame} (going : Going c start r.1 r.2)
    (calls : List (Nat → Seen)) :
    Going c start (calls.foldl (pumpCall c) r).1 (calls.foldl (pumpCall c) r).2 := by
  induction calls generalizing r with
  | nil => exact going
  | cons seen calls ih =>
    apply ih
    obtain ⟨turns, pumped⟩ := @pump_run c r.1 (r.1.bulk.total - r.1.bulk.sent + 1) seen
    rw [pumpCall, Sending.bulkPump, pumped]
    exact (going.run _).1

/-- However often the pump is called, and whatever the ring shows in the turns of each call, every call ends by
itself, and the frames so far hold the samples from the start of the read-back on. -/
theorem pump_calls_lossless (c : Content) (request : Request c) (conn : ConnId) (adcHz laHz began : Word) (b64 : Bool)
    (calls : List (Nat → Seen)) :
    let final := calls.foldl (pumpCall c) (request.start conn adcHz laHz b64 began, [])
    Lossless c request.offset final.1 final.2 ∧ ∀ (seen : Nat → Seen) (fuel : Nat),
      final.1.bulk.total - final.1.bulk.sent < fuel → Sending.pump c fuel final.1 seen = final.1.bulkPump c seen := by
  intro final
  have going := @Going.pumpCalls c request.offset (request.start conn adcHz laHz b64 began, [])
    (request.going_start conn adcHz laHz began b64) calls
  exact ⟨going.toLossless, fun seen fuel enough => going.pump_settled enough seen⟩

end BenchPod.Capture
