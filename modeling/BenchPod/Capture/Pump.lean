import BenchPod.Capture.Frames

/-!
# Every shape of a read-back

`bulk_pump` for all it can be asked to send: samples of 8 or 16 bits out of the pool or the PSRAM, in decimal or in
base64, the words of the logic analyzer as their changes, and the events of a change capture.
-/

namespace BenchPod.Capture

open Json Command

/-- What the samples are read from: the PSRAM and the pool, each as words and as bytes, and the region with the
events of a change capture. -/
structure Stock where
  psram16 : Nat → Half := fun _ => 0
  psram8 : Nat → Byte := fun _ => 0
  pool16 : Nat → Half := fun _ => 0
  pool8 : Nat → Byte := fun _ => 0
  events : Mem := fun _ => 0

/-- The fields of `bulk` that the decoding of events moves; `held` is what is left of `psram_chunk`. -/
structure ChgRead where
  hdr : Bool := false
  first : Bool := true
  done : Bool := false
  off : Nat := 0
  held : List Byte := []
  t : Nat := 0
  pendI : Option Nat := none
  pendW : Half := 0

/-- `bulk`, and how its read-back ended. -/
structure Pumping where
  bulk : Bulk
  laLast : Option Half := none
  chg : ChgRead := {}
  progress : Word := 0
  ended : Option Ending := none

/-- What one turn of the loop finds: the samples, which reads of events succeed, and whether the connection lives. -/
structure Found extends Seen where
  stock : Stock := {}
  chgReads : Nat → Bool := fun _ => true
  alive : Bool := true

/-- A 32-bit difference. -/
def sub32 (a b : Nat) : Nat := (a + 2 ^ 32 - b) % 2 ^ 32

namespace Pumping

variable (s : Pumping) (seen : Found)

/-- The outcome of the trigger. -/
def trigger : Option (LaTrigger × Bool) :=
  if s.bulk.trigPresent then some (s.bulk.trig, s.bulk.trigFired) else none

/-- How a frame of samples starts. -/
def openSamples : List Byte :=
  if s.bulk.sent = 0 then
    cstr "\x7b\"status\":\"ok\"," ++ (if s.bulk.is16 then cstr "\"bits\":16," else []) ++
      rateText (cstr "\"adc_rate_hz\":") s.bulk.adcRateHz ++ rateText (cstr "\"la_rate_hz\":") s.bulk.laRateHz
  else openText none

/-- The compact encoding is for 16-bit samples only. -/
def dense64 : Bool := s.bulk.b64 && s.bulk.is16

/-- The samples that fit, 0 where the pump returns. -/
def denseRoom (avail : Nat) : Nat :=
  let reserve := bulkFooterReserve s.bulk
  if s.dense64 then
    if avail ≤ reserve + bulkB64HeaderMax + 8 then 0 else (avail - reserve - bulkB64HeaderMax) * 3 / 8
  else if avail ≤ reserve + 7 then 0
  else (avail - reserve) / 7

/-- `this_chunk`. -/
def denseCount (avail : Nat) : Nat :=
  let count := min (min (s.bulk.total - s.bulk.sent) chunkSamples) (s.denseRoom avail)
  if s.bulk.fromPsram ∧ s.bulk.is16 ∧ s.bulk.sent < s.bulk.adcSamples ∧ s.bulk.adcSamples < s.bulk.sent + count then
    s.bulk.adcSamples - s.bulk.sent
  else count

/-- The samples of a chunk. -/
def denseWords (stock : Stock) (count : Nat) : List Half :=
  (List.range count).map fun i =>
    if s.bulk.fromPsram then
      if s.bulk.is16 then stock.psram16 (s.bulk.sent + i) else (stock.psram8 (s.bulk.sent + i)).setWidth 16
    else if s.bulk.is16 then stock.pool16 (s.bulk.sent + i)
    else (stock.pool8 (s.bulk.sent + i)).setWidth 16

/-- A chunk as text. -/
def denseBody (stock : Stock) (count : Nat) : Body :=
  let words := s.denseWords stock count
  if s.dense64 then .b64 (B64url.encode (words.flatMap Endian.le16)) else .data words

/-- `at_send_data`: all of it or nothing, and then the connection is dropped. -/
def deliver (after : Pumping) (text : List Byte) : Pumping × Option (List Byte) :=
  (if seen.alive ∧ text.length ≤ seen.avail + seen.drained then after else { after with ended := some .unsent },
    some text)

/-- A turn that sends samples. -/
def denseTurn : Pumping × Option (List Byte) :=
  let count := s.denseCount seen.avail
  if count = 0 then (s, none)
  else if s.bulk.fromPsram ∧ seen.reads = false then ({ s with ended := some .unreadable }, none)
  else
    let last : Bool := s.bulk.total ≤ s.bulk.sent + count
    deliver seen { s with bulk := { s.bulk with sent := s.bulk.sent + count } }
      (s.openSamples ++ (s.denseBody seen.stock count).text ++ closeText (if last then s.trigger else none) !last)

/-- What a frame of edges may take up before its footer. -/
def edgeLimit : Nat := min chunkBufSize seen.avail - (56 + if s.bulk.trigPresent then 48 else 0)

/-- How a frame of logic-analyzer words starts. -/
def laOpen : List Byte :=
  (if s.bulk.sent = 0 then openText (some (s.bulk.adcRateHz, s.bulk.laRateHz)) else openText none) ++ edgesOpen

/-- The changes of the next logic-analyzer words. -/
def laRun : EdgeRun :=
  let words := (List.range (min (s.bulk.total - s.bulk.sent) chunkSamples)).map fun i =>
    seen.stock.psram16 (s.bulk.sent + i)
  laEdges (s.edgeLimit seen) words (s.bulk.sent - s.bulk.adcSamples) s.laOpen.length s.laLast true

/-- A turn that sends the changes of logic-analyzer words. -/
def laTurn : Pumping × Option (List Byte) :=
  if seen.avail < 200 then (s, none)
  else if seen.reads = false then ({ s with ended := some .unreadable }, none)
  else
    let run := s.laRun seen
    let last : Bool := s.bulk.total ≤ s.bulk.sent + run.covered
    let upto := (s.bulk.sent - s.bulk.adcSamples + run.covered) % 2 ^ 32
    deliver seen { s with laLast := run.last, bulk := { s.bulk with sent := s.bulk.sent + run.covered } }
      (s.laOpen ++ edgesText true run.edges ++ cstr "],\"la_upto\":" ++ decimal upto ++
        closeText (if last then s.trigger else none) !last)

/-- How a frame of a change capture starts. -/
def chgOpen : List Byte :=
  (if s.chg.hdr then openText none
    else
      cstr "\x7b\"status\":\"ok\",\"bits\":16," ++ rateText (cstr "\"la_rate_hz\":") s.bulk.laRateHz ++
        rateText (cstr "\"pre_samples\":") s.bulk.chgPre ++
        (if s.bulk.chgTrunc = 0 then []
          else cstr "\"truncated\":\"" ++ (if s.bulk.chgTrunc = 1 then cstr "busy" else cstr "memory") ++ cstr "\",")) ++
    edgesOpen

end Pumping

/-- A frame of a change capture while its events are decoded. -/
structure ChgFrame where
  s : Pumping
  text : List Byte
  first : Bool := true
  reads : Nat := 0

namespace ChgFrame

variable (f : ChgFrame)

/-- `CHG_EMIT`. -/
def emit (i : Nat) (w : Half) : ChgFrame :=
  { f with text := f.text ++ edgeText f.first (i, w), first := false, s := { f.s with laLast := some w } }

/-- The edge that waits, unless it shows what was sent last. -/
def flush (i : Nat) : ChgFrame :=
  if f.s.laLast = some f.s.chg.pendW then f else f.emit i f.s.chg.pendW

/-- The frame with another place in the events. -/
def move (chg : ChgRead) : ChgFrame := { f with s := { f.s with chg } }

/-- What a step of the decoding comes to. -/
inductive Decoded
  | more (f : ChgFrame)
  | stop (f : ChgFrame)
  | unreadable

/-- An event shows from the first sample at or after it. -/
def sampleOf (b : Bulk) (t : Nat) : Nat :=
  if t ≤ b.chgBase then 0 else (t - b.chgBase + b.chgK - 1) / b.chgK

/-- An event at its time: the edge before it is final once the sample moves on. -/
def place (t : Nat) (w : Half) : Decoded :=
  let b := f.s.bulk
  let chg := { f.s.chg with t }
  let idx := sampleOf b t
  if sub32 b.total b.adcSamples ≤ idx then .stop (f.move { chg with done := true })
  else
    -- `chg_pend_i` is a 32-bit `long`: from 2^31 on it reads as none
    let pend : ChgRead := { chg with pendI := if idx < 2 ^ 31 then some idx else none, pendW := w }
    match f.s.chg.pendI with
    | none => .more (f.move pend)
    | some i =>
      if i = idx then .more (f.move pend)
      else
        let f := f.flush i
        .more { f with s := { f.s with chg := pend, bulk := { b with sent := (b.adcSamples + idx) % 2 ^ 32 } } }

/-- The next event out of `psram_chunk`. -/
def event : Decoded :=
  let e := Endian.leNat (f.s.chg.held.take 3)
  let chg := { f.s.chg with held := f.s.chg.held.drop 3, off := f.s.chg.off + 3 }
  let w := BitVec.ofNat 16 (eventState e)
  if chg.first then (f.move { chg with first := false }).place chg.t w
  else if eventDelta e = 0 then .stop (f.move { chg with done := true })
  else (f.move chg).place (chg.t + eventDelta e) w

/-- Bytes that the next read of events takes. -/
def readSize : Nat := min (f.s.bulk.chgEnd - f.s.chg.off) 255 / 3 * 3

/-- One turn of the loop over the events: `psram_chunk` is filled when it is used up, at most eight times. -/
def step (seen : Found) : Decoded :=
  if f.s.chg.held ≠ [] then f.event
  else if 8 ≤ f.reads then .stop f
  else if f.s.bulk.chgEnd - f.s.chg.off < 3 then .stop (f.move { f.s.chg with done := true })
  else if seen.chgReads f.reads = false then .unreadable
  else
    { f.move { f.s.chg with held := seen.stock.events.read f.s.chg.off f.readSize } with reads := f.reads + 1 }.event

/-- What is left to decode in a frame. -/
def work : Nat := (8 - f.reads) * 256 + f.s.chg.held.length

variable {f} {seen : Found} {g : ChgFrame} {t : Nat} {w : Half}

theorem flush_kept (i : Nat) : (f.flush i).reads = f.reads ∧ (f.flush i).s.chg = f.s.chg := by
  rw [flush]
  split <;> exact ⟨rfl, rfl⟩

theorem place_work (placed : f.place t w = .more g) : g.work = f.work := by
  rw [place] at placed
  simp only at placed
  split at placed
  · exact nomatch placed
  split at placed
  · cases placed
    rfl
  · next i pend =>
      split at placed
      · cases placed
        rfl
      · cases placed
        rw [work, work, (flush_kept i).1]

theorem event_work (some_held : f.s.chg.held ≠ []) (decoded : f.event = .more g) : g.work < f.work := by
  have positive : 0 < f.s.chg.held.length := List.length_pos_iff.mpr some_held
  rw [event] at decoded
  simp only at decoded
  split at decoded
  · rw [place_work decoded, work, work]
    simp only [move, List.length_drop]
    omega
  split at decoded
  · exact nomatch decoded
  · rw [place_work decoded, work, work]
    simp only [move, List.length_drop]
    omega

theorem step_work (stepped : f.step seen = .more g) : g.work < f.work := by
  rw [step] at stepped
  split at stepped
  · next some_held => exact event_work some_held stepped
  split at stepped
  · exact nomatch stepped
  split at stepped
  · exact nomatch stepped
  split at stepped
  · exact nomatch stepped
  next few left _ =>
    have size : f.readSize ≤ 255 ∧ 0 < f.readSize := by
      rw [readSize]
      omega
    refine Nat.lt_of_lt_of_le (event_work ?_ stepped) ?_
    · rw [← List.length_pos_iff]
      simpa [move, Mem.read] using size.2
    · simp only [work, move, Mem.read, List.length_map, List.length_range]
      omega

/-- The loop over the events, as far as the frame has room. -/
def loop (seen : Found) (limit : Nat) (f : ChgFrame) : Decoded :=
  if f.s.chg.done = true ∨ limit < f.text.length + 24 then .stop f
  else
    match _stepped : f.step seen with
    | .more g => g.loop seen limit
    | .stop g => .stop g
    | .unreadable => .unreadable
termination_by f.work
decreasing_by exact step_work _stepped

/-- Behind the last event the edge that waits goes out and the read-back is complete. -/
def finish (f : ChgFrame) : ChgFrame :=
  let f :=
    match f.s.chg.pendI with
    | some i => f.flush i
    | none => f
  { f with
    s := { f.s with
      chg := { f.s.chg with pendI := none }
      bulk := { f.s.bulk with sent := f.s.bulk.total } } }

end ChgFrame

namespace Pumping

variable (s : Pumping) (seen : Found)

def bulkPumpChanges : Pumping × Option (List Byte) :=
  match ChgFrame.loop seen (s.edgeLimit seen - 24) { s, text := s.chgOpen } with
  | .unreadable => ({ s with ended := some .unreadable }, none)
  | .more f | .stop f =>
    let last := f.s.chg.done
    let f := if last then f.finish else f
    deliver seen { f.s with chg := { f.s.chg with hdr := true } }
      (f.text ++ cstr "],\"la_upto\":" ++ decimal (sub32 f.s.bulk.sent f.s.bulk.adcSamples) ++
        closeText (if last then s.trigger else none) !last)

/-- One turn of the loop of `bulk_pump`, and what it passes to `at_send_data`: the pump returns when that is nothing. -/
def turn : Pumping × Option (List Byte) :=
  if s.ended.isSome then (s, none)
  else if s.bulk.total ≤ s.bulk.sent then ({ s with ended := some .complete }, none)
  else if seen.avail < 96 then
    if bulkStallMs < (seen.now - s.progress).toNat then ({ s with ended := some .stalled }, none) else (s, none)
  else
    let s := { s with progress := seen.now }
    if s.bulk.chg ∧ s.bulk.adcSamples ≤ s.bulk.sent then
      if seen.avail < 200 then (s, none) else s.bulkPumpChanges seen
    else if s.bulk.is16 ∧ s.bulk.fromPsram ∧ s.bulk.adcSamples ≤ s.bulk.sent then s.laTurn seen
    else s.denseTurn seen

end Pumping
end BenchPod.Capture
