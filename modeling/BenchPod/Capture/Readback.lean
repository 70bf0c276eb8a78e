import BenchPod.Capture.Poll
import BenchPod.Library.B64url
import BenchPod.Library.Edges
import BenchPod.Library.Emitter

/-!
# The paced read-back of a capture

`bulk_pump` sends a capture out of the PSRAM frame by frame, each as long as the send ring has room for:
the ADC samples dense, in decimal or in base64, then the logic-analyzer words as their changes.
-/

namespace BenchPod.Capture

open Json Command

def chunkSamples : Nat := 256

/-- The size of `chunk_buf`. -/
def chunkBufSize : Nat := chunkSamples * 7 + 48

def bulkB64HeaderMax : Nat := 96

def bulkStallMs : Nat := 30000

/-- What a capture left in the PSRAM: the words of the ADC region and of the logic-analyzer region, and
how many of them are samples. -/
structure Content where
  adc : Nat → Half
  la : Nat → Half
  adcSamples : Nat
  laSamples : Nat
  countable : adcSamples + laSamples < 2 ^ 32

namespace Content

variable (c : Content)

/-- All samples, the ADC's first. -/
def total : Nat := c.adcSamples + c.laSamples

/-- `fpga_capture_psram_read16`: a read goes on in the region it starts in. -/
def read16 (index count : Nat) : List Half :=
  if index < c.adcSamples then (List.range count).map fun i => c.adc (index + i)
  else (List.range count).map fun i => c.la (index - c.adcSamples + i)

/-- The ADC part. -/
def adcWords : List Half := (List.range c.adcSamples).map c.adc

/-- The logic-analyzer part. -/
def laWords : List Half := (List.range c.laSamples).map c.la

end Content

/-- `la_edge_name`. -/
def LaEdge.name : LaEdge → List Byte
  | none => []
  | rising => cstr "rising"
  | falling => cstr "falling"
  | high => cstr "high"
  | low => cstr "low"

/-- `%u`. -/
def decimal (n : Nat) : List Byte := (Nat.toDigits 10 n).map ascii

/-- What a frame carries: samples in decimal, samples in base64, or edges and how far they reach. -/
inductive Body
  | data (samples : List Half)
  | b64 (text : List Byte)
  | edges (edges : List (Nat × Half)) (upto : Nat)
  deriving DecidableEq

/-- A frame of the reply: with the metadata, the achieved rates, or as a further chunk. -/
structure Frame where
  header : Option (Nat × Nat)
  body : Body
  trigger : Option (LaTrigger × Bool)
  more : Bool
  deriving DecidableEq

/-- An achieved rate, omitted when it is 0. -/
def rateText (name : List Byte) (hz : Nat) : List Byte :=
  if hz = 0 then [] else name ++ decimal hz ++ cstr ","

/-- How a frame starts. -/
def openText : Option (Nat × Nat) → List Byte
  | some (adcHz, laHz) =>
    cstr "\x7b\"status\":\"ok\",\"bits\":16," ++ rateText (cstr "\"adc_rate_hz\":") adcHz ++
      rateText (cstr "\"la_rate_hz\":") laHz
  | none => cstr "\x7b\"status\":\"chunk\","

/-- Samples in decimal. -/
def samplesText (samples : List Half) : List Byte :=
  (cstr ",").intercalate (samples.map fun sample => decimal sample.toNat)

/-- One edge of a frame. -/
def edgeText (first : Bool) (edge : Nat × Half) : List Byte :=
  (if first then [] else cstr ",") ++ cstr "[" ++ decimal edge.1 ++ cstr "," ++ decimal edge.2.toNat ++ cstr "]"

/-- The edges of a frame. -/
def edgesText : Bool → List (Nat × Half) → List Byte
  | _, [] => []
  | first, edge :: edges => edgeText first edge ++ edgesText false edges

/-- What comes before the edges. -/
def edgesOpen : List Byte := cstr "\"la\":true,\"la_edges\":["

/-- What a frame carries, as text. -/
def Body.text : Body → List Byte
  | .data samples => cstr "\"data\":[" ++ samplesText samples ++ cstr "]"
  | .b64 text => cstr "\"b64\":\"" ++ text ++ cstr "\""
  | .edges changes upto => edgesOpen ++ edgesText true changes ++ cstr "],\"la_upto\":" ++ decimal upto

/-- `bulk_emit_trigger`. -/
def triggerText : Option (LaTrigger × Bool) → List Byte
  | none => []
  | some (trig, fired) =>
    cstr ",\"trigger\":\x7b\"la\":" ++ decimal trig.la ++ cstr ",\"edge\":\"" ++ trig.edge.name ++
      cstr "\",\"fired\":" ++ (if fired then cstr "true" else cstr "false") ++ cstr "\x7d"

/-- How a frame ends. -/
def closeText (trigger : Option (LaTrigger × Bool)) (more : Bool) : List Byte :=
  triggerText trigger ++ cstr ",\"more\":" ++ (if more then cstr "true" else cstr "false") ++ cstr "\x7d\n"

/-- The text of a frame. -/
def Frame.text (frame : Frame) : List Byte :=
  openText frame.header ++ frame.body.text ++ closeText frame.trigger frame.more

/-- Why a read-back is over; a PSRAM read that fails is answered with `capture read-back failed`. -/
inductive Ending
  | complete
  | stalled
  | unreadable
  | unsent
  deriving DecidableEq

/-- `bulk`, with what a read-back of a capture keeps of its own: the last word sent and the time of the
last progress. -/
structure Sending where
  bulk : Bulk
  laLast : Option Half := none
  progress : Word := 0
  ended : Option Ending := none

/-- What the pump finds when it turns to the next frame: the room in the send ring, how much more the
network takes before the frame is written, the clock, and whether the PSRAM can be read. -/
structure Seen where
  avail : Nat
  drained : Nat := 0
  now : Word := 0
  reads : Bool := true

/-- The edges that fit a frame, how many words they cover, and the last word sent. -/
structure EdgeRun where
  edges : List (Nat × Half)
  covered : Nat
  last : Option Half

/-- The loop over the words of a frame: it ends before the first edge that might not fit. -/
def laEdges (limit : Nat) : List Half → Nat → Nat → Option Half → Bool → EdgeRun
  | [], _, _, last, _ => ⟨[], 0, last⟩
  | word :: words, i, pos, last, first =>
    if last = some word then
      let run := laEdges limit words (i + 1) pos last first
      { run with covered := run.covered + 1 }
    else if limit < pos + 24 then ⟨[], 0, last⟩
    else
      let pos := pos + (edgeText first (i, word)).length
      let run := laEdges limit words (i + 1) pos (some word) false
      { run with edges := (i, word) :: run.edges, covered := run.covered + 1 }

def bulkFooterReserve (bulk : Bulk) : Nat := if bulk.trigPresent then 112 else 64

namespace Sending

variable (c : Content) (s : Sending) (seen : Seen)

/-- The metadata, in the first frame of a reply from the start. -/
def header : Option (Nat × Nat) :=
  if s.bulk.sent = 0 then some (s.bulk.adcRateHz, s.bulk.laRateHz) else none

/-- The outcome of the trigger. -/
def trigger : Option (LaTrigger × Bool) :=
  if s.bulk.trigPresent then some (s.bulk.trig, s.bulk.trigFired) else none

/-- A frame of so many samples: the last one carries the outcome of the trigger. -/
def frame (body : Body) (count : Nat) : Frame :=
  let last : Bool := s.bulk.total ≤ s.bulk.sent + count
  ⟨s.header, body, if last then s.trigger else none, !last⟩

/-- The edges of the next logic-analyzer frame. -/
def edgeRun : EdgeRun :=
  let words := c.read16 s.bulk.sent (min (s.bulk.total - s.bulk.sent) chunkSamples)
  let limit := min chunkBufSize seen.avail - (56 + if s.bulk.trigPresent then 48 else 0)
  laEdges limit words (s.bulk.sent - s.bulk.adcSamples) (openText s.header ++ edgesOpen).length s.laLast true

/-- The samples of the next dense frame; 0 when there is no room. -/
def denseCount (avail : Nat) : Nat :=
  let reserve := bulkFooterReserve s.bulk
  let room :=
    if s.bulk.b64 then
      if avail ≤ reserve + bulkB64HeaderMax + 8 then 0 else (avail - reserve - bulkB64HeaderMax) * 3 / 8
    else if avail ≤ reserve + 7 then 0
    else (avail - reserve) / 7
  let count := min (min (s.bulk.total - s.bulk.sent) chunkSamples) room
  if s.bulk.sent < s.bulk.adcSamples ∧ s.bulk.adcSamples < s.bulk.sent + count then
    s.bulk.adcSamples - s.bulk.sent
  else count

/-- The body of a dense frame. -/
def denseBody (count : Nat) : Body :=
  let words := c.read16 s.bulk.sent count
  if s.bulk.b64 then .b64 (B64url.encode (words.flatMap Endian.le16)) else .data words

/-- `at_send_data` on a frame: all of it or nothing, and then the connection is dropped. -/
def deliver (frame : Frame) (count : Nat) : Sending × Option Frame :=
  if seen.avail + seen.drained < frame.text.length then ({ s with ended := some .unsent }, none)
  else ({ s with bulk := { s.bulk with sent := s.bulk.sent + count } }, some frame)

/-- One turn of the loop of `bulk_pump`: the pump returns when no frame is sent. -/
def turn : Sending × Option Frame :=
  if s.ended.isSome then (s, none)
  else if s.bulk.total ≤ s.bulk.sent then ({ s with ended := some .complete }, none)
  else if seen.avail < 96 then
    if bulkStallMs < (seen.now - s.progress).toNat then ({ s with ended := some .stalled }, none)
    else (s, none)
  else
    let s := { s with progress := seen.now }
    if s.bulk.adcSamples ≤ s.bulk.sent then
      if seen.avail < 200 then (s, none)
      else if seen.reads = false then ({ s with ended := some .unreadable }, none)
      else
        let run := s.edgeRun c seen
        let upto := s.bulk.sent - s.bulk.adcSamples + run.covered
        Sending.deliver { s with laLast := run.last } seen (s.frame (.edges run.edges upto) run.covered)
          run.covered
    else
      let count := s.denseCount seen.avail
      if count = 0 then (s, none)
      else if seen.reads = false then ({ s with ended := some .unreadable }, none)
      else s.deliver seen (s.frame (s.denseBody c count) count) count

/-- The loop of `bulk_pump`, with what each of its turns finds. -/
def pump : Nat → Sending → (Nat → Seen) → Sending × List Frame
  | 0, s, _ => (s, [])
  | fuel + 1, s, seen =>
    let after := s.turn c (seen 0)
    match after.2 with
    | none => (after.1, [])
    | some frame =>
      let rest := pump fuel after.1 fun i => seen (i + 1)
      (rest.1, frame :: rest.2)

/-- `bulk_pump`: every turn that goes on sends at least one sample. -/
def bulkPump (seen : Nat → Seen) : Sending × List Frame := pump c (s.bulk.total - s.bulk.sent + 1) s seen

end Sending

/-- The turns of the pump and the frames they send. -/
def readback (c : Content) : Emitter Sending Seen Frame :=
  ⟨fun s seen => (s.turn c seen).1, fun s seen => (s.turn c seen).2⟩

/-- What a read-back is for: a capture that is complete, or the rest of one whose read-back broke off. -/
inductive Request (c : Content)
  | capture (trig : TrigReply) (named : trig.t.la < 256)
  | resume (offset : Nat) (inside : offset < c.total)

def bulkBeginCapture16 (conn : ConnId) (adcSamples laSamples : Nat) (trig : TrigReply) : Bulk where
  connId := conn
  total := adcSamples + laSamples
  is16 := true
  fromPsram := true
  adcSamples
  trigPresent := trig.present
  trig := trig.t
  trigFired := trig.fired

def bulkBeginCapture16Resume (conn : ConnId) (last : LastCap) (offset : Nat) : Bulk where
  connId := conn
  total := last.adcSamples + last.laSamples
  sent := offset
  is16 := true
  fromPsram := true
  adcSamples := last.adcSamples
  adcRateHz := last.adcRateHz
  laRateHz := last.laRateHz

namespace Request

variable {c : Content}

/-- The sample the reply starts at. -/
def offset : Request c → Nat
  | capture _ _ => 0
  | resume offset _ => offset

/-- The rates that are reported: a part without samples has none. -/
def rates (c : Content) (adcHz laHz : Word) : Nat × Nat :=
  (if c.adcSamples = 0 then 0 else adcHz.toNat, if c.laSamples = 0 then 0 else laHz.toNat)

/-- The read-back that `capture_poll` or `capture_read` starts. -/
def bulk (conn : ConnId) (adcHz laHz : Word) (b64 : Bool) : Request c → Bulk
  | capture trig _ =>
    { bulkBeginCapture16 conn c.adcSamples c.laSamples trig with
      adcRateHz := (rates c adcHz laHz).1, laRateHz := (rates c adcHz laHz).2, b64 }
  | resume offset _ =>
    let last : LastCap := ⟨true, c.adcSamples, c.laSamples, (rates c adcHz laHz).1, (rates c adcHz laHz).2⟩
    { bulkBeginCapture16Resume conn last offset with b64 }

/-- A read-back that starts. -/
def start (conn : ConnId) (adcHz laHz : Word) (b64 : Bool) (began : Word) (request : Request c) : Sending :=
  { bulk := request.bulk conn adcHz laHz b64, progress := began }

end Request
end BenchPod.Capture
