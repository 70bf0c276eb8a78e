import BenchPod.Capture.Held

/-!
# Traces kept for a replay

The trace that `replay` and the USER output play is described by a length, a flag, a pool generation
and a base address.  Beside the pod run the traces themselves: what the last capture or upload of each
language really delivered.
-/

namespace BenchPod.Capture

open Command

/-- The part of the pod's state that decides what a replay plays. -/
structure Tape where
  v2cap : Option V2cap
  replayLen : Nat
  jsonTraceGen : Word
  replayInPsram : Bool
  loadBin : LoadBin
  scpiTraceGen : Word
  scpiReplayBytes : Nat
  poolGen : Word
  pool : Mem
  psram : Mem
  dacBase : Nat

/-- The tape of a pod. -/
def Pod.tape (s : Pod) : Tape :=
  ⟨s.v2cap, s.replayLen, s.jsonTraceGen, s.replayInPsram, s.loadBin, s.scpiTraceGen, s.scpiReplayBytes,
    s.poolGen, s.pool, s.psram, s.dacBase⟩

namespace Tape

variable (p : Tape)

/-- The pool still belongs to a generation. -/
def holds (gen : Word) : Bool := gen ≠ 0 && gen = p.poolGen

/-- The next generation of the pool. -/
def taken : Word := if p.poolGen + 1 = 0 then 1 else p.poolGen + 1

/-- A JSON trace in the pool can be replayed. -/
def jsonHeld : Bool := !p.replayInPsram && p.replayLen ≠ 0 && p.holds p.jsonTraceGen

/-- A SCPI trace can be played. -/
def scpiHeld : Bool := p.scpiReplayBytes ≠ 0 && p.holds p.scpiTraceGen

/-- The next generation is not one that an old trace still carries. -/
def fresh : Bool := p.taken ≠ p.jsonTraceGen && p.taken ≠ p.scpiTraceGen

/-- Bytes of the PSRAM that an upload or a replay relies on, from `dacBase` on. -/
def psramLive : Nat :=
  if p.loadBin.conn.isSome && p.loadBin.psram then p.loadBin.haveBytes
  else if p.replayInPsram then 2 * p.replayLen
  else 0

end Tape

/-- What the last JSON capture or upload and the last SCPI capture or upload delivered, and what the
raw upload in progress has delivered so far. -/
structure Traces where
  json : List Byte := []
  scpi : List Byte := []
  upload : List Byte := []

/-- The offset of a `load` chunk. -/
def loadOffset (line : List Byte) : Nat := atoiSize ((Json.bpJsonGet line (Json.cstr "offset") 12).getD [])

/-- The bytes of a `load` chunk that get into the pool. -/
def loadDecoded (line : List Byte) : List Byte :=
  (B64url.decode ((Json.bpJsonGet line (Json.cstr "data") 240).getD []) (replayCap - loadOffset line)).1

/-- The bytes of an upload that `load_bin_receive` takes. -/
def LoadBin.taken (upload : LoadBin) (data : List Byte) : List Byte := data.take (upload.total - upload.haveBytes)

/-- The traces after an event: a capture or an upload that completes is the new one. -/
def Traces.next (t : Traces) (s : Pod) (event : Event) : Traces :=
  let reply := (s.handle event).2
  match event with
  | .json _ .load line _ =>
    if reply = some .ok then { t with json := t.json.take (loadOffset line) ++ loadDecoded line } else t
  | .json _ .loadBin _ _ => if reply = some .ok then { t with upload := [] } else t
  | .bytes conn _ data _ =>
    if connRunsStateMachine conn ∧ s.proto conn = .load then
      let upload := t.upload ++ s.loadBin.taken data
      { t with
        upload
        json := if upload.length < s.loadBin.total then t.json else upload }
    else t
  | .capturePoll pass =>
    match (s.pollTrigger pass).v2cap with
    | some cap => if pass.v2 = .done then { t with json := pass.bytes.read 0 (2 * cap.samples) } else t
    | none => t
  | .scpi _ (.capture n _) bytes =>
    if reply = some .ok then { t with scpi := bytes.read 0 (min n signalMaxSamples * 2) } else t
  | .scpi _ (.traceData offset text) _ =>
    if reply = some .ok then
      { t with scpi := t.scpi.take offset ++ (B64url.decode text (signalBufSize - offset)).1 }
    else t
  | _ => t

/-- A `load` chunk continues the trace it belongs to, and one that is refused spoils no trace. -/
def keepsLoad (p : Tape) (t : Traces) (reply : Option Reply) (line : List Byte) : Bool :=
  (reply ≠ some .ok ||
      (!p.replayInPsram && p.fresh &&
        (loadOffset line = 0 || (p.jsonHeld && decide (loadOffset line ≤ t.json.length))))) &&
    (reply ≠ some (.error (Json.cstr "invalid data")) || loadDecoded line = [] ||
      (!p.scpiHeld && (loadOffset line = 0 || !p.jsonHeld)))

/-- The same for a `TRACe:DATA` chunk. -/
def keepsTraceData (p : Tape) (reply : Option Reply) (offset : Nat) (text : List Byte) : Bool :=
  let decoded := (B64url.decode text (signalBufSize - offset)).1
  (reply ≠ some .ok ||
      ((p.holds p.scpiTraceGen || p.fresh) && (offset = 0 || (p.scpiHeld && decide (offset ≤ p.scpiReplayBytes))))) &&
    (reply ≠ some (.error (Json.cstr "-224")) ||
      ((p.holds p.scpiTraceGen || p.fresh) && (p.scpiReplayBytes = 0 || (p.holds p.scpiTraceGen && decoded = []))))

/-- The event writes over no trace without saying so. -/
def Event.keeps (event : Event) (s : Pod) (t : Traces) : Bool :=
  let p := s.tape
  let reply := (s.handle event).2
  match event with
  | .json _ .capture _ _ | .json _ .stream _ _ | .json _ .measure _ _ =>
    reply ≠ some .later || (!p.replayInPsram && p.fresh)
  | .json _ .test _ _ => reply ≠ some .later || (!p.jsonHeld && !p.scpiHeld)
  | .json _ .load line _ => keepsLoad p t reply line
  | .json _ .loadBin line _ => reply ≠ some .ok || asksPsram line || p.fresh
  | .scpi conn (.capture n _) _ => n = 0 || decide (signalBufSize < n) || (s.heavyBegin (.conn conn)).isNone || p.fresh
  | .scpi _ (.traceData offset text) _ => keepsTraceData p reply offset text
  | .bytes conn _ data written =>
    !(connRunsStateMachine conn && s.proto conn = .load) || !p.loadBin.psram ||
      decide ((p.loadBin.taken data).length ≤ written)
  | .capturePoll pass => p.v2cap.isNone || ((s.pollTrigger pass).v2cap = p.v2cap && pass.v2 ≠ .failed)
  | .closed conn _ => p.v2cap.all (·.connId ≠ conn)
  | .reconfigured => !(p.replayInPsram && p.replayLen ≠ 0) && !(p.loadBin.conn.isSome && p.loadBin.psram)
  | .psramWrite start data =>
    data = [] || p.psramLive = 0 || decide (start + data.length ≤ p.dacBase) || decide (p.dacBase + p.psramLive ≤ start)
  | _ => true

/-- A memory has the first `cap` bytes of some data from an address on. -/
def Stored (mem : Mem) (base : Nat) (data : List Byte) (cap : Nat) : Prop :=
  ∀ i < cap, ∀ b ∈ data[i]?, mem (base + i) = b

/-- What a replay would play is the trace it belongs to. -/
structure Right (p : Tape) (t : Traces) : Prop where
  ram : p.v2cap = none → p.jsonHeld = true → p.replayLen = t.json.length / 2 ∧ Stored p.pool 0 t.json signalBufSize
  psram : p.replayInPsram = true → p.replayLen ≠ 0 →
    p.replayLen = t.json.length / 2 ∧ Stored p.psram p.dacBase t.json (2 * p.replayLen)
  v2cap : ∀ cap ∈ p.v2cap, p.replayInPsram = false ∧ p.replayLen = cap.samples ∧ p.holds p.jsonTraceGen = true
  apart : p.holds p.jsonTraceGen = true → p.holds p.scpiTraceGen = false
  scpi : p.scpiHeld = true → p.scpiReplayBytes = t.scpi.length ∧ Stored p.pool 0 t.scpi signalBufSize
  upload : p.loadBin.conn.isSome = true →
    p.replayLen = 0 ∧ p.replayInPsram = false ∧ p.loadBin.haveBytes = t.upload.length ∧
      p.loadBin.haveBytes ≤ p.loadBin.total ∧
      if p.loadBin.psram then Stored p.psram p.dacBase t.upload t.upload.length
      else Stored p.pool 0 t.upload signalBufSize ∧ p.holds p.jsonTraceGen = true

theorem Right.congr {p q : Tape} {t : Traces} (right : Right p t) (same : q = p) : Right q t := same ▸ right

section Stored

variable {mem : Mem} {base cap offset : Nat} {data more : List Byte}

theorem Mem.write_before {i : Nat} (before : i < offset) : mem.write offset more i = mem i :=
  if_neg (Nat.not_le.mpr before)

theorem Mem.write_behind {i : Nat} (behind : offset + more.length ≤ i) : mem.write offset more i = mem i := by
  unfold Mem.write
  split
  · rw [List.getD, List.getElem?_eq_none (by omega)]
    rfl
  · rfl

theorem Mem.write_nil : mem.write offset [] = mem := by
  funext i
  simp [Mem.write]

theorem Mem.write_inside {i : Nat} {b : Byte} (written : more[i]? = some b) : mem.write offset more (offset + i) = b := by
  simp [Mem.write, List.getD, written]

theorem Mem.read_prefix (start : Nat) {count total : Nat} (fewer : count ≤ total) :
    mem.read start count <+: mem.read start total := by
  obtain ⟨more, rfl⟩ := Nat.exists_eq_add_of_le fewer
  rw [Mem.read, Mem.read, List.range_add, List.map_append]
  exact List.prefix_append _ _

@[simp]
theorem Mem.read_length (start count : Nat) : (mem.read start count).length = count := by
  simp [Mem.read]

theorem Stored.write (stored : Stored mem base data cap)
    (away : offset + more.length ≤ base ∨ base + min cap data.length ≤ offset) :
    Stored (mem.write offset more) base data cap := by
  intro i within b found
  have inside : i < data.length := (List.getElem?_eq_some_iff.mp found).1
  have kept := stored i within b found
  obtain above | below := away
  · rw [Mem.write_behind (by omega), kept]
  · rw [Mem.write_before (by omega), kept]

theorem Stored.write_on (stored : Stored mem base data cap) (inside : offset ≤ data.length)
    (more : List Byte) :
    Stored (mem.write (base + offset) more) base (data.take offset ++ more) cap := by
  intro i within b found
  have length : (data.take offset).length = offset := List.length_take_of_le inside
  by_cases front : i < offset
  · rw [List.getElem?_append_left (by omega), List.getElem?_take_of_lt front] at found
    rw [Mem.write_before (by omega), stored i within b found]
  · obtain ⟨k, rfl⟩ := Nat.exists_eq_add_of_le (Nat.not_lt.mp front)
    rw [List.getElem?_append_right (by omega), length, Nat.add_sub_cancel_left] at found
    rw [← Nat.add_assoc]
    exact Mem.write_inside found

theorem stored_write : Stored (mem.write base data) base data cap := fun _ _ _ found => Mem.write_inside found

theorem Stored.mono {less : Nat} (stored : Stored mem base data cap) (fewer : less ≤ cap) :
    Stored mem base data less := fun i within => stored i (Nat.lt_of_lt_of_le within fewer)

theorem Stored.all (stored : Stored mem base data data.length) (cap : Nat) : Stored mem base data cap :=
  fun i _ b found => stored i (List.getElem?_eq_some_iff.mp found).1 b found

theorem stored_nil : Stored mem base [] cap := by
  intro i _ b found
  simp at found

theorem Stored.read (stored : Stored mem base data cap) {count : Nat} (within : count ≤ cap)
    (inside : count ≤ data.length) : mem.read base count = data.take count := by
  apply List.ext_getElem
  · simp [Mem.read, inside]
  · intro i small _
    have below : i < count := by simpa [Mem.read] using small
    have byte := stored i (by omega) data[i] (List.getElem?_eq_getElem (by omega))
    simpa [Mem.read] using byte

end Stored

end BenchPod.Capture
