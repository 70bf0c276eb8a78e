import BenchPod.Command.Transport
import BenchPod.Dap.Proxy

/-!
# The stream of a connection

The worker hands a connection's bytes to `command_handler_process` in segments.  Lines go to the command
handlers, and a command can hand the bytes that follow it to a receiver, which gives the connection back
in the middle of a segment.  The stream is also described byte by byte, with no segments in it.
-/

namespace BenchPod.Command

open Json Dap

/-- What the stream is cut into. -/
inductive Item
  /-- A line of JSON or SCPI that is dispatched. -/
  | line (proto : Proto) (text : List Byte)
  /-- A SCPI line that is refused while a cloud job holds the pod. -/
  | refused (text : List Byte)
  /-- "command too long". -/
  | tooLong
  /-- A byte of an upload, and where it goes. -/
  | load (offset : Nat) (byte : Byte)
  | speedtest (byte : Byte)
  | uart (byte : Byte)
  | packet (bytes : List Byte)
  deriving DecidableEq

/-- The raw mode a command starts; `load_bin` and `speedtest` refuse or replace a total of 0. -/
inductive Start
  | load (total : Nat) (some : 0 < total)
  | speedtest (total : Nat) (some : 0 < total)
  | dap
  | uart

/-- The pod behind the stream. -/
structure Handlers (P : Type*) where
  /-- `scpi_line_blocked_by_lease`. -/
  blocked : P → List Byte → Bool
  /-- What is done with an item. -/
  take : P → Item → P
  /-- The mode a line's command starts. -/
  starts : P → Item → Option Start
  /-- `dap_wait_send_room`. -/
  room : P → P × Bool

/-- A connection, and the state of the receivers. -/
structure Stream (P : Type*) where
  conn : Conn := {}
  /-- `load_bin_total` and `load_bin_have`. -/
  loadTotal : Nat := 0
  loadHave : Nat := 0
  /-- `sprx.total` and `sprx.recv`. -/
  sprxTotal : Nat := 0
  sprxRecv : Nat := 0
  /-- The first `dap_rx_have` bytes of `dap_rx`. -/
  rx : List Byte := []
  /-- `dap_dead_conn` is this connection. -/
  dead : Bool := false
  pod : P

namespace Stream

variable {P : Type*} (h : Handlers P)

/-- `conn_proto_set`. -/
def setProto (s : Stream P) (proto : Proto) : Stream P := { s with conn := { s.conn with proto } }

/-- An item is done. -/
def done (s : Stream P) (item : Item) : Stream P := { s with pod := h.take s.pod item }

def begin (s : Stream P) : Start → Stream P
  | .load total _ => { s.setProto .load with loadTotal := total, loadHave := 0 }
  | .speedtest total _ => { s.setProto .speedtest with sprxTotal := total, sprxRecv := 0 }
  | .dap => { s.setProto .dap with rx := [] }
  | .uart => s.setProto .uart

/-- A line that is complete. -/
def dispatch (s : Stream P) (line : Line) : Stream P × Item :=
  if line.proto = .scpi ∧ h.blocked s.pod line.text then (s.done h (.refused line.text), .refused line.text)
  else
    let item := Item.line line.proto line.text
    match h.starts s.pod item with
    | none => (s.done h item, item)
    | some start => ((s.done h item).begin start, item)

/-- A byte outside the raw modes. -/
def lineByte (s : Stream P) (byte : Byte) : Stream P × Option Item :=
  let fed := s.conn.feed ⟨byte, 3⟩
  let next : Stream P := { s with conn := fed.1 }
  match fed.2 with
  | some line => let ran := next.dispatch h line; (ran.1, some ran.2)
  | none =>
    if s.conn.discarding = false ∧ fed.1.discarding ∧ fed.1.proto ≠ .scpi then
      (next.done h .tooLong, some .tooLong)
    else (next, none)

/-! ## Segment by segment -/

/-- The bytes of an upload from an offset on. -/
def loadItems (offset : Nat) (bytes : List Byte) : List Item := bytes.mapIdx fun i byte => .load (offset + i) byte

def loadBinReceive (s : Stream P) (buf : List Byte) : Pass (Stream P) Byte Item :=
  let need := s.loadTotal - s.loadHave
  let taken := buf.take need
  let items := loadItems s.loadHave taken
  let next : Stream P := { items.foldl (done h) s with loadHave := s.loadHave + taken.length }
  let next : Stream P :=
    if next.loadTotal ≤ next.loadHave then { next.setProto .json with loadTotal := 0, loadHave := 0 } else next
  ⟨next, items, buf.drop need⟩

def speedtestReceive (s : Stream P) (buf : List Byte) : Pass (Stream P) Byte Item :=
  let need := s.sprxTotal - s.sprxRecv
  let taken := buf.take need
  let items := taken.map Item.speedtest
  let next : Stream P := { items.foldl (done h) s with sprxRecv := s.sprxRecv + taken.length }
  ⟨if next.sprxTotal ≤ next.sprxRecv then next.setProto .json else next, items, buf.drop need⟩

def uartProxyReceive (s : Stream P) (buf : List Byte) : Pass (Stream P) Byte Item :=
  let items := buf.map Item.uart
  ⟨items.foldl (done h) s, items, []⟩

/-- What the DAP mode meets. -/
def peer : Peer P where
  room := h.room
  run pod packet := h.take pod (.packet packet)

/-- The connection as `dap_proxy_receive` sees it. -/
def proxy (s : Stream P) : Proxy P := { pod := s.pod, rx := s.rx, dead := s.dead }

/-- The connection after `dap_proxy_receive`. -/
def withProxy (s : Stream P) (d : Proxy P) : Stream P :=
  let next : Stream P := { s with pod := d.pod, rx := d.rx, dead := d.dead }
  if d.left then next.setProto .unknown else next

def dapProxyReceive (s : Stream P) (buf : List Byte) : Pass (Stream P) Byte Item :=
  let now := Proxy.receive (peer h) s.proxy buf
  ⟨s.withProxy now.state, now.out.map Item.packet, now.rest⟩

/-- One round of the loop of `command_handler_process`. -/
def round (s : Stream P) (buf : List Byte) : Pass (Stream P) Byte Item :=
  match s.conn.proto with
  | .speedtest => s.speedtestReceive h buf
  | .load => s.loadBinReceive h buf
  | .dap => s.dapProxyReceive h buf
  | .uart => s.uartProxyReceive h buf
  | .unknown | .json | .scpi =>
    match buf with
    | [] => ⟨s, [], []⟩
    | byte :: rest => let fed := s.lineByte h byte; ⟨fed.1, fed.2.toList, rest⟩

/-- `command_handler_process`; a segment takes no more rounds than it has bytes. -/
def process (s : Stream P) (segment : List Byte) : Option (Stream P × List Item) :=
  Emitter.loop (round h) segment.length s segment

/-! ## Byte by byte -/

/-- One byte of the stream. -/
def feed (s : Stream P) (byte : Byte) : Stream P × Option Item :=
  match s.conn.proto with
  | .speedtest =>
    let next : Stream P := { s.done h (.speedtest byte) with sprxRecv := s.sprxRecv + 1 }
    (if next.sprxTotal ≤ next.sprxRecv then next.setProto .json else next, some (.speedtest byte))
  | .load =>
    let item := Item.load s.loadHave byte
    let next : Stream P := { s.done h item with loadHave := s.loadHave + 1 }
    (if next.loadTotal ≤ next.loadHave then { next.setProto .json with loadTotal := 0, loadHave := 0 } else next,
      some item)
  | .dap =>
    let fed := Proxy.feed (peer h) s.proxy byte
    (s.withProxy fed.1, fed.2.map Item.packet)
  | .uart => (s.done h (.uart byte), some (.uart byte))
  | .unknown | .json | .scpi => s.lineByte h byte

/-- The stream as a system. -/
def system : Emitter (Stream P) Byte Item where
  step s byte := (s.feed h byte).1
  emit s byte := (s.feed h byte).2

/-- A receiver that is on has something left to take. -/
structure Fine (s : Stream P) : Prop where
  load : s.conn.proto = .load → s.loadHave < s.loadTotal
  speedtest : s.conn.proto = .speedtest → s.sprxRecv < s.sprxTotal
  dap : s.conn.proto = .dap → Partial s.rx

variable {h} {s : Stream P}

theorem fine_of_lines (lines : s.conn.proto.raw = false) : Fine s := by
  constructor
  all_goals
    intro mode
    rw [mode] at lines
    cases lines

theorem begin_fine (s : Stream P) (start : Start) : Fine (s.begin start) := by
  cases start with
  | load total some => exact ⟨fun _ => some, nofun, nofun⟩
  | speedtest total some => exact ⟨nofun, fun _ => some, nofun⟩
  | dap => exact ⟨nofun, nofun, fun _ => .inl Nat.zero_lt_two⟩
  | uart => exact ⟨nofun, nofun, nofun⟩

theorem feed_lines {conn : Conn} (lines : conn.proto.raw = false) (sent : Sent) :
    (conn.feed sent).1.proto.raw = false := by
  unfold Conn.feed
  split
  · exact lines
  · split_ifs <;> first | exact lines | rfl

theorem lineByte_fine (lines : s.conn.proto.raw = false) (byte : Byte) : Fine (s.lineByte h byte).1 := by
  have next := feed_lines lines ⟨byte, 3⟩
  unfold lineByte
  dsimp only
  split
  · unfold dispatch
    split
    · exact fine_of_lines next
    · dsimp only
      split
      · exact fine_of_lines next
      · exact begin_fine ..
  · split
    · exact fine_of_lines next
    · exact fine_of_lines next

theorem withProxy_proto {d : Proxy P} (mode : s.conn.proto = .dap) :
    (s.withProxy d).conn.proto = if d.left then .unknown else .dap := by
  unfold withProxy
  dsimp only
  split
  · rfl
  · exact mode

theorem withProxy_rx (d : Proxy P) : (s.withProxy d).rx = d.rx := by
  unfold withProxy
  dsimp only
  split <;> rfl

theorem feed_fine (fine : Fine s) (byte : Byte) : Fine (s.feed h byte).1 := by
  unfold feed
  split
  · dsimp only
    split_ifs with whole
    · exact fine_of_lines rfl
    · refine ⟨fun mode => ?_, fun _ => Nat.lt_of_not_le whole, fun mode => ?_⟩
      all_goals simp_all [done]
  · dsimp only
    split_ifs with whole
    · exact fine_of_lines rfl
    · refine ⟨fun _ => Nat.lt_of_not_le whole, fun mode => ?_, fun mode => ?_⟩
      all_goals simp_all [done]
  · rename_i dap
    have part := Proxy.feed_open (p := peer h) (d := s.proxy) (fine.dap dap) byte
    refine ⟨fun mode => ?_, fun mode => ?_, fun _ => ?_⟩
    · rw [withProxy_proto dap] at mode
      split at mode <;> cases mode
    · rw [withProxy_proto dap] at mode
      split at mode <;> cases mode
    · rwa [withProxy_rx]
  · exact ⟨fine.load, fine.speedtest, fine.dap⟩
  all_goals
    rename_i lines
    exact lineByte_fine (by rw [lines]; rfl) byte

theorem run_fed {d after : Proxy P} {bytes : List Byte} {out : List (List Byte)} (dap : s.conn.proto = .dap)
    (fed : Proxy.Fed (peer h) d bytes out after) :
    s.withProxy after = (system h).run (s.withProxy d) bytes ∧
      out.map Item.packet = (system h).emitted (s.withProxy d) bytes := by
  induction fed with
  | nil => exact ⟨rfl, rfl⟩
  | @cons d after byte bytes out stays _ ih =>
    obtain ⟨pod, rx, dead, left⟩ := d
    obtain rfl : left = false := stays
    have here : (s.withProxy ⟨pod, rx, dead, false⟩).feed h byte =
        (s.withProxy (Proxy.feed (peer h) ⟨pod, rx, dead, false⟩ byte).1,
          (Proxy.feed (peer h) ⟨pod, rx, dead, false⟩ byte).2.map Item.packet) := by
      have mode : (s.withProxy ⟨pod, rx, dead, false⟩).conn.proto = .dap := dap
      simp only [feed, mode]
      rfl
    obtain ⟨ran, emitted⟩ := ih
    constructor
    · rw [ran]
      exact congrArg (fun fed => (system h).run fed.1 bytes) here.symm
    · rw [List.map_append, emitted, Emitter.emitted]
      have step : (system h).step (s.withProxy ⟨pod, rx, dead, false⟩) byte = _ := congrArg Prod.fst here
      have emit : (system h).emit (s.withProxy ⟨pod, rx, dead, false⟩) byte = _ := congrArg Prod.snd here
      rw [step, emit]
      cases (Proxy.feed (peer h) ⟨pod, rx, dead, false⟩ byte).2 <;> rfl

theorem dap_serial (fine : Fine s) (dap : s.conn.proto = .dap) (buf : List Byte) :
    (system h).Serial s buf (s.dapProxyReceive h buf) := by
  obtain ⟨⟨front, split, fed⟩, -, -⟩ := Proxy.receive_fed (p := peer h) (d := s.proxy) rfl (fine.dap dap) buf
  obtain ⟨ran, emitted⟩ := run_fed dap fed
  exact ⟨front, split, ran, emitted⟩

theorem foldl_done (items : List Item) : items.foldl (done h) s = { s with pod := items.foldl h.take s.pod } := by
  induction items generalizing s with
  | nil => rfl
  | cons item items ih => exact ih

theorem speedtest_serial (fine : Fine s) (speedtest : s.conn.proto = .speedtest) (buf : List Byte) :
    (system h).Serial s buf (s.speedtestReceive h buf) := by
  have waits := fine.speedtest speedtest
  let closed (front : List Byte) : Stream P :=
    let next : Stream P := { s with
      pod := (front.map Item.speedtest).foldl h.take s.pod
      sprxRecv := s.sprxRecv + front.length }
    if next.sprxTotal ≤ next.sprxRecv then next.setProto .json else next
  have start : closed [] = s := if_neg (Nat.not_le.mpr waits)
  have serial := (Emitter.Serial.closed (s.sprxTotal - s.sprxRecv) closed
    (fun front => front.map Item.speedtest) rfl ?_ buf : (system h).Serial ..)
  · rw [start] at serial
    simp only [speedtestReceive, foldl_done]
    exact serial
  · intro front byte less
    have more : closed front = { s with
        pod := (front.map Item.speedtest).foldl h.take s.pod
        sprxRecv := s.sprxRecv + front.length } := if_neg (by dsimp only; omega)
    have here : (closed front).feed h byte = (closed (front ++ [byte]), some (.speedtest byte)) := by
      rw [more]
      simp only [feed, speedtest, closed, done, List.map_append, List.map_cons, List.map_nil, List.foldl_append,
        List.foldl_cons, List.foldl_nil, List.length_append, List.length_singleton, Nat.add_assoc]
    constructor
    · exact congrArg Prod.fst here
    · rw [List.map_append]
      exact congrArg (fun fed => front.map Item.speedtest ++ fed.2.toList) here.symm

theorem loadItems_append (offset : Nat) (front : List Byte) (byte : Byte) :
    loadItems offset (front ++ [byte]) = loadItems offset front ++ [.load (offset + front.length) byte] :=
  List.mapIdx_concat ..

theorem load_serial (fine : Fine s) (load : s.conn.proto = .load) (buf : List Byte) :
    (system h).Serial s buf (s.loadBinReceive h buf) := by
  have waits := fine.load load
  let closed (front : List Byte) : Stream P :=
    let next : Stream P := { s with
      pod := (loadItems s.loadHave front).foldl h.take s.pod
      loadHave := s.loadHave + front.length }
    if next.loadTotal ≤ next.loadHave then { next.setProto .json with loadTotal := 0, loadHave := 0 } else next
  have start : closed [] = s := if_neg (Nat.not_le.mpr waits)
  have serial := (Emitter.Serial.closed (s.loadTotal - s.loadHave) closed
    (fun front => loadItems s.loadHave front) rfl ?_ buf : (system h).Serial ..)
  · rw [start] at serial
    simp only [loadBinReceive, foldl_done]
    exact serial
  · intro front byte less
    have more : closed front = { s with
        pod := (loadItems s.loadHave front).foldl h.take s.pod
        loadHave := s.loadHave + front.length } := if_neg (by dsimp only; omega)
    have here : (closed front).feed h byte =
        (closed (front ++ [byte]), some (.load (s.loadHave + front.length) byte)) := by
      rw [more]
      simp only [feed, load, closed, done, loadItems_append, List.foldl_append, List.foldl_cons, List.foldl_nil,
        List.length_append, List.length_singleton, Nat.add_assoc]
    constructor
    · exact congrArg Prod.fst here
    · rw [loadItems_append]
      exact congrArg (fun fed => loadItems s.loadHave front ++ fed.2.toList) here.symm

theorem uart_serial (uart : s.conn.proto = .uart) (buf : List Byte) :
    (system h).Serial s buf (s.uartProxyReceive h buf) := by
  have serial := (Emitter.Serial.closed buf.length (fun front => (front.map Item.uart).foldl (done h) s)
    (fun front => front.map Item.uart) rfl ?_ buf : (system h).Serial ..)
  · rwa [List.take_length, List.drop_length] at serial
  · intro front byte _
    have here : ((front.map Item.uart).foldl (done h) s).feed h byte =
        (((front ++ [byte]).map Item.uart).foldl (done h) s, some (.uart byte)) := by
      rw [foldl_done, foldl_done, List.map_append, List.foldl_append]
      simp only [feed, uart]
      rfl
    constructor
    · exact congrArg Prod.fst here
    · rw [List.map_append]
      exact congrArg (fun fed => front.map Item.uart ++ fed.2.toList) here.symm

theorem round_serial (fine : Fine s) (buf : List Byte) : (system h).Serial s buf (s.round h buf) := by
  unfold round
  split
  case h_1 mode => exact speedtest_serial fine mode buf
  case h_2 mode => exact load_serial fine mode buf
  case h_3 mode => exact dap_serial fine mode buf
  case h_4 mode => exact uart_serial mode buf
  all_goals
    rename_i mode
    cases buf with
    | nil => exact .none
    | cons byte rest =>
      have here : (system h).Serial s (byte :: rest) ⟨(s.feed h byte).1, (s.feed h byte).2.toList, rest⟩ :=
        ⟨[byte], rfl, rfl, (List.append_nil _).symm⟩
      simpa only [feed, mode] using here

theorem round_takes (fine : Fine s) (byte : Byte) (buf : List Byte) :
    (s.round h (byte :: buf)).rest.length ≤ buf.length := by
  unfold round
  split
  case h_1 mode =>
    have waits := fine.speedtest mode
    simp only [speedtestReceive, List.length_drop, List.length_cons]
    omega
  case h_2 mode =>
    have waits := fine.load mode
    simp only [loadBinReceive, List.length_drop, List.length_cons]
    omega
  case h_3 mode => exact Proxy.receive_takes rfl (fine.dap mode) byte buf
  case h_4 mode => exact Nat.zero_le _
  all_goals exact Nat.le_refl _

theorem process_serial (fine : Fine s) (segment : List Byte) :
    s.process h segment = some ((system h).run s segment, (system h).emitted s segment) :=
  Emitter.loop_serial (fun fine => feed_fine fine _) (fun fine => round_serial fine _) (fun fine => round_takes fine _ _) fine
    (Nat.le_refl _)

/-! ## Lines -/

/-- A blank before the first byte of a connection. -/
def blank (byte : Byte) : Bool := byte = ascii ' ' ∨ byte = ascii '\t'

/-- What is kept of a line without its newline. -/
def kept (proto : Proto) (text : List Byte) : List Byte :=
  let text := text.filter (· ≠ ascii '\r')
  if proto = .unknown then text.dropWhile blank else text

/-- The protocol of a connection after a line. -/
def asked (proto : Proto) (text : List Byte) : Proto :=
  if proto = .unknown then
    match kept proto text with
    | [] => .unknown
    | byte :: _ => if byte = ascii '\x7b' then .json else .scpi
  else proto

variable {byte : Byte}

theorem feed_line (lines : s.conn.proto.raw = false) (byte : Byte) : s.feed h byte = s.lineByte h byte := by
  unfold feed
  cases mode : s.conn.proto with
  | unknown | json | scpi => rfl
  | uart | dap | load | speedtest =>
    rw [mode] at lines
    cases lines

theorem feed_skipped (lines : s.conn.proto.raw = false)
    (skipped : byte = ascii '\r' ∨ byte ≠ ascii '\n' ∧
      (s.conn.discarding = true ∨ s.conn.proto = .unknown ∧ blank byte = true)) :
    s.feed h byte = (s, none) := by
  have same : s.conn.feed ⟨byte, 3⟩ = (s.conn, none) := by
    obtain return_ | ⟨text, discarding | ⟨unknown, first⟩⟩ := skipped
    · simp [Conn.feed, lines, return_]
    · simp [Conn.feed, lines, text, discarding]
    · have first : byte = ascii ' ' ∨ byte = ascii '\t' := by simpa [blank] using first
      simp [Conn.feed, text, unknown, first]
  rw [feed_line lines]
  simp only [lineByte, same]
  split
  · rename_i turned
    rw [turned.1] at turned
    exact absurd turned.2.1 Bool.false_ne_true
  · rfl

/-- The next byte is skipped wherever the line is. -/
def Skipped (proto : Proto) (byte : Byte) : Prop := byte = ascii '\r' ∨ proto = .unknown ∧ blank byte = true

theorem kept_skipped {proto : Proto} (skipped : Skipped proto byte) (text : List Byte) :
    kept proto (byte :: text) = kept proto text := by
  unfold kept
  obtain rfl | ⟨rfl, first⟩ := skipped
  · rw [List.filter_cons_of_neg (by simp)]
  · by_cases return_ : byte = ascii '\r'
    · rw [List.filter_cons_of_neg (by simpa using return_)]
    · rw [List.filter_cons_of_pos (by simpa using return_)]
      simp only [if_pos, List.dropWhile_cons_of_pos first]

theorem kept_cons {proto : Proto} (solid : ¬ Skipped proto byte) (text : List Byte) :
    kept proto (byte :: text) = byte :: text.filter (· ≠ ascii '\r') := by
  have text_ : byte ≠ ascii '\r' := fun return_ => solid (.inl return_)
  unfold kept
  rw [List.filter_cons_of_pos (by simpa using text_)]
  dsimp only
  split
  · rename_i unknown
    rw [List.dropWhile_cons_of_neg fun first => solid (.inr ⟨unknown, first⟩)]
  · rfl

theorem asked_cons {proto : Proto} (solid : ¬ Skipped proto byte) (text : List Byte) :
    asked proto (byte :: text) = if proto = .unknown then (if byte = ascii '\x7b' then .json else .scpi) else proto := by
  unfold asked
  rw [kept_cons solid]

theorem asked_known {proto : Proto} (solid : ¬ Skipped proto byte) (text : List Byte) :
    asked proto (byte :: text) ≠ .unknown := by
  rw [asked_cons solid]
  split_ifs with unknown brace
  · exact nofun
  · exact nofun
  · exact unknown

theorem asked_lines {proto : Proto} (lines : proto.raw = false) (text : List Byte) : (asked proto text).raw = false := by
  unfold asked
  split
  · split
    · rfl
    · split <;> rfl
  · exact lines

theorem feed_conn (lines : s.conn.proto.raw = false) (text : byte ≠ ascii '\n')
    (going : s.conn.discarding = false) (solid : ¬ Skipped s.conn.proto byte) :
    s.conn.feed ⟨byte, 3⟩ =
      if s.conn.buf.length < lineAsmSize - 1 then
        (⟨s.conn.buf ++ [⟨byte, 3⟩], false, asked s.conn.proto [byte]⟩, none)
      else (⟨[], true, asked s.conn.proto [byte]⟩, none) := by
  obtain ⟨return_, dark⟩ := not_or.mp solid
  have dark : ¬ (s.conn.proto = .unknown ∧ (byte = ascii ' ' ∨ byte = ascii '\t')) := by simpa [blank] using dark
  rw [asked_cons solid]
  simp only [Conn.feed, lines, return_, text, going, dark, Bool.false_eq_true, if_false]

theorem feed_kept (lines : s.conn.proto.raw = false) (text : byte ≠ ascii '\n')
    (going : s.conn.discarding = false) (solid : ¬ Skipped s.conn.proto byte)
    (room : s.conn.buf.length < lineAsmSize - 1) :
    s.feed h byte = ({ s with conn := ⟨s.conn.buf ++ [⟨byte, 3⟩], false, asked s.conn.proto [byte]⟩ }, none) := by
  have fed := feed_conn lines text going solid
  rw [if_pos room] at fed
  rw [feed_line lines]
  simp [lineByte, fed]

theorem feed_tooLong (lines : s.conn.proto.raw = false) (text : byte ≠ ascii '\n')
    (going : s.conn.discarding = false) (solid : ¬ Skipped s.conn.proto byte)
    (full : ¬ s.conn.buf.length < lineAsmSize - 1) :
    let next : Stream P := { s with conn := ⟨[], true, asked s.conn.proto [byte]⟩ }
    s.feed h byte =
      if asked s.conn.proto [byte] = .scpi then (next, none) else (next.done h .tooLong, some .tooLong) := by
  have fed := feed_conn lines text going solid
  rw [if_neg full] at fed
  rw [feed_line lines]
  by_cases scpi : asked s.conn.proto [byte] = .scpi
  · simp [lineByte, fed, going, scpi]
  · simp [lineByte, fed, going, scpi]

theorem kept_known {proto : Proto} (known : proto ≠ .unknown) (text : List Byte) :
    kept proto text = text.filter (· ≠ ascii '\r') := if_neg known

theorem asked_skipped {proto : Proto} (skipped : Skipped proto byte) (text : List Byte) :
    asked proto (byte :: text) = asked proto text := by
  unfold asked
  rw [kept_skipped skipped]

theorem asked_same {proto : Proto} (known : proto ≠ .unknown) (text : List Byte) : asked proto text = proto :=
  if_neg known

theorem run_discarding {text : List Byte} (lines : s.conn.proto.raw = false) (dropping : s.conn.discarding = true)
    (line : ascii '\n' ∉ text) : (system h).run s text = s ∧ (system h).emitted s text = [] := by
  induction text with
  | nil => exact ⟨rfl, rfl⟩
  | cons byte text ih =>
    obtain ⟨first, rest⟩ := not_or.mp (mt List.mem_cons.mpr line)
    have here : s.feed h byte = (s, none) := feed_skipped lines (.inr ⟨Ne.symm first, .inl dropping⟩)
    have step : (system h).step s byte = s := congrArg Prod.fst here
    have emit : (system h).emit s byte = none := congrArg Prod.snd here
    obtain ⟨ran, emitted⟩ := ih rest
    constructor
    · exact (congrArg (fun next => (system h).run next text) step).trans ran
    · rw [Emitter.emitted, step, emit, emitted]
      rfl

/-- The connection in the middle of a line. -/
theorem run_text {text : List Byte} (lines : s.conn.proto.raw = false) (going : s.conn.discarding = false)
    (line : ascii '\n' ∉ text) (fits : s.conn.buf.length + (kept s.conn.proto text).length < lineAsmSize) :
    (system h).run s text = { s with conn :=
      ⟨s.conn.buf ++ (kept s.conn.proto text).map (⟨·, 3⟩), false, asked s.conn.proto text⟩ } ∧
      (system h).emitted s text = [] := by
  induction text generalizing s with
  | nil =>
    have same : asked s.conn.proto [] = s.conn.proto := by
      unfold asked
      split
      · rename_i unknown
        simp [kept, unknown]
      · rfl
    have nothing : kept s.conn.proto [] = [] := by
      unfold kept
      split <;> rfl
    rw [same, nothing, List.map_nil, List.append_nil, ← going]
    exact ⟨rfl, rfl⟩
  | cons byte text ih =>
    obtain ⟨first, rest⟩ := not_or.mp (mt List.mem_cons.mpr line)
    by_cases skipped : Skipped s.conn.proto byte
    · have here : s.feed h byte = (s, none) :=
        feed_skipped lines (skipped.imp_right fun blank => ⟨Ne.symm first, .inr blank⟩)
      rw [kept_skipped skipped] at fits ⊢
      rw [asked_skipped skipped]
      obtain ⟨ran, emitted⟩ := ih lines going rest fits
      rw [← ran, ← emitted]
      exact ⟨congrArg (fun fed => (system h).run fed.1 text) here,
        congrArg (fun fed => fed.2.toList ++ (system h).emitted fed.1 text) here⟩
    · rw [kept_cons skipped, List.length_cons] at fits
      have room : s.conn.buf.length < lineAsmSize - 1 := by omega
      have here := feed_kept (h := h) lines (Ne.symm first) going skipped room
      have known := asked_known skipped []
      have next := ih (s := { s with
          conn := ⟨s.conn.buf ++ [⟨byte, 3⟩], false, asked s.conn.proto [byte]⟩ })
        (asked_lines lines _) rfl rest
        (by
          dsimp only
          rw [kept_known known, List.length_append, List.length_singleton]
          omega)
      dsimp only at next
      rw [kept_known known, asked_same known] at next
      obtain ⟨ran, emitted⟩ := next
      rw [kept_cons skipped, asked_cons skipped, ← asked_cons skipped []]
      constructor
      · refine (congrArg (fun fed => (system h).run fed.1 text) here).trans (ran.trans ?_)
        rw [List.map_cons, List.append_assoc]
        rfl
      · exact (congrArg (fun fed => fed.2.toList ++ (system h).emitted fed.1 text) here).trans emitted

/-- The connection behind the byte that made a line too long. -/
theorem run_tooLong {text : List Byte} (lines : s.conn.proto.raw = false) (going : s.conn.discarding = false)
    (line : ascii '\n' ∉ text) (room : s.conn.buf.length < lineAsmSize)
    (past : lineAsmSize ≤ s.conn.buf.length + (kept s.conn.proto text).length) :
    let next : Stream P := { s with conn := ⟨[], true, asked s.conn.proto text⟩ }
    (system h).run s text = (if asked s.conn.proto text = .scpi then next else next.done h .tooLong) ∧
      (system h).emitted s text = if asked s.conn.proto text = .scpi then [] else [.tooLong] := by
  induction text generalizing s with
  | nil =>
    have nothing : kept s.conn.proto [] = [] := by
      unfold kept
      split <;> rfl
    rw [nothing] at past
    exact absurd room (Nat.not_lt.mpr past)
  | cons byte text ih =>
    obtain ⟨first, rest⟩ := not_or.mp (mt List.mem_cons.mpr line)
    by_cases skipped : Skipped s.conn.proto byte
    · have here : s.feed h byte = (s, none) :=
        feed_skipped lines (skipped.imp_right fun blank => ⟨Ne.symm first, .inr blank⟩)
      rw [kept_skipped skipped] at past
      rw [asked_skipped skipped]
      obtain ⟨ran, emitted⟩ := ih lines going rest room past
      intro next
      rw [← ran, ← emitted]
      exact ⟨congrArg (fun fed => (system h).run fed.1 text) here,
        congrArg (fun fed => fed.2.toList ++ (system h).emitted fed.1 text) here⟩
    · rw [kept_cons skipped, List.length_cons] at past
      have known := asked_known skipped []
      rw [asked_cons skipped, ← asked_cons skipped []]
      by_cases fits : s.conn.buf.length < lineAsmSize - 1
      · have here := feed_kept (h := h) lines (Ne.symm first) going skipped fits
        have next := ih (s := { s with
            conn := ⟨s.conn.buf ++ [⟨byte, 3⟩], false, asked s.conn.proto [byte]⟩ })
          (asked_lines lines _) rfl rest
          (by
            dsimp only
            rw [List.length_append, List.length_singleton]
            omega)
          (by
            dsimp only
            rw [kept_known known, List.length_append, List.length_singleton]
            omega)
        dsimp only at next
        rw [asked_same known] at next
        obtain ⟨ran, emitted⟩ := next
        exact ⟨(congrArg (fun fed => (system h).run fed.1 text) here).trans ran,
          (congrArg (fun fed => fed.2.toList ++ (system h).emitted fed.1 text) here).trans emitted⟩
      · have here := feed_tooLong (h := h) lines (Ne.symm first) going skipped fits
        intro next
        have dropped (pod : P) : (system h).run { next with pod } text = { next with pod } ∧
            (system h).emitted { next with pod } text = [] :=
          run_discarding (asked_lines lines _) rfl rest
        split_ifs at here ⊢ with scpi
        · refine ⟨(congrArg (fun fed => (system h).run fed.1 text) here).trans (dropped _).1,
            (congrArg (fun fed => fed.2.toList ++ (system h).emitted fed.1 text) here).trans ?_⟩
          exact (dropped _).2
        · refine ⟨(congrArg (fun fed => (system h).run fed.1 text) here).trans (dropped _).1,
            (congrArg (fun fed => fed.2.toList ++ (system h).emitted fed.1 text) here).trans ?_⟩
          exact congrArg (Item.tooLong :: ·) (dropped _).2

theorem feed_newline (lines : s.conn.proto.raw = false) :
    s.feed h (ascii '\n') = if s.conn.discarding then ({ s with conn := ⟨[], false, s.conn.proto⟩ }, none)
      else if s.conn.buf = [] then (s, none)
      else
        let ran := dispatch h { s with conn := ⟨[], s.conn.discarding, s.conn.proto⟩ }
          ⟨s.conn.proto, s.conn.buf ++ [⟨ascii '\n', 3⟩]⟩
        (ran.1, some ran.2) := by
  have newline : ascii '\n' ≠ ascii '\r' := by decide
  rw [feed_line lines]
  split_ifs with dropping empty
  · simp [lineByte, Conn.feed, lines, newline, dropping]
  · simp [lineByte, Conn.feed, lines, newline, dropping, empty]
  · simp [lineByte, Conn.feed, lines, newline, dropping, empty]

variable (h) in
/-- What a line does when it starts at the first byte of its text. -/
def lineDone (s : Stream P) (text : List Byte) : Stream P × List Item :=
  let proto := asked s.conn.proto text
  let line := kept s.conn.proto text
  let next := { s with conn := ⟨[], false, proto⟩ }
  if line = [] then (next, [])
  else if line.length < lineAsmSize then
    let ran := next.dispatch h ⟨proto, line.map (⟨·, 3⟩) ++ [⟨ascii '\n', 3⟩]⟩
    (ran.1, [ran.2])
  else if proto = .scpi then (next, [])
  else (next.done h .tooLong, [.tooLong])

theorem run_line {text : List Byte} (lines : s.conn.proto.raw = false) (going : s.conn.discarding = false)
    (empty : s.conn.buf = []) (line : ascii '\n' ∉ text) :
    ((system h).run s (text ++ [ascii '\n']), (system h).emitted s (text ++ [ascii '\n'])) = s.lineDone h text := by
  rw [Emitter.run_append, Emitter.emitted_append]
  have behind (next : Stream P) : (system h).run next [ascii '\n'] = (next.feed h (ascii '\n')).1 := rfl
  have emits (next : Stream P) : (system h).emitted next [ascii '\n'] = (next.feed h (ascii '\n')).2.toList :=
    List.append_nil _
  have lines' := asked_lines lines text
  rw [behind, emits]
  unfold lineDone
  by_cases fits : (kept s.conn.proto text).length < lineAsmSize
  · obtain ⟨ran, emitted⟩ := run_text (h := h) (s := s) lines going line
      (by rw [empty, List.length_nil, Nat.zero_add]; exact fits)
    rw [empty, List.nil_append] at ran
    rw [emitted, ran, feed_newline lines', List.nil_append]
    rw [if_neg Bool.false_ne_true]
    by_cases nothing : kept s.conn.proto text = []
    · rw [if_pos nothing, nothing]
      rfl
    · rw [if_neg nothing, if_pos fits, if_neg (by simpa using nothing)]
      rfl
  · obtain ⟨ran, emitted⟩ := run_tooLong (h := h) (s := s) lines going line (by rw [empty]; exact Nat.zero_lt_succ _)
      (by rw [empty, List.length_nil, Nat.zero_add]; exact Nat.le_of_not_lt fits)
    rw [emitted, ran]
    have some : kept s.conn.proto text ≠ [] := by
      intro none
      rw [none] at fits
      exact fits (Nat.zero_lt_succ _)
    rw [if_neg some, if_neg fits]
    split_ifs with scpi
    · rw [feed_newline lines', if_pos rfl]
      rfl
    · have newline := feed_newline (h := h)
        (s := done h { s with conn := ⟨[], true, asked s.conn.proto text⟩ } .tooLong) lines'
      rw [newline]
      rfl

end Stream

open BenchPod.Command.Stream

variable {P : Type*}

/-- However the stream is cut into segments, every call takes all of its segment and together they do
what the stream does byte by byte; a line is dispatched, or when it is too long dropped up to its newline,
with one error unless it is SCPI, and the next line starts afresh. -/
theorem stream_uncut (h : Handlers P) (pod : P) :
    (∀ segments : List (List Byte), Emitter.calls (process h) { pod } segments =
      some ((system h).run { pod } segments.flatten, (system h).emitted { pod } segments.flatten)) ∧
    ∀ (s : Stream P) (text : List Byte), s.conn.proto.raw = false → s.conn.discarding = false →
      s.conn.buf = [] → ascii '\n' ∉ text →
      ((system h).run s (text ++ [ascii '\n']), (system h).emitted s (text ++ [ascii '\n'])) =
        s.lineDone h text :=
  ⟨fun _ => Emitter.calls_serial (fun fine => feed_fine fine _) (fun fine => process_serial fine _)
    (fine_of_lines rfl), fun _ _ lines going empty line => run_line lines going empty line⟩

/-- A pod whose commands start no mode. -/
def quiet : Handlers Unit := ⟨fun _ _ => false, fun _ _ => (), fun _ _ => none, fun _ => ((), true)⟩

theorem stream_uncut_quiet :
    Emitter.calls (process quiet) { pod := () } [cstr "\x7b\x7d", cstr "\nA", cstr "B\n"] =
      some ((system quiet).run { pod := () } (cstr "\x7b\x7d\nAB\n"),
        (system quiet).emitted { pod := () } (cstr "\x7b\x7d\nAB\n")) ∧
    ((system quiet).run { pod := () } (cstr "*IDN?" ++ [ascii '\n']),
      (system quiet).emitted { pod := () } (cstr "*IDN?" ++ [ascii '\n'])) =
        lineDone quiet { pod := () } (cstr "*IDN?") :=
  ⟨(stream_uncut quiet ()).1 [cstr "\x7b\x7d", cstr "\nA", cstr "B\n"],
    (stream_uncut quiet ()).2 { pod := () } (cstr "*IDN?") rfl rfl rfl (by decide)⟩

/-- A SCPI line that is too long is dropped without an error. -/
theorem long_scpi_silent :
    (process quiet { pod := () } (List.replicate 1280 (ascii 'A') ++ [ascii '\n'])).map Prod.snd = some [] := by
  have text : (List.replicate 1280 (ascii 'A')).filter (· ≠ ascii '\r') = List.replicate 1280 (ascii 'A') :=
    List.filter_eq_self.mpr fun byte member => by
      rw [List.eq_of_mem_replicate member]
      decide
  have line : kept .unknown (List.replicate 1280 (ascii 'A')) = List.replicate 1280 (ascii 'A') := by
    rw [kept, if_pos rfl, text, List.replicate_succ, List.dropWhile_cons_of_neg (by decide)]
  have ran : _ = lineDone quiet { pod := () } (List.replicate 1280 (ascii 'A')) :=
    run_line rfl rfl rfl fun member => absurd (List.eq_of_mem_replicate member) (by decide)
  have silent : (lineDone quiet { pod := () } (List.replicate 1280 (ascii 'A'))).2 = [] := by
    have scpi : asked .unknown (List.replicate 1280 (ascii 'A')) = .scpi := by
      rw [asked, if_pos rfl, line, List.replicate_succ]
      decide
    simp only [lineDone, line, scpi, List.length_replicate]
    rfl
  rw [process_serial (fine_of_lines rfl), Option.map_some]
  exact congrArg some ((congrArg Prod.snd ran).trans silent)

end BenchPod.Command
