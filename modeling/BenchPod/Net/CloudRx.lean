import BenchPod.Command.Tunnel
import BenchPod.Json.Top
import BenchPod.Library.B64url

/-!
# The receiving side of the cloud link

The TLS layer offers segments, which the receive callback keeps or refuses; the poll takes frames from
the front of what was kept and hands their contents to the worker's queue.  A frame that the queue has no
room for stays in front.
-/

namespace BenchPod.Cloud

open Json Command

/-- `BP_CLOUD_RX_ACCUM`. -/
def rxAccum : Nat := 16384

/-- `BP_CLOUD_RX_MAX`. -/
def rxMax : Nat := 2048

/-- `BP_TUNNEL_ID_MAX`. -/
def tunnelIdMax : Nat := 64

/-- What `ws_parse_frame` finds at the front of a buffer. -/
inductive Parsed
  | more
  | fragmented
  | bad
  | frame (opcode : Byte) (payload : List Byte) (consumed : Nat)
  deriving DecidableEq

/-- The frame whose header is read, when all of its payload is there. -/
def parsePayload (b0 : Byte) (offset size : Nat) (body : List Byte) : Parsed :=
  if body.length < size then .more else .frame (b0 &&& 0x0F) (body.take size) (offset + size)

def wsParseFrame : List Byte → Parsed
  | b0 :: b1 :: rest =>
    if b1 &&& 0x80 ≠ 0 then .bad
    else if b0 &&& 0x70 ≠ 0 then .bad
    else if b0 &&& 0x80 = 0 ∨ b0 &&& 0x0F = 0 then .fragmented
    else if b1 &&& 0x7F = 126 then
      if rest.length < 2 then .more
      else parsePayload b0 4 (Endian.beNat (rest.take 2)) (rest.drop 2)
    else if b1 &&& 0x7F = 127 then
      if rest.length < 8 then .more
      else if 0xFFFF < Endian.beNat (rest.take 8) then .bad
      else parsePayload b0 10 (Endian.beNat (rest.take 8)) (rest.drop 8)
    else parsePayload b0 2 (b1 &&& 0x7F).toNat rest
  | _ => .more

/-- What the cloud client hands to the worker. -/
inductive Took
  | bytes (slot : Slot) (data : List Byte)
  | reset (slot : Slot)
  | otaBegin (size : Word) (arg : List Byte)
  | otaData (offset : Word) (data : List Byte)
  | otaEnd
  | otaAbort
  | otaCommit
  deriving DecidableEq

/-- What the rest of the firmware does while a frame is handled. -/
structure Answer where
  /-- `hw_worker_conn_busy` of each tunnel's connection. -/
  busy : Slot → Bool := fun _ => false
  /-- The worker's queue takes an item. -/
  accepts : Bool := true
  /-- A reply cannot be sent, and the handler gives the link up. -/
  drops : Bool := false

/-- The tunnels, and everything that was handed to the worker. -/
structure Sessions where
  /-- `s_tunnels`; a free slot is empty. -/
  ids : Slot → List Byte := fun _ => []
  log : List Took := []

/-- `cl_json_str` into a buffer that was emptied before. -/
def clJsonStr (json : List Byte) (key : String) (cap : Nat) : List Byte := (bpJsonGetTop json (cstr key) cap).getD []

namespace Sessions

variable (s : Sessions) (a : Answer) (json : List Byte)

/-- `cl_tunnel_slot_by_id`. -/
def slotById (id : List Byte) : Option Slot :=
  if id = [] then none else (List.finRange 3).find? fun slot => s.ids slot = id

/-- `cl_tunnel_free_slot`. -/
def freeSlot (busy : Slot → Bool) : Option Slot :=
  ((List.finRange 3).find? fun slot => s.ids slot = [] ∧ busy slot = false).or
    ((List.finRange 3).find? fun slot => s.ids slot = [])

/-- An item that the queue takes or refuses. -/
def submit (item : Took) : Sessions × Bool :=
  if a.accepts then ({ s with log := s.log ++ [item] }, true) else (s, false)

/-- A slot is bound to an id, or freed, and its connection starts fresh. -/
def rebind (slot : Slot) (id : List Byte) : Sessions := ⟨setAt s.ids slot id, s.log ++ [.reset slot]⟩

/-- `cl_tunnel_fail`. -/
def fail (slot : Slot) : Sessions := s.rebind slot []

/-- `cl_handle_tunnel_open`. -/
def handleTunnelOpen : Sessions :=
  let id := clJsonStr json "tunnel_id" tunnelIdMax
  if id = [] then s
  else
    match (s.slotById id).or (s.freeSlot a.busy) with
    | none => s
    | some slot => s.rebind slot id

/-- `cl_handle_tunnel_data`; false when the frame is to stay. -/
def handleTunnelData : Sessions × Bool :=
  match s.slotById (clJsonStr json "tunnel_id" tunnelIdMax) with
  | none => (s, true)
  | some slot =>
    match bpJsonGetTop json (cstr "data_b64") rxMax with
    | none => (s.fail slot, true)
    | some b64 =>
      let raw := B64url.decode b64 (rxMax * 3 / 4)
      if raw.2 = false then (s.fail slot, true)
      else if raw.1 = [] then (s, true)
      else s.submit a (.bytes slot (raw.1.take HwWorker.workDataMax))

/-- `cl_handle_tunnel_close`. -/
def handleTunnelClose : Sessions :=
  match s.slotById (clJsonStr json "tunnel_id" tunnelIdMax) with
  | none => s
  | some slot => s.rebind slot []

/-- What `hw_worker_submit_ota_begin` puts into the item. -/
def otaArg (sha target : List Byte) (version : Word) (sig : List Byte) : List Byte :=
  sha ++ [ascii ' '] ++ (if target = [] then cstr "firmware" else target) ++ [ascii ' '] ++
    cstr (Nat.repr version.toNat) ++ [ascii ' '] ++ sig

/-- `cl_handle_ota_begin`. -/
def handleOtaBegin : Sessions × Bool :=
  match bpJsonGetTop json (cstr "size") 16, bpJsonGetTop json (cstr "sha256") 80 with
  | some size, some sha =>
    let arg := otaArg sha (clJsonStr json "target" 16) (strtoul0 (clJsonStr json "version" 16))
      (clJsonStr json "sig" 200)
    if 320 ≤ arg.length then (s, true) else s.submit a (.otaBegin (strtoul0 size) arg)
  | _, _ => (s, true)

/-- `cl_handle_ota_data`. -/
def handleOtaData : Sessions × Bool :=
  match bpJsonGetTop json (cstr "data_b64") rxMax with
  | none => (s, true)
  | some b64 =>
    let raw := B64url.decode b64 (rxMax * 3 / 4)
    if raw.2 = false ∨ raw.1 = [] then (s, true)
    else
      s.submit a (.otaData (strtoul0 (clJsonStr json "offset" 16)) (raw.1.take HwWorker.workDataMax))

/-- A frame that is longer than the buffer the readers work on. -/
def handleCutOff (payload : List Byte) : Sessions :=
  if (bpJsonScanStr (cstr "type") 32 payload).getD [] = cstr "tunnel.data" then
    match s.slotById ((bpJsonScanStr (cstr "tunnel_id") tunnelIdMax payload).getD []) with
    | none => s
    | some slot => s.fail slot
  else s

/-- `cl_handle_text_frame`; false when the frame is to stay. -/
def handleTextFrame (payload : List Byte) : Sessions × Bool :=
  if rxMax ≤ payload.length then (s.handleCutOff payload, true)
  else
    let msg := payload.takeWhile (· ≠ 0)
    let type := clJsonStr msg "type" 32
    if type = cstr "tunnel.data" then s.handleTunnelData a msg
    else if type = cstr "tunnel.open" then (s.handleTunnelOpen a msg, true)
    else if type = cstr "tunnel.close" then (s.handleTunnelClose msg, true)
    else if type = cstr "ota.begin" then s.handleOtaBegin a msg
    else if type = cstr "ota.data" then s.handleOtaData a msg
    else if type = cstr "ota.end" then s.submit a .otaEnd
    else if type = cstr "ota.abort" then s.submit a .otaAbort
    else if type = cstr "ota.commit" then s.submit a .otaCommit
    else (s, true)

end Sessions

/-- The link, from the moment it is up. -/
structure Link where
  up : Bool := true
  /-- What the TLS layer has and was not taken. -/
  wire : List Byte := []
  /-- `s_rx`. -/
  rx : List Byte := []
  /-- `s_rx_overflow`. -/
  overflow : Bool := false
  sessions : Sessions := {}
  /-- Everything the server sent that has arrived. -/
  sent : List Byte := []

def cloudRxRefuse (cap len incoming : Nat) : Bool := cap - len < incoming && 0 < len

/-- What happens to the link. -/
inductive Event
  | arrive (bytes : List Byte)
  /-- The TLS layer offers its first bytes, as a chain of buffers of these lengths. -/
  | offer (chain : List Nat)
  /-- The net task's poll, with an answer for each frame it handles. -/
  | poll (answers : Nat → Answer)

namespace Link

variable (s : Link)

/-- `cl_rx_append`. -/
def rxAppend (data : List Byte) : Link :=
  if rxAccum - s.rx.length < data.length then { s with overflow := true }
  else { s with rx := s.rx ++ data }

/-- The buffers of a chain, one by one. -/
def rxChain : Link → List Nat → List Byte → Link
  | s, [], _ => s
  | s, size :: chain, bytes => rxChain (s.rxAppend (bytes.take size)) chain (bytes.drop size)

/-- `cl_recv_cb`. -/
def recvCb (chain : List Nat) : Link :=
  if s.wire.length < chain.sum then s
  else if cloudRxRefuse rxAccum s.rx.length chain.sum then s
  else { rxChain s chain s.wire with wire := s.wire.drop chain.sum }

/-- `cl_rx_consume`. -/
def rxConsume (n : Nat) : Link := { s with rx := s.rx.drop n }

/-- `cl_backoff`: the link is dropped, and every tunnel on it. -/
def backoff : Link :=
  { s with
    up := false
    rx := []
    overflow := false
    sessions := (List.finRange 3).foldl
      (fun s slot => if s.ids slot = [] then s else s.rebind slot []) s.sessions }

/-- `cl_process_ws_frames`, for at most so many frames; `n` of them were handled before. -/
def processWsFrames (answers : Nat → Answer) : Nat → Nat → Link → Link
  | 0, _, s => s
  | fuel + 1, n, s =>
    match wsParseFrame s.rx with
    | .more => s
    | .fragmented => s.backoff
    | .bad => s.backoff
    | .frame opcode payload consumed =>
      if opcode = 1 then
        let handled := s.sessions.handleTextFrame (answers n) payload
        if handled.2 = false then { s with sessions := handled.1 }
        else if (answers n).drops then { s with sessions := handled.1 }.backoff
        else processWsFrames answers fuel (n + 1) ({ s with sessions := handled.1 }.rxConsume consumed)
      else if opcode = 8 then s.backoff
      else processWsFrames answers fuel (n + 1) (s.rxConsume consumed)

/-- The connected link's share of `cloud_client_poll`. -/
def poll (answers : Nat → Answer) : Link :=
  if s.overflow then s.backoff else processWsFrames answers (s.rx.length + 1) 0 s

def step : Event → Link
  | .arrive bytes => if s.up then { s with wire := s.wire ++ bytes, sent := s.sent ++ bytes } else s
  | .offer chain => if s.up then s.recvCb chain else s
  | .poll answers => if s.up then s.poll answers else s

/-- The link after these events. -/
def run (events : List Event) : Link := events.foldl step {}

end Link
end BenchPod.Cloud
