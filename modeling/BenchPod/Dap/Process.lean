import BenchPod.Dap.Swd
import BenchPod.Library.Flow

/-!
# The DAP packet processor

A packet asks for transfers and other commands.  With the gateware's queue the transfers of a packet
are recorded, answered OK, and run when the record is full and at the end of the packet; the response
is then that of the first operation that failed.
-/

namespace BenchPod.Dap

open Endian

def packetSize : Nat := 1024
def packetDefault : Nat := 256
def retryBudget : Nat := 2048
def batchWaitMax : Nat := 64
def recMax : Nat := 128

def isMatchValue (request : Byte) : Bool := request.getLsbD 4
def isMatchMask (request : Byte) : Bool := request.getLsbD 5

/-- DP_RDBUFF_READ and DP_ABORT_WRITE. -/
def rdbuffRead : Byte := 0x0E
def abortWrite : Byte := 0x00
def xferMatchValue : Byte := 0x10

/-- The memory from the packet's first byte on, and the packet's length. -/
structure Request where
  byte : Nat → Byte
  len : Nat

namespace Request

/-- The little-endian word at an offset. -/
def word (req : Request) (p : Nat) : Word := rd32 [req.byte p, req.byte (p + 1), req.byte (p + 2), req.byte (p + 3)]

def half (req : Request) (p : Nat) : Nat := (req.byte p).toNat + 256 * (req.byte (p + 1)).toNat

/-- A byte, or 0 where the packet has ended. -/
def byteOr (req : Request) (p : Nat) : Byte := if p < req.len then req.byte p else 0

end Request

/-- What the configuring commands set. -/
structure Settings where
  idleCycles : Byte := 0
  waitRetry : Nat := 100
  matchRetry : Nat := 0
  matchMask : Word := 0
  packetSize : Nat := packetDefault
  packetCount : Nat := 1
  /-- The line layer's own. -/
  turnaround : Nat := 1
  dataPhase : Bool := false
  batchRetry : Nat := 100
  deriving DecidableEq

/-- A recorded operation: where a read's value goes, and the transfer count and the position in the
response when it was issued; a position is none where no transfer has set it. -/
structure Recorded where
  op : Op
  dst : Option Nat
  cntAt : Nat
  rpAt : Option Nat

structure State where
  settings : Settings := {}
  budget : Nat := 0
  recording : Bool := false
  ops : List Recorded := []
  curCnt : Nat := 0
  curRp : Option Nat := none
  failed : Bool := false
  failCnt : Nat := 0
  failRp : Option Nat := none
  failAck : Byte := 0
  /-- Everything done on the line. -/
  seen : List Wire := []
  /-- The response buffer. -/
  resp : Nat → Byte := fun _ => 0
  /-- The packet's operations that are answered OK.  Where a record stops, the operation that stopped it
  and those behind it are answered OK no more. -/
  acked : List Op := []

/-- A buffer with bytes written into it. -/
def written (resp : Nat → Byte) (offset : Nat) (bytes : List Byte) : Nat → Byte := fun i =>
  if offset ≤ i then bytes.getD (i - offset) (resp i) else resp i

namespace State

variable (t : Target) (d : State)

/-- Bytes into the response. -/
def put (offset : Nat) (bytes : List Byte) : State := { d with resp := written d.resp offset bytes }

/-- The values of the completed reads go where they were noted. -/
def placeReads : List Recorded → List Word → State → State
  | [], _, d => d
  | entry :: entries, rdata, d =>
    if entry.op.read then
      match entry.dst with
      | some dst => placeReads entries rdata.tail (d.put dst (le32 (rdata.headD 0)))
      | none => placeReads entries rdata.tail d
    else placeReads entries rdata d

/-- rec_flush, and what it returns. -/
def recFlush : State × Byte :=
  if d.failed then (d, d.failAck)
  else if d.ops = [] then (d, ackOk)
  else
    let batch := swdLlBatch t d.settings.batchRetry d.seen (d.ops.map Recorded.op)
    let placed := placeReads (d.ops.take batch.done) batch.rdata d
    match d.ops[batch.done]? with
    | some entry =>
      ({ placed with
          seen := batch.seen, ops := [], failed := true
          failCnt := entry.cntAt, failRp := entry.rpAt, failAck := batch.ack
          acked := d.acked.take (d.acked.length - (d.ops.length - batch.done)) }, batch.ack)
    | none => ({ placed with seen := batch.seen, ops := [] }, ackOk)

def recBegin : State := { d with recording := true, ops := [], failed := false }

def recEnd : State := { (d.recFlush t).1 with recording := false }

/-- A read's value into the response, or a note of where it goes. -/
def store (rp : Nat) (value : Word) : State :=
  if d.recording then
    { d with
      ops := d.ops.modifyLast fun entry => { entry with dst := some rp }
      curRp := some (rp + 4) }
  else d.put rp (le32 value)

/-- swd_ll_transfer: the ACK and the word. -/
def swdLlTransfer (op : Op) : State × Byte × Word :=
  let answer := t.answer d.seen op
  ({ d with seen := d.seen ++ [.transfer op] }, answer.code op, answer.data)

/-- One transfer with its WAIT retries. -/
def xferTry (op : Op) : Nat → State → State × Byte × Word
  | 0, d => d.swdLlTransfer t op
  | retry + 1, d =>
    let tried := d.swdLlTransfer t op
    if tried.2.1 ≠ ackWait ∨ tried.1.budget = 0 then tried
    else xferTry op retry { tried.1 with budget := tried.1.budget - 1 }

/-- An operation is answered OK. -/
def answerOk (op : Op) : State := { d with acked := d.acked ++ [op] }

/-- xfer: the ACK and the word of a read. -/
def xfer (request : Byte) (value : Word) : State × Byte × Word :=
  let op := Op.of request value
  if d.recording then
    if d.failed then (d, d.failAck, 0)
    else
      let flushed := if d.ops.length = recMax then d.recFlush t else (d, ackOk)
      if flushed.2 ≠ ackOk then (flushed.1, flushed.1.failAck, 0)
      else
        let d := flushed.1
        (({ d with ops := d.ops ++ [⟨op, none, d.curCnt, d.curRp⟩] } : State).answerOk op, ackOk, 0)
  else
    let tried := xferTry t op d.settings.waitRetry d
    if tried.2.1 = ackOk then (tried.1.answerOk op, tried.2) else tried

def setCur (count rp : Nat) : State := { d with curCnt := count, curRp := some rp }

def setMask (mask : Word) : State := { d with settings := { d.settings with matchMask := mask } }

/-- dap_reset. -/
def reset : State :=
  { d with
    settings := {}, recording := false, ops := [], failed := false
    seen := d.seen ++ [.setIdle 0] }

/-- dap_configure. -/
def configure (size count : Nat) : State :=
  { d with
    settings :=
      { d.settings with
        packetSize := max 64 (min size Dap.packetSize)
        packetCount := max 1 (min count 4) } }

/-- swd_ll_batch_supported. -/
def batchSupported (queue : Bool) : Bool := queue && d.settings.turnaround == 1 && !d.settings.dataPhase

end State

/-- The variables of the transfer loops. -/
structure Loop where
  d : State
  p : Nat
  rp : Nat
  /-- The transfers completed. -/
  count : Nat := 0
  ack : Byte
  postRead : Bool := false
  data : Word := 0

namespace Loop

variable (t : Target) (req : Request) (l : Loop)

/-- `ack = xfer(..); if (ack != SWD_ACK_OK) break;` -/
def xfer (request : Byte) (value : Word) : Flow Loop :=
  let done := l.d.xfer t request value
  let l := { l with d := done.1, ack := done.2.1, data := done.2.2 }
  if l.ack = ackOk then .next l else .stop l

/-- `store(rp, data); rp += 4;` -/
def store : Loop := { l with d := l.d.store l.rp l.data, rp := l.rp + 4 }

/-- The posted read is finished before another read. -/
def finishPosted (request : Byte) : Flow Loop :=
  if l.postRead then
    if isAp request && !isMatchValue request then
      (l.xfer t request 0).andThen fun l => .next l.store
    else (l.xfer t rdbuffRead 0).andThen fun l => .next ({ l with postRead := false } : Loop).store
  else .next l

/-- The reads of a match-value transfer. -/
def matchReads (request : Byte) (value : Word) : Nat → Loop → Flow Loop
  | retry, l =>
    (l.xfer t (if isAp request then rdbuffRead else request) 0).andThen fun l =>
      match retry with
      | 0 => .next l
      | retry + 1 =>
        if l.data &&& l.d.settings.matchMask = value ∨ l.d.budget = 0 then .next l
        else matchReads request value retry { l with d := { l.d with budget := l.d.budget - 1 } }

def matchRead (request : Byte) : Flow Loop :=
  if req.len < l.p + 4 then .stop l
  else
    let value := req.word l.p
    let l := { l with p := l.p + 4 }
    (if isAp request then l.xfer t request 0 else .next l).andThen fun l =>
      (matchReads t request value l.d.settings.matchRetry l).andThen fun l =>
        if l.data &&& l.d.settings.matchMask ≠ value
        then .next { l with ack := l.ack ||| xferMatchValue }
        else .next l

def readOne (request : Byte) : Flow Loop :=
  (l.finishPosted t request).andThen fun l =>
    if isMatchValue request then l.matchRead t req request
    else if isAp request then
      if l.postRead then .next l
      else (l.xfer t request 0).andThen fun l => .next { l with postRead := true }
    else (l.xfer t request 0).andThen fun l => .next l.store

/-- The posted read is finished before a write. -/
def flushPosted : Flow Loop :=
  if l.postRead then
    (l.xfer t rdbuffRead 0).andThen fun l => .next { l.store with postRead := false }
  else .next l

def writeOne (request : Byte) : Flow Loop :=
  (l.flushPosted t).andThen fun l =>
    if req.len < l.p + 4 then .stop l
    else
      let value := req.word l.p
      let l := { l with p := l.p + 4 }
      if isMatchMask request then .next { l with d := l.d.setMask value }
      else l.xfer t request value

/-- One request of a DAP_Transfer. -/
def transferOne : Flow Loop :=
  if req.len ≤ l.p then .stop l
  else if packetSize < l.rp + 12 then .stop l
  else
    let request := req.byte l.p
    let l := { l with d := l.d.setCur l.count l.rp, p := l.p + 1 }
    (if isRead request then l.readOne t req request else l.writeOne t req request).andThen fun l =>
      .next { l with count := l.count + 1 }

/-- The trailing posted read. -/
def transferEnd : Loop :=
  let l := { l with d := l.d.setCur l.count l.rp }
  if l.postRead && l.ack == ackOk then
    ((l.xfer t rdbuffRead 0).andThen fun l => .next l.store).state
  else l

/-- The loop of a DAP_Transfer, with its trailing posted read. -/
def transfers (count : Nat) : Loop := (Flow.times (fun l => l.transferOne t req) count l).state.transferEnd t

/-- One word of a block read; `left` words are left behind it. -/
def blockReadOne (request : Byte) (left : Nat) : Flow Loop :=
  let rq := if isAp request && left == 0 then rdbuffRead else request
  let l := { l with d := l.d.setCur l.count l.rp }
  (l.xfer t rq 0).andThen fun l => .next { l.store with count := l.count + 1 }

def blockReads (request : Byte) : Nat → Loop → Flow Loop
  | 0, l => .next l
  | left + 1, l => (l.blockReadOne t request left).andThen (blockReads request left)

/-- One word of a block write. -/
def blockWriteOne (request : Byte) : Flow Loop :=
  if req.len < l.p + 4 then .stop l
  else
    let value := req.word l.p
    let l := { l with d := l.d.setCur l.count l.rp, p := l.p + 4 }
    (l.xfer t request value).andThen fun l => .next { l with count := l.count + 1 }

/-- The loops of a DAP_TransferBlock. -/
def block (request : Byte) (count : Nat) : Loop :=
  if isRead request then
    let l := { l with d := l.d.setCur 0 l.rp }
    ((if isAp request then l.xfer t request 0 else .next l).andThen
      (blockReads t request (min count ((packetSize - 4) / 4)))).state
  else (Flow.times (fun l => l.blockWriteOne t req request) count l).state

end Loop

/-- What a transfer command answers with. -/
structure Finish where
  d : State
  count : Nat
  ack : Byte
  rp : Option Nat

namespace State

variable (t : Target) (req : Request) (d : State)

/-- After a record that failed the answer is that of the operation that did. -/
def finish (l : Loop) : Finish :=
  if l.d.recording then
    let d := l.d.recEnd t
    if d.failed then ⟨d, d.failCnt, d.failAck, d.failRp⟩ else ⟨d, l.count, l.ack, some l.rp⟩
  else ⟨l.d, l.count, l.ack, some l.rp⟩

def doTransfer : State × Option Nat :=
  let count := (req.byteOr 2).toNat
  let start : Loop := { d, p := 3, rp := 3, ack := 0 }
  let done := finish t (start.transfers t req count)
  (done.d.put 1 [BitVec.ofNat 8 done.count, done.ack], done.rp)

def doTransferBlock : State × Option Nat :=
  if req.len < 5 then (d.put 1 [0, 0, 0], some 4)
  else
    let count := req.half 2
    let request := req.byte 4
    if count = 0 then (d.put 1 [0, 0, ackOk], some 4)
    else
      let start : Loop := { d, p := 5, rp := 4, ack := ackOk }
      let done := finish t (start.block t req request count)
      (done.d.put 1 [BitVec.ofNat 8 done.count, BitVec.ofNat 8 (done.count / 256), done.ack], done.rp)

/-- Does this DAP_Transfer contain a match-value read? -/
def matchReadFrom : Nat → Nat → Bool
  | 0, _ => false
  | count + 1, p =>
    if p < req.len then
      let r := req.byte p
      if isRead r && isMatchValue r then true
      else matchReadFrom count (if !isRead r || isMatchValue r then p + 5 else p + 1)
    else false

def hasMatchRead : Bool := matchReadFrom req (req.byteOr 2).toNat 3

def doInfo : State × Option Nat :=
  match (req.byteOr 1).toNat with
  | 0xF0 => (d.put 1 [1, 0x01], some 3)
  | 0xFE => (d.put 1 [1, BitVec.ofNat 8 d.settings.packetCount], some 3)
  | 0xFF => (d.put 1 [2, BitVec.ofNat 8 d.settings.packetSize, BitVec.ofNat 8 (d.settings.packetSize / 256)], some 4)
  -- "1.2.0" with its NUL
  | 0x04 => (d.put 1 [6, 0x31, 0x2E, 0x32, 0x2E, 0x30, 0], some 8)
  | _ => (d.put 1 [0], some 2)

/-- The bits that an output sequence takes from the packet. -/
def bitsAt (p nbits : Nat) : List Bool := (List.range nbits).map fun k => (req.byte (p + k / 8)).getLsbD (k % 8)

/-- Samples packed into bytes. -/
def packed (sample : Nat → Bool) (nbits : Nat) : List Byte :=
  (List.range ((nbits + 7) / 8)).map fun j =>
    BitVec.ofNat 8 <| ((List.range 8).map fun k =>
      if 8 * j + k < nbits && sample (8 * j + k) then 2 ^ k else 0).sum

def line (wire : Wire) : State := { d with seen := d.seen ++ [wire] }

/-- One sequence of a DAP_SWD_Sequence. -/
def sequenceOne (l : Loop) : Flow Loop :=
  if req.len ≤ l.p then .stop l
  else
    let info := req.byte l.p
    let l := { l with p := l.p + 1 }
    let nbits := if info.toNat % 64 = 0 then 64 else info.toNat % 64
    let nbytes := (nbits + 7) / 8
    if info.getLsbD 7 then
      if packetSize < l.rp + nbytes then .stop { l with d := l.d.put 1 [0xFF] }
      else
        let bytes := packed (t.sample l.d.seen) nbits
        .next { l with d := (l.d.line (.seqIn nbits)).put l.rp bytes, rp := l.rp + nbytes }
    else if req.len < l.p + nbytes then .stop l
    else .next { l with d := l.d.line (.seqOut (bitsAt req l.p nbits)), p := l.p + nbytes }

def doSwdSequence : State × Option Nat :=
  let start : Loop := { d := d.put 1 [0], p := 2, rp := 2, ack := 0 }
  let loop := (Flow.times (sequenceOne t req) (req.byteOr 1).toNat start).state
  (loop.d, some loop.rp)

def doTransferConfigure : State :=
  if 6 ≤ req.len then
    let waitRetry := req.half 2
    { d with
      settings :=
        { d.settings with
          idleCycles := req.byte 1
          waitRetry
          batchRetry := if waitRetry < batchWaitMax then waitRetry else batchWaitMax
          matchRetry := req.half 4 } }.line (.setIdle (req.byte 1))
  else d

def doWriteAbort : State × Option Nat :=
  if 6 ≤ req.len then
    let done := d.xfer t abortWrite (req.word 2)
    (done.1.put 1 [if done.2.1 = ackOk then 0 else 0xFF], some 2)
  else (d.put 1 [0], some 2)

def doSwjPins : State :=
  let out := req.byteOr 1
  (if (req.byteOr 2).getLsbD 7 then d.line (.nreset !out.getLsbD 7) else d).put 1 [out]

/-- The bits of a DAP_SWJ_Sequence. -/
def swjBits : Nat := if req.byteOr 1 = 0 then 256 else (req.byteOr 1).toNat

def doSwjSequence : State := (if 2 ≤ req.len then d.line (.seqOut (bitsAt req 2 (swjBits req))) else d).put 1 [0]

def doSwdConfigure : State :=
  let cfg := req.byteOr 1
  { d with
    settings :=
      { d.settings with turnaround := cfg.toNat % 4 + 1, dataPhase := cfg.getLsbD 2 } }.put 1 [0]

/-- The packet's command. -/
def command (queue : Bool) : State × Option Nat :=
  match (req.byte 0).toNat with
  | 0x00 => d.doInfo req
  | 0x01 => (d.put 1 [0], some 2)
  | 0x02 => (d.put 1 [if 1 < req.len ∧ req.byte 1 = 2 then 0 else 1], some 2)
  | 0x03 => (d.put 1 [0], some 2)
  | 0x04 => ((d.doTransferConfigure req).put 1 [0], some 2)
  | 0x05 =>
    let recorded := d.batchSupported queue && !hasMatchRead req
    (if recorded then d.recBegin else d).doTransfer t req
  | 0x06 => (if d.batchSupported queue then d.recBegin else d).doTransferBlock t req
  | 0x08 => d.doWriteAbort t req
  | 0x09 => (d.put 1 [0], some 2)
  | 0x0A => (d.put 1 [0, 0], some 3)
  | 0x10 => (d.doSwjPins req, some 2)
  | 0x11 => ((if 5 ≤ req.len then d.line (.setClock (req.word 1)) else d).put 1 [0], some 2)
  | 0x12 => (d.doSwjSequence req, some 2)
  | 0x13 => (d.doSwdConfigure req, some 2)
  | 0x1D => d.doSwdSequence t req
  | _ => (d.put 0 [0xFF], some 1)

/-- A packet is taken on. -/
def accept : State :=
  { ({ d with acked := [] } : State).put 0 [req.byte 0] with budget := retryBudget }

/-- dap_process: the answer's length, or none where it is not one. -/
def process (queue : Bool) (respCap : Nat) : State × Option Nat :=
  if req.len = 0 ∨ respCap < packetSize then (({ d with acked := [] } : State).put 0 [0xFF], some 1)
  else (d.accept req).command t req queue

end State
end BenchPod.Dap
