import BenchPod.SwdEngine.Cycle

/-!
# SWD transfers

The cycles of one transfer as the protocol has them, and the sequencer's way through them.
-/

namespace BenchPod.SwdEngine

open Bits

/-- `swd_op_t`. -/
structure Op where
  req : Byte
  data : Word
  deriving DecidableEq

/-- `SWD_REQ_RnW`. -/
def Op.read (o : Op) : Bool := o.req.getLsbD 1

/-- `swd_packet`: start, APnDP, RnW, A2, A3, parity, stop and park. -/
def swdPacket (req : Byte) : Byte :=
  let r := req &&& 0x0F
  let par := (r ^^^ (r >>> 1) ^^^ (r >>> 2) ^^^ (r >>> 3)) &&& 1
  0x81 ||| (r <<< 1) ||| (par <<< 5)

/-- What `swd_ll_batch` queues for an operation: the request byte, and a write's data. -/
def Op.bytes (o : Op) : List Byte := swdPacket o.req :: if o.read then [] else Endian.le32 o.data

/-- The bits of a request on the wire. -/
def packetBits (req : Byte) : List Bool :=
  [true, req.getLsbD 0, req.getLsbD 1, req.getLsbD 2, req.getLsbD 3,
    req.getLsbD 0 ^^ req.getLsbD 1 ^^ req.getLsbD 2 ^^ req.getLsbD 3, false, true]

/-- The bits of an ACK on the wire. -/
def ackBits (ack : BitVec 3) : List Bool := (List.range 3).map ack.getLsbD

/-- The parity bit of what is sent. -/
def oddParity (bits : List Bool) : Bool := bits.foldl (· ^^ ·) false

/-- What a target answers to a transfer, with what it leaves on the line in the turnarounds. -/
structure Reply where
  trn : Bool
  ack : BitVec 3
  turn : Bool
  data : Word
  parity : Bool
  deriving DecidableEq

/-- The ACK is OK, and a read's parity is right. -/
def Reply.ok (r : Reply) (o : Op) : Bool := r.ack == 0b001#3 && (!o.read || r.parity == oddParity (wordBits r.data))

/-- The cycles of a transfer before its idle cycles. -/
def bodyClocks (o : Op) (r : Reply) : List Clock :=
  (packetBits o.req).map .drive ++ .read r.trn :: (ackBits r.ack).map .read ++
    (if r.ack = 0b001#3 then
      if o.read then (wordBits r.data).map .read ++ [.read r.parity, .read r.turn]
      else .read r.turn :: (wordBits o.data).map .drive ++ [.drive (oddParity (wordBits o.data))]
    else [.read r.turn])

/-- The cycles of a transfer. -/
def transferClocks (idle : Nat) (o : Op) (r : Reply) : List Clock :=
  bodyClocks o r ++ List.replicate idle (.drive false)

theorem lsbFirst_swdPacket (req : Byte) : lsbFirst (swdPacket req) = packetBits req := by
  revert req
  decide +kernel

theorem read_swdPacket (o : Op) : (swdPacket o.req).getLsbD 2 = o.read := by
  rw [Op.read]
  generalize o.req = req
  revert req
  decide +kernel

theorem ackBits_shift (bit : Bool) (ack : BitVec 3) :
    ackBits (BitVec.ofBool bit ++ ack.extractLsb' 1 2) = (ackBits ack).tail ++ [bit] := by
  revert bit ack
  decide

namespace Core

variable {c : Core} {queue : List Byte} {endIdx : Nat} {bit : Bool}

theorem beat_running (running : c.running = true) :
    c.beat queue endIdx bit = (c.rise bit).fall (queue.getD c.taken 0) endIdx := by
  rw [beat, enter_running running]

theorem beat_request (running : c.running = true) (going : c.qstop = false) (inside : c.idx < 8) (unit : 45 ≤ endIdx) :
    c.beat queue endIdx bit = { c with sh := shiftIn false c.sh, idx := c.idx + 1 } := by
  have next : (c.idx + 1) % 128 = c.idx + 1 := Nat.mod_eq_of_lt (by omega)
  rw [beat_running running]
  simp [fall, rise, reading, byteIn, refused, next, running, going, inside, show ¬9 ≤ c.idx by omega, show ¬12 ≤ c.idx by omega,
    show c.idx ≠ 44 by omega, show c.idx ≠ 11 by omega, show c.idx ≠ endIdx by omega, show ¬13 ≤ c.idx by omega,
    show c.idx ≠ 12 by omega, show c.idx ≠ 20 by omega, show c.idx ≠ 28 by omega, show c.idx ≠ 36 by omega]

theorem beat_turn (running : c.running = true) (going : c.qstop = false) (place : c.idx = 8) (unit : 45 ≤ endIdx) :
    c.beat queue endIdx bit = { c with idx := 9 } := by
  rw [beat_running running]
  simp [fall, rise, reading, byteIn, refused, running, going, place, show 8 ≠ endIdx by omega]

theorem beat_ack (running : c.running = true) (going : c.qstop = false) (place : c.idx = 9 ∨ c.idx = 10)
    (unit : 45 ≤ endIdx) :
    c.beat queue endIdx bit = { c with
      ack := BitVec.ofBool bit ++ c.ack.extractLsb' 1 2
      idx := c.idx + 1 } := by
  rw [beat_running running]
  obtain place | place := place <;>
    simp [fall, rise, reading, byteIn, refused, running, going, place, show 9 ≠ endIdx by omega, show 10 ≠ endIdx by omega]

theorem beat_acked (running : c.running = true) (going : c.qstop = false) (place : c.idx = 11) (unit : 45 ≤ endIdx)
    {ack : BitVec 3} (full : BitVec.ofBool bit ++ c.ack.extractLsb' 1 2 = ack) :
    c.beat queue endIdx bit = { c with
      ack := ack
      isrd := c.isrd || ack != 0b001#3
      fail := c.fail || ack != 0b001#3
      idx := if ack = 0b001#3 then 12 else 45 } := by
  rw [beat_running running]
  by_cases ok : ack = 0b001#3 <;>
    simp [fall, rise, reading, byteIn, refused, running, going, place, full, ok, show 11 ≠ endIdx by omega]

theorem beat_read (running : c.running = true) (going : c.qstop = false) (read : c.isrd = true) (from_ : 12 ≤ c.idx)
    (upto : c.idx ≤ 43) (unit : 45 ≤ endIdx) :
    c.beat queue endIdx bit = { c with
      par := c.par ^^ bit
      sh := shiftIn bit c.sh
      rmem := if c.idx % 8 = 3 then Function.update c.rmem (c.stored % depth) (shiftIn bit c.sh) else c.rmem
      stored := if c.idx % 8 = 3 then c.stored + 1 else c.stored
      idx := c.idx + 1 } := by
  have next : (c.idx + 1) % 128 = c.idx + 1 := Nat.mod_eq_of_lt (by omega)
  rw [beat_running running]
  simp [fall, rise, reading, byteIn, refused, next, running, going, read, from_, upto, show ¬c.idx ≤ 11 by omega,
    show c.idx ≠ 44 by omega, show c.idx ≠ 11 by omega, show c.idx ≠ endIdx by omega, show ¬c.idx < 8 by omega]

theorem beat_check (running : c.running = true) (going : c.qstop = false) (read : c.isrd = true) (place : c.idx = 44)
    (unit : 45 ≤ endIdx) :
    c.beat queue endIdx bit = { c with perr := c.par ^^ bit, idx := 45 } := by
  rw [beat_running running]
  simp [fall, rise, reading, byteIn, refused, running, going, read, place, show 44 ≠ endIdx by omega]

theorem beat_byte (running : c.running = true) (going : c.qstop = false) (write : c.isrd = false)
    (place : c.byteIn = true) (unit : 45 ≤ endIdx) :
    c.beat queue endIdx bit = { c with
      sh := queue.getD c.taken 0
      par := if c.idx = 12 then c.par else c.par ^^ c.sh.getLsbD 0
      taken := c.taken + 1
      idx := c.idx + 1 } := by
  have places := of_decide_eq_true (Bool.and_eq_true_iff.mp place).2
  rw [beat_running running]
  obtain at_ | at_ | at_ | at_ := places <;>
    simp [fall, rise, reading, byteIn, refused, running, going, write, at_, show 12 ≠ endIdx by omega,
      show 20 ≠ endIdx by omega, show 28 ≠ endIdx by omega, show 36 ≠ endIdx by omega]

theorem beat_write (running : c.running = true) (going : c.qstop = false) (write : c.isrd = false)
    (none : c.byteIn = false) (from_ : 13 ≤ c.idx) (upto : c.idx ≤ 44) (unit : 45 ≤ endIdx) :
    c.beat queue endIdx bit = { c with
      sh := shiftIn false c.sh
      par := c.par ^^ c.sh.getLsbD 0
      idx := c.idx + 1 } := by
  have next : (c.idx + 1) % 128 = c.idx + 1 := Nat.mod_eq_of_lt (by omega)
  have places : ¬(c.idx = 12 ∨ c.idx = 20 ∨ c.idx = 28 ∨ c.idx = 36) := by simpa [byteIn, write] using none
  rw [beat_running running]
  simp [fall, rise, reading, byteIn, refused, next, running, going, write, places, from_, upto, show ¬c.idx ≤ 11 by omega,
    show c.idx ≠ 11 by omega, show c.idx ≠ endIdx by omega]

theorem beat_tail (running : c.running = true) (from_ : 45 ≤ c.idx) (fits : c.idx < 127) :
    c.beat queue endIdx bit = { c with
      sh := if c.isrd then c.sh else shiftIn false c.sh
      idx := c.idx + 1
      running := decide (c.idx ≠ endIdx)
      qstop := c.qstop || (decide (c.idx = endIdx) && (c.fail || (c.isrd && c.perr))) } := by
  have next : (c.idx + 1) % 128 = c.idx + 1 := Nat.mod_eq_of_lt (by omega)
  rw [beat_running running]
  cases read : c.isrd <;>
    simp [fall, rise, reading, byteIn, refused, next, read, show ¬c.idx < 8 by omega, show 13 ≤ c.idx by omega,
      show ¬c.idx ≤ 11 by omega, show ¬c.idx ≤ 43 by omega,
    show c.idx ≠ 44 by omega, show c.idx ≠ 11 by omega, show ¬c.idx ≤ 44 by omega, show c.idx ≠ 12 by omega,
    show c.idx ≠ 20 by omega, show c.idx ≠ 28 by omega, show c.idx ≠ 36 by omega]

end Core

end BenchPod.SwdEngine
