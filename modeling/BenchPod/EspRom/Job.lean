import BenchPod.Library.Word

/-!
# The ESP32-C3 loader job

The job writes an image through the C3's ROM loader, one command at a time: it sends a SLIP frame, waits for
the answer to its opcode or for a deadline, and sends the next command or the same one again.
-/

namespace BenchPod.EspRom

open Endian

def espRomBlock : Nat := 0x400

def espRomDataAttempts : Nat := 3

def espRomMd5Attempts : Nat := 3

def espRomSyncAttempts : Nat := 10

def opFlashBegin : Byte := 0x02
def opFlashData : Byte := 0x03
def opFlashEnd : Byte := 0x04
def opSync : Byte := 0x08
def opReadReg : Byte := 0x0A
def opSpiAttach : Byte := 0x0D
def opSpiFlashMd5 : Byte := 0x13

def slipEnd : Byte := 0xC0
def slipEsc : Byte := 0xDB
def slipEscEnd : Byte := 0xDC
def slipEscEsc : Byte := 0xDD

/-- `esp_rom_phase_t`. -/
inductive Phase
  | idle
  | sync
  | magic
  | attach
  | begin
  | data
  | md5
  | end_
  | done
  deriving DecidableEq

def espRomOk : Int := 0
def espRomUnverified : Int := 1
def espRomErrSync : Int := -1
def espRomErrBegin : Int := -2
def espRomErrRead : Int := -3
def espRomErrData : Int := -4
def espRomErrMd5 : Int := -5
def espRomErrArgs : Int := -6

/-- A command for the ROM. -/
structure Cmd where
  op : Byte
  data : List Byte
  checksum : Word := 0
  deriving DecidableEq

/-- One byte of a frame on the wire. -/
def slipByte (b : Byte) : List Byte :=
  if b = slipEnd then [slipEsc, slipEscEnd] else if b = slipEsc then [slipEsc, slipEscEsc] else [b]

/-- What `send_cmd` hands to the UART. -/
def Cmd.wire (cmd : Cmd) : List Byte :=
  slipEnd :: (([0x00, cmd.op] ++ (le16 (BitVec.ofNat 16 cmd.data.length) ++ (le32 cmd.checksum ++ cmd.data))).flatMap
    slipByte ++ [slipEnd])

/-- A byte that arrives, with the number of the transmission whose answer it belongs to. -/
abbrev RxByte := Byte × Option Nat

/-- What a step finds: the bytes that arrived, the clock, and for a command it sends the clock and the time
the bytes take. -/
structure Input where
  rx : List RxByte
  now : Word
  sendNow : Word
  wireMs : Word

/-- The image and the function that reads it. -/
structure RomIo where
  len : Word
  offset : Word
  /-- Without an image the region is erased. -/
  image : Option (Vector Byte len.toNat)
  readFails : Nat → Bool

namespace RomIo

variable (io : RomIo)

/-- The bytes to write. -/
def source : List Byte :=
  match io.image with
  | none => List.replicate io.len.toNat 0xFF
  | some image => image.toList

/-- `io->read`; an erase needs none. -/
def read (off n : Nat) : Option (List Byte) :=
  if io.image.isSome ∧ io.readFails off then none else some ((io.source.drop off).take n)

end RomIo

/-- `esp_rom_job_t` with the buffers of the module. -/
structure Job where
  blocks : Word
  seq : Word := 0
  phase : Phase
  result : Int := 0
  attempt : Nat := 1
  statusLen : Nat := 0
  chipMagic : Word := 0
  resends : Nat := 0
  md5Retries : Nat := 0
  wantMd5 : List Byte := []
  gotMd5 : List Byte := []
  op : Byte := 0
  deadline : Word := 0
  inFrame : Bool := false
  esc : Bool := false
  /-- `s_resp` up to `rn`. -/
  resp : List RxByte := []
  /-- `s_pkt` and `s_pkt_chk`. -/
  pkt : Cmd := ⟨opFlashData, [], 0⟩
  /-- What `s_md5` has taken. -/
  hashed : List Byte := []
  pendingResult : Int := 0

/-- What polling for a reply comes to. -/
inductive Reply
  | pending
  | failed (rc : Int)
  | ok (value : Word) (payload : List Byte) (tags : List (Option Nat))

def reached (now deadline : Word) : Bool := 0 ≤ (now - deadline).toInt

def evalFrame (job : Job) : Job × Reply :=
  let resp := job.resp.map Prod.fst
  if resp.length < 8 + 2 ∨ resp.getD 0 0 ≠ 0x01 ∨ resp.getD 1 0 ≠ job.op then (job, .pending)
  else
    let size := (rd16 ((resp.drop 2).take 2)).toNat
    if resp.length < 8 + size then (job, .pending)
    else
      let statusLen := if job.statusLen = 0 then (if size = 4 then 4 else 2) else job.statusLen
      let job := { job with statusLen }
      if size < statusLen then (job, .pending)
      else
        let body := resp.drop 8
        if body.getD (size - statusLen) 0 ≠ 0 then
          (job, .failed (-(100 + (body.getD (size - statusLen + 1) 0).toNat : Int)))
        else (job, .ok (rd32 ((resp.drop 4).take 4)) (body.take (size - statusLen)) (job.resp.map Prod.snd))

/-- One more byte of the frame in `s_resp`. -/
def push (job : Job) (c : RxByte) : Job :=
  if job.resp.length < 256 then { job with resp := job.resp ++ [c] } else job

/-- One turn of the loop of `poll_reply`. -/
def rxByte (job : Job) (c : RxByte) : Job × Reply :=
  if c.1 = slipEnd then
    if job.inFrame ∧ job.resp ≠ [] then
      let (job, reply) := evalFrame job
      let job := { job with resp := [], esc := false }
      match reply with
      | .pending => ({ job with inFrame := true }, .pending)
      | reply => (job, reply)
    else ({ job with inFrame := true }, .pending)
  else if ¬job.inFrame then (job, .pending)
  else if job.esc then
    let b := if c.1 = slipEscEnd then slipEnd else if c.1 = slipEscEsc then slipEsc else c.1
    (push { job with esc := false } (b, c.2), .pending)
  else if c.1 = slipEsc then ({ job with esc := true }, .pending)
  else (push job c, .pending)

/-- The loop of `poll_reply`. -/
def drain (job : Job) : List RxByte → Job × Reply
  | [] => (job, .pending)
  | c :: rx =>
    match rxByte job c with
    | (job, .pending) => drain job rx
    | answer => answer

def pollReply (job : Job) (input : Input) : Job × Reply :=
  match drain job input.rx with
  | (job, .pending) => (job, if reached input.now job.deadline then .failed (-1) else .pending)
  | answer => answer

/-- An answer that a step took. -/
structure Answer where
  phase : Phase
  payload : List Byte
  tags : List (Option Nat)

/-- The job, what it has sent and the answers it took. -/
structure Link where
  job : Job
  sent : List Cmd := []
  answers : List Answer := []

def espRomSyncTimeoutMs : Word := 120

def espRomDataTimeoutMs : Word := 3000

def espRomBeginTimeoutMs : Word := 40000

/-- The SYNC command. -/
def syncCmd : Cmd := { op := opSync, data := [0x07, 0x07, 0x12, 0x20] ++ List.replicate 32 0x55 }

/-- READ_REG of the chip magic. -/
def magicCmd : Cmd := { op := opReadReg, data := le32 0x40001000 }

/-- SPI_ATTACH with the default pins. -/
def attachCmd : Cmd := { op := opSpiAttach, data := List.replicate 8 0 }

/-- FLASH_END that stays in the loader. -/
def endCmd : Cmd := { op := opFlashEnd, data := le32 1 }

/-- FLASH_BEGIN of the region. -/
def beginCmd (io : RomIo) (blocks : Word) : Cmd where
  op := opFlashBegin
  data := le32 io.len ++ (le32 blocks ++ (le32 (BitVec.ofNat 32 espRomBlock) ++ (le32 io.offset ++ le32 0)))

/-- SPI_FLASH_MD5 over the region. -/
def md5Cmd (io : RomIo) : Cmd where
  op := opSpiFlashMd5
  data := le32 io.offset ++ (le32 io.len ++ (le32 0 ++ le32 0))

/-- FLASH_DATA of a block: header, the block with padding, and its checksum. -/
def dataCmd (seq : Word) (bytes : List Byte) : Cmd where
  op := opFlashData
  data := le32 (BitVec.ofNat 32 espRomBlock) ++ (le32 seq ++ (le32 0 ++ (le32 0 ++ bytes.rightpad espRomBlock 0xFF)))
  checksum := (bytes.rightpad espRomBlock 0xFF).foldl (fun chk b => chk ^^^ b.setWidth 32) 0xEF

/-- `"%02x"` of every byte. -/
def hex (digest : List Byte) : List Byte :=
  let digit (n : Nat) : Byte := BitVec.ofNat 8 (if n < 10 then 0x30 + n else 0x57 + n)
  digest.flatMap fun b => [digit (b.toNat / 16), digit (b.toNat % 16)]

namespace Link

variable (link : Link)

def sendCmd (cmd : Cmd) (input : Input) (timeoutMs : Word) : Link :=
  { link with
    job :=
      { link.job with
        op := cmd.op
        inFrame := false
        esc := false
        resp := []
        deadline := input.sendNow + input.wireMs + timeoutMs }
    sent := link.sent ++ [cmd] }

def finish (result : Int) : Link := { link with job := { link.job with result, phase := .done } }

def sendSync (input : Input) : Link := link.sendCmd syncCmd input espRomSyncTimeoutMs

def sendPkt (input : Input) : Link := link.sendCmd link.job.pkt input espRomDataTimeoutMs

/-- `send_block`, and the end of the job when the image cannot be read. -/
def sendBlock (io : RomIo) (input : Input) : Link :=
  let off := link.job.seq * BitVec.ofNat 32 espRomBlock
  let n := if io.len - off < BitVec.ofNat 32 espRomBlock then (io.len - off).toNat else espRomBlock
  match io.read off.toNat n with
  | none => link.finish espRomErrRead
  | some bytes =>
    let job :=
      { link.job with
        pkt := dataCmd link.job.seq bytes
        hashed := link.job.hashed ++ bytes
        attempt := 1 }
    { link with job }.sendPkt input

def sendMd5 (io : RomIo) (input : Input) : Link :=
  link.sendCmd (md5Cmd io) input (5000 + BitVec.ofNat 32 (io.len.toNat / 1024 * 16))

def sendEnd (result : Int) (input : Input) : Link :=
  { link with job := { link.job with pendingResult := result, phase := .end_ } }.sendCmd endCmd input 1000

/-- Note an answer that was taken. -/
def take (phase : Phase) : Reply → Link
  | .ok _ payload tags => { link with answers := link.answers ++ [⟨phase, payload, tags⟩] }
  | _ => link

end Link

/-- The reply is an answer without an error. -/
def Reply.isOk : Reply → Bool
  | .ok .. => true
  | _ => false

section Step

variable (md5 : List Byte → Vector Byte 16) (io : RomIo) (link : Link) (input : Input)

/-- `esp_rom_job_step` on a reply or a missed deadline. -/
def onReply (reply : Reply) : Link :=
  let job := link.job
  match job.phase with
  | .idle | .done => link
  | .sync =>
    if reply.isOk then { link with job := { job with phase := .magic } }.sendCmd magicCmd input 200
    else if job.attempt < espRomSyncAttempts then
      { link with job := { job with attempt := job.attempt + 1 } }.sendSync input
    else link.finish espRomErrSync
  | .magic =>
    let chipMagic := match reply with
      | .ok value _ _ => value
      | _ => job.chipMagic
    { link with job := { job with chipMagic, phase := .attach } }.sendCmd attachCmd input 1000
  | .attach =>
    { link with job := { job with phase := .begin } }.sendCmd (beginCmd io job.blocks) input espRomBeginTimeoutMs
  | .begin =>
    if reply.isOk then { link with job := { job with phase := .data, seq := 0 } }.sendBlock io input
    else link.finish espRomErrBegin
  | .data =>
    if reply.isOk then
      let seq := job.seq + 1
      if seq < job.blocks then { link with job := { job with seq } }.sendBlock io input
      else
        { link with job := { job with seq, wantMd5 := hex (md5 job.hashed).toList, phase := .md5, attempt := 1 } }.sendMd5
          io input
    else if espRomDataAttempts ≤ job.attempt then link.finish espRomErrData
    else
      let resends := if job.attempt = 1 then job.resends + 1 else job.resends
      { link with job := { job with resends, attempt := job.attempt + 1 } }.sendPkt input
  | .md5 =>
    let again :=
      if job.attempt < espRomMd5Attempts then
        { link with job := { job with attempt := job.attempt + 1, md5Retries := job.md5Retries + 1 } }.sendMd5
          io input
      else link.sendEnd espRomUnverified input
    match reply with
    | .ok _ payload _ =>
      if payload.length < 32 then again
      else
        let job := { job with gotMd5 := payload.take 32 }
        if job.gotMd5 ≠ job.wantMd5 then { link with job }.finish espRomErrMd5
        else { link with job }.sendEnd espRomOk input
    | _ => again
  | .end_ => link.finish job.pendingResult

/-- `esp_rom_job_step`. -/
def jobStep : Link :=
  if link.job.phase = .idle ∨ link.job.phase = .done then link
  else
    match pollReply link.job input with
    | (job, .pending) => { link with job }
    | (job, reply) => onReply md5 io ({ link with job }.take job.phase reply) input reply

/-- `esp_rom_job_start`, with the UART and the clock there. -/
def jobStart : Link :=
  let job : Job := { blocks := (io.len + BitVec.ofNat 32 (espRomBlock - 1)) / BitVec.ofNat 32 espRomBlock, phase := .idle }
  if io.len = 0 then Link.finish { job } espRomErrArgs
  else Link.sendSync { job := { job with phase := .sync } } input

end Step

end BenchPod.EspRom
