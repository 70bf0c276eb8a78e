import BenchPod.EspRom.Job
import BenchPod.Library.Emitter

/-!
# What a job of the ESP32-C3 loader reports

A job that ends verified had an answer with the MD5 of its image.  Every block was acknowledged only as far
as the answers that were taken belong to the block in flight: they are told apart by their opcode alone.
-/

namespace BenchPod.EspRom

open Endian

/-- Only the receiver of the job has moved. -/
def SameJob (job job' : Job) : Prop := ∃ statusLen inFrame esc resp, job' = { job with statusLen, inFrame, esc, resp }

section Receive

variable {job : Job}

theorem SameJob.refl (job : Job) : SameJob job job := ⟨job.statusLen, job.inFrame, job.esc, job.resp, rfl⟩

theorem SameJob.trans {first second third : Job} (left : SameJob first second) (right : SameJob second third) :
    SameJob first third := by
  obtain ⟨_, _, _, _, rfl⟩ := left
  obtain ⟨statusLen, inFrame, esc, resp, rfl⟩ := right
  exact ⟨statusLen, inFrame, esc, resp, rfl⟩

theorem evalFrame_same (job : Job) : SameJob job (evalFrame job).1 := by
  simp only [evalFrame]
  generalize (if job.statusLen = 0 then
    (if (rd16 (((job.resp.map Prod.fst).drop 2).take 2)).toNat = 4 then 4 else 2) else job.statusLen) = statusLen
  split
  · exact .refl job
  split
  · exact .refl job
  split
  · exact ⟨statusLen, job.inFrame, job.esc, job.resp, rfl⟩
  split
  · exact ⟨statusLen, job.inFrame, job.esc, job.resp, rfl⟩
  · exact ⟨statusLen, job.inFrame, job.esc, job.resp, rfl⟩

theorem push_same (job : Job) (c : RxByte) : SameJob job (push job c) := by
  rw [push]
  split
  · exact ⟨job.statusLen, job.inFrame, job.esc, _, rfl⟩
  · exact .refl job

theorem rxByte_same (job : Job) (c : RxByte) : SameJob job (rxByte job c).1 := by
  simp only [rxByte]
  split
  · split
    · obtain ⟨statusLen, inFrame, esc, resp, same⟩ := evalFrame_same job
      rw [same]
      split
      · exact ⟨statusLen, _, _, _, rfl⟩
      · exact ⟨statusLen, inFrame, _, _, rfl⟩
    · exact ⟨job.statusLen, _, job.esc, job.resp, rfl⟩
  split
  · exact .refl job
  split
  · exact SameJob.trans ⟨job.statusLen, job.inFrame, false, job.resp, rfl⟩ (push_same _ _)
  split
  · exact ⟨job.statusLen, job.inFrame, true, job.resp, rfl⟩
  · exact push_same job c

theorem drain_same (job : Job) (rx : List RxByte) : SameJob job (drain job rx).1 := by
  induction rx generalizing job with
  | nil => exact .refl job
  | cons c rx ih =>
    have first := rxByte_same job c
    rw [drain]
    split
    · rename_i job' taken
      rw [taken] at first
      exact first.trans (ih job')
    · exact first

theorem pollReply_same (job : Job) (input : Input) : SameJob job (pollReply job input).1 := by
  have drained := drain_same job input.rx
  rw [pollReply]
  split
  · rename_i job' taken
    rw [taken] at drained
    exact drained
  · exact drained

end Receive

/-- The blocks of the image. -/
def blockCount (io : RomIo) : Nat := (io.len.toNat + (espRomBlock - 1)) / espRomBlock

/-- A block of the image, the last one possibly short. -/
def chunk (io : RomIo) (k : Nat) : List Byte := (io.source.drop (k * espRomBlock)).take espRomBlock

/-- The FLASH_DATA command that carries a block. -/
def blockCmd (io : RomIo) (k : Nat) : Cmd := dataCmd (BitVec.ofNat 32 k) (chunk io k)

section Moves

variable (md5 : List Byte → Vector Byte 16) (io : RomIo) (link : Link) (input : Input)

/-- Where a reply or a missed deadline takes a job that is running. -/
inductive Moved : Reply → Link → Prop
  | synced {reply} (now : link.job.phase = .sync) :
      Moved reply ({ link with job := { link.job with phase := .magic } }.sendCmd magicCmd input 200)
  | syncAgain {reply} (now : link.job.phase = .sync) (left : link.job.attempt < espRomSyncAttempts) :
      Moved reply ({ link with job := { link.job with attempt := link.job.attempt + 1 } }.sendSync input)
  | syncFailed {reply} (now : link.job.phase = .sync) : Moved reply (link.finish espRomErrSync)
  | magic {reply} (now : link.job.phase = .magic) (chipMagic : Word) :
      Moved reply ({ link with job := { link.job with chipMagic, phase := .attach } }.sendCmd attachCmd input 1000)
  | attached {reply} (now : link.job.phase = .attach) :
      Moved reply ({ link with job := { link.job with phase := .begin } }.sendCmd (beginCmd io link.job.blocks) input
        espRomBeginTimeoutMs)
  | begun {reply} (now : link.job.phase = .begin) :
      Moved reply ({ link with job := { link.job with phase := .data, seq := 0 } }.sendBlock io input)
  | beginFailed {reply} (now : link.job.phase = .begin) : Moved reply (link.finish espRomErrBegin)
  | nextBlock {reply} (now : link.job.phase = .data) (ok : reply.isOk) (more : link.job.seq + 1 < link.job.blocks) :
      Moved reply ({ link with job := { link.job with seq := link.job.seq + 1 } }.sendBlock io input)
  | lastBlock {reply} (now : link.job.phase = .data) (ok : reply.isOk) (last : ¬link.job.seq + 1 < link.job.blocks) :
      Moved reply ({ link with
        job := { link.job with
          seq := link.job.seq + 1
          wantMd5 := hex (md5 link.job.hashed).toList
          phase := .md5
          attempt := 1 } }.sendMd5 io input)
  | dataFailed {reply} (now : link.job.phase = .data) : Moved reply (link.finish espRomErrData)
  | blockAgain {reply} (now : link.job.phase = .data) (left : link.job.attempt < espRomDataAttempts) (resends : Nat) :
      Moved reply ({ link with job := { link.job with resends, attempt := link.job.attempt + 1 } }.sendPkt input)
  | md5Again {reply} (now : link.job.phase = .md5) (left : link.job.attempt < espRomMd5Attempts) :
      Moved reply ({ link with
        job := { link.job with
          attempt := link.job.attempt + 1
          md5Retries := link.job.md5Retries + 1 } }.sendMd5 io input)
  | unverified {reply} (now : link.job.phase = .md5) : Moved reply (link.sendEnd espRomUnverified input)
  | mismatch {value payload tags} (now : link.job.phase = .md5) :
      Moved (.ok value payload tags)
        ({ link with job := { link.job with gotMd5 := payload.take 32 } }.finish espRomErrMd5)
  | verified {value payload tags} (now : link.job.phase = .md5) (same : payload.take 32 = link.job.wantMd5) :
      Moved (.ok value payload tags)
        ({ link with job := { link.job with gotMd5 := payload.take 32 } }.sendEnd espRomOk input)
  | ended {reply} (now : link.job.phase = .end_) : Moved reply (link.finish link.job.pendingResult)

/-- A reply to a running job makes one of the moves. -/
theorem onReply_moved (reply : Reply) (running : ¬(link.job.phase = .idle ∨ link.job.phase = .done)) :
    Moved md5 io link input reply (onReply md5 io link input reply) := by
  have again (now : link.job.phase = .md5) : Moved md5 io link input reply (if link.job.attempt < espRomMd5Attempts then
        { link with job := { link.job with attempt := link.job.attempt + 1, md5Retries := link.job.md5Retries + 1 } }.sendMd5
          io input
      else link.sendEnd espRomUnverified input) := by
    split
    case isTrue left => exact .md5Again now left
    case isFalse => exact .unverified now
  simp only [onReply]
  split
  case h_1 now => exact (running (.inl now)).elim
  case h_2 now => exact (running (.inr now)).elim
  case h_3 now =>
    split
    · exact .synced now
    split
    case isTrue left => exact .syncAgain now left
    case isFalse => exact .syncFailed now
  case h_4 now => exact .magic now _
  case h_5 now => exact .attached now
  case h_6 now =>
    split
    · exact .begun now
    · exact .beginFailed now
  case h_7 now =>
    split
    case isTrue ok =>
      split
      case isTrue more => exact .nextBlock now ok more
      case isFalse last => exact .lastBlock now ok last
    case isFalse =>
      split
      · exact .dataFailed now
      case isFalse left => exact .blockAgain now (Nat.lt_of_not_le left) _
  case h_8 now =>
    split
    · split
      · exact again now
      split
      · exact .mismatch now
      case isFalse same => exact .verified now (Decidable.of_not_not same)
    · exact again now
  case h_9 now => exact .ended now

end Moves

section Image

variable (io : RomIo)

theorem source_length : io.source.length = io.len.toNat := by
  rw [RomIo.source]
  cases io.image with
  | none => exact List.length_replicate
  | some image => exact image.length_toList

theorem take_chunk (k : Nat) :
    io.source.take (k * espRomBlock) ++ chunk io k = io.source.take ((k + 1) * espRomBlock) := by
  rw [chunk, Nat.succ_mul, List.take_add]

theorem take_blocks {n : Nat} (all : blockCount io ≤ n) : io.source.take (n * espRomBlock) = io.source := by
  apply List.take_of_length_le
  rw [source_length]
  simp only [blockCount, espRomBlock] at all ⊢
  omega

variable {io}

theorem read_chunk {seq : Word} {bytes : List Byte} (inside : seq.toNat < blockCount io)
    (small : io.len.toNat + (espRomBlock - 1) < 2 ^ 32)
    (got : io.read (seq * BitVec.ofNat 32 espRomBlock).toNat
      (if io.len - seq * BitVec.ofNat 32 espRomBlock < BitVec.ofNat 32 espRomBlock then
        (io.len - seq * BitVec.ofNat 32 espRomBlock).toNat else espRomBlock) = some bytes) :
    bytes = chunk io seq.toNat := by
  have start : (seq * BitVec.ofNat 32 espRomBlock).toNat = seq.toNat * espRomBlock := by
    simp only [blockCount, espRomBlock] at inside small ⊢
    rw [BitVec.toNat_mul, BitVec.toNat_ofNat]
    omega
  have below : seq.toNat * espRomBlock < io.len.toNat := by
    simp only [blockCount, espRomBlock] at inside ⊢
    omega
  have left : (io.len - seq * BitVec.ofNat 32 espRomBlock).toNat = io.len.toNat - seq.toNat * espRomBlock := by
    rw [BitVec.toNat_sub_of_le (by rw [BitVec.le_def, start]; exact Nat.le_of_lt below), start]
  rw [RomIo.read, start] at got
  split at got
  · cases got
  rw [← Option.some.inj got, chunk]
  split
  case isFalse => rfl
  case isTrue short =>
    have short : io.len.toNat - seq.toNat * espRomBlock < espRomBlock := by
      rw [BitVec.lt_def, left] at short
      exact short
    rw [left, List.take_of_length_le, List.take_of_length_le]
    · rw [List.length_drop, source_length]
      exact Nat.le_of_lt short
    · exact Nat.le_of_eq (by rw [List.length_drop, source_length])

end Image

/-- The ROM gave the MD5 of the region it was asked for, and it is the MD5 of the image. -/
structure Verified (md5 : List Byte → Vector Byte 16) (io : RomIo) (link : Link) : Prop where
  hashed : link.job.hashed = io.source
  asked : md5Cmd io ∈ link.sent
  given : ∃ answer ∈ link.answers, answer.phase = .md5 ∧ answer.payload.take 32 = hex (md5 io.source).toList

/-- A job while a block is in flight. -/
structure InData (io : RomIo) (link : Link) : Prop where
  inside : link.job.seq.toNat < blockCount io
  pkt : link.job.pkt = blockCmd io link.job.seq.toNat
  hashed : link.job.hashed = io.source.take ((link.job.seq.toNat + 1) * espRomBlock)
  attempt : link.job.attempt ≤ espRomDataAttempts
  sent : link.sent.length ≤ 13 + espRomDataAttempts * link.job.seq.toNat + link.job.attempt

/-- A job that asks for the MD5. -/
structure InMd5 (md5 : List Byte → Vector Byte 16) (io : RomIo) (link : Link) : Prop where
  hashed : link.job.hashed = io.source
  wantMd5 : link.job.wantMd5 = hex (md5 io.source).toList
  asked : md5Cmd io ∈ link.sent
  attempt : link.job.attempt ≤ espRomMd5Attempts
  sent : link.sent.length ≤ 13 + espRomDataAttempts * blockCount io + link.job.attempt

/-- The most commands a job sends. -/
def sentBound (io : RomIo) : Nat := 17 + espRomDataAttempts * blockCount io

/-- Where a job stands, phase by phase. -/
def Stage (md5 : List Byte → Vector Byte 16) (io : RomIo) (link : Link) : Prop :=
  match link.job.phase with
  | .idle => False
  | .sync => link.job.hashed = [] ∧ link.job.attempt ≤ espRomSyncAttempts ∧ link.sent.length ≤ link.job.attempt
  | .magic => link.job.hashed = [] ∧ link.sent.length ≤ 11
  | .attach => link.job.hashed = [] ∧ link.sent.length ≤ 12
  | .begin => link.job.hashed = [] ∧ link.sent.length ≤ 13
  | .data => InData io link
  | .md5 => InMd5 md5 io link
  | .end_ => (link.job.pendingResult = espRomOk → Verified md5 io link) ∧ link.sent.length ≤ sentBound io
  | .done => (link.job.result = espRomOk → Verified md5 io link) ∧ link.sent.length ≤ sentBound io

/-- A job between two steps. -/
structure Sound (md5 : List Byte → Vector Byte 16) (io : RomIo) (link : Link) : Prop where
  blocks : link.job.blocks.toNat = blockCount io
  md5s : ∀ cmd ∈ link.sent, cmd.op = opSpiFlashMd5 → cmd = md5Cmd io
  stage : Stage md5 io link

section Kept

variable {md5 : List Byte → Vector Byte 16} {io : RomIo} {link : Link} {input : Input}

theorem sound_fail {result : Int} (blocks : link.job.blocks.toNat = blockCount io)
    (md5s : ∀ cmd ∈ link.sent, cmd.op = opSpiFlashMd5 → cmd = md5Cmd io) (within : link.sent.length ≤ sentBound io)
    (fails : result ≠ espRomOk) : Sound md5 io (link.finish result) :=
  ⟨blocks, md5s, fun ok => (fails ok).elim, within⟩

theorem md5s_append {sent : List Cmd} {cmd : Cmd} (md5s : ∀ cmd ∈ sent, cmd.op = opSpiFlashMd5 → cmd = md5Cmd io)
    (new : cmd.op = opSpiFlashMd5 → cmd = md5Cmd io) :
    ∀ cmd' ∈ sent ++ [cmd], cmd'.op = opSpiFlashMd5 → cmd' = md5Cmd io := by
  intro cmd' member
  obtain old | rfl := List.mem_append.mp member |>.imp_right List.mem_singleton.mp
  · exact md5s cmd' old
  · exact new

theorem dataCmd_op (seq : Word) (bytes : List Byte) : (dataCmd seq bytes).op ≠ opSpiFlashMd5 := by
  show opFlashData ≠ opSpiFlashMd5
  decide

theorem sound_sendBlock (small : io.len.toNat + (espRomBlock - 1) < 2 ^ 32) (sound : link.job.blocks.toNat = blockCount io)
    (md5s : ∀ cmd ∈ link.sent, cmd.op = opSpiFlashMd5 → cmd = md5Cmd io) (now : link.job.phase = .data)
    (inside : link.job.seq.toNat < blockCount io)
    (hashed : link.job.hashed = io.source.take (link.job.seq.toNat * espRomBlock))
    (sent : link.sent.length ≤ 13 + espRomDataAttempts * link.job.seq.toNat) :
    Sound md5 io (link.sendBlock io input) := by
  simp only [Link.sendBlock]
  split
  · refine ⟨sound, md5s, fun ok => ((by decide : espRomErrRead ≠ espRomOk) ok).elim, ?_⟩
    show link.sent.length ≤ sentBound io
    simp only [sentBound, espRomDataAttempts] at sent ⊢
    omega
  case h_2 bytes got =>
    obtain rfl := read_chunk inside small got
    have pkt : dataCmd link.job.seq (chunk io link.job.seq.toNat) = blockCmd io link.job.seq.toNat := by
      rw [blockCmd, BitVec.ofNat_toNat, BitVec.setWidth_eq]
    refine ⟨sound, md5s_append md5s fun op => (dataCmd_op _ _ op).elim, ?_⟩
    simp only [Stage, Link.sendPkt, Link.sendCmd, now]
    refine ⟨inside, pkt, ?_, (by decide : 1 ≤ espRomDataAttempts), ?_⟩
    · show link.job.hashed ++ chunk io link.job.seq.toNat = _
      rw [hashed, take_chunk]
    · rw [List.length_append]
      exact Nat.succ_le_succ sent

theorem InData.within (stage : InData io link) : link.sent.length + 1 ≤ sentBound io := by
  obtain ⟨inside, -, -, attempt, sent⟩ := stage
  simp only [sentBound, espRomDataAttempts] at attempt sent ⊢
  omega

theorem InMd5.within (stage : InMd5 md5 io link) : link.sent.length + 1 ≤ sentBound io := by
  obtain ⟨-, -, -, attempt, sent⟩ := stage
  simp only [sentBound, espRomDataAttempts, espRomMd5Attempts] at attempt sent ⊢
  omega

theorem seq_next (blocks : link.job.blocks.toNat = blockCount io) (inside : link.job.seq.toNat < blockCount io) :
    (link.job.seq + 1).toNat = link.job.seq.toNat + 1 := by
  apply BitVec.toNat_add_of_lt
  exact Nat.lt_of_le_of_lt (Nat.le_trans inside (Nat.le_of_eq blocks.symm)) link.job.blocks.isLt

/-- Every move keeps the books. -/
theorem Moved.sound {reply : Reply} {after : Link} (moved : Moved md5 io link input reply after)
    (small : io.len.toNat + (espRomBlock - 1) < 2 ^ 32) (some_block : 0 < blockCount io) (sound : Sound md5 io link)
    (taken : ∀ value payload tags, reply = .ok value payload tags → ⟨link.job.phase, payload, tags⟩ ∈ link.answers) :
    Sound md5 io after := by
  obtain ⟨blocks, md5s, stage⟩ := sound
  have few : 13 ≤ sentBound io := by
    rw [sentBound]
    omega
  have another {n : Nat} (cmd : Cmd) (room : link.sent.length + 1 ≤ n) : (link.sent ++ [cmd]).length ≤ n := by
    rwa [List.length_append, List.length_singleton]
  cases moved with
  | synced now =>
    rw [Stage, now] at stage
    obtain ⟨hashed, attempt, sent⟩ := stage
    refine ⟨blocks, md5s_append md5s fun op => absurd op (by decide), hashed, ?_⟩
    exact another magicCmd (Nat.succ_le_succ (Nat.le_trans sent attempt))
  | syncAgain now left =>
    rw [Stage, now] at stage
    obtain ⟨hashed, attempt, sent⟩ := stage
    refine ⟨blocks, md5s_append md5s fun op => absurd op (by decide), ?_⟩
    simp only [Stage, Link.sendSync, Link.sendCmd, now]
    exact ⟨hashed, left, another syncCmd (Nat.succ_le_succ sent)⟩
  | syncFailed now =>
    rw [Stage, now] at stage
    obtain ⟨-, attempt, sent⟩ := stage
    exact sound_fail blocks md5s (Nat.le_trans (Nat.le_trans sent attempt) (Nat.le_trans (by decide) few)) (by decide)
  | magic now chipMagic =>
    rw [Stage, now] at stage
    refine ⟨blocks, md5s_append md5s fun op => absurd op (by decide), stage.1, ?_⟩
    exact another attachCmd (Nat.succ_le_succ stage.2)
  | attached now =>
    rw [Stage, now] at stage
    refine ⟨blocks, md5s_append md5s fun op => ?_, stage.1, ?_⟩
    · exact absurd (show opFlashBegin = opSpiFlashMd5 from op) (by decide)
    · exact another (beginCmd io link.job.blocks) (Nat.succ_le_succ stage.2)
  | begun now =>
    rw [Stage, now] at stage
    refine sound_sendBlock small blocks md5s rfl some_block ?_ stage.2
    simpa using stage.1
  | beginFailed now =>
    rw [Stage, now] at stage
    exact sound_fail blocks md5s (Nat.le_trans stage.2 few) (by decide)
  | nextBlock now ok more =>
    rw [Stage, now] at stage
    obtain ⟨inside, -, hashed, attempt, sent⟩ := stage
    have next := seq_next blocks inside
    refine sound_sendBlock small blocks md5s now ?_ ?_ ?_
    · rw [BitVec.lt_def, blocks] at more
      exact more
    · show link.job.hashed = _
      rw [hashed, next]
    · show link.sent.length ≤ 13 + espRomDataAttempts * (link.job.seq + 1).toNat
      rw [next, Nat.mul_succ]
      omega
  | lastBlock now ok last =>
    rw [Stage, now] at stage
    obtain ⟨inside, -, hashed, attempt, sent⟩ := stage
    have all : blockCount io ≤ link.job.seq.toNat + 1 := by
      rw [BitVec.lt_def, seq_next blocks inside, blocks] at last
      exact Nat.le_of_not_lt last
    have whole : link.job.hashed = io.source := by rw [hashed, take_blocks io all]
    refine ⟨blocks, md5s_append md5s fun _ => rfl, whole, ?_, List.mem_append_right _ (List.mem_singleton_self _), ?_, ?_⟩
    · show (hex (md5 link.job.hashed).toList) = _
      rw [whole]
    · exact (by decide : 1 ≤ espRomMd5Attempts)
    · refine another (md5Cmd io) (Nat.succ_le_succ ?_)
      simp only [espRomDataAttempts] at attempt sent ⊢
      omega
  | dataFailed now =>
    rw [Stage, now] at stage
    exact sound_fail blocks md5s (Nat.le_of_succ_le stage.within) (by decide)
  | blockAgain now left resends =>
    rw [Stage, now] at stage
    obtain ⟨inside, pkt, hashed, attempt, sent⟩ := stage
    refine ⟨blocks, md5s_append md5s fun op => ?_, ?_⟩
    · exact (dataCmd_op _ _ (by rwa [pkt] at op)).elim
    · simp only [Stage, Link.sendPkt, Link.sendCmd, now]
      exact ⟨inside, pkt, hashed, left, another _ (Nat.succ_le_succ sent)⟩
  | md5Again now left =>
    rw [Stage, now] at stage
    obtain ⟨hashed, wantMd5, asked, attempt, sent⟩ := stage
    refine ⟨blocks, md5s_append md5s fun _ => rfl, ?_⟩
    simp only [Stage, Link.sendMd5, Link.sendCmd, now]
    exact ⟨hashed, wantMd5, List.mem_append_left _ asked, left, another _ (Nat.succ_le_succ sent)⟩
  | unverified now =>
    rw [Stage, now] at stage
    refine ⟨blocks, md5s_append md5s fun op => absurd op (by decide), fun ok => absurd ok ?_, ?_⟩
    · exact (by decide : espRomUnverified ≠ espRomOk)
    · exact another endCmd stage.within
  | @mismatch value payload tags now =>
    rw [Stage, now] at stage
    refine ⟨blocks, md5s, fun ok => absurd ok (by decide : espRomErrMd5 ≠ espRomOk), ?_⟩
    exact Nat.le_of_succ_le stage.within
  | @verified value payload tags now same =>
    rw [Stage, now] at stage
    refine ⟨blocks, md5s_append md5s fun op => absurd op (by decide), fun _ => ?_, ?_⟩
    · refine ⟨stage.hashed, List.mem_append_left _ stage.asked, _, taken value payload tags rfl, now, ?_⟩
      exact same.trans stage.wantMd5
    · exact another endCmd stage.within
  | ended now =>
    rw [Stage, now] at stage
    refine ⟨blocks, md5s, fun ok => ?_, stage.2⟩
    have verified := stage.1 ok
    exact ⟨verified.hashed, verified.asked, verified.given⟩

end Kept

/-- The transmission that a byte answers. -/
def Link.answered (link : Link) (tag : Option Nat) : Option Cmd := tag.bind fun i => link.sent[i]?

/-- The ROM acknowledged a transmission of a block. -/
def Acked (io : RomIo) (link : Link) (k : Nat) : Prop :=
  ∃ answer ∈ link.answers, answer.phase = .data ∧ answer.tags ≠ [] ∧
    ∀ tag ∈ answer.tags, link.answered tag = some (blockCmd io k)

instance (io : RomIo) (link : Link) (k : Nat) : Decidable (Acked io link k) :=
  inferInstanceAs (Decidable (∃ answer ∈ link.answers, _))

/-- A result that says the blocks are written. -/
def Written (result : Int) : Prop := result = espRomOk ∨ result = espRomUnverified

/-- The blocks that are acknowledged, phase by phase. -/
def Acks (io : RomIo) (link : Link) : Prop :=
  match link.job.phase with
  | .data => ∀ k < link.job.seq.toNat, Acked io link k
  | .md5 | .end_ => ∀ k < blockCount io, Acked io link k
  | .done => Written link.job.result → ∀ k < blockCount io, Acked io link k
  | _ => True

/-- The mark of a job: what it has sent, and its end. -/
def mark (link : Link) : Nat := link.sent.length + if link.job.phase = .done then 1 else 0

section Acknowledged

variable {md5 : List Byte → Vector Byte 16} {io : RomIo} {link : Link} {input : Input}

theorem Acked.mono {after : Link} {k : Nat} (acked : Acked io link k) (answers : link.answers ⊆ after.answers)
    (sent : link.sent <+: after.sent) : Acked io after k := by
  obtain ⟨answer, member, phase, tags, owners⟩ := acked
  refine ⟨answer, answers member, phase, tags, fun tag tagged => ?_⟩
  have owner := owners tag tagged
  obtain ⟨more, grown⟩ := sent
  cases tag with
  | none => cases owner
  | some i =>
    rw [Link.answered, Option.bind_some] at owner ⊢
    rw [← grown, List.getElem?_append_left (List.getElem?_eq_some_iff.mp owner).1]
    exact owner

/-- What a move adds: a command that is sent, or the end. -/
structure Grows (link after : Link) : Prop where
  answers : after.answers = link.answers
  sent : link.sent <+: after.sent
  mark : link.sent.length < mark after

theorem grows_sendCmd (cmd : Cmd) (timeoutMs : Word) {before : Link} (answers : before.answers = link.answers)
    (sent : before.sent = link.sent) : Grows link (before.sendCmd cmd input timeoutMs) := by
  refine ⟨answers, ⟨[cmd], by rw [← sent]; rfl⟩, Nat.lt_of_lt_of_le ?_ (Nat.le_add_right _ _)⟩
  show link.sent.length < (before.sent ++ [cmd]).length
  rw [sent, List.length_append]
  exact Nat.lt_succ_self _

theorem grows_finish (result : Int) {before : Link} (answers : before.answers = link.answers)
    (sent : before.sent = link.sent) : Grows link (before.finish result) := by
  refine ⟨answers, ⟨[], by rw [List.append_nil, ← sent]; rfl⟩, ?_⟩
  show link.sent.length < before.sent.length + 1
  rw [sent]
  exact Nat.lt_succ_self _

theorem grows_sendBlock {before : Link} (answers : before.answers = link.answers) (sent : before.sent = link.sent) :
    Grows link (before.sendBlock io input) := by
  simp only [Link.sendBlock]
  split
  · exact grows_finish _ answers sent
  · exact grows_sendCmd _ _ answers sent

theorem Moved.grows {reply : Reply} {after : Link} (moved : Moved md5 io link input reply after) : Grows link after := by
  cases moved with
  | syncFailed | beginFailed | dataFailed | mismatch | ended => exact grows_finish _ rfl rfl
  | begun | nextBlock => exact grows_sendBlock rfl rfl
  | synced | syncAgain | magic | attached | lastBlock | blockAgain | md5Again | unverified | verified =>
    exact grows_sendCmd _ _ rfl rfl

theorem acks_fail {result : Int} (fails : ¬Written result) : Acks io (link.finish result) :=
  fun written => (fails written).elim

theorem acks_sendBlock {before : Link} (now : before.job.phase = .data)
    (acked : ∀ k < before.job.seq.toNat, Acked io (before.sendBlock io input) k) :
    Acks io (before.sendBlock io input) := by
  revert acked
  simp only [Link.sendBlock]
  split
  · intro _
    exact acks_fail (by unfold Written; decide)
  · intro acked
    simp only [Acks, Link.sendPkt, Link.sendCmd, now]
    exact acked

/-- Every move keeps the acknowledgements, when the answer to a block belongs to it. -/
theorem Moved.acks {reply : Reply} {after : Link} (moved : Moved md5 io link input reply after)
    (sound : Sound md5 io link) (acks : Acks io link)
    (credit : link.job.phase = .data → reply.isOk → Acked io link link.job.seq.toNat) : Acks io after := by
  have grows := moved.grows
  have still {k : Nat} (acked : Acked io link k) : Acked io after k :=
    acked.mono (grows.answers ▸ List.Subset.refl _) grows.sent
  have failed {result : Int} (negative : result < 0) : ¬Written result := by
    rintro (rfl | rfl) <;> exact absurd negative (by decide)
  have stage := sound.stage
  cases moved with
  | synced | magic | attached => exact trivial
  | syncAgain now => simp only [Acks, Link.sendSync, Link.sendCmd, now]
  | syncFailed | beginFailed | dataFailed | mismatch => exact acks_fail (failed (by decide))
  | begun now =>
    refine acks_sendBlock rfl fun k below => ?_
    exact absurd below (Nat.not_lt_zero k)
  | nextBlock now ok more =>
    rw [Stage, now] at stage
    rw [Acks, now] at acks
    refine acks_sendBlock now fun k below => still ?_
    rw [show _ = _ from seq_next sound.blocks stage.inside] at below
    obtain earlier | rfl := Nat.lt_succ_iff_lt_or_eq.mp below
    · exact acks k earlier
    · exact credit now ok
  | lastBlock now ok last =>
    rw [Stage, now] at stage
    rw [Acks, now] at acks
    intro k below
    rw [BitVec.lt_def, seq_next sound.blocks stage.inside, sound.blocks] at last
    obtain earlier | rfl := Nat.lt_succ_iff_lt_or_eq.mp (Nat.lt_of_lt_of_le below (Nat.le_of_not_lt last))
    · exact still (acks k earlier)
    · exact still (credit now ok)
  | blockAgain now left resends =>
    rw [Acks, now] at acks
    simp only [Acks, Link.sendPkt, Link.sendCmd, now]
    exact fun k below => still (acks k below)
  | md5Again now left =>
    rw [Acks, now] at acks
    simp only [Acks, Link.sendMd5, Link.sendCmd, now]
    exact fun k below => still (acks k below)
  | unverified now | verified now =>
    rw [Acks, now] at acks
    exact fun k below => still (acks k below)
  | ended now =>
    rw [Acks, now] at acks
    exact fun _ k below => still (acks k below)

end Acknowledged

/-- The job has been started and has not ended. -/
def Link.Running (link : Link) : Prop := ¬(link.job.phase = .idle ∨ link.job.phase = .done)

instance (link : Link) : Decidable link.Running := inferInstanceAs (Decidable ¬_)

/-- The job step after step; a step that finds the deadline passed is noted. -/
def espJob (md5 : List Byte → Vector Byte 16) (io : RomIo) : Emitter Link Input Unit where
  step := jobStep md5 io
  emit link input := if link.Running ∧ reached input.now link.job.deadline then some () else none

/-- An answer is to transmissions of the packet in flight. -/
def Reply.Belongs (link : Link) : Reply → Prop
  | .ok _ _ tags => tags ≠ [] ∧ ∀ tag ∈ tags, link.answered tag = some link.job.pkt
  | _ => True

instance (link : Link) : ∀ reply : Reply, Decidable (reply.Belongs link)
  | .pending | .failed _ => isTrue trivial
  | .ok _ _ tags => inferInstanceAs (Decidable (tags ≠ [] ∧ _))

/-- While a block is in flight an answer that is taken belongs to it. -/
def Current (link : Link) (input : Input) : Prop := link.job.phase = .data → (pollReply link.job input).2.Belongs link

instance (link : Link) (input : Input) : Decidable (Current link input) := inferInstanceAs (Decidable (_ → _))

/-- Only the receiver has moved, and an answer may have been noted. -/
structure Polled (link after : Link) : Prop where
  same : SameJob link.job after.job
  sent : after.sent = link.sent
  answers : link.answers ⊆ after.answers

/-- What a step of a running job does: it polls, and on a reply it makes a move. -/
inductive Stepped (md5 : List Byte → Vector Byte 16) (io : RomIo) (link : Link) (input : Input) : Link → Prop
  | waits {after} (polled : Polled link after) (early : reached input.now link.job.deadline = false) :
      Stepped md5 io link input after
  | moves {before after reply} (polled : Polled link before) (same : (pollReply link.job input).2 = reply)
      (taken : ∀ value payload tags, reply = .ok value payload tags → ⟨link.job.phase, payload, tags⟩ ∈ before.answers)
      (moved : Moved md5 io before input reply after) : Stepped md5 io link input after

section Runs

variable {md5 : List Byte → Vector Byte 16} {io : RomIo} {link after : Link} {input : Input}

theorem Polled.sound (polled : Polled link after) (sound : Sound md5 io link) : Sound md5 io after := by
  obtain ⟨⟨statusLen, inFrame, esc, resp, same⟩, sent, answers⟩ := polled
  obtain ⟨job, sent', answers'⟩ := after
  obtain ⟨blocks, md5s, stage⟩ := sound
  subst same sent
  refine ⟨blocks, md5s, ?_⟩
  cases now : link.job.phase <;> rw [Stage, now] at stage <;> simp only [Stage]
  case idle | sync | magic | attach | begin => exact stage
  case data => exact ⟨stage.inside, stage.pkt, stage.hashed, stage.attempt, stage.sent⟩
  case md5 => exact ⟨stage.hashed, stage.wantMd5, stage.asked, stage.attempt, stage.sent⟩
  case end_ | done =>
    refine ⟨fun ok => ?_, stage.2⟩
    obtain ⟨hashed, asked, answer, member, given⟩ := stage.1 ok
    exact ⟨hashed, asked, answer, answers member, given⟩

theorem Polled.acks (polled : Polled link after) (acks : Acks io link) : Acks io after := by
  obtain ⟨⟨statusLen, inFrame, esc, resp, same⟩, sent, answers⟩ := polled
  obtain ⟨job, sent', answers'⟩ := after
  subst same sent
  have still {k : Nat} (acked : Acked io link k) :
      Acked io ⟨{ link.job with statusLen, inFrame, esc, resp }, link.sent, answers'⟩ k :=
    acked.mono answers (List.prefix_refl _)
  cases now : link.job.phase <;> rw [Acks, now] at acks <;> simp only [Acks]
  case data | md5 | end_ => exact fun k below => still (acks k below)
  case done => exact fun written k below => still (acks written k below)

theorem polled_take {job : Job} (same : SameJob link.job job) (phase : Phase) (reply : Reply) :
    Polled link ({ link with job }.take phase reply) ∧ ({ link with job }.take phase reply).job = job := by
  cases reply with
  | pending => exact ⟨⟨same, rfl, List.Subset.refl _⟩, rfl⟩
  | failed rc => exact ⟨⟨same, rfl, List.Subset.refl _⟩, rfl⟩
  | ok value payload tags => exact ⟨⟨same, rfl, List.subset_append_left _ _⟩, rfl⟩

theorem pollReply_pending (pending : (pollReply link.job input).2 = .pending) :
    reached input.now link.job.deadline = false := by
  have same := drain_same link.job input.rx
  rw [pollReply] at pending
  split at pending
  case h_1 job drained =>
    rw [drained] at same
    obtain ⟨statusLen, inFrame, esc, resp, rfl⟩ := same
    by_contra late
    rw [Bool.not_eq_false] at late
    rw [if_pos late] at pending
    cases pending
  case h_2 answers => exact (answers _ (Prod.ext rfl pending)).elim

theorem jobStep_stepped (running : link.Running) : Stepped md5 io link input (jobStep md5 io link input) := by
  have same := pollReply_same link.job input
  rw [jobStep, if_neg running]
  split
  case h_1 job polled =>
    rw [polled] at same
    exact .waits ⟨same, rfl, List.Subset.refl _⟩ (pollReply_pending (by rw [polled]))
  case h_2 job reply _ polled =>
    rw [polled] at same
    have phase : job.phase = link.job.phase := by
      obtain ⟨_, _, _, _, rfl⟩ := same
      rfl
    obtain ⟨noted, there⟩ := polled_take same job.phase reply
    refine .moves noted (by rw [polled]) ?_ (onReply_moved md5 io _ input reply ?_)
    · rintro value payload tags rfl
      rw [← phase]
      exact List.mem_append_right _ (List.mem_singleton_self _)
    · rw [there, phase]
      exact running

theorem jobStep_stopped (stopped : ¬link.Running) : jobStep md5 io link input = link := by
  rw [jobStep, if_pos (Decidable.of_not_not stopped)]

theorem sound_jobStep (small : io.len.toNat + (espRomBlock - 1) < 2 ^ 32) (some_block : 0 < blockCount io)
    (sound : Sound md5 io link) : Sound md5 io (jobStep md5 io link input) := by
  by_cases running : link.Running
  · cases @jobStep_stepped md5 io link input running with
    | waits polled early => exact polled.sound sound
    | @moves before _ reply polled same taken moved =>
      refine moved.sound small some_block (polled.sound sound) fun value payload tags ok => ?_
      obtain ⟨_, _, _, _, job⟩ := polled.same
      rw [job]
      exact taken value payload tags ok
  · rwa [jobStep_stopped running]

theorem acks_jobStep (sound : Sound md5 io link) (acks : Acks io link) (current : Current link input) :
    Acks io (jobStep md5 io link input) := by
  by_cases running : link.Running
  · cases @jobStep_stepped md5 io link input running with
    | waits polled early => exact polled.acks acks
    | @moves before _ reply polled same taken moved =>
      refine moved.acks (polled.sound sound) (polled.acks acks) fun now ok => ?_
      obtain ⟨_, _, _, _, job⟩ := polled.same
      rw [job] at now ⊢
      cases reply with
      | pending => cases ok
      | failed rc => cases ok
      | ok value payload tags =>
        have belongs := current now
        rw [same] at belongs
        obtain ⟨some_tag, owners⟩ := belongs
        have stage := sound.stage
        rw [Stage, show link.job.phase = .data from now] at stage
        refine ⟨_, taken value payload tags rfl, now, some_tag, fun tag tagged => ?_⟩
        rw [Link.answered, polled.sent]
        exact (owners tag tagged).trans (congrArg some stage.pkt)
  · rwa [jobStep_stopped running]

theorem mark_jobStep (link : Link) (input : Input) :
    mark link + ((espJob md5 io).emit link input).toList.length ≤ mark ((espJob md5 io).step link input) := by
  show mark link + (if link.Running ∧ reached input.now link.job.deadline then some () else none).toList.length ≤
    mark (jobStep md5 io link input)
  by_cases running : link.Running
  · have start : mark link = link.sent.length := by
      rw [mark, if_neg fun ended => running (.inr ended)]
      rfl
    cases @jobStep_stepped md5 io link input running with
    | waits polled early =>
      rw [if_neg (fun late => by rw [early] at late; exact absurd late.2 (by decide)), start, mark, polled.sent]
      exact Nat.le_add_right _ _
    | @moves before _ reply polled same taken moved =>
      have grows := moved.grows.mark
      rw [polled.sent] at grows
      rw [start]
      split
      · exact grows
      · exact Nat.le_of_lt grows
  · rw [jobStep_stopped running, if_neg (fun late => running late.1)]
    exact Nat.le_refl _

theorem sound_start (small : io.len.toNat + (espRomBlock - 1) < 2 ^ 32) : Sound md5 io (jobStart io input) := by
  have blocks : ((io.len + BitVec.ofNat 32 (espRomBlock - 1)) / BitVec.ofNat 32 espRomBlock).toNat = blockCount io := by
    rw [BitVec.toNat_udiv, BitVec.toNat_add_of_lt small]
    rfl
  rw [jobStart]
  split
  · exact sound_fail blocks (by simp) (Nat.zero_le _) (by decide)
  · refine ⟨blocks, md5s_append (by simp) fun op => absurd op (by decide), rfl, ?_, Nat.le_refl 1⟩
    exact (by decide : 1 ≤ espRomSyncAttempts)

theorem acks_start : Acks io (jobStart io input) := by
  rw [jobStart]
  split
  · exact acks_fail (by unfold Written; decide)
  · exact trivial

theorem mark_start : mark (jobStart io input) = 1 := by
  rw [jobStart]
  split <;> rfl

theorem running_start (running : (jobStart io input).Running) : 0 < blockCount io := by
  rw [jobStart] at running
  split at running
  · exact (running (.inr rfl)).elim
  case isFalse some_byte =>
    have some_byte : io.len.toNat ≠ 0 := fun zero => some_byte (BitVec.eq_of_toNat_eq zero)
    simp only [blockCount, espRomBlock]
    omega

theorem running_jobStep (running : (jobStep md5 io link input).Running) : link.Running := by
  by_contra stopped
  rw [jobStep_stopped stopped] at running
  exact stopped running

theorem Sound.sent_le (sound : Sound md5 io link) : link.sent.length ≤ sentBound io := by
  have stage := sound.stage
  have few : 13 ≤ sentBound io := by
    rw [sentBound]
    omega
  cases now : link.job.phase <;> rw [Stage, now] at stage
  case idle => exact stage.elim
  case sync =>
    obtain ⟨-, attempt, sent⟩ := stage
    simp only [espRomSyncAttempts] at attempt
    omega
  case magic | attach | begin =>
    have := stage.2
    omega
  case data => exact Nat.le_of_succ_le stage.within
  case md5 => exact Nat.le_of_succ_le stage.within
  case end_ => exact stage.2
  case done => exact stage.2

end Runs

section Reports

variable {md5 : List Byte → Vector Byte 16} {io : RomIo} {first : Input} {inputs : List Input}

/-- The books of a job that runs only with blocks. -/
def Books (md5 : List Byte → Vector Byte 16) (io : RomIo) (link : Link) : Prop :=
  Sound md5 io link ∧ (link.Running → 0 < blockCount io)

theorem books_start (small : io.len.toNat + (espRomBlock - 1) < 2 ^ 32) : Books md5 io (jobStart io first) :=
  ⟨sound_start small, running_start⟩

theorem books_jobStep {link : Link} {input : Input} (small : io.len.toNat + (espRomBlock - 1) < 2 ^ 32)
    (books : Books md5 io link) : Books md5 io (jobStep md5 io link input) := by
  obtain ⟨sound, blocks⟩ := books
  refine ⟨?_, fun running => blocks (running_jobStep running)⟩
  by_cases running : link.Running
  · exact sound_jobStep small (blocks running) sound
  · rwa [jobStep_stopped running]

theorem sound_run (small : io.len.toNat + (espRomBlock - 1) < 2 ^ 32) :
    Sound md5 io ((espJob md5 io).run (jobStart io first) inputs) :=
  (((espJob md5 io).along_true _ inputs).invariant _ (Books md5 io) (fun books _ => books_jobStep small books)
    (books_start small)).1

theorem acks_run (small : io.len.toNat + (espRomBlock - 1) < 2 ^ 32)
    (along : (espJob md5 io).Along Current (jobStart io first) inputs) :
    Acks io ((espJob md5 io).run (jobStart io first) inputs) := by
  refine (along.invariant _ (fun link => Books md5 io link ∧ Acks io link) ?_ ⟨books_start small, acks_start⟩).2
  rintro link input ⟨books, acks⟩ current
  exact ⟨books_jobStep small books, acks_jobStep books.1 acks current⟩

/-- A job reports only what happened.  Whatever arrives and whatever the clock, a verified result had the MD5 of
the image from the ROM, every MD5 asked for is over the region, and the commands sent and the deadlines missed
are so many at most.  While no answer to another block is taken for the one in flight, a result that says the
image is written has every block acknowledged. -/
theorem job_reports (md5 : List Byte → Vector Byte 16) (io : RomIo) (first : Input) (inputs : List Input)
    (small : io.len.toNat + (espRomBlock - 1) < 2 ^ 32) :
    let last := (espJob md5 io).run (jobStart io first) inputs
    (last.job.phase = .done → last.job.result = espRomOk → Verified md5 io last) ∧
      (∀ cmd ∈ last.sent, cmd.op = opSpiFlashMd5 → cmd = md5Cmd io) ∧
      last.sent.length ≤ 17 + espRomDataAttempts * blockCount io ∧
      ((espJob md5 io).emitted (jobStart io first) inputs).length ≤ 17 + espRomDataAttempts * blockCount io ∧
      ((espJob md5 io).Along Current (jobStart io first) inputs → last.job.phase = .done →
        last.job.result = espRomOk ∨ last.job.result = espRomUnverified → ∀ k < blockCount io, Acked io last k) := by
  intro last
  have sound : Sound md5 io last := sound_run small
  have within : last.sent.length ≤ sentBound io := sound.sent_le
  refine ⟨fun now ok => ?_, sound.md5s, within, ?_, fun along now written => ?_⟩
  · have stage := sound.stage
    rw [Stage, now] at stage
    exact stage.1 ok
  · have marks := (espJob md5 io).emitted_length mark_jobStep (jobStart io first) inputs
    have most : mark last ≤ last.sent.length + 1 := by
      rw [mark]
      split <;> omega
    rw [mark_start] at marks
    have total := Nat.le_trans marks (Nat.le_trans most (Nat.succ_le_succ within))
    rw [sentBound] at total
    omega
  · have acks : Acks io last := acks_run small along
    rw [Acks, now] at acks
    exact acks written

end Reports

/-- An answer of the ROM to a transmission, with a status of no error. -/
def romAnswer (op : Byte) (payload : List Byte) (tag : Nat) : List RxByte :=
  (slipEnd :: 0x01 :: op :: (le16 (BitVec.ofNat 16 (payload.length + 4)) ++ (le32 0 ++ (payload ++ le32 0))) ++
    [slipEnd]).map fun b => (b, some tag)

/-- A step at a time, with what has arrived. -/
def arrive (now : Word) (rx : List RxByte) : Input := ⟨rx, now, now, 0⟩

/-- An erase of two blocks. -/
def twoBlocks : RomIo where
  len := 2048
  offset := 0x9000
  image := none
  readFails _ := false

/-- The MD5 of two erased blocks. -/
def twoBlocksMd5 : Vector Byte 16 := #v[0xe0, 0xde, 0xeb, 0xd3, 0xc3, 0xf5, 0x60, 0x21, 0x2a, 0xf1, 0x7c, 0x68, 0xb9, 0x34, 0x4b, 0xae]

/-- Up to the first block. -/
def opening : List Input :=
  [arrive 1 (romAnswer opSync [] 0), arrive 2 (romAnswer opReadReg [] 1), arrive 3 (romAnswer opSpiAttach [] 2),
    arrive 4 (romAnswer opFlashBegin [] 3)]

/-- Two blocks that are answered at once. -/
theorem job_reports_erase :
    let inputs := opening ++ [arrive 5 (romAnswer opFlashData [] 4), arrive 6 (romAnswer opFlashData [] 5),
      arrive 7 (romAnswer opSpiFlashMd5 (hex twoBlocksMd5.toList) 6), arrive 8 (romAnswer opFlashEnd [] 7)]
    let last := (espJob (fun _ => twoBlocksMd5) twoBlocks).run (jobStart twoBlocks (arrive 0 [])) inputs
    last.job.result = espRomOk ∧ Verified (fun _ => twoBlocksMd5) twoBlocks last ∧
      ∀ k < 2, Acked twoBlocks last k := by
  intro inputs last
  have reports := job_reports (fun _ => twoBlocksMd5) twoBlocks (arrive 0 []) inputs (by decide)
  have ended : last.job.phase = .done ∧ last.job.result = espRomOk := by decide +kernel
  have current : (espJob (fun _ => twoBlocksMd5) twoBlocks).Along Current (jobStart twoBlocks (arrive 0 [])) inputs := by
    decide +kernel
  exact ⟨ended.2, reports.1 ended.1 ended.2, reports.2.2.2.2 current ended.1 (.inl ended.2)⟩

/-- The second answer to a block that was sent twice is taken for the next block, of which the ROM never says a
word; the MD5 does not come and the job reports every block acknowledged. -/
theorem late_answer_counts :
    let inputs := opening ++ [arrive 4000 [], arrive 4001 (romAnswer opFlashData [] 4),
      arrive 4002 (romAnswer opFlashData [] 5), arrive 10000 [], arrive 20000 [], arrive 30000 [], arrive 40000 []]
    let last := (espJob (fun _ => twoBlocksMd5) twoBlocks).run (jobStart twoBlocks (arrive 0 [])) inputs
    last.job.phase = .done ∧ last.job.result = espRomUnverified ∧ ¬Acked twoBlocks last 1 ∧
      ∀ input ∈ inputs, ∀ c ∈ input.rx, last.answered c.2 ≠ some (blockCmd twoBlocks 1) := by
  decide +kernel

end BenchPod.EspRom
