import BenchPod.Dap.Recording
import Mathlib.Data.List.GetD

/-!
# What a packet reads and writes

A packet's answer is within the response, and nothing behind the packet is looked at, but for one
command: a DAP_SWJ_Sequence takes the bits that its count asks for, whether the packet has them or not.
-/

namespace BenchPod.Dap

open Endian

/-- The same packet, with other memory behind it. -/
structure Agree (req other : Request) : Prop where
  len : other.len = req.len
  byte : ∀ i < req.len, other.byte i = req.byte i

/-- A packet takes nothing from behind its bytes, and answers within the response. -/
structure Bounded (t : Target) (d : State) (p : Packet) : Prop where
  reads : ∀ other, Agree p.req other → d.process t other p.queue p.respCap = d.process t p.req p.queue p.respCap
  writes : ∀ i, packetSize ≤ i → (d.after t p).resp i = d.resp i
  answer : ∃ n ≤ packetSize, (d.process t p.req p.queue p.respCap).2 = some n

/-- A DAP_SWJ_Sequence that has fewer bytes than its bits need. -/
def ShortSwj (p : Packet) : Prop :=
  p.req.len ≠ 0 ∧ packetSize ≤ p.respCap ∧ p.req.byte 0 = 0x12 ∧ 2 ≤ p.req.len ∧
    p.req.len < 2 + (State.swjBits p.req + 7) / 8

/-- A DAP_WriteABORT that goes into a record left open, before any transfer has noted a position. -/
def Lost (d : State) (p : Packet) : Prop :=
  p.req.len ≠ 0 ∧ packetSize ≤ p.respCap ∧ p.req.byte 0 = 0x08 ∧ 6 ≤ p.req.len ∧
    d.recording = true ∧ d.failed = false ∧ d.curRp = none

/-! ## What is read -/

variable {t : Target} {d : State} {req other : Request} {l : Loop} {request : Byte}

namespace Agree

variable (agree : Agree req other)

include agree in
theorem byteOr (p : Nat) : other.byteOr p = req.byteOr p := by
  rw [Request.byteOr, Request.byteOr, agree.len]
  split
  · next inside => exact agree.byte p inside
  · rfl

include agree in
theorem half {p : Nat} (inside : p + 2 ≤ req.len) : other.half p = req.half p := by
  rw [Request.half, Request.half, agree.byte p (by omega), agree.byte (p + 1) (by omega)]

include agree in
theorem word {p : Nat} (inside : p + 4 ≤ req.len) : other.word p = req.word p := by
  rw [Request.word, Request.word, agree.byte p (by omega), agree.byte (p + 1) (by omega),
    agree.byte (p + 2) (by omega), agree.byte (p + 3) (by omega)]

include agree in
theorem bitsAt {p nbits : Nat} (inside : p + (nbits + 7) / 8 ≤ req.len) :
    State.bitsAt other p nbits = State.bitsAt req p nbits := by
  rw [State.bitsAt, State.bitsAt]
  refine List.map_congr_left fun k member => ?_
  have less := List.mem_range.mp member
  rw [agree.byte (p + k / 8) (by omega)]

include agree in
theorem matchReadFrom {count p : Nat} : State.matchReadFrom other count p = State.matchReadFrom req count p := by
  induction count generalizing p with
  | zero => rfl
  | succ count ih =>
    simp only [State.matchReadFrom, agree.len]
    split
    · next inside => simp only [agree.byte p inside, ih]
    · rfl

include agree in
theorem hasMatchRead : State.hasMatchRead other = State.hasMatchRead req := by
  rw [State.hasMatchRead, State.hasMatchRead, agree.matchReadFrom, agree.byteOr]

include agree in
theorem matchRead : l.matchRead t other request = l.matchRead t req request := by
  simp only [Loop.matchRead, agree.len]
  split
  · rfl
  · next inside => rw [agree.word (by omega)]

include agree in
theorem readOne : l.readOne t other request = l.readOne t req request := by
  simp only [Loop.readOne, agree.matchRead]

include agree in
theorem writeOne : l.writeOne t other request = l.writeOne t req request := by
  simp only [Loop.writeOne, agree.len]
  congr 1
  funext l
  split
  · rfl
  · next inside => rw [agree.word (by omega)]

include agree in
theorem transferOne : l.transferOne t other = l.transferOne t req := by
  simp only [Loop.transferOne, agree.len]
  split
  · rfl
  · next inside => simp only [agree.byte l.p (by omega), agree.readOne, agree.writeOne]

include agree in
theorem blockWriteOne : l.blockWriteOne t other request = l.blockWriteOne t req request := by
  simp only [Loop.blockWriteOne, agree.len]
  split
  · rfl
  · next inside => rw [agree.word (by omega)]

include agree in
theorem doTransfer : d.doTransfer t other = d.doTransfer t req := by
  simp only [State.doTransfer, Loop.transfers, agree.byteOr, agree.transferOne]

include agree in
theorem doTransferBlock : d.doTransferBlock t other = d.doTransferBlock t req := by
  simp only [State.doTransferBlock, agree.len]
  split
  · rfl
  · simp only [agree.half (by omega : 2 + 2 ≤ req.len), agree.byte 4 (by omega), Loop.block,
      agree.blockWriteOne]

include agree in
theorem sequenceOne : State.sequenceOne t other l = State.sequenceOne t req l := by
  rw [State.sequenceOne, State.sequenceOne, agree.len]
  split
  · rfl
  · next inside =>
      rw [agree.byte l.p (by omega)]
      extract_lets info next nbits nbytes
      split
      · rfl
      · split
        · rfl
        · next whole => rw [agree.bitsAt (Nat.le_of_not_lt whole)]

include agree in
theorem doSwdSequence : d.doSwdSequence t other = d.doSwdSequence t req := by
  have same : State.sequenceOne t other = State.sequenceOne t req := funext fun l => agree.sequenceOne
  rw [State.doSwdSequence, State.doSwdSequence, same, agree.byteOr]

include agree in
theorem doInfo : d.doInfo other = d.doInfo req := by
  simp only [State.doInfo, agree.byteOr]

include agree in
theorem doTransferConfigure : d.doTransferConfigure other = d.doTransferConfigure req := by
  simp only [State.doTransferConfigure, agree.len]
  split
  · rw [agree.byte 1 (by omega), agree.half (by omega : 2 + 2 ≤ req.len),
      agree.half (by omega : 4 + 2 ≤ req.len)]
  · rfl

include agree in
theorem doWriteAbort : d.doWriteAbort t other = d.doWriteAbort t req := by
  simp only [State.doWriteAbort, agree.len]
  split
  · rw [agree.word (by omega)]
  · rfl

include agree in
theorem swjBits : State.swjBits other = State.swjBits req := by
  rw [State.swjBits, State.swjBits, agree.byteOr]

include agree in
theorem doSwjSequence (whole : 2 ≤ req.len → 2 + (State.swjBits req + 7) / 8 ≤ req.len) :
    d.doSwjSequence other = d.doSwjSequence req := by
  rw [State.doSwjSequence, State.doSwjSequence, agree.len]
  split
  · next inside => rw [agree.swjBits, agree.bitsAt (whole inside)]
  · rfl

include agree in
theorem command {queue : Bool} (some : req.len ≠ 0)
    (whole : req.byte 0 = 0x12 → 2 ≤ req.len → 2 + (State.swjBits req + 7) / 8 ≤ req.len) :
    d.command t other queue = d.command t req queue := by
  rw [State.command, State.command, agree.byte 0 (by omega)]
  split
  · exact agree.doInfo
  · rfl
  · have same : (1 < other.len ∧ other.byte 1 = 2) = (1 < req.len ∧ req.byte 1 = 2) := by
      rw [agree.len]
      exact propext (and_congr_right fun inside => by rw [agree.byte 1 inside])
    simp only [same]
  · rfl
  · rw [agree.doTransferConfigure]
  · rw [agree.doTransfer, agree.hasMatchRead]
  · rw [agree.doTransferBlock]
  · rw [agree.doWriteAbort]
  · rfl
  · rfl
  · rw [State.doSwjPins, State.doSwjPins, agree.byteOr, agree.byteOr]
  · rw [agree.len]
    split
    · next inside => rw [agree.word (by omega)]
    · rfl
  · next sequence => rw [agree.doSwjSequence (whole (BitVec.eq_of_toNat_eq sequence))]
  · rw [State.doSwdConfigure, State.doSwdConfigure, agree.byteOr]
  · exact agree.doSwdSequence
  · rfl

end Agree

theorem reads_of_whole {p : Packet} (whole : ¬ ShortSwj p) (agree : Agree p.req other) :
    d.process t other p.queue p.respCap = d.process t p.req p.queue p.respCap := by
  rw [State.process, State.process, agree.len]
  split
  · rfl
  · next accepted =>
      rw [not_or, Nat.not_lt] at accepted
      rw [State.accept, agree.byte 0 (by omega)]
      refine agree.command accepted.1 fun sequence two => Nat.le_of_not_lt fun short => whole ?_
      exact ⟨accepted.1, accepted.2, sequence, two, short⟩

theorem swjBits_pos (req : Request) : 0 < State.swjBits req := by
  rw [State.swjBits]
  split
  · decide
  · next some =>
      refine Nat.pos_of_ne_zero fun zero => some (BitVec.eq_of_toNat_eq zero)

theorem process_swj {p : Packet} (taken : p.req.len ≠ 0) (cap : packetSize ≤ p.respCap)
    (sequence : p.req.byte 0 = 0x12) (two : 2 ≤ p.req.len) :
    (d.process t p.req p.queue p.respCap).1.seen = d.seen ++ [.seqOut (State.bitsAt p.req 2 (State.swjBits p.req))] := by
  have accepted : ¬ (p.req.len = 0 ∨ p.respCap < packetSize) := not_or.mpr ⟨taken, Nat.not_lt.mpr cap⟩
  have sequence : (p.req.byte 0).toNat = 0x12 := by rw [sequence]; rfl
  rw [State.process, if_neg accepted, State.command, sequence]
  simp only [State.doSwjSequence, if_pos two]
  rfl

theorem reads_of_short {p : Packet} (short : ShortSwj p) :
    ∃ other, Agree p.req other ∧ d.process t other p.queue p.respCap ≠ d.process t p.req p.queue p.respCap := by
  obtain ⟨some, cap, sequence, two, short⟩ := short
  let other : Request := ⟨fun i => if i < p.req.len then p.req.byte i else ~~~ p.req.byte i, p.req.len⟩
  have agree : Agree p.req other := ⟨rfl, fun i inside => if_pos inside⟩
  refine ⟨other, agree, fun same => ?_⟩
  have sequence' : other.byte 0 = 0x12 := (agree.byte 0 (by omega)).trans sequence
  have seen_eq := congrArg (fun done : State × Option Nat => done.1.seen) same
  have there : (d.process t other p.queue p.respCap).1.seen =
      d.seen ++ [.seqOut (State.bitsAt other 2 (State.swjBits other))] :=
    process_swj (p := ⟨other, p.queue, p.respCap⟩) some cap sequence' two
  simp only [there, process_swj some cap sequence two, agree.swjBits] at seen_eq
  have bits_eq : State.bitsAt other 2 (State.swjBits p.req) = State.bitsAt p.req 2 (State.swjBits p.req) :=
    Wire.seqOut.inj (List.singleton_injective (List.append_cancel_left seen_eq))
  -- the last bit asked for lies behind the packet
  have positive := swjBits_pos p.req
  have last := congrArg (fun bits : List Bool => bits[State.swjBits p.req - 1]?) bits_eq
  have behind : ¬ 2 + (State.swjBits p.req - 1) / 8 < p.req.len := by omega
  simp only [State.bitsAt, List.getElem?_map, List.getElem?_range (by omega : State.swjBits p.req - 1 <
    State.swjBits p.req), Option.map_some, Option.some.injEq, other, if_neg behind] at last
  rw [BitVec.getLsbD_not, decide_eq_true (by omega), Bool.true_and] at last
  simp at last

/-! ## What is written -/

/-- What is recorded answers within the response. -/
structure Placed (d : State) : Prop where
  ops : ∀ entry ∈ d.ops, (∀ dst ∈ entry.dst, dst + 4 ≤ packetSize) ∧ ∃ rp ≤ packetSize, entry.rpAt = some rp
  failRp : d.failed = true → ∃ rp ≤ packetSize, d.failRp = some rp
  curRp : ∀ rp ∈ d.curRp, rp ≤ packetSize

/-- Nothing behind the response is written. -/
structure Fits (resp : Nat → Byte) (d : State) : Prop extends Placed d where
  beyond : ∀ i, packetSize ≤ i → d.resp i = resp i

/-- A position has been noted for what is recorded next. -/
structure Noted (resp : Nat → Byte) (d : State) : Prop extends Fits resp d where
  noted : d.recording = true → d.failed = false → ∃ rp, d.curRp = some rp

variable {resp : Nat → Byte}

theorem put_beyond {offset i : Nat} {bytes : List Byte} (room : offset + bytes.length ≤ packetSize)
    (le : packetSize ≤ i) : (d.put offset bytes).resp i = d.resp i := by
  simp only [State.put, written]
  split
  · exact List.getD_eq_default _ _ (by omega)
  · rfl

namespace Fits

theorem put {offset : Nat} {bytes : List Byte} (fits : Fits resp d)
    (room : offset + bytes.length ≤ packetSize) : Fits resp (d.put offset bytes) :=
  ⟨⟨fits.ops, fits.failRp, fits.curRp⟩, fun i le => (put_beyond room le).trans (fits.beyond i le)⟩

theorem placeReads {entries : List Recorded} {rdata : List Word} (fits : Fits resp d)
    (places : ∀ entry ∈ entries, ∀ dst ∈ entry.dst, dst + 4 ≤ packetSize) :
    Fits resp (State.placeReads entries rdata d) := by
  induction entries generalizing rdata d with
  | nil => exact fits
  | cons entry entries ih =>
    have rest : ∀ entry ∈ entries, ∀ dst ∈ entry.dst, dst + 4 ≤ packetSize :=
      fun later member => places later (List.mem_cons_of_mem _ member)
    simp only [State.placeReads]
    split
    · split
      · next dst at_dst =>
          refine ih (fits.put ?_) rest
          rw [le32_length]
          exact places entry (List.mem_cons_self ..) dst at_dst
      · exact ih fits rest
    · exact ih fits rest

theorem recFlush (fits : Fits resp d) : Fits resp (d.recFlush t).1 ∧ (d.recFlush t).1.curRp = d.curRp := by
  simp only [State.recFlush]
  split
  · exact ⟨fits, rfl⟩
  · split
    · exact ⟨fits, rfl⟩
    · generalize swdLlBatch t d.settings.batchRetry d.seen (d.ops.map Recorded.op) = batch
      have placed : Fits resp (State.placeReads (d.ops.take batch.done) batch.rdata d) :=
        fits.placeReads fun entry member => (fits.ops entry (List.mem_of_mem_take member)).1
      obtain ⟨after, only⟩ := placeReads_only_resp (d.ops.take batch.done) batch.rdata d
      rw [only] at placed ⊢
      split
      · next entry at_done =>
          have nothing : ∀ entry ∈ ([] : List Recorded), (∀ dst ∈ entry.dst, dst + 4 ≤ packetSize) ∧
              ∃ rp ≤ packetSize, entry.rpAt = some rp := List.forall_mem_nil _
          refine ⟨⟨⟨nothing, fun _ => ?_, fits.curRp⟩, placed.beyond⟩, rfl⟩
          exact (fits.ops entry (List.mem_of_getElem? at_done)).2
      · exact ⟨⟨⟨List.forall_mem_nil _, fits.failRp, fits.curRp⟩, placed.beyond⟩, rfl⟩

end Fits

namespace Noted

theorem store {rp : Nat} (value : Word) (room : rp + 4 ≤ packetSize) (noted : Noted resp d) :
    Noted resp (d.store rp value) := by
  rw [State.store]
  split
  · refine ⟨⟨⟨?_, noted.failRp, fun at_rp eq => ?_⟩, noted.beyond⟩, fun _ _ => ⟨_, rfl⟩⟩
    · obtain empty | ⟨front, last, split⟩ := List.eq_nil_or_concat' d.ops
      · simp only [empty]
        exact List.forall_mem_nil _
      · simp only [split, List.modifyLast_concat]
        intro entry member
        obtain member | member := List.mem_append.mp member
        · exact noted.ops entry (split ▸ List.mem_append_left _ member)
        · rw [List.mem_singleton.mp member]
          refine ⟨fun dst eq => ?_, ?_⟩
          · rw [← Option.some.inj eq]
            exact room
          · exact (noted.ops last (split ▸ List.mem_append_right _ (List.mem_singleton_self last))).2
    · rw [← Option.some.inj eq]
      exact room
  · have length : (le32 value).length = 4 := le32_length value
    exact ⟨noted.toFits.put (by omega), noted.noted⟩

theorem xfer (request : Byte) (value : Word) (noted : Noted resp d) : Noted resp (d.xfer t request value).1 := by
  simp only [State.xfer]
  split
  · next on =>
      split
      · exact noted
      · next fine =>
          obtain ⟨rp, cur⟩ := noted.noted on (Bool.eq_false_iff.mpr fine)
          have flush : ∀ flushed : State × Byte, flushed = (if d.ops.length = recMax then d.recFlush t else (d, ackOk)) →
              Fits resp flushed.1 ∧ flushed.1.curRp = d.curRp := by
            rintro _ rfl
            split
            · exact noted.toFits.recFlush
            · exact ⟨noted.toFits, rfl⟩
          generalize (if d.ops.length = recMax then d.recFlush t else (d, ackOk)) = flushed at *
          obtain ⟨fits, same⟩ := flush flushed rfl
          have now : flushed.1.curRp = some rp := same.trans cur
          split
          · exact ⟨fits, fun _ _ => ⟨rp, now⟩⟩
          · refine ⟨⟨⟨?_, fits.failRp, fits.curRp⟩, fits.beyond⟩, fun _ _ => ⟨rp, now⟩⟩
            intro entry member
            obtain member | member := List.mem_append.mp member
            · exact fits.ops entry member
            · rw [List.mem_singleton.mp member]
              refine ⟨?_, rp, fits.curRp rp now, now⟩
              intro dst eq
              cases eq
  · next off =>
      obtain ⟨count, budget, tried⟩ := xferTry_seen t (Op.of request value) d.settings.waitRetry d
      split
      · rw [tried]
        exact ⟨⟨⟨noted.ops, noted.failRp, noted.curRp⟩, noted.beyond⟩, noted.noted⟩
      · rw [tried]
        exact ⟨⟨⟨noted.ops, noted.failRp, noted.curRp⟩, noted.beyond⟩, noted.noted⟩

end Noted

namespace Fits

theorem kept (resp : Nat → Byte) : Kept t (Fits resp) (Noted resp) where
  setCur count room fits := by
    refine ⟨⟨⟨fits.ops, fits.failRp, fun at_rp eq => ?_⟩, fits.beyond⟩, fun _ _ => ⟨_, rfl⟩⟩
    rw [← Option.some.inj eq]
    exact room
  between noted := noted.toFits
  xfer request value noted := noted.xfer request value
  store value room noted := noted.store value room
  setMask _ noted := ⟨⟨⟨noted.ops, noted.failRp, noted.curRp⟩, noted.beyond⟩, noted.noted⟩
  budget _ noted := ⟨⟨⟨noted.ops, noted.failRp, noted.curRp⟩, noted.beyond⟩, noted.noted⟩

theorem finish (fits : Fits resp l.d) (room : l.rp ≤ packetSize) :
    Fits resp (State.finish t l).d ∧ ∃ n ≤ packetSize, (State.finish t l).rp = some n := by
  simp only [State.finish]
  split
  · have flushed : Fits resp (l.d.recFlush t).1 := fits.recFlush.1
    have ended : Fits resp (l.d.recEnd t) := ⟨⟨flushed.ops, flushed.failRp, flushed.curRp⟩, flushed.beyond⟩
    split
    · next failed => exact ⟨ended, ended.failRp failed⟩
    · exact ⟨ended, l.rp, room, rfl⟩
  · exact ⟨fits, l.rp, room, rfl⟩

theorem recBegin (fits : Fits resp d) : Fits resp d.recBegin := by
  refine ⟨⟨List.forall_mem_nil _, fun failed => ?_, fits.curRp⟩, fits.beyond⟩
  cases failed

end Fits

/-- A command's answer is within the response. -/
def Answers (resp : Nat → Byte) (done : State × Option Nat) : Prop :=
  Fits resp done.1 ∧ ∃ n ≤ packetSize, done.2 = some n

namespace Fits

theorem answer {n : Nat} (fits : Fits resp d) (room : n ≤ packetSize) : Answers resp (d, some n) := ⟨fits, n, room, rfl⟩

theorem set (settings : Settings) (fits : Fits resp d) : Fits resp { d with settings } :=
  ⟨⟨fits.ops, fits.failRp, fits.curRp⟩, fits.beyond⟩

theorem line (wire : Wire) (fits : Fits resp d) : Fits resp (d.line wire) :=
  ⟨⟨fits.ops, fits.failRp, fits.curRp⟩, fits.beyond⟩

theorem doTransfer (fits : Fits resp d) : Answers resp (d.doTransfer t req) := by
  have room : Room (Fits resp) 0 (({ d, p := 3, rp := 3, ack := 0 } : Loop).transfers t req (req.byteOr 2).toNat) :=
    (kept resp).transfers fits rfl
  have finished := finish (t := t) room.1 room.2
  exact ⟨finished.1.put (by simp only [List.length_cons, List.length_nil, packetSize]; decide), finished.2⟩

theorem doTransferBlock (fits : Fits resp d) : Answers resp (d.doTransferBlock t req) := by
  simp only [State.doTransferBlock]
  split
  · exact (fits.put (by decide)).answer (by decide)
  · split
    · exact (fits.put (by decide)).answer (by decide)
    · have room : Room (Fits resp) 0
          (({ d, p := 5, rp := 4, ack := ackOk } : Loop).block t req (req.byte 4) (req.half 2)) :=
        (kept resp).block fits rfl
      have finished := finish (t := t) room.1 room.2
      exact ⟨finished.1.put (by simp only [List.length_cons, List.length_nil, packetSize]; decide), finished.2⟩

theorem doInfo (fits : Fits resp d) : Answers resp (d.doInfo req) := by
  simp only [State.doInfo]
  split
  · exact (fits.put (by decide)).answer (by decide)
  · exact (fits.put (by simp [packetSize])).answer (by decide)
  · exact (fits.put (by simp [packetSize])).answer (by decide)
  · exact (fits.put (by decide)).answer (by decide)
  · exact (fits.put (by decide)).answer (by decide)

theorem doSwdSequence (fits : Fits resp d) : Answers resp (d.doSwdSequence t req) := by
  have ends : (Flow.times (State.sequenceOne t req) (req.byteOr 1).toNat
      { d := d.put 1 [0], p := 2, rp := 2, ack := 0 }).Ends (Room (Fits resp) 0) (Room (Fits resp) 0) := by
    refine Flow.times_ends (fun l room => ?_) ⟨fits.put (by decide), by simp [packetSize]⟩
    rw [State.sequenceOne]
    split
    · exact room
    · extract_lets info next nbits nbytes
      split
      · split
        · exact ⟨room.1.put (by decide), room.2⟩
        · next inside =>
            have length : (State.packed (t.sample next.d.seen) nbits).length = nbytes := by
              rw [State.packed, List.length_map, List.length_range]
            exact ⟨(room.1.line _).put (by rw [length]; omega), by simp only; omega⟩
      · split
        · exact room
        · exact ⟨room.1.line _, room.2⟩
  obtain room | room := ends.state <;> exact ⟨room.1, _, room.2, rfl⟩

theorem doWriteAbort (fits : Fits resp d)
    (noted : 6 ≤ req.len → d.recording = true → d.failed = false → ∃ rp, d.curRp = some rp) :
    Answers resp (d.doWriteAbort t req) := by
  rw [State.doWriteAbort]
  split
  · next whole =>
      have noted : Noted resp d := ⟨fits, noted whole⟩
      have done : Noted resp (d.xfer t abortWrite (req.word 2)).1 := noted.xfer abortWrite (req.word 2)
      exact (done.toFits.put (by simp [packetSize])).answer (by decide)
  · exact (fits.put (by decide)).answer (by decide)

theorem command {queue : Bool} (fits : Fits resp d)
    (found : req.byte 0 = 0x08 → 6 ≤ req.len → d.recording = true → d.failed = false →
      ∃ rp, d.curRp = some rp) :
    Answers resp (d.command t req queue) := by
  have one (d : State) (byte : Byte) (fits : Fits resp d) : Answers resp (d.put 1 [byte], some 2) :=
    (fits.put (by simp [packetSize])).answer (by decide)
  rw [State.command]
  split
  · exact fits.doInfo
  · exact one d 0 fits
  · exact one d _ fits
  · exact one d 0 fits
  · refine one _ 0 ?_
    rw [State.doTransferConfigure]
    split
    · exact (fits.set _).line _
    · exact fits
  · refine doTransfer ?_
    split
    · exact fits.recBegin
    · exact fits
  · refine doTransferBlock ?_
    split
    · exact fits.recBegin
    · exact fits
  · next abort => exact fits.doWriteAbort (found (BitVec.eq_of_toNat_eq abort))
  · exact one d 0 fits
  · exact (fits.put (by decide)).answer (by decide)
  · rw [State.doSwjPins]
    refine one _ _ ?_
    split
    · exact fits.line _
    · exact fits
  · refine one _ 0 ?_
    split
    · exact fits.line _
    · exact fits
  · rw [State.doSwjSequence]
    refine one _ 0 ?_
    split
    · exact fits.line _
    · exact fits
  · exact one _ 0 (fits.set _)
  · exact fits.doSwdSequence
  · exact (fits.put (by decide)).answer (by decide)

theorem process {p : Packet} (fits : Fits resp d) (found : ¬ Lost d p) :
    Answers resp (d.process t p.req p.queue p.respCap) := by
  have start : Fits resp { d with acked := [] } := ⟨⟨fits.ops, fits.failRp, fits.curRp⟩, fits.beyond⟩
  rw [State.process]
  split
  · exact (start.put (by decide)).answer (by decide)
  · next accepted =>
      have begun : Fits resp (d.accept p.req) := by
        have put : Fits resp (({ d with acked := [] } : State).put 0 [p.req.byte 0]) := start.put (by simp [packetSize])
        exact ⟨⟨put.ops, put.failRp, put.curRp⟩, put.beyond⟩
      rw [not_or, Nat.not_lt] at accepted
      refine begun.command fun abort whole on fine => Option.ne_none_iff_exists'.mp fun none => found ?_
      exact ⟨accepted.1, accepted.2, abort, whole, on, fine, none⟩

end Fits

theorem Placed.after {p : Packet} (placed : Placed d) (found : ¬ Lost d p) : Placed (d.after t p) := by
  have fits : Fits d.resp d := ⟨placed, fun _ _ => rfl⟩
  exact (fits.process found).1.toPlaced

theorem Placed.run {packets : List Packet} (placed : Placed d)
    (found : ∀ front p, front ++ [p] <+: packets → ¬ Lost (d.run t front) p) : Placed (d.run t packets) := by
  induction packets using List.reverseRecOn with
  | nil => exact placed
  | append_singleton packets p ih =>
    have before := ih fun front last early => found front last (early.trans (List.prefix_append ..))
    have after := before.after (t := t) (found packets p (List.prefix_refl _))
    rw [State.run, List.foldl_append]
    exact after

/-- In a run that loses no abort's position, a packet is read and answered within bounds exactly when it
is no short DAP_SWJ_Sequence. -/
theorem read_and_answered_within (t : Target) (start : State) (packets : List Packet) (placed : Placed start)
    (found : ∀ front p, front ++ [p] <+: packets → ¬ Lost (start.run t front) p) :
    ∀ front p, front ++ [p] <+: packets → (Bounded t (start.run t front) p ↔ ¬ ShortSwj p) := by
  intro front p before
  have here : Placed (start.run t front) := placed.run fun front' last early =>
    found front' last (early.trans ((List.prefix_append front [p]).trans before))
  have fits : Fits (start.run t front).resp (start.run t front) := ⟨here, fun _ _ => rfl⟩
  have answers := fits.process (t := t) (found front p before)
  constructor
  · intro bounded short
    obtain ⟨other, agree, differs⟩ := reads_of_short (t := t) (d := start.run t front) short
    exact differs (bounded.reads other agree)
  · intro whole
    exact ⟨fun other agree => reads_of_whole whole agree, answers.1.beyond, answers.2⟩

theorem whole_swj_within : Bounded willing ({} : State).reset (queued [0x12, 8, 0x55]) := by
  have placed : Placed ({} : State).reset := by
    refine ⟨List.forall_mem_nil _, fun failed => ?_, fun rp eq => ?_⟩
    · cases failed
    · cases eq
  refine (read_and_answered_within willing ({} : State).reset [queued [0x12, 8, 0x55]] placed ?_ [] _
    (List.prefix_refl _)).mpr ?_
  · rintro front p before ⟨-, -, abort, -⟩
    rw [(prefix_single before).2] at abort
    exact absurd abort (by decide)
  · rintro ⟨-, -, -, -, short⟩
    exact absurd short (by decide)

/-- A target that faults every transfer. -/
def faulting : Target := ⟨fun _ _ => ⟨4, 0, true⟩, fun _ _ => false⟩

/-- A DAP_SWJ_Sequence of 8 bits without its byte sends what lies behind it.  And an abort recorded
behind a DAP_TransferBlock of one byte has no position: when it fails, the answer's length is none. -/
theorem swj_takes_byte_behind :
    ¬ Bounded willing ({} : State).reset (queued [0x12, 8]) ∧
      ¬ Bounded faulting (({} : State).reset.run faulting [queued [0x06], queued [0x08, 0, 1, 0, 0, 0]])
        (queued [0x05, 0, 1, 0x12, 0, 0, 0, 0]) := by
  constructor
  · intro bounded
    have agree : Agree (queued [0x12, 8]).req ⟨fun i => [0x12, 8, 0xFF].getD i 0, 2⟩ := by
      refine ⟨rfl, fun i inside => ?_⟩
      obtain rfl | rfl : i = 0 ∨ i = 1 := by
        have inside : i < 2 := inside
        omega
      · rfl
      · rfl
    have same := congrArg (fun done : State × Option Nat => done.1.seen) (bounded.reads _ agree)
    exact absurd same (by decide)
  · intro bounded
    obtain ⟨n, -, answer⟩ := bounded.answer
    have none_eq : (({} : State).reset.run faulting [queued [0x06], queued [0x08, 0, 1, 0, 0, 0]]
        |>.process faulting (queued [0x05, 0, 1, 0x12, 0, 0, 0, 0]).req true packetSize).2 = none := by
      decide +kernel
    cases none_eq.symm.trans answer

end BenchPod.Dap
