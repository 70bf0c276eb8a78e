import BenchPod.Dap.Alike

/-!
# With the queue as without it

A run of packets with the gateware's queue answers, drives the line and sets what it sets as the run
without it, when no packet leaves its record open, sets the match mask behind an operation that is not
answered OK, or stops a queue that it has filled.
-/

namespace BenchPod.Dap

variable {t : Target} {d single : State} {request : Byte} {req : Request} {l l' : Loop} {plan : Plan}

/-! ## The plans -/

theorem Plan.finish_positioned {rp count count' : Nat} {rp' : Option Nat} {ack : Byte} {posted : Bool} :
    Positioned count' rp' (Plan.finish rp count ack posted).acts := by
  cases posted with
  | false => exact trivial
  | true => exact ⟨rfl, rfl, fun _ => by decide, trivial⟩

theorem Plan.flush_positioned {rp count : Nat} {posted : Bool}
    (positioned : Positioned count (some (if posted then rp + 4 else rp)) plan.acts) :
    Positioned count (some rp) (Plan.flush rp count posted plan).acts := by
  cases posted with
  | false => exact positioned
  | true => exact ⟨rfl, rfl, fun _ => by decide, positioned⟩

theorem Plan.transfers_positioned {more p rp count count' : Nat} {rp' : Option Nat} {ack : Byte}
    {posted : Bool} : Positioned count' rp' (Plan.transfers req more p rp count ack posted).acts := by
  induction more generalizing p rp count count' rp' ack posted with
  | zero => exact Plan.finish_positioned
  | succ more ih =>
    rw [Plan.transfers]
    split
    · exact Plan.finish_positioned
    · split
      · exact Plan.finish_positioned
      · simp only
        split
        · next read =>
            split
            · exact ⟨rfl, rfl, fun _ => read, ih⟩
            · exact Plan.flush_positioned ⟨rfl, rfl, fun _ => read, ih⟩
        · refine Plan.flush_positioned ?_
          by_cases short : req.len < p + 5
          · rw [if_pos short]
            exact Plan.finish_positioned
          · rw [if_neg short]
            by_cases mask : isMatchMask (req.byte p) = true
            · rw [if_pos mask]
              exact ih
            · rw [if_neg mask]
              exact ⟨rfl, rfl, fun keep => absurd keep Bool.false_ne_true, ih⟩

theorem Plan.blockReads_positioned {left rp count count' : Nat} {rp' : Option Nat} {ack : Byte}
    (read : isRead request = true) :
    Positioned count' rp' (Plan.blockReads request left rp count ack).acts := by
  induction left generalizing rp count count' rp' ack with
  | zero => exact trivial
  | succ left ih =>
    refine ⟨rfl, rfl, fun _ => ?_, ih⟩
    split
    · decide
    · exact read

theorem Plan.blockWrites_positioned {more p rp count count' : Nat} {rp' : Option Nat} {ack : Byte} :
    Positioned count' rp' (Plan.blockWrites req request more p rp count ack).acts := by
  induction more generalizing p rp count count' rp' ack with
  | zero => exact trivial
  | succ more ih =>
    rw [Plan.blockWrites]
    split
    · exact trivial
    · exact ⟨rfl, rfl, fun keep => absurd keep Bool.false_ne_true, ih⟩

theorem Plan.block_positioned {count count' : Nat} {rp' : Option Nat} :
    Positioned count' rp' (Plan.block req request count).acts := by
  rw [Plan.block]
  split
  · next read =>
      split
      · exact ⟨rfl, rfl, fun keep => absurd keep Bool.false_ne_true, Plan.blockReads_positioned read⟩
      · exact Plan.blockReads_positioned read
  · exact Plan.blockWrites_positioned

/-- A step that sets no match mask, with a request of one kind. -/
def Act.Only (read : Bool) : Act → Prop
  | .cur _ _ => True
  | .mask _ => False
  | .issue _ _ request _ _ => isRead request = read

theorem maskBehind_only {read : Bool} {acts : List Act} {recorded : Nat} {mask : Word}
    (only : ∀ act ∈ acts, act.Only read) : maskBehind recorded acts mask = mask := by
  induction acts generalizing recorded with
  | nil => rfl
  | cons act acts ih =>
    have rest : ∀ act ∈ acts, act.Only read := fun act member => only act (List.mem_cons_of_mem _ member)
    cases act with
    | cur count rp => exact ih rest
    | mask later => exact (only (.mask later) (List.mem_cons_self ..)).elim
    | issue count rp request value keep =>
      rw [maskBehind]
      split
      · rfl
      · exact ih rest

theorem maskKept_only {read : Bool} {acts : List Act} {seen : List Wire} {mask : Word} {recorded : Nat}
    (only : ∀ act ∈ acts, act.Only read) : MaskKept t seen mask recorded acts := by
  induction acts generalizing seen mask recorded with
  | nil => trivial
  | cons act acts ih =>
    have rest : ∀ act ∈ acts, act.Only read := fun act member => only act (List.mem_cons_of_mem _ member)
    cases act with
    | cur count rp => exact ih rest
    | mask later => exact (only (.mask later) (List.mem_cons_self ..)).elim
    | issue count rp request value keep =>
      simp only [MaskKept]
      split
      · exact ih rest
      · exact maskBehind_only rest

/-- Where all operations read, or all write, none fills its queue. -/
theorem unfilled_only {read : Bool} {acts : List Act} {seen : List Wire} {recorded taken : Nat}
    (only : ∀ act ∈ acts, act.Only read) (few : recorded ≤ recMax)
    (short : read = true → taken ≤ recorded) : Unfilled t seen recorded taken acts := by
  induction acts generalizing seen recorded taken with
  | nil => trivial
  | cons act acts ih =>
    have rest : ∀ act ∈ acts, act.Only read := fun act member => only act (List.mem_cons_of_mem _ member)
    cases act with
    | cur count rp => exact ih rest few short
    | mask later => exact (only (.mask later) (List.mem_cons_self ..)).elim
    | issue count rp request value keep =>
      have kind : isRead request = read := only (.issue count rp request value keep) (List.mem_cons_self ..)
      have kind_of : (Op.of request value).read = read := (read_of request value).trans kind
      have most : recMax = 128 := rfl
      have next_eq : (if recorded = recMax then 1 else recorded + 1) ≤ recMax ∧
          (read = true → queueWith (if recorded = recMax then 0 else taken) (Op.of request value) ≤
            if recorded = recMax then 1 else recorded + 1) := by
        have one (taken : Nat) (less : taken ≤ 128) (reads : read = true) :
            queueWith taken (Op.of request value) = taken + 1 := by
          have size : (Op.of request value).size = 1 := if_pos (kind_of.trans reads)
          rw [queueWith, size, if_neg (by rw [swdqBytesMax]; omega)]
        by_cases full : recorded = recMax
        · rw [if_pos full, if_pos full]
          exact ⟨by decide, fun reads => Nat.le_of_eq (one 0 (Nat.zero_le _) reads)⟩
        · rw [if_neg full, if_neg full]
          refine ⟨by omega, fun reads => ?_⟩
          have less := short reads
          rw [one taken (by omega) reads]
          omega
      simp only [Unfilled]
      split
      · exact ih rest next_eq.1 next_eq.2
      · rintro ⟨reads, filled⟩
        have less := next_eq.2 (kind_of.symm.trans reads)
        have bytes : swdqBytesMax = 512 := rfl
        have few' := next_eq.1
        omega

theorem Plan.blockReads_only {left rp count : Nat} {ack : Byte} (read : isRead request = true) :
    ∀ act ∈ (Plan.blockReads request left rp count ack).acts, act.Only true := by
  induction left generalizing rp count ack with
  | zero => exact List.forall_mem_nil _
  | succ left ih =>
    have kind : isRead (if isAp request && left == 0 then rdbuffRead else request) = true := by
      split
      · decide
      · exact read
    exact List.forall_mem_cons.mpr ⟨trivial, List.forall_mem_cons.mpr ⟨kind, ih⟩⟩

theorem Plan.blockWrites_only {more p rp count : Nat} {ack : Byte} (write : isRead request = false) :
    ∀ act ∈ (Plan.blockWrites req request more p rp count ack).acts, act.Only false := by
  induction more generalizing p rp count ack with
  | zero => exact List.forall_mem_nil _
  | succ more ih =>
    rw [Plan.blockWrites]
    split
    · exact List.forall_mem_nil _
    · exact List.forall_mem_cons.mpr ⟨trivial, List.forall_mem_cons.mpr ⟨write, ih⟩⟩

theorem Plan.block_only {count : Nat} : ∀ act ∈ (Plan.block req request count).acts, act.Only (isRead request) := by
  cases kind : isRead request with
  | true =>
    have words : ∀ act ∈ (Plan.blockReads request (min count ((packetSize - 4) / 4)) 4 0 ackOk).acts,
        act.Only true := Plan.blockReads_only kind
    rw [Plan.block, if_pos kind]
    split
    · exact List.forall_mem_cons.mpr ⟨trivial, List.forall_mem_cons.mpr ⟨kind, words⟩⟩
    · exact List.forall_mem_cons.mpr ⟨trivial, words⟩
  | false =>
    rw [Plan.block, if_neg (Bool.eq_false_iff.mp kind)]
    exact Plan.blockWrites_only kind

/-! ## The transfer commands -/

/-- What a command leaves and returns, with the queue and without it. -/
def Same (done done' : State × Option Nat) : Prop := Alike done.1 done'.1 ∧ done.2 = done'.2

/-- Two states that are alike but for the match mask, where it is not kept. -/
structure Masked (kept : Prop) (d single : State) : Prop where
  settings : d.settings = { single.settings with matchMask := d.settings.matchMask }
  mask : d.settings.matchMask = single.settings.matchMask ↔ kept
  seen : d.seen = single.seen
  resp : d.resp = single.resp
  off : d.recording = false
  off' : single.recording = false
  empty : d.ops = []
  empty' : single.ops = []

theorem Masked.alike_iff {kept : Prop} (masked : Masked kept d single) : Alike d single ↔ kept := by
  constructor
  · intro alike
    exact masked.mask.mp (congrArg Settings.matchMask alike.settings)
  · intro holds
    refine ⟨masked.settings.trans ?_, masked.seen, masked.resp, masked.off, masked.off', masked.empty, masked.empty'⟩
    rw [masked.mask.mpr holds]

theorem Masked.put {kept : Prop} (offset : Nat) (bytes : List Byte) (masked : Masked kept d single) :
    Masked kept (d.put offset bytes) (single.put offset bytes) := by
  refine ⟨masked.settings, masked.mask, masked.seen, ?_, masked.off, masked.off', masked.empty, masked.empty'⟩
  simp only [State.put, masked.resp]

/-- Two answers of a transfer command. -/
structure Answered (kept : Prop) (done done' : Finish) : Prop where
  masked : Masked kept done.d done'.d
  count : done.count = done'.count
  ack : done.ack = done'.ack
  rp : done.rp = done'.rp

theorem finish_single (off : l.d.recording = false) : State.finish t l = ⟨l.d, l.count, l.ack, some l.rp⟩ := by
  rw [State.finish, if_neg (Bool.eq_false_iff.mp off)]

theorem finish_live {kept : Prop} {recorded taken : Nat} (never : NeverWaits t)
    (live : Live t l.d l'.d recorded taken) (holds : kept) (count : l.count = l'.count)
    (ack : l.ack = l'.ack) (rp : l.rp = l'.rp) :
    Answered kept (State.finish t l) (State.finish t l') := by
  have fine : ¬ l.d.failed = true := Bool.eq_false_iff.mp live.fine
  rw [finish_single live.off, State.finish, if_pos live.on]
  simp only [State.recEnd, live.flush never, if_neg fine]
  refine ⟨⟨?_, ?_, rfl, rfl, rfl, live.off, rfl, live.empty⟩, count, ack, congrArg some rp⟩
  · simp only [live.settings]
  · simp only [live.settings, holds]

theorem finish_doomed {kept : Prop} (never : NeverWaits t)
    (doomed : Doomed t l.d l'.d l'.count l'.rp l'.ack)
    (settings : l.d.settings = { l'.d.settings with matchMask := l.d.settings.matchMask })
    (mask : l.d.settings.matchMask = l'.d.settings.matchMask ↔ kept) (off : l'.d.recording = false)
    (empty : l'.d.ops = []) : Answered kept (State.finish t l) (State.finish t l') := by
  obtain ⟨flushed, -, failed, -, settings_eq⟩ := doomed.flush never
  obtain ⟨fine, -⟩ | ⟨-, ops, seen, resp, count, rp, ack⟩ := flushed.stops
  · cases fine.symm.trans failed
  · rw [finish_single off, State.finish, if_pos doomed.on]
    have ended : (l.d.recEnd t).failed = true := failed
    have left : (l.d.recEnd t).settings = l.d.settings := settings_eq
    simp only [if_pos ended]
    refine ⟨⟨?_, ?_, seen, resp, rfl, off, ops, empty⟩, count, ack, rp⟩
    · rw [left]
      exact settings
    · rw [left]
      exact mask

theorem finish_together {kept : Prop} (never : NeverWaits t) (follows : l.Follows t d plan)
    (follows' : l'.Follows t single plan)
    (together : Together t kept (d.acts t plan.acts) (single.acts t plan.acts)) :
    Answered kept (State.finish t l) (State.finish t l') := by
  obtain ⟨⟨count, rp, d_eq⟩, answer⟩ := follows
  obtain ⟨⟨count', rp', d_eq'⟩, answer'⟩ := follows'
  generalize d.acts t plan.acts = done at *
  generalize single.acts t plan.acts = done' at *
  cases together with
  | @live _ _ recorded taken live holds =>
    have same := answer.trans answer'.symm
    simp only [Prod.mk.injEq] at same
    obtain ⟨count_eq, rp_eq, ack_eq⟩ := same
    have moved : Live t l.d l'.d recorded taken := by
      rw [d_eq, d_eq']
      exact ⟨live.on, live.off, live.fine, live.length, live.few, live.taken_eq, live.replayed, live.settings, live.empty⟩
    exact finish_live never moved holds count_eq ack_eq rp_eq
  | doomed doomed settings mask off empty =>
    simp only [Option.getD_some, Prod.mk.injEq] at answer'
    obtain ⟨count_eq, rp_eq, ack_eq⟩ := answer'
    refine finish_doomed never ?_ ?_ ?_ ?_ ?_
    · rw [d_eq, d_eq', count_eq, rp_eq, ack_eq]
      exact ⟨doomed.on, doomed.wrong, doomed.stops⟩
    · rw [d_eq, d_eq']
      exact settings
    · rw [d_eq, d_eq']
      exact mask
    · rw [d_eq']
      exact off
    · rw [d_eq']
      exact empty

theorem Alike.record (alike : Alike d single) : Live t d.recBegin single 0 0 := by
  refine ⟨rfl, alike.off', rfl, rfl, Nat.zero_le _, rfl, ?_, alike.settings, alike.empty'⟩
  rw [← alike.seen, ← alike.resp]
  rfl

theorem recorded_answered (never : NeverWaits t) (alike : Alike d single)
    (positioned : ∀ count rp, Positioned count rp plan.acts) (unfilled : Unfilled t d.seen 0 0 plan.acts)
    (follows : l.Follows t d.recBegin plan) (follows' : l'.Follows t single plan) :
    Answered (MaskKept t d.seen d.settings.matchMask 0 plan.acts) (State.finish t l) (State.finish t l') := by
  rw [alike.seen] at unfilled
  have together := alike.record.acts plan.acts never (positioned _ _) unfilled
  rw [← alike.seen, ← alike.settings] at together
  exact finish_together never follows follows' together

theorem Answered.transfer {kept : Prop} {done done' : Finish} (answered : Answered kept done done') :
    Same (done.d.put 1 [BitVec.ofNat 8 done.count, done.ack], done.rp)
      (done'.d.put 1 [BitVec.ofNat 8 done'.count, done'.ack], done'.rp) ↔ kept := by
  rw [answered.count, answered.ack]
  exact (and_iff_left answered.rp).trans (answered.masked.put 1 _).alike_iff

theorem Answered.block {kept : Prop} {done done' : Finish} (answered : Answered kept done done') :
    Same (done.d.put 1 [BitVec.ofNat 8 done.count, BitVec.ofNat 8 (done.count / 256), done.ack], done.rp)
      (done'.d.put 1 [BitVec.ofNat 8 done'.count, BitVec.ofNat 8 (done'.count / 256), done'.ack], done'.rp) ↔ kept := by
  rw [answered.count, answered.ack]
  exact (and_iff_left answered.rp).trans (answered.masked.put 1 _).alike_iff

/-- The plan of a DAP_Transfer packet. -/
def transferPlan (req : Request) : Plan := Plan.transfers req (req.byteOr 2).toNat 3 3 0 0 false

theorem doTransfer_recorded (never : NeverWaits t) (alike : Alike d single)
    (noMatch : State.hasMatchRead req = false) (unfilled : Unfilled t d.seen 0 0 (transferPlan req).acts) :
    Same (d.recBegin.doTransfer t req) (single.doTransfer t req) ↔
      MaskKept t d.seen d.settings.matchMask 0 (transferPlan req).acts := by
  have follows (d : State) :
      (({ d, p := 3, rp := 3, ack := 0 } : Loop).transfers t req (req.byteOr 2).toNat).Follows t d (transferPlan req) :=
    Loop.transfers_follows (l := { d, p := 3, rp := 3, ack := 0 }) (fun on => absurd on Bool.false_ne_true) noMatch
  exact (recorded_answered never alike (fun _ _ => Plan.transfers_positioned) unfilled (follows _) (follows _)).transfer

theorem doTransferBlock_recorded (never : NeverWaits t) (alike : Alike d single) (long : ¬ req.len < 5)
    (some : req.half 2 ≠ 0) :
    Same (d.recBegin.doTransferBlock t req) (single.doTransferBlock t req) := by
  have few : 0 ≤ recMax := Nat.zero_le _
  have unfilled : Unfilled t d.seen 0 0 (Plan.block req (req.byte 4) (req.half 2)).acts :=
    unfilled_only Plan.block_only few fun _ => Nat.le_refl 0
  simp only [State.doTransferBlock, if_neg long, if_neg some]
  exact (recorded_answered never alike (fun _ _ => Plan.block_positioned) unfilled Loop.block_follows
    Loop.block_follows).block.mpr (maskKept_only Plan.block_only)

/-! ## The commands that are not recorded -/

namespace Twin

theorem put (offset : Nat) (bytes : List Byte) (twin : Twin d single) :
    Twin (d.put offset bytes) (single.put offset bytes) := ⟨twin.1.put offset bytes, twin.2⟩

theorem line (wire : Wire) (twin : Twin d single) : Twin (d.line wire) (single.line wire) := ⟨twin.1.line wire, twin.2⟩

theorem doTransfer (never : NeverWaits t) (twin : Twin d single) :
    Same (d.doTransfer t req) (single.doTransfer t req) := by
  obtain ⟨single', twin', eq⟩ := 
    Twins.transfers (l := { d, p := 3, rp := 3, ack := 0 }) req (req.byteOr 2).toNat never twin
  rw [State.doTransfer, State.doTransfer]
  simp only [eq]
  rw [finish_single twin'.1.off, finish_single twin'.1.off']
  exact ⟨twin'.1.put 1 _, rfl⟩

theorem doTransferBlock (never : NeverWaits t) (twin : Twin d single) :
    Same (d.doTransferBlock t req) (single.doTransferBlock t req) := by
  simp only [State.doTransferBlock]
  split
  · exact ⟨twin.1.put 1 _, rfl⟩
  · split
    · exact ⟨twin.1.put 1 _, rfl⟩
    · obtain ⟨single', twin', eq⟩ :=
        Twins.block (l := { d, p := 5, rp := 4, ack := ackOk }) req (req.byte 4) (req.half 2) never twin
      simp only [eq]
      rw [finish_single twin'.1.off, finish_single twin'.1.off']
      exact ⟨twin'.1.put 1 _, rfl⟩

theorem doWriteAbort (never : NeverWaits t) (twin : Twin d single) :
    Same (d.doWriteAbort t req) (single.doWriteAbort t req) := by
  simp only [State.doWriteAbort]
  split
  · obtain ⟨after, same⟩ := twin.xfer never abortWrite (req.word 2)
    rw [same]
    exact ⟨after.1.put 1 _, rfl⟩
  · exact ⟨twin.1.put 1 _, rfl⟩

theorem sequenceOne (twin : Twin l.d single) :
    (State.sequenceOne t req l).Both Twins (State.sequenceOne t req { l with d := single }) := by
  rw [State.sequenceOne, State.sequenceOne]
  simp only
  split
  · exact ⟨single, twin, rfl⟩
  · generalize (if (req.byte l.p).toNat % 64 = 0 then 64 else (req.byte l.p).toNat % 64) = nbits
    rw [← twin.1.seen]
    split
    · split
      · exact ⟨_, twin.put 1 _, rfl⟩
      · exact ⟨_, (twin.line _).put l.rp _, rfl⟩
    · split
      · exact ⟨single, twin, rfl⟩
      · exact ⟨_, twin.line _, rfl⟩

theorem doSwdSequence (twin : Twin d single) : Same (d.doSwdSequence t req) (single.doSwdSequence t req) := by
  have loops : (Flow.times (State.sequenceOne t req) (req.byteOr 1).toNat
      { d := d.put 1 [0], p := 2, rp := 2, ack := 0 }).Both Twins
      (Flow.times (State.sequenceOne t req) (req.byteOr 1).toNat
        { d := single.put 1 [0], p := 2, rp := 2, ack := 0 }) := by
    refine Flow.times_both ?_ ⟨_, twin.put 1 [0], rfl⟩
    rintro l _ ⟨single, twin, rfl⟩
    exact sequenceOne twin
  obtain ⟨single', twin', eq⟩ := loops.state
  rw [State.doSwdSequence, State.doSwdSequence]
  simp only [eq]
  exact ⟨twin'.1, rfl⟩

theorem command (never : NeverWaits t) (twin : Twin d single) :
    Same (d.command t req false) (single.command t req false) := by
  have one (d single : State) (byte : Byte) (alike : Alike d single) :
      Same (d.put 1 [byte], some 2) (single.put 1 [byte], some 2) := ⟨alike.put 1 _, rfl⟩
  obtain ⟨alike, budget⟩ := twin
  rw [State.command, State.command]
  split
  · simp only [State.doInfo, alike.settings]
    split <;> exact ⟨alike.put 1 _, rfl⟩
  · exact one d single 0 alike
  · exact one d single _ alike
  · exact one d single 0 alike
  · refine one _ _ 0 ?_
    simp only [State.doTransferConfigure]
    split
    · refine (alike.set ?_).line _
      rw [alike.settings]
    · exact alike
  · exact doTransfer never ⟨alike, budget⟩
  · exact doTransferBlock never ⟨alike, budget⟩
  · exact doWriteAbort never ⟨alike, budget⟩
  · exact one d single 0 alike
  · exact ⟨alike.put 1 _, rfl⟩
  · rw [State.doSwjPins, State.doSwjPins]
    refine one _ _ _ ?_
    split
    · exact alike.line _
    · exact alike
  · refine one _ _ 0 ?_
    split
    · exact alike.line _
    · exact alike
  · rw [State.doSwjSequence, State.doSwjSequence]
    refine one _ _ 0 ?_
    split
    · exact alike.line _
    · exact alike
  · refine one _ _ 0 (alike.set ?_)
    rw [alike.settings]
  · exact doSwdSequence ⟨alike, budget⟩
  · exact ⟨alike.put 0 _, rfl⟩

end Twin

/-! ## Runs -/

/-- The packet with the gateware's queue, or without it. -/
def Packet.with (queue : Bool) (p : Packet) : Packet := { p with queue }

/-- A DAP_Transfer that the queue records. -/
def Records (d : State) (p : Packet) : Prop :=
  p.req.len ≠ 0 ∧ packetSize ≤ p.respCap ∧ d.batchSupported true = true ∧ p.req.byte 0 = 0x05 ∧
    State.hasMatchRead p.req = false

/-- The operation of a recorded DAP_Transfer that is not answered OK is no read that fills its queue. -/
def FillsNone (t : Target) (d : State) (p : Packet) : Prop :=
  Records d p → Unfilled t d.seen 0 0 (transferPlan p.req).acts

/-- A recorded DAP_Transfer leaves the match mask as the transfers one by one do. -/
def KeepsMask (t : Target) (d : State) (p : Packet) : Prop :=
  Records d p → MaskKept t d.seen d.settings.matchMask 0 (transferPlan p.req).acts

/-- A packet with the queue and without it. -/
def AsSingle (t : Target) (d single : State) (p : Packet) : Prop :=
  Same (d.process t p.req true p.respCap) (single.process t p.req false p.respCap)

theorem Twin.accept (alike : Alike d single) (req : Request) : Twin (d.accept req) (single.accept req) :=
  ⟨⟨alike.settings, alike.seen, (alike.put 0 [req.byte 0]).resp, alike.off, alike.off', alike.empty, alike.empty'⟩, rfl⟩

theorem command_unrecorded
    (unrecorded : d.batchSupported true = true →
      req.byte 0 ≠ 0x06 ∧ (req.byte 0 = 0x05 → State.hasMatchRead req = true)) :
    d.command t req true = d.command t req false := by
  have off : d.batchSupported false = false := rfl
  by_cases supported : d.batchSupported true = true
  · obtain ⟨block, transfer⟩ := unrecorded supported
    rw [State.command, State.command]
    split
    case h_6 five =>
      simp only [transfer (BitVec.eq_of_toNat_eq five), off, Bool.not_true, Bool.and_false]
    case h_7 six => exact absurd (BitVec.eq_of_toNat_eq six) block
    all_goals rfl
  · rw [State.command, State.command, Bool.eq_false_iff.mpr supported, off]

/-- A packet is the same with the queue and without it exactly when it ends its record and keeps the
match mask. -/
theorem process_as_single {p : Packet} (never : NeverWaits t) (alike : Alike d single)
    (fills : FillsNone t d p) :
    AsSingle t d single p ↔ ¬ Leaves d (p.with true) ∧ KeepsMask t d p := by
  by_cases refused : p.req.len = 0 ∨ p.respCap < packetSize
  · have same : AsSingle t d single p := by
      rw [AsSingle, State.process, State.process, if_pos refused, if_pos refused]
      have start : Alike { d with acked := [] } { single with acked := [] } :=
        ⟨alike.settings, alike.seen, alike.resp, alike.off, alike.off', alike.empty, alike.empty'⟩
      exact ⟨start.put 0 _, rfl⟩
    refine ⟨fun _ => ⟨?_, ?_⟩, fun _ => same⟩
    · rintro ⟨some, cap, -⟩
      exact refused.elim some (Nat.not_lt.mpr cap)
    · rintro ⟨some, cap, -⟩
      exact (refused.elim some (Nat.not_lt.mpr cap)).elim
  · have twin := Twin.accept alike p.req
    have accepted : p.req.len ≠ 0 ∧ packetSize ≤ p.respCap := by
      rw [not_or, Nat.not_lt] at refused
      exact refused
    have command_iff : AsSingle t d single p ↔
        Same ((d.accept p.req).command t p.req true) ((single.accept p.req).command t p.req false) := by
      rw [AsSingle, State.process, State.process, if_neg refused, if_neg refused]
    have plain (unrecorded : d.batchSupported true = true →
        p.req.byte 0 ≠ 0x06 ∧ (p.req.byte 0 = 0x05 → State.hasMatchRead p.req = true)) :
        AsSingle t d single p ↔ ¬ Leaves d (p.with true) ∧ KeepsMask t d p := by
      have begun : (d.accept p.req).command t p.req true = (d.accept p.req).command t p.req false :=
        command_unrecorded unrecorded
      rw [command_iff, begun]
      refine ⟨fun _ => ⟨?_, ?_⟩, fun _ => twin.command never⟩
      · rintro ⟨-, -, supported, block, -⟩
        exact (unrecorded supported).1 block
      · rintro ⟨-, -, supported, transfer, noMatch⟩
        cases noMatch.symm.trans ((unrecorded supported).2 transfer)
    by_cases supported : d.batchSupported true = true
    · by_cases block : p.req.byte 0 = 0x06
      · have six : (p.req.byte 0).toNat = 6 := congrArg BitVec.toNat block
        have kept : KeepsMask t d p := by
          rintro ⟨-, -, -, transfer, -⟩
          cases block.symm.trans transfer
        by_cases short : p.req.len < 5 ∨ p.req.half 2 = 0
        · have leaves : Leaves d (p.with true) := ⟨accepted.1, accepted.2, supported, block, short⟩
          refine ⟨fun same => ?_, fun kept => absurd leaves kept.1⟩
          cases (leaves_on leaves).symm.trans same.1.off
        · have on : (d.accept p.req).batchSupported true = true := supported
          have off : (single.accept p.req).batchSupported false = false := rfl
          rw [command_iff, State.command, State.command, six]
          simp only [if_pos on, off, Bool.false_eq_true, if_false]
          rw [not_or] at short
          refine ⟨fun _ => ⟨?_, kept⟩, fun _ => doTransferBlock_recorded never twin.1 short.1 short.2⟩
          rintro ⟨-, -, -, -, less | none⟩
          · exact short.1 less
          · exact short.2 none
      · by_cases transfer : p.req.byte 0 = 0x05
        · cases noMatch : State.hasMatchRead p.req with
          | true => exact plain fun _ => ⟨block, fun _ => noMatch⟩
          | false =>
            have five : (p.req.byte 0).toNat = 5 := congrArg BitVec.toNat transfer
            have records : Records d p := ⟨accepted.1, accepted.2, supported, transfer, noMatch⟩
            have on : (d.accept p.req).batchSupported true = true := supported
            have off : (single.accept p.req).batchSupported false = false := rfl
            rw [command_iff, State.command, State.command, five]
            simp only [on, off, noMatch, Bool.not_false, Bool.and_self, Bool.and_true, Bool.false_eq_true,
              if_true, if_false]
            have same := doTransfer_recorded never twin.1 noMatch (fills records)
            rw [same]
            refine ⟨fun kept => ⟨fun leaves => block leaves.2.2.2.1, fun _ => kept⟩, fun kept => ?_⟩
            exact kept.2 records
        · exact plain fun _ => ⟨block, fun transfer' => absurd transfer' transfer⟩
    · exact plain fun supported' => absurd supported' supported

theorem run_alike {start : State} {packets : List Packet} (off : start.recording = false)
    (empty : start.ops = [])
    (same : ∀ front p, front ++ [p] <+: packets →
      Alike (start.run t (front.map (·.with true))) (start.run t (front.map (·.with false))) →
      AsSingle t (start.run t (front.map (·.with true))) (start.run t (front.map (·.with false))) p) :
    Alike (start.run t (packets.map (·.with true))) (start.run t (packets.map (·.with false))) := by
  induction packets using List.reverseRecOn with
  | nil => exact ⟨rfl, rfl, rfl, off, off, empty, empty⟩
  | append_singleton packets p ih =>
    have before := ih fun front last early => same front last (early.trans (List.prefix_append ..))
    have after := (same packets p (List.prefix_refl _) before).1
    rw [List.map_append, List.map_append, State.run, State.run, List.foldl_append, List.foldl_append]
    exact after

/-- With a target that never answers WAIT, and where no read stops a queue that it fills, a run of packets
is the same with the queue and without it exactly when every packet ends its record and keeps the match
mask. -/
theorem batched_as_single (t : Target) (start : State) (packets : List Packet) (never : NeverWaits t)
    (off : start.recording = false) (empty : start.ops = [])
    (fills : ∀ front p, front ++ [p] <+: packets →
      FillsNone t (start.run t (front.map (·.with true))) p) :
    (∀ front p, front ++ [p] <+: packets →
        AsSingle t (start.run t (front.map (·.with true))) (start.run t (front.map (·.with false))) p) ↔
      ∀ front p, front ++ [p] <+: packets →
        ¬ Leaves (start.run t (front.map (·.with true))) (p.with true) ∧
          KeepsMask t (start.run t (front.map (·.with true))) p := by
  constructor
  · intro same front p before
    have alike : Alike (start.run t (front.map (·.with true))) (start.run t (front.map (·.with false))) :=
      run_alike off empty fun front' p' early _ =>
        same front' p' (early.trans ((List.prefix_append front [p]).trans before))
    exact (process_as_single never alike (fills front p before)).mp (same front p before)
  · intro kept front p before
    have alike : Alike (start.run t (front.map (·.with true))) (start.run t (front.map (·.with false))) :=
      run_alike off empty fun front' p' early alike =>
        have here := early.trans ((List.prefix_append front [p]).trans before)
        (process_as_single never alike (fills front' p' here)).mpr (kept front' p' here)
    exact (process_as_single never alike (fills front p before)).mpr (kept front p before)

/-- A target that faults the operations of one request. -/
def refusing (request : Byte) : Target :=
  ⟨fun _ op => if op.req = request then ⟨4, 0, true⟩ else ⟨1, 0x11223344, true⟩, fun _ _ => false⟩

theorem refusing_never_waits (request : Byte) : NeverWaits (refusing request) := by
  intro seen op
  simp only [refusing]
  split <;> decide

/-- Two reads, a write that is refused and a read behind it. -/
theorem refused_write_as_single :
    AsSingle (refusing 0x08) ({} : State).reset ({} : State).reset
      (queued [0x05, 0, 4, 0x02, 0x02, 0x08, 1, 2, 3, 4, 0x02]) := by
  have kept : KeepsMask (refusing 0x08) ({} : State).reset
      (queued [0x05, 0, 4, 0x02, 0x02, 0x08, 1, 2, 3, 4, 0x02]) := fun _ => by decide +kernel
  have fills : FillsNone (refusing 0x08) ({} : State).reset
      (queued [0x05, 0, 4, 0x02, 0x02, 0x08, 1, 2, 3, 4, 0x02]) := fun _ => by decide +kernel
  refine (batched_as_single (refusing 0x08) ({} : State).reset
    [queued [0x05, 0, 4, 0x02, 0x02, 0x08, 1, 2, 3, 4, 0x02]] (refusing_never_waits 0x08) rfl rfl ?_).mpr ?_ []
    _ (List.prefix_refl _)
  · intro front p before
    obtain ⟨rfl, rfl⟩ := prefix_single before
    exact fills
  · intro front p before
    obtain ⟨rfl, rfl⟩ := prefix_single before
    refine ⟨?_, kept⟩
    rintro ⟨-, -, -, block, -⟩
    exact absurd block (by decide)

/-- Three runs that differ: a DAP_TransferBlock of one byte leaves its record open; a match mask behind
a read that is refused is set; and a refused read that is the 512th byte of its queue is answered with a
count of 0, not of 103. -/
theorem batch_differs :
    ¬ AsSingle willing ({} : State).reset ({} : State).reset (queued [0x06]) ∧
      ¬ AsSingle (refusing 0x02) ({} : State).reset ({} : State).reset
        (queued [0x05, 0, 2, 0x02, 0x20, 1, 2, 3, 4]) ∧
      ¬ AsSingle (refusing 0x0E) ({} : State).reset ({} : State).reset
        (queued ([0x05, 0, 104] ++ (List.replicate 102 [0x00, 1, 2, 3, 4]).flatten ++ [0x02, 0x0E])) := by
  refine ⟨fun same => ?_, fun same => ?_, fun same => ?_⟩
  · exact absurd same.1.off (by decide +kernel)
  · exact absurd (congrArg Settings.matchMask same.1.settings) (by decide +kernel)
  · exact absurd (congrFun same.1.resp 1) (by decide +kernel)

end BenchPod.Dap
