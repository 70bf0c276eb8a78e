import BenchPod.DacPsram.Burst
import BenchPod.PsramBus.Writer

/-!
# The bus has one driver

A master leaves its idle state only with a grant, and a grant is masked by the other master's burst.
-/

namespace BenchPod.PsramBus

open DacPsram (Cell Fsm Nibble Reader Serial)

variable {mem : BitVec 24 → Byte} {b : Bus} {i j : BusInput} {r : Reader} {f : Fsm} {w : Writer}

/-- The reader is inside a burst. -/
def Busy (f : Fsm) : Prop := f.st ≠ .idle ∧ f.st ≠ .cmt

theorem rdBusy_iff : rdBusy r = true ↔ Busy r.fsm := decide_eq_true_iff

section Producer

variable {base : BitVec 24} {len : Nat} {runI roomOk busOwn gnt : Bool}

theorem cellStep_low (low : (f.cellStep base len roomOk busOwn gnt).cell.cs = false) :
    Busy (f.cellStep base len roomOk busOwn gnt) := by
  revert low
  rw [Fsm.cellStep]
  simp only
  split
  · exact fun high => nomatch high
  · cases f.st with
    | idle =>
      simp only
      split
      · exact fun _ => ⟨nofun, nofun⟩
      · exact fun high => nomatch high
    | cmd => exact fun _ => ⟨nofun, nofun⟩
    | addr =>
      simp only
      split <;> exact fun _ => ⟨nofun, nofun⟩
    | dummy =>
      simp only [Busy]
      split <;> exact fun _ => ⟨nofun, nofun⟩
    | data =>
      simp only [Busy]
      split <;> exact fun _ => ⟨nofun, nofun⟩
    | csh => exact fun high => nomatch high
    | cmt =>
      simp only
      split
      · exact fun high => nomatch high
      · split <;> exact fun high => nomatch high

theorem cellStep_starts (busy : Busy (f.cellStep base len roomOk busOwn gnt)) :
    Busy f ∨ f.st = .idle ∧ f.wantBurst roomOk busOwn = true ∧ gnt = true := by
  by_cases before : Busy f
  · exact .inl before
  · right
    have rest : f.st = .idle ∨ f.st = .cmt := by
      rw [Busy] at before
      tauto
    obtain idle | cmt := rest
    · refine ⟨idle, ?_⟩
      rw [← Bool.and_eq_true]
      refine Decidable.byContradiction fun refused => ?_
      have same : (f.cellStep base len roomOk busOwn gnt).st = .idle := by
        have want : Fsm.wantBurst { f with cellTgl := !f.cellTgl, cell := {}, cellCmt := false, cellAbt := false } roomOk
            busOwn = f.wantBurst roomOk busOwn := rfl
        rw [Fsm.cellStep]
        simp only [idle] at want ⊢
        rw [if_neg (by simp), want, if_neg refused]
      exact busy.1 same
    · have past : (f.cellStep base len roomOk busOwn gnt).st = .idle := by
        rw [Fsm.cellStep]
        simp only [cmt]
        rw [if_neg (by simp)]
        split
        · rfl
        · split <;> rfl
      exact absurd past busy.1

theorem tick_low (low : (f.tick base len runI roomOk busOwn gnt).cell.cs = false) (before : f.cell.cs = false → Busy f) :
    Busy (f.tick base len runI roomOk busOwn gnt) := by
  revert low
  rw [Fsm.tick]
  split
  · exact fun high => nomatch high
  · simp only
    split
    · exact fun low => cellStep_low low
    · exact fun low => before low

theorem tick_starts (busy : Busy (f.tick base len runI roomOk busOwn gnt)) :
    Busy f ∨ runI = true ∧ f.st = .idle ∧ f.wantBurst roomOk busOwn = true ∧ gnt = true := by
  revert busy
  rw [Fsm.tick]
  split
  · exact fun busy => absurd rfl busy.1
  · next on =>
      have on : runI = true := by simpa using on
      simp only
      split
      · exact fun busy => (cellStep_starts busy).imp_right fun starts => ⟨on, starts⟩
      · exact fun busy => .inl busy

theorem tick_cell (on : runI = true) :
    (f.tick base len runI roomOk busOwn gnt).cellTgl = !f.cellTgl ∨
      (f.tick base len runI roomOk busOwn gnt).cellTgl = f.cellTgl ∧
        (f.tick base len runI roomOk busOwn gnt).cell = f.cell := by
  rw [Fsm.tick, on, if_neg (by decide)]
  simp only
  split
  · left
    rw [Fsm.cellStep]
    simp only
    split
    · rfl
    · cases f.st with
      | idle => simp only; split <;> rfl
      | cmd => rfl
      | addr => simp only; split <;> rfl
      | dummy => rfl
      | data => rfl
      | csh => rfl
      | cmt => simp only; split <;> [rfl; (split <;> rfl)]
  · exact .inr ⟨rfl, rfl⟩

end Producer

/-- The pads or the latched cell of the reader hold chip select low. -/
def Selects (s : Serial) : Prop := s.cs = false ∨ s.cellL.cs = false

theorem serial_tick {s : Serial} {en : Bool} {io : Nibble} (low : Selects (s.tick en f io)) :
    en = true ∧ (f.cellTgl ≠ s.tglM ∧ f.cell.cs = false ∨ f.cellTgl = s.tglM ∧ Selects s) := by
  cases en with
  | false => exact low.elim (fun high => nomatch high) fun high => nomatch high
  | true =>
    refine ⟨rfl, ?_⟩
    by_cases old : f.cellTgl = s.tglM
    · have same : (f.cellTgl != s.tglM) = false := by rw [old, bne_self_eq_false]
      refine .inr ⟨old, ?_⟩
      revert low
      cases pend : s.capPend <;> cases walking : s.busy48 <;>
        simp [Selects, Serial.tick, Serial.collect, same, pend, walking] <;> tauto
    · have new : (f.cellTgl != s.tglM) = true := by simpa using old
      refine .inl ⟨old, ?_⟩
      revert low
      cases pend : s.capPend <;> simp [Selects, Serial.tick, Serial.collect, new, pend]

/-- The reader between two edges of `clk`. -/
structure RdSound (r : Reader) : Prop where
  cell : r.fsm.cell.cs = false → Busy r.fsm
  pads : Selects r.serial → r.fsm.cell.cs = false
  tgl : r.serial.tglM = r.fsm.cellTgl
  run480 : r.run480 = r.runI
  run481 : r.run481 = r.runI

theorem RdSound.half {input : DacPsram.Input} (sound : RdSound r)
    (low : Selects ((r.tick input).tick48 mem input.first).serial) : (r.tick input).fsm.cell.cs = false := by
  obtain ⟨on, shown⟩ := serial_tick low
  have run : r.runI = true := sound.run481.symm.trans on
  have step := @tick_cell r.fsm r.base r.len.toNat r.runI r.roomOk1 r.ownSync1 input.gnt run
  obtain ⟨-, now⟩ | ⟨same, before⟩ := shown
  · exact now
  · obtain toggled | ⟨-, kept⟩ := step
    · have differ : (!r.fsm.cellTgl) = r.fsm.cellTgl := toggled.symm.trans (same.trans sound.tgl)
      exact absurd differ (by simp)
    · have cell : (r.tick input).fsm.cell = r.fsm.cell := kept
      rw [cell]
      exact sound.pads before

theorem RdSound.whole {input : DacPsram.Input} (sound : RdSound r)
    (low : Selects (((r.tick input).tick48 mem input.first).tick48 mem input.second).serial) :
    (r.tick input).fsm.cell.cs = false := by
  obtain ⟨-, shown⟩ := serial_tick low
  have taken : ((r.tick input).tick48 mem input.first).serial.tglM = (r.tick input).fsm.cellTgl := Serial.tick_tglM _ _
  obtain ⟨differ, -⟩ | ⟨-, before⟩ := shown
  · exact absurd taken.symm differ
  · exact sound.half before

theorem RdSound.cycle {input : DacPsram.Input} (sound : RdSound r) : RdSound (r.cycle mem input) := by
  refine ⟨fun low => tick_low low sound.cell, sound.whole, Serial.tick_tglM _ _, rfl, rfl⟩

/-- The writer between two edges of `clk`. -/
structure WrSound (w : Writer) : Prop where
  cell : w.cell.cs = false → w.busy = true
  pads : w.serial.cs = w.cell.cs
  tgl : w.serial.tglM = w.cellTgl

theorem writer_tick (w : Writer) (busOwn gnt : Bool) (ports : Ports) :
    (w.tick busOwn gnt ports).cellTgl = (!w.cellTgl) ∧ (w.tick busOwn gnt ports).serial = w.serial ∧
      ((w.tick busOwn gnt ports).cell.cs = false → (w.tick busOwn gnt ports).busy = true) ∧
      ((w.tick busOwn gnt ports).busy = true →
        w.busy = true ∨ w.req = true ∧ gnt = true ∧ busOwn = false ∧ ports.start = false) := by
  have busy (new : Writer) : new.busy = true ↔ new.st ≠ .idle := decide_eq_true_iff
  simp only [busy]
  rw [Writer.tick, Writer.produce]
  cases st : w.st with
  | idle =>
    simp only
    split
    · next starts =>
        simp only [Bool.and_eq_true, Bool.not_eq_true'] at starts
        exact ⟨rfl, rfl, fun _ => nofun, fun _ => .inr ⟨starts.1.1.1, starts.1.1.2, starts.1.2, starts.2⟩⟩
    · exact ⟨rfl, rfl, fun high => (nomatch high), fun busy => absurd rfl busy⟩
  | cmd =>
    simp only
    split <;> exact ⟨rfl, rfl, fun _ => nofun, fun _ => .inl nofun⟩
  | addr =>
    simp only
    split <;> [skip; split] <;> exact ⟨rfl, rfl, fun _ => by simp, fun _ => .inl nofun⟩
  | data =>
    simp only
    split
    · refine ⟨rfl, rfl, fun _ => ?_, fun _ => .inl nofun⟩
      show (if w.chunkLeft = 1 then WSt.csh else WSt.data) ≠ .idle
      split <;> exact nofun
    · exact ⟨rfl, rfl, fun _ => nofun, fun _ => .inl nofun⟩
  | csh => exact ⟨rfl, rfl, fun high => (nomatch high), fun _ => .inl nofun⟩

theorem WrSound.shows (sound : WrSound w) (busOwn gnt : Bool) (ports : Ports) :
    (w.tick busOwn gnt ports).tick48.serial.cs = (w.tick busOwn gnt ports).cell.cs ∧
      (w.tick busOwn gnt ports).tick48.tick48.serial.cs = (w.tick busOwn gnt ports).cell.cs := by
  obtain ⟨toggled, same, -, -⟩ := writer_tick w busOwn gnt ports
  have new : ((w.tick busOwn gnt ports).cellTgl != (w.tick busOwn gnt ports).serial.tglM) = true := by
    rw [toggled, same, sound.tgl]
    cases w.cellTgl <;> rfl
  constructor
  · simp only [Writer.tick48, WSerial.tick, new, if_true]
  · simp only [Writer.tick48, WSerial.tick, new, if_true, bne_self_eq_false, Bool.false_eq_true, if_false]

theorem WrSound.cycle (sound : WrSound w) (busOwn gnt : Bool) (ports : Ports) : WrSound (w.cycle busOwn gnt ports) := by
  obtain ⟨-, -, low, -⟩ := writer_tick w busOwn gnt ports
  refine ⟨low, (sound.shows busOwn gnt ports).2, ?_⟩
  have tgl (s : WSerial) (tgl : Bool) (cell : WCell) : (s.tick tgl cell).tglM = tgl := by
    rw [WSerial.tick]
    split <;> [rfl; (split <;> rfl)]
  exact tgl _ _ _

/-- What holds of the system between two edges of `clk`. -/
structure Shared (b : Bus) : Prop where
  rd : RdSound b.rd
  wr : WrSound b.wr
  apart : ¬(rdBusy b.rd = true ∧ b.wr.busy = true)

theorem rd_begins (idle : rdBusy b.rd = false) (busy : rdBusy (b.cycle i mem).rd = true) :
    b.arb.own = .rd ∧ b.wr.busy = false ∧ b.arb.relRd b.asks = false ∧ rdReq b.rd = true := by
  obtain before | ⟨on, rest, want, gnt⟩ := tick_starts (rdBusy_iff.mp busy)
  · exact absurd (idle.symm.trans (rdBusy_iff.mpr before)) Bool.false_ne_true
  · simp only [Bus.rdGnt, Arbiter.rdGnt, Bool.and_eq_true, decide_eq_true_eq, Bool.not_eq_true'] at gnt
    exact ⟨gnt.1.1, gnt.1.2, gnt.2, by rw [rdReq, on, want]; rfl⟩

theorem wr_begins (idle : b.wr.busy = false) (busy : (b.cycle i mem).wr.busy = true) :
    b.arb.own = .wr ∧ rdBusy b.rd = false ∧ b.arb.relWr b.asks = false ∧ b.wr.req = true := by
  obtain ⟨-, -, -, starts⟩ := writer_tick b.wr b.rd.ownSync1 b.wrGnt i.ports
  obtain before | ⟨want, gnt, -⟩ := starts busy
  · exact absurd (idle.symm.trans before) Bool.false_ne_true
  · simp only [Bus.wrGnt, Arbiter.wrGnt, Bool.and_eq_true, decide_eq_true_eq, Bool.not_eq_true'] at gnt
    exact ⟨gnt.1.1, gnt.1.2, gnt.2, want⟩

theorem Shared.apart_step (shared : Shared b) :
    (rdBusy b.rd = true → (b.cycle i mem).wr.busy = false) ∧ (b.wr.busy = true → rdBusy (b.cycle i mem).rd = false) ∧
      ¬(rdBusy (b.cycle i mem).rd = true ∧ (b.cycle i mem).wr.busy = true) := by
  have first (busy : rdBusy b.rd = true) : (b.cycle i mem).wr.busy = false := by
    have idle : b.wr.busy = false := Bool.eq_false_iff.mpr fun both => shared.apart ⟨busy, both⟩
    refine Bool.eq_false_iff.mpr fun starts => ?_
    obtain ⟨-, free, -, -⟩ := wr_begins idle starts
    exact absurd (free.symm.trans busy) Bool.false_ne_true
  have second (busy : b.wr.busy = true) : rdBusy (b.cycle i mem).rd = false := by
    have idle : rdBusy b.rd = false := Bool.eq_false_iff.mpr fun both => shared.apart ⟨both, busy⟩
    refine Bool.eq_false_iff.mpr fun starts => ?_
    obtain ⟨-, free, -, -⟩ := @rd_begins mem b i idle starts
    exact absurd (free.symm.trans busy) Bool.false_ne_true
  refine ⟨first, second, ?_⟩
  rintro ⟨reads, writes⟩
  have idleRd : rdBusy b.rd = false := Bool.eq_false_iff.mpr fun busy => absurd ((first busy).symm.trans writes) Bool.false_ne_true
  have idleWr : b.wr.busy = false := Bool.eq_false_iff.mpr fun busy => absurd ((second busy).symm.trans reads) Bool.false_ne_true
  obtain ⟨owner, -⟩ := rd_begins idleRd reads
  obtain ⟨other, -⟩ := wr_begins idleWr writes
  exact nomatch owner.symm.trans other

theorem Shared.cycle (shared : Shared b) : Shared (b.cycle i mem) :=
  ⟨shared.rd.cycle, shared.wr.cycle _ _ _, shared.apart_step.2.2⟩

theorem Shared.first : Shared {} := by
  refine ⟨⟨fun low => (nomatch low), ?_, rfl, rfl, rfl⟩, ⟨fun low => (nomatch low), rfl, rfl⟩, fun both => nomatch both.1⟩
  rintro (low | low) <;> exact nomatch low

theorem Shared.rd_active (shared : Shared b) (active : rdActive mem b i = true) : rdBusy (b.cycle i mem).rd = true := by
  have cell : (b.rd.tick ⟨b.rdGnt, i.run, i.base, i.len, i.own, i.first, i.second⟩).fsm.cell.cs = false := by
    simp only [rdActive, Bool.or_eq_true, Bool.not_eq_true'] at active
    obtain (cell | half) | whole := active
    · exact cell
    · exact @RdSound.half mem b.rd ⟨b.rdGnt, i.run, i.base, i.len, i.own, i.first, i.second⟩ shared.rd (.inl half)
    · exact @RdSound.whole mem b.rd ⟨b.rdGnt, i.run, i.base, i.len, i.own, i.first, i.second⟩ shared.rd (.inl whole)
  exact rdBusy_iff.mpr (tick_low cell shared.rd.cell)

theorem Shared.wr_active (shared : Shared b) (active : wrActive b i = true) : (b.cycle i mem).wr.busy = true := by
  obtain ⟨-, -, low, -⟩ := writer_tick b.wr b.rd.ownSync1 b.wrGnt i.ports
  obtain ⟨first, second⟩ := shared.wr.shows b.rd.ownSync1 b.wrGnt i.ports
  simp only [wrActive, first, second, Bool.or_self, Bool.not_eq_true'] at active
  exact low active

end BenchPod.PsramBus
