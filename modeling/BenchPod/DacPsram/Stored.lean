import BenchPod.DacPsram.Cells
import BenchPod.DacPsram.Prefetch

/-!
# The deep replay delivers the stored waveform

A burst's bytes are those of the PSRAM, or `bus_own` has touched it and the commit cell will know.
-/

namespace BenchPod.DacPsram

/-- The stored waveform, again and again. -/
def wave (mem : BitVec 24 → Byte) (base : BitVec 24) (len i : Nat) : Byte := mem (base + BitVec.ofNat 24 (i % len))

/-- The producer stands at a place of the waveform. -/
structure Placed (base : BitVec 24) (len c : Nat) (f : Fsm) : Prop where
  rdAddr : f.rdAddr = base + BitVec.ofNat 24 (c % len)
  remaining : f.remaining = len - c % len

/-- `bus_own` is on its way to the producer, or has arrived. -/
def Taint (r : Reader) : Prop := r.own = true ∨ r.ownSync0 = true ∨ r.ownSync1 = true ∨ r.fsm.lost = true

/-- What of it is left after the last byte. -/
def Aged (r : Reader) : Prop :=
  r.fsm.lost = true ∨ (r.fsm.cellPh ≤ 1 ∧ r.ownSync1 = true) ∨ (r.fsm.cellPh = 0 ∧ r.ownSync0 = true)

/-- Where a running reader stands in a burst. -/
inductive Stage (mem : BitVec 24 → Byte) (src : Nat → Byte) (r : Reader) (rd c s : Nat) : Prop
  | resting (now : r.fsm.st = .idle) (lost : r.fsm.lost = false) (idle : r.fsm.cell.Idle) (rest : r.serial.Rest)
      (all : s = c) (room48 : r.fifo.roomOk48 = true → s < rd + 24) (room0 : r.roomOk0 = true → s < rd + 24)
      (room1 : r.roomOk1 = true → s < rd + 24)
  | flowing (clocks n : Nat) (shows : r.fsm.Shows clocks n) (some_bytes : 1 ≤ r.fsm.burstBytes)
      (fits : r.fsm.burstBytes ≤ r.fsm.remaining) (space : c + r.fsm.burstBytes ≤ rd + 32)
      (here : r.serial.At r.fsm.cell (2 * r.fsm.cellPh + 2)) (count : s = c + (n - 1))
      (right : Taint r ∨ Follows mem r.fsm.rdAddr r.fsm.cell clocks (2 * r.fsm.cellPh + 2) r.serial r.chip ∧
        Ahead src c s r.fifo)
  | cut (now : r.fsm.st = .csh) (lost : r.fsm.lost = true) (idle : r.fsm.cell.Idle) (rest : r.serial.Rest)
  | closing (now : r.fsm.st = .cmt) (idle : r.fsm.cell.Idle) (rest : r.serial.Rest)
      (whole : r.fsm.lost = false → s = c + r.fsm.burstBytes ∧ 1 ≤ r.fsm.burstBytes ∧ r.fsm.burstBytes ≤ r.fsm.remaining)
      (right : Aged r ∨ Ahead src c s r.fifo) (room48 : 1 ≤ r.fsm.cellPh → r.fifo.roomOk48 = true → s < rd + 24)
      (room0 : 2 ≤ r.fsm.cellPh → r.roomOk0 = true → s < rd + 24)
      (room1 : 3 ≤ r.fsm.cellPh → r.roomOk1 = true → s < rd + 24)

/-- A running reader. -/
structure Armed (mem : BitVec 24 → Byte) (src : Nat → Byte) (base : BitVec 24) (len : Nat) (popped : List Byte)
    (r : Reader) (rd c s : Nat) : Prop where
  placed : Placed base len c r.fsm
  stocked : Stocked src popped rd c s r.fifo
  quiet : r.serial.Quiet
  cellPh : r.fsm.cellPh ≤ 3
  tgl : r.fsm.cellTgl = r.serial.tglM
  stage : Stage mem src r rd c s

/-- A cycle of a running reader. -/
structure Cycled (mem : BitVec 24 → Byte) (r : Reader) (input : Input) (serial : Serial) (chip : Chip) (r' : Reader) :
    Prop where
  fsm : r'.fsm = r.fsm.tick r.base r.len.toNat true r.roomOk1 r.ownSync1 input.gnt
  own : r'.own = input.own
  ownSync0 : r'.ownSync0 = r.own
  ownSync1 : r'.ownSync1 = r.ownSync0
  roomOk0 : r'.roomOk0 = r.fifo.roomOk48
  roomOk1 : r'.roomOk1 = r.roomOk0
  serial₁ : serial = r.serial.tick true r'.fsm (r.chip.drive.getD input.first.noise)
  chip₁ : input.own = false →
    chip = r.chip.tick mem r.serial.cs r.serial.sclk (r.serial.shown (r.chip.drive.getD input.first.noise))
  serial₂ : r'.serial = serial.tick true r'.fsm (chip.drive.getD input.second.noise)
  chip₂ : input.own = false →
    r'.chip = chip.tick mem serial.cs serial.sclk (serial.shown (chip.drive.getD input.second.noise))
  fifo : r'.fifo = r.fifo.twice r.serial serial input.first.pop input.second.pop

section Cycle

variable {mem : BitVec 24 → Byte} {src : Nat → Byte} {r r' : Reader} {input : Input} {serial : Serial} {chip : Chip}
  {base : BitVec 24} {len rd c s : Nat} {popped : List Byte}

/-- The reader between the two edges of `clk48`. -/
def Reader.half (mem : BitVec 24 → Byte) (r : Reader) (input : Input) : Reader := (r.tick input).tick48 mem input.first

theorem cycled (on : r.runI = true) (run480 : r.run480 = true) (run481 : r.run481 = true) :
    Cycled mem r input (r.half mem input).serial (r.half mem input).chip (r.cycle mem input) := by
  have first : (r.tick input).run481 = true := run481
  have second : (r.half mem input).run481 = true := run480
  have fsm : (r.cycle mem input).fsm = r.fsm.tick r.base r.len.toNat true r.roomOk1 r.ownSync1 input.gnt := by
    rw [← on]
    rfl
  refine ⟨fsm, rfl, rfl, rfl, rfl, rfl, ?_, fun free => ?_, ?_, fun free => ?_, ?_⟩
  · show (r.tick input).serial.tick (r.tick input).run481 _ _ = _
    rw [first]
    rfl
  · show (if input.own then _ else _) = _
    rw [free]
    rfl
  · show Serial.tick _ (r.half mem input).run481 _ _ = _
    rw [second]
    rfl
  · show (if input.own then _ else _) = _
    rw [free]
    rfl
  · show Fifo.tick (Fifo.tick _ (r.tick input).run481 _ _) (r.half mem input).run481 _ _ = _
    rw [second, first]
    rfl

/-- The producer takes note of `bus_own`. -/
def Fsm.noted (f : Fsm) (busOwn : Bool) : Fsm := { f with lost := f.lost || (busOwn && f.st ≠ St.idle) }

theorem Fsm.tick_mid {f : Fsm} {roomOk busOwn gnt : Bool} (mid : f.cellPh ≠ 3) :
    f.tick base len true roomOk busOwn gnt = { f.noted busOwn with cellPh := f.cellPh + 1 } := by
  rw [Fsm.tick, if_neg (by decide), if_neg mid]
  rfl

theorem Fsm.tick_go {f : Fsm} {roomOk busOwn gnt : Bool} (go : f.cellPh = 3) :
    f.tick base len true roomOk busOwn gnt =
      { (f.noted busOwn).cellStep base len roomOk busOwn gnt with cellPh := 0 } := by
  rw [Fsm.tick, if_neg (by decide), if_pos go]
  rfl

/-- A cycle keeps a running reader's books, and its FIFO does not fail. -/
def Next (mem : BitVec 24 → Byte) (src : Nat → Byte) (base : BitVec 24) (len : Nat) (popped : List Byte) (r r' : Reader)
    (input : Input) (serial : Serial) : Prop :=
  (∃ rd c s, Armed mem src base len (popped ++ r.fifo.takenTwice r.serial input.first.pop input.second.pop) r' rd c s) ∧
    (r.fifo.fault r.serial || (r.fifo.tick true r.serial input.first.pop).fault serial) = false

theorem Cycled.tgl (cycle : Cycled mem r input serial chip r') : r'.fsm.cellTgl = r'.serial.tglM := by
  rw [cycle.serial₂, Serial.tick_tglM]

theorem Cycled.tgl₁ (cycle : Cycled mem r input serial chip r') : r'.fsm.cellTgl = serial.tglM := by
  rw [cycle.serial₁, Serial.tick_tglM]

theorem Cycled.rest (cycle : Cycled mem r input serial chip r') (rest : r.serial.Rest)
    (same : r'.fsm.cellTgl = r.serial.tglM) : serial.Quiet ∧ r'.serial.Rest ∧ r'.serial.Quiet := by
  obtain ⟨rest₁, quiet₁⟩ := rest.hold same (r.chip.drive.getD input.first.noise)
  rw [← cycle.serial₁] at rest₁ quiet₁
  obtain ⟨rest₂, quiet₂⟩ := rest₁.hold cycle.tgl₁ (chip.drive.getD input.second.noise)
  rw [← cycle.serial₂] at rest₂ quiet₂
  exact ⟨quiet₁, rest₂, quiet₂⟩

theorem Armed.resting_mid (armed : Armed mem src base len popped r rd c s) (cycle : Cycled mem r input serial chip r')
    (mid : r.fsm.cellPh ≠ 3) (now : r.fsm.st = .idle) (lost : r.fsm.lost = false) (idle : r.fsm.cell.Idle)
    (rest : r.serial.Rest) (all : s = c) (room48 : r.fifo.roomOk48 = true → s < rd + 24)
    (room0 : r.roomOk0 = true → s < rd + 24) : Next mem src base len popped r r' input serial := by
  have fsm := cycle.fsm
  rw [Fsm.tick_mid mid] at fsm
  obtain ⟨quiet₁, rest₂, quiet₂⟩ := cycle.rest rest (by rw [fsm]; exact armed.tgl)
  obtain ⟨rd', served, -, room⟩ := armed.stocked.twice_quiet input.first.pop input.second.pop armed.quiet quiet₁
  have later := served.later
  refine ⟨⟨rd', c, s, ?_, ?_, quiet₂, ?_, cycle.tgl, .resting ?_ ?_ ?_ rest₂ all ?_ ?_ ?_⟩, served.sound⟩
  · rw [fsm]
    exact ⟨armed.placed.rdAddr, armed.placed.remaining⟩
  · rw [cycle.fifo]
    exact served.stocked
  · rw [fsm]
    have := armed.cellPh
    show r.fsm.cellPh + 1 ≤ 3
    omega
  · rw [fsm]
    exact now
  · rw [fsm]
    show (r.fsm.lost || (r.ownSync1 && decide (r.fsm.st ≠ St.idle))) = false
    rw [lost, now]
    simp
  · rw [fsm]
    exact idle
  · rw [cycle.fifo]
    exact room
  · rw [cycle.roomOk0]
    exact fun ok => by have := room48 ok; omega
  · rw [cycle.roomOk1]
    exact fun ok => by have := room0 ok; omega

theorem Fsm.Shows.marked {f : Fsm} {clocks n : Nat} (shows : f.Shows clocks n) (lost : Bool) (cellPh : Nat) :
    ({ f with lost, cellPh } : Fsm).Shows clocks n := by
  cases shows with
  | lead now cell left => exact .lead now cell left
  | cmd now index cell left => exact .cmd now index cell left
  | addr i now low index cell left => exact .addr i now low index cell left
  | lastAddr now index cell left => exact .lastAddr now index cell left
  | dummy i now low index cell left => exact .dummy i now low index cell left
  | lastDummy now cell left => exact .lastDummy now cell left
  | data i now cell left more => exact .data i now cell left more
  | last i now cell left whole => exact .last i now cell left whole

theorem Fsm.Shows.not_idle {f : Fsm} {clocks n : Nat} (shows : f.Shows clocks n) : f.st ≠ .idle := by
  obtain now | now | now | now | now := shows.state <;> rw [now] <;> decide

theorem Fsm.noted_lost {f : Fsm} (busOwn : Bool) (busy : f.st ≠ .idle) : (f.noted busOwn).lost = (f.lost || busOwn) := by
  show (f.lost || (busOwn && decide (f.st ≠ St.idle))) = _
  rw [decide_eq_true busy, Bool.and_true]

theorem Cycled.taint (cycle : Cycled mem r input serial chip r') (taint : Taint r)
    (lost : r'.fsm.lost = (r.fsm.lost || r.ownSync1)) : Taint r' := by
  obtain own | sync0 | sync1 | gone := taint
  · exact .inr (.inl (cycle.ownSync0.trans own))
  · exact .inr (.inr (.inl (cycle.ownSync1.trans sync0)))
  · exact .inr (.inr (.inr (by rw [lost, sync1, Bool.or_true])))
  · exact .inr (.inr (.inr (by rw [lost, gone, Bool.true_or])))

/-- Inside a cell of a burst. -/
theorem Armed.flowing_mid {clocks n : Nat} (armed : Armed mem src base len popped r rd c s)
    (cycle : Cycled mem r input serial chip r') (mid : r.fsm.cellPh ≠ 3) (shows : r.fsm.Shows clocks n)
    (some_bytes : 1 ≤ r.fsm.burstBytes) (fits : r.fsm.burstBytes ≤ r.fsm.remaining)
    (space : c + r.fsm.burstBytes ≤ rd + 32) (here : r.serial.At r.fsm.cell (2 * r.fsm.cellPh + 2))
    (count : s = c + (n - 1))
    (right : Taint r ∨ Follows mem r.fsm.rdAddr r.fsm.cell clocks (2 * r.fsm.cellPh + 2) r.serial r.chip ∧
      Ahead src c s r.fifo) : Next mem src base len popped r r' input serial := by
  have fsm := cycle.fsm
  rw [Fsm.tick_mid mid] at fsm
  have early : r.fsm.cellPh ≤ 2 := by
    have := armed.cellPh
    omega
  have same : r'.fsm.cellTgl = r.serial.tglM := by
    rw [fsm]
    exact armed.tgl
  obtain ⟨here₁, quiet₁, -⟩ := here.next (by omega) (by omega) same (r.chip.drive.getD input.first.noise)
  rw [← cycle.serial₁] at here₁ quiet₁
  obtain ⟨here₂, quiet₂, -⟩ := here₁.next (by omega) (by omega) cycle.tgl₁ (chip.drive.getD input.second.noise)
  rw [← cycle.serial₂] at here₂ quiet₂
  obtain ⟨rd', served, fmem, -⟩ := armed.stocked.twice_quiet input.first.pop input.second.pop armed.quiet quiet₁
  have later := served.later
  refine ⟨⟨rd', c, s, ?_, ?_, quiet₂, ?_, cycle.tgl, .flowing clocks n ?_ ?_ ?_ ?_ ?_ count ?_⟩, served.sound⟩
  · rw [fsm]
    exact ⟨armed.placed.rdAddr, armed.placed.remaining⟩
  · rw [cycle.fifo]
    exact served.stocked
  · rw [fsm]
    exact Nat.succ_le_succ early
  · rw [fsm]
    exact shows.marked _ _
  · rw [fsm]
    exact some_bytes
  · rw [fsm]
    exact fits
  · rw [fsm]
    show c + r.fsm.burstBytes ≤ rd' + 32
    omega
  · rw [fsm]
    exact here₂
  · obtain taint | ⟨follows, ahead⟩ := right
    · exact .inl (cycle.taint taint (by rw [fsm]; exact Fsm.noted_lost r.ownSync1 shows.not_idle))
    cases own : input.own with
    | true => exact .inl (.inl (cycle.own.trans own))
    | false =>
      refine .inr ⟨?_, ?_⟩
      · have follows₁ := follows.next here shows.sends (by omega) (by omega) same input.first.noise
        rw [← cycle.serial₁, ← cycle.chip₁ own] at follows₁
        have follows₂ := follows₁.next here₁ shows.sends (by omega) (by omega) cycle.tgl₁ input.second.noise
        rw [← cycle.serial₂, ← cycle.chip₂ own] at follows₂
        rw [fsm]
        exact follows₂
      · rw [cycle.fifo]
        exact ahead.of_fmem fmem

theorem Armed.cut_mid (armed : Armed mem src base len popped r rd c s) (cycle : Cycled mem r input serial chip r')
    (mid : r.fsm.cellPh ≠ 3) (now : r.fsm.st = .csh) (lost : r.fsm.lost = true) (idle : r.fsm.cell.Idle)
    (rest : r.serial.Rest) : Next mem src base len popped r r' input serial := by
  have fsm := cycle.fsm
  rw [Fsm.tick_mid mid] at fsm
  obtain ⟨quiet₁, rest₂, quiet₂⟩ := cycle.rest rest (by rw [fsm]; exact armed.tgl)
  obtain ⟨rd', served, -, -⟩ := armed.stocked.twice_quiet input.first.pop input.second.pop armed.quiet quiet₁
  refine ⟨⟨rd', c, s, ?_, ?_, quiet₂, ?_, cycle.tgl, .cut ?_ ?_ ?_ rest₂⟩, served.sound⟩
  · rw [fsm]
    exact ⟨armed.placed.rdAddr, armed.placed.remaining⟩
  · rw [cycle.fifo]
    exact served.stocked
  · rw [fsm]
    have := armed.cellPh
    show r.fsm.cellPh + 1 ≤ 3
    omega
  · rw [fsm]
    exact now
  · rw [fsm]
    show (r.fsm.lost || _) = true
    rw [lost, Bool.true_or]
  · rw [fsm]
    exact idle

/-- Inside the gap before the commit cell. -/
theorem Armed.closing_mid (armed : Armed mem src base len popped r rd c s) (cycle : Cycled mem r input serial chip r')
    (mid : r.fsm.cellPh ≠ 3) (now : r.fsm.st = .cmt) (idle : r.fsm.cell.Idle) (rest : r.serial.Rest)
    (whole : r.fsm.lost = false → s = c + r.fsm.burstBytes ∧ 1 ≤ r.fsm.burstBytes ∧
      r.fsm.burstBytes ≤ r.fsm.remaining)
    (right : Aged r ∨ Ahead src c s r.fifo) (room48 : 1 ≤ r.fsm.cellPh → r.fifo.roomOk48 = true → s < rd + 24)
    (room0 : 2 ≤ r.fsm.cellPh → r.roomOk0 = true → s < rd + 24) : Next mem src base len popped r r' input serial := by
  have fsm := cycle.fsm
  rw [Fsm.tick_mid mid] at fsm
  obtain ⟨quiet₁, rest₂, quiet₂⟩ := cycle.rest rest (by rw [fsm]; exact armed.tgl)
  obtain ⟨rd', served, fmem, room⟩ := armed.stocked.twice_quiet input.first.pop input.second.pop armed.quiet quiet₁
  have later := served.later
  have lost : r'.fsm.lost = (r.fsm.lost || r.ownSync1) := by
    rw [fsm]
    exact Fsm.noted_lost r.ownSync1 (by rw [now]; decide)
  have cellPh : r'.fsm.cellPh = r.fsm.cellPh + 1 := by rw [fsm]
  refine ⟨⟨rd', c, s, ?_, ?_, quiet₂, ?_, cycle.tgl, .closing ?_ ?_ rest₂ ?_ ?_ ?_ ?_ ?_⟩, served.sound⟩
  · rw [fsm]
    exact ⟨armed.placed.rdAddr, armed.placed.remaining⟩
  · rw [cycle.fifo]
    exact served.stocked
  · have := armed.cellPh
    omega
  · rw [fsm]
    exact now
  · rw [fsm]
    exact idle
  · intro kept
    rw [lost, Bool.or_eq_false_iff] at kept
    rw [fsm]
    exact whole kept.1
  · obtain (gone | ⟨early, sync1⟩ | ⟨first, sync0⟩) | ahead := right
    · exact .inl (.inl (by rw [lost, gone, Bool.true_or]))
    · exact .inl (.inl (by rw [lost, sync1, Bool.or_true]))
    · exact .inl (.inr (.inl ⟨by omega, cycle.ownSync1.trans sync0⟩))
    · rw [cycle.fifo]
      exact .inr (ahead.of_fmem fmem)
  · rw [cycle.fifo]
    exact fun _ => room
  · rw [cycle.roomOk0]
    intro late ok
    have := room48 (by omega) ok
    omega
  · rw [cycle.roomOk1]
    intro late ok
    have := room0 (by omega) ok
    omega

theorem Cycled.new (cycle : Cycled mem r input serial chip r') (tgl : r.fsm.cellTgl = r.serial.tglM)
    (flips : r'.fsm.cellTgl = !r.fsm.cellTgl) :
    serial.At r'.fsm.cell 1 ∧ serial.push = r.serial.capPend ∧ serial.cmtP = r'.fsm.cellCmt ∧
      serial.abtP = r'.fsm.cellAbt ∧ r'.serial.At r'.fsm.cell 2 ∧ r'.serial.Quiet := by
  have new : (r'.fsm.cellTgl != r.serial.tglM) = true := by
    rw [flips, tgl]
    cases r.serial.tglM <;> rfl
  obtain ⟨here₁, push, cmtP, abtP, -⟩ := Serial.tick_new new (r.chip.drive.getD input.first.noise)
  rw [← cycle.serial₁] at here₁ push cmtP abtP
  obtain ⟨here₂, quiet₂, -⟩ := here₁.next (Nat.le_refl 1) (by decide) cycle.tgl₁ (chip.drive.getD input.second.noise)
  rw [← cycle.serial₂] at here₂ quiet₂
  exact ⟨here₁, push, cmtP, abtP, here₂, quiet₂⟩

theorem Cell.idle_default : ({} : Cell).Idle := ⟨rfl, rfl, rfl⟩

/-- Between bursts, a new cell: another idle one, or the lead of a burst. -/
theorem Armed.resting_go (armed : Armed mem src base len popped r rd c s) (cycle : Cycled mem r input serial chip r')
    (go : r.fsm.cellPh = 3) (now : r.fsm.st = .idle) (lost : r.fsm.lost = false) (rest : r.serial.Rest)
    (all : s = c) (room48 : r.fifo.roomOk48 = true → s < rd + 24) (room0 : r.roomOk0 = true → s < rd + 24)
    (room1 : r.roomOk1 = true → s < rd + 24) : Next mem src base len popped r r' input serial := by
  have fsm := cycle.fsm
  rw [Fsm.tick_go go] at fsm
  have quietly : r.fsm.noted r.ownSync1 = r.fsm := by
    have same : (r.fsm.lost || (r.ownSync1 && decide (r.fsm.st ≠ St.idle))) = r.fsm.lost := by simp [now]
    rw [Fsm.noted, same]
  rw [quietly] at fsm
  obtain ⟨rdAddr, remaining, lost', flips, cellCmt, cellAbt, went⟩ :=
    Fsm.cellStep_idle r.base r.len.toNat r.roomOk1 r.ownSync1 input.gnt now
  obtain ⟨here₁, push, cmtP, abtP, here₂, quiet₂⟩ := cycle.new armed.tgl (by rw [fsm]; exact flips)
  have quiet₁ : serial.Quiet := by
    refine ⟨push.trans rest.capPend, cmtP.trans ?_, abtP.trans ?_⟩
    · rw [fsm]
      exact cellCmt
    · rw [fsm]
      exact cellAbt
  obtain ⟨rd', served, fmem, room⟩ := armed.stocked.twice_quiet input.first.pop input.second.pop armed.quiet quiet₁
  have later := served.later
  have placed : Placed base len c r'.fsm := by
    rw [fsm]
    exact ⟨rdAddr.trans armed.placed.rdAddr, remaining.trans armed.placed.remaining⟩
  have stocked := served.stocked
  rw [show r.fifo.twice _ _ _ _ = r'.fifo from cycle.fifo.symm] at stocked
  have cellPh : r'.fsm.cellPh = 0 := by rw [fsm]
  refine ⟨⟨rd', c, s, placed, stocked, quiet₂, by omega, cycle.tgl, ?_⟩, served.sound⟩
  obtain ⟨still, cell⟩ | ⟨some_left, roomy, free, burst, shows⟩ := went
  · have cell : r'.fsm.cell = {} := by
      rw [fsm]
      exact cell
    have idle : r'.fsm.cell.Idle := by
      rw [cell]
      exact Cell.idle_default
    refine .resting ?_ ?_ idle (here₂.rest idle) all ?_ ?_ ?_
    · rw [fsm]
      exact still
    · rw [fsm]
      exact lost'.trans lost
    · rw [cycle.fifo]
      exact room
    · rw [cycle.roomOk0]
      exact fun ok => Nat.lt_of_lt_of_le (room48 ok) (Nat.add_le_add_right later 24)
    · rw [cycle.roomOk1]
      exact fun ok => Nat.lt_of_lt_of_le (room0 ok) (Nat.add_le_add_right later 24)
  · have roomy := room1 roomy
    have burst' : r'.fsm.burstBytes = min 8 r.fsm.remaining := by
      rw [fsm]
      exact burst
    have remaining' : r'.fsm.remaining = r.fsm.remaining := by
      rw [fsm]
      exact remaining
    have shows' : r'.fsm.Shows 0 0 := by
      rw [fsm]
      exact shows.marked _ 0
    refine .flowing 0 0 shows' (by omega) (by omega) (by omega) ?_ all ?_
    · rw [cellPh]
      exact here₂
    · cases own : input.own with
      | true => exact .inl (.inl (cycle.own.trans own))
      | false =>
        refine .inr ⟨?_, fun i low high => by omega⟩
        have started : Follows mem r'.fsm.rdAddr r'.fsm.cell 0 1 serial chip := by
          rw [cycle.serial₁, cycle.chip₁ own]
          exact Follows.start rest.cs _ _
        have follows := started.next here₁ shows'.sends (Nat.le_refl 1) (by decide) cycle.tgl₁ input.second.noise
        rw [← cycle.serial₂, ← cycle.chip₂ own] at follows
        rw [cellPh]
        exact follows

/-- After a cut, the gap. -/
theorem Armed.cut_go (armed : Armed mem src base len popped r rd c s) (cycle : Cycled mem r input serial chip r')
    (go : r.fsm.cellPh = 3) (now : r.fsm.st = .csh) (lost : r.fsm.lost = true) (rest : r.serial.Rest) :
    Next mem src base len popped r r' input serial := by
  have fsm := cycle.fsm
  rw [Fsm.tick_go go] at fsm
  have noted : (r.fsm.noted r.ownSync1).lost = true := by
    show (r.fsm.lost || _) = true
    rw [lost, Bool.true_or]
  obtain ⟨same, closes, cell, -⟩ :=
    @Fsm.cellStep_csh (r.fsm.noted r.ownSync1) r.base r.len.toNat r.roomOk1 r.ownSync1 input.gnt now
  obtain ⟨here₁, push, cmtP, abtP, here₂, quiet₂⟩ := cycle.new armed.tgl (by rw [fsm]; exact same.cellTgl)
  have quiet₁ : serial.Quiet := by
    refine ⟨push.trans rest.capPend, cmtP.trans ?_, abtP.trans ?_⟩
    · rw [fsm]
      exact same.cellCmt
    · rw [fsm]
      exact same.cellAbt
  obtain ⟨rd', served, -, -⟩ := armed.stocked.twice_quiet input.first.pop input.second.pop armed.quiet quiet₁
  have stocked := served.stocked
  rw [show r.fifo.twice _ _ _ _ = r'.fifo from cycle.fifo.symm] at stocked
  have cellPh : r'.fsm.cellPh = 0 := by rw [fsm]
  have lost' : r'.fsm.lost = true := by
    rw [fsm]
    exact same.lost.trans noted
  have idle : r'.fsm.cell.Idle := by
    rw [fsm]
    show Cell.Idle (Fsm.cell _)
    rw [cell]
    exact Cell.idle_default
  refine ⟨⟨rd', c, s, ?_, stocked, quiet₂, by omega, cycle.tgl,
    .closing ?_ idle (here₂.rest idle) ?_ (.inl (.inl lost')) ?_ ?_ ?_⟩, served.sound⟩
  · rw [fsm]
    exact ⟨same.rdAddr.trans armed.placed.rdAddr, same.remaining.trans armed.placed.remaining⟩
  · rw [fsm]
    exact closes
  · exact fun kept => absurd lost' (by rw [kept]; decide)
  · exact fun late => by omega
  · exact fun late => by omega
  · exact fun late => by omega

theorem Stocked.fed {q : Fifo} {serial serial' : Serial} {n : Nat} (pop pop' : Bool)
    (stocked : Stocked src popped rd c s q) (quiet : serial.Quiet) (push : serial'.push = decide (1 ≤ n))
    (cmtP : serial'.cmtP = false) (abtP : serial'.abtP = false) (count : s = c + (n - 1)) (space : c + n ≤ rd + 32) :
    ∃ rd', Served src popped rd c (c + n) q serial serial' pop pop' rd' ∧
      (Ahead src c s q → (1 ≤ n → serial'.pushByte = src (c + (n - 1))) →
        Ahead src c (c + n) (q.twice serial serial' pop pop')) := by
  rcases Nat.eq_zero_or_pos n with rfl | some_byte
  · obtain ⟨rd', served, fmem, -⟩ := stocked.twice_quiet pop pop' quiet ⟨push, cmtP, abtP⟩
    rw [show s = c + 0 from count] at served
    refine ⟨rd', served, fun ahead _ => ?_⟩
    rw [show s = c + 0 from count] at ahead
    exact ahead.of_fmem fmem
  · have some_byte : 1 ≤ n := some_byte
    rw [decide_eq_true some_byte] at push
    obtain ⟨rd', served, fmem⟩ := stocked.twice_pushed pop pop' quiet push cmtP abtP (by omega)
    have next : s + 1 = c + n := by omega
    rw [next] at served
    have reads := stocked.read_le
    refine ⟨rd', served, fun ahead right => ?_⟩
    rw [← next]
    exact ahead.pushed (by omega) (by rw [right some_byte, count]) fmem

theorem Placed.wave {f : Fsm} (placed : Placed base len c f) {i : Nat} (inside : i < f.remaining) :
    mem (f.rdAddr + BitVec.ofNat 24 i) = wave mem base len (c + i) := by
  have place := placed.remaining
  have below : c % len + i < len := by omega
  have lap : (c + i) % len = c % len + i := by
    rw [Nat.add_mod, Nat.mod_eq_of_lt (show i < len by omega), Nat.mod_eq_of_lt below]
  rw [DacPsram.wave, placed.rdAddr, lap, BitVec.add_assoc, ← BitVec.ofNat_add]

theorem Armed.flowing_fed {clocks n : Nat} (armed : Armed mem (wave mem base len) base len popped r rd c s)
    (cycle : Cycled mem r input serial chip r') (shows : r.fsm.Shows clocks n)
    (same : Fsm.Same (r.fsm.noted r.ownSync1) r'.fsm) (fits : r.fsm.burstBytes ≤ r.fsm.remaining)
    (space : c + r.fsm.burstBytes ≤ rd + 32) (here : r.serial.At r.fsm.cell 8) (count : s = c + (n - 1)) :
    serial.At r'.fsm.cell 1 ∧ r'.serial.At r'.fsm.cell 2 ∧
      ∃ rd', rd ≤ rd' ∧
        (∀ cellPh, r'.fsm.cellPh = cellPh → cellPh ≤ 3 → Stage mem (wave mem base len) r' rd' c (c + n) →
          Next mem (wave mem base len) base len popped r r' input serial) ∧
        (Follows mem r.fsm.rdAddr r.fsm.cell clocks 8 r.serial r.chip ∧ Ahead (wave mem base len) c s r.fifo →
          Ahead (wave mem base len) c (c + n) r'.fifo) := by
  have left := shows.left
  have flips : r'.fsm.cellTgl = !r.fsm.cellTgl := same.cellTgl
  obtain ⟨here₁, push, cmtP, abtP, here₂, quiet₂⟩ := cycle.new armed.tgl flips
  have pended : r.serial.capPend = decide (1 ≤ n) := by
    rw [here.capPend, shows.cap]
    simp
  obtain ⟨rd', served, feeds⟩ := armed.stocked.fed input.first.pop input.second.pop armed.quiet (push.trans pended)
    (cmtP.trans same.cellCmt) (abtP.trans same.cellAbt) count (by omega)
  have stocked := served.stocked
  rw [show r.fifo.twice _ _ _ _ = r'.fifo from cycle.fifo.symm] at stocked feeds
  refine ⟨here₁, here₂, rd', served.later, fun cellPh now low stage => ?_, ?_⟩
  · refine ⟨⟨rd', c, c + n, ?_, stocked, quiet₂, by omega, cycle.tgl, stage⟩, served.sound⟩
    exact ⟨same.rdAddr.trans armed.placed.rdAddr, same.remaining.trans armed.placed.remaining⟩
  · rintro ⟨follows, ahead⟩
    refine feeds ahead fun some_byte => ?_
    have new : (r'.fsm.cellTgl != r.serial.tglM) = true := by
      rw [flips, armed.tgl]
      cases r.serial.tglM <;> rfl
    have cap : r.fsm.cell.cap = true := by
      rw [shows.cap]
      exact decide_eq_true some_byte
    rw [cycle.serial₁, follows.byte here shows.sends cap new, shows.byte some_byte]
    exact armed.placed.wave (by omega)

/-- A burst's next cell: another cell, the gap, or a cut. -/
theorem Armed.flowing_go {clocks n : Nat} (armed : Armed mem (wave mem base len) base len popped r rd c s)
    (cycle : Cycled mem r input serial chip r') (go : r.fsm.cellPh = 3) (shows : r.fsm.Shows clocks n)
    (some_bytes : 1 ≤ r.fsm.burstBytes) (fits : r.fsm.burstBytes ≤ r.fsm.remaining)
    (space : c + r.fsm.burstBytes ≤ rd + 32) (here : r.serial.At r.fsm.cell (2 * r.fsm.cellPh + 2))
    (count : s = c + (n - 1))
    (right : Taint r ∨ Follows mem r.fsm.rdAddr r.fsm.cell clocks (2 * r.fsm.cellPh + 2) r.serial r.chip ∧
      Ahead (wave mem base len) c s r.fifo) : Next mem (wave mem base len) base len popped r r' input serial := by
  have fsm := cycle.fsm
  rw [Fsm.tick_go go] at fsm
  have cellPh : r'.fsm.cellPh = 0 := by rw [fsm]
  have noted := Fsm.noted_lost r.ownSync1 shows.not_idle
  have shows₁ : (r.fsm.noted r.ownSync1).Shows clocks n := shows.marked _ _
  have left := shows.left
  rw [go] at here right
  by_cases gap : r.fsm.st = .csh
  · obtain ⟨same, closes, cell, dataLeft⟩ :=
      @Fsm.cellStep_csh (r.fsm.noted r.ownSync1) r.base r.len.toNat r.roomOk1 r.ownSync1 input.gnt gap
    have same' : Fsm.Same (r.fsm.noted r.ownSync1) r'.fsm := by
      rw [fsm]
      exact ⟨same.rdAddr, same.remaining, same.burstBytes, same.lost, same.cellTgl, same.cellCmt, same.cellAbt⟩
    obtain ⟨-, here₂, rd', later, next, ahead⟩ := armed.flowing_fed cycle shows same' fits space here count
    have idle : r'.fsm.cell.Idle := by
      rw [fsm]
      show Cell.Idle (Fsm.cell _)
      rw [cell]
      exact Cell.idle_default
    have lost : r'.fsm.lost = (r.fsm.lost || r.ownSync1) := same'.lost.trans noted
    have burst : r'.fsm.burstBytes = r.fsm.burstBytes := same'.burstBytes
    have remaining : r'.fsm.remaining = r.fsm.remaining := same'.remaining
    have all := shows.gap gap
    refine next 0 cellPh (Nat.zero_le 3) (.closing ?_ idle (here₂.rest idle) (fun _ => ⟨?_, ?_, ?_⟩) ?_ ?_ ?_ ?_)
    · rw [fsm]
      exact closes
    · rw [burst, all]
    · rw [burst]
      exact some_bytes
    · rw [burst, remaining]
      exact fits
    · -- the last byte came before anything that touches the bus now
      obtain (own | sync0 | sync1 | gone) | clean := right
      · exact .inl (.inr (.inr ⟨cellPh, cycle.ownSync0.trans own⟩))
      · exact .inl (.inr (.inl ⟨by omega, cycle.ownSync1.trans sync0⟩))
      · exact .inl (.inl (by rw [lost, sync1, Bool.or_true]))
      · exact .inl (.inl (by rw [lost, gone, Bool.true_or]))
      · exact .inr (ahead clean)
    · exact fun late => by omega
    · exact fun late => by omega
    · exact fun late => by omega
  by_cases lost : (r.fsm.noted r.ownSync1).lost = true
  · obtain ⟨same, cut, cell, -⟩ := shows₁.cut r.base r.len.toNat r.roomOk1 r.ownSync1 input.gnt lost gap
    have same' : Fsm.Same (r.fsm.noted r.ownSync1) r'.fsm := by
      rw [fsm]
      exact ⟨same.rdAddr, same.remaining, same.burstBytes, same.lost, same.cellTgl, same.cellCmt, same.cellAbt⟩
    obtain ⟨-, here₂, rd', later, next, -⟩ := armed.flowing_fed cycle shows same' fits space here count
    have idle : r'.fsm.cell.Idle := by
      rw [fsm]
      show Cell.Idle (Fsm.cell _)
      rw [cell]
      exact Cell.idle_default
    refine next 0 cellPh (Nat.zero_le 3) (.cut ?_ (same'.lost.trans lost) idle (here₂.rest idle))
    rw [fsm]
    exact cut
  · have kept : (r.fsm.noted r.ownSync1).lost = false := Bool.eq_false_iff.mpr lost
    have free : r.ownSync1 = false := by
      rw [noted, Bool.or_eq_false_iff] at kept
      exact kept.2
    obtain ⟨same, n', count', shows'⟩ :=
      shows₁.goes_on r.base r.len.toNat r.roomOk1 r.ownSync1 input.gnt some_bytes (by rw [kept, free]; rfl) gap
    have same' : Fsm.Same (r.fsm.noted r.ownSync1) r'.fsm := by
      rw [fsm]
      exact ⟨same.rdAddr, same.remaining, same.burstBytes, same.lost, same.cellTgl, same.cellCmt, same.cellAbt⟩
    obtain ⟨here₁, here₂, rd', later, next, ahead⟩ := armed.flowing_fed cycle shows same' fits space here count
    have shows₂ : r'.fsm.Shows (clocks + if r.fsm.cell.clk then 2 else 0) n' := by
      rw [fsm]
      exact shows'.marked _ 0
    have burst : r'.fsm.burstBytes = r.fsm.burstBytes := same'.burstBytes
    have remaining : r'.fsm.remaining = r.fsm.remaining := same'.remaining
    refine next 0 cellPh (Nat.zero_le 3) (.flowing _ n' shows₂ ?_ ?_ ?_ ?_ (by rw [count']) ?_)
    · rw [burst]
      exact some_bytes
    · rw [burst, remaining]
      exact fits
    · rw [burst]
      omega
    · rw [cellPh]
      exact here₂
    · obtain taint | ⟨follows, clean⟩ := right
      · exact .inl (cycle.taint taint (same'.lost.trans noted))
      cases own : input.own with
      | true => exact .inl (.inl (cycle.own.trans own))
      | false =>
        refine .inr ⟨?_, ahead ⟨follows, clean⟩⟩
        have follows₁ : Follows mem r.fsm.rdAddr r'.fsm.cell (clocks + if r.fsm.cell.clk then 2 else 0) 1 serial chip := by
          rw [cycle.serial₁, cycle.chip₁ own]
          exact follows.new here shows.sends _ _
        rw [cellPh, show r'.fsm.rdAddr = r.fsm.rdAddr from same'.rdAddr]
        have sends := shows₂.sends
        rw [show r'.fsm.rdAddr = r.fsm.rdAddr from same'.rdAddr] at sends
        have follows₂ := follows₁.next here₁ sends (Nat.le_refl 1) (by decide) cycle.tgl₁ input.second.noise
        rw [← cycle.serial₂, ← cycle.chip₂ own] at follows₂
        exact follows₂

theorem Placed.kept {f g : Fsm} (placed : Placed base len c f) (fits : f.burstBytes ≤ f.remaining)
    (some_bytes : 1 ≤ f.burstBytes) (lost : f.lost = false) (settled : Fsm.Settled base len f g) :
    Placed base len (c + f.burstBytes) g := by
  have place := placed.remaining
  have some_len : 0 < len := by omega
  have below : c % len < len := Nat.mod_lt _ some_len
  by_cases last : f.remaining = f.burstBytes
  · obtain ⟨rdAddr, remaining⟩ := settled.wrap lost last
    have lap : (c + f.burstBytes) % len = 0 := by
      rw [Nat.add_mod]
      rcases Nat.lt_or_ge f.burstBytes len with short | whole
      · rw [Nat.mod_eq_of_lt short, show c % len + f.burstBytes = len by omega, Nat.mod_self]
      · rw [show f.burstBytes = len by omega, Nat.mod_self, Nat.add_zero, Nat.mod_mod]
        omega
    refine ⟨?_, ?_⟩
    · rw [rdAddr, lap]
      exact (BitVec.add_zero base).symm
    · rw [remaining, lap, Nat.sub_zero]
  · obtain ⟨rdAddr, remaining⟩ := settled.advance lost last
    have lap : (c + f.burstBytes) % len = c % len + f.burstBytes := by
      rw [Nat.add_mod, Nat.mod_eq_of_lt (show f.burstBytes < len by omega), Nat.mod_eq_of_lt (by omega)]
    refine ⟨?_, ?_⟩
    · rw [rdAddr, placed.rdAddr, lap, BitVec.add_assoc, ← BitVec.ofNat_add]
    · rw [remaining, lap, place, Nat.sub_sub]

/-- The commit cell keeps a whole burst or drops one that was touched. -/
theorem Armed.closing_go (armed : Armed mem src base len popped r rd c s) (cycle : Cycled mem r input serial chip r')
    (region : r.base = base ∧ r.len.toNat = len) (go : r.fsm.cellPh = 3) (now : r.fsm.st = .cmt)
    (rest : r.serial.Rest)
    (whole : r.fsm.lost = false → s = c + r.fsm.burstBytes ∧ 1 ≤ r.fsm.burstBytes ∧
      r.fsm.burstBytes ≤ r.fsm.remaining)
    (right : Aged r ∨ Ahead src c s r.fifo) (room48 : r.fifo.roomOk48 = true → s < rd + 24)
    (room0 : r.roomOk0 = true → s < rd + 24) : Next mem src base len popped r r' input serial := by
  have fsm := cycle.fsm
  rw [Fsm.tick_go go] at fsm
  obtain ⟨rfl, rfl⟩ := region
  have noted : (r.fsm.noted r.ownSync1).lost = (r.fsm.lost || r.ownSync1) :=
    Fsm.noted_lost r.ownSync1 (by rw [now]; decide)
  have settled := @Fsm.cellStep_cmt (r.fsm.noted r.ownSync1) r.base r.len.toNat r.roomOk1 r.ownSync1 input.gnt now
    (fun own => by rw [noted, own, Bool.or_true])
  obtain ⟨here₁, push, cmtP, abtP, here₂, quiet₂⟩ := cycle.new armed.tgl (by rw [fsm]; exact settled.cellTgl)
  have push : serial.push = false := push.trans rest.capPend
  have cellPh : r'.fsm.cellPh = 0 := by rw [fsm]
  have idle : r'.fsm.cell.Idle := by
    rw [fsm]
    show Cell.Idle (Fsm.cell _)
    rw [settled.cell]
    exact Cell.idle_default
  have st : r'.fsm.st = .idle := by
    rw [fsm]
    exact settled.st
  have lost' : r'.fsm.lost = false := by
    rw [fsm]
    exact settled.lost
  have behind := armed.stocked.commit_le
  rcases Bool.eq_false_or_eq_true (r.fsm.noted r.ownSync1).lost with lost | kept
  · obtain ⟨cellCmt, cellAbt, rdAddr, remaining⟩ := settled.abort lost
    have cmtP : serial.cmtP = false := cmtP.trans (by rw [fsm]; exact cellCmt)
    have abtP : serial.abtP = true := abtP.trans (by rw [fsm]; exact cellAbt)
    obtain ⟨rd', served, room⟩ :=
      armed.stocked.twice_aborted input.first.pop input.second.pop armed.quiet push cmtP abtP
    have later := served.later
    have stocked := served.stocked
    rw [show r.fifo.twice _ _ _ _ = r'.fifo from cycle.fifo.symm] at stocked room
    refine ⟨⟨rd', c, c, ?_, stocked, quiet₂, by omega, cycle.tgl,
      .resting st lost' idle (here₂.rest idle) rfl room ?_ ?_⟩, served.sound⟩
    · rw [fsm]
      exact ⟨rdAddr.trans armed.placed.rdAddr, remaining.trans armed.placed.remaining⟩
    · rw [cycle.roomOk0]
      intro ok
      have := room48 ok
      omega
    · rw [cycle.roomOk1]
      intro ok
      have := room0 ok
      omega
  · have kept' := kept
    rw [noted, Bool.or_eq_false_iff] at kept'
    obtain ⟨all, some_bytes, fits⟩ := whole kept'.1
    have ahead : Ahead src c s r.fifo := by
      obtain (gone | ⟨early, -⟩ | ⟨first, -⟩) | ahead := right
      · rw [gone] at kept'
        cases kept'.1
      · omega
      · omega
      · exact ahead
    obtain ⟨cellCmt, cellAbt⟩ := settled.commit kept
    have cmtP : serial.cmtP = true := cmtP.trans (by rw [fsm]; exact cellCmt)
    have abtP : serial.abtP = false := abtP.trans (by rw [fsm]; exact cellAbt)
    obtain ⟨rd', served, room⟩ :=
      armed.stocked.twice_committed input.first.pop input.second.pop armed.quiet push cmtP abtP ahead
    have later := served.later
    have stocked := served.stocked
    rw [show r.fifo.twice _ _ _ _ = r'.fifo from cycle.fifo.symm] at stocked room
    have placed : Placed r.base r.len.toNat (c + r.fsm.burstBytes) r'.fsm := by
      have noted_placed : Placed r.base r.len.toNat c (r.fsm.noted r.ownSync1) :=
        ⟨armed.placed.rdAddr, armed.placed.remaining⟩
      have next := noted_placed.kept fits some_bytes kept settled
      rw [fsm]
      exact ⟨next.rdAddr, next.remaining⟩
    rw [← all] at placed
    refine ⟨⟨rd', s, s, placed, stocked, quiet₂, by omega, cycle.tgl,
      .resting st lost' idle (here₂.rest idle) rfl room ?_ ?_⟩, served.sound⟩
    · rw [cycle.roomOk0]
      intro ok
      have := room48 ok
      omega
    · rw [cycle.roomOk1]
      intro ok
      have := room0 ok
      omega

theorem Armed.next (armed : Armed mem (wave mem r.base r.len.toNat) r.base r.len.toNat popped r rd c s)
    (cycle : Cycled mem r input serial chip r') :
    Next mem (wave mem r.base r.len.toNat) r.base r.len.toNat popped r r' input serial := by
  by_cases go : r.fsm.cellPh = 3
  · cases armed.stage with
    | resting now lost idle rest all room48 room0 room1 =>
      exact armed.resting_go cycle go now lost rest all room48 room0 room1
    | flowing clocks n shows some_bytes fits space here count right =>
      exact armed.flowing_go cycle go shows some_bytes fits space here count right
    | cut now lost idle rest => exact armed.cut_go cycle go now lost rest
    | closing now idle rest whole right room48 room0 room1 =>
      exact armed.closing_go cycle ⟨rfl, rfl⟩ go now rest whole right (room48 (by omega)) (room0 (by omega))
  · cases armed.stage with
    | resting now lost idle rest all room48 room0 room1 =>
      exact armed.resting_mid cycle go now lost idle rest all room48 room0
    | flowing clocks n shows some_bytes fits space here count right =>
      exact armed.flowing_mid cycle go shows some_bytes fits space here count right
    | cut now lost idle rest => exact armed.cut_mid cycle go now lost idle rest
    | closing now idle rest whole right room48 room0 room1 =>
      exact armed.closing_mid cycle go now idle rest whole right room48 room0

end Cycle

/-- The reader between two cycles. -/
structure Sane (mem : BitVec 24 → Byte) (r : Reader) : Prop where
  run480 : r.run480 = r.runI
  run481 : r.run481 = r.runI
  tgl : r.fsm.cellTgl = r.serial.tglM
  cellPh : r.fsm.cellPh ≤ 3
  fault : r.fault = false
  off : r.runI = false → r.fromArm = []
  flushed : r.runD = false → r.fifo.doutVld = false
  armed : r.runI = true → ∃ rd c s, Armed mem (wave mem r.base r.len.toNat) r.base r.len.toNat r.fromArm r rd c s

section Runs

variable {mem : BitVec 24 → Byte} {r : Reader} {input : Input}

theorem stocked_reset (q : Fifo) (serial : Serial) (pop : Bool) (src : Nat → Byte) :
    Stocked src [] 0 0 0 (q.tick false serial pop) :=
  ⟨rfl, rfl, rfl, rfl, Nat.le_refl 0, Nat.le_refl 0, by decide, rfl, rfl, fun i _ high => absurd high (Nat.not_lt_zero i),
    fun full => absurd full Bool.false_ne_true, rfl⟩

theorem fromArm_cycle (r : Reader) (input : Input) {en : Bool} (run481 : r.run481 = en) :
    (r.cycle mem input).fromArm =
      if (r.cycle mem input).runI then
        r.fromArm ++ (r.fifo.taken input.first.pop ++
          (r.fifo.tick en r.serial input.first.pop).taken input.second.pop)
      else [] := by
  subst run481
  show (if (r.tick input).runI then (if (r.tick input).runI then r.fromArm ++ _ else []) ++ _ else []) =
    if (r.tick input).runI then _ else []
  split
  · rw [List.append_assoc]
    rfl
  · rfl

theorem Sane.running (sane : Sane mem r) (held : Held r input) (on : r.runI = true) : Sane mem (r.cycle mem input) := by
  obtain ⟨rd, c, s, armed⟩ := sane.armed on
  have run480 := sane.run480.trans on
  have run481 := sane.run481.trans on
  have run : r.run = true := (Bool.and_eq_true_iff.mp on).1
  have cycle := @cycled mem r input on run480 run481
  obtain ⟨⟨rd', c', s', next⟩, sound⟩ := armed.next cycle
  have popped := @fromArm_cycle mem r input true run481
  refine ⟨rfl, rfl, cycle.tgl, next.cellPh, ?_, fun off => ?_, fun low => ?_, fun on' => ⟨rd', c', s', ?_⟩⟩
  · have fifo : (r.half mem input).fifo = r.fifo.tick true r.serial input.first.pop := by
      show Fifo.tick _ r.run481 _ _ = _
      rw [run481]
      rfl
    show ((r.fault || (r.run481 && r.fifo.fault r.serial)) ||
      (r.run480 && (r.half mem input).fifo.fault (r.half mem input).serial)) = false
    rw [sane.fault, run481, run480, fifo]
    exact sound
  · rw [popped, off]
    rfl
  · exact absurd (show r.run = false from low) (by rw [run]; decide)
  · rw [on', if_pos rfl] at popped
    rw [popped]
    obtain ⟨base, len⟩ := held run (Bool.and_eq_true_iff.mp on').1
    show Armed mem (wave mem input.base input.len.toNat) input.base input.len.toNat _ _ rd' c' s'
    rw [base, len]
    exact next

/-- A cycle of a reader that does not run. -/
theorem Sane.stopped (sane : Sane mem r) (held : Held r input) (off : r.runI = false) : Sane mem (r.cycle mem input) := by
  have run480 := sane.run480.trans off
  have run481 := sane.run481.trans off
  have first : (r.half mem input).fifo = r.fifo.tick false r.serial input.first.pop := by
    show Fifo.tick _ r.run481 _ _ = _
    rw [run481]
    rfl
  have fifo : (r.cycle mem input).fifo = (r.fifo.tick false r.serial input.first.pop).tick false
      (r.half mem input).serial input.second.pop := by
    show Fifo.tick (r.half mem input).fifo r.run480 _ _ = _
    rw [run480, first]
    rfl
  have serial : (r.cycle mem input).serial = (r.half mem input).serial.cleared (r.cycle mem input).fsm := by
    show Serial.tick _ r.run480 _ _ = _
    rw [run480]
    rfl
  have fsm : (r.cycle mem input).fsm = r.fsm.tick r.base r.len.toNat false r.roomOk1 r.ownSync1 input.gnt := by
    rw [← off]
    rfl
  have popped : (r.cycle mem input).fromArm = [] := by
    rw [fromArm_cycle r input run481]
    split
    case isTrue on =>
      have run : r.run = true := (Bool.and_eq_true_iff.mp on).2
      have low : r.runD = false := by
        rw [Reader.runI, run, Bool.true_and] at off
        exact off
      have none_taken : r.fifo.taken input.first.pop = [] := by
        rw [Fifo.taken, sane.flushed low]
        rfl
      rw [sane.off off, none_taken]
      rfl
    case isFalse => rfl
  refine ⟨rfl, rfl, ?_, ?_, ?_, fun _ => popped, fun _ => ?_, fun on => ⟨0, 0, 0, ?_⟩⟩
  · rw [serial]
    rfl
  · rw [fsm]
    exact sane.cellPh
  · show ((r.fault || (r.run481 && _)) || (r.run480 && _)) = false
    rw [sane.fault, run481, run480]
    rfl
  · rw [fifo]
    rfl
  · obtain ⟨base, len⟩ := held (Bool.and_eq_true_iff.mp on).2 (Bool.and_eq_true_iff.mp on).1
    rw [popped]
    show Armed mem (wave mem input.base input.len.toNat) input.base input.len.toNat [] _ 0 0 0
    rw [base, len]
    refine ⟨⟨?_, ?_⟩, ?_, ?_, ?_, ?_, .resting ?_ ?_ ?_ ?_ rfl ?_ ?_ ?_⟩
    · rw [fsm, Nat.zero_mod]
      exact (BitVec.add_zero r.base).symm
    · rw [fsm, Nat.zero_mod]
      rfl
    · rw [fifo]
      exact stocked_reset _ _ _ _
    · rw [serial]
      exact ⟨rfl, rfl, rfl⟩
    · rw [fsm]
      exact sane.cellPh
    · rw [serial]
      rfl
    · rw [fsm]
      rfl
    · rw [fsm]
      rfl
    · rw [fsm]
      exact ⟨rfl, rfl, rfl⟩
    · rw [serial]
      exact ⟨rfl, rfl, rfl, rfl, rfl, rfl⟩
    · exact fun _ => by decide
    · exact fun _ => by decide
    · exact fun _ => by decide

theorem sane_run {inputs : List Input} (held : (replay mem).Along Held {} inputs) :
    Sane mem ((replay mem).run {} inputs) := by
  refine held.invariant _ (Sane mem) (fun {r input} sane held => ?_)
    ⟨rfl, rfl, rfl, by decide, rfl, fun _ => rfl, fun _ => rfl, fun on => absurd on (by decide)⟩
  rcases Bool.eq_false_or_eq_true r.runI with on | off
  · exact sane.running held on
  · exact sane.stopped held off

end Runs

instance (r : Reader) (input : Input) : Decidable (Held r input) := inferInstanceAs (Decidable (_ → _ → _ ∧ _))

/-- The bytes popped since the arm are the waveform from its first byte on, again and again, whatever the grants,
`bus_own`, the idle lines and the pops; the FIFO is never pushed when full or popped when empty. -/
theorem replay_delivers (mem : BitVec 24 → Byte) (inputs : List Input) (held : (replay mem).Along Held {} inputs) :
    let r := (replay mem).run {} inputs
    (∀ i (popped : i < r.fromArm.length), r.fromArm[i] = mem (r.base + BitVec.ofNat 24 (i % r.len.toNat))) ∧
      r.fault = false := by
  intro r
  have sane : Sane mem r := sane_run held
  refine ⟨fun i popped => ?_, sane.fault⟩
  rcases Bool.eq_false_or_eq_true r.runI with on | off
  · obtain ⟨rd, c, s, armed⟩ := sane.armed on
    have all := armed.stocked.popped_eq
    simp only [all, List.getElem_map, List.getElem_range]
    rfl
  · rw [sane.off off] at popped
    exact absurd popped (Nat.not_lt_zero i)

/-- A byte that tells its address. -/
def ownAddress (a : BitVec 24) : Byte := a.setWidth 8

/-- Three bytes at `0x10`, popped as they come; the STM32 takes the bus in the middle of a burst. -/
def threeBytes (n : Nat) : Input where
  base := 0x10
  len := 3
  own := n = 48
  first := { pop := true, noise := 0x5, foreign := { nib := 14 } }
  second := { pop := true }

theorem replay_delivers_three :
    let r := (replay ownAddress).run {} ((List.range 200).map threeBytes)
    r.fromArm.length = 6 ∧
      (∀ i (popped : i < r.fromArm.length), r.fromArm[i] = ownAddress (r.base + BitVec.ofNat 24 (i % r.len.toNat))) ∧
      r.fault = false := by
  have held : (replay ownAddress).Along Held {} ((List.range 200).map threeBytes) := by decide +kernel
  exact ⟨by decide +kernel, replay_delivers ownAddress _ held⟩

/-- In the edge after `run` rises from one low clock the old stream is still there: a pop then takes a byte of the
region before. -/
theorem stale_pop :
    let rearm : List Input := [{ run := false, base := 0x55, len := 3 }, { base := 0x55, len := 3, first := { pop := true } }]
    let r := (replay ownAddress).run {} (List.replicate 60 { base := 0x10, len := 3 } ++ rearm)
    (replay ownAddress).Along Held {} (List.replicate 60 { base := 0x10, len := 3 } ++ rearm) ∧
      r.run = true ∧ r.fromRun = [0x10] ∧ ownAddress r.base = 0x55 := by
  decide +kernel

end BenchPod.DacPsram
