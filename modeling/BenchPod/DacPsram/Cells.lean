import BenchPod.DacPsram.Burst

/-!
# The cells of a burst

Which cell the producer shows in each of its states, and how a burst goes on, is cut, is kept or is dropped.
-/

namespace BenchPod.DacPsram
namespace Fsm

/-- What is shown while a burst reads, with the clocks before the cell and the bytes that data cells were shown
for. -/
inductive Shows (f : Fsm) : Nat → Nat → Prop
  | lead (now : f.st = .cmd) (cell : f.cell = leadCell) (left : f.dataLeft = f.burstBytes) : Shows f 0 0
  | cmd (now : f.st = .addr) (index : f.addrIdx = 0) (cell : f.cell = cmdCell) (left : f.dataLeft = f.burstBytes) :
      Shows f 0 0
  | addr (i : Nat) (now : f.st = .addr) (low : i < 2) (index : f.addrIdx = i + 1) (cell : f.cell = addrCell f.rdAddr i)
      (left : f.dataLeft = f.burstBytes) : Shows f (2 * (i + 1)) 0
  | lastAddr (now : f.st = .dummy) (index : f.dumIdx = dumCells) (cell : f.cell = addrCell f.rdAddr 2)
      (left : f.dataLeft = f.burstBytes) : Shows f 6 0
  | dummy (i : Nat) (now : f.st = .dummy) (low : i < 2) (index : f.dumIdx + i = 2) (cell : f.cell = dummyCell)
      (left : f.dataLeft = f.burstBytes) : Shows f (8 + 2 * i) 0
  | lastDummy (now : f.st = .data) (cell : f.cell = dummyCell) (left : f.dataLeft = f.burstBytes) : Shows f 12 0
  | data (n : Nat) (now : f.st = .data) (cell : f.cell = dataCell) (left : f.dataLeft + (n + 1) = f.burstBytes)
      (more : 1 ≤ f.dataLeft) : Shows f (14 + 2 * n) (n + 1)
  | last (n : Nat) (now : f.st = .csh) (cell : f.cell = dataCell) (left : f.dataLeft = 0)
      (whole : f.burstBytes = n + 1) : Shows f (14 + 2 * n) (n + 1)

variable {f : Fsm} {clocks n : Nat}

theorem Shows.sends (shows : f.Shows clocks n) : f.cell.Sends f.rdAddr clocks := by
  have header {i : Nat} {p : Prop} (late : 8 ≤ i) (early : i < 8) : p := absurd early (Nat.not_lt.mpr late)
  cases shows with
  | lead now cell left =>
    rw [cell]
    exact ⟨rfl, rfl, fun on => absurd on (by decide), fun on => absurd on (by decide),
      fun on => absurd on (by decide), fun on => absurd on (by decide)⟩
  | cmd now index cell left =>
    rw [cell]
    exact ⟨rfl, rfl, fun _ _ => rfl, fun _ _ => rfl, fun _ _ => rfl, fun on => absurd on (by decide)⟩
  | addr i now low index cell left =>
    rw [cell]
    obtain rfl | rfl : i = 0 ∨ i = 1 := by omega
    all_goals
      exact ⟨rfl, rfl, fun _ _ => rfl, fun _ _ => rfl, fun _ _ => rfl, fun on => absurd on Bool.false_ne_true⟩
  | lastAddr now index cell left =>
    rw [cell]
    exact ⟨rfl, rfl, fun _ _ => rfl, fun _ _ => rfl, fun _ _ => rfl, fun on => absurd on Bool.false_ne_true⟩
  | dummy i now low index cell left =>
    rw [cell]
    exact ⟨rfl, by omega, fun _ => header (by omega), fun _ => header (by omega), fun _ => header (by omega),
      fun on => absurd on (by decide)⟩
  | lastDummy now cell left =>
    rw [cell]
    exact ⟨rfl, rfl, fun _ => header (by omega), fun _ => header (by omega), fun _ => header (by omega),
      fun on => absurd on (by decide)⟩
  | data i now cell left more =>
    rw [cell]
    exact ⟨rfl, by omega, fun _ => header (by omega), fun _ => header (by omega), fun _ => header (by omega),
      fun _ => ⟨rfl, by omega⟩⟩
  | last i now cell left whole =>
    rw [cell]
    exact ⟨rfl, by omega, fun _ => header (by omega), fun _ => header (by omega), fun _ => header (by omega),
      fun _ => ⟨rfl, by omega⟩⟩

theorem Shows.cap (shows : f.Shows clocks n) : f.cell.cap = decide (1 ≤ n) := by
  cases shows with
  | lead now cell left => rw [cell]; rfl
  | cmd now index cell left => rw [cell]; rfl
  | addr i now low index cell left => rw [cell]; rfl
  | lastAddr now index cell left => rw [cell]; rfl
  | dummy i now low index cell left => rw [cell]; rfl
  | lastDummy now cell left => rw [cell]; rfl
  | data i now cell left more => rw [cell, decide_eq_true (Nat.succ_le_succ (Nat.zero_le i))]; rfl
  | last i now cell left whole => rw [cell, decide_eq_true (Nat.succ_le_succ (Nat.zero_le i))]; rfl

theorem Shows.byte (shows : f.Shows clocks n) (some_byte : 1 ≤ n) : (clocks - 14) / 2 = n - 1 := by
  cases shows <;> omega

theorem Shows.left (shows : f.Shows clocks n) : f.dataLeft + n = f.burstBytes := by
  cases shows <;> omega

theorem Shows.gap (shows : f.Shows clocks n) (now : f.st = .csh) : n = f.burstBytes := by
  cases shows with
  | last i now' cell left whole => exact whole.symm
  | lead now' | cmd now' | addr i now' | lastAddr now' | dummy i now' | lastDummy now' | data i now' =>
    rw [now'] at now
    cases now

theorem Shows.state (shows : f.Shows clocks n) :
    f.st = .cmd ∨ f.st = .addr ∨ f.st = .dummy ∨ f.st = .data ∨ f.st = .csh := by
  cases shows <;> simp [*]

section Steps

variable (base : BitVec 24) (len : Nat) (roomOk busOwn gnt : Bool)

/-- What a step inside a burst leaves alone. -/
structure Same (f g : Fsm) : Prop where
  rdAddr : g.rdAddr = f.rdAddr
  remaining : g.remaining = f.remaining
  burstBytes : g.burstBytes = f.burstBytes
  lost : g.lost = f.lost
  cellTgl : g.cellTgl = !f.cellTgl
  cellCmt : g.cellCmt = false
  cellAbt : g.cellAbt = false

/-- A cell of a burst that nobody disturbs leads to the next one. -/
theorem Shows.goes_on (shows : f.Shows clocks n) (some_bytes : 1 ≤ f.burstBytes) (whole : (f.lost || busOwn) = false)
    (more : f.st ≠ .csh) :
    Same f (f.cellStep base len roomOk busOwn gnt) ∧
      ∃ n', n' - 1 = n ∧ (f.cellStep base len roomOk busOwn gnt).Shows (clocks + if f.cell.clk then 2 else 0) n' := by
  cases shows with
  | lead now cell left =>
    simp only [cellStep, whole, now, cell]
    exact ⟨⟨rfl, rfl, rfl, rfl, rfl, rfl, rfl⟩, 0, rfl, .cmd rfl rfl rfl left⟩
  | cmd now index cell left =>
    simp only [cellStep, whole, now, cell]
    rw [if_neg (by simp), if_neg (by omega)]
    exact ⟨⟨rfl, rfl, rfl, rfl, rfl, rfl, rfl⟩, 0, rfl, .addr 0 rfl (by decide) (by simp [index]) (by simp [index]) left⟩
  | addr i now low index cell left =>
    simp only [cellStep, whole, now, cell]
    obtain rfl | rfl : i = 0 ∨ i = 1 := by omega
    · rw [if_neg (by simp), if_neg (by omega)]
      exact ⟨⟨rfl, rfl, rfl, rfl, rfl, rfl, rfl⟩, 0, rfl,
        .addr 1 rfl (by decide) (by simp [index]) (by simp [index]) left⟩
    · rw [if_neg (by simp), if_pos index]
      exact ⟨⟨rfl, rfl, rfl, rfl, rfl, rfl, rfl⟩, 0, rfl, .lastAddr rfl rfl (by simp [index]) left⟩
  | lastAddr now index cell left =>
    simp only [cellStep, whole, now, cell, index]
    exact ⟨⟨rfl, rfl, rfl, rfl, rfl, rfl, rfl⟩, 0, rfl, .dummy 0 rfl (by decide) rfl rfl left⟩
  | dummy i now low index cell left =>
    simp only [cellStep, whole, now, cell]
    obtain rfl | rfl : i = 0 ∨ i = 1 := by omega
    · have two : f.dumIdx = 2 := index
      simp only [two]
      exact ⟨⟨rfl, rfl, rfl, rfl, rfl, rfl, rfl⟩, 0, rfl, .dummy 1 rfl (by decide) rfl rfl left⟩
    · have one : f.dumIdx = 1 := by omega
      simp only [one]
      exact ⟨⟨rfl, rfl, rfl, rfl, rfl, rfl, rfl⟩, 0, rfl, .lastDummy rfl rfl left⟩
  | lastDummy now cell left =>
    simp only [cellStep, whole, now, cell]
    by_cases last : f.dataLeft = 1
    · refine ⟨⟨rfl, rfl, rfl, rfl, rfl, rfl, rfl⟩, 1, rfl, .last 0 ?_ rfl ?_ ?_⟩
      · simp [last]
      · simp [last]
      · show f.burstBytes = 0 + 1
        omega
    · refine ⟨⟨rfl, rfl, rfl, rfl, rfl, rfl, rfl⟩, 1, rfl, .data 0 ?_ rfl ?_ ?_⟩
      · simp [last]
      · show f.dataLeft - 1 + (0 + 1) = f.burstBytes
        omega
      · show 1 ≤ f.dataLeft - 1
        omega
  | data i now cell left more =>
    simp only [cellStep, whole, now, cell]
    by_cases last : f.dataLeft = 1
    · refine ⟨⟨rfl, rfl, rfl, rfl, rfl, rfl, rfl⟩, i + 2, rfl, .last (i + 1) ?_ rfl ?_ ?_⟩
      · simp [last]
      · simp [last]
      · show f.burstBytes = i + 1 + 1
        omega
    · refine ⟨⟨rfl, rfl, rfl, rfl, rfl, rfl, rfl⟩, i + 2, rfl, .data (i + 1) ?_ rfl ?_ ?_⟩
      · simp [last]
      · show f.dataLeft - 1 + (i + 1 + 1) = f.burstBytes
        omega
      · show 1 ≤ f.dataLeft - 1
        omega
  | last i now cell left whole => exact (more now).elim

theorem cellStep_csh (now : f.st = .csh) :
    Same f (f.cellStep base len roomOk busOwn gnt) ∧ (f.cellStep base len roomOk busOwn gnt).st = .cmt ∧
      (f.cellStep base len roomOk busOwn gnt).cell = {} ∧
      (f.cellStep base len roomOk busOwn gnt).dataLeft = f.dataLeft := by
  simp only [cellStep, now]
  rw [if_neg (by simp)]
  exact ⟨⟨rfl, rfl, rfl, rfl, rfl, rfl, rfl⟩, rfl, rfl, rfl⟩

theorem Shows.cut (shows : f.Shows clocks n) (lost : f.lost = true) (more : f.st ≠ .csh) :
    Same f (f.cellStep base len roomOk busOwn gnt) ∧ (f.cellStep base len roomOk busOwn gnt).st = .csh ∧
      (f.cellStep base len roomOk busOwn gnt).cell = {} ∧
      (f.cellStep base len roomOk busOwn gnt).dataLeft = f.dataLeft := by
  obtain now | now | now | now | now := shows.state
  case inr.inr.inr.inr => exact (more now).elim
  all_goals
    simp only [cellStep, lost, now]
    exact ⟨⟨rfl, rfl, rfl, lost.symm, rfl, rfl, rfl⟩, rfl, rfl, rfl⟩

/-- What the commit cell does with a burst. -/
structure Settled (base : BitVec 24) (len : Nat) (f g : Fsm) : Prop where
  st : g.st = .idle
  cell : g.cell = {}
  lost : g.lost = false
  cellTgl : g.cellTgl = !f.cellTgl
  abort : f.lost = true → g.cellCmt = false ∧ g.cellAbt = true ∧ g.rdAddr = f.rdAddr ∧ g.remaining = f.remaining
  commit : f.lost = false → g.cellCmt = true ∧ g.cellAbt = false
  wrap : f.lost = false → f.remaining = f.burstBytes → g.rdAddr = base ∧ g.remaining = len
  advance : f.lost = false → f.remaining ≠ f.burstBytes →
    g.rdAddr = f.rdAddr + BitVec.ofNat 24 f.burstBytes ∧ g.remaining = f.remaining - f.burstBytes

theorem cellStep_cmt (now : f.st = .cmt) (seen : busOwn = true → f.lost = true) :
    Settled base len f (f.cellStep base len roomOk busOwn gnt) := by
  simp only [cellStep, now]
  rw [if_neg (by simp)]
  cases lost : f.lost with
  | true =>
    have gone {p : Prop} (kept : f.lost = false) : p := by cases lost.symm.trans kept
    exact ⟨rfl, rfl, rfl, rfl, fun _ => ⟨rfl, rfl, rfl, rfl⟩, gone, gone, gone⟩
  | false =>
    have free : busOwn = false := by
      cases busOwn with
      | false => rfl
      | true => exact absurd (seen rfl) (by rw [lost]; decide)
    rw [free, Bool.or_false, if_neg Bool.false_ne_true]
    have kept : ¬f.lost = true := by rw [lost]; decide
    split
    case isTrue last =>
      exact ⟨rfl, rfl, rfl, rfl, fun gone => (kept gone).elim, fun _ => ⟨rfl, rfl⟩, fun _ _ => ⟨rfl, rfl⟩,
        fun _ more => (more last).elim⟩
    case isFalse more =>
      exact ⟨rfl, rfl, rfl, rfl, fun gone => (kept gone).elim, fun _ => ⟨rfl, rfl⟩, fun _ last => (more last).elim,
        fun _ _ => ⟨rfl, rfl⟩⟩

theorem cellStep_idle (now : f.st = .idle) :
    (f.cellStep base len roomOk busOwn gnt).rdAddr = f.rdAddr ∧
      (f.cellStep base len roomOk busOwn gnt).remaining = f.remaining ∧
      (f.cellStep base len roomOk busOwn gnt).lost = f.lost ∧
      (f.cellStep base len roomOk busOwn gnt).cellTgl = !f.cellTgl ∧
      (f.cellStep base len roomOk busOwn gnt).cellCmt = false ∧
      (f.cellStep base len roomOk busOwn gnt).cellAbt = false ∧
      ((f.cellStep base len roomOk busOwn gnt).st = .idle ∧ (f.cellStep base len roomOk busOwn gnt).cell = {} ∨
        f.remaining ≠ 0 ∧ roomOk = true ∧ busOwn = false ∧
          (f.cellStep base len roomOk busOwn gnt).burstBytes = min 8 f.remaining ∧
          (f.cellStep base len roomOk busOwn gnt).Shows 0 0) := by
  simp only [cellStep, now]
  rw [if_neg (by simp)]
  split
  case isTrue starts =>
    simp only [wantBurst, Bool.and_eq_true, Bool.not_eq_true', decide_eq_true_eq] at starts
    obtain ⟨⟨⟨some_left, room⟩, free⟩, -⟩ := starts
    refine ⟨rfl, rfl, rfl, rfl, rfl, rfl, .inr ⟨some_left, room, free, ?_, .lead rfl rfl rfl⟩⟩
    show (if 8 ≤ f.remaining then 8 else f.remaining) = min 8 f.remaining
    rw [Nat.min_def]
  case isFalse => exact ⟨rfl, rfl, rfl, rfl, rfl, rfl, .inl ⟨rfl, rfl⟩⟩

end Steps

end Fsm
end BenchPod.DacPsram
