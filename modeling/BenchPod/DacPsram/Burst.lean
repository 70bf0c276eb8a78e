import BenchPod.DacPsram.Reader

/-!
# A burst on the wire

A cell takes eight edges of `clk48`: the serializer clocks its two nibbles out, or the byte the PSRAM drives in.
-/

namespace BenchPod.DacPsram

/-- The serializer after so many edges of a cell. -/
structure Serial.At (cell : Cell) (j : Nat) (s : Serial) : Prop where
  cellL : s.cellL = cell
  cs : s.cs = cell.cs
  ioOe : s.ioOe = cell.drv
  ioO : s.ioO = if j ≤ 4 then cell.n0 else cell.n1
  sclk : s.sclk = (cell.clk && j % 4 ≠ 1)
  ph : s.ph = j % 8
  busy48 : s.busy48 = decide (j < 8)
  capPend : s.capPend = (cell.cap && j = 8)

/-- The serializer between bursts. -/
structure Serial.Rest (s : Serial) : Prop where
  cs : s.cs = true
  sclk : s.sclk = false
  capPend : s.capPend = false
  cellCs : s.cellL.cs = true
  cellClk : s.cellL.clk = false
  cellCap : s.cellL.cap = false

/-- The serializer has nothing for the FIFO. -/
structure Serial.Quiet (s : Serial) : Prop where
  push : s.push = false
  cmtP : s.cmtP = false
  abtP : s.abtP = false

/-- A cell with chip select high and no clocks. -/
structure Cell.Idle (cell : Cell) : Prop where
  cs : cell.cs = true
  clk : cell.clk = false
  cap : cell.cap = false

section Serializer

variable {s : Serial} {f : Fsm} {cell : Cell} {j : Nat}

/-- An edge inside a cell. -/
theorem Serial.At.next (here : s.At cell j) (first : 1 ≤ j) (inside : j < 8) (same : f.cellTgl = s.tglM) (io : Nibble) :
    (s.tick true f io).At cell (j + 1) ∧ (s.tick true f io).Quiet ∧
      (s.tick true f io).capHi = if j = 4 && cell.cap then io else s.capHi := by
  obtain ⟨cellL, cs, ioOe, ioO, sclk, ph, busy48, capPend⟩ := here
  have old : (f.cellTgl != s.tglM) = false := by rw [same, bne_self_eq_false]
  have unpended : s.capPend = false := by rw [capPend, decide_eq_false (Nat.ne_of_lt inside), Bool.and_false]
  have step : s.tick true f io = { s with
      tglM := f.cellTgl
      push := false
      cmtP := false
      abtP := false
      ph := if s.ph = 7 then 0 else s.ph + 1
      ioO := if 4 ≤ s.ph then s.cellL.n1 else s.cellL.n0
      ioOe := s.cellL.drv
      cs := s.cellL.cs
      sclk := s.cellL.clk && s.ph % 4 ≠ 0
      capHi := if s.ph = 4 && s.cellL.cap then io else s.capHi
      capPend := if s.ph = 7 then s.cellL.cap else false
      busy48 := s.ph ≠ 7 } := by
    simp [Serial.tick, Serial.collect, old, unpended, busy48, inside]
  have ph : s.ph = j := by rw [ph, Nat.mod_eq_of_lt inside]
  rw [step, ph, cellL]
  refine ⟨⟨rfl, rfl, rfl, ?_, ?_, ?_, ?_, ?_⟩, ⟨rfl, rfl, rfl⟩, rfl⟩
  · show (if 4 ≤ j then cell.n1 else cell.n0) = _
    split <;> split <;> first | rfl | omega
  · show (cell.clk && decide (j % 4 ≠ 0)) = (cell.clk && decide ((j + 1) % 4 ≠ 1))
    congr 1
    exact decide_eq_decide.mpr (by omega)
  · show (if j = 7 then 0 else j + 1) = (j + 1) % 8
    split <;> omega
  · show decide (j ≠ 7) = decide (j + 1 < 8)
    exact decide_eq_decide.mpr (by omega)
  · show (if j = 7 then cell.cap else false) = (cell.cap && decide (j + 1 = 8))
    by_cases last : j = 7
    · rw [if_pos last, decide_eq_true (by omega), Bool.and_true]
    · rw [if_neg last, decide_eq_false (by omega), Bool.and_false]

theorem Serial.tick_tglM (en : Bool) (io : Nibble) : (s.tick en f io).tglM = f.cellTgl := by
  cases en with
  | false => rfl
  | true =>
    simp only [Serial.tick, Serial.collect]
    split
    · contradiction
    split <;> [skip; split] <;> split <;> rfl

theorem Serial.tick_new (new : (f.cellTgl != s.tglM) = true) (io : Nibble) :
    (s.tick true f io).At f.cell 1 ∧ (s.tick true f io).push = s.capPend ∧ (s.tick true f io).cmtP = f.cellCmt ∧
      (s.tick true f io).abtP = f.cellAbt ∧ (s.capPend = true → (s.tick true f io).pushByte = s.capHi ++ io) := by
  cases pended : s.capPend <;> simp [Serial.tick, Serial.collect, new, pended]
  all_goals
    refine ⟨rfl, rfl, rfl, rfl, ?_, rfl, rfl, ?_⟩
    · simp
    · simp

theorem Serial.Rest.hold (rest : s.Rest) (same : f.cellTgl = s.tglM) (io : Nibble) :
    (s.tick true f io).Rest ∧ (s.tick true f io).Quiet := by
  obtain ⟨cs, sclk, capPend, cellCs, cellClk, cellCap⟩ := rest
  have old : (f.cellTgl != s.tglM) = false := by rw [same, bne_self_eq_false]
  cases walking : s.busy48 <;> simp [Serial.tick, Serial.collect, old, capPend, walking]
  · exact ⟨⟨cs, rfl, rfl, cellCs, cellClk, cellCap⟩, ⟨rfl, rfl, rfl⟩⟩
  · refine ⟨⟨cellCs, ?_, ?_, cellCs, cellClk, cellCap⟩, ⟨rfl, rfl, rfl⟩⟩
    · simp [cellClk]
    · simp [cellCap]

theorem Serial.At.rest (here : s.At cell j) (idle : cell.Idle) : s.Rest := by
  obtain ⟨cellL, cs, -, -, sclk, -, -, capPend⟩ := here
  refine ⟨?_, ?_, ?_, ?_, ?_, ?_⟩
  · rw [cs, idle.cs]
  · rw [sclk, idle.clk, Bool.false_and]
  · rw [capPend, idle.cap, Bool.false_and]
  · rw [cellL, idle.cs]
  · rw [cellL, idle.clk]
  · rw [cellL, idle.cap]

end Serializer

/-- The nibbles of a fast quad read at an address. -/
def command (a : BitVec 24) : List Nibble :=
  [0xE, 0xB, a.extractLsb' 20 4, a.extractLsb' 16 4, a.extractLsb' 12 4, a.extractLsb' 8 4, a.extractLsb' 4 4,
    a.extractLsb' 0 4]

theorem address_command (a : BitVec 24) : Chip.address (command a) = a := by
  apply BitVec.eq_of_toNat_eq
  simp only [Chip.address, command, List.drop_succ_cons, List.drop_zero, List.foldl_cons, List.foldl_nil,
    BitVec.toNat_ofNat, BitVec.extractLsb'_toNat, Nat.shiftRight_eq_div_pow]
  omega

theorem read_byte (mem : BitVec 24 → Byte) (a : BitVec 24) (i : Nat) :
    (Chip.read mem (command a) (2 * i) ++ Chip.read mem (command a) (2 * i + 1) : Byte) =
      mem (a + BitVec.ofNat 24 i) := by
  have even : 2 * i / 2 = i := by omega
  have odd : (2 * i + 1) / 2 = i := by omega
  rw [Chip.read, Chip.read, address_command, even, odd, if_pos (by omega), if_neg (by omega)]
  generalize mem _ = byte
  apply BitVec.eq_of_toNat_eq
  rw [BitVec.toNat_append, BitVec.extractLsb'_toNat, BitVec.extractLsb'_toNat, Nat.shiftRight_zero,
    Nat.shiftRight_eq_div_pow, ← Nat.shiftLeft_add_eq_or_of_lt (Nat.mod_lt _ (by decide)), Nat.shiftLeft_eq]
  have := byte.isLt
  omega

/-- The PSRAM after so many clocks of a read. -/
structure Chip.After (mem : BitVec 24 → Byte) (a : BitVec 24) (clocks : Nat) (chip : Chip) : Prop where
  nib : chip.nib = clocks
  head : chip.head = (command a).take clocks
  drive : 15 ≤ clocks → chip.drive = some (read mem (command a) (clocks - 15))

section Clocks

variable {mem : BitVec 24 → Byte} {a : BitVec 24} {clocks : Nat} {chip : Chip}

theorem Chip.After.level (after : chip.After mem a clocks) {sclk : Bool} (level : (sclk && !chip.sclk) = false)
    (io : Nibble) : (chip.tick mem false sclk io).After mem a clocks ∧ (chip.tick mem false sclk io).sclk = sclk := by
  simp only [Chip.tick, level]
  exact ⟨⟨after.nib, after.head, after.drive⟩, rfl⟩

theorem Chip.After.rise (after : chip.After mem a clocks) (low : chip.sclk = false) {io : Nibble}
    (sent : clocks < 8 → (command a)[clocks]? = some io) :
    (chip.tick mem false true io).After mem a (clocks + 1) ∧ (chip.tick mem false true io).sclk = true := by
  obtain ⟨nib, head, drive⟩ := after
  simp only [Chip.tick, low, nib]
  refine ⟨⟨rfl, ?_, fun data => ?_⟩, rfl⟩
  · show (if clocks < 8 then chip.head ++ [io] else chip.head) = _
    split
    case isTrue header =>
      rw [head, List.take_add_one, sent header]
      rfl
    case isFalse rest =>
      have all : (command a).length ≤ clocks := Nat.le_of_not_lt rest
      rw [head, List.take_of_length_le all, List.take_of_length_le (Nat.le_succ_of_le all)]
  · have whole : chip.head = command a := by
      rw [head]
      exact List.take_of_length_le (show 8 ≤ clocks by omega)
    show (if 14 ≤ clocks ∧ chip.head.take 2 = [0xE, 0xB] then some (Chip.read mem chip.head (clocks - 14)) else none) = _
    rw [whole, if_pos ⟨by omega, rfl⟩]
    rfl

theorem Chip.after_select (chip : Chip) (sclk : Bool) (io : Nibble) : (chip.tick mem true sclk io).After mem a 0 :=
  ⟨rfl, rfl, fun data => absurd data (by decide)⟩

end Clocks

/-- A cell of a read: what it sends stands at its place in the command, and it captures data only. -/
structure Cell.Sends (a : BitVec 24) (clocks : Nat) (cell : Cell) : Prop where
  cs : cell.cs = false
  even : clocks % 2 = 0
  drv : cell.clk = true → clocks < 8 → cell.drv = true
  n0 : cell.clk = true → clocks < 8 → (command a)[clocks]? = some cell.n0
  n1 : cell.clk = true → clocks < 8 → (command a)[clocks + 1]? = some cell.n1
  cap : cell.cap = true → cell.clk = true ∧ 14 ≤ clocks

/-- The clocks of a cell so far. -/
def Cell.clocked (cell : Cell) (j : Nat) : Nat :=
  if cell.clk then (if 3 ≤ j then 1 else 0) + (if 7 ≤ j then 1 else 0) else 0

/-- The PSRAM follows the serializer. -/
structure Follows (mem : BitVec 24 → Byte) (a : BitVec 24) (cell : Cell) (clocks j : Nat) (s : Serial) (chip : Chip) :
    Prop where
  after : chip.After mem a (clocks + cell.clocked j)
  sclk : 2 ≤ j → chip.sclk = (cell.clk && (j - 1) % 4 ≠ 1)
  capHi : cell.cap = true → 5 ≤ j → s.capHi = Chip.read mem (command a) (clocks - 14)

section Follow

variable {mem : BitVec 24 → Byte} {a : BitVec 24} {cell : Cell} {clocks j : Nat} {s : Serial} {f : Fsm} {chip : Chip}

/-- What the pads show. -/
def Serial.shown (s : Serial) (lines : Nibble) : Nibble := if s.ioOe then s.ioO else lines

theorem Cell.clocked_rise {cell : Cell} {j : Nat} (clk : cell.clk = true) (rises : j = 2 ∨ j = 6) :
    cell.clocked (j + 1) = cell.clocked j + 1 := by
  obtain rfl | rfl := rises <;> simp [Cell.clocked, clk]

theorem Cell.clocked_stay {cell : Cell} {j : Nat} (level : cell.clk = false ∨ j ≠ 2 ∧ j ≠ 6) :
    cell.clocked (j + 1) = cell.clocked j := by
  simp only [Cell.clocked]
  obtain off | ⟨two, six⟩ := level
  · rw [off]
    rfl
  · have three : 3 ≤ j + 1 ↔ 3 ≤ j := by omega
    have seven : 7 ≤ j + 1 ↔ 7 ≤ j := by omega
    simp only [three, seven]

theorem Cell.Sends.shown (sends : cell.Sends a clocks) (here : s.At cell j) (clk : cell.clk = true)
    (rises : j = 2 ∨ j = 6) (lines : Nibble) (header : clocks + cell.clocked j < 8) :
    (command a)[clocks + cell.clocked j]? = some (s.shown lines) := by
  have driven : s.ioOe = true := by
    rw [here.ioOe]
    exact sends.drv clk (by omega)
  rw [Serial.shown, if_pos driven, here.ioO]
  obtain rfl | rfl := rises
  · have none : cell.clocked 2 = 0 := by simp [Cell.clocked]
    rw [none] at header ⊢
    exact sends.n0 clk header
  · have one : cell.clocked 6 = 1 := by simp [Cell.clocked, clk]
    rw [one]
    exact sends.n1 clk (by omega)

theorem Follows.high (follows : Follows mem a cell clocks 4 s chip) (sends : cell.Sends a clocks)
    (cap : cell.cap = true) (noise : Nibble) :
    chip.drive.getD noise = Chip.read mem (command a) (clocks - 14) := by
  obtain ⟨clk, data⟩ := sends.cap cap
  have one : cell.clocked 4 = 1 := by simp [Cell.clocked, clk]
  have drive := follows.after.drive
  rw [one] at drive
  rw [drive (by omega), Option.getD_some]
  congr 1

theorem Follows.low (follows : Follows mem a cell clocks 8 s chip) (sends : cell.Sends a clocks)
    (cap : cell.cap = true) (noise : Nibble) :
    chip.drive.getD noise = Chip.read mem (command a) (clocks - 14 + 1) := by
  obtain ⟨clk, data⟩ := sends.cap cap
  have two : cell.clocked 8 = 2 := by simp [Cell.clocked, clk]
  have drive := follows.after.drive
  rw [two] at drive
  rw [drive (by omega), Option.getD_some]
  congr 1
  omega

/-- The PSRAM follows an edge inside a cell. -/
theorem Follows.next (follows : Follows mem a cell clocks j s chip) (here : s.At cell j) (sends : cell.Sends a clocks)
    (first : 1 ≤ j) (inside : j < 8) (same : f.cellTgl = s.tglM) (noise : Nibble) :
    Follows mem a cell clocks (j + 1) (s.tick true f (chip.drive.getD noise))
      (chip.tick mem s.cs s.sclk (s.shown (chip.drive.getD noise))) := by
  obtain ⟨-, -, capHi⟩ := here.next first inside same (chip.drive.getD noise)
  have taken (cap : cell.cap = true) (late : 5 ≤ j + 1) :
      (s.tick true f (chip.drive.getD noise)).capHi = Chip.read mem (command a) (clocks - 14) := by
    rw [capHi]
    by_cases now : j = 4
    · subst now
      rw [cap, if_pos (by rfl)]
      exact follows.high sends cap noise
    · rw [decide_eq_false now, Bool.false_and]
      exact follows.capHi cap (by omega)
  rw [here.cs, sends.cs]
  by_cases rises : cell.clk = true ∧ (j = 2 ∨ j = 6)
  · obtain ⟨clk, rises⟩ := rises
    have up : s.sclk = true := by
      rw [here.sclk, clk]
      obtain rfl | rfl := rises <;> rfl
    have low : chip.sclk = false := by
      rw [follows.sclk (by omega), clk]
      obtain rfl | rfl := rises <;> rfl
    obtain ⟨after, high⟩ := follows.after.rise low (sends.shown here clk rises (chip.drive.getD noise))
    rw [up]
    refine ⟨?_, fun _ => ?_, taken⟩
    · rw [Cell.clocked_rise clk rises]
      exact after
    · rw [high, clk]
      obtain rfl | rfl := rises <;> rfl
  · have stay : cell.clk = false ∨ j ≠ 2 ∧ j ≠ 6 := by
      cases clk : cell.clk with
      | false => exact .inl rfl
      | true => exact .inr (not_or.mp fun now => rises ⟨clk, now⟩)
    have level : (s.sclk && !chip.sclk) = false := by
      rw [here.sclk]
      obtain off | ⟨two, six⟩ := stay
      · rw [off]
        rfl
      · rcases Nat.lt_or_ge j 2 with one | more
        · obtain rfl : j = 1 := by omega
          simp
        · rw [follows.sclk more]
          cases cell.clk
          · rfl
          · simp only [Bool.true_and, Bool.and_eq_false_imp, decide_eq_true_eq, Bool.not_eq_false']
            omega
    obtain ⟨after, shows⟩ := follows.after.level level (s.shown (chip.drive.getD noise))
    refine ⟨?_, fun _ => ?_, taken⟩
    · rw [Cell.clocked_stay stay]
      exact after
    · rw [shows, here.sclk]
      rfl

theorem Follows.new (follows : Follows mem a cell clocks 8 s chip) (here : s.At cell 8) (sends : cell.Sends a clocks)
    (io : Nibble) (lines : Nibble) :
    Follows mem a f.cell (clocks + if cell.clk then 2 else 0) 1 (s.tick true f lines) (chip.tick mem s.cs s.sclk io) := by
  have level : (s.sclk && !chip.sclk) = false := by
    rw [here.sclk, follows.sclk (by decide)]
    cases cell.clk <;> rfl
  rw [here.cs, sends.cs]
  obtain ⟨after, -⟩ := follows.after.level level io
  refine ⟨?_, fun late => absurd late (by decide), fun _ late => absurd late (by decide)⟩
  have eight : cell.clocked 8 = if cell.clk then 2 else 0 := by cases clk : cell.clk <;> simp [Cell.clocked, clk]
  have one : f.cell.clocked 1 = 0 := by simp [Cell.clocked]
  rw [one, Nat.add_zero, ← eight]
  exact after

theorem Follows.start (rest : s.cs = true) (io : Nibble) (lines : Nibble) :
    Follows mem a f.cell 0 1 (s.tick true f lines) (chip.tick mem s.cs s.sclk io) := by
  rw [rest]
  refine ⟨?_, fun late => absurd late (by decide), fun _ late => absurd late (by decide)⟩
  have one : f.cell.clocked 1 = 0 := by simp [Cell.clocked]
  rw [one]
  exact Chip.after_select chip s.sclk io

theorem Follows.byte (follows : Follows mem a cell clocks 8 s chip) (here : s.At cell 8) (sends : cell.Sends a clocks)
    (cap : cell.cap = true) (new : (f.cellTgl != s.tglM) = true) (noise : Nibble) :
    (s.tick true f (chip.drive.getD noise)).pushByte = mem (a + BitVec.ofNat 24 ((clocks - 14) / 2)) := by
  obtain ⟨-, -, -, -, byte⟩ := Serial.tick_new new (chip.drive.getD noise)
  have even := sends.even
  have data := (sends.cap cap).2
  have pended : s.capPend = true := by
    rw [here.capPend, cap]
    rfl
  have place : clocks - 14 = 2 * ((clocks - 14) / 2) := by omega
  rw [byte pended, follows.capHi cap (by decide), follows.low sends cap, ← read_byte mem a, ← place]

end Follow

end BenchPod.DacPsram
