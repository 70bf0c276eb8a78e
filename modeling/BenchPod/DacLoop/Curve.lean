import BenchPod.Library.Rounding
import BenchPod.Library.Word
import Mathlib.Tactic.NormNum

/-!
# The curve of the control loop

`dac_loop_upsample_curve_mapped` spreads the points of a curve over the entries up to the last reachable one and
interpolates between them.  It adds half of the divisor before a division that truncates, which is fair only where the
curve rises.
-/

namespace BenchPod.LoopCurve

/-- `DAC_LOOP_CURVE_POINTS`. -/
def curvePoints : Nat := 2048

/-- `DAC_LOOP_CURVE_BYTES`. -/
def curveBytes : Nat := curvePoints * 2

def dacLoopIdxMax : Nat := curvePoints - 1

/-- A point of a curve or an entry of a table, the low byte first. -/
def point (bytes : List Byte) (s : Nat) : Nat := (bytes.getD (2 * s) 0).toNat + 256 * (bytes.getD (2 * s + 1) 0).toNat

/-- The entry `j` of the table: a point, or what lies between two of them. -/
def entry (input : List Byte) (idxMax j : Nat) : Nat :=
  let lastSrc := input.length / 2 - 1
  let held := idxMax ≤ j ∨ lastSrc = 0
  let num := j * lastSrc % 2 ^ 32
  let s := if held then lastSrc else num / idxMax
  let fracNum := if held then 0 else num - num / idxMax * idxMax
  let fracDen := if held then 1 else idxMax
  let v0 := point input s
  let v :=
    if fracNum ≠ 0 ∧ s < lastSrc then
      let d : Int := (point input (s + 1) : Int) - v0
      (((v0 : Int) + Int.tdiv (d * fracNum + (fracDen / 2 : Nat)) fracDen) % 2 ^ 32).toNat
    else v0
  min v 65535

/-- `dac_loop_upsample_curve_mapped`: the table, or nothing where the input is unusable. -/
def dacLoopUpsampleCurveMapped (input : List Byte) (idxMax outCap : Nat) : Option (List Byte) :=
  if outCap < curveBytes then none
  else if input.length / 2 = 0 ∨ idxMax = 0 then none
  else some ((List.range curvePoints).flatMap fun j =>
    let v := entry input (min idxMax dacLoopIdxMax) j
    [BitVec.ofNat 8 v, BitVec.ofNat 8 (v / 256)])

/-- The last point of a curve. -/
def lastPoint (input : List Byte) : Nat := input.length / 2 - 1

/-- The curve at the entry `j` of `m`, exactly. -/
def exactAt (input : List Byte) (m j : Nat) : ℚ :=
  (point input (j * lastPoint input / m) : ℚ) +
    ((point input (j * lastPoint input / m + 1) : ℚ) - point input (j * lastPoint input / m)) *
      (j * lastPoint input % m : Nat) / m

/-- A table is the fair interpolation of a curve over its entries up to `m`. -/
structure Fair (input : List Byte) (m : Nat) (table : List Byte) : Prop where
  near : ∀ j ≤ m, |(point table j : ℚ) - exactAt input m j| ≤ 1 / 2
  source : ∀ j ≤ m, m ∣ j * lastPoint input → point table j = point input (j * lastPoint input / m)
  past : ∀ j, m < j → j < curvePoints → point table j = point input (lastPoint input)
  rising : (∀ s < lastPoint input, point input s ≤ point input (s + 1)) →
    ∀ j, j + 1 < curvePoints → point table j ≤ point table (j + 1)
  falling : (∀ s < lastPoint input, point input (s + 1) ≤ point input s) →
    ∀ j, j + 1 < curvePoints → point table (j + 1) ≤ point table j

/-- How far the curve falls between two points, in parts of the step from one entry to the next. -/
def fall (input : List Byte) (m j : Nat) : Nat :=
  (point input (j * lastPoint input / m) - point input (j * lastPoint input / m + 1)) * (j * lastPoint input % m)

variable {input : List Byte} {m j : Nat}

theorem point_le (bytes : List Byte) (s : Nat) : point bytes s ≤ 65535 := by
  have low := (bytes.getD (2 * s) 0).isLt
  have high := (bytes.getD (2 * s + 1) 0).isLt
  rw [point]
  omega

theorem entry_held (late : m ≤ j) : entry input m j = point input (lastPoint input) := by
  have held : m ≤ j ∨ input.length / 2 - 1 = 0 := .inl late
  rw [entry]
  simp only [if_pos held, ne_eq, not_true_eq_false, false_and, if_false]
  exact Nat.min_eq_left (point_le _ _)

/-- Between two points the entry is rounded towards the next one where the curve rises, and towards the last one where
it falls. -/
theorem entry_inside (more : 0 < lastPoint input) (inside : j < m) (small : lastPoint input * j < 2 ^ 32) :
    entry input m j =
      let s := j * lastPoint input / m
      let f := j * lastPoint input % m
      if point input s ≤ point input (s + 1) then
        point input s + ((point input (s + 1) - point input s) * f + m / 2) / m
      else point input s - ((point input s - point input (s + 1)) * f - m / 2) / m := by
  have some : 0 < m := Nat.lt_of_le_of_lt (Nat.zero_le j) inside
  have free : ¬ (m ≤ j ∨ input.length / 2 - 1 = 0) := by
    rintro (late | none)
    · omega
    · exact more.ne' none
  have narrow : j * (input.length / 2 - 1) % 2 ^ 32 = j * lastPoint input :=
    Nat.mod_eq_of_lt (by rw [Nat.mul_comm]; exact small)
  have between : j * lastPoint input / m < input.length / 2 - 1 :=
    (Nat.div_lt_iff_lt_mul some).mpr (by rw [Nat.mul_comm (input.length / 2 - 1)]; exact Nat.mul_lt_mul_of_pos_right inside more)
  have part : j * lastPoint input - j * lastPoint input / m * m = j * lastPoint input % m := by
    rw [Nat.mod_eq_sub_div_mul]
  rw [entry]
  simp only [if_neg free, narrow, part]
  have low := point_le input (j * lastPoint input / m)
  have high := point_le input (j * lastPoint input / m + 1)
  generalize point input (j * lastPoint input / m) = v0 at low ⊢
  generalize point input (j * lastPoint input / m + 1) = v1 at high ⊢
  have within := Nat.mod_lt (j * lastPoint input) some
  generalize j * lastPoint input % m = f at within ⊢
  have rises : v0 ≤ v1 → ((v0 : Int) + Int.tdiv (((v1 : Int) - v0) * f + (m / 2 : Nat)) m) =
      ((v0 + ((v1 - v0) * f + m / 2) / m : Nat) : Int) := by
    intro up
    rw [← Int.natCast_sub up, ← Int.natCast_mul, Rounding.tdiv_up, Int.natCast_add]
  have falls : v1 ≤ v0 → ((v0 : Int) + Int.tdiv (((v1 : Int) - v0) * f + (m / 2 : Nat)) m) =
      ((v0 - ((v0 - v1) * f - m / 2) / m : Nat) : Int) := by
    intro down
    have bound := @Rounding.down_part (v0 - v1) f m within
    rw [show ((v1 : Int) - v0) * f = -(((v0 - v1) * f : Nat) : Int) by push_cast [down]; ring, Rounding.tdiv_down some,
      Int.natCast_sub (by omega), Int.sub_eq_add_neg]
  by_cases up : v0 ≤ v1
  · have bound := @Rounding.up_part (v1 - v0) f m within
    rw [if_pos up]
    by_cases none : f = 0
    · rw [none, if_neg (by simp), Nat.mul_zero, Nat.zero_add, Nat.div_eq_of_lt (by omega), Nat.add_zero]
      exact Nat.min_eq_left low
    · rw [if_pos ⟨none, between⟩, rises up]
      generalize ((v1 - v0) * f + m / 2) / m = q at bound ⊢
      omega
  · have bound := @Rounding.down_part (v0 - v1) f m within
    rw [if_neg up]
    by_cases none : f = 0
    · rw [none, if_neg (by simp), Nat.mul_zero, Nat.zero_sub, Nat.zero_div, Nat.sub_zero]
      exact Nat.min_eq_left low
    · rw [if_pos ⟨none, between⟩, falls (by omega)]
      generalize ((v0 - v1) * f - m / 2) / m = q at bound ⊢
      omega

theorem entry_between (more : 0 < lastPoint input) (inside : j < m) (small : lastPoint input * j < 2 ^ 32) :
    (point input (j * lastPoint input / m) ≤ point input (j * lastPoint input / m + 1) →
        point input (j * lastPoint input / m) ≤ entry input m j ∧
          entry input m j ≤ point input (j * lastPoint input / m + 1)) ∧
      (point input (j * lastPoint input / m + 1) ≤ point input (j * lastPoint input / m) →
        point input (j * lastPoint input / m + 1) ≤ entry input m j ∧
          entry input m j ≤ point input (j * lastPoint input / m)) := by
  have value := entry_inside more inside small
  have within := Nat.mod_lt (j * lastPoint input) (Nat.lt_of_le_of_lt (Nat.zero_le j) inside)
  dsimp only at value
  generalize point input (j * lastPoint input / m) = v0 at value ⊢
  generalize point input (j * lastPoint input / m + 1) = v1 at value ⊢
  generalize j * lastPoint input % m = f at within value
  have up := @Rounding.up_part (v1 - v0) f m within
  have down := @Rounding.down_part (v0 - v1) f m within
  generalize ((v1 - v0) * f + m / 2) / m = q at up value
  generalize ((v0 - v1) * f - m / 2) / m = r at down value
  split at value
  · exact ⟨fun _ => by omega, fun _ => by omega⟩
  · exact ⟨fun _ => by omega, fun _ => by omega⟩

theorem entry_near_iff (more : 0 < lastPoint input) (inside : j < m) (small : lastPoint input * j < 2 ^ 32) :
    |(entry input m j : ℚ) - exactAt input m j| ≤ 1 / 2 ↔ fall input m j ≤ m / 2 ∨ fall input m j % m = m / 2 := by
  have some : 0 < m := Nat.lt_of_le_of_lt (Nat.zero_le j) inside
  have value := entry_inside more inside small
  have within := Nat.mod_lt (j * lastPoint input) some
  rw [exactAt, fall]
  dsimp only at value
  generalize point input (j * lastPoint input / m) = v0 at value ⊢
  generalize point input (j * lastPoint input / m + 1) = v1 at value ⊢
  generalize j * lastPoint input % m = f at within value ⊢
  by_cases up : v0 ≤ v1
  · have near := Rounding.near_iff some |>.mpr (@Rounding.up_near ((v1 - v0) * f) m some)
    rw [if_pos up] at value
    have gap : ((v0 + ((v1 - v0) * f + m / 2) / m : Nat) : ℚ) - (v0 + ((v1 : ℚ) - v0) * f / m) =
        (((v1 - v0) * f + m / 2) / m : Nat) - (((v1 - v0) * f : Nat) : ℚ) / m := by
      push_cast [up]
      ring
    rw [value, gap]
    refine iff_of_true near (.inl ?_)
    rw [Nat.sub_eq_zero_of_le up, Nat.zero_mul]
    exact Nat.zero_le _
  · have down : v1 ≤ v0 := Nat.le_of_not_le up
    have part := @Rounding.down_part (v0 - v1) f m within
    rw [if_neg up] at value
    have gap : ((v0 - ((v0 - v1) * f - m / 2) / m : Nat) : ℚ) - (v0 + ((v1 : ℚ) - v0) * f / m) =
        -((((v0 - v1) * f - m / 2) / m : Nat) - (((v0 - v1) * f : Nat) : ℚ) / m) := by
      rw [Nat.cast_sub (by omega)]
      push_cast [down]
      ring
    rw [value, gap, abs_neg, Rounding.near_iff some, ← Rounding.down_near_iff some]
    have below := @Rounding.down_le ((v0 - v1) * f) m
    exact and_iff_left (by omega)

theorem entry_le (input : List Byte) (m j : Nat) : entry input m j ≤ 65535 := Nat.min_le_right _ _

theorem point_table {value : Nat → Nat} (small : ∀ j, value j ≤ 65535) (count : Nat) (inside : j < count) :
    point ((List.range count).flatMap fun j => [BitVec.ofNat 8 (value j), BitVec.ofNat 8 (value j / 256)]) j =
      value j := by
  have pairs : ∀ {count : Nat}, ((List.range count).flatMap fun j =>
      [BitVec.ofNat 8 (value j), BitVec.ofNat 8 (value j / 256)]).length = 2 * count := by
    intro count
    induction count with
    | zero => rfl
    | succ count ih =>
      rw [List.range_succ, List.flatMap_append, List.length_append, ih]
      rfl
  induction count with
  | zero => exact absurd inside (Nat.not_lt_zero _)
  | succ count ih =>
    rw [List.range_succ, List.flatMap_append, List.flatMap_singleton, point, List.getD_eq_getElem?_getD,
      List.getD_eq_getElem?_getD]
    obtain before | last := Nat.lt_or_eq_of_le (Nat.le_of_lt_succ inside)
    · rw [List.getElem?_append_left (by rw [pairs]; omega), List.getElem?_append_left (by rw [pairs]; omega),
        ← List.getD_eq_getElem?_getD, ← List.getD_eq_getElem?_getD]
      exact ih before
    · rw [List.getElem?_append_right (by rw [pairs]; omega), List.getElem?_append_right (by rw [pairs]; omega), pairs,
        last, Nat.sub_self, Nat.add_sub_cancel_left]
      have fits := small count
      show value count % 2 ^ 8 + 256 * (value count / 256 % 2 ^ 8) = value count
      omega

theorem points_chain {R : Nat → Nat → Prop} (refl : ∀ v, R v v) (trans : ∀ {a b c}, R a b → R b c → R a c) {last : Nat}
    (step : ∀ s < last, R (point input s) (point input (s + 1))) {s q : Nat} (le : s ≤ q) (inside : q ≤ last) :
    R (point input s) (point input q) := by
  induction le with
  | refl => exact refl _
  | @step q _ ih => exact trans (ih (Nat.le_of_succ_le inside)) (step q inside)

theorem entry_next (more : 0 < lastPoint input) (some : 0 < m) (j : Nat) :
    entry input m j = entry input m (j + 1) ∨
      (j < m ∧ ∃ q, j * lastPoint input / m + 1 ≤ q ∧ q ≤ lastPoint input ∧
        ((point input q = entry input m (j + 1)) ∨
          (j + 1 < m ∧ q = (j + 1) * lastPoint input / m ∧ q < lastPoint input))) ∨
        (j + 1 < m ∧ j * lastPoint input / m = (j + 1) * lastPoint input / m ∧
          j * lastPoint input % m ≤ (j + 1) * lastPoint input % m) := by
  obtain late | inside := le_or_gt m j
  · exact .inl (by rw [entry_held late, entry_held (Nat.le_succ_of_le late)])
  · have between : j * lastPoint input / m < lastPoint input :=
      (Nat.div_lt_iff_lt_mul some).mpr (by
        rw [Nat.mul_comm (lastPoint input)]
        exact Nat.mul_lt_mul_of_pos_right inside more)
    obtain late | inside' := le_or_gt m (j + 1)
    · exact .inr (.inl ⟨inside, lastPoint input, between, Nat.le_refl _, .inl (entry_held late).symm⟩)
    · have between' : (j + 1) * lastPoint input / m < lastPoint input :=
        (Nat.div_lt_iff_lt_mul some).mpr (by
          rw [Nat.mul_comm (lastPoint input)]
          exact Nat.mul_lt_mul_of_pos_right inside' more)
      have farther : j * lastPoint input / m ≤ (j + 1) * lastPoint input / m :=
        Nat.div_le_div_right (Nat.mul_le_mul_right _ (Nat.le_succ j))
      obtain same | other := Nat.eq_or_lt_of_le farther
      · refine .inr (.inr ⟨inside', same, ?_⟩)
        rw [Nat.mod_eq_sub_div_mul, Nat.mod_eq_sub_div_mul, same]
        exact Nat.sub_le_sub_right (Nat.mul_le_mul_right _ (Nat.le_succ j)) _
      · exact .inr (.inl ⟨inside, _, other, between'.le, .inr ⟨inside', rfl, between'⟩⟩)

theorem entry_rising (more : 0 < lastPoint input) (some : 0 < m) (small : ∀ j < m, lastPoint input * j < 2 ^ 32)
    (rises : ∀ s < lastPoint input, point input s ≤ point input (s + 1)) (j : Nat) :
    entry input m j ≤ entry input m (j + 1) := by
  obtain same | ⟨inside, q, behind, within, next⟩ | ⟨inside', same, farther⟩ := entry_next more some j
  · exact same.le
  · have before : entry input m j ≤ point input (j * lastPoint input / m + 1) :=
      ((entry_between more inside (small j inside)).1 (rises _ (Nat.lt_of_lt_of_le behind within))).2
    have chain := points_chain Nat.le_refl Nat.le_trans rises behind within
    obtain held | ⟨inside', here, last⟩ := next
    · exact Nat.le_trans before (Nat.le_trans chain held.le)
    · have after := ((entry_between more inside' (small _ inside')).1 (rises _ (by rw [← here]; exact last))).1
      rw [← here] at after
      exact Nat.le_trans before (Nat.le_trans chain after)
  · have inside : j < m := Nat.lt_of_succ_lt inside'
    have up := rises (j * lastPoint input / m) ((Nat.div_lt_iff_lt_mul some).mpr (by
      rw [Nat.mul_comm (lastPoint input)]
      exact Nat.mul_lt_mul_of_pos_right inside more))
    rw [entry_inside more inside (small j inside), entry_inside more inside' (small _ inside')]
    dsimp only
    rw [← same, if_pos up, if_pos up]
    exact Nat.add_le_add_left (Nat.div_le_div_right (Nat.add_le_add_right (Nat.mul_le_mul_left _ farther) _)) _

theorem entry_falling (more : 0 < lastPoint input) (some : 0 < m) (small : ∀ j < m, lastPoint input * j < 2 ^ 32)
    (falls : ∀ s < lastPoint input, point input (s + 1) ≤ point input s) (j : Nat) :
    entry input m (j + 1) ≤ entry input m j := by
  obtain same | ⟨inside, q, behind, within, next⟩ | ⟨inside', same, farther⟩ := entry_next more some j
  · exact same.ge
  · have before : point input (j * lastPoint input / m + 1) ≤ entry input m j :=
      ((entry_between more inside (small j inside)).2 (falls _ (Nat.lt_of_lt_of_le behind within))).1
    have chain := @points_chain input (· ≥ ·) Nat.le_refl (fun left right => Nat.le_trans right left) _ falls _ _ behind
      within
    obtain held | ⟨inside', here, last⟩ := next
    · exact Nat.le_trans held.ge (Nat.le_trans chain before)
    · have after := ((entry_between more inside' (small _ inside')).2 (falls _ (by rw [← here]; exact last))).2
      rw [← here] at after
      exact Nat.le_trans after (Nat.le_trans chain before)
  · have inside : j < m := Nat.lt_of_succ_lt inside'
    have down := falls (j * lastPoint input / m) ((Nat.div_lt_iff_lt_mul some).mpr (by
      rw [Nat.mul_comm (lastPoint input)]
      exact Nat.mul_lt_mul_of_pos_right inside more))
    rw [entry_inside more inside (small j inside), entry_inside more inside' (small _ inside')]
    dsimp only
    rw [← same]
    obtain level | lower := Nat.eq_or_lt_of_le down
    · rw [level, Nat.sub_self, if_pos (Nat.le_refl _), if_pos (Nat.le_refl _), Nat.zero_mul, Nat.zero_mul]
    · rw [if_neg (Nat.not_le.mpr lower), if_neg (Nat.not_le.mpr lower)]
      exact Nat.sub_le_sub_left (Nat.div_le_div_right (Nat.sub_le_sub_right (Nat.mul_le_mul_left _ farther) _)) _

/-- The table of a mapped curve is its fair interpolation where, between any two points that fall, every entry is within
half a step of the point before, or the half is what remains. -/
theorem mapped_fair_iff {table : List Byte} {idxMax outCap : Nat} (points : 2 ≤ input.length / 2)
    (small : lastPoint input * 2046 < 2 ^ 32) (written : dacLoopUpsampleCurveMapped input idxMax outCap = some table) :
    Fair input (min idxMax dacLoopIdxMax) table ↔
      ∀ j < min idxMax dacLoopIdxMax, fall input (min idxMax dacLoopIdxMax) j ≤ min idxMax dacLoopIdxMax / 2 ∨
        fall input (min idxMax dacLoopIdxMax) j % min idxMax dacLoopIdxMax = min idxMax dacLoopIdxMax / 2 := by
  have more : 0 < lastPoint input := by
    rw [lastPoint]
    omega
  rw [dacLoopUpsampleCurveMapped] at written
  split at written
  · exact nomatch written
  · split at written
    · exact nomatch written
    · next usable =>
        have some : 0 < min idxMax dacLoopIdxMax := by
          rw [dacLoopIdxMax, curvePoints]
          omega
        have top : min idxMax dacLoopIdxMax < curvePoints := by
          rw [dacLoopIdxMax, curvePoints]
          omega
        generalize min idxMax dacLoopIdxMax = m at some top written ⊢
        have narrow : ∀ j < m, lastPoint input * j < 2 ^ 32 := by
          intro j inside
          rw [curvePoints] at top
          exact Nat.lt_of_le_of_lt (Nat.mul_le_mul_left _ (show j ≤ 2046 by omega)) small
        have entries : ∀ j < curvePoints, point table j = entry input m j := by
          intro j inside
          rw [← Option.some.inj written]
          exact @point_table j (entry input m) (entry_le input m) _ inside
        constructor
        · intro fair j inside
          have near := fair.near j inside.le
          rw [entries j (Nat.lt_trans inside top)] at near
          exact (entry_near_iff more inside (narrow j inside)).mp near
        · intro condition
          have whole : m * lastPoint input / m = lastPoint input := Nat.mul_div_cancel_left _ some
          refine ⟨fun j le => ?_, fun j le divides => ?_, fun j late inside => ?_, fun rises j inside => ?_,
            fun falls j inside => ?_⟩
          · rw [entries j (Nat.lt_of_le_of_lt le top)]
            obtain inside | last := Nat.lt_or_eq_of_le le
            · exact (entry_near_iff more inside (narrow j inside)).mpr (condition j inside)
            · rw [exactAt, last, entry_held (Nat.le_refl m), whole, Nat.mul_mod_right]
              simp
          · rw [entries j (Nat.lt_of_le_of_lt le top)]
            obtain inside | last := Nat.lt_or_eq_of_le le
            · rw [entry_inside more inside (narrow j inside), Nat.mod_eq_zero_of_dvd divides]
              have half : m / 2 / m = 0 := Nat.div_eq_of_lt (by omega)
              simp [half]
            · rw [last, entry_held (Nat.le_refl m), whole]
          · rw [entries j inside, entry_held late.le]
          · rw [entries j (Nat.lt_of_succ_lt inside), entries (j + 1) inside]
            exact entry_rising more some narrow rises j
          · rw [entries j (Nat.lt_of_succ_lt inside), entries (j + 1) inside]
            exact entry_falling more some narrow falls j

/-- A curve that falls by three counts over four entries. -/
def falling : List Byte := [3, 0, 0, 0]

theorem mapped_fair_iff_falling : ¬ Fair falling 4 ((dacLoopUpsampleCurveMapped falling 4 curveBytes).getD []) := by
  have written : dacLoopUpsampleCurveMapped falling 4 curveBytes =
      some ((dacLoopUpsampleCurveMapped falling 4 curveBytes).getD []) := by
    rw [dacLoopUpsampleCurveMapped, if_neg (by decide), if_neg (by decide), Option.getD_some]
  intro fair
  obtain near | rest := (mapped_fair_iff (by decide) (by decide) written).mp fair 1 (by decide)
  · exact absurd near (by decide)
  · exact absurd rest (by decide)

/-- Its second entry is three quarters of a count too high. -/
theorem falling_curve_unfair :
    ¬ ∀ (input : List Byte) (idxMax outCap : Nat) (table : List Byte), 2 ≤ input.length / 2 → 0 < idxMax →
      dacLoopUpsampleCurveMapped input idxMax outCap = some table → Fair input (min idxMax dacLoopIdxMax) table := by
  intro every
  have near := (every falling 4 curveBytes _ (by decide) (by decide)
    (by rw [dacLoopUpsampleCurveMapped, if_neg (by decide), if_neg (by decide)])).near 1 (by decide)
  rw [point_table (entry_le falling (min 4 dacLoopIdxMax)) curvePoints (by decide)] at near
  have value : entry falling (min 4 dacLoopIdxMax) 1 = 3 := by decide
  have place : 1 * lastPoint falling / min 4 dacLoopIdxMax = 0 := by decide
  have part : 1 * lastPoint falling % min 4 dacLoopIdxMax = 1 := by decide
  have width : min 4 dacLoopIdxMax = 4 := by decide
  rw [value, exactAt, place, part, width, show point falling 0 = 3 from rfl, show point falling (0 + 1) = 0 from rfl] at near
  norm_num at near

end BenchPod.LoopCurve
