import BenchPod.Library.Word
import Mathlib.Data.Nat.ModEq
import Mathlib.Tactic.IntervalCases

/-!
# The date of a second

A fix counts seconds since 1970, and its sentences print a date.  `gps_nmea.c` reckons in years that start in
March, four centuries at a time.
-/

namespace BenchPod.Gps

/-- A date of the Gregorian calendar. -/
structure Date where
  y : Int
  m : Nat
  d : Nat

/-- `civil_from_days`. -/
def civilFromDays (z : Int) : Date :=
  let z := z + 719468
  let era := (if 0 ≤ z then z else z - 146096).tdiv 146097
  let doe := (z - era * 146097).toNat
  let yoe := (doe - doe / 1460 + doe / 36524 - doe / 146096) / 365
  let yy := yoe + era * 400
  let doy := doe - (365 * yoe + yoe / 4 - yoe / 100)
  let mp := (5 * doy + 2) / 153
  let m := if mp < 10 then mp + 3 else mp - 9
  { y := yy + if m ≤ 2 then 1 else 0, m, d := doy - (153 * mp + 2) / 5 + 1 }

/-- `days_from_civil`. -/
def daysFromCivil (y : Int) (m d : Nat) : Int :=
  let y := y - if m ≤ 2 then 1 else 0
  let era := (if 0 ≤ y then y else y - 399).tdiv 400
  let yoe := (y - era * 400).toNat
  let doy := (153 * (if 2 < m then m - 3 else m + 9) + 2) / 5 + d - 1
  let doe := yoe * 365 + yoe / 4 - yoe / 100 + doy
  era * 146097 + doe - 719468

/-! ## The calendar -/

def leap (y : Int) : Bool := 4 ∣ y ∧ (¬100 ∣ y ∨ 400 ∣ y)

def monthDays (leap : Bool) (m : Nat) : Nat :=
  if m = 2 then if leap then 29 else 28 else if m ∈ [4, 6, 9, 11] then 30 else 31

/-- The day after. -/
def Date.next (date : Date) : Date :=
  if date.d < monthDays (leap date.y) date.m then { date with d := date.d + 1 }
  else if date.m < 12 then { date with m := date.m + 1, d := 1 } else ⟨date.y + 1, 1, 1⟩

/-- The date so many days after the first of 1970. -/
def dateOf (days : Nat) : Date := Date.next^[days] ⟨1970, 1, 1⟩

/-! ## Years that start in March -/

variable {yy doy : Nat}

/-- The days before the March of a year. -/
def yearStart (yy : Nat) : Nat := 365 * yy + yy / 4 - yy / 100 + yy / 400

/-- The days of the year from that March on. -/
def yearDays (yy : Nat) : Nat := 365 + (leap (yy + 1)).toNat

/-- The month and the day of it, by the day of such a year. -/
def marchMonth (doy : Nat) : Nat × Nat :=
  let mp := (5 * doy + 2) / 153
  (if mp < 10 then mp + 3 else mp - 9, doy - (153 * mp + 2) / 5 + 1)

def marchDate (yy : Nat) (month : Nat × Nat) : Date := ⟨yy + if month.1 ≤ 2 then 1 else 0, month.1, month.2⟩

theorem yearStart_succ (yy : Nat) : yearStart (yy + 1) = yearStart yy + yearDays yy := by
  have leap_eq : leap (yy + 1) = decide (4 ∣ yy + 1 ∧ (¬100 ∣ yy + 1 ∨ 400 ∣ yy + 1)) := by
    rw [leap, decide_eq_decide]
    omega
  simp only [yearStart, yearDays, leap_eq, Nat.succ_div]
  by_cases four : 4 ∣ yy + 1 <;> by_cases century : 100 ∣ yy + 1 <;> by_cases era : 400 ∣ yy + 1 <;>
    simp [four, century, era] <;> omega

theorem marchDate_next {m d : Nat} (most : m ≤ 12) : (marchDate yy (m, d)).next =
    if d < monthDays (leap (yy + 1)) m then marchDate yy (m, d + 1)
    else if m = 2 then marchDate (yy + 1) (3, 1) else marchDate yy (m % 12 + 1, 1) := by
  interval_cases m <;> simp [Date.next, marchDate, monthDays]

theorem marchMonth_next : ∀ leap : Bool, ∀ doy < 365 + leap.toNat, (marchMonth doy).1 ≤ 12 ∧
    if (marchMonth doy).2 < monthDays leap (marchMonth doy).1 then
      doy + 1 < 365 + leap.toNat ∧ marchMonth (doy + 1) = ((marchMonth doy).1, (marchMonth doy).2 + 1)
    else if (marchMonth doy).1 = 2 then doy + 1 = 365 + leap.toNat
    else doy + 1 < 365 + leap.toNat ∧ marchMonth (doy + 1) = ((marchMonth doy).1 % 12 + 1, 1) := by
  decide +kernel

theorem dateOf_march (days : Nat) : ∃ yy doy, dateOf days = marchDate yy (marchMonth doy) ∧
    days + 719468 = yearStart yy + doy ∧ doy < yearDays yy := by
  induction days with
  | zero => exact ⟨1969, 306, rfl, rfl, by decide⟩
  | succ days ih =>
    obtain ⟨yy, doy, date, count, inside⟩ := ih
    obtain ⟨most, next⟩ := marchMonth_next _ doy inside
    generalize marchMonth doy = month at *
    obtain ⟨m, d⟩ := month
    rw [dateOf, Function.iterate_succ_apply', ← dateOf, date, marchDate_next most]
    split_ifs at next ⊢
    · exact ⟨yy, doy + 1, by rw [next.2], by omega, next.1⟩
    · exact ⟨yy + 1, 0, rfl, by rw [yearStart_succ, yearDays]; omega, Nat.lt_add_right _ (by decide)⟩
    · exact ⟨yy, doy + 1, by rw [next.2], by omega, next.1⟩

/-- The year of an era, by the day of the era. -/
theorem yoe_eq {yoe : Nat} (few : yoe < 400) (inside : doy < yearStart (yoe + 1) - yearStart yoe) :
    let doe := yearStart yoe + doy
    (doe - doe / 1460 + doe / 36524 - doe / 146096) / 365 = yoe := by
  intro doe
  obtain ⟨c, q, t, rfl, cs, qs, ts⟩ : ∃ c q t, yoe = 100 * c + 4 * q + t ∧ c < 4 ∧ q < 25 ∧ t < 4 :=
    ⟨yoe / 100, yoe % 100 / 4, yoe % 4, by omega, by omega, by omega, by omega⟩
  have start : doe = 36524 * c + 1461 * q + 365 * t + doy := by simp only [doe, yearStart]; omega
  have short : doy ≤ 364 ∨ doy = 365 ∧ t = 3 ∧ (q < 24 ∨ c = 3) := by simp only [yearStart] at inside; omega
  have least : 25 * c + q + (doy - 364) ≤ doe / 1460 := by omega
  have most : doe / 1460 ≤ 25 * c + q + doy := by omega
  have century : doe / 36524 - doe / 146096 = c := by
    by_cases last : doe < 146096
    · rw [Nat.div_eq_of_lt last]
      omega
    · omega
  omega

theorem civilFromDays_march {days : Nat} (count : days + 719468 = yearStart yy + doy) (inside : doy < yearDays yy) :
    civilFromDays days = marchDate yy (marchMonth doy) := by
  have era_start (yoe era : Nat) : yearStart (yoe + era * 400) = yearStart yoe + era * 146097 := by
    simp only [yearStart]
    omega
  have next := yearStart_succ yy
  obtain ⟨yoe, era, rfl, few⟩ : ∃ yoe era, yy = yoe + era * 400 ∧ yoe < 400 :=
    ⟨yy % 400, yy / 400, (Nat.mod_add_div' yy 400).symm, Nat.mod_lt yy (by decide)⟩
  rw [Nat.add_right_comm, era_start, era_start] at next
  rw [era_start] at count
  have year := yoe_eq few (by omega : doy < _)
  have start : yearStart yoe = 365 * yoe + yoe / 4 - yoe / 100 := by
    rw [yearStart, Nat.div_eq_of_lt few, Nat.add_zero]
  have last : yearStart (yoe + 1) ≤ 146097 := by
    simp only [yearStart]
    omega
  have z : (days : Int) + 719468 = (days + 719468 : Nat) := rfl
  have era_eq : ((days + 719468 : Nat) : Int).tdiv 146097 = era := by
    change (((days + 719468) / 146097 : Nat) : Int) = _
    omega
  have doe : ((days + 719468 : Nat) - (era : Int) * 146097).toNat = yearStart yoe + doy := by omega
  simp only [civilFromDays, z, if_pos (Int.natCast_nonneg _), era_eq, doe, year, ← start, Nat.add_sub_cancel_left]
  rfl

theorem daysFromCivil_march (short : doy < 366) : daysFromCivil (marchDate yy (marchMonth doy)).y
    (marchDate yy (marchMonth doy)).m (marchDate yy (marchMonth doy)).d = yearStart yy + doy - 719468 := by
  have months : ∀ doy < 366, (153 * (if 2 < (marchMonth doy).1 then (marchMonth doy).1 - 3 else (marchMonth doy).1 + 9)
      + 2) / 5 + (marchMonth doy).2 - 1 = doy := by decide +kernel
  have era : (yy : Int).tdiv 400 = (yy / 400 : Nat) := rfl
  change daysFromCivil (yy + if (marchMonth doy).1 ≤ 2 then 1 else 0) (marchMonth doy).1 (marchMonth doy).2 = _
  rw [daysFromCivil, months doy short, Int.add_sub_cancel, if_pos (Int.natCast_nonneg yy), era, yearStart]
  omega

/-- The date of every second is the Gregorian one, and the day of the date is its day. -/
theorem date_of_second (utcS : Word) :
    let days := utcS.toNat / 86400
    civilFromDays days = dateOf days ∧ daysFromCivil (dateOf days).y (dateOf days).m (dateOf days).d = days := by
  intro days
  obtain ⟨yy, doy, date, count, inside⟩ := dateOf_march days
  have short : yearDays yy ≤ 366 := Nat.add_le_add_left (Bool.toNat_le _) _
  rw [civilFromDays_march count inside, date, daysFromCivil_march (by omega)]
  exact ⟨rfl, by omega⟩

end BenchPod.Gps
