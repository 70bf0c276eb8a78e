import BenchPod.LaPipe.Producer

/-!
# When the producer takes its samples

After the arm the producer waits as long as it is held, then counts the divider down, and from then on takes a sample
every `divider + 2` clocks.
-/

namespace BenchPod.LaPipe

/-- The two bytes of a sample, the low one first. -/
def sampleBytes {n : Nat} (sample : BitVec n) : List Byte := [sample.setWidth 8, (sample.setWidth 16 >>> 8).setWidth 8]

/-- A capture: its length and its divider, and for how many clocks after the arm it is held. -/
structure Request where
  count : BitVec 24
  divider : BitVec 16
  held : Nat

namespace Request

variable (request : Request)

/-- The edge that takes the `k`-th sample, from the arm. -/
def tick (k : Nat) : Nat := request.held + 1 + request.divider.toNat + k * (request.divider.toNat + 2)

/-- The bytes of the first `k` samples. -/
def bytes {n : Nat} (wave : Nat → BitVec n) (k : Nat) : List Byte :=
  (List.range k).flatMap fun j => sampleBytes (wave (request.tick j))

theorem bytes_succ {n : Nat} (wave : Nat → BitVec n) (k : Nat) :
    request.bytes wave (k + 1) = request.bytes wave k ++ sampleBytes (wave (request.tick k)) := by
  rw [bytes, List.range_succ, List.flatMap_append, List.flatMap_singleton]
  rfl

theorem bytes_length {n : Nat} (wave : Nat → BitVec n) (k : Nat) : (request.bytes wave k).length = 2 * k := by
  induction k with
  | zero => rfl
  | succ k ih =>
    rw [bytes_succ, List.length_append, ih]
    rfl

theorem bytes_within {n : Nat} (wave : Nat → BitVec n) {k m : Nat} (le : k ≤ m) :
    request.bytes wave k <+: request.bytes wave m := by
  induction le with
  | refl => exact List.prefix_rfl
  | step _ ih =>
    rw [Nat.succ_eq_add_one, bytes_succ]
    exact ih.trans (List.prefix_append _ _)

end Request

/-- The byte that the producer strobes. -/
def Producer.strobe {n : Nat} (p : Producer n) : List Byte := if p.wrStb then [p.wrData] else []

theorem Producer.strobe_nil {n : Nat} {p : Producer n} (none : p.strobe = []) : p.wrStb = false := by
  cases strobed : p.wrStb with
  | false => rfl
  | true => simp [strobe, strobed] at none

/-- Where the producer is after the edge `t` of a capture, and what it has strobed. -/
inductive Making {n : Nat} (request : Request) (wave : Nat → BitVec n) (t : Nat) (p : Producer n) : List Byte → Prop
  | counting (k : Nat) (more : k < request.count.toNat) (busy : p.busy = true) (low : p.writingHi = false)
      (going : p.done = false) (left : p.sampsQ.toNat = request.count.toNat - k)
      (time : t - request.held + p.divcnt.toNat = request.divider.toNat + k * (request.divider.toNat + 2)) :
      Making request wave t p (request.bytes wave k)
  | high (k : Nat) (more : k < request.count.toNat) (busy : p.busy = true) (high : p.writingHi = true)
      (going : p.done = false) (left : p.sampsQ.toNat = request.count.toNat - k) (reload : p.divcnt = request.divider)
      (latched : p.latched = wave (request.tick k)) (time : t = request.tick k) :
      Making request wave t p (request.bytes wave k ++ [(wave (request.tick k)).setWidth 8])
  | finished (idle : p.busy = false) (done : p.done = true) :
      Making request wave t p (request.bytes wave request.count.toNat)

section Steps

variable {n : Nat} {request : Request} {wave : Nat → BitVec n} {t : Nat} {p : Producer n} {i : Sampling n}
  {made : List Byte}

/-- A clock of a running capture. -/
structure Samples (request : Request) (t : Nat) (i : Sampling n) : Prop where
  run : i.rst = false
  going : i.start = false
  hold : i.hold = decide (t ≤ request.held)
  divider : i.divider = request.divider

theorem Producer.step_waits (samples : Samples request (t + 1) i) (waits : (p.busy && !i.hold) = false) :
    (p.step i).busy = p.busy ∧ (p.step i).writingHi = p.writingHi ∧ (p.step i).done = p.done ∧
      (p.step i).sampsQ = p.sampsQ ∧ (p.step i).divcnt = p.divcnt ∧ (p.step i).latched = p.latched ∧
      (p.step i).strobe = [] := by
  have count : p.countdown i = p.sampsQ := by
    rw [Producer.countdown, samples.run, samples.going]
    simp [waits]
  rw [Producer.step, if_neg (by simp [samples.run]), if_neg (by simp [samples.going]), if_neg (by simp [waits])]
  exact ⟨rfl, rfl, rfl, count, rfl, rfl, rfl⟩

theorem Producer.step_high (samples : Samples request (t + 1) i) (runs : (p.busy && !i.hold) = true)
    (high : p.writingHi = true) : (p.step i).busy = !p.cntOne ∧ (p.step i).writingHi = false ∧
      (p.step i).done = (p.done || p.cntOne) ∧ (p.step i).sampsQ = p.sampsQ - 1 ∧ (p.step i).divcnt = p.divcnt ∧
      (p.step i).strobe = [p.hiByte] := by
  have count : p.countdown i = p.sampsQ - 1 := by
    rw [Producer.countdown, samples.run, samples.going, high]
    simp [runs]
  rw [Producer.step, if_neg (by simp [samples.run]), if_neg (by simp [samples.going]), if_pos runs, if_pos high]
  exact ⟨rfl, rfl, rfl, count, rfl, rfl⟩

theorem Producer.step_low (samples : Samples request (t + 1) i) (runs : (p.busy && !i.hold) = true)
    (low : p.writingHi = false) : (p.step i).busy = true ∧ (p.step i).done = p.done ∧ (p.step i).sampsQ = p.sampsQ ∧
      (if p.divcnt = 0 then (p.step i).writingHi = true ∧ (p.step i).divcnt = request.divider ∧
          (p.step i).latched = p.q2 ∧ (p.step i).strobe = [p.q2.setWidth 8]
        else (p.step i).writingHi = false ∧ (p.step i).divcnt = p.divcnt - 1 ∧ (p.step i).strobe = []) := by
  have count : p.countdown i = p.sampsQ := by
    rw [Producer.countdown, samples.run, samples.going, low]
    simp
  have busy : p.busy = true := (Bool.and_eq_true_iff.mp runs).1
  rw [Producer.step, if_neg (by simp [samples.run]), if_neg (by simp [samples.going]), if_pos runs,
    if_neg (by simp [low])]
  by_cases tick : p.divcnt = 0
  · rw [if_pos (by simp [tick]), if_pos tick]
    exact ⟨busy, rfl, count, rfl, samples.divider, rfl, rfl⟩
  · rw [if_neg (by simpa using tick), if_neg tick]
    exact ⟨busy, rfl, count, low, rfl, rfl⟩

/-- The producer a clock later. -/
theorem Making.step (making : Making request wave t p made) (samples : Samples request (t + 1) i)
    (seen : p.q2 = wave (t + 1)) : Making request wave (t + 1) (p.step i) (made ++ (p.step i).strobe) := by
  have size : request.count.toNat < 2 ^ 24 := request.count.isLt
  cases making with
  | finished idle done =>
    obtain ⟨busy, -, ended, -, -, -, quiet⟩ := Producer.step_waits samples (by rw [idle, Bool.false_and])
    rw [quiet, List.append_nil]
    exact .finished (by rw [busy, idle]) (by rw [ended, done])
  | counting k more busy low going left time =>
    cases hold : i.hold with
    | true =>
      have still : t + 1 ≤ request.held := by simpa [samples.hold] using hold
      obtain ⟨busy', low', going', left', time', -, quiet⟩ := Producer.step_waits samples (by rw [hold, busy]; rfl)
      rw [quiet, List.append_nil]
      refine .counting k more (by rw [busy', busy]) (by rw [low', low]) (by rw [going', going]) (by rw [left', left]) ?_
      rw [time']
      omega
    | false =>
      have past : ¬ t + 1 ≤ request.held := by simpa [samples.hold] using hold
      obtain ⟨busy', going', left', next⟩ := Producer.step_low samples (by rw [hold, busy]; rfl) low
      by_cases tick : p.divcnt = 0
      · rw [if_pos tick] at next
        obtain ⟨high', reload', latched', byte⟩ := next
        have now : t + 1 = request.tick k := by
          have zero : p.divcnt.toNat = 0 := by rw [tick]; rfl
          rw [Request.tick]
          omega
        rw [byte, seen, now]
        exact .high k more busy' high' (by rw [going', going]) (by rw [left', left]) reload'
          (by rw [latched', seen, now]) rfl
      · rw [if_neg tick] at next
        obtain ⟨low', less, quiet⟩ := next
        rw [quiet, List.append_nil]
        refine .counting k more busy' low' (by rw [going', going]) (by rw [left', left]) ?_
        have some : p.divcnt.toNat ≠ 0 := fun none => tick (BitVec.eq_of_toNat_eq none)
        have counted : (p.divcnt - 1).toNat = p.divcnt.toNat - 1 := by
          rw [BitVec.toNat_sub_of_le (by rw [BitVec.le_def]; simp; omega)]
          rfl
        rw [less, counted]
        omega
  | high k more busy high going left reload latched time =>
    have free : i.hold = false := by
      rw [samples.hold, decide_eq_false_iff_not, time, Request.tick]
      omega
    obtain ⟨busy', low', done', left', reload', byte⟩ := Producer.step_high samples (by rw [free, busy]; rfl) high
    have one : p.cntOne = decide (k + 1 = request.count.toNat) := by
      have counter : (p.sampsQ.setWidth 24).toNat = request.count.toNat - k := by
        rw [BitVec.toNat_setWidth, left, Nat.mod_eq_of_lt (by omega)]
      rw [Producer.cntOne, Bool.eq_iff_iff, beq_iff_eq, decide_eq_true_iff, ← BitVec.toNat_inj, counter]
      show request.count.toNat - k = 1 ↔ _
      omega
    have whole : request.bytes wave k ++ [(wave (request.tick k)).setWidth 8] ++ (p.step i).strobe =
        request.bytes wave (k + 1) := by
      rw [byte, Request.bytes_succ, sampleBytes, Producer.hiByte, latched, List.append_assoc]
      rfl
    rw [whole]
    by_cases last : k + 1 = request.count.toNat
    · rw [last]
      refine .finished ?_ ?_
      · rw [busy', one, decide_eq_true last]
        rfl
      · rw [done', one, decide_eq_true last, Bool.or_true]
    · refine .counting (k + 1) (by omega) ?_ low' ?_ ?_ ?_
      · rw [busy', one, decide_eq_false last]
        rfl
      · rw [done', going, one, decide_eq_false last]
        rfl
      · rw [left', BitVec.toNat_sub_of_le (by rw [BitVec.le_def, left]; simp; omega), left]
        exact Nat.sub_sub _ _ _
      · rw [reload', reload, time, Request.tick, Nat.succ_mul]
        omega

theorem Making.start (some : request.count ≠ 0) (run : i.rst = false) (start : i.start = true)
    (count : i.sampleCount = request.count) (divider : i.divider = request.divider) :
    Making request wave 0 (p.step i) [] ∧ (p.step i).strobe = [] := by
  have positive : 0 < request.count.toNat := Nat.pos_of_ne_zero fun none => some (BitVec.eq_of_toNat_eq none)
  have loaded : (p.step i).sampsQ = request.count.setWidth 32 ∧ (p.step i).busy = (request.count != 0) ∧
      (p.step i).writingHi = false ∧ (p.step i).done = false ∧ (p.step i).divcnt = request.divider ∧
      (p.step i).strobe = [] := by
    have counter : p.countdown i = request.count.setWidth 32 := by
      rw [Producer.countdown, run, start, count]
      rfl
    rw [Producer.step, if_neg (by simp [run]), if_pos start]
    exact ⟨counter, by rw [count], rfl, rfl, divider, rfl⟩
  obtain ⟨counter, busy, low, going, reload, quiet⟩ := loaded
  refine ⟨.counting 0 positive ?_ low going ?_ ?_, quiet⟩
  · rw [busy, bne_iff_ne]
    exact some
  · rw [counter, BitVec.toNat_setWidth, Nat.mod_eq_of_lt (Nat.lt_trans request.count.isLt (by decide)), Nat.sub_zero]
  · rw [reload]
    omega

theorem Making.passed (making : Making request wave t p made)
    (late : request.tick request.count.toNat ≤ t) : p.busy = false ∧ p.done = true := by
  have earlier : ∀ k < request.count.toNat, request.tick k + (request.divider.toNat + 2) ≤ request.tick request.count.toNat := by
    intro k more
    have steps := Nat.mul_le_mul_right (request.divider.toNat + 2) more
    rw [Nat.succ_mul] at steps
    rw [Request.tick, Request.tick]
    omega
  cases making with
  | finished idle done => exact ⟨idle, done⟩
  | counting k more busy low going left time =>
    have before := earlier k more
    rw [Request.tick] at before
    omega
  | high k more busy high going left reload latched time =>
    have before := earlier k more
    omega

theorem Making.made_within (making : Making request wave t p made) : made <+: request.bytes wave request.count.toNat := by
  cases making with
  | finished idle done => exact List.prefix_rfl
  | counting k more busy low going left time => exact request.bytes_within wave more.le
  | high k more busy high going left reload latched time =>
    refine List.IsPrefix.trans ?_ (request.bytes_within wave more)
    rw [Nat.succ_eq_add_one, Request.bytes_succ, sampleBytes]
    exact (List.prefix_append_right_inj _).mpr (List.prefix_append [_] [_])

end Steps

end BenchPod.LaPipe
