import BenchPod.Library.Word
import Mathlib.Tactic.Ring

/-!
# Clocks that wrap

A millisecond counter of 32 bits that starts anywhere.  A difference of two of its values is the time
between them up to 2³² ms, so a difference that is large means that much time has passed.
-/

namespace BenchPod

/-- The clock some milliseconds after it had its starting value. -/
def clockAt (start : Word) (time : Nat) : Word := start + BitVec.ofNat 32 time

theorem clockAt_toNat (start : Word) (time : Nat) : (clockAt start time).toNat = (start.toNat + time) % 4294967296 := by
  rw [clockAt, BitVec.toNat_add, BitVec.toNat_ofNat]
  omega

theorem clockAt_sub {start : Word} {since time : Nat} (past : since ≤ time) :
    (clockAt start time - clockAt start since).toNat = (time - since) % 4294967296 := by
  rw [BitVec.toNat_sub, clockAt_toNat, clockAt_toNat]
  omega

theorem clockAt_elapsed {start limit : Word} {since time : Nat} (past : since ≤ time)
    (elapsed : limit ≤ clockAt start time - clockAt start since) :
    since + limit.toNat ≤ time := by
  rw [BitVec.le_def, clockAt_sub past] at elapsed
  have bound := Nat.mod_le (time - since) 4294967296
  omega

theorem clockAt_late {start limit : Word} {since first second : Nat} (past : since ≤ first)
    (apart : first + limit.toNat ≤ second) (close : second + limit.toNat ≤ first + 4294967296) :
    limit ≤ clockAt start first - clockAt start since ∨
      limit ≤ clockAt start second - clockAt start since := by
  rw [BitVec.le_def, BitVec.le_def, clockAt_sub past, clockAt_sub (by omega)]
  omega

end BenchPod

/-!
## Rate limits over a ring of times

A limiter keeps its last times in a ring that is indexed by a count, and admits one more only while
not all of them are recent.  Then any two admitted times that lie a whole ring apart are a period
apart, so no window of one period holds more of them than the ring has places.
-/

namespace BenchPod

/-- Times, newest first, each a period later than all that lie `size` places before it. -/
def Spaced (size period : Nat) : List Nat → Prop
  | [] => True
  | time :: times => (∀ earlier ∈ (time :: times).drop size, earlier + period ≤ time) ∧ Spaced size period times

namespace Spaced

variable {size period : Nat} {times : List Nat}

theorem window (spaced : Spaced size period times) (since : Nat) :
    times.countP (fun time => since ≤ time ∧ time < since + period) ≤ size := by
  induction times with
  | nil => exact Nat.zero_le _
  | cons time times ih =>
    by_cases inside : since ≤ time ∧ time < since + period
    · -- What lies `size` places back is before the window.
      have before : ((time :: times).drop size).countP
          (fun time => decide (since ≤ time ∧ time < since + period)) = 0 := by
        rw [List.countP_eq_zero]
        intro earlier member
        have apart := spaced.1 earlier member
        rw [decide_eq_true_eq]
        omega
      have kept : ((time :: times).take size).countP (fun time => decide (since ≤ time ∧ time < since + period)) ≤ size :=
        Nat.le_trans List.countP_le_length (by simp)
      rw [← List.take_append_drop size (time :: times), List.countP_append, before]
      exact kept
    · rw [List.countP_cons_of_neg (by simpa using inside)]
      exact ih spaced.2

theorem below (spaced : Spaced size period times) (periods : Nat) :
    times.countP (fun time => time < periods * period) ≤ size * periods := by
  induction periods with
  | zero => simp
  | succ periods ih =>
    have split (front : List Nat) : front.countP (fun time => time < (periods + 1) * period) ≤
        front.countP (fun time => time < periods * period) +
          front.countP (fun time => periods * period ≤ time ∧ time < periods * period + period) := by
      induction front with
      | nil => exact Nat.le_refl _
      | cons time front ih =>
        have bound : (periods + 1) * period = periods * period + period := Nat.succ_mul ..
        simp only [List.countP_cons, decide_eq_true_eq, bound] at ih ⊢
        split_ifs <;> omega
    calc times.countP (fun time => time < (periods + 1) * period)
        ≤ size * periods + size := Nat.le_trans (split times) (Nat.add_le_add ih (spaced.window (periods * period)))
      _ = size * (periods + 1) := (Nat.mul_succ ..).symm

theorem length_le (spaced : Spaced size period times) {periods : Nat}
    (early : ∀ time ∈ times, time < periods * period) : times.length ≤ size * periods := by
  have bound := spaced.below periods
  rwa [List.countP_eq_length.mpr (by simpa using early)] at bound

end Spaced

/-- The ring holds the newest of these times, by the clock, each at its number from the oldest. -/
structure Recent {size : Nat} (ring : Vector Word size) (n : Word) (clock : Nat → Word) (times : List Nat) :
    Prop where
  count_eq : n.toNat = times.length
  held : ∀ {i : Nat} (within : i < times.length), i < size →
    ring.toList[(times.length - 1 - i) % size]? = some (clock times[i])

namespace Recent

variable {size : Nat} {ring : Vector Word size} {n : Word} {clock : Nat → Word} {times : List Nat}

theorem empty (ring : Vector Word size) (clock : Nat → Word) : Recent ring 0 clock [] :=
  ⟨rfl, fun within => absurd within (Nat.not_lt_zero _)⟩

theorem push (recent : Recent ring n clock times) (room : times.length + 1 < 4294967296) (positive : 0 < size)
    (time : Nat) :
    Recent (ring.set (n.toNat % size) (clock time) (Nat.mod_lt _ positive)) (n + 1) clock (time :: times) := by
  constructor
  · rw [BitVec.toNat_add, recent.count_eq]
    exact Nat.mod_eq_of_lt room
  · intro i within small
    rw [Vector.toList_set, recent.count_eq]
    cases i with
    | zero => simp [Nat.mod_lt _ positive]
    | succ i =>
      have inside : i < times.length := Nat.lt_of_succ_lt_succ within
      have place : (time :: times).length - 1 - (i + 1) = times.length - 1 - i := by
        simp only [List.length_cons]
        omega
      have other : times.length % size ≠ (times.length - 1 - i) % size := by
        intro same
        have multiple := Nat.sub_mod_eq_zero_of_mod_eq same
        rw [show times.length - (times.length - 1 - i) = i + 1 by omega, Nat.mod_eq_of_lt small] at multiple
        exact Nat.succ_ne_zero i multiple
      rw [place, List.getElem?_set_ne other]
      exact recent.held inside (by omega)

theorem admits (recent : Recent ring n clock times) (sorted : times.Pairwise (· ≥ ·)) {now : Nat} {period : Word}
    (past : ∀ time ∈ times, time ≤ now) (passed : ∀ time ∈ times, (clock now - clock time).toNat = now - time)
    (few : (ring.toList.take n.toNat).countP (fun held => clock now - held < period) < size) :
    ∀ earlier ∈ times.drop (size - 1), earlier + period.toNat ≤ now := by
  intro earlier member
  by_contra late
  obtain ⟨k, back, earlier_eq⟩ := List.getElem_of_mem member
  rw [List.getElem_drop] at earlier_eq
  rw [List.length_drop] at back
  have positive : 0 < size := Nat.lt_of_le_of_lt (Nat.zero_le _) few
  have all_recent : ∀ held ∈ ring.toList.take n.toNat, clock now - held < period := by
    intro held held_mem
    obtain ⟨place, inside, rfl⟩ := List.getElem_of_mem (List.mem_of_mem_take held_mem)
    rw [Vector.length_toList] at inside
    -- The place of the ring that holds the time `j` places back.
    have j_lt := Nat.mod_lt (times.length - 1 - place) positive
    generalize j_eq : (times.length - 1 - place) % size = j at j_lt
    have place_eq : (times.length - 1 - j) % size = place := by
      have parts := Nat.div_add_mod (times.length - 1 - place) size
      rw [j_eq] at parts
      rw [show times.length - 1 - j = place + size * ((times.length - 1 - place) / size) by omega,
        Nat.add_mul_mod_self_left, Nat.mod_eq_of_lt inside]
    have found := recent.held (by omega) j_lt
    rw [place_eq, List.getElem?_eq_getElem (by rwa [Vector.length_toList]), Option.some.injEq] at found
    have younger : earlier ≤ times[j] := by
      rw [← earlier_eq]
      rcases Nat.eq_or_lt_of_le (show j ≤ size - 1 + k by omega) with same | before
      · simp only [same, Nat.le_refl]
      · exact List.pairwise_iff_getElem.mp sorted _ _ _ _ before
    have oldest := past earlier (List.mem_of_mem_drop member)
    rw [found, BitVec.lt_def, passed _ (List.getElem_mem _)]
    omega
  have counted := List.countP_eq_length.mpr fun held member => decide_eq_true (all_recent held member)
  rw [counted, List.length_take, Vector.length_toList, recent.count_eq] at few
  omega

end Recent

/-- A limiter that has admitted these times. -/
structure Limiter {size : Nat} (ring : Vector Word size) (n : Word) (clock : Nat → Word) (period : Word)
    (times : List Nat) : Prop where
  recent : Recent ring n clock times
  spaced : Spaced size period.toNat times

/-- The later of two times is a gap after the earlier. -/
def Apart (gap : Word) (later earlier : Nat) : Prop := earlier + gap.toNat ≤ later

/-- Times that are a gap apart, with the clock's value at the newest. -/
structure Gapped (clock : Nat → Word) (gap last : Word) (times : List Nat) : Prop where
  apart : times.Pairwise (Apart gap)
  last_eq : ∀ time ∈ times.head?, last = clock time

section Admit

variable {size : Nat} {ring : Vector Word size} {n : Word} {clock : Nat → Word} {period gap last : Word}
  {times : List Nat} {now : Nat}

theorem Limiter.empty (ring : Vector Word size) (clock : Nat → Word) (period : Word) :
    Limiter ring 0 clock period [] := ⟨.empty ring clock, trivial⟩

theorem Limiter.admit (limiter : Limiter ring n clock period times) (sorted : times.Pairwise (· ≥ ·))
    (past : ∀ time ∈ times, time ≤ now) (passed : ∀ time ∈ times, (clock now - clock time).toNat = now - time)
    (few : (ring.toList.take n.toNat).countP (fun held => clock now - held < period) < size) {periods : Nat}
    (early : now < periods * period.toNat) (room : size * periods < 4294967296) :
    Limiter (ring.set (n.toNat % size) (clock now) (Nat.mod_lt _ (Nat.lt_of_le_of_lt (Nat.zero_le _) few)))
      (n + 1) clock period (now :: times) := by
  have spaced : Spaced size period.toNat (now :: times) := by
    refine ⟨?_, limiter.spaced⟩
    have drop_eq : (now :: times).drop size = times.drop (size - 1) := by
      cases size with
      | zero => exact absurd few (Nat.not_lt_zero _)
      | succ size => rfl
    rw [drop_eq]
    exact limiter.recent.admits sorted past passed few
  have count : (now :: times).length ≤ size * periods := spaced.length_le fun time member => by
    rcases List.mem_cons.mp member with rfl | member
    · exact early
    · exact Nat.lt_of_le_of_lt (past time member) early
  exact ⟨limiter.recent.push (Nat.lt_of_le_of_lt count room) (Nat.lt_of_le_of_lt (Nat.zero_le _) few) now, spaced⟩

theorem Gapped.empty (clock : Nat → Word) (gap last : Word) : Gapped clock gap last [] := ⟨.nil, by simp⟩

theorem Gapped.admit (gapped : Gapped clock gap last times) (past : ∀ time ∈ times, time ≤ now)
    (passed : ∀ time ∈ times, (clock now - clock time).toNat = now - time)
    (free : times = [] ∨ gap ≤ clock now - last) : Gapped clock gap (clock now) (now :: times) := by
  refine ⟨List.pairwise_cons.mpr ⟨?_, gapped.apart⟩, by simp⟩
  cases times with
  | nil => simp
  | cons time times =>
    have waited := free.resolve_left (List.cons_ne_nil _ _)
    rw [gapped.last_eq time rfl, BitVec.le_def, passed _ (List.mem_cons_self ..)] at waited
    have newest := past time (List.mem_cons_self ..)
    have after : Apart gap now time := by
      simp only [Apart]
      omega
    intro earlier member
    rcases List.mem_cons.mp member with rfl | member
    · exact after
    · exact Nat.le_trans ((List.pairwise_cons.mp gapped.apart).1 earlier member) newest

end Admit

end BenchPod
