import BenchPod.LaPipe.Sent
import Mathlib.Data.List.DropRight

/-!
# The window before the trigger, and the words refused

While the ring is held it keeps the newest words and drops the oldest of those that it held when the window opened.
Outside a window every word that leaves it is sent.
-/

namespace BenchPod.LaPipe

theorem newest_push {α : Type*} {n : Nat} (some : 0 < n) (values : List α) (value : α) :
    (values ++ [value]).rtake n =
        (if n ≤ (values.rtake n).length then (values.rtake n).drop 1 else values.rtake n) ++ [value] ∧
      (values ++ [value]).rdrop n =
        values.rdrop n ++ if n ≤ (values.rtake n).length then (values.rtake n).take 1 else [] := by
  obtain ⟨n, rfl⟩ := Nat.exists_eq_add_of_lt some
  rw [Nat.zero_add, List.rtake_concat_succ, List.rdrop_concat_succ]
  simp only [List.rtake, List.rdrop, List.length_drop]
  by_cases full : n + 1 ≤ values.length
  · have more : values.length - n = values.length - (n + 1) + 1 := by omega
    rw [if_pos (by omega), if_pos (by omega), more, List.drop_drop, List.take_add]
    exact ⟨rfl, rfl⟩
  · rw [if_neg (by omega), if_neg (by omega), Nat.sub_eq_zero_of_le (Nat.le_of_lt_succ (Nat.not_le.mp full)),
      Nat.sub_eq_zero_of_le (Nat.le_of_lt (Nat.not_le.mp full)), List.append_nil]
    exact ⟨rfl, rfl⟩

/-- The words in the memory. -/
def Ring.held (w : Widths) (r : Ring) : List Word :=
  (List.range (r.fill w)).map fun k => r.sram ((r.rdPtr + k) % 2 ^ w.aw)

variable {w : Widths} {t : Traced} {i : Offer} {resident : List Word} {offers : List Offer}

theorem Stored.held (stored : Stored w t resident) : t.ring.held w = resident := by
  refine List.ext_getElem? fun k => ?_
  have cell := stored.memory.held (t.log.left.length + k) (Nat.le_add_right _ _)
  rw [List.getElem?_append_right (by rw [List.length_map]; exact Nat.le_add_right _ _), List.length_map,
    Nat.add_sub_cancel_left, List.length_append, List.length_map] at cell
  rw [Ring.held, stored.fill, List.getElem?_map, cell]
  by_cases inside : k < resident.length
  · rw [List.getElem?_range inside, if_pos (by omega), stored.rdPtr, Option.map_some, Nat.add_mod,
      Nat.mod_mod_of_dvd _ (Nat.pow_dvd_pow 2 (Nat.le_succ w.aw)), ← Nat.add_mod]
  · rw [List.getElem?_eq_none (by rw [List.length_range]; omega), if_neg (by omega)]
    rfl

theorem Stored.window_step (stored : Stored w t resident) (run : i.rst = false) (hold : i.holdOut = true) :
    t.ring.after w i resident = (if t.ring.doWrite w then
        (if 2 ^ w.preAw ≤ resident.length then resident.drop 1 else resident) ++ [t.ring.inP] else resident) ∧
      (t.step w i).log.left = t.log.left ++ (if t.ring.doWrite w then
        (if 2 ^ w.preAw ≤ resident.length then resident.take 1 else []) else []).map (·, false) := by
  have quiet : t.ring.doRead w i = false := by simp [Ring.doRead, hold]
  have leaves : t.ring.leaves w i = (t.ring.doWrite w && decide (2 ^ w.preAw ≤ resident.length)) := by
    rw [Ring.leaves, quiet, stored.preDrop, hold, Bool.false_or, Bool.true_and]
  rw [(Traced.step_run run t).1, Ring.after, quiet]
  cases drops : t.ring.leaves w i with
  | true =>
    obtain ⟨rest, cons⟩ := stored.oldest drops
    rw [leaves, Bool.and_eq_true, decide_eq_true_iff] at drops
    rw [if_pos rfl, if_pos rfl, if_pos drops.1, if_pos drops.1, if_pos drops.1, if_pos drops.2, if_pos drops.2]
    generalize t.ring.sram (t.ring.rdPtr % 2 ^ w.aw) = head at cons ⊢
    subst cons
    exact ⟨rfl, rfl⟩
  | false =>
    rw [if_neg Bool.false_ne_true, if_neg Bool.false_ne_true]
    cases writes : t.ring.doWrite w with
    | false => exact ⟨List.append_nil _, rfl⟩
    | true =>
      rw [leaves, writes, Bool.true_and, decide_eq_false_iff_not] at drops
      rw [if_pos rfl, if_pos rfl, if_pos rfl, if_neg drops, if_neg drops]
      exact ⟨rfl, rfl⟩

/-- The producers keep their promise, and neither the reset nor the next arm comes. -/
def Goes (t : Traced) (i : Offer) : Prop := Offers t i ∧ i.rst = false ∧ i.clrOvf = false

/-- What a window that opens with `first` in the memory has kept and dropped, after the words `written` went in. -/
structure Windowed (w : Widths) (before : List (Word × Bool)) (first written : List Word) (t : Traced) : Prop where
  sound : Sound w t ((first ++ written).rtake (2 ^ w.preAw))
  dropped : t.log.left = before ++ ((first ++ written).rdrop (2 ^ w.preAw)).map (·, false)

theorem Windowed.step {before : List (Word × Bool)} {first written : List Word}
    (windowed : Windowed w before first written t) (goes : Goes t i) (hold : i.holdOut = true) :
    ∃ written, Windowed w before first written (t.step w i) := by
  obtain ⟨sound, dropped⟩ := windowed
  obtain ⟨offers, run, -⟩ := goes
  obtain ⟨after, left⟩ := sound.stored.window_step run hold
  have next := sound.step offers run
  cases writes : t.ring.doWrite w with
  | false =>
    rw [writes, if_neg Bool.false_ne_true] at after left
    refine ⟨written, ?_, ?_⟩
    · rwa [after] at next
    · rw [left, dropped, List.map_nil, List.append_nil]
  | true =>
    obtain ⟨newest, oldest⟩ := newest_push (Nat.two_pow_pos w.preAw) (first ++ written) t.ring.inP
    rw [writes, if_pos rfl] at after left
    refine ⟨written ++ [t.ring.inP], ?_, ?_⟩
    · rwa [← List.append_assoc, newest, ← after]
    · rw [left, dropped, ← List.append_assoc, oldest, List.map_append, List.append_assoc]

theorem Sound.window (sound : Sound w t resident) (few : resident.length ≤ 2 ^ w.preAw)
    (along : (ring w).Along (fun t i => Goes t i ∧ i.holdOut = true) t offers) :
    ∃ written, Windowed w t.log.left resident written ((ring w).run t offers) := by
  refine along.invariant _ (fun now => ∃ written, Windowed w t.log.left resident written now) ?_ ⟨[], ?_, ?_⟩
  · rintro now i ⟨written, windowed⟩ ⟨goes, hold⟩
    exact windowed.step goes hold
  · rwa [List.append_nil, List.rtake, Nat.sub_eq_zero_of_le few]
  · rw [List.append_nil, List.rdrop, Nat.sub_eq_zero_of_le few]
    exact (List.append_nil _).symm

theorem clear_window (along : (ring w).Along (fun t i => Goes t i ∧ i.holdOut = false) t offers) :
    ∃ words : List Word, ((ring w).run t offers).log.left = t.log.left ++ words.map (·, true) := by
  refine along.invariant _ (fun now => ∃ words : List Word, now.log.left = t.log.left ++ words.map (·, true)) ?_
    ⟨[], (List.append_nil _).symm⟩
  rintro now i ⟨words, left⟩ ⟨⟨-, run, -⟩, free⟩
  have step := (@Traced.step_run w i run now).1
  have drops : now.ring.preDrop w i = false := by rw [Ring.preDrop, free, Bool.false_and]
  rw [Ring.leaves, drops, Bool.and_false, Bool.or_false] at step
  cases reads : now.ring.doRead w i with
  | false =>
    rw [reads, if_neg Bool.false_ne_true, List.append_nil] at step
    exact ⟨words, step.trans left⟩
  | true =>
    rw [reads, if_pos rfl] at step
    refine ⟨words ++ [now.ring.sram (now.ring.rdPtr % 2 ^ w.aw)], ?_⟩
    rw [List.map_append, ← List.append_assoc, ← left]
    exact step

/-- The overflow tells whether a word that was offered was not taken. -/
structure Counted (t : Traced) : Prop where
  order : t.log.taken.Sublist t.log.offered
  flag : t.ring.overflow = true ↔ t.log.taken.length < t.log.offered.length

theorem Counted.step (counted : Counted t) (goes : Goes t i) : Counted (t.step w i) := by
  obtain ⟨order, flag⟩ := counted
  obtain ⟨-, run, clear⟩ := goes
  have ring : (t.step w i).ring.overflow = (t.ring.overflow || (i.inStb && !t.ring.inRdy w)) := by
    rw [Traced.step, Ring.step, if_neg (by simp [run]), clear]
    simp
  have offered : (t.step w i).log.offered = t.log.offered ++ if i.inStb then [i.inWord] else [] := by
    rw [Traced.step, run]
    rfl
  have taken := (@Traced.step_run w i run t).2.1
  cases offers : i.inStb with
  | false =>
    rw [offers, Bool.false_and] at taken ring
    rw [offers] at offered
    rw [Bool.or_false] at ring
    refine ⟨?_, ?_⟩
    · rw [taken, offered]
      exact order.append (List.Sublist.refl _)
    · rw [taken, offered, ring, flag]
      simp
  | true =>
    rw [offers, Bool.true_and] at taken ring
    rw [offers] at offered
    cases ready : t.ring.inRdy w with
    | true =>
      rw [ready] at taken ring
      rw [Bool.not_true, Bool.or_false] at ring
      refine ⟨?_, ?_⟩
      · rw [taken, offered]
        exact order.append (List.Sublist.refl _)
      · rw [taken, offered, ring, flag]
        simp
    | false =>
      rw [ready] at taken ring
      refine ⟨?_, ?_⟩
      · rw [taken, offered]
        exact order.append (List.nil_sublist _)
      · have shorter := order.length_le
        rw [taken, offered, ring]
        simp
        omega

theorem Counted.reset (reset : i.rst = true) : Counted (t.step w i) := by
  rw [Traced.step, Ring.step, if_pos reset, if_pos reset]
  refine ⟨List.Sublist.refl _, ?_⟩
  exact ⟨fun raised => Bool.noConfusion raised, fun short => absurd short (Nat.lt_irrefl _)⟩

theorem Counted.all (counted : Counted t) : t.ring.overflow = false ↔ t.log.taken = t.log.offered := by
  rw [← Bool.not_eq_true, counted.flag, Nat.not_lt]
  constructor
  · exact fun long => counted.order.eq_of_length_le long
  · exact fun same => by rw [same]

end BenchPod.LaPipe
