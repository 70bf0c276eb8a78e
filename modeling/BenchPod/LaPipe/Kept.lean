import BenchPod.LaPipe.Ring

/-!
# What the ring holds

The pointers count the words that went into the memory and those that left it; the words on their way to the output are
the last ones read.
-/

namespace BenchPod.LaPipe

/-- The words read from the memory, in order. -/
def Log.reads (log : Log) : List Word := (log.left.filter Prod.snd).map Prod.fst

/-- The word that waits for the port. -/
def Ring.waiting (r : Ring) : List Word := if r.inPV then [r.inP] else []

/-- The words that were read and are not in the output register. -/
def Ring.fetched (r : Ring) : List Word := if r.nxtV then [r.nxt] else if r.rd1 then [r.sramDout] else []

/-- The bytes of the output register that are not sent. -/
def Ring.rest (r : Ring) : List Byte := if r.outV then r.outW.take (6 - r.outI) else []

/-- The memory holds the words `resident`. -/
structure Stored (w : Widths) (t : Traced) (resident : List Word) : Prop where
  memory : RingMemory.Keeps (2 ^ w.aw) t.ring.sram (t.log.left.map Prod.fst ++ resident) t.log.left.length
  wrPtr : t.ring.wrPtr = (t.log.left.length + resident.length) % 2 ^ (w.aw + 1)
  rdPtr : t.ring.rdPtr = t.log.left.length % 2 ^ (w.aw + 1)
  taken : t.log.taken = t.log.left.map Prod.fst ++ resident ++ t.ring.waiting
  whole : ∀ word ∈ t.log.taken, word.length = 6

section Pointers

variable {w : Widths} {t : Traced} {i : Offer} {resident : List Word}

theorem Stored.room (stored : Stored w t resident) : resident.length ≤ 2 ^ w.aw := by
  have room := stored.memory.room
  rw [List.length_append, List.length_map] at room
  omega

theorem Stored.inside (stored : Stored w t resident) : resident.length < 2 ^ (w.aw + 1) ∧ 2 ^ w.aw < 2 ^ (w.aw + 1) := by
  have room := stored.room
  have some : 0 < 2 ^ w.aw := Nat.two_pow_pos _
  rw [Nat.pow_succ']
  omega

theorem Stored.sEmpty (stored : Stored w t resident) : t.ring.sEmpty = decide (resident = []) := by
  have same := @RingMemory.count_same _ t.log.left.length _ 0 stored.inside.1 (Nat.two_pow_pos _)
  rw [Ring.sEmpty, stored.wrPtr, stored.rdPtr, Bool.eq_iff_iff, beq_iff_eq, decide_eq_true_iff, ← List.length_eq_zero_iff]
  exact same

theorem Stored.fill (stored : Stored w t resident) : t.ring.fill w = resident.length := by
  rw [Ring.fill, stored.wrPtr, stored.rdPtr, RingMemory.count_distance stored.inside.1]

theorem Stored.sFull (stored : Stored w t resident) : t.ring.sFull w = decide (resident.length = 2 ^ w.aw) := by
  rw [Ring.sFull, stored.wrPtr, stored.rdPtr, Bool.eq_iff_iff, beq_iff_eq, decide_eq_true_iff, Nat.mod_add_mod]
  exact RingMemory.count_same stored.inside.1 stored.inside.2

theorem Stored.preDrop (stored : Stored w t resident) :
    t.ring.preDrop w i = (i.holdOut && decide (2 ^ w.preAw ≤ resident.length)) := by
  have positive : 0 < 2 ^ w.preAw := Nat.two_pow_pos _
  rw [Ring.preDrop, stored.fill]
  congr 1
  rw [Bool.eq_iff_iff, bne_iff_ne, decide_eq_true_iff, Nat.div_ne_zero_iff]
  exact and_iff_right positive.ne'

/-- A word leaves the memory in this clock. -/
def Ring.leaves (w : Widths) (r : Ring) (i : Offer) : Bool := r.doRead w i || (r.doWrite w && r.preDrop w i)

/-- The words in the memory after a clock. -/
def Ring.after (w : Widths) (r : Ring) (i : Offer) (resident : List Word) : List Word :=
  (if r.leaves w i then resident.drop 1 else resident) ++ if r.doWrite w then [r.inP] else []

theorem Stored.oldest (stored : Stored w t resident) (leaves : t.ring.leaves w i = true) :
    ∃ rest, resident = t.ring.sram (t.ring.rdPtr % 2 ^ w.aw) :: rest := by
  have some : resident ≠ [] := by
    rintro rfl
    rw [Ring.leaves, Bool.or_eq_true, Bool.and_eq_true, stored.preDrop] at leaves
    obtain reads | ⟨-, drops⟩ := leaves
    · rw [Ring.doRead, stored.sEmpty] at reads
      simp at reads
    · simp at drops
  obtain ⟨word, rest, rfl⟩ := List.exists_cons_of_ne_nil some
  have head := stored.memory.head (by rw [List.length_append, List.length_map, List.length_cons]; omega)
  rw [List.getElem?_append_right (by rw [List.length_map]), List.length_map, Nat.sub_self, List.getElem?_cons_zero,
    Option.some.injEq] at head
  refine ⟨rest, ?_⟩
  rw [head, stored.rdPtr, Nat.mod_mod_of_dvd _ (Nat.pow_dvd_pow 2 (Nat.le_succ w.aw))]

theorem Ring.step_run (run : i.rst = false) (r : Ring) :
    (r.step w i).wrPtr = (if r.doWrite w then (r.wrPtr + 1) % 2 ^ (w.aw + 1) else r.wrPtr) ∧
      (r.step w i).rdPtr = (if r.leaves w i then (r.rdPtr + 1) % 2 ^ (w.aw + 1) else r.rdPtr) ∧
      (r.step w i).sram = (if r.doWrite w then Function.update r.sram (r.wrPtr % 2 ^ w.aw) r.inP else r.sram) ∧
      (r.step w i).waiting = (if i.inStb && r.inRdy w then [i.inWord]
        else if r.inPV && !r.doWrite w then [r.inP] else []) := by
  rw [waiting, step, if_neg (by simp [run])]
  refine ⟨rfl, rfl, rfl, ?_⟩
  cases i.inStb && r.inRdy w with
  | true => rfl
  | false => rfl

theorem Traced.step_run (run : i.rst = false) (t : Traced) :
    (t.step w i).log.left = (t.log.left ++ if t.ring.leaves w i then
        [(t.ring.sram (t.ring.rdPtr % 2 ^ w.aw), t.ring.doRead w i)] else []) ∧
      (t.step w i).log.taken = (t.log.taken ++ if i.inStb && t.ring.inRdy w then [i.inWord] else []) ∧
      (t.step w i).log.sent = t.log.sent ++ (t.ring.sent i).toList := by
  rw [step, run]
  exact ⟨rfl, rfl, rfl⟩

theorem Stored.fed_step (stored : Stored w t resident) (run : i.rst = false) :
    (t.step w i).log.left.map Prod.fst ++ t.ring.after w i resident =
      t.log.left.map Prod.fst ++ resident ++ if t.ring.doWrite w then [t.ring.inP] else [] := by
  rw [(Traced.step_run run t).1, Ring.after, List.map_append, ← List.append_assoc]
  congr 1
  cases leaves : t.ring.leaves w i with
  | false => simp
  | true =>
    obtain ⟨rest, cons⟩ := stored.oldest leaves
    generalize t.ring.sram (t.ring.rdPtr % 2 ^ w.aw) = head at cons ⊢
    subst cons
    simp

theorem Stored.step (stored : Stored w t resident) (offers : Offers t i) (run : i.rst = false) :
    Stored w (t.step w i) (t.ring.after w i resident) := by
  obtain ⟨wrPtr, rdPtr, sram, waiting⟩ := @Ring.step_run w i run t.ring
  obtain ⟨left, taken, -⟩ := @Traced.step_run w i run t
  have fed := stored.fed_step run
  have ring : (t.step w i).ring = t.ring.step w i := rfl
  have free : t.ring.doWrite w = true → t.ring.inPV = true ∧ resident.length < 2 ^ w.aw := by
    intro writes
    rw [Ring.doWrite, stored.sFull, Bool.and_eq_true, Bool.not_eq_true', decide_eq_false_iff_not] at writes
    exact ⟨writes.1, Nat.lt_of_le_of_ne stored.room writes.2⟩
  have counted : (t.log.left.map Prod.fst ++ resident).length = t.log.left.length + resident.length := by
    rw [List.length_append, List.length_map]
  -- first the word goes in, then the oldest leaves
  have written : RingMemory.Keeps (2 ^ w.aw) (t.step w i).ring.sram
      (t.log.left.map Prod.fst ++ resident ++ if t.ring.doWrite w then [t.ring.inP] else []) t.log.left.length := by
    rw [ring, sram]
    cases writes : t.ring.doWrite w with
    | false =>
      rw [if_neg Bool.false_ne_true, if_neg Bool.false_ne_true, List.append_nil]
      exact stored.memory
    | true =>
      have push := @RingMemory.Keeps.push _ _ _ _ _ t.ring.inP stored.memory
        (by rw [counted]; exact Nat.add_lt_add_left (free writes).2 _)
      rw [if_pos rfl, if_pos rfl, stored.wrPtr, Nat.mod_mod_of_dvd _ (Nat.pow_dvd_pow 2 (Nat.le_succ w.aw)), ← counted]
      exact push
  rw [← fed] at written
  have gone : (t.step w i).log.left.length = t.log.left.length + (t.ring.leaves w i).toNat := by
    rw [left, List.length_append]
    cases t.ring.leaves w i <;> rfl
  have length : (t.ring.after w i resident).length + (t.ring.leaves w i).toNat =
      resident.length + (t.ring.doWrite w).toNat := by
    have same := congrArg List.length fed
    rw [List.length_append, List.length_map, gone, List.length_append, counted] at same
    have one : (if t.ring.doWrite w then [t.ring.inP] else []).length = (t.ring.doWrite w).toNat := by
      cases t.ring.doWrite w <;> rfl
    omega
  refine ⟨?_, ?_, ?_, ?_, ?_⟩
  · rw [gone]
    cases leaves : t.ring.leaves w i with
    | false => exact written
    | true =>
      refine written.pop ?_
      rw [List.length_append, List.length_map, gone, leaves, Bool.toNat_true]
      omega
  · rw [ring, wrPtr, gone, Nat.add_assoc, Nat.add_comm (t.ring.leaves w i).toNat, length, stored.wrPtr]
    cases t.ring.doWrite w with
    | false => rfl
    | true =>
      rw [if_pos rfl, Nat.mod_add_mod]
      rfl
  · rw [ring, rdPtr, gone, stored.rdPtr]
    cases t.ring.leaves w i with
    | false => rfl
    | true =>
      rw [if_pos rfl, Nat.mod_add_mod]
      rfl
  · rw [taken, ring, waiting, fed, stored.taken, Ring.waiting, Ring.inRdy]
    cases writes : t.ring.doWrite w with
    | false =>
      cases t.ring.inPV with
      | true => simp
      | false => cases i.inStb <;> simp
    | true =>
      rw [(free writes).1]
      cases i.inStb <;> simp
  · rw [taken]
    intro word member
    obtain before | now := List.mem_append.mp member
    · exact stored.whole word before
    · split at now
      · next takes =>
          rw [List.mem_singleton.mp now]
          exact (offers run (Bool.and_eq_true_iff.mp takes).1).1
      · exact absurd now List.not_mem_nil

end Pointers

section Output

variable {w : Widths} {r : Ring} {i : Offer}

/-- The next word goes to the output register. -/
def Ring.loads (r : Ring) (i : Offer) : Bool := (!r.outV || r.outLast i) && r.nxtV

/-- The output register is at a byte of its word. -/
structure Ring.Served (r : Ring) : Prop where
  apart : r.rd1 = true → r.nxtV = false
  byte : r.outV = true → r.outI < 6 ∧ r.outW.length = 6
  start : r.outV = false → r.outI = 0
  short : r.tailLen ≤ 5
  whole : ∀ word ∈ r.fetched, word.length = 6

theorem Ring.step_out (run : i.rst = false) :
    (r.step w i).outI = (if r.outStb i then (if r.outLast i then 0 else (r.outI + 1) % 8) else r.outI) ∧
      (r.step w i).outW = (if r.loads i then r.nxt else if r.outStb i then r.outW.drop 1 ++ [0] else r.outW) ∧
      (r.step w i).outV = (r.loads i || (r.outV && !r.outLast i)) := by
  rw [step, if_neg (by simp [run])]
  exact ⟨rfl, rfl, rfl⟩

theorem Ring.Served.rest_cons (served : r.Served) (sends : r.outStb i = true) :
    ∃ byte, r.sent i = some byte ∧ r.rest = byte :: (r.outW.drop 1).take (5 - r.outI) := by
  have valid : r.outV = true := (Bool.and_eq_true_iff.mp sends).1
  obtain ⟨inside, length⟩ := served.byte valid
  obtain ⟨byte, bytes, word⟩ := List.exists_cons_of_length_eq_add_one length
  refine ⟨byte, ?_, ?_⟩
  · rw [Ring.sent, if_pos sends, word]
    rfl
  · rw [Ring.rest, if_pos valid, word, show 6 - r.outI = 5 - r.outI + 1 by omega]
    rfl

theorem Ring.Served.more (served : r.Served) (sends : r.outStb i = true)
    (inTail : r.isTail = true → r.outI < r.tailLen) (last : r.outLast i = false) : r.outI < 5 := by
  have valid : r.outV = true := (Bool.and_eq_true_iff.mp sends).1
  rw [Ring.outLast, sends, Bool.true_and] at last
  cases tail : r.isTail with
  | true => exact Nat.lt_of_lt_of_le (inTail tail) served.short
  | false =>
    rw [tail] at last
    exact Nat.lt_of_le_of_ne (Nat.le_of_lt_succ (served.byte valid).1) (by simpa using last)

theorem Ring.Served.rest_step (served : r.Served) (run : i.rst = false) (stays : r.loads i = false)
    (inTail : r.isTail = true → r.outI < r.tailLen) (ordinary : r.outLast i = true → r.isTail = false) : (r.sent i).toList ++ (r.step w i).rest = r.rest := by
  obtain ⟨outI, outW, outV⟩ := @Ring.step_out w r i run
  rw [stays, Bool.false_or] at outV
  rw [stays, if_neg Bool.false_ne_true] at outW
  cases sends : r.outStb i with
  | false =>
    have last : r.outLast i = false := by rw [Ring.outLast, sends, Bool.false_and]
    rw [sends, if_neg Bool.false_ne_true] at outI outW
    rw [last, Bool.not_false, Bool.and_true] at outV
    rw [Ring.sent, if_neg (by simp [sends]), Ring.rest, Ring.rest, outI, outW, outV]
    rfl
  | true =>
    obtain ⟨byte, sent, rest⟩ := served.rest_cons sends
    have valid : r.outV = true := (Bool.and_eq_true_iff.mp sends).1
    obtain ⟨inside, length⟩ := served.byte valid
    rw [sends, if_pos rfl] at outI outW
    rw [sent, rest, Option.toList_some, List.singleton_append, List.cons_inj_right, Ring.rest, outV, valid, Bool.true_and]
    cases last : r.outLast i with
    | true =>
      have final : r.outI = 5 := by
        have reached := last
        rw [Ring.outLast, sends, ordinary last] at reached
        simpa using reached
      rw [final]
      simp
    | false =>
      have more := served.more sends inTail last
      rw [last, if_neg Bool.false_ne_true] at outI
      rw [outI, outW, Bool.not_false, if_pos rfl, Nat.mod_eq_of_lt (by omega), Nat.sub_add_eq, Nat.sub_right_comm,
        List.take_append_of_le_length (by rw [List.length_drop, length]; omega)]

end Output

end BenchPod.LaPipe
