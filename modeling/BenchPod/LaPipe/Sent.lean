import BenchPod.LaPipe.Kept

/-!
# What the ring has sent

Between the memory and the output the words move one place at a time, so that what was sent, what is left of the word in
the output register and the words behind it are the words read.  The tail ends early, and nothing comes after it.
-/

namespace BenchPod.LaPipe

variable {w : Widths} {t : Traced} {i : Offer} {resident : List Word}

theorem Ring.step_fetched (run : i.rst = false) (r : Ring) :
    (r.step w i).rd1 = r.doRead w i ∧ (r.step w i).nxtV = (r.rd1 || (r.nxtV && !r.loads i)) ∧
      (r.step w i).nxt = (if r.rd1 then r.sramDout else r.nxt) ∧
      (r.step w i).sramDout = (if r.doWrite w then r.sramDout else r.sram (r.rdPtr % 2 ^ w.aw)) ∧
      (r.step w i).tailLen = (if i.inStb && r.inRdy w then i.inLen else r.tailLen) := by
  rw [step, if_neg (by simp [run])]
  exact ⟨rfl, rfl, rfl, rfl, rfl⟩

theorem Ring.doRead_alone {r : Ring} (reads : r.doRead w i = true) :
    r.doWrite w = false ∧ r.sEmpty = false ∧ r.nxtV = false ∧ r.rd1 = false ∧ r.fetched = [] := by
  simp only [doRead, Bool.and_eq_true, Bool.not_eq_true'] at reads
  obtain ⟨⟨⟨⟨-, writes⟩, some⟩, next⟩, read⟩ := reads
  refine ⟨writes, some, next, read, ?_⟩
  rw [fetched, next, read]
  rfl

theorem Traced.reads_step (run : i.rst = false) (t : Traced) :
    (t.step w i).log.reads = t.log.reads ++
      if t.ring.doRead w i then [t.ring.sram (t.ring.rdPtr % 2 ^ w.aw)] else [] := by
  rw [Log.reads, (Traced.step_run run t).1, List.filter_append, List.map_append, Ring.leaves]
  congr 1
  cases t.ring.doRead w i with
  | true => rfl
  | false =>
    cases t.ring.doWrite w && t.ring.preDrop w i with
    | true => rfl
    | false => rfl

theorem Stored.read_whole (stored : Stored w t resident) (reads : t.ring.doRead w i = true) :
    (t.ring.sram (t.ring.rdPtr % 2 ^ w.aw)).length = 6 := by
  obtain ⟨rest, cons⟩ := @Stored.oldest w t i resident stored (by rw [Ring.leaves, reads, Bool.true_or])
  refine stored.whole _ ?_
  rw [stored.taken, cons]
  exact List.mem_append_left _ (List.mem_append_right _ List.mem_cons_self)

theorem Ring.fetched_step (run : i.rst = false) {r : Ring} (apart : r.rd1 = true → r.nxtV = false) :
    (r.step w i).fetched =
      if r.doRead w i then [r.sram (r.rdPtr % 2 ^ w.aw)] else if r.loads i then [] else r.fetched := by
  obtain ⟨rd1, nxtV, nxt, dout, -⟩ := @Ring.step_fetched w i run r
  rw [fetched, rd1, nxtV, nxt, dout]
  cases reads : r.doRead w i with
  | true =>
    obtain ⟨writes, -, next, read, -⟩ := doRead_alone reads
    rw [writes, next, read]
    rfl
  | false =>
    cases read : r.rd1 with
    | true =>
      have loads : r.loads i = false := by rw [Ring.loads, apart read, Bool.and_false]
      rw [loads, fetched, apart read, read]
      rfl
    | false =>
      cases next : r.nxtV with
      | false =>
        rw [fetched, next, read]
        cases r.loads i <;> rfl
      | true =>
        rw [fetched, next, read]
        cases r.loads i <;> rfl

theorem Ring.Served.step (served : t.ring.Served) (stored : Stored w t resident) (offers : Offers t i)
    (run : i.rst = false) (inTail : t.ring.isTail = true → t.ring.outI < t.ring.tailLen) :
    (t.step w i).ring.Served := by
  have ring : (t.step w i).ring = t.ring.step w i := rfl
  obtain ⟨rd1, nxtV, nxt, dout, tailLen⟩ := @Ring.step_fetched w i run t.ring
  obtain ⟨outI, outW, outV⟩ := @Ring.step_out w t.ring i run
  have fetched := @Ring.fetched_step w i run t.ring served.apart
  rw [ring]
  refine ⟨?_, ?_, ?_, ?_, ?_⟩
  · rw [rd1, nxtV]
    intro reads
    obtain ⟨-, -, next, read, -⟩ := Ring.doRead_alone reads
    rw [next, read]
    rfl
  · rw [outV, outI, outW]
    intro valid
    cases loads : t.ring.loads i with
    | true =>
      have next : t.ring.nxtV = true := (Bool.and_eq_true_iff.mp loads).2
      have start : (if t.ring.outStb i then (if t.ring.outLast i then 0 else (t.ring.outI + 1) % 8)
          else t.ring.outI) = 0 := by
        rw [Ring.loads, next, Bool.and_true, Bool.or_eq_true, Bool.not_eq_true'] at loads
        obtain idle | last := loads
        · rw [Ring.outStb, idle, Bool.false_and, if_neg Bool.false_ne_true, served.start idle]
        · rw [last, if_pos rfl, if_pos (Bool.and_eq_true_iff.mp last).1]
      rw [start, if_pos rfl]
      exact ⟨by omega, served.whole _ (by rw [Ring.fetched, if_pos next]; exact List.mem_singleton_self _)⟩
    | false =>
      rw [loads, Bool.false_or, Bool.and_eq_true, Bool.not_eq_true'] at valid
      obtain ⟨inside, length⟩ := served.byte valid.1
      rw [valid.2, if_neg Bool.false_ne_true, if_neg Bool.false_ne_true]
      cases sends : t.ring.outStb i with
      | false => exact ⟨inside, length⟩
      | true =>
        have more := served.more sends inTail valid.2
        refine ⟨?_, ?_⟩
        · rw [if_pos rfl, Nat.mod_eq_of_lt (by omega)]
          omega
        · rw [if_pos rfl, List.length_append, List.length_drop, length]
          rfl
  · rw [outV, outI]
    intro idle
    rw [Bool.or_eq_false_iff] at idle
    obtain ⟨-, idle⟩ := idle
    cases valid : t.ring.outV with
    | false => rw [Ring.outStb, valid, Bool.false_and, if_neg Bool.false_ne_true, served.start valid]
    | true =>
      have last : t.ring.outLast i = true := by simpa [valid] using idle
      rw [last, if_pos rfl, if_pos (Bool.and_eq_true_iff.mp last).1]
  · rw [tailLen]
    split
    · next takes => exact (offers run (Bool.and_eq_true_iff.mp takes).1).2.1
    · exact served.short
  · rw [fetched]
    intro word member
    split at member
    · next reads =>
        rw [List.mem_singleton.mp member]
        exact stored.read_whole reads
    · split at member
      · exact absurd member List.not_mem_nil
      · exact served.whole word member

/-- What was sent and what is on its way are the words read; of the tail something is left to send. -/
structure Live (t : Traced) : Prop where
  flow : t.log.sent ++ t.ring.rest ++ t.ring.fetched.flatten = t.log.reads.flatten
  tail : t.ring.isTail = true → t.ring.outV = true ∧ t.ring.outI < t.ring.tailLen

/-- The tail was sent, and what is behind it in its word was not. -/
structure Over (t : Traced) : Prop where
  tail : t.ring.tailLen ≠ 0
  empty : t.ring.empty = true
  flow : ∃ cut, cut.length = 6 - t.ring.tailLen ∧ t.log.sent ++ cut = t.log.reads.flatten

theorem Ring.isTail_iff (r : Ring) :
    r.isTail = true ↔ r.tailLen ≠ 0 ∧ r.sEmpty = true ∧ r.inPV = false ∧ r.rd1 = false ∧ r.nxtV = false := by
  simp only [isTail, Bool.and_eq_true, bne_iff_ne, Bool.not_eq_true', ne_eq, and_assoc]

theorem Ring.empty_iff (r : Ring) : r.empty = true ↔
    r.sEmpty = true ∧ r.inPV = false ∧ r.rd1 = false ∧ r.nxtV = false ∧ r.outV = false := by
  simp only [empty, Bool.and_eq_true, Bool.not_eq_true', and_assoc]

theorem Stored.tail_step (stored : Stored w t resident) (offers : Offers t i) (run : i.rst = false)
    (tail : (t.step w i).ring.isTail = true) :
    t.ring.tailLen = (t.step w i).ring.tailLen ∧ t.ring.doRead w i = false ∧
      (t.ring.loads i = true ∨ t.ring.isTail = true) := by
  obtain ⟨rd1, nxtV, -, -, tailLen⟩ := @Ring.step_fetched w i run t.ring
  have ring : (t.step w i).ring = t.ring.step w i := rfl
  have input : (t.ring.step w i).inPV = ((i.inStb && t.ring.inRdy w) || (t.ring.inPV && !t.ring.doWrite w)) := by
    rw [Ring.step, if_neg (by simp [run])]
  obtain ⟨some, drained, free, read, next⟩ := (Ring.isTail_iff _).mp tail
  rw [(stored.step offers run).sEmpty, decide_eq_true_iff, Ring.after, List.append_eq_nil_iff] at drained
  obtain ⟨before, written⟩ := drained
  rw [ring, input, Bool.or_eq_false_iff] at free
  obtain ⟨refuses, free⟩ := free
  rw [ring, rd1] at read
  rw [ring, nxtV, Bool.or_eq_false_iff] at next
  rw [ring, tailLen, refuses, if_neg Bool.false_ne_true] at some
  have writes : t.ring.doWrite w = false := by
    cases writes : t.ring.doWrite w with
    | false => rfl
    | true =>
      rw [writes, if_pos rfl] at written
      exact absurd written (List.cons_ne_nil _ _)
  refine ⟨by rw [ring, tailLen, refuses, if_neg Bool.false_ne_true], read, ?_⟩
  cases loads : t.ring.loads i with
  | true => exact .inl rfl
  | false =>
    rw [writes, Bool.not_false, Bool.and_true] at free
    rw [loads, Bool.not_false, Bool.and_true] at next
    have kept : resident = [] := by
      rw [Ring.leaves, read, writes, Bool.false_and, Bool.or_false, if_neg Bool.false_ne_true] at before
      exact before
    refine .inr ((Ring.isTail_iff _).mpr ⟨some, ?_, free, next.1, next.2⟩)
    rw [stored.sEmpty, decide_eq_true_iff]
    exact kept

theorem Ring.Served.rest_load {r : Ring} (served : r.Served) (run : i.rst = false) (loads : r.loads i = true) :
    (r.sent i).toList = r.rest ∧ (r.step w i).rest = r.fetched.flatten ∧ (r.step w i).outI = 0 ∧
      (r.step w i).outV = true := by
  obtain ⟨outI, outW, outV⟩ := @Ring.step_out w r i run
  have next : r.nxtV = true := (Bool.and_eq_true_iff.mp loads).2
  have ordinary : r.isTail = false := by
    cases tail : r.isTail with
    | false => rfl
    | true => exact Bool.noConfusion (next.symm.trans ((isTail_iff r).mp tail).2.2.2.2)
  have whole : r.nxt.length = 6 := served.whole _ (by rw [fetched, if_pos next]; exact List.mem_singleton_self _)
  have valid : (r.step w i).outV = true := by rw [outV, loads, Bool.true_or]
  have start : (r.step w i).outI = 0 ∧ (r.sent i).toList = r.rest := by
    rw [Ring.loads, next, Bool.and_true, Bool.or_eq_true, Bool.not_eq_true'] at loads
    obtain idle | last := loads
    · have silent : r.outStb i = false := by rw [outStb, idle, Bool.false_and]
      rw [outI, silent, if_neg Bool.false_ne_true, served.start idle, sent, if_neg (by simp [silent]), rest, idle]
      exact ⟨rfl, rfl⟩
    · have sends : r.outStb i = true := (Bool.and_eq_true_iff.mp last).1
      have final : r.outI = 5 := by
        rw [outLast, sends, ordinary] at last
        simpa using last
      obtain ⟨byte, emits, cons⟩ := served.rest_cons sends
      rw [outI, sends, last, emits, cons, final]
      exact ⟨rfl, rfl⟩
  refine ⟨start.2, ?_, start.1, valid⟩
  rw [rest, valid, start.1, outW, loads, if_pos rfl, if_pos rfl, List.take_of_length_le (Nat.le_of_eq whole), fetched,
    if_pos next, List.flatten_singleton]

theorem Live.flow_step (live : Live t) (served : t.ring.Served) (run : i.rst = false)
    (ordinary : t.ring.outLast i = true → t.ring.isTail = false) :
    (t.step w i).log.sent ++ (t.step w i).ring.rest ++ (t.step w i).ring.fetched.flatten =
      (t.step w i).log.reads.flatten := by
  have ring : (t.step w i).ring = t.ring.step w i := rfl
  rw [(Traced.step_run run t).2.2, Traced.reads_step run, List.flatten_append, ← live.flow, ring,
    Ring.fetched_step run served.apart]
  cases loads : t.ring.loads i with
  | true =>
    obtain ⟨sent, rest, -, -⟩ := @Ring.Served.rest_load w i _ served run loads
    have quiet : t.ring.doRead w i = false := by
      cases reads : t.ring.doRead w i with
      | false => rfl
      | true => exact Bool.noConfusion ((Bool.and_eq_true_iff.mp loads).2.symm.trans (Ring.doRead_alone reads).2.2.1)
    rw [sent, rest, quiet]
    simp
  | false =>
    have moved := @Ring.Served.rest_step w _ i served run loads (fun tail => (live.tail tail).2) ordinary
    rw [List.append_assoc t.log.sent, moved]
    cases reads : t.ring.doRead w i with
    | true =>
      rw [(Ring.doRead_alone reads).2.2.2.2]
      simp
    | false => simp

theorem Live.step (live : Live t) (served : t.ring.Served) (stored : Stored w t resident) (offers : Offers t i)
    (run : i.rst = false) : Live (t.step w i) ∨ Over (t.step w i) := by
  have ring : (t.step w i).ring = t.ring.step w i := rfl
  obtain ⟨outI, outW, outV⟩ := @Ring.step_out w t.ring i run
  obtain ⟨rd1, nxtV, -, -, tailLen⟩ := @Ring.step_fetched w i run t.ring
  by_cases ends : t.ring.outLast i = true ∧ t.ring.isTail = true
  · refine .inr ?_
    obtain ⟨last, tail⟩ := ends
    obtain ⟨some, drained, free, read, next⟩ := (Ring.isTail_iff _).mp tail
    have sends : t.ring.outStb i = true := (Bool.and_eq_true_iff.mp last).1
    have refuses : i.inStb = false := by
      cases offered : i.inStb with
      | false => rfl
      | true => exact absurd (offers run offered).2.2 some
    have alone : t.ring.fetched = [] := by rw [Ring.fetched, next, read]; rfl
    have quiet : t.ring.doRead w i = false := by rw [Ring.doRead, drained]; simp
    have writes : t.ring.doWrite w = false := by rw [Ring.doWrite, free, Bool.false_and]
    have final : t.ring.outI = t.ring.tailLen - 1 := by
      rw [Ring.outLast, sends, tail] at last
      simpa using last
    obtain ⟨byte, emits, cons⟩ := served.rest_cons sends
    obtain ⟨inside, length⟩ := served.byte (live.tail tail).1
    obtain ⟨wrPtr, rdPtr, -, -⟩ := @Ring.step_run w i run t.ring
    refine ⟨by rwa [ring, tailLen, refuses], ?_, (t.ring.outW.drop 1).take (5 - t.ring.outI), ?_, ?_⟩
    · rw [ring, Ring.empty_iff, rd1, nxtV, outV, quiet, read, next, Ring.loads, next, last, Ring.sEmpty, wrPtr, rdPtr,
        Ring.leaves, quiet, writes]
      refine ⟨drained, ?_, rfl, rfl, by simp⟩
      rw [Ring.step, if_neg (by simp [run])]
      simp [refuses, free]
    · rw [ring, tailLen, refuses, List.length_take, List.length_drop, length, final]
      simp only [Bool.false_and, Bool.false_eq_true, if_false]
      omega
    · rw [(Traced.step_run run t).2.2, Traced.reads_step run, quiet, emits, if_neg Bool.false_ne_true, List.append_nil,
        ← live.flow, alone, cons]
      simp
  · refine .inl ⟨live.flow_step served run ?_, ?_⟩
    · intro last
      cases tail : t.ring.isTail with
      | false => rfl
      | true => exact absurd ⟨last, tail⟩ ends
    · intro tail
      obtain ⟨same, -, loads | before⟩ := stored.tail_step offers run tail
      · obtain ⟨-, -, start, valid⟩ := @Ring.Served.rest_load w i _ served run loads
        rw [ring, start]
        exact ⟨valid, Nat.pos_of_ne_zero ((Ring.isTail_iff _).mp tail).1⟩
      · obtain ⟨valid, inside⟩ := live.tail before
        have last : t.ring.outLast i = false := by
          cases last : t.ring.outLast i with
          | false => rfl
          | true => exact absurd ⟨last, before⟩ ends
        have quiet : t.ring.loads i = false := by rw [Ring.loads, valid, last]; rfl
        rw [← same, ring, outV, outI, quiet, valid, last]
        refine ⟨rfl, ?_⟩
        cases sends : t.ring.outStb i with
        | false => exact inside
        | true =>
          rw [Ring.outLast, sends, before] at last
          have other : t.ring.outI ≠ t.ring.tailLen - 1 := by simpa using last
          have short := served.short
          simp only [if_true, Bool.false_eq_true, if_false]
          omega

theorem Over.step (past : Over t) (offers : Offers t i) (run : i.rst = false) : Over (t.step w i) := by
  have ring : (t.step w i).ring = t.ring.step w i := rfl
  obtain ⟨outI, outW, outV⟩ := @Ring.step_out w t.ring i run
  obtain ⟨rd1, nxtV, -, -, tailLen⟩ := @Ring.step_fetched w i run t.ring
  obtain ⟨wrPtr, rdPtr, -, -⟩ := @Ring.step_run w i run t.ring
  obtain ⟨drained, free, read, next, idle⟩ := (Ring.empty_iff _).mp past.empty
  obtain ⟨cut, short, flow⟩ := past.flow
  have refuses : i.inStb = false := by
    cases offered : i.inStb with
    | false => rfl
    | true => exact absurd (offers run offered).2.2 past.tail
  have quiet : t.ring.doRead w i = false := by rw [Ring.doRead, drained]; simp
  have writes : t.ring.doWrite w = false := by rw [Ring.doWrite, free, Bool.false_and]
  have same : (t.ring.step w i).tailLen = t.ring.tailLen := by rw [tailLen, refuses]; rfl
  have silent : t.ring.sent i = none := by rw [Ring.sent, Ring.outStb, idle]; rfl
  refine ⟨by rw [ring, same]; exact past.tail, ?_, cut, by rw [ring, same]; exact short, ?_⟩
  · rw [ring, Ring.empty_iff, rd1, nxtV, outV, quiet, read, next, Ring.loads, next, idle, Ring.sEmpty, wrPtr, rdPtr,
      Ring.leaves, quiet, writes]
    refine ⟨drained, ?_, rfl, rfl, by simp⟩
    rw [Ring.step, if_neg (by simp [run])]
    simp [refuses, free]
  · rw [(Traced.step_run run t).2.2, Traced.reads_step run, quiet, silent, Option.toList_none, List.append_nil,
      if_neg Bool.false_ne_true, List.append_nil]
    exact flow

/-- What holds of the ring in every clock. -/
structure Sound (w : Widths) (t : Traced) (resident : List Word) : Prop where
  stored : Stored w t resident
  served : t.ring.Served
  flow : Live t ∨ Over t

theorem Sound.inTail (sound : Sound w t resident) : t.ring.isTail = true → t.ring.outI < t.ring.tailLen := by
  intro tail
  obtain live | past := sound.flow
  · exact (live.tail tail).2
  · rw [sound.served.start ((Ring.empty_iff _).mp past.empty).2.2.2.2]
    exact Nat.pos_of_ne_zero past.tail

theorem Sound.step (sound : Sound w t resident) (offers : Offers t i) (run : i.rst = false) :
    Sound w (t.step w i) (t.ring.after w i resident) := by
  have inTail := sound.inTail
  obtain ⟨stored, served, flow⟩ := sound
  refine ⟨stored.step offers run, served.step stored offers run inTail, ?_⟩
  obtain live | past := flow
  · exact live.step served stored offers run
  · exact .inr (past.step offers run)

theorem Sound.reset (t : Traced) (reset : i.rst = true) : Sound w (t.step w i) [] := by
  rw [Traced.step, Ring.step, if_pos reset, if_pos reset]
  refine ⟨⟨RingMemory.Keeps.empty _ _, rfl, rfl, rfl, ?_⟩, ⟨?_, ?_, ?_, Nat.zero_le 5, ?_⟩, .inl ⟨rfl, ?_⟩⟩
  · exact fun word member => absurd member List.not_mem_nil
  · exact fun _ => rfl
  · exact fun valid => Bool.noConfusion valid
  · exact fun _ => rfl
  · exact fun word member => absurd member List.not_mem_nil
  · exact fun tail => Bool.noConfusion tail

/-- The bytes of words, the last of which is cut to the length of the tail. -/
def due (tailLen : Nat) (words : List Word) : List Byte :=
  words.flatten.take (words.flatten.length - if tailLen = 0 then 0 else 6 - tailLen)

theorem due_of_append {tailLen : Nat} {words : List Word} {sent more : List Byte} (flow : sent ++ more = words.flatten)
    (enough : tailLen ≠ 0 → 6 - tailLen ≤ more.length) : sent <+: due tailLen words := by
  rw [due, ← flow, List.length_append]
  refine List.prefix_take_iff.mpr ⟨List.prefix_append _ _, ?_⟩
  split
  · omega
  · next some =>
      have enough := enough some
      omega

/-- The words that the ring will have sent: those read, those in the memory and the one that waits. -/
def Traced.kept (t : Traced) (resident : List Word) : List Word := t.log.reads ++ resident ++ t.ring.waiting

theorem Stored.behind (stored : Stored w t resident) (served : t.ring.Served) (some : t.ring.tailLen ≠ 0)
    (tail : t.ring.isTail = false) : 6 ≤ (t.ring.fetched ++ resident ++ t.ring.waiting).flatten.length := by
  have whole : ∀ word ∈ t.ring.fetched ++ resident ++ t.ring.waiting, word.length = 6 := by
    intro word member
    rw [List.append_assoc] at member
    obtain fetched | member := List.mem_append.mp member
    · exact served.whole word fetched
    · refine stored.whole word ?_
      rw [stored.taken, List.append_assoc]
      exact List.mem_append_right _ member
  cases behind : t.ring.fetched ++ resident ++ t.ring.waiting with
  | cons word words =>
    rw [List.flatten_cons, List.length_append, whole word (by rw [behind]; exact List.mem_cons_self)]
    omega
  | nil =>
    obtain ⟨⟨fetched, none⟩, waiting⟩ := (List.append_eq_nil_iff.mp behind).imp_left List.append_eq_nil_iff.mp
    refine absurd ((Ring.isTail_iff _).mpr ⟨some, ?_, ?_, ?_, ?_⟩) (by simp [tail])
    · rw [stored.sEmpty, decide_eq_true_iff]
      exact none
    · cases free : t.ring.inPV with
      | false => rfl
      | true => simp [Ring.waiting, free] at waiting
    · cases read : t.ring.rd1 with
      | false => rfl
      | true => simp [Ring.fetched, served.apart read, read] at fetched
    · cases next : t.ring.nxtV with
      | false => rfl
      | true => simp [Ring.fetched, next] at fetched

theorem Sound.sent_within (sound : Sound w t resident) : t.log.sent <+: due t.ring.tailLen (t.kept resident) := by
  obtain ⟨stored, served, live | past⟩ := sound
  · refine @due_of_append _ _ _ (t.ring.rest ++ (t.ring.fetched ++ resident ++ t.ring.waiting).flatten) ?_ ?_
    · simp only [Traced.kept, List.flatten_append, ← live.flow, List.append_assoc]
    · intro some
      rw [List.length_append]
      cases tail : t.ring.isTail with
      | true =>
        obtain ⟨valid, inside⟩ := live.tail tail
        obtain ⟨-, length⟩ := served.byte valid
        rw [Ring.rest, if_pos valid, List.length_take, length]
        omega
      | false =>
        have behind := stored.behind served some tail
        omega
  · obtain ⟨cut, short, flow⟩ := past.flow
    refine @due_of_append _ _ _ (cut ++ resident.flatten ++ t.ring.waiting.flatten) ?_ ?_
    · rw [Traced.kept, List.flatten_append, List.flatten_append, ← flow]
      simp only [List.append_assoc]
    · intro _
      rw [List.length_append, List.length_append, short]
      omega

theorem Sound.sent_all (sound : Sound w t resident) (empty : t.ring.empty = true) :
    t.log.sent = due t.ring.tailLen t.log.reads ∧ resident = [] ∧ t.ring.waiting = [] := by
  obtain ⟨drained, free, read, next, idle⟩ := (Ring.empty_iff _).mp empty
  have none : resident = [] := by simpa [sound.stored.sEmpty] using drained
  refine ⟨?_, none, by rw [Ring.waiting, free]; rfl⟩
  obtain ⟨stored, served, live | past⟩ := sound
  · have ordinary : t.ring.tailLen = 0 := by
      by_contra some
      have tail : t.ring.isTail = true := (Ring.isTail_iff _).mpr ⟨some, drained, free, read, next⟩
      exact Bool.noConfusion (idle.symm.trans (live.tail tail).1)
    rw [due, if_pos ordinary, Nat.sub_zero, List.take_length, ← live.flow, Ring.rest, idle, Ring.fetched, next, read]
    simp
  · obtain ⟨cut, short, flow⟩ := past.flow
    rw [due, if_neg past.tail, ← flow, List.length_append, short, Nat.add_sub_cancel, List.take_left]

end BenchPod.LaPipe
