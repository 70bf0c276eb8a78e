import BenchPod.LaPipe.Delivered

/-!
# The capture comes to its end

Once the producer has stopped and the packer is empty, every clock in which the writer takes a byte brings the ring
nearer to empty.
-/

namespace BenchPod
namespace LaPipe

/-- The clocks that the ring still needs, where the writer is never full. -/
def Ring.work (w : Widths) (r : Ring) : Nat :=
  10 * r.inPV.toNat + 9 * r.fill w + 8 * r.rd1.toNat + 7 * r.nxtV.toNat + if r.outV then 6 - r.outI else 0

section Ring

variable {w : Widths} {t : Traced} {i : Offer} {resident : List Word}

/-- The output register gives its bytes away one by one. -/
theorem Sound.out_step (sound : Sound w t resident) (run : i.rst = false) :
    (if (t.ring.step w i).outV then 6 - (t.ring.step w i).outI else 0) + (t.ring.outStb i).toNat ≤
      (if t.ring.loads i then 6 else 0) + if t.ring.outV then 6 - t.ring.outI else 0 := by
  obtain ⟨outI, -, outV⟩ := @Ring.step_out w t.ring i run
  cases loads : t.ring.loads i with
  | true =>
    obtain ⟨-, -, start, valid⟩ := @Ring.Served.rest_load w i _ sound.served run loads
    rw [start, valid, if_pos rfl]
    cases sends : t.ring.outStb i with
    | false => exact Nat.le_add_right _ _
    | true =>
      have valid : t.ring.outV = true := (Bool.and_eq_true_iff.mp sends).1
      obtain ⟨inside, -⟩ := sound.served.byte valid
      rw [if_pos valid, Bool.toNat_true]
      omega
  | false =>
    rw [loads, Bool.false_or] at outV
    rw [outV, outI]
    cases sends : t.ring.outStb i with
    | false =>
      have last : t.ring.outLast i = false := by rw [Ring.outLast, sends, Bool.false_and]
      rw [last]
      simp
    | true =>
      have valid : t.ring.outV = true := (Bool.and_eq_true_iff.mp sends).1
      obtain ⟨inside, -⟩ := sound.served.byte valid
      rw [valid]
      cases last : t.ring.outLast i with
      | true =>
        simp only [Bool.not_true, Bool.and_false, Bool.false_eq_true, if_false, if_true, Bool.toNat_true]
        omega
      | false =>
        have more := sound.served.more sends sound.inTail last
        rw [Nat.mod_eq_of_lt (by omega)]
        simp only [Bool.not_false, Bool.and_true, Bool.false_eq_true, if_false, if_true, Bool.toNat_true]
        omega

theorem Sound.behind_step (sound : Sound w t resident) (run : i.rst = false) :
    8 * (t.ring.step w i).rd1.toNat + 7 * (t.ring.step w i).nxtV.toNat +
        (if (t.ring.step w i).outV then 6 - (t.ring.step w i).outI else 0) +
        (t.ring.rd1.toNat + (t.ring.loads i).toNat + (t.ring.outStb i).toNat) ≤
      8 * t.ring.rd1.toNat + 7 * t.ring.nxtV.toNat + (if t.ring.outV then 6 - t.ring.outI else 0) +
        8 * (t.ring.doRead w i).toNat := by
  obtain ⟨rd1, nxtV, -, -, -⟩ := @Ring.step_fetched w i run t.ring
  have output := @Sound.out_step w t i resident sound run
  have loaded : t.ring.nxtV = false → t.ring.loads i = false := fun none => by rw [Ring.loads, none, Bool.and_false]
  rw [rd1, nxtV]
  cases next : t.ring.nxtV with
  | false =>
    rw [loaded next] at output ⊢
    simp only [Bool.false_and, Bool.or_false, Bool.toNat_false, Bool.false_eq_true, if_false] at output ⊢
    omega
  | true =>
    have read : t.ring.rd1 = false := by
      cases read : t.ring.rd1 with
      | false => rfl
      | true => exact Bool.noConfusion (next.symm.trans (sound.served.apart read))
    rw [read]
    cases loads : t.ring.loads i with
    | false =>
      rw [loads] at output
      simp only [Bool.not_false, Bool.and_true, Bool.or_true, Bool.toNat_true, Bool.toNat_false, Bool.false_eq_true,
        if_false] at output ⊢
      omega
    | true =>
      rw [loads] at output
      simp only [Bool.not_true, Bool.and_false, Bool.or_false, Bool.toNat_true, Bool.toNat_false, if_true] at output ⊢
      omega

theorem Sound.memory_step (sound : Sound w t resident) (run : i.rst = false) (free : i.holdOut = false)
    (quiet : i.inStb = false) (offers : Offers t i) :
    10 * (t.ring.step w i).inPV.toNat + 9 * (t.ring.step w i).fill w + (t.ring.doWrite w).toNat +
        9 * (t.ring.doRead w i).toNat = 10 * t.ring.inPV.toNat + 9 * t.ring.fill w := by
  have fill : t.ring.fill w = resident.length := sound.stored.fill
  have fill' : (t.ring.step w i).fill w = (t.ring.after w i resident).length := (sound.stored.step offers run).fill
  have inPV : (t.ring.step w i).inPV = (t.ring.inPV && !t.ring.doWrite w) := by
    rw [Ring.step, if_neg (by simp [run]), quiet]
    rfl
  have drops : t.ring.preDrop w i = false := by rw [Ring.preDrop, free, Bool.false_and]
  rw [Ring.after, Ring.leaves, drops, Bool.and_false, Bool.or_false, List.length_append] at fill'
  rw [inPV, fill', fill]
  cases reads : t.ring.doRead w i with
  | true =>
    obtain ⟨writes, some, -, -, -⟩ := Ring.doRead_alone reads
    have more : resident.length ≠ 0 := by
      rw [sound.stored.sEmpty, decide_eq_false_iff_not] at some
      exact fun none => some (List.length_eq_zero_iff.mp none)
    rw [writes]
    simp only [Bool.not_false, Bool.and_true, Bool.toNat_true, Bool.toNat_false, if_true, if_false, Bool.false_eq_true,
      List.length_drop, List.length_nil]
    omega
  | false =>
    cases writes : t.ring.doWrite w with
    | true =>
      rw [(Bool.and_eq_true_iff.mp writes).1]
      simp only [Bool.not_true, Bool.and_false, Bool.toNat_true, Bool.toNat_false, if_true, if_false,
        Bool.false_eq_true, List.length_singleton]
      omega
    | false =>
      simp only [Bool.not_false, Bool.and_true, Bool.toNat_false, if_false, Bool.false_eq_true, List.length_nil]
      omega

/-- Where the writer takes a byte, something in the ring moves. -/
theorem Sound.moves (sound : Sound w t resident) (free : i.holdOut = false) (room : i.outFull = false)
    (some : t.ring.empty = false) : t.ring.doWrite w = true ∨ t.ring.doRead w i = true ∨ t.ring.rd1 = true ∨
      t.ring.loads i = true ∨ t.ring.outStb i = true := by
  cases valid : t.ring.outV with
  | true =>
    refine .inr (.inr (.inr (.inr ?_)))
    rw [Ring.outStb, valid, room]
    rfl
  | false =>
    cases next : t.ring.nxtV with
    | true =>
      refine .inr (.inr (.inr (.inl ?_)))
      rw [Ring.loads, valid, next]
      rfl
    | false =>
      cases read : t.ring.rd1 with
      | true => exact .inr (.inr (.inl rfl))
      | false =>
        cases writes : t.ring.doWrite w with
        | true => exact .inl rfl
        | false =>
          refine .inr (.inl ?_)
          rw [Ring.doRead, free, writes, next, read]
          cases drained : t.ring.sEmpty with
          | false => rfl
          | true =>
            -- then a word waits that a full memory keeps out
            have waits : t.ring.inPV = true := by
              rw [Ring.empty, drained, read, next, valid] at some
              simpa using some
            have full : t.ring.sFull w = true := by
              rw [Ring.doWrite, waits, Bool.true_and, Bool.not_eq_false'] at writes
              exact writes
            rw [sound.stored.sEmpty, decide_eq_true_iff] at drained
            rw [sound.stored.sFull, decide_eq_true_iff, drained, List.length_nil] at full
            exact absurd full (Nat.two_pow_pos w.aw).ne

theorem Sound.work_step (sound : Sound w t resident) (run : i.rst = false) (free : i.holdOut = false)
    (quiet : i.inStb = false) (offers : Offers t i) :
    (t.ring.step w i).work w ≤ t.ring.work w ∧
      (i.outFull = false → t.ring.empty = false → (t.ring.step w i).work w < t.ring.work w) := by
  have memory := sound.memory_step run free quiet offers
  have behind := @Sound.behind_step w t i resident sound run
  rw [Ring.work, Ring.work]
  refine ⟨by omega, fun room some => ?_⟩
  obtain writes | reads | read | loads | sends := sound.moves free room some
  · rw [writes, Bool.toNat_true] at memory
    omega
  · rw [reads, Bool.toNat_true] at memory behind
    omega
  · rw [read, Bool.toNat_true] at behind ⊢
    omega
  · rw [loads, Bool.toNat_true] at behind
    omega
  · rw [sends, Bool.toNat_true] at behind
    omega

end Ring

section Capture

variable {n : Nat} {w : Widths} {before s : Pipe n} {edges : Nat → Edge n} {request : Request} {t : Nat}

/-- The producer and the packer have nothing left. -/
structure Settled (s : Pipe n) : Prop where
  done : s.producer.done = true
  quiet : s.producer.wrStb = false
  none : s.packer.n = 0

theorem Armed.settled (armed : Armed edges request) (late : request.tick request.count.toNat + 2 ≤ t) :
    Settled ((pipe n w).after before edges (t + 1)) := by
  have done : ∀ u, request.tick request.count.toNat ≤ u → ((pipe n w).after before edges (u + 1)).producer.done = true := by
    intro u later
    obtain ⟨made, making, -⟩ := (@Armed.capturing n w before edges request armed u).packed
    exact (making.passed later).2
  have quiet : ∀ u, request.tick request.count.toNat ≤ u →
      ((pipe n w).after before edges (u + 2)).producer.wrStb = false := by
    intro u later
    obtain ⟨made, making, -⟩ := (@Armed.capturing n w before edges request armed u).packed
    exact Producer.strobe_nil (making.rests (armed.samples u) (done u later)).1
  obtain ⟨u, rfl⟩ := Nat.exists_eq_add_of_le late
  rw [show request.tick request.count.toNat + 2 + u + 1 = request.tick request.count.toNat + u + 1 + 2 by omega]
  refine ⟨done _ (by omega), quiet _ (by omega), ?_⟩
  have idle := quiet (request.tick request.count.toNat + u) (by omega)
  have finished := done (request.tick request.count.toNat + u + 1) (by omega)
  show (Packer.step _ (Pipe.packing _ (edges _))).n = 0
  generalize (pipe n w).after before edges (request.tick request.count.toNat + u + 2) = s at idle finished ⊢
  rw [Packer.step_n]
  show (if (edges _).rst || (edges _).arm then 0 else if s.producer.wrStb then _ else
    if s.producer.done && s.packer.partialHeld then 0 else s.packer.n) = 0
  rw [idle, finished, Bool.true_and, Packer.partialHeld]
  by_cases none : s.packer.n = 0
  · simp [none]
  · simp [none]

/-- The pipeline has nothing more to do. -/
def Pipe.finished (s : Pipe n) : Prop := s.laDone = true ∧ s.ring.ring.empty = true

theorem Settled.step_work (settled : Settled s) (armed : Armed edges request) {resident : List Word} {made : List Byte}
    (sound : Sound w s.ring resident) (packed : Packed s made) (t : Nat) :
    ((s.step (edges (t + 1)) w).ring.ring.work w ≤ s.ring.ring.work w) ∧
      ((edges (t + 1)).outFull = false → ¬ s.finished →
        (s.step (edges (t + 1)) w).ring.ring.work w < s.ring.ring.work w) := by
  have goes := armed.goes packed t
  have quiet : (s.offer (edges (t + 1))).inStb = false := by
    show s.packer.wstb (s.packing (edges (t + 1))) = false
    have strobe : (s.packing (edges (t + 1))).inStb = false := settled.quiet
    rw [Packer.wstb, Packer.complete, Packer.partialHeld, strobe, settled.none]
    simp
  obtain ⟨less, falls⟩ := sound.work_step goes.2.1 rfl quiet goes.1
  refine ⟨less, fun room some => falls room ?_⟩
  rw [← Bool.not_eq_true]
  intro empty
  refine some ⟨?_, empty⟩
  rw [Pipe.laDone, settled.done, Packer.partialHeld, settled.none]
  rfl

theorem Armed.finishes (armed : Armed edges request) (takes : Recurs fun t => (edges t).outFull = false) :
    ∃ t, ((pipe n w).after before edges (t + 1)).finished := by
  have turns : Recurs fun t => (edges (t + 1)).outFull = false := by
    intro t
    obtain ⟨m, late, room⟩ := takes (t + 1)
    obtain ⟨m, rfl⟩ := Nat.exists_eq_add_of_lt (Nat.lt_of_lt_of_le (Nat.lt_succ_self t) late)
    exact ⟨t + m, Nat.le_add_right _ _, room⟩
  let state := fun t => (pipe n w).after before edges (t + 1)
  let Near := fun rank t => request.tick request.count.toNat + 2 ≤ t ∧ (state t).ring.ring.work w ≤ rank
  have step : ∀ t, request.tick request.count.toNat + 2 ≤ t →
      (state (t + 1)).ring.ring.work w ≤ (state t).ring.ring.work w ∧
        ((edges (t + 1)).outFull = false → ¬ (state t).finished →
          (state (t + 1)).ring.ring.work w < (state t).ring.ring.work w) := by
    intro t late
    obtain ⟨⟨made, -, packed⟩, ⟨resident, sound⟩, -⟩ := @Armed.capturing n w before edges request armed t
    exact (armed.settled late).step_work armed sound packed t
  have reached := @Recurs.reaches _ (fun t => (state t).finished) Near turns ?_ ?_
    ((state (request.tick request.count.toNat + 2)).ring.ring.work w) (request.tick request.count.toNat + 2)
    ⟨Nat.le_refl _, Nat.le_refl _⟩
  · obtain ⟨m, -, finished⟩ := reached
    exact ⟨m, finished⟩
  · rintro rank t ⟨late, near⟩ -
    exact ⟨Nat.le_succ_of_le late, Nat.le_trans (step t late).1 near⟩
  · rintro rank t ⟨late, near⟩ room
    by_cases finished : (state t).finished
    · exact .inl finished
    · refine .inr ⟨(state (t + 1)).ring.ring.work w, ?_, Nat.le_succ_of_le late, Nat.le_refl _⟩
      exact Nat.lt_of_lt_of_le ((step t late).2 room finished) near

theorem Armed.sent_growing (armed : Armed edges request) {u : Nat} (le : t ≤ u) :
    ((pipe n w).after before edges (t + 1)).ring.log.sent <+: ((pipe n w).after before edges (u + 1)).ring.log.sent := by
  induction le with
  | refl => exact List.prefix_rfl
  | @step u _ ih =>
    refine ih.trans ?_
    obtain ⟨⟨made, -, packed⟩, -, -⟩ := @Armed.capturing n w before edges request armed u
    have sent := (@Traced.step_run w _ (armed.goes packed u).2.1 ((pipe n w).after before edges (u + 1)).ring).2.2
    show _ <+: (((pipe n w).after before edges (u + 1)).ring.step w _).log.sent
    rw [sent]
    exact List.prefix_append _ _

end Capture

end LaPipe
end BenchPod

/-!
## The raw capture as a whole

Between an arm and the next one the writer gets the samples asked for, in order and nothing else, unless a word was
refused; and what the ring sends of any stream of words are those that it took, less what its windows dropped.
-/

namespace BenchPod
namespace LaPipe

variable {n : Nat} {w : Widths}

instance (t : Traced) (i : Offer) : Decidable (Offers t i) := inferInstanceAs (Decidable (_ → _ → _ ∧ _ ∧ _))

instance (t : Traced) (i : Offer) : Decidable (Goes t i) := inferInstanceAs (Decidable (_ ∧ _ ∧ _))

theorem ring_sound (t : Traced) {reset : Offer} {offers : List Offer} (resets : reset.rst = true)
    (along : (ring w).Along Goes (t.step w reset) offers) :
    Counted ((ring w).run (t.step w reset) offers) ∧
      Sound w ((ring w).run (t.step w reset) offers) (((ring w).run (t.step w reset) offers).ring.held w) := by
  have sound : Counted ((ring w).run (t.step w reset) offers) ∧
      ∃ resident, Sound w ((ring w).run (t.step w reset) offers) resident := by
    refine along.invariant _ (fun now => Counted now ∧ ∃ resident, Sound w now resident) ?_
      ⟨Counted.reset resets, [], Sound.reset t resets⟩
    rintro now i ⟨counted, resident, sound⟩ goes
    exact ⟨counted.step goes, _, sound.step goes.1 goes.2.1⟩
  obtain ⟨counted, resident, sound⟩ := sound
  rw [sound.stored.held]
  exact ⟨counted, sound⟩

/-- The windows of a ring: outside them it drops nothing; one that opens with no more than it keeps leaves the newest
words that were in the memory or came into it, and has dropped the others in their order. -/
def KeepsNewest (w : Widths) (t : Traced) : Prop :=
  (∀ offers, (ring w).Along (fun t i => Goes t i ∧ i.holdOut = false) t offers →
      ∃ words : List Word, ((ring w).run t offers).log.left = t.log.left ++ words.map (·, true)) ∧
    ∀ window, (t.ring.held w).length ≤ 2 ^ w.preAw →
      (ring w).Along (fun t i => Goes t i ∧ i.holdOut = true) t window →
        ∃ written, ((ring w).run t window).ring.held w = (t.ring.held w ++ written).rtake (2 ^ w.preAw) ∧
          ((ring w).run t window).log.left =
            t.log.left ++ ((t.ring.held w ++ written).rdrop (2 ^ w.preAw)).map (·, false) ∧
          ((ring w).run t window).log.taken =
            t.log.left.map Prod.fst ++ t.ring.held w ++ written ++ ((ring w).run t window).ring.waiting

theorem Sound.keepsNewest {t : Traced} (sound : Sound w t (t.ring.held w)) : KeepsNewest w t := by
  refine ⟨fun offers along => clear_window along, fun window few along => ?_⟩
  obtain ⟨written, windowed⟩ := sound.window few along
  have held := windowed.sound.stored.held
  refine ⟨written, held, windowed.dropped, ?_⟩
  rw [windowed.sound.stored.taken, windowed.dropped, List.map_append, List.map_map]
  have whole : ((t.ring.held w ++ written).rdrop (2 ^ w.preAw)).map (Prod.fst ∘ (·, false)) ++
      (t.ring.held w ++ written).rtake (2 ^ w.preAw) = t.ring.held w ++ written := by
    rw [show Prod.fst ∘ (fun word : Word => (word, false)) = id from rfl, List.map_id]
    exact List.take_append_drop _ _
  rw [List.append_assoc (t.log.left.map Prod.fst), whole, ← List.append_assoc]

/-- One capture hands over the samples asked for unless the overflow says so, and all of them once the writer has taken
enough; the ring sends what it took, less what its windows dropped, and tells when it did not take a word. -/
theorem capture_exact (before : Pipe n) {edges : Nat → Edge n} {request : Request} (armed : Armed edges request) :
    (∀ t, ((pipe n w).after before edges (t + 1)).ring.ring.overflow = false →
      ((pipe n w).after before edges (t + 1)).ring.log.sent <+: expected before edges request ∧
        (((pipe n w).after before edges (t + 1)).finished →
          ((pipe n w).after before edges (t + 1)).ring.log.sent = expected before edges request)) ∧
    (expected before edges request).length = 2 * request.count.toNat ∧
    (Recurs (fun t => (edges t).outFull = false) →
      (∀ t, ((pipe n w).after before edges (t + 1)).ring.ring.overflow = false) →
        ∃ t, ∀ u, t ≤ u → ((pipe n w).after before edges (u + 1)).ring.log.sent = expected before edges request) ∧
    ∀ (t : Traced) (reset : Offer) (offers : List Offer), reset.rst = true →
      (ring w).Along Goes (t.step w reset) offers →
        let now := (ring w).run (t.step w reset) offers
        now.log.sent <+: due now.ring.tailLen (now.log.reads ++ now.ring.held w ++ now.ring.waiting) ∧
          (now.ring.empty = true → now.log.sent = due now.ring.tailLen now.log.reads) ∧
          now.log.taken = now.log.left.map Prod.fst ++ now.ring.held w ++ now.ring.waiting ∧
          now.log.taken.Sublist now.log.offered ∧ (now.ring.overflow = false ↔ now.log.taken = now.log.offered) ∧
          KeepsNewest w now := by
  refine ⟨fun t whole => ?_, Request.bytes_length _ _ _, fun takes whole => ?_, fun t reset offers resets along => ?_⟩
  · have capturing := @Armed.capturing n w before edges request armed t
    exact ⟨capturing.sent_within whole, fun finished => capturing.sent_all whole finished.1 finished.2⟩
  · obtain ⟨t, finished⟩ := @Armed.finishes n w before edges request armed takes
    refine ⟨t, fun u later => ?_⟩
    have all := (@Armed.capturing n w before edges request armed t).sent_all (whole t) finished.1 finished.2
    have grown := @Armed.sent_growing n w before edges request t armed u later
    have within := (@Armed.capturing n w before edges request armed u).sent_within (whole u)
    rw [all] at grown
    exact (grown.eq_of_length (Nat.le_antisymm grown.length_le within.length_le)).symm
  · obtain ⟨counted, sound⟩ := @ring_sound w t reset offers resets along
    refine ⟨sound.sent_within, fun empty => (sound.sent_all empty).1, sound.stored.taken, counted.order, counted.all,
      sound.keepsNewest⟩

/-- A capture of one sample, a clock after the arm. -/
def single (t : Nat) : Edge 14 where
  arm := decide (t = 0)
  laIn := BitVec.ofNat 14 (0x1234 + t)
  hold := decide (t = 1)
  sampleCount := 1

/-- The pipeline as its reset leaves it. -/
def fresh : Pipe 14 where
  producer := ⟨0, 0, 0, 0, false, 0, 0, false, false, false, false⟩
  packer := ⟨[0, 0, 0, 0, 0], 0, rfl⟩
  ring := {}

theorem capture_exact_single :
    ((pipe 14 ⟨2, 1⟩).after fresh single 16).ring.log.sent = [0x34, 0x12] := by
  have armed : Armed single ⟨1, 0, 1⟩ := by
    refine ⟨by decide, fun _ => rfl, fun _ => rfl, fun t => ?_, rfl, fun _ => rfl⟩
    rw [single]
    simp
  obtain ⟨sent, -⟩ := @capture_exact 14 ⟨2, 1⟩ fresh single ⟨1, 0, 1⟩ armed
  rw [(sent 15 (by decide)).2 ⟨by decide, by decide⟩]
  decide

/-- A window that opens on more words than it keeps leaves more. -/
theorem late_window :
    ¬ ∀ (w : Widths) (t : Traced) (reset : Offer) (offers window : List Offer), reset.rst = true →
      (ring w).Along Goes (t.step w reset) offers →
      (ring w).Along (fun t i => Goes t i ∧ i.holdOut = true) ((ring w).run (t.step w reset) offers) window →
        window.any Offer.inStb = true →
          (((ring w).run ((ring w).run (t.step w reset) offers) window).ring.held w).length ≤ 2 ^ w.preAw := by
  intro every
  let word := fun k : Nat => List.replicate 6 (BitVec.ofNat 8 k)
  let offer := fun k : Nat => ({ inStb := true, inWord := word k, outFull := true } : Offer)
  let idle : Offer := { outFull := true }
  have kept := every ⟨2, 1⟩ {} { rst := true } [offer 0, idle, idle, offer 1, idle, idle, offer 2, idle, offer 3, idle,
    offer 4, idle] [{ offer 5 with holdOut := true }, { idle with holdOut := true }] rfl (by decide) (by decide) rfl
  revert kept
  decide

end LaPipe
end BenchPod
