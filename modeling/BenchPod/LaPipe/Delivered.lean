import BenchPod.LaPipe.Packed

/-!
# A capture from the arm on

The bytes sent are the first ones of the samples that were asked for, as long as no word was refused, and all of them
once the producer, the packer and the ring are empty.
-/

namespace BenchPod.LaPipe

/-- What the channels showed, two clocks late: the synchroniser's registers first. -/
def wave {n : Nat} (before : Pipe n) (edges : Nat → Edge n) : Nat → BitVec n
  | 0 => before.producer.q2
  | 1 => before.producer.q1
  | t + 2 => (edges t).laIn

/-- The edges of one capture: the arm, the clocks in which it is held, and those after the trigger. -/
structure Armed {n : Nat} (edges : Nat → Edge n) (request : Request) : Prop where
  some : request.count ≠ 0
  run : ∀ t, (edges t).rst = false
  arm : ∀ t, (edges t).arm = decide (t = 0)
  hold : ∀ t, (edges (t + 1)).hold = decide (t + 1 ≤ request.held)
  sampleCount : (edges 0).sampleCount = request.count
  divider : ∀ t, (edges t).divider = request.divider

variable {n : Nat} {w : Widths} {before s : Pipe n} {edges : Nat → Edge n} {request : Request} {t : Nat}

theorem Producer.step_seen (p : Producer n) (i : Sampling n) : (p.step i).q1 = i.laIn ∧ (p.step i).q2 = p.q1 := by
  rw [Producer.step]
  split
  · exact ⟨rfl, rfl⟩
  · split
    · exact ⟨rfl, rfl⟩
    · split
      · split
        · exact ⟨rfl, rfl⟩
        · split
          · exact ⟨rfl, rfl⟩
          · exact ⟨rfl, rfl⟩
      · exact ⟨rfl, rfl⟩

theorem seen (before : Pipe n) (edges : Nat → Edge n) (t : Nat) :
    ((pipe n w).after before edges t).producer.q2 = wave before edges t ∧
      ((pipe n w).after before edges t).producer.q1 = wave before edges (t + 1) := by
  induction t with
  | zero => exact ⟨rfl, rfl⟩
  | succ t ih =>
    obtain ⟨q1, q2⟩ := (((pipe n w).after before edges t).producer).step_seen (Pipe.sampling (edges t))
    exact ⟨q2.trans ih.2, q1⟩

/-- The pipeline in a capture: where the samples are. -/
structure Capturing (w : Widths) (request : Request) (wave : Nat → BitVec n) (t : Nat) (s : Pipe n) : Prop where
  packed : ∃ made, Making request wave t s.producer made ∧ Packed s made
  sound : ∃ resident, Sound w s.ring resident
  read : ∃ words : List Word, s.ring.log.left = words.map (·, true)

theorem Making.rests {wave : Nat → BitVec n} {p : Producer n} {made : List Byte} {i : Sampling n}
    (making : Making request wave t p made) (samples : Samples request (t + 1) i) (done : p.done = true) :
    (p.step i).strobe = [] ∧ (p.step i).done = true := by
  cases making with
  | counting k more busy low going left time => exact Bool.noConfusion (going.symm.trans done)
  | high k more busy high going left reload latched time => exact Bool.noConfusion (going.symm.trans done)
  | finished idle _ =>
    obtain ⟨-, -, ended, -, -, -, quiet⟩ := Producer.step_waits samples (by rw [idle, Bool.false_and])
    exact ⟨quiet, ended.trans done⟩

theorem Armed.samples (armed : Armed edges request) (t : Nat) : Samples request (t + 1) (Pipe.sampling (edges (t + 1))) :=
  ⟨armed.run _, by rw [Pipe.sampling, armed.arm]; rfl, armed.hold t, armed.divider _⟩

theorem Armed.goes (armed : Armed edges request) {made : List Byte} (packed : Packed s made) (t : Nat) :
    Goes s.ring (s.offer (edges (t + 1))) := by
  refine ⟨packed.offers, ?_, ?_⟩
  · rw [Pipe.offer, armed.run, armed.arm]
    rfl
  · rw [Pipe.offer, armed.arm]
    rfl

theorem Capturing.step {wave : Nat → BitVec n} (armed : Armed edges request) (capturing : Capturing w request wave t s)
    (seen : s.producer.q2 = wave (t + 1)) : Capturing w request wave (t + 1) (s.step (edges (t + 1)) w) := by
  obtain ⟨⟨made, making, packed⟩, ⟨resident, sound⟩, words, left⟩ := capturing
  have samples := armed.samples t
  have goes := armed.goes packed t
  refine ⟨⟨_, making.step samples seen, packed.step (armed.run _) (by rw [armed.arm]; rfl) (making.rests samples)⟩,
    ⟨_, sound.step goes.1 goes.2.1⟩, ?_⟩
  obtain ⟨more, grown⟩ := @clear_window w s.ring [s.offer (edges (t + 1))] ⟨⟨goes, rfl⟩, trivial⟩
  refine ⟨words ++ more, ?_⟩
  rw [List.map_append, ← left]
  exact grown

theorem Capturing.start {wave : Nat → BitVec n} (armed : Armed edges request) (s : Pipe n) :
    Capturing w request wave 0 (s.step (edges 0) w) := by
  have reset : (s.offer (edges 0)).rst = true := by rw [Pipe.offer, armed.arm, armed.run]; rfl
  have begun : (edges 0).arm = true := armed.arm 0
  obtain ⟨making, quiet⟩ := @Making.start n request wave s.producer (Pipe.sampling (edges 0)) armed.some (armed.run 0)
    begun armed.sampleCount (armed.divider 0)
  refine ⟨⟨[], making, ?_⟩, ⟨[], Sound.reset s.ring reset⟩, [], ?_⟩
  · have cleared : (s.packing (edges 0)).rst = true := by rw [Pipe.packing, begun, Bool.or_true]
    have packer : (s.step (edges 0) w).packer.n = 0 := by
      show (s.packer.step (s.packing (edges 0))).n = 0
      rw [Packer.step_n, cleared]
      rfl
    have emptied : (s.step (edges 0) w).ring.ring.tailLen = 0 ∧ (s.step (edges 0) w).ring.log = {} := by
      show (s.ring.step w (s.offer (edges 0))).ring.tailLen = 0 ∧ (s.ring.step w (s.offer (edges 0))).log = {}
      rw [Traced.step, Ring.step, if_pos reset, if_pos reset]
      exact ⟨rfl, rfl⟩
    refine ⟨by rw [packer]; exact Nat.zero_le 5, fun some => absurd emptied.1 some,
      fun _ _ => ?_, fun _ some => absurd emptied.1 some⟩
    rw [emptied.2, packer]
    exact quiet.symm
  · show (s.ring.step w (s.offer (edges 0))).log.left = _
    rw [Traced.step, if_pos reset]
    rfl

theorem Armed.capturing (armed : Armed edges request) (t : Nat) :
    Capturing w request (wave before edges) t ((pipe n w).after before edges (t + 1)) := by
  induction t with
  | zero => exact .start armed before
  | succ t ih => exact ih.step armed (seen before edges (t + 1)).1

/-- The bytes that a capture asks for. -/
def expected (before : Pipe n) (edges : Nat → Edge n) (request : Request) : List Byte :=
  request.bytes (wave before edges) request.count.toNat

theorem Packed.due_within {made : List Byte} (packed : Packed s made) (whole : s.ring.ring.overflow = false) :
    due s.ring.ring.tailLen s.ring.log.taken <+: made := by
  by_cases none : s.ring.ring.tailLen = 0
  · rw [packed.filling whole none, due, if_pos none, List.append_assoc]
    exact (List.take_prefix _ _).trans (List.prefix_append _ _)
  · obtain ⟨cut, short, flow⟩ := packed.flushed whole none
    have cut_off : due s.ring.ring.tailLen s.ring.log.taken = made := by
      rw [due, if_neg none, ← flow, List.length_append, short, Nat.add_sub_cancel, List.take_left]
    exact ⟨[], by rw [List.append_nil, cut_off]⟩

theorem Capturing.taken {wave : Nat → BitVec n} {resident : List Word} (capturing : Capturing w request wave t s)
    (sound : Sound w s.ring resident) : s.ring.kept resident = s.ring.log.taken := by
  obtain ⟨words, left⟩ := capturing.read
  rw [sound.stored.taken, Traced.kept, Log.reads, left, List.filter_map, List.map_map, List.map_map]
  congr 2
  simp [Function.comp_def]

theorem Capturing.sent_within {wave : Nat → BitVec n} (capturing : Capturing w request wave t s)
    (whole : s.ring.ring.overflow = false) : s.ring.log.sent <+: request.bytes wave request.count.toNat := by
  obtain ⟨made, making, packed⟩ := capturing.packed
  obtain ⟨resident, sound⟩ := capturing.sound
  have sent := sound.sent_within
  rw [capturing.taken sound] at sent
  exact (sent.trans (packed.due_within whole)).trans making.made_within

theorem Capturing.sent_all {wave : Nat → BitVec n} (capturing : Capturing w request wave t s)
    (whole : s.ring.ring.overflow = false) (done : s.laDone = true) (empty : s.ring.ring.empty = true) :
    s.ring.log.sent = request.bytes wave request.count.toNat := by
  obtain ⟨made, making, packed⟩ := capturing.packed
  obtain ⟨resident, sound⟩ := capturing.sound
  obtain ⟨sent, none, waits⟩ := sound.sent_all empty
  have taken := capturing.taken sound
  rw [Traced.kept, none, waits, List.append_nil, List.append_nil] at taken
  rw [taken] at sent
  rw [Pipe.laDone, Bool.and_eq_true, Bool.not_eq_true', Packer.partialHeld, bne_eq_false_iff_eq] at done
  cases making with
  | counting k more busy low going left time => exact Bool.noConfusion (going.symm.trans done.1)
  | high k more busy high going left reload latched time => exact Bool.noConfusion (going.symm.trans done.1)
  | finished idle _ =>
    by_cases some : s.ring.ring.tailLen = 0
    · have sixes : s.ring.log.taken.flatten.length = 6 * s.ring.log.taken.length := by
        rw [List.length_flatten, List.map_congr_left sound.stored.whole, List.map_const',
          List.sum_replicate_nat, Nat.mul_comm]
      have flow := packed.filling whole some
      have odd := congrArg List.length flow
      rw [done.2, List.take_zero, List.append_nil] at flow
      rw [done.2, List.take_zero, List.append_nil, Request.bytes_length, List.length_append, sixes] at odd
      have quiet : s.producer.strobe = [] := by
        cases strobed : s.producer.wrStb with
        | false => rw [Producer.strobe, strobed]; rfl
        | true =>
          rw [Producer.strobe, strobed] at odd
          simp only [if_true, List.length_singleton] at odd
          omega
      rw [sent, due, if_pos some, Nat.sub_zero, List.take_length, flow, quiet, List.append_nil]
    · obtain ⟨cut, short, flow⟩ := packed.flushed whole some
      rw [sent, due, if_neg some, ← flow, List.length_append, short, Nat.add_sub_cancel, List.take_left]

end BenchPod.LaPipe
