import BenchPod.LaPipe.Sampled
import BenchPod.LaPipe.Window

/-!
# The bytes on their way to the ring

What the producer has strobed is in the words that the ring took, in the packer, or under the strobe; a flush that was
taken leaves nothing in the packer.
-/

namespace BenchPod.LaPipe

namespace Packer

variable {p : Packer} {i : Packing}

theorem step_byte (run : i.rst = false) (strobed : i.inStb = true) (room : p.n < 5) :
    p.wstb i = false ∧ (p.step i).n = p.n + 1 ∧ (p.step i).sh.take (p.n + 1) = p.sh.take p.n ++ [i.inData] := by
  have part : p.complete i = false := by simp [complete, room.ne]
  have lanes := p.lanes
  rw [wstb, step_n, step_sh, part, run, strobed]
  refine ⟨by simp, rfl, ?_⟩
  show (p.sh.set p.n i.inData).take (p.n + 1) = _
  rw [List.take_set, List.take_add_one, List.getElem?_eq_getElem (by omega), List.set_append_right _ _ (by simp)]
  simp [lanes, Nat.min_eq_left (show p.n ≤ 5 by omega)]

theorem step_word (run : i.rst = false) (strobed : i.inStb = true) (last : p.n = 5) :
    p.wstb i = true ∧ p.wlen i = 0 ∧ (p.step i).n = 0 := by
  have whole : p.complete i = true := by simp [complete, strobed, last]
  rw [wstb, wlen, step_n, whole, run, strobed]
  exact ⟨rfl, rfl, rfl⟩

theorem step_flush (run : i.rst = false) (quiet : i.inStb = false) (flush : i.flush = true) (some : p.n ≠ 0) :
    p.wstb i = true ∧ p.wlen i = p.n ∧ (p.step i).n = 0 ∧ (p.step i).sh = p.sh := by
  have part : p.complete i = false := by rw [complete, quiet, Bool.false_and]
  have held : p.partialHeld = true := by rw [partialHeld, bne_iff_ne]; exact some
  rw [wstb, wlen, step_n, step_sh, part, run, quiet, flush, held]
  exact ⟨rfl, rfl, rfl, rfl⟩

theorem step_rest (run : i.rst = false) (quiet : i.inStb = false) (none : (i.flush && p.partialHeld) = false) :
    p.wstb i = false ∧ (p.step i).n = p.n ∧ (p.step i).sh = p.sh := by
  have part : p.complete i = false := by rw [complete, quiet, Bool.false_and]
  rw [wstb, step_n, step_sh, part, run, quiet, none]
  exact ⟨rfl, rfl, rfl⟩

end Packer

variable {n : Nat} {w : Widths} {s : Pipe n} {i : Edge n} {made : List Byte}

/-- Where the bytes are that the producer has strobed. -/
structure Packed (s : Pipe n) (made : List Byte) : Prop where
  few : s.packer.n ≤ 5
  closed : s.ring.ring.tailLen ≠ 0 → s.packer.n = 0 ∧ s.producer.wrStb = false ∧ s.producer.done = true
  filling : s.ring.ring.overflow = false → s.ring.ring.tailLen = 0 →
    made = s.ring.log.taken.flatten ++ s.packer.sh.take s.packer.n ++ s.producer.strobe
  flushed : s.ring.ring.overflow = false → s.ring.ring.tailLen ≠ 0 →
    ∃ cut, cut.length = 6 - s.ring.ring.tailLen ∧ made ++ cut = s.ring.log.taken.flatten

theorem Pipe.step_fed (run : i.rst = false) (going : i.arm = false) (s : Pipe n) :
    (s.step i w).ring.ring.overflow =
        (s.ring.ring.overflow || (s.packer.wstb (s.packing i) && !s.ring.ring.inRdy w)) ∧
      (s.step i w).ring.ring.tailLen = (if s.packer.wstb (s.packing i) && s.ring.ring.inRdy w then
        s.packer.wlen (s.packing i) else s.ring.ring.tailLen) ∧
      (s.step i w).ring.log.taken = s.ring.log.taken ++ (if s.packer.wstb (s.packing i) && s.ring.ring.inRdy w then
        [s.packer.wd (s.packing i)] else []) := by
  have clear : (s.offer i).rst = false := by rw [Pipe.offer, run, going]; rfl
  obtain ⟨-, taken, -⟩ := @Traced.step_run w (s.offer i) clear s.ring
  obtain ⟨-, -, -, -, tailLen⟩ := @Ring.step_fetched w (s.offer i) clear s.ring.ring
  refine ⟨?_, tailLen, taken⟩
  show (s.ring.ring.step w (s.offer i)).overflow = _
  rw [Ring.step, if_neg (by simp [clear])]
  show ((s.ring.ring.overflow && !i.arm) || _) = _
  rw [going, Bool.not_false, Bool.and_true]
  rfl

theorem Packed.offers (packed : Packed s made) : Offers s.ring (s.offer i) := by
  intro _ strobed
  refine ⟨?_, ?_, ?_⟩
  · show (s.packer.sh ++ [(s.packing i).inData]).length = 6
    rw [List.length_append, s.packer.lanes]
    rfl
  · show s.packer.wlen (s.packing i) ≤ 5
    rw [Packer.wlen]
    split
    · exact Nat.zero_le 5
    · exact packed.few
  · by_contra some
    obtain ⟨none, quiet, -⟩ := packed.closed some
    have silent : s.packer.wstb (s.packing i) = false := by
      have strobe : (s.packing i).inStb = false := quiet
      rw [Packer.wstb, Packer.complete, Packer.partialHeld, strobe, none]
      simp
    exact Bool.noConfusion (silent.symm.trans strobed)

theorem Packed.step (packed : Packed s made) (run : i.rst = false) (going : i.arm = false)
    (rests : s.producer.done = true →
      (s.step i w).producer.strobe = [] ∧ (s.step i w).producer.done = true) :
    Packed (s.step i w) (made ++ (s.step i w).producer.strobe) := by
  obtain ⟨few, closed, filling, flushed⟩ := packed
  have lanes := s.packer.lanes
  obtain ⟨overflow, tailLen, taken⟩ := @Pipe.step_fed n w i run going s
  have packer : (s.step i w).packer = s.packer.step (s.packing i) := rfl
  have clear : (s.packing i).rst = false := by rw [Pipe.packing, run, going]; rfl
  cases strobed : s.producer.wrStb with
  | true =>
    have filled : s.ring.ring.tailLen = 0 := by
      by_contra some
      exact Bool.noConfusion (strobed.symm.trans (closed some).2.1)
    have strobe : s.producer.strobe = [(s.packing i).inData] := by rw [Producer.strobe, strobed]; rfl
    have input : (s.packing i).inStb = true := strobed
    obtain room | last := Nat.lt_or_eq_of_le few
    · obtain ⟨offers, count, lane⟩ := Packer.step_byte clear input room
      rw [offers, Bool.false_and] at overflow tailLen taken
      rw [Bool.or_false] at overflow
      rw [if_neg Bool.false_ne_true] at tailLen taken
      rw [List.append_nil] at taken
      refine ⟨by rw [packer, count]; omega, fun some => ?_, fun whole none => ?_, fun _ some => ?_⟩
      · exact absurd (tailLen.trans filled) some
      · rw [filling (overflow.symm.trans whole) filled, taken, packer, count, lane, strobe]
        simp only [List.append_assoc]
      · exact absurd (tailLen.trans filled) some
    · obtain ⟨offers, length, count⟩ := Packer.step_word clear input last
      rw [offers, Bool.true_and] at overflow tailLen taken
      rw [length, filled, ite_self] at tailLen
      refine ⟨by rw [packer, count]; omega, fun some => ?_, fun whole none => ?_, fun _ some => ?_⟩
      · exact absurd tailLen some
      · rw [whole, Eq.comm, Bool.or_eq_false_iff, Bool.not_eq_false'] at overflow
        rw [overflow.2, if_pos rfl] at taken
        rw [filling overflow.1 filled, taken, packer, count, strobe, last, Packer.wd,
          List.take_of_length_le (Nat.le_of_eq lanes), List.flatten_append, List.flatten_singleton]
        simp only [List.append_assoc, List.take_zero, List.nil_append]
      · exact absurd tailLen some
  | false =>
    have strobe : s.producer.strobe = [] := by rw [Producer.strobe, strobed]; rfl
    have input : (s.packing i).inStb = false := strobed
    cases flush : (s.packing i).flush && s.packer.partialHeld with
    | true =>
      obtain ⟨flush, some⟩ := Bool.and_eq_true_iff.mp flush
      have some : s.packer.n ≠ 0 := by rwa [Packer.partialHeld, bne_iff_ne] at some
      have filled : s.ring.ring.tailLen = 0 := by
        by_contra shut
        exact some (closed shut).1
      obtain ⟨quiet, done⟩ := rests flush
      obtain ⟨offers, length, count, lanes'⟩ := Packer.step_flush clear input flush some
      rw [offers, Bool.true_and] at overflow tailLen taken
      refine ⟨by rw [packer, count]; omega, fun _ => ?_, fun whole none => ?_,
        fun whole _ => ?_⟩
      · exact ⟨by rw [packer, count], Producer.strobe_nil quiet, done⟩
      · rw [whole, Eq.comm, Bool.or_eq_false_iff, Bool.not_eq_false'] at overflow
        rw [overflow.2, if_pos rfl, length] at tailLen
        exact absurd (tailLen.symm.trans none) some
      · rw [whole, Eq.comm, Bool.or_eq_false_iff, Bool.not_eq_false'] at overflow
        rw [overflow.2, if_pos rfl] at taken tailLen
        refine ⟨s.packer.sh.drop s.packer.n ++ [(s.packing i).inData], ?_, ?_⟩
        · rw [tailLen, length, List.length_append, List.length_drop, lanes, List.length_singleton]
          omega
        · rw [filling overflow.1 filled, taken, quiet, strobe, Packer.wd, List.flatten_append, List.flatten_singleton]
          simp only [List.append_assoc, List.nil_append]
          rw [← List.append_assoc (List.take _ _), List.take_append_drop]
    | false =>
      obtain ⟨offers, count, lanes'⟩ := Packer.step_rest clear input flush
      rw [offers, Bool.false_and] at overflow tailLen taken
      rw [Bool.or_false] at overflow
      rw [if_neg Bool.false_ne_true] at tailLen taken
      rw [List.append_nil] at taken
      refine ⟨by rw [packer, count]; exact few, fun some => ?_, fun whole none => ?_,
        fun whole some => ?_⟩
      · rw [tailLen] at some
        obtain ⟨held, -, done⟩ := closed some
        obtain ⟨quiet, done'⟩ := rests done
        exact ⟨by rw [packer, count, held], Producer.strobe_nil quiet, done'⟩
      · rw [filling (overflow.symm.trans whole) (tailLen.symm.trans none), taken, packer, count, lanes', strobe,
          List.append_nil]
      · rw [tailLen] at some
        obtain ⟨cut, short, flow⟩ := flushed (overflow.symm.trans whole) some
        obtain ⟨quiet, -⟩ := rests (closed some).2.2
        exact ⟨cut, by rw [tailLen, short], by rw [quiet, List.append_nil, taken, flow]⟩

end BenchPod.LaPipe
