import BenchPod.DacPsram.Burst

/-!
# The prefetch FIFO of the deep-replay reader

The pointers are counters taken modulo 64.  The committed bytes are the next bytes of a stream, and the bytes of
the burst in flight lie behind them until the burst is kept or dropped.
-/

namespace BenchPod.DacPsram

/-- The FIFO holds the bytes of the stream from `rd` to `w`, and the burst in flight up to `s`; the bytes popped
are the stream up to the head. -/
structure Stocked (src : Nat → Byte) (popped : List Byte) (rd w s : Nat) (q : Fifo) : Prop where
  rptr : q.rptr = rd % 64
  rptr1 : q.rptr1 = (rd + 1) % 64
  wptr : q.wptr = w % 64
  wsp : q.wsp = s % 64
  read_le : rd ≤ w
  commit_le : w ≤ s
  room : s ≤ rd + 32
  neR : q.neR = decide (rd < w)
  specNz : q.specNz = decide (w < s)
  content : ∀ i, rd ≤ i → i < w → q.fmem (i % 32) = src i
  head : q.doutVld = true → 1 ≤ rd ∧ q.dout = src (rd - 1)
  popped_eq : popped = (List.range (rd - q.doutVld.toNat)).map src

/-- The bytes of the burst in flight are those of the stream as well. -/
def Ahead (src : Nat → Byte) (w s : Nat) (q : Fifo) : Prop := ∀ i, w ≤ i → i < s → q.fmem (i % 32) = src i

section Ticks

variable {src : Nat → Byte} {popped : List Byte} {rd w s : Nat} {q : Fifo} {serial : Serial}

theorem Stocked.fetch_iff (stocked : Stocked src popped rd w s q) : q.fetch = true ↔ q.doutVld = false ∧ rd < w := by
  rw [Fifo.fetch, stocked.neR]
  simp

theorem Stocked.occS_eq (stocked : Stocked src popped rd w s q) : q.occS = s - rd := by
  have := stocked.read_le
  have := stocked.commit_le
  have := stocked.room
  rw [Fifo.occS, stocked.wsp, stocked.rptr]
  omega

theorem Stocked.no_fault (stocked : Stocked src popped rd w s q) (space : serial.push = true → s < rd + 32) :
    q.fault serial = false := by
  rw [Fifo.fault, Bool.or_eq_false_iff, stocked.occS_eq]
  constructor
  · rw [Bool.and_eq_false_imp]
    intro push
    have := space push
    exact decide_eq_false (by omega)
  · rw [Bool.and_eq_false_imp]
    intro fetch
    have below := (stocked.fetch_iff.mp fetch).2
    have := stocked.commit_le
    have := stocked.room
    rw [stocked.wptr, stocked.rptr]
    exact decide_eq_false (by omega)

theorem Stocked.neR_edge {w' : Nat} (pop : Bool) (stocked : Stocked src popped rd w s q) (published : w ≤ w')
    (commits : (serial.cmtP && q.specNz) = decide (w < w')) :
    (q.tick true serial pop).neR = decide (rd + q.fetch.toNat < w') := by
  have read_le := stocked.read_le
  have commit_le := stocked.commit_le
  have room := stocked.room
  show (serial.cmtP && q.specNz || q.neR && !(q.fetch && decide (q.rptr1 = q.wptr))) = _
  rw [commits, stocked.neR, stocked.rptr1, stocked.wptr]
  rcases Bool.eq_false_or_eq_true q.fetch with fetch | still
  · have below := (stocked.fetch_iff.mp fetch).2
    rw [fetch, Bool.eq_iff_iff]
    simp only [Bool.true_and, Bool.toNat_true, Bool.or_eq_true, Bool.and_eq_true, Bool.not_eq_true', decide_eq_true_eq,
      decide_eq_false_iff_not]
    omega
  · rw [still, Bool.eq_iff_iff]
    simp only [Bool.false_and, Bool.not_false, Bool.and_true, Bool.toNat_false, Bool.or_eq_true, decide_eq_true_eq]
    omega

/-- An edge of a running FIFO: the DAC's side moves by at most one byte, whatever the other side publishes. -/
theorem Stocked.edge {w' s' : Nat} (pop : Bool) (stocked : Stocked src popped rd w s q)
    (wptr : (q.tick true serial pop).wptr = w' % 64) (wsp : (q.tick true serial pop).wsp = s' % 64)
    (published : w ≤ w') (behind : w' ≤ s') (room : s' ≤ rd + 32)
    (specNz : (q.tick true serial pop).specNz = decide (w' < s'))
    (commits : (serial.cmtP && q.specNz) = decide (w < w'))
    (content : ∀ i, rd ≤ i → i < w' → (q.tick true serial pop).fmem (i % 32) = src i) :
    Stocked src (popped ++ q.taken pop) (rd + q.fetch.toNat) w' s' (q.tick true serial pop) := by
  have neR := stocked.neR_edge pop published commits
  rcases Bool.eq_false_or_eq_true q.fetch with fetch | still
  · obtain ⟨empty, below⟩ := stocked.fetch_iff.mp fetch
    have none_taken : q.taken pop = [] := by rw [Fifo.taken, empty]; rfl
    have filled : (q.tick true serial pop).doutVld = true := by
      show (q.fetch || _) = true
      rw [fetch, Bool.true_or]
    rw [fetch] at neR ⊢
    rw [none_taken, List.append_nil]
    refine ⟨?_, ?_, wptr, wsp, Nat.le_trans below published, behind, ?_, neR, specNz, ?_, fun _ => ⟨?_, ?_⟩, ?_⟩
    · show (if q.fetch then q.rptr1 else q.rptr) = _
      rw [if_pos fetch, stocked.rptr1]
      rfl
    · show (if q.fetch then (q.rptr1 + 1) % 64 else q.rptr1) = _
      rw [if_pos fetch, stocked.rptr1]
      exact Nat.mod_add_mod _ _ _
    · exact Nat.le_trans room (Nat.add_le_add_right (Nat.le_succ rd) 32)
    · intro i low high
      exact content i (Nat.le_of_succ_le low) high
    · exact Nat.succ_le_succ (Nat.zero_le rd)
    · show (if q.fetch then q.fmem (q.rptr % 32) else q.dout) = src rd
      rw [if_pos fetch, stocked.rptr, Nat.mod_mod_of_dvd _ (by decide)]
      exact stocked.content rd (Nat.le_refl rd) below
    · rw [filled, stocked.popped_eq, empty]
      rfl
  · have rptr : (q.tick true serial pop).rptr = rd % 64 := by
      show (if q.fetch then q.rptr1 else q.rptr) = _
      rw [still]
      exact stocked.rptr
    have dout : (q.tick true serial pop).dout = q.dout := by
      show (if q.fetch then q.fmem (q.rptr % 32) else q.dout) = _
      rw [still]
      rfl
    have doutVld : (q.tick true serial pop).doutVld = (q.doutVld && !pop) := by
      show (q.fetch || _) = _
      rw [still, Bool.false_or]
    rw [still] at neR ⊢
    refine ⟨rptr, ?_, wptr, wsp, Nat.le_trans stocked.read_le published, behind, room, neR, specNz, content, ?_, ?_⟩
    · show (if q.fetch then (q.rptr1 + 1) % 64 else q.rptr1) = _
      rw [still]
      exact stocked.rptr1
    · rw [doutVld, dout, Bool.and_eq_true]
      exact fun full => stocked.head full.1
    · rw [doutVld, Fifo.taken, stocked.popped_eq]
      cases full : q.doutVld with
      | false => simp
      | true =>
        obtain ⟨some_read, head⟩ := stocked.head full
        cases pop with
        | false => simp
        | true =>
          have last : List.range rd = List.range (rd - 1) ++ [rd - 1] := by
            rw [← List.range_succ, Nat.succ_eq_add_one, Nat.sub_add_cancel some_read]
          simp [last, head]

theorem Stocked.quiet (pop : Bool) (stocked : Stocked src popped rd w s q) (push : serial.push = false)
    (cmtP : serial.cmtP = false) (abtP : serial.abtP = false) :
    Stocked src (popped ++ q.taken pop) (rd + q.fetch.toNat) w s (q.tick true serial pop) ∧
      (q.tick true serial pop).fmem = q.fmem := by
  have fmem : (q.tick true serial pop).fmem = q.fmem := by simp [Fifo.tick, push]
  refine ⟨stocked.edge pop ?_ ?_ (Nat.le_refl w) stocked.commit_le stocked.room ?_ ?_ ?_, fmem⟩
  · simp [Fifo.tick, cmtP, stocked.wptr]
  · simp [Fifo.tick, push, abtP, stocked.wsp]
  · simp [Fifo.tick, push, cmtP, abtP, stocked.specNz]
  · simp [cmtP]
  · rw [fmem]
    exact stocked.content

theorem Stocked.pushed (pop : Bool) (stocked : Stocked src popped rd w s q) (push : serial.push = true)
    (cmtP : serial.cmtP = false) (abtP : serial.abtP = false) (space : s < rd + 32) :
    Stocked src (popped ++ q.taken pop) (rd + q.fetch.toNat) w (s + 1) (q.tick true serial pop) ∧
      (q.tick true serial pop).fmem = Function.update q.fmem (s % 32) serial.pushByte := by
  have fmem : (q.tick true serial pop).fmem = Function.update q.fmem (s % 32) serial.pushByte := by
    simp [Fifo.tick, push, stocked.wsp, Nat.mod_mod_of_dvd]
  have commit_le := stocked.commit_le
  refine ⟨stocked.edge pop ?_ ?_ (Nat.le_refl w) (Nat.le_succ_of_le commit_le) space ?_ ?_ ?_, fmem⟩
  · simp [Fifo.tick, cmtP, stocked.wptr]
  · simp [Fifo.tick, push, abtP, stocked.wsp]
  · simp only [Fifo.tick, push]
    simp
    omega
  · simp [cmtP]
  · intro i low high
    rw [fmem, Function.update_of_ne]
    · exact stocked.content i low high
    · omega

theorem Stocked.committed (pop : Bool) (stocked : Stocked src popped rd w s q) (push : serial.push = false)
    (cmtP : serial.cmtP = true) (abtP : serial.abtP = false) (ahead : Ahead src w s q) :
    Stocked src (popped ++ q.taken pop) (rd + q.fetch.toNat) s s (q.tick true serial pop) := by
  have fmem : (q.tick true serial pop).fmem = q.fmem := by simp [Fifo.tick, push]
  refine stocked.edge pop ?_ ?_ stocked.commit_le (Nat.le_refl s) stocked.room ?_ ?_ ?_
  · simp [Fifo.tick, cmtP, stocked.wsp]
  · simp [Fifo.tick, push, abtP, stocked.wsp]
  · simp [Fifo.tick, push, cmtP]
  · simp [cmtP, stocked.specNz]
  · intro i low high
    rw [fmem]
    rcases Nat.lt_or_ge i w with old | new
    · exact stocked.content i low old
    · exact ahead i new high

theorem Stocked.aborted (pop : Bool) (stocked : Stocked src popped rd w s q) (push : serial.push = false)
    (cmtP : serial.cmtP = false) (abtP : serial.abtP = true) :
    Stocked src (popped ++ q.taken pop) (rd + q.fetch.toNat) w w (q.tick true serial pop) := by
  have commit_le := stocked.commit_le
  refine stocked.edge pop ?_ ?_ (Nat.le_refl w) (Nat.le_refl w) (Nat.le_trans commit_le stocked.room) ?_ ?_ ?_
  · simp [Fifo.tick, cmtP, stocked.wptr]
  · simp [Fifo.tick, abtP, stocked.wptr]
  · simp [Fifo.tick, push, abtP]
  · simp [cmtP]
  · simpa [Fifo.tick, push] using stocked.content

theorem Stocked.roomOk48 (pop : Bool) (stocked : Stocked src popped rd w s q) (en : Bool)
    (room : (q.tick en serial pop).roomOk48 = true) : s < rd + 24 := by
  have tested : (q.tick en serial pop).roomOk48 = decide (q.occS < 32 - chunkBytes) := by cases en <;> rfl
  rw [tested, decide_eq_true_iff, stocked.occS_eq, show 32 - chunkBytes = 24 from rfl] at room
  omega

theorem Ahead.pushed {q' : Fifo} (ahead : Ahead src w s q) (space : s < w + 32) {byte : Byte} (right : byte = src s)
    (fmem : q'.fmem = Function.update q.fmem (s % 32) byte) : Ahead src w (s + 1) q' := by
  intro i low high
  rw [fmem]
  obtain earlier | rfl := Nat.lt_succ_iff_lt_or_eq.mp high
  · rw [Function.update_of_ne]
    · exact ahead i low earlier
    · omega
  · rw [Function.update_self, right]

theorem Ahead.of_fmem {q' : Fifo} (ahead : Ahead src w s q) (fmem : q'.fmem = q.fmem) : Ahead src w s q' := by
  intro i low high
  rw [fmem]
  exact ahead i low high

end Ticks

section Cycles

variable {src : Nat → Byte} {popped : List Byte} {rd w s : Nat} {q : Fifo} {serial serial' : Serial}

/-- The FIFO after two edges, the first of them quiet. -/
def Fifo.twice (q : Fifo) (serial serial' : Serial) (pop pop' : Bool) : Fifo :=
  (q.tick true serial pop).tick true serial' pop'

/-- What the DAC pops on two edges. -/
def Fifo.takenTwice (q : Fifo) (serial : Serial) (pop pop' : Bool) : List Byte :=
  q.taken pop ++ (q.tick true serial pop).taken pop'

/-- The books after two edges. -/
structure Served (src : Nat → Byte) (popped : List Byte) (rd w s : Nat) (q : Fifo) (serial serial' : Serial)
    (pop pop' : Bool) (rd' : Nat) : Prop where
  later : rd ≤ rd'
  stocked : Stocked src (popped ++ q.takenTwice serial pop pop') rd' w s (q.twice serial serial' pop pop')
  sound : (q.fault serial || (q.tick true serial pop).fault serial') = false

theorem Stocked.twice_quiet (pop pop' : Bool) (stocked : Stocked src popped rd w s q) (quiet : serial.Quiet) (quiet' : serial'.Quiet) :
    ∃ rd', Served src popped rd w s q serial serial' pop pop' rd' ∧ (q.twice serial serial' pop pop').fmem = q.fmem ∧
      ((q.twice serial serial' pop pop').roomOk48 = true → s < rd' + 24) := by
  obtain ⟨first, same⟩ := stocked.quiet pop quiet.push quiet.cmtP quiet.abtP
  obtain ⟨second, same'⟩ := first.quiet pop' quiet'.push quiet'.cmtP quiet'.abtP
  rw [List.append_assoc] at second
  refine ⟨_, ⟨by omega, second, ?_⟩, same'.trans same, fun room => ?_⟩
  · rw [stocked.no_fault (fun push => by rw [quiet.push] at push; cases push),
      first.no_fault (fun push => by rw [quiet'.push] at push; cases push)]
    rfl
  · have := first.roomOk48 pop' true room
    omega

theorem Stocked.twice_pushed (pop pop' : Bool) (stocked : Stocked src popped rd w s q) (quiet : serial.Quiet)
    (push : serial'.push = true) (cmtP : serial'.cmtP = false) (abtP : serial'.abtP = false) (space : s < rd + 32) :
    ∃ rd', Served src popped rd w (s + 1) q serial serial' pop pop' rd' ∧
      (q.twice serial serial' pop pop').fmem = Function.update q.fmem (s % 32) serial'.pushByte := by
  obtain ⟨first, same⟩ := stocked.quiet pop quiet.push quiet.cmtP quiet.abtP
  have space' : s < rd + q.fetch.toNat + 32 := by omega
  obtain ⟨second, update⟩ := first.pushed pop' push cmtP abtP space'
  rw [List.append_assoc] at second
  refine ⟨_, ⟨by omega, second, ?_⟩, by rw [Fifo.twice, update, same]⟩
  rw [stocked.no_fault (fun push => by rw [quiet.push] at push; cases push), first.no_fault fun _ => space']
  rfl

theorem Stocked.twice_committed (pop pop' : Bool) (stocked : Stocked src popped rd w s q) (quiet : serial.Quiet)
    (push : serial'.push = false) (cmtP : serial'.cmtP = true) (abtP : serial'.abtP = false) (ahead : Ahead src w s q) :
    ∃ rd', Served src popped rd s s q serial serial' pop pop' rd' ∧
      ((q.twice serial serial' pop pop').roomOk48 = true → s < rd' + 24) := by
  obtain ⟨first, same⟩ := stocked.quiet pop quiet.push quiet.cmtP quiet.abtP
  have second := first.committed pop' push cmtP abtP (ahead.of_fmem same)
  rw [List.append_assoc] at second
  refine ⟨_, ⟨by omega, second, ?_⟩, fun room => ?_⟩
  · rw [stocked.no_fault (fun push => by rw [quiet.push] at push; cases push),
      first.no_fault (fun pushes => by rw [push] at pushes; cases pushes)]
    rfl
  · have := first.roomOk48 pop' true room
    omega

theorem Stocked.twice_aborted (pop pop' : Bool) (stocked : Stocked src popped rd w s q) (quiet : serial.Quiet)
    (push : serial'.push = false) (cmtP : serial'.cmtP = false) (abtP : serial'.abtP = true) :
    ∃ rd', Served src popped rd w w q serial serial' pop pop' rd' ∧
      ((q.twice serial serial' pop pop').roomOk48 = true → w < rd' + 24) := by
  obtain ⟨first, same⟩ := stocked.quiet pop quiet.push quiet.cmtP quiet.abtP
  have second := first.aborted pop' push cmtP abtP
  have behind := stocked.commit_le
  rw [List.append_assoc] at second
  refine ⟨_, ⟨by omega, second, ?_⟩, fun room => ?_⟩
  · rw [stocked.no_fault (fun push => by rw [quiet.push] at push; cases push),
      first.no_fault (fun pushes => by rw [push] at pushes; cases pushes)]
    rfl
  · have := first.roomOk48 pop' true room
    omega

end Cycles

end BenchPod.DacPsram
