import BenchPod.DacStream.Frames

/-!
# What holds of the sequencer's registers at every edge

The divider counts only between two frames, so the flags that are computed an edge ahead are current where they are read.
-/

namespace BenchPod.DacStream

/-- The registers of the state machine agree. -/
structure Sound (f : Fsm) : Prop where
  counts : f.st ≠ .idle → f.dz = false
  nonzero : f.dz = false → 1 ≤ f.divCnt
  small : f.divCnt < 65536
  pop : f.strmPop = true → f.st = .plw ∨ f.st = .shift
  stream : f.st = .plo ∨ f.st = .plw ∨ f.st = .phi → f.wfr = false
  awake : f.wpend = true → f.runI = true

theorem sound_first : Sound {} := ⟨fun other => absurd rfl other, nofun, by decide, nofun, nofun, nofun⟩

theorem lowBit_toNat (n : Nat) : (n % 2 == 1).toNat = n % 2 := by
  obtain even | odd := Nat.mod_two_eq_zero_or_one n
  · rw [even]
    rfl
  · rw [odd]
    rfl

theorem divReload_bounds (divider : Half) : 2 ≤ Engine.divReload divider ∧ Engine.divReload divider < 65536 := by
  have bound := divider.isLt
  rw [Engine.divReload]
  generalize divider.toNat = value at bound
  by_cases large : 4 ≤ value
  · simp only [large, decide_true, Bool.not_true, Bool.or_false, Bool.true_or, Bool.and_true, lowBit_toNat]
    omega
  · have low := Bool.toNat_le (value % 2 == 1 && value / 2 % 2 == 1)
    simp only [large, decide_false, Bool.not_false, Bool.or_true, Bool.toNat_true, Bool.false_or]
    omega

section Main

variable {e : Engine} {i : Ports}

theorem sound_slot {new : Fsm} (sound : Sound e.toFsm) (idle : new.st = .idle) (rest : new.wfr = false)
    (pop : new.strmPop = false) (wpend : new.wpend = e.wpend) (runI : new.runI = (e.running || e.wpend))
    (count : new.divCnt = e.divCnt) (dz : new.dz = true) : Sound (e.slot i new) := by
  obtain ⟨least, most⟩ := divReload_bounds i.ctl.divider
  obtain ⟨slot, pend⟩ | ⟨slot, pend, -⟩ | ⟨slot, -, -⟩ := @Engine.slot_cases e i new
  · rw [slot]
    refine ⟨fun _ => rfl, fun _ => Nat.le_of_succ_le least, most, fun up => ?_, nofun, nofun⟩
    exact absurd (pop.symm.trans up) Bool.false_ne_true
  · rw [slot]
    refine ⟨fun _ => rfl, fun _ => Nat.le_of_succ_le least, most, fun up => ?_, fun _ => rest, fun up => ?_⟩
    · exact absurd (pop.symm.trans up) Bool.false_ne_true
    · exact absurd ((wpend.trans pend).symm.trans up) Bool.false_ne_true
  · rw [slot]
    refine ⟨fun other => absurd idle other, fun low => ?_, count ▸ sound.small, fun up => ?_, fun _ => rest, fun up => ?_⟩
    · exact absurd (dz.symm.trans low) (Bool.noConfusion)
    · exact absurd (pop.symm.trans up) Bool.false_ne_true
    · rw [runI, ← wpend, up, Bool.or_true]

theorem Sound.main (sound : Sound e.toFsm) : Sound (e.main i) := by
  obtain ⟨least, most⟩ := divReload_bounds i.ctl.divider
  cases stop : i.stop with
  | true =>
    rw [Engine.main_stop stop]
    exact ⟨fun other => absurd rfl other, nofun, sound.small, nofun, nofun, fun up => up⟩
  | false =>
  cases start : i.start with
  | true =>
    rw [Engine.main_start stop start]
    exact ⟨fun other => absurd rfl other, fun _ => Nat.le_of_succ_le least, most, nofun, nofun, fun _ => rfl⟩
  | false =>
  cases on : e.runI with
  | false =>
    rw [Engine.main_off stop start on]
    exact ⟨sound.counts, sound.nonzero, sound.small, nofun, sound.stream, sound.awake⟩
  | true =>
  rw [Engine.main_on stop start on]
  have awake : e.wpend = true → e.runI = true := fun _ => on
  cases st : e.st with
  | idle =>
    rw [Engine.act_idle st]
    cases dz : e.dz with
    | true =>
      rw [if_pos rfl]
      exact sound_slot sound st rfl rfl rfl rfl rfl rfl
    | false =>
      rw [if_neg Bool.false_ne_true]
      have positive := sound.nonzero dz
      have small := sound.small
      refine ⟨fun other => absurd st other, fun more => ?_, Nat.mod_lt _ (by decide), nofun, fun _ => rfl, ?_⟩
      · have counting : e.divCnt ≠ 1 := by simpa using more
        show 1 ≤ (e.divCnt + 65535) % 65536
        omega
      · intro up
        show (e.running || e.wpend) = true
        rw [show e.wpend = true from up, Bool.or_true]
  | rdlo =>
    rw [Engine.act_rdlo st]
    exact ⟨fun _ => sound.counts (by simp [st]), sound.nonzero, sound.small, nofun, nofun, awake⟩
  | rdhi =>
    rw [Engine.act_rdhi st]
    exact ⟨fun _ => sound.counts (by simp [st]), sound.nonzero, sound.small, nofun, nofun, awake⟩
  | lat =>
    rw [Engine.act_lat st]
    exact ⟨fun _ => sound.counts (by simp [st]), sound.nonzero, sound.small, nofun, nofun, awake⟩
  | plo =>
    rw [Engine.act_plo st]
    have stream := sound.stream (.inl st)
    split
    · exact ⟨fun _ => sound.counts (by simp [st]), sound.nonzero, sound.small, fun _ => .inl rfl, fun _ => stream, awake⟩
    · exact ⟨fun _ => sound.counts (by simp [st]), sound.nonzero, sound.small, nofun, fun _ => stream, awake⟩
  | plw =>
    rw [Engine.act_plw st]
    have stream := sound.stream (.inr (.inl st))
    exact ⟨fun _ => sound.counts (by simp [st]), sound.nonzero, sound.small, nofun, fun _ => stream, awake⟩
  | phi =>
    rw [Engine.act_phi st]
    have stream := sound.stream (.inr (.inr st))
    split
    · exact ⟨fun _ => sound.counts (by simp [st]), sound.nonzero, sound.small, fun _ => .inr rfl, nofun, awake⟩
    · exact ⟨fun _ => sound.counts (by simp [st]), sound.nonzero, sound.small, nofun, fun _ => stream, awake⟩
  | shift =>
    rw [Engine.act_shift st]
    have counts := sound.counts (by simp [st])
    split
    · refine ⟨fun _ => counts, sound.nonzero, sound.small, nofun, fun stream => ?_, awake⟩
      revert stream
      show (if e.last then St.idle else St.shift) = .plo ∨ (if e.last then St.idle else St.shift) = .plw ∨
        (if e.last then St.idle else St.shift) = .phi → _
      cases e.last <;> exact nofun
    · refine ⟨fun _ => counts, sound.nonzero, sound.small, nofun, fun stream => ?_, awake⟩
      rw [show ({ e.toFsm with strmPop := false, din := e.sh.msb, sclk := true } : Fsm).st = .shift from st] at stream
      exact absurd stream (by simp)

theorem Sound.control (sound : Sound e.toFsm) : Sound (e.control i) := by
  obtain ⟨counts, nonzero, small, pop, stream, awake⟩ := @Sound.main e i sound
  refine ⟨counts, nonzero, small, pop, stream, fun up => ?_⟩
  obtain wait | request := Bool.or_eq_true_iff.mp up
  · exact Bool.or_eq_true_iff.mpr (.inl (awake wait))
  · exact Bool.or_eq_true_iff.mpr (.inr request)

theorem main_shift (st : e.st = .shift) (stop : i.stop = false) (start : i.start = false) (on : e.runI = true) :
    (e.main i).st = (if e.ph && e.last then .idle else .shift) ∧ (e.main i).wfr = e.wfr ∧ (e.main i).dz = e.dz := by
  rw [Engine.main_on stop start on, Engine.act_shift st]
  cases e.ph
  · exact ⟨st, rfl, rfl⟩
  · exact ⟨rfl, rfl, rfl⟩

end Main

/-- The registers of the sequencer agree. -/
structure Steady (b : Bench) : Prop where
  framed : Framed b
  sound : Sound b.e.toFsm
  slast : b.e.dz = true ∨ b.e.st ≠ .idle → b.e.slast = decide (b.e.sleft ≤ 1)
  fe : b.e.fe = (b.e.st == .shift && b.e.ph && b.e.last && !b.e.wfr)

theorem steady_first : Steady {} := ⟨framed_first, sound_first, fun _ => rfl, rfl⟩

variable {b : Bench} {i : Edge}

theorem index_flags {e : Engine} {i : Ports} : (e.index i).slast = decide (e.sleft ≤ 1) ∧
    (e.index i).fe = (!i.stop && !i.start && e.runI && e.st == .shift && !e.ph && e.last && !e.wfr) := by
  rw [Engine.index]
  split
  · exact ⟨rfl, rfl⟩
  · split
    · exact ⟨rfl, rfl⟩
    · split
      · split <;> exact ⟨rfl, rfl⟩
      · exact ⟨rfl, rfl⟩

theorem index_still {e : Engine} {i : Ports} (still : i.stop = true ∨ i.start = false ∧ e.fe = false) :
    (e.index i).sidx = e.sidx ∧ (e.index i).sleft = e.sleft := by
  rw [Engine.index]
  obtain stop | ⟨start, fe⟩ := still
  · rw [if_pos stop]
    exact ⟨rfl, rfl⟩
  · rw [if_neg (by simp [start] : ¬ i.start = true), if_neg (by simp [fe] : ¬ e.fe = true)]
    split <;> exact ⟨rfl, rfl⟩

theorem enters_shift (start : b.startP = false) (stop : i.stop = false) (other : b.e.st ≠ .shift)
    (enters : (b.step i).e.st = .shift) : (b.step i).e.ph = false := by
  have state : (b.e.main (b.ports i)).st = .shift := enters
  show (b.e.datapath (b.ports i)).ph = false
  cases on : b.e.runI with
  | false =>
    rw [@Engine.main_off b.e (b.ports i) stop start on] at state
    exact absurd state other
  | true =>
  rw [@Engine.main_on b.e (b.ports i) stop start on] at state
  cases st : b.e.st with
  | idle =>
    obtain ⟨-, -, idle | ⟨rdlo | plo, -⟩⟩ := @Engine.act_idle_pins b.e (b.ports i) { b.e.toFsm with strmPop := false } st st
    · exact nomatch idle.symm.trans state
    · exact nomatch rdlo.symm.trans state
    · exact nomatch plo.symm.trans state
  | rdlo => exact nomatch (congrArg Fsm.st (Engine.act_rdlo st)).symm.trans state
  | rdhi => exact nomatch (congrArg Fsm.st (Engine.act_rdhi st)).symm.trans state
  | plw => exact nomatch (congrArg Fsm.st (Engine.act_plw st)).symm.trans state
  | plo =>
    rw [Engine.act_plo st] at state
    split at state
    · exact nomatch state
    · exact absurd state other
  | phi =>
    cases valid : (b.ports i).strmValid with
    | true => rw [Engine.datapath_phi st valid]
    | false =>
      rw [Engine.act_phi st, valid, if_neg Bool.false_ne_true] at state
      exact absurd state other
  | lat => rw [Engine.datapath_lat st]
  | shift => exact absurd st other

theorem Steady.step (steady : Steady b) : Steady (b.step i) := by
  obtain ⟨framed, sound, slast, fe⟩ := steady
  have sound' : Sound (b.step i).e.toFsm := @Sound.control b.e (b.ports i) sound
  obtain ⟨ahead, flag⟩ := @index_flags b.e (b.ports i)
  refine ⟨framed.step, sound', fun seen => ahead.trans ?_, flag.trans ?_⟩
  · show decide (b.e.sleft ≤ 1) = decide ((b.e.index (b.ports i)).sleft ≤ 1)
    cases stop : i.stop with
    | true => rw [(@index_still b.e (b.ports i) (.inl stop)).2]
    | false =>
    cases start : b.startP with
    | true =>
      have main := @Engine.main_start b.e (b.ports i) stop start
      obtain zero | other := seen
      · exact absurd ((congrArg Fsm.dz main).symm.trans zero) Bool.false_ne_true
      · exact absurd (congrArg Fsm.st main) other
    | false =>
    cases ends : b.e.fe with
    | false => rw [(@index_still b.e (b.ports i) (.inr ⟨start, ends⟩)).2]
    | true =>
      -- a frame has just ended, and the divider has not run out
      simp only [fe, Bool.and_eq_true, beq_iff_eq] at ends
      obtain ⟨⟨⟨shift, half⟩, last⟩, -⟩ := ends
      obtain ⟨state, -, dz⟩ := @main_shift b.e (b.ports i) shift stop start (framed.on (by simp [shift]))
      rw [half, last] at state
      obtain zero | other := seen
      · exact absurd (((sound.counts (by simp [shift])).symm.trans dz.symm).trans zero) Bool.false_ne_true
      · exact absurd state other
  · cases stop : i.stop with
    | true =>
      rw [show (b.step i).e.st = .idle from congrArg Fsm.st (@Engine.main_stop b.e (b.ports i) stop)]
      simp [Bench.ports, stop]
    | false =>
    cases start : b.startP with
    | true =>
      rw [show (b.step i).e.st = .idle from congrArg Fsm.st (@Engine.main_start b.e (b.ports i) stop start)]
      simp [Bench.ports, start]
    | false =>
    by_cases shift : b.e.st = .shift
    · have on := framed.on (by simp [shift])
      obtain ⟨state, wfr, -⟩ := @main_shift b.e (b.ports i) shift stop start on
      have frame := @Engine.datapath_shift b.e (b.ports i) shift
      show _ = ((b.e.main (b.ports i)).st == .shift && (b.e.datapath (b.ports i)).ph &&
        (b.e.datapath (b.ports i)).last && !(b.e.main (b.ports i)).wfr)
      rw [state, wfr, frame, on, shift]
      cases ph : b.e.ph with
      | true => simp
      | false => simp [Bench.ports, stop, start]
    · rw [show (b.e.st == St.shift) = false from beq_false_of_ne shift]
      by_cases enters : (b.step i).e.st = .shift
      · rw [enters_shift start stop shift enters]
        simp
      · rw [show ((b.step i).e.st == St.shift) = false from beq_false_of_ne enters]
        simp

/-- A frame is in the shifter, or SYNC is about to rise over it. -/
def Shifter (b : Bench) : Prop := b.e.st = .shift ∨ b.e.st = .idle ∧ b.e.sync = false

/-- A frame gets into the shifter from either fetch, and stays there to its end. -/
theorem shifter_step (framed : Framed b) (shifter : Shifter (b.step i)) :
    i.stop = false ∧ b.startP = false ∧ b.e.runI = true ∧
      (b.e.st = .lat ∨ b.e.st = .phi ∧ i.valid = true ∨ b.e.st = .shift) := by
  have state : (b.e.main (b.ports i)).st = .shift ∨
    (b.e.main (b.ports i)).st = .idle ∧ (b.e.main (b.ports i)).sync = false := shifter
  cases stop : i.stop with
  | true =>
    rw [@Engine.main_stop b.e (b.ports i) stop] at state
    simp at state
  | false =>
  cases start : b.startP with
  | true =>
    rw [@Engine.main_start b.e (b.ports i) stop start] at state
    simp at state
  | false =>
  cases on : b.e.runI with
  | false =>
    rw [@Engine.main_off b.e (b.ports i) stop start on] at state
    have idle : b.e.st = .idle := by
      by_contra other
      exact Bool.false_ne_true (on.symm.trans (framed.on other))
    obtain shift | ⟨-, low⟩ := state
    · exact nomatch idle.symm.trans shift
    · exact absurd (on.symm.trans (framed.whole idle low).2.2) Bool.false_ne_true
  | true =>
  refine ⟨rfl, rfl, rfl, ?_⟩
  rw [@Engine.main_on b.e (b.ports i) stop start on] at state
  cases st : b.e.st with
  | idle =>
    obtain ⟨high, -, rest⟩ := @Engine.act_idle_pins b.e (b.ports i) { b.e.toFsm with strmPop := false } st st
    obtain shift | ⟨-, low⟩ := state
    · obtain idle | ⟨rdlo | plo, -⟩ := rest
      · exact nomatch idle.symm.trans shift
      · exact nomatch rdlo.symm.trans shift
      · exact nomatch plo.symm.trans shift
    · exact absurd (low.symm.trans high) Bool.false_ne_true
  | rdlo => simp [Engine.act_rdlo st] at state
  | rdhi => simp [Engine.act_rdhi st] at state
  | lat => exact .inl rfl
  | plo =>
    rw [Engine.act_plo st] at state
    split at state
    · simp at state
    · simp [st] at state
  | plw => simp [Engine.act_plw st] at state
  | phi =>
    rw [Engine.act_phi st] at state
    split at state
    · next valid => exact .inr (.inl ⟨rfl, valid⟩)
    · simp [st] at state
  | shift => exact .inr (.inr rfl)

/-- A step of the fetch from the stream, or one that is none. -/
theorem fetch_step (framed : Framed b) :
    (i.stop = false ∧ b.startP = false ∧
      (b.e.st = .plo ∧ i.valid = true ∧ (b.step i).e.st = .plw ∧ (b.step i).e.strmPop = true ∨
        b.e.st = .plw ∧ (b.step i).e.st = .phi ∧ (b.step i).e.strmPop = false ∨
        b.e.st = .phi ∧ i.valid = false ∧ (b.step i).e.st = .phi ∧ (b.step i).e.strmPop = false ∨
        b.e.st = .phi ∧ i.valid = true ∧ (b.step i).e.st = .shift ∧ (b.step i).e.strmPop = true)) ∨
    ((b.step i).e.st ≠ .plw ∧ (b.step i).e.st ≠ .phi ∧ (b.step i).e.strmPop = false ∧
      (b.e.st = .plw ∨ b.e.st = .phi → i.stop = true ∨ b.startP = true)) := by
  have leaves (main : Fsm) (same : b.e.main (b.ports i) = main) (plw : main.st ≠ .plw) (phi : main.st ≠ .phi)
      (pop : main.strmPop = false) :
      (b.step i).e.st ≠ .plw ∧ (b.step i).e.st ≠ .phi ∧ (b.step i).e.strmPop = false := by
    show (b.e.main (b.ports i)).st ≠ .plw ∧ (b.e.main (b.ports i)).st ≠ .phi ∧ (b.e.main (b.ports i)).strmPop = false
    rw [same]
    exact ⟨plw, phi, pop⟩
  cases stop : i.stop with
  | true =>
    obtain ⟨plw, phi, pop⟩ := leaves _ (@Engine.main_stop b.e (b.ports i) stop) nofun nofun rfl
    exact .inr ⟨plw, phi, pop, fun _ => .inl rfl⟩
  | false =>
  cases start : b.startP with
  | true =>
    obtain ⟨plw, phi, pop⟩ := leaves _ (@Engine.main_start b.e (b.ports i) stop start) nofun nofun rfl
    exact .inr ⟨plw, phi, pop, fun _ => .inr rfl⟩
  | false =>
  cases on : b.e.runI with
  | false =>
    have idle : b.e.st = .idle := by
      by_contra other
      exact Bool.false_ne_true (on.symm.trans (framed.on other))
    obtain ⟨plw, phi, pop⟩ := leaves _ (@Engine.main_off b.e (b.ports i) stop start on) (by simp [idle]) (by simp [idle]) rfl
    exact .inr ⟨plw, phi, pop, by simp [idle]⟩
  | true =>
  have main := @Engine.main_on b.e (b.ports i) stop start on
  cases st : b.e.st with
  | idle =>
    obtain ⟨-, -, rest⟩ := @Engine.act_idle_pins b.e (b.ports i) { b.e.toFsm with strmPop := false } st st
    obtain ⟨plw, phi, pop⟩ := leaves _ main (by
      obtain idle | ⟨rdlo | plo, -⟩ := rest
      · simp [idle]
      · simp [rdlo]
      · simp [plo]) (by
      obtain idle | ⟨rdlo | plo, -⟩ := rest
      · simp [idle]
      · simp [rdlo]
      · simp [plo]) (Engine.act_idle_pop st rfl)
    exact .inr ⟨plw, phi, pop, by simp⟩
  | rdlo =>
    obtain ⟨plw, phi, pop⟩ := leaves _ (main.trans (Engine.act_rdlo st)) nofun nofun rfl
    exact .inr ⟨plw, phi, pop, by simp⟩
  | rdhi =>
    obtain ⟨plw, phi, pop⟩ := leaves _ (main.trans (Engine.act_rdhi st)) nofun nofun rfl
    exact .inr ⟨plw, phi, pop, by simp⟩
  | lat =>
    obtain ⟨plw, phi, pop⟩ := leaves _ (main.trans (Engine.act_lat st)) nofun nofun rfl
    exact .inr ⟨plw, phi, pop, by simp⟩
  | plw =>
    have act := main.trans (Engine.act_plw st)
    exact .inl ⟨rfl, rfl, .inr (.inl ⟨rfl, congrArg Fsm.st act, congrArg Fsm.strmPop act⟩)⟩
  | plo =>
    cases valid : i.valid with
    | true =>
      have act := main.trans ((Engine.act_plo st).trans (if_pos valid))
      exact .inl ⟨rfl, rfl, .inl ⟨rfl, rfl, congrArg Fsm.st act, congrArg Fsm.strmPop act⟩⟩
    | false =>
      obtain ⟨plw, phi, pop⟩ := leaves _ (main.trans ((Engine.act_plo st).trans (if_neg (by simp [Bench.ports, valid]))))
        (by simp [st]) (by simp [st]) rfl
      exact .inr ⟨plw, phi, pop, by simp⟩
  | phi =>
    cases valid : i.valid with
    | true =>
      have act := main.trans ((Engine.act_phi st).trans (if_pos valid))
      exact .inl ⟨rfl, rfl, .inr (.inr (.inr ⟨rfl, rfl, congrArg Fsm.st act, congrArg Fsm.strmPop act⟩))⟩
    | false =>
      have act := main.trans ((Engine.act_phi st).trans (if_neg (by simp [Bench.ports, valid])))
      exact .inl ⟨rfl, rfl, .inr (.inr (.inl ⟨rfl, rfl, (congrArg Fsm.st act).trans st, congrArg Fsm.strmPop act⟩))⟩
  | shift =>
    have act := main.trans (Engine.act_shift st)
    cases ph : b.e.ph with
    | false =>
      obtain ⟨plw, phi, pop⟩ := leaves _ (act.trans (if_neg (by simp [ph]))) (by simp [st]) (by simp [st]) rfl
      exact .inr ⟨plw, phi, pop, by simp⟩
    | true =>
      obtain ⟨plw, phi, pop⟩ := leaves _ (act.trans (if_pos ph)) (by cases b.e.last <;> simp)
        (by cases b.e.last <;> simp) rfl
      exact .inr ⟨plw, phi, pop, by simp⟩

theorem steady_run (edges : List Edge) : Steady (sequencer.run {} edges) := by
  have all := sequencer.along_true {} edges
  exact all.invariant _ Steady (fun steady _ => steady.step) steady_first

end BenchPod.DacStream
