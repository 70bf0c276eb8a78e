import BenchPod.DacLoop.Window

/-!
# Frames of one value

The sequencer takes the low byte of a frame first.  As long as it and the loop are set back together, the loop's byte
select is up exactly between the two pops, and the value of the frame does not move there.
-/

namespace BenchPod.DacLoop

open DacStream

/-- The sequencer has taken the low byte of a frame and not the high byte. -/
def MidFrame (b : Top) : Prop := b.bench.e.st = .plw ∨ b.bench.e.st = .phi

/-- A start or a stop sets the sequencer back in the middle of a frame while the loop stays armed, or the loop is armed
there without one. -/
def Splits (b : Top) (i : Input) : Prop :=
  (b.step i).armed = true ∧ MidFrame b ∧ (b.armed = true ↔ i.stop = true ∨ b.bench.startP = true)

/-- The loop and the sequencer agree on the byte that is next, and the frame in the shifter is one value. -/
structure Aligned (b : Top) : Prop where
  steady : Steady b.bench
  popping : b.bench.e.st = .plw → b.bench.e.strmPop = true
  select : b.armed = true → b.producer.byteSel = (b.bench.e.st == .phi || (b.bench.e.st == .shift && b.bench.e.strmPop))
  low : b.armed = true → MidFrame b → b.bench.e.lo = b.producer.vf.extractLsb' 0 8
  value : b.tick.v ∈ b.held
  frame : b.producer.vf ∈ b.held
  shown : b.bench.e.st = .shift ∨ b.bench.e.st = .idle ∧ b.bench.e.sync = false → ∀ values, b.shows = some values →
    b.bench.e.wfr = false ∧ ∃ ctrl : Byte, ∃ value ∈ values, b.bench.word = ctrl ++ value

theorem aligned_first : Aligned {} where
  steady := steady_first
  popping := nofun
  select := nofun
  low := nofun
  value := List.mem_singleton.mpr rfl
  frame := List.mem_singleton.mpr rfl
  shown _ _ none := nomatch none

theorem halves_append (value : Half) : value.extractLsb' 8 8 ++ value.extractLsb' 0 8 = value := by
  rw [BitVec.extractLsb'_append_extractLsb'_eq_extractLsb' (show 8 = 0 + 8 from rfl)]
  exact BitVec.extractLsb'_eq_self

variable {b : Top} {i : Input}

/-- The values of `v` and of the frame are among those that were held. -/
theorem held_step (value : b.tick.v ∈ b.held) (frame : b.producer.vf ∈ b.held) :
    (b.step i).tick.v ∈ (b.step i).held ∧ (b.step i).producer.vf ∈ (b.step i).held := by
  show (b.tick.step (b.ports i)).v ∈ (if !b.armed then [(b.tick.step (b.ports i)).v] else
      if b.tick.st = .clamp then (b.tick.step (b.ports i)).v :: b.held else b.held) ∧
    (b.producer.step (b.ports i) b.tick.v).vf ∈ (if !b.armed then [(b.tick.step (b.ports i)).v] else
      if b.tick.st = .clamp then (b.tick.step (b.ports i)).v :: b.held else b.held)
  cases on : b.armed with
  | false =>
    have off : (b.ports i).arm = false := on
    rw [Tick.step, Producer.step, off, if_neg Bool.false_ne_true]
    exact ⟨List.mem_singleton.mpr rfl, List.mem_singleton.mpr rfl⟩
  | true =>
    have up : (b.ports i).arm = true := on
    have kept : (b.producer.step (b.ports i) b.tick.v).vf ∈ b.held := by
      rw [Producer.step, up, Bool.not_true, if_neg Bool.false_ne_true]
      split
      · show (if b.producer.byteSel then b.tick.v else b.producer.vf) ∈ b.held
        split
        · exact value
        · exact frame
      · exact frame
    rw [Bool.not_true, if_neg Bool.false_ne_true]
    split
    · exact ⟨List.mem_cons_self .., List.mem_cons_of_mem _ kept⟩
    · next other =>
        refine ⟨?_, kept⟩
        rw [Tick.step, up, if_pos rfl]
        have still : (b.tick.act (b.ports i)).v = b.tick.v := by
          cases st : b.tick.st with
          | clamp => exact absurd st other
          | idle =>
            rw [Tick.act, st]
            cases b.tick.tickZ <;> rfl
          | imul | idx | rdlo | rdhi | asm | mul | mac | upd | cmp => rw [Tick.act, st]
        rw [still]
        exact value

/-- The byte select follows a fetch of the sequencer. -/
theorem Aligned.select_step (aligned : Aligned b) (together : ¬ Splits b i) (armed : (b.step i).armed = true) :
    (b.step i).producer.byteSel =
        ((b.step i).bench.e.st == .phi || ((b.step i).bench.e.st == .shift && (b.step i).bench.e.strmPop)) ∧
      (MidFrame (b.step i) → (b.step i).bench.e.lo = (b.step i).producer.vf.extractLsb' 0 8) := by
  have popped : b.bench.e.strmPop = true → b.bench.e.st = .plw ∨ b.bench.e.st = .shift := aligned.steady.sound.pop
  have select := aligned.select
  have apart (middle : MidFrame b) : ¬ (b.armed = true ↔ i.stop = true ∨ b.bench.startP = true) :=
    fun same => together ⟨armed, middle, same⟩
  have producer : (b.step i).producer = b.producer.step (b.ports i) b.tick.v := rfl
  have moves := @fetch_step b.bench (b.edge i) aligned.steady.framed
  have bench : (b.step i).bench = b.bench.step (b.edge i) := rfl
  cases on : b.armed with
  | false =>
    -- nothing is fetched from a loop that is not armed
    have rests : (b.step i).producer.byteSel = false := by
      rw [producer, Producer.step, if_pos (by simp [Top.ports, on])]
    rw [rests, bench]
    obtain ⟨stop, start, fetches⟩ | ⟨plw, phi, pop, -⟩ := moves
    · have stop : i.stop = false := stop
      have alone : ¬ (i.stop = true ∨ b.bench.startP = true) := by simp [stop, start]
      have valid : (b.edge i).valid = false := on
      obtain ⟨-, yes, -⟩ | ⟨plw, -⟩ | ⟨phi, -⟩ | ⟨-, yes, -⟩ := fetches
      · exact absurd (valid.symm.trans yes) Bool.false_ne_true
      · exact absurd ⟨fun up => absurd (on.symm.trans up) Bool.false_ne_true, fun set => absurd set alone⟩ (apart (.inl plw))
      · exact absurd ⟨fun up => absurd (on.symm.trans up) Bool.false_ne_true, fun set => absurd set alone⟩ (apart (.inr phi))
      · exact absurd (valid.symm.trans yes) Bool.false_ne_true
    · rw [beq_false_of_ne phi, pop]
      refine ⟨by simp, fun middle => ?_⟩
      obtain now | now := middle
      · exact absurd now plw
      · exact absurd now phi
  | true =>
    have valid : (b.edge i).valid = true := on
    have select := select on
    have next : (b.step i).producer = if b.bench.e.strmPop then
          { byteSel := !b.producer.byteSel, vf := if b.producer.byteSel then b.tick.v else b.producer.vf }
        else b.producer := by
      rw [producer, Producer.step, if_neg (by simp [Top.ports, on])]
      simp [Top.ports, on]
    rw [next, bench]
    obtain ⟨stop, start, fetches⟩ | ⟨plw, phi, pop, back⟩ := moves
    · obtain ⟨plo, -, state, pop⟩ | ⟨plw, state, pop⟩ | ⟨-, no, -⟩ | ⟨phi, -, state, pop⟩ := fetches
      · have still : b.bench.e.strmPop = false := by
          by_contra popping
          obtain now | now := popped (by simpa using popping)
          · cases plo.symm.trans now
          · cases plo.symm.trans now
        rw [plo] at select
        have low : (b.bench.step (b.edge i)).e.lo = b.producer.strmData := by
          refine (congrArg Datapath.lo (Engine.datapath_plo plo valid)).trans ?_
          simp [Bench.ports, Source.bytes, Top.edge, on]
        rw [still, if_neg Bool.false_ne_true, state, low, Producer.strmData, select]
        exact ⟨rfl, fun _ => rfl⟩
      · have popping := aligned.popping plw
        rw [plw] at select
        have low : (b.bench.step (b.edge i)).e.lo = b.bench.e.lo := by
          show (b.bench.e.datapath (b.bench.ports (b.edge i))).lo = b.bench.e.lo
          rw [Engine.datapath_plw plw]
        rw [popping, if_pos rfl, state, select, low]
        exact ⟨rfl, fun _ => aligned.low on (.inl plw)⟩
      · exact absurd (no.symm.trans valid) Bool.false_ne_true
      · have still : b.bench.e.strmPop = false := by
          by_contra popping
          obtain now | now := popped (by simpa using popping)
          · cases phi.symm.trans now
          · cases phi.symm.trans now
        rw [phi] at select
        rw [still, if_neg Bool.false_ne_true, state, pop, select]
        refine ⟨rfl, fun middle => ?_⟩
        obtain now | now := middle
        · cases state.symm.trans now
        · cases state.symm.trans now
    · have between : ¬ MidFrame b := fun middle => apart middle ⟨fun _ => back middle, fun _ => on⟩
      obtain ⟨noPlw, noPhi⟩ := not_or.mp between
      refine ⟨?_, fun middle => ?_⟩
      · rw [beq_false_of_ne phi, pop, Bool.and_false, Bool.false_or]
        rw [beq_false_of_ne noPhi, Bool.false_or] at select
        cases popping : b.bench.e.strmPop with
        | false => rw [if_neg Bool.false_ne_true, select, popping, Bool.and_false]
        | true =>
          have shift := (popped popping).resolve_left noPlw
          rw [if_pos rfl, select, popping, shift]
          rfl
      · obtain now | now := middle
        · exact absurd now plw
        · exact absurd now phi

theorem Aligned.shown_step (aligned : Aligned b) (shifter : Shifter (b.step i).bench) {values : List Half}
    (shows : (b.step i).shows = some values) :
    (b.step i).bench.e.wfr = false ∧ ∃ ctrl : Byte, ∃ value ∈ values, (b.step i).bench.word = ctrl ++ value := by
  have bench : (b.step i).bench = b.bench.step (b.edge i) := rfl
  rw [bench] at shifter ⊢
  obtain ⟨stop, start, on, from_state⟩ := shifter_step aligned.steady.framed shifter
  have static (busy : b.bench.e.st ≠ .idle) : (b.bench.step (b.edge i)).e.wfr = b.bench.e.wfr := by
    show (b.bench.e.main (b.bench.ports (b.edge i))).wfr = b.bench.e.wfr
    rw [@Engine.main_on b.bench.e (b.bench.ports (b.edge i)) stop start on, (Engine.act_kept busy).1]
  have shown : (b.step i).shows = if b.bench.e.st = .phi ∧ b.armed then some b.held
      else if b.bench.e.st = .lat then none else b.shows := rfl
  rw [shown] at shows
  obtain lat | ⟨phi, valid⟩ | shift := from_state
  · rw [if_neg (by simp [lat]), if_pos lat] at shows
    exact nomatch shows
  · have armed : b.armed = true := valid
    rw [if_pos ⟨phi, armed⟩] at shows
    obtain rfl := Option.some.inj shows
    have select := aligned.select armed
    rw [phi] at select
    have low := aligned.low armed (.inr phi)
    refine ⟨(static (by simp [phi])).trans (aligned.steady.sound.stream (.inr (.inr phi))), ?_⟩
    refine ⟨b.bench.ctl.ctrl, b.producer.vf, aligned.frame, ?_⟩
    have word : (b.bench.step (b.edge i)).word = (b.bench.step (b.edge i)).e.sh := if_pos (.inr ⟨phi, valid⟩)
    have sh : (b.bench.step (b.edge i)).e.sh =
        b.bench.ctl.ctrl ++ ((b.bench.ports (b.edge i)).strmData ++ b.bench.e.lo) :=
      congrArg Datapath.sh (Engine.datapath_phi phi valid)
    have high : (b.bench.ports (b.edge i)).strmData = b.producer.vf.extractLsb' 8 8 := by
      simp [Bench.ports, Source.bytes, Top.edge, armed, Producer.strmData, select]
    rw [word, sh, high, low, halves_append]
  · rw [if_neg (by simp [shift]), if_neg (by simp [shift])] at shows
    obtain ⟨stream, ctrl, value, member, word⟩ := aligned.shown (.inl shift) values shows
    have same : (b.bench.step (b.edge i)).word = b.bench.word := if_neg (by simp [shift])
    rw [same]
    exact ⟨(static (by simp [shift])).trans stream, ctrl, value, member, word⟩

theorem Aligned.step (aligned : Aligned b) (together : ¬ Splits b i) : Aligned (b.step i) where
  steady := aligned.steady.step
  popping plw := by
    obtain ⟨-, -, fetches⟩ | ⟨other, -⟩ := @fetch_step b.bench (b.edge i) aligned.steady.framed
    · obtain ⟨-, -, -, pop⟩ | ⟨-, state, -⟩ | ⟨-, -, state, -⟩ | ⟨-, -, state, -⟩ := fetches
      · exact pop
      · exact nomatch plw.symm.trans state
      · exact nomatch plw.symm.trans state
      · exact nomatch plw.symm.trans state
    · exact absurd plw other
  select armed := (aligned.select_step together armed).1
  low armed := (aligned.select_step together armed).2
  value := (held_step aligned.value aligned.frame).1
  frame := (held_step aligned.value aligned.frame).2
  shown shifter _ shows := aligned.shown_step shifter shows

section Run

variable {inputs : List Input}

theorem windowed_run (loads : loop.Along Loads {} inputs) : Windowed (loop.run {} inputs) :=
  loads.invariant _ Windowed (fun windowed allowed => windowed.step allowed) windowed_first

theorem looked_run {curve : Nat → Byte} (same : loop.Along (fun _ i => i.curve = curve) {} inputs) :
    Looked curve (loop.run {} inputs) :=
  same.invariant _ (Looked curve) (fun looked allowed => looked.step allowed) (looked_idle rfl)

theorem trip_run (trip : b.tick.tripL = true) {later : List Input}
    (armed : loop.Along (fun b _ => b.armed = true) b later) : (loop.run b later).tick.tripL = true := by
  refine armed.invariant _ (fun b => b.tick.tripL = true) (fun {b i} trip on => ?_) trip
  show (b.tick.step (b.ports i)).tripL = true
  rw [Tick.step, if_pos (show (b.ports i).arm = true from on)]
  exact Tick.tripL_act trip

theorem frames_whole (together : loop.Along (fun b i => ¬ Splits b i) {} inputs) :
    ∀ entry ∈ loop.emitted {} inputs, entry.1.cut = false → ∀ values, entry.2 = some values →
      entry.1.static = none ∧ ∃ ctrl : Byte, ∃ value ∈ values, entry.1.bits = frameBits (ctrl ++ value) := by
  refine together.emitted_forall _ Aligned (fun aligned allowed => aligned.step allowed) ?_ aligned_first
  rintro b i aligned - entry sent uncut values shows
  have sent : (b.bench.sent (b.edge i)).map (fun frame => (frame, b.shows)) = some entry := sent
  obtain ⟨frame, rises, rfl⟩ := Option.map_eq_some_iff.mp sent
  obtain ⟨stop, start⟩ := uncut_edge rises uncut
  rw [aligned.steady.framed.sent stop start] at rises
  split at rises
  · next falls =>
      obtain ⟨stream, ctrl, value, member, word⟩ := aligned.shown (.inr falls) values shows
      rw [← Option.some.inj rises, stream, word]
      exact ⟨rfl, ctrl, value, member, rfl⟩
  · exact nomatch rises

end Run

/-- A tick commits in this clock. -/
def Commits (b : Top) : Prop := b.armed = true ∧ b.tick.st = .clamp

/-- While the loop is armed its value is in the window; what a tick commits is not past the target, which is the curve's
entry at its index, or the lower bound once a trip is latched, until the loop is disarmed; and a frame taken from the loop
is one of the values it has held. -/
theorem loop_windowed (inputs : List Input) (loads : loop.Along Loads {} inputs) :
    let b := loop.run {} inputs
    (b.armed = true → b.cfg.vmin.toNat ≤ b.tick.v.toNat ∧ b.tick.v.toNat ≤ b.cfg.vmax.toNat) ∧
      (Commits b → ∀ i,
        let v := (b.step i).tick.v
        (b.cfg.vmin.toNat ≤ v.toNat ∧ v.toNat ≤ b.cfg.vmax.toNat) ∧ (b.tick.tripL = true → v = b.cfg.vmin) ∧
          (b.tick.tripL = false → Between b.tick.v.toNat b.tick.target.toNat v.toNat)) ∧
      (b.tick.tripL = true → ∀ later, loop.Along (fun b _ => b.armed = true) b later →
        (loop.run b later).tick.tripL = true) ∧
      (∀ curve, loop.Along (fun _ i => i.curve = curve) {} inputs → Commits b →
        b.tick.target = curve (2 * (b.tick.lutRaddr / 2) + 1) ++ curve (2 * (b.tick.lutRaddr / 2))) ∧
      (loop.Along (fun b i => ¬ Splits b i) {} inputs →
        ∀ entry ∈ loop.emitted {} inputs, entry.1.cut = false → ∀ values, entry.2 = some values →
          entry.1.static = none ∧ ∃ ctrl : Byte, ∃ value ∈ values, entry.1.bits = frameBits (ctrl ++ value)) := by
  intro b
  have windowed : Windowed b := windowed_run loads
  refine ⟨fun armed => ?_, fun commits i => ?_, fun trip later armed => trip_run trip armed, fun curve same commits => ?_,
    frames_whole⟩
  · exact ⟨(windowed.pipeline armed).low, (windowed.pipeline armed).high⟩
  · have tick : (b.step i).tick = b.tick.act (b.ports i) := if_pos commits.1
    intro v
    rw [show v = (b.tick.act (b.ports i)).v from congrArg Tick.v tick]
    exact @Tick.Pipeline.commit b.tick (b.ports i) (windowed.pipeline commits.1) commits.2
  · exact (looked_run same).entry (.inr (.inr (.inr (.inr commits.2))))

/-- An edge of a loop that keeps its mode. -/
def keeps (mode : Bool) : Input where
  mode := mode
  curve _ := 0

theorem keeps_loads (mode : Bool) (n : Nat) (b : Top) : loop.Along Loads b (List.replicate n (keeps mode)) := by
  induction n generalizing b with
  | zero => exact trivial
  | succ n ih => exact ⟨fun _ none => (nomatch none), ih _⟩

/-- Settings whose window is one value. -/
def oneValue : Params := ⟨1, 0x1234, 0x1234, 8, 0, 0, 0⟩

/-- The loop is armed while a waveform plays. -/
def armed : List Input :=
  { keeps false with start := some { period := 1 } } :: List.replicate 70 (keeps false) ++
    { keeps true with load := some oneValue.arm } :: List.replicate 41 (keeps true)

theorem armed_loads : loop.Along Loads {} armed := by
  refine (loop.along_append _ _).mpr ⟨⟨fun _ none => (nomatch none), keeps_loads ..⟩, ⟨?_, keeps_loads ..⟩⟩
  rintro arm load
  obtain rfl := Option.some.inj load
  exact ⟨by decide +kernel, by decide +kernel, oneValue, oneValue, rfl, rfl⟩

theorem loop_windowed_armed :
    (loop.run {} armed).armed = true ∧ 0x1234 ≤ (loop.run {} armed).tick.v.toNat ∧
      (loop.run {} armed).tick.v.toNat ≤ 0x1234 := by
  have armed : (loop.run {} armed).armed = true ∧ (loop.run {} armed).cfg = oneValue.arm := by decide +kernel
  have window := (loop_windowed _ armed_loads).1 armed.1
  rw [armed.2] at window
  exact ⟨armed.1, window⟩

/-- A start that was staged comes between the two bytes of a frame: the frames after it have their bytes swapped. -/
theorem start_splits :
    let inputs := armed ++ { keeps true with start := some {} } :: List.replicate 60 (keeps true)
    loop.Along Loads {} inputs ∧
      (⟨frameBits 0x003412, false, none⟩, some [0x1234, 0x1234, 0x1234]) ∈ loop.emitted {} inputs := by
  intro inputs
  refine ⟨(loop.along_append _ _).mpr ⟨armed_loads, ⟨fun _ none => (nomatch none), keeps_loads ..⟩⟩, ?_⟩
  decide +kernel

end BenchPod.DacLoop
