import BenchPod.DacStream.Engine

/-!
# Frames of 24 bits

What a step does in each state of the sequencer, and from it what the DAC gets between a fall and a rise of SYNC.
-/

namespace BenchPod.DacStream

namespace Engine

variable {e : Engine} {i : Ports}

theorem main_stop (stop : i.stop = true) :
    e.main i = { e.toFsm with
      strmPop := false, st := .idle, running := false, sync := true, sclk := false, dz := true, runI := e.wpend } := by
  rw [main, if_pos stop]

theorem main_start (stop : i.stop = false) (start : i.start = true) :
    e.main i = { e.toFsm with
      strmPop := false
      running := true
      runI := true
      sync := true
      sclk := false
      divCnt := divReload i.ctl.divider
      dz := false
      st := .idle } := by
  rw [main, if_neg (by simp [stop]), if_pos start]

theorem main_off (stop : i.stop = false) (start : i.start = false) (off : e.runI = false) :
    e.main i = { e.toFsm with strmPop := false } := by
  rw [main, if_neg (by simp [stop]), if_neg (by simp [start]), if_neg (by simp [off])]

theorem main_on (stop : i.stop = false) (start : i.start = false) (on : e.runI = true) :
    e.main i = e.act i { e.toFsm with strmPop := false } := by
  rw [main, if_neg (by simp [stop]), if_neg (by simp [start]), if_pos on]

section Act

variable {new : Fsm}

theorem act_idle (st : e.st = .idle) :
    e.act i new =
      if e.dz then e.slot i { new with sync := true, sclk := false, wfr := false, runI := e.running || e.wpend }
      else
        { new with
          sync := true
          sclk := false
          wfr := false
          runI := e.running || e.wpend
          divCnt := (e.divCnt + 65535) % 65536
          dz := e.divCnt == 1 } := by
  rw [act, st]

theorem act_rdlo (st : e.st = .rdlo) : e.act i new = { new with st := .rdhi } := by rw [act, st]

theorem act_rdhi (st : e.st = .rdhi) : e.act i new = { new with st := .lat } := by rw [act, st]

theorem act_lat (st : e.st = .lat) : e.act i new = { new with sync := false, st := .shift } := by rw [act, st]

theorem act_plo (st : e.st = .plo) :
    e.act i new = if i.strmValid then { new with sync := true, sclk := false, strmPop := true, st := .plw }
      else { new with sync := true, sclk := false } := by
  rw [act, st]

theorem act_plw (st : e.st = .plw) : e.act i new = { new with st := .phi } := by rw [act, st]

theorem act_phi (st : e.st = .phi) :
    e.act i new = if i.strmValid then { new with strmPop := true, sync := false, st := .shift } else new := by
  rw [act, st]

theorem act_shift (st : e.st = .shift) :
    e.act i new = if e.ph then { new with sclk := false, st := if e.last then .idle else .shift }
      else { new with din := e.sh.msb, sclk := true } := by
  rw [act, st]
  cases e.ph <;> rfl

theorem act_kept (other : e.st ≠ .idle) : (e.act i new).wfr = new.wfr ∧ (e.act i new).wpend = new.wpend ∧
    (e.act i new).dz = new.dz ∧ (e.act i new).divCnt = new.divCnt := by
  cases st : e.st with
  | idle => exact absurd st other
  | rdlo => rw [act_rdlo st]; exact ⟨rfl, rfl, rfl, rfl⟩
  | rdhi => rw [act_rdhi st]; exact ⟨rfl, rfl, rfl, rfl⟩
  | lat => rw [act_lat st]; exact ⟨rfl, rfl, rfl, rfl⟩
  | plo => rw [act_plo st]; split <;> exact ⟨rfl, rfl, rfl, rfl⟩
  | plw => rw [act_plw st]; exact ⟨rfl, rfl, rfl, rfl⟩
  | phi => rw [act_phi st]; split <;> exact ⟨rfl, rfl, rfl, rfl⟩
  | shift => rw [act_shift st]; split <;> exact ⟨rfl, rfl, rfl, rfl⟩

theorem slot_cases :
    e.slot i new = { new with divCnt := divReload i.ctl.divider, dz := false, wpend := false, wfr := true, st := .rdlo } ∧
        e.wpend = true ∨
      e.slot i new = { new with
          divCnt := divReload i.ctl.divider, dz := false, st := if i.psramMode then .plo else .rdlo } ∧
        e.wpend = false ∧ e.running = true ∨
      e.slot i new = new ∧ e.wpend = false ∧ e.running = false := by
  rw [slot]
  cases wpend : e.wpend with
  | true => exact .inl ⟨rfl, rfl⟩
  | false =>
    cases running : e.running with
    | true => exact .inr (.inl ⟨rfl, rfl, rfl⟩)
    | false => exact .inr (.inr ⟨rfl, rfl, rfl⟩)

theorem act_idle_pins (st : e.st = .idle) (rest : new.st = .idle) :
    (e.act i new).sync = true ∧ (e.act i new).sclk = false ∧
      ((e.act i new).st = .idle ∨ ((e.act i new).st = .rdlo ∨ (e.act i new).st = .plo) ∧ (e.act i new).runI = true) := by
  rw [act_idle st]
  split
  · obtain ⟨slot, wpend⟩ | ⟨slot, -, running⟩ | ⟨slot, -⟩ := @slot_cases e i
      { new with sync := true, sclk := false, wfr := false, runI := e.running || e.wpend }
    · rw [slot]
      exact ⟨rfl, rfl, .inr ⟨.inl rfl, by simp [wpend]⟩⟩
    · rw [slot]
      refine ⟨rfl, rfl, .inr ⟨?_, by simp [running]⟩⟩
      cases i.psramMode
      · exact .inl rfl
      · exact .inr rfl
    · rw [slot]
      exact ⟨rfl, rfl, .inl rest⟩
  · exact ⟨rfl, rfl, .inl rest⟩

theorem act_idle_pop (st : e.st = .idle) (pop : new.strmPop = false) : (e.act i new).strmPop = false := by
  rw [act_idle st]
  split
  · obtain ⟨slot, -⟩ | ⟨slot, -⟩ | ⟨slot, -⟩ := @slot_cases e i
      { new with sync := true, sclk := false, wfr := false, runI := e.running || e.wpend }
    all_goals
      rw [slot]
      exact pop
  · exact pop

end Act

theorem datapath_idle (st : e.st = .idle) (dz : e.dz = true) :
    e.datapath i = { e.toDatapath with waveAddr := 2 * e.sidx % 4096 } := by
  simp only [datapath, st, dz, if_true]

theorem datapath_rdlo (st : e.st = .rdlo) : e.datapath i = { e.toDatapath with waveAddr := 2 * e.sidx % 4096 + 1 } := by
  simp only [datapath, st]

theorem datapath_rdhi (st : e.st = .rdhi) : e.datapath i = { e.toDatapath with lo := i.waveData } := by
  simp only [datapath, st]

theorem datapath_plo (st : e.st = .plo) (valid : i.strmValid = true) :
    e.datapath i = { e.toDatapath with lo := i.strmData } := by
  simp only [datapath, st, valid, if_true]

theorem datapath_plw (st : e.st = .plw) : e.datapath i = e.toDatapath := by simp only [datapath, st]

theorem datapath_phi (st : e.st = .phi) (valid : i.strmValid = true) :
    e.datapath i =
      { e.toDatapath with sh := i.ctl.ctrl ++ (i.strmData ++ e.lo), bitc := 0, last := false, ph := false } := by
  simp only [datapath, st, valid, if_true]

theorem datapath_stall (st : e.st = .phi) (valid : i.strmValid = false) : e.datapath i = e.toDatapath := by
  simp [datapath, st, valid]

theorem datapath_lat (st : e.st = .lat) :
    e.datapath i =
      { e.toDatapath with
        sh := if e.wfr then i.wrFrame else i.ctl.ctrl ++ (i.waveData ++ e.lo)
        bitc := 0
        last := false
        ph := false } := by
  simp only [datapath, st]

theorem datapath_shift (st : e.st = .shift) :
    e.datapath i =
      if e.ph then
        { e.toDatapath with ph := false, sh := e.sh <<< 1, bitc := (e.bitc + 1) % 32, last := e.bitc == 22 }
      else { e.toDatapath with ph := true } := by
  simp only [datapath, st]

end Engine

/-- The sequencer, its pins and the DAC's shift register go together. -/
structure Framed (b : Bench) : Prop where
  on : b.e.st ≠ .idle → b.e.runI = true
  high : b.e.st ≠ .shift → b.e.st ≠ .idle → b.e.sync = true
  silent : b.e.sync = true → b.dac = [] ∧ b.e.sclk = false
  whole : b.e.st = .idle → b.e.sync = false → b.dac = frameBits b.word ∧ b.e.sclk = false ∧ b.e.runI = true
  shifting : b.e.st = .shift → b.e.sync = false ∧ b.e.bitc < 24 ∧ b.dac = (frameBits b.word).take b.e.bitc ∧
    b.e.sh = b.word <<< b.e.bitc ∧ b.e.sclk = b.e.ph ∧ (b.e.ph = true → b.e.din = b.word.getMsbD b.e.bitc) ∧
    b.e.last = decide (b.e.bitc = 23)

theorem framed_rest {b : Bench} (st : b.e.st = .idle) (sync : b.e.sync = true) (sclk : b.e.sclk = false)
    (dac : b.dac = []) : Framed b := by
  refine ⟨?_, ?_, fun _ => ⟨dac, sclk⟩, ?_, ?_⟩
  · exact fun other => absurd st other
  · exact fun _ other => absurd st other
  · exact fun _ low => absurd (sync.symm.trans low) (by decide)
  · exact fun other => absurd (st.symm.trans other) (by decide)

theorem framed_high {b : Bench} (idle : b.e.st ≠ .idle) (shift : b.e.st ≠ .shift) (on : b.e.runI = true)
    (sync : b.e.sync = true) (sclk : b.e.sclk = false) (dac : b.dac = []) : Framed b :=
  ⟨fun _ => on, fun _ _ => sync, fun _ => ⟨dac, sclk⟩, fun other => absurd other idle, fun other => absurd other shift⟩

variable {b : Bench} {i : Edge}

theorem step_dac_high (high : (b.step i).e.sync = true) : (b.step i).dac = [] := if_pos high

theorem frameBits_length (word : BitVec 24) : (frameBits word).length = 24 := rfl

theorem frameBits_take_succ {word : BitVec 24} {n : Nat} (more : n < 24) :
    (frameBits word).take n ++ [word.getMsbD n] = (frameBits word).take (n + 1) := by
  have at_n : (frameBits word)[n]? = some (word.getMsbD n) := by
    rw [frameBits, List.getElem?_map, List.getElem?_range more]
    rfl
  rw [List.take_add_one, at_n]
  rfl

theorem msb_shiftLeft (word : BitVec 24) (n : Nat) : (word <<< n).msb = word.getMsbD n := by
  rw [BitVec.msb, BitVec.getMsbD_shiftLeft, Nat.zero_add]

theorem Framed.step (framed : Framed b) : Framed (b.step i) := by
  cases stop : i.stop with
  | true =>
    have main := @Engine.main_stop b.e (b.ports i) stop
    have sync : (b.step i).e.sync = true := congrArg Fsm.sync main
    exact framed_rest (congrArg Fsm.st main) sync (congrArg Fsm.sclk main) (step_dac_high sync)
  | false =>
  cases start : b.startP with
  | true =>
    have main := @Engine.main_start b.e (b.ports i) stop start
    have sync : (b.step i).e.sync = true := congrArg Fsm.sync main
    exact framed_rest (congrArg Fsm.st main) sync (congrArg Fsm.sclk main) (step_dac_high sync)
  | false =>
  cases on : b.e.runI with
  | false =>
    have main := @Engine.main_off b.e (b.ports i) stop start on
    have idle : b.e.st = .idle := by
      by_contra other
      exact Bool.false_ne_true (on.symm.trans (framed.on other))
    have high : b.e.sync = true := by
      by_contra low
      exact Bool.false_ne_true (on.symm.trans (framed.whole idle (by simpa using low)).2.2)
    have sync : (b.step i).e.sync = true := (congrArg Fsm.sync main).trans high
    exact framed_rest ((congrArg Fsm.st main).trans idle) sync
      ((congrArg Fsm.sclk main).trans (framed.silent high).2) (step_dac_high sync)
  | true =>
  have main := @Engine.main_on b.e (b.ports i) stop start on
  have runs (kept : (b.e.main (b.ports i)).runI = true) : (b.step i).e.runI = true := by
    show ((b.e.main (b.ports i)).runI || b.wrP) = true
    rw [kept, Bool.true_or]
  -- a fetch goes on with SYNC high
  have fetches (st' : St) (next : b.e.main (b.ports i) = { b.e.toFsm with strmPop := false, st := st' })
      (idle : b.e.st ≠ .idle) (shift : b.e.st ≠ .shift) (idle' : st' ≠ .idle) (shift' : st' ≠ .shift) :
      Framed (b.step i) := by
    have high := framed.high shift idle
    have sync : (b.step i).e.sync = true := (congrArg Fsm.sync next).trans high
    have state : (b.step i).e.st = st' := congrArg Fsm.st next
    exact framed_high (state ▸ idle') (state ▸ shift') (runs ((congrArg Fsm.runI next).trans on)) sync
      ((congrArg Fsm.sclk next).trans (framed.silent high).2) (step_dac_high sync)
  -- a load brings SYNC down
  have loads (word : BitVec 24) (next : (b.e.main (b.ports i)).st = .shift ∧ (b.e.main (b.ports i)).sync = false ∧
      (b.e.main (b.ports i)).sclk = false ∧ (b.e.main (b.ports i)).runI = true) (high : b.e.sync = true)
      (frame : b.e.datapath (b.ports i) = { b.e.toDatapath with sh := word, bitc := 0, last := false, ph := false })
      (loaded : b.e.st = .lat ∨ b.e.st = .phi ∧ i.valid = true) : Framed (b.step i) := by
    obtain ⟨state, sync, sclk, kept⟩ := next
    have same : (b.step i).word = word := by
      show (if b.e.st = .lat ∨ b.e.st = .phi ∧ i.valid = true then (b.e.datapath (b.ports i)).sh else b.word) = word
      rw [if_pos loaded, frame]
    have dac : (b.step i).dac = [] := by
      show (if (b.e.main (b.ports i)).sync then [] else if b.e.sclk && _ then _ else b.dac) = []
      rw [sync, (framed.silent high).1, (framed.silent high).2]
      rfl
    have data : (b.step i).e.toDatapath = b.e.datapath (b.ports i) := rfl
    refine ⟨fun _ => runs kept, fun other => absurd state other, ?_, ?_, fun _ => ⟨sync, ?_⟩⟩
    · exact fun up => absurd (up.symm.trans sync) (by decide)
    · exact fun other => absurd (state.symm.trans other) (by decide)
    · have bitc : (b.step i).e.bitc = 0 := congrArg Datapath.bitc frame
      have ph : (b.step i).e.ph = false := congrArg Datapath.ph frame
      refine ⟨by rw [bitc]; decide, by rw [dac, bitc]; rfl, ?_, ?_, fun half => ?_, ?_⟩
      · rw [bitc, same, BitVec.shiftLeft_zero]
        exact congrArg Datapath.sh frame
      · exact sclk.trans ph.symm
      · exact absurd (half.symm.trans ph) (by decide)
      · rw [bitc]
        exact congrArg Datapath.last frame
  cases st : b.e.st with
  | idle =>
    obtain ⟨high, low, next⟩ := @Engine.act_idle_pins b.e (b.ports i) { b.e.toFsm with strmPop := false } st st
    rw [← main] at high low next
    obtain idle | ⟨fetch, kept⟩ := next
    · exact framed_rest idle high low (step_dac_high high)
    · refine framed_high ?_ ?_ (runs kept) high low (step_dac_high high)
      · intro other
        obtain rdlo | plo := fetch
        · exact nomatch rdlo.symm.trans other
        · exact nomatch plo.symm.trans other
      · intro other
        obtain rdlo | plo := fetch
        · exact nomatch rdlo.symm.trans other
        · exact nomatch plo.symm.trans other
  | rdlo => exact fetches .rdhi (main.trans (Engine.act_rdlo st)) (by simp [st]) (by simp [st]) nofun nofun
  | rdhi => exact fetches .lat (main.trans (Engine.act_rdhi st)) (by simp [st]) (by simp [st]) nofun nofun
  | plw => exact fetches .phi (main.trans (Engine.act_plw st)) (by simp [st]) (by simp [st]) nofun nofun
  | plo =>
    have act := main.trans (Engine.act_plo st)
    have pins : (b.e.main (b.ports i)).sync = true ∧ (b.e.main (b.ports i)).sclk = false ∧
        (b.e.main (b.ports i)).runI = true ∧
        ((b.e.main (b.ports i)).st = .plw ∨ (b.e.main (b.ports i)).st = .plo) := by
      rw [act]
      split
      · exact ⟨rfl, rfl, on, .inl rfl⟩
      · exact ⟨rfl, rfl, on, .inr st⟩
    obtain ⟨high, low, kept, state⟩ := pins
    refine framed_high ?_ ?_ (runs kept) high low (step_dac_high high)
    · intro other
      obtain plw | plo := state
      · exact nomatch plw.symm.trans other
      · exact nomatch plo.symm.trans other
    · intro other
      obtain plw | plo := state
      · exact nomatch plw.symm.trans other
      · exact nomatch plo.symm.trans other
  | phi =>
    have act := main.trans (Engine.act_phi st)
    cases valid : i.valid with
    | false =>
      rw [show (b.ports i).strmValid = i.valid from rfl, valid, if_neg Bool.false_ne_true] at act
      exact fetches b.e.st act (by simp [st]) (by simp [st]) (by simp [st]) (by simp [st])
    | true =>
      rw [show (b.ports i).strmValid = i.valid from rfl, valid, if_pos rfl] at act
      have high := framed.high (by simp [st]) (by simp [st])
      refine loads (b.ctl.ctrl ++ ((b.ports i).strmData ++ b.e.lo)) ?_ high ?_ (.inr ⟨st, valid⟩)
      · rw [act]
        exact ⟨rfl, rfl, (framed.silent high).2, on⟩
      · exact Engine.datapath_phi st valid
  | lat =>
    have act := main.trans (Engine.act_lat st)
    have high := framed.high (by simp [st]) (by simp [st])
    refine loads (if b.e.wfr then b.wrFrame else b.ctl.ctrl ++ (b.wave ++ b.e.lo)) ?_ high ?_ (.inl st)
    · rw [act]
      exact ⟨rfl, rfl, (framed.silent high).2, on⟩
    · exact Engine.datapath_lat st
  | shift =>
    obtain ⟨low, few, dac, sh, sclk, din, last⟩ := framed.shifting st
    have act := main.trans (Engine.act_shift st)
    have word : (b.step i).word = b.word := by
      show (if b.e.st = .lat ∨ b.e.st = .phi ∧ i.valid = true then _ else b.word) = b.word
      rw [if_neg (by simp [st])]
    have kept : (b.e.main (b.ports i)).runI = true := by
      rw [act]
      split <;> exact on
    have sync : (b.step i).e.sync = false := by
      show (b.e.main (b.ports i)).sync = false
      rw [act]
      split <;> exact low
    have shifted : (b.step i).dac = if b.e.sclk && !(b.step i).e.sclk then b.dac ++ [(b.step i).e.din] else b.dac := by
      show (if (b.step i).e.sync then [] else _) = _
      rw [sync, if_neg Bool.false_ne_true]
      rfl
    have frame := @Engine.datapath_shift b.e (b.ports i) st
    have silent : (b.step i).e.sync ≠ true := by simp [sync]
    cases ph : b.e.ph with
    | false =>
      rw [ph, if_neg Bool.false_ne_true] at act frame
      have state : (b.step i).e.st = .shift := (congrArg Fsm.st act).trans st
      obtain ⟨bitc, held, lasts, half⟩ : (b.step i).e.bitc = b.e.bitc ∧ (b.step i).e.sh = b.e.sh ∧
          (b.step i).e.last = b.e.last ∧ (b.step i).e.ph = true := by
        show (b.e.datapath (b.ports i)).bitc = _ ∧ (b.e.datapath (b.ports i)).sh = _ ∧
          (b.e.datapath (b.ports i)).last = _ ∧ (b.e.datapath (b.ports i)).ph = true
        rw [frame]
        exact ⟨rfl, rfl, rfl, rfl⟩
      refine ⟨fun _ => runs kept, fun other => absurd state other, fun up => absurd up silent, ?_, fun _ => ?_⟩
      · exact fun other => absurd (state.symm.trans other) (by decide)
      · refine ⟨sync, by rw [bitc]; exact few, ?_, ?_, ?_, ?_, ?_⟩
        · rw [shifted, sclk, ph, word, bitc]
          exact dac
        · rw [word, bitc, held]
          exact sh
        · exact (congrArg Fsm.sclk act).trans half.symm
        · intro _
          rw [word, bitc, ← msb_shiftLeft, ← sh]
          exact congrArg Fsm.din act
        · rw [bitc, lasts]
          exact last
    | true =>
      rw [ph, if_pos rfl] at act frame
      have clock : (b.step i).e.sclk = false := congrArg Fsm.sclk act
      have bit : (b.step i).e.din = b.word.getMsbD b.e.bitc := (congrArg Fsm.din act).trans (din ph)
      have longer : (b.step i).dac = (frameBits b.word).take (b.e.bitc + 1) := by
        rw [shifted, sclk, ph, clock, bit, dac, frameBits_take_succ few]
        rfl
      have bitc : (b.step i).e.bitc = b.e.bitc + 1 := by
        refine (congrArg Datapath.bitc frame).trans ?_
        show (b.e.bitc + 1) % 32 = b.e.bitc + 1
        omega
      have state : (b.step i).e.st = if b.e.last then .idle else .shift := congrArg Fsm.st act
      rw [last] at state
      refine ⟨fun _ => runs kept, fun shift idle => ?_, fun up => absurd up silent, fun idle _ => ?_, fun shift => ?_⟩
      · rw [state] at shift idle
        split at shift
        · next done => exact absurd (if_pos done) idle
        · exact absurd rfl shift
      · rw [state] at idle
        split at idle
        · next done =>
            rw [longer, word, of_decide_eq_true done]
            exact ⟨rfl, clock, runs kept⟩
        · exact nomatch idle
      · rw [state] at shift
        split at shift
        · exact nomatch shift
        · next more =>
            have more : b.e.bitc ≠ 23 := fun done => more (decide_eq_true done)
            refine ⟨sync, by rw [bitc]; omega, by rw [longer, word, bitc], ?_, ?_, ?_, ?_⟩
            · rw [bitc, word, BitVec.shiftLeft_add, ← sh]
              exact congrArg Datapath.sh frame
            · exact clock.trans (congrArg Datapath.ph frame).symm
            · exact fun half => absurd (half.symm.trans (congrArg Datapath.ph frame)) Bool.noConfusion
            · rw [bitc]
              refine (congrArg Datapath.last frame).trans ?_
              show (b.e.bitc == 22) = decide (b.e.bitc + 1 = 23)
              rw [Bool.eq_iff_iff, beq_iff_eq, decide_eq_true_iff]
              omega

theorem framed_first : Framed {} := framed_rest rfl rfl rfl rfl

theorem Framed.sent (framed : Framed b) (stop : i.stop = false) (start : b.startP = false) :
    b.sent i = if b.e.st = .idle ∧ b.e.sync = false then
      some ⟨frameBits b.word, false, if b.e.wfr then some b.shId else none⟩ else none := by
  rw [Bench.sent]
  cases low : b.e.sync with
  | true => simp
  | false =>
  by_cases idle : b.e.st = .idle
  · obtain ⟨dac, -, on⟩ := framed.whole idle low
    have main := @Engine.main_on b.e (b.ports i) stop start on
    obtain ⟨high, -, -⟩ := @Engine.act_idle_pins b.e (b.ports i) { b.e.toFsm with strmPop := false } idle idle
    rw [← main] at high
    rw [show (b.step i).e.sync = true from high, dac, stop, start, idle]
    simp
  · have main := @Engine.main_on b.e (b.ports i) stop start (framed.on idle)
    have shift : b.e.st = .shift := by
      by_contra fetch
      exact Bool.false_ne_true (low.symm.trans (framed.high fetch idle))
    have act := main.trans (Engine.act_shift shift)
    have stays : (b.step i).e.sync = false := by
      show (b.e.main (b.ports i)).sync = false
      rw [act]
      split <;> exact low
    rw [stays, if_neg (by simp), if_neg (by simp [idle])]

theorem uncut_edge {frame : Sent} (sent : b.sent i = some frame) (uncut : frame.cut = false) :
    i.stop = false ∧ b.startP = false := by
  rw [Bench.sent] at sent
  split at sent
  · rw [← Option.some.inj sent] at uncut
    exact Bool.or_eq_false_iff.mp uncut
  · exact nomatch sent

end BenchPod.DacStream
