import BenchPod.DacStream.Steady

/-!
# The samples of a playback

From a start on, the place in the waveform and the bytes taken from the stream follow the number of samples that were
shifted out, whatever static frames come between them.
-/

namespace BenchPod.DacStream

/-- What an edge of a playback brings: neither a start nor a stop, and the same source. -/
def Plays (source : Source) (b : Bench) (i : Edge) : Prop := i.stop = false ∧ b.startP = false ∧ i.source = source

/-- What has been fetched of sample `n`, and what the frame holds that is shifted out. -/
def Fetched (source : Source) (ctl : Ctl) (n : Nat) (b : Bench) : Prop :=
  match b.e.st with
  | .idle => b.e.sync = false → b.e.wfr = false → ∃ k, n = k + 1 ∧ b.word = ctl.ctrl ++ sample source ctl.period k
  | .rdlo => source.psram = false → b.e.waveAddr = 2 * b.e.sidx
  | .rdhi => source.psram = false → b.e.waveAddr = 2 * b.e.sidx + 1 ∧ b.wave = source.buf (2 * b.e.sidx)
  | .lat => source.psram = false → b.wave = source.buf (2 * b.e.sidx + 1) ∧ b.e.lo = source.buf (2 * b.e.sidx)
  | .plo => True
  | .plw => b.e.lo = source.bytes (2 * n)
  | .phi => b.e.lo = source.bytes (2 * n)
  | .shift => b.e.wfr = false → b.word = ctl.ctrl ++ sample source ctl.period n

/-- The bytes of sample `n` taken from the stream. -/
def fetchedBytes (b : Bench) : Nat :=
  match b.e.st with
  | .plw => 1
  | .phi => 1
  | .shift => if b.e.wfr then 0 else 2
  | _ => 0

/-- A playback from which `n` samples have been shifted out. -/
structure Playing (source : Source) (ctl : Ctl) (n : Nat) (b : Bench) : Prop where
  running : b.e.running = true
  on : b.e.runI = true
  same : b.startP = false → b.ctl = ctl
  psram : b.e.st = .plo ∨ b.e.st = .plw ∨ b.e.st = .phi → source.psram = true
  bram : b.e.st = .rdlo ∨ b.e.st = .rdhi ∨ b.e.st = .lat → b.e.wfr = false → source.psram = false
  place : source.psram = false → b.e.sidx = n % ctl.period ∧ b.e.sleft = ctl.period - n % ctl.period
  popped : source.psram = true → b.pops + b.e.strmPop.toNat = 2 * n + fetchedBytes b
  fetched : Fetched source ctl n b

namespace Engine

variable {e : Engine} {i : Ports} {new : Fsm}

theorem act_running : (e.act i new).running = new.running := by
  cases st : e.st with
  | idle =>
    rw [act_idle st]
    split
    · obtain ⟨slot, -⟩ | ⟨slot, -⟩ | ⟨slot, -⟩ := @slot_cases e i
        { new with sync := true, sclk := false, wfr := false, runI := e.running || e.wpend }
      all_goals rw [slot]
    · rfl
  | rdlo => rw [act_rdlo st]
  | rdhi => rw [act_rdhi st]
  | lat => rw [act_lat st]
  | plo => rw [act_plo st]; split <;> rfl
  | plw => rw [act_plw st]
  | phi => rw [act_phi st]; split <;> rfl
  | shift => rw [act_shift st]; split <;> rfl

theorem act_runI (running : e.running = true) (on : new.runI = true) : (e.act i new).runI = true := by
  cases st : e.st with
  | idle =>
    rw [act_idle st]
    split
    · obtain ⟨slot, -⟩ | ⟨slot, -⟩ | ⟨slot, -⟩ := @slot_cases e i
        { new with sync := true, sclk := false, wfr := false, runI := e.running || e.wpend }
      all_goals
        rw [slot]
        show (e.running || e.wpend) = true
        rw [running, Bool.true_or]
    · show (e.running || e.wpend) = true
      rw [running, Bool.true_or]
  | rdlo => rw [act_rdlo st]; exact on
  | rdhi => rw [act_rdhi st]; exact on
  | lat => rw [act_lat st]; exact on
  | plo => rw [act_plo st]; split <;> exact on
  | plw => rw [act_plw st]; exact on
  | phi => rw [act_phi st]; split <;> exact on
  | shift => rw [act_shift st]; split <;> exact on

end Engine

variable {source : Source} {ctl : Ctl} {n : Nat} {b : Bench} {i : Edge}

theorem fits_memory {period : Nat} (fits : source.Fits period) (memory : source.psram = false) :
    1 ≤ period ∧ period ≤ 2048 := by
  rwa [Source.Fits, memory, if_neg Bool.false_ne_true] at fits

theorem sample_stream {period : Nat} (fits : source.Fits period) (psram : source.psram = true) (k : Nat) :
    sample source period k = source.bytes (2 * k + 1) ++ source.bytes (2 * k) := by
  rw [Source.Fits, psram, if_pos rfl] at fits
  have whole : source.len = 2 * (source.len / 2) := by omega
  have low : 2 * k % source.len = 2 * (k % (source.len / 2)) := by rw [whole, Nat.mul_mod_mul_left, ← whole]
  have high : (2 * k + 1) % source.len = 2 * (k % (source.len / 2)) + 1 := by
    have inside := Nat.mod_lt (2 * k) fits.1
    rw [Nat.add_mod, Nat.mod_eq_of_lt (by omega : 1 < source.len), low, Nat.mod_eq_of_lt (by omega)]
  rw [sample, psram, if_pos rfl, Source.bytes, Source.bytes, low, high]

theorem sample_memory (memory : source.psram = false) (period k : Nat) :
    sample source period k = source.buf (2 * (k % period) + 1) ++ source.buf (2 * (k % period)) := by
  rw [sample, memory, if_neg Bool.false_ne_true]

theorem place_step (steady : Steady b) (plays : Plays source b i) (fits : 1 ≤ ctl.period)
    (same : b.ctl = ctl) (place : b.e.sidx = n % ctl.period ∧ b.e.sleft = ctl.period - n % ctl.period) :
    (b.step i).e.sidx = (n + b.e.fe.toNat) % ctl.period ∧
      (b.step i).e.sleft = ctl.period - (n + b.e.fe.toNat) % ctl.period := by
  obtain ⟨stop, start, -⟩ := plays
  show (b.e.index (b.ports i)).sidx = _ ∧ (b.e.index (b.ports i)).sleft = _
  obtain ⟨index, left⟩ := place
  cases ends : b.e.fe with
  | false =>
    obtain ⟨sidx, sleft⟩ := @index_still b.e (b.ports i) (.inr ⟨start, ends⟩)
    rw [sidx, sleft]
    exact ⟨index, left⟩
  | true =>
    have shift : b.e.st ≠ .idle := by
      intro idle
      rw [steady.fe, idle] at ends
      exact nomatch ends
    have flag := steady.slast (.inr shift)
    have below := Nat.mod_lt n fits
    have next : (n + 1) % ctl.period = (n % ctl.period + 1) % ctl.period := (Nat.mod_add_mod ..).symm
    rw [Engine.index, if_neg (by simp [Bench.ports, stop]), if_neg (by simp [Bench.ports, start]), if_pos ends, flag,
      Bool.toNat_true, next]
    split
    · next lastOne =>
        have whole : n % ctl.period + 1 = ctl.period := by
          have := of_decide_eq_true lastOne
          omega
        rw [whole, Nat.mod_self]
        exact ⟨rfl, congrArg Ctl.period same⟩
    · next more =>
        have inside : n % ctl.period + 1 < ctl.period := by
          have : ¬ b.e.sleft ≤ 1 := fun few => more (decide_eq_true few)
          omega
        rw [Nat.mod_eq_of_lt inside, index, left]
        exact ⟨rfl, Nat.sub_sub ..⟩

theorem Playing.next (steady : Steady b) (playing : Playing source ctl n b) (plays : Plays source b i)
    (fits : source.Fits ctl.period)
    (psram : (b.step i).e.st = .plo ∨ (b.step i).e.st = .plw ∨ (b.step i).e.st = .phi → source.psram = true)
    (bram : (b.step i).e.st = .rdlo ∨ (b.step i).e.st = .rdhi ∨ (b.step i).e.st = .lat → (b.step i).e.wfr = false →
      source.psram = false)
    (popped : source.psram = true →
      2 * n + fetchedBytes b + (b.step i).e.strmPop.toNat = 2 * (n + b.e.fe.toNat) + fetchedBytes (b.step i))
    (fetched : Fetched source ctl (n + b.e.fe.toNat) (b.step i)) :
    Playing source ctl (n + b.e.fe.toNat) (b.step i) := by
  obtain ⟨stop, start, -⟩ := id plays
  have main := @Engine.main_on b.e (b.ports i) stop start playing.on
  refine ⟨?_, ?_, fun none => ?_, psram, bram, fun memory => ?_, fun stream => ?_, fetched⟩
  · show (b.e.main (b.ports i)).running = true
    rw [main, Engine.act_running]
    exact playing.running
  · show ((b.e.main (b.ports i)).runI || b.wrP) = true
    rw [main, @Engine.act_runI b.e (b.ports i) { b.e.toFsm with strmPop := false } playing.running playing.on,
      Bool.true_or]
  · have none : i.latch = .none := Option.not_isSome_iff_eq_none.mp (by simpa [Bench.step] using none)
    show i.latch.getD b.ctl = ctl
    rw [none]
    exact playing.same start
  · exact place_step steady plays (fits_memory fits memory).1 (playing.same start) (playing.place memory)
  · show (if b.startP && !i.stop then 0 else b.pops + b.e.strmPop.toNat) + (b.step i).e.strmPop.toNat = _
    rw [start, Bool.false_and, if_neg Bool.false_ne_true, playing.popped stream]
    exact popped stream

theorem Playing.step (steady : Steady b) (playing : Playing source ctl n b) (plays : Plays source b i)
    (fits : source.Fits ctl.period) :
    Playing source ctl (n + b.e.fe.toNat) (b.step i) := by
  obtain ⟨stop, start, from_source⟩ := id plays
  have main := @Engine.main_on b.e (b.ports i) stop start playing.on
  have mode : (b.ports i).psramMode = source.psram := congrArg Source.psram from_source
  have still : b.e.st ≠ .shift → b.e.fe = false := by
    intro other
    rw [steady.fe, beq_false_of_ne other]
    rfl
  have index (other : b.e.st ≠ .shift) : (b.step i).e.sidx = b.e.sidx :=
    (@index_still b.e (b.ports i) (.inr ⟨start, still other⟩)).1
  have inside (memory : source.psram = false) : b.e.sidx < 2048 := by
    obtain ⟨some, few⟩ := fits_memory fits memory
    rw [(playing.place memory).1]
    exact Nat.lt_of_lt_of_le (Nat.mod_lt n some) few
  have static (other : b.e.st ≠ .idle) : (b.step i).e.wfr = b.e.wfr := by
    show (b.e.main (b.ports i)).wfr = b.e.wfr
    rw [main, (Engine.act_kept other).1]
  cases st : b.e.st with
  | idle =>
    have fe := still (by simp [st])
    have same := index (by simp [st])
    cases dz : b.e.dz with
    | false =>
      have act := main.trans ((Engine.act_idle st).trans (if_neg (by simp [dz])))
      have state : (b.step i).e.st = .idle := (congrArg Fsm.st act).trans st
      have high : (b.step i).e.sync = true := congrArg Fsm.sync act
      have pop : (b.step i).e.strmPop = false := congrArg Fsm.strmPop act
      refine playing.next steady plays fits (by simp [state]) (by simp [state]) ?_ ?_
      · intro _
        simp [fetchedBytes, st, state, pop, fe]
      · simp only [Fetched, state, high]
        exact nofun
    | true =>
      have act := main.trans ((Engine.act_idle st).trans (if_pos dz))
      have address : (b.step i).e.waveAddr = 2 * b.e.sidx % 4096 :=
        congrArg Datapath.waveAddr (Engine.datapath_idle st dz)
      obtain ⟨slot, -⟩ | ⟨slot, -⟩ | ⟨-, -, stopped⟩ := @Engine.slot_cases b.e (b.ports i) { b.e.toFsm with
        strmPop := false, sync := true, sclk := false, wfr := false, runI := b.e.running || b.e.wpend }
      · have act := act.trans slot
        have state : (b.step i).e.st = .rdlo := congrArg Fsm.st act
        have pop : (b.step i).e.strmPop = false := congrArg Fsm.strmPop act
        have wfr : (b.step i).e.wfr = true := congrArg Fsm.wfr act
        refine playing.next steady plays fits (by simp [state]) (by simp [wfr]) ?_ ?_
        · intro _
          simp [fetchedBytes, st, state, pop, fe]
        · simp only [Fetched, state]
          intro memory
          have := inside memory
          rw [address, same]
          omega
      · have act := act.trans slot
        have state : (b.step i).e.st = if (b.ports i).psramMode then .plo else .rdlo := congrArg Fsm.st act
        have pop : (b.step i).e.strmPop = false := congrArg Fsm.strmPop act
        rw [mode] at state
        cases memory : source.psram with
        | true =>
          rw [memory, if_pos rfl] at state
          refine playing.next steady plays fits (fun _ => memory) (by simp [state]) ?_ ?_
          · intro _
            simp [fetchedBytes, st, state, pop, fe]
          · simp only [Fetched, state]
        | false =>
          rw [memory, if_neg Bool.false_ne_true] at state
          refine playing.next steady plays fits (by simp [state]) (fun _ _ => memory) ?_ ?_
          · intro _
            simp [fetchedBytes, st, state, pop, fe]
          · simp only [Fetched, state]
            intro _
            have := inside memory
            rw [address, same]
            omega
      · exact absurd (stopped.symm.trans playing.running) Bool.false_ne_true
  | rdlo =>
    have fe := still (by simp [st])
    have same := index (by simp [st])
    have act := main.trans (Engine.act_rdlo st)
    have state : (b.step i).e.st = .rdhi := congrArg Fsm.st act
    have pop : (b.step i).e.strmPop = false := congrArg Fsm.strmPop act
    refine playing.next steady plays fits (by simp [state]) (fun _ stream => ?_) ?_ ?_
    · exact playing.bram (.inl st) ((static (by simp [st])).symm.trans stream)
    · intro _
      simp [fetchedBytes, st, state, pop, fe]
    · simp only [Fetched, state]
      intro memory
      have low := playing.fetched
      simp only [Fetched, st] at low
      have := inside memory
      have address : (b.step i).e.waveAddr = 2 * b.e.sidx % 4096 + 1 :=
        congrArg Datapath.waveAddr (Engine.datapath_rdlo st)
      have read : (b.step i).wave = i.source.buf b.e.waveAddr := rfl
      rw [address, same, read, from_source, low memory]
      exact ⟨by omega, rfl⟩
  | rdhi =>
    have fe := still (by simp [st])
    have same := index (by simp [st])
    have act := main.trans (Engine.act_rdhi st)
    have state : (b.step i).e.st = .lat := congrArg Fsm.st act
    have pop : (b.step i).e.strmPop = false := congrArg Fsm.strmPop act
    refine playing.next steady plays fits (by simp [state]) (fun _ stream => ?_) ?_ ?_
    · exact playing.bram (.inr (.inl st)) ((static (by simp [st])).symm.trans stream)
    · intro _
      simp [fetchedBytes, st, state, pop, fe]
    · simp only [Fetched, state]
      intro memory
      have low := playing.fetched
      simp only [Fetched, st] at low
      obtain ⟨address, byte⟩ := low memory
      have kept : (b.step i).e.lo = b.wave := congrArg Datapath.lo (Engine.datapath_rdhi st)
      have read : (b.step i).wave = i.source.buf b.e.waveAddr := rfl
      rw [read, same, kept, from_source, address, byte]
      exact ⟨rfl, rfl⟩
  | lat =>
    have fe := still (by simp [st])
    have act := main.trans (Engine.act_lat st)
    have state : (b.step i).e.st = .shift := congrArg Fsm.st act
    have pop : (b.step i).e.strmPop = false := congrArg Fsm.strmPop act
    refine playing.next steady plays fits (by simp [state]) (by simp [state]) ?_ ?_
    · intro stream
      have frame : b.e.wfr = true := by
        by_contra memory
        exact Bool.false_ne_true ((playing.bram (.inr (.inr st)) (by simpa using memory)).symm.trans stream)
      simp [fetchedBytes, st, state, pop, fe, static, frame]
    · simp only [Fetched, state]
      intro stream
      have memory := playing.bram (.inr (.inr st)) ((static (by simp [st])).symm.trans stream)
      have bytes := playing.fetched
      simp only [Fetched, st] at bytes
      obtain ⟨high, low⟩ := bytes memory
      have word : (b.step i).word = (b.step i).e.sh := if_pos (.inl st)
      have sh : (b.step i).e.sh = if b.e.wfr then b.wrFrame else b.ctl.ctrl ++ (b.wave ++ b.e.lo) :=
        congrArg Datapath.sh (Engine.datapath_lat st)
      rw [word, sh, ← static (by simp [st]), stream, if_neg Bool.false_ne_true, playing.same start, high, low, fe,
        sample_memory memory, (playing.place memory).1]
      rfl
  | plo =>
    have fe := still (by simp [st])
    have psram := playing.psram (.inl st)
    have act := main.trans (Engine.act_plo st)
    cases valid : i.valid with
    | false =>
      rw [show (b.ports i).strmValid = i.valid from rfl, valid, if_neg Bool.false_ne_true] at act
      have state : (b.step i).e.st = .plo := (congrArg Fsm.st act).trans st
      have pop : (b.step i).e.strmPop = false := congrArg Fsm.strmPop act
      refine playing.next steady plays fits (fun _ => psram) (by simp [state]) ?_ ?_
      · intro _
        simp [fetchedBytes, st, state, pop, fe]
      · simp only [Fetched, state]
    | true =>
      rw [show (b.ports i).strmValid = i.valid from rfl, valid, if_pos rfl] at act
      have state : (b.step i).e.st = .plw := congrArg Fsm.st act
      have pop : (b.step i).e.strmPop = true := congrArg Fsm.strmPop act
      refine playing.next steady plays fits (fun _ => psram) (by simp [state]) ?_ ?_
      · intro _
        simp [fetchedBytes, st, state, pop, fe]
      · simp only [Fetched, state]
        have low : (b.step i).e.lo = if i.valid then i.source.bytes b.pops else i.noise :=
          congrArg Datapath.lo (Engine.datapath_plo st valid)
        have still : b.e.strmPop = false := by
          by_contra popped
          obtain plw | shift := steady.sound.pop (by simpa using popped)
          · exact nomatch st.symm.trans plw
          · exact nomatch st.symm.trans shift
        have popped := playing.popped psram
        simp only [fetchedBytes, st, still, Bool.toNat_false, Nat.add_zero] at popped
        rw [low, valid, if_pos rfl, from_source, popped, fe]
        rfl
  | plw =>
    have fe := still (by simp [st])
    have psram := playing.psram (.inr (.inl st))
    have act := main.trans (Engine.act_plw st)
    have state : (b.step i).e.st = .phi := congrArg Fsm.st act
    have pop : (b.step i).e.strmPop = false := congrArg Fsm.strmPop act
    refine playing.next steady plays fits (fun _ => psram) (by simp [state]) ?_ ?_
    · intro _
      simp [fetchedBytes, st, state, pop, fe]
    · have low := playing.fetched
      simp only [Fetched, st] at low
      have kept : (b.step i).e.lo = b.e.lo := by
        show (b.e.datapath (b.ports i)).lo = b.e.lo
        rw [Engine.datapath_plw st]
      simp only [Fetched, state, fe, Bool.toNat_false, Nat.add_zero]
      exact kept.trans low
  | phi =>
    have fe := still (by simp [st])
    have psram := playing.psram (.inr (.inr st))
    have act := main.trans (Engine.act_phi st)
    have low := playing.fetched
    simp only [Fetched, st] at low
    cases valid : i.valid with
    | false =>
      rw [show (b.ports i).strmValid = i.valid from rfl, valid, if_neg Bool.false_ne_true] at act
      have state : (b.step i).e.st = .phi := (congrArg Fsm.st act).trans st
      have pop : (b.step i).e.strmPop = false := congrArg Fsm.strmPop act
      refine playing.next steady plays fits (fun _ => psram) (by simp [state]) ?_ ?_
      · intro _
        simp [fetchedBytes, st, state, pop, fe]
      · have kept : (b.step i).e.lo = b.e.lo := by
          show (b.e.datapath (b.ports i)).lo = b.e.lo
          rw [Engine.datapath_stall st valid]
        simp only [Fetched, state, fe, Bool.toNat_false, Nat.add_zero]
        exact kept.trans low
    | true =>
      rw [show (b.ports i).strmValid = i.valid from rfl, valid, if_pos rfl] at act
      have state : (b.step i).e.st = .shift := congrArg Fsm.st act
      have pop : (b.step i).e.strmPop = true := congrArg Fsm.strmPop act
      have wfr := (static (by simp [st])).trans (steady.sound.stream (.inr (.inr st)))
      refine playing.next steady plays fits (fun _ => psram) (by simp [state]) ?_ ?_
      · intro _
        simp [fetchedBytes, st, state, pop, fe, wfr]
      · simp only [Fetched, state]
        intro _
        have word : (b.step i).word = (b.step i).e.sh := if_pos (.inr ⟨st, valid⟩)
        have sh : (b.step i).e.sh = b.ctl.ctrl ++ ((if i.valid then i.source.bytes b.pops else i.noise) ++ b.e.lo) :=
          congrArg Datapath.sh (Engine.datapath_phi st valid)
        have still : b.e.strmPop = false := by
          by_contra popped
          obtain plw | shift := steady.sound.pop (by simpa using popped)
          · exact nomatch st.symm.trans plw
          · exact nomatch st.symm.trans shift
        have popped := playing.popped psram
        simp only [fetchedBytes, st, still, Bool.toNat_false, Nat.add_zero] at popped
        rw [word, sh, valid, if_pos rfl, playing.same start, from_source, popped, low, fe, sample_stream fits psram]
        rfl
  | shift =>
    have act := main.trans (Engine.act_shift st)
    have frame := playing.fetched
    simp only [Fetched, st] at frame
    have word : (b.step i).word = b.word := if_neg (by simp [st])
    have wfr := static (by simp [st])
    have state : (b.step i).e.st = if b.e.ph && b.e.last then .idle else .shift :=
      (@main_shift b.e (b.ports i) st stop start playing.on).1
    have pop : (b.step i).e.strmPop = false := by
      show (b.e.main (b.ports i)).strmPop = false
      rw [act]
      split <;> rfl
    have ends : b.e.fe = (b.e.ph && b.e.last && !b.e.wfr) := by
      rw [steady.fe, st]
      rfl
    cases past : b.e.ph && b.e.last with
    | false =>
      have fe : b.e.fe = false := by rw [ends, past, Bool.false_and]
      rw [past, if_neg Bool.false_ne_true] at state
      refine playing.next steady plays fits (by simp [state]) (by simp [state]) ?_ ?_
      · intro _
        simp [fetchedBytes, st, state, pop, fe, wfr]
      · simp only [Fetched, state, fe, Bool.toNat_false, Nat.add_zero, wfr, word]
        exact frame
    | true =>
      rw [past, if_pos rfl] at state
      rw [past, Bool.true_and] at ends
      refine playing.next steady plays fits (by simp [state]) (by simp [state]) ?_ ?_
      · intro _
        cases static : b.e.wfr with
        | true => simp [fetchedBytes, st, state, pop, ends, static]
        | false =>
          simp [fetchedBytes, st, state, pop, ends, static]
          omega
      · simp only [Fetched, state, wfr, word]
        intro _ stream
        rw [ends, stream]
        exact ⟨n, rfl, frame stream⟩

/-- Whether a frame of the waveform has been shifted out and SYNC has not risen over it. -/
def Ended (b : Bench) : Prop := b.e.st = .idle ∧ b.e.sync = false ∧ b.e.wfr = false

theorem ended_step (steady : Steady b) (playing : Playing source ctl n b) (plays : Plays source b i) :
    Ended (b.step i) ↔ b.e.fe = true := by
  obtain ⟨stop, start, -⟩ := plays
  have main := @Engine.main_on b.e (b.ports i) stop start playing.on
  have fe := steady.fe
  by_cases shift : b.e.st = .shift
  · obtain ⟨state, wfr, -⟩ := @main_shift b.e (b.ports i) shift stop start playing.on
    have sync : (b.step i).e.sync = false := by
      show (b.e.main (b.ports i)).sync = false
      rw [main, Engine.act_shift shift]
      split <;> exact (steady.framed.shifting shift).1
    rw [fe, shift]
    show (b.e.main (b.ports i)).st = .idle ∧ (b.step i).e.sync = false ∧ (b.e.main (b.ports i)).wfr = false ↔ _
    rw [state, wfr, sync]
    cases b.e.ph
    · simp
    · cases b.e.last
      · simp
      · simp
  · rw [fe, beq_false_of_ne shift]
    refine iff_of_false ?_ Bool.false_ne_true
    rintro ⟨idle, low, -⟩
    obtain ⟨-, -, -, lat | ⟨phi, valid⟩ | other⟩ := shifter_step steady.framed (.inr ⟨idle, low⟩)
    · exact nomatch (congrArg Fsm.st (main.trans (Engine.act_lat lat))).symm.trans idle
    · exact nomatch (congrArg Fsm.st (main.trans ((Engine.act_phi phi).trans (if_pos valid)))).symm.trans idle
    · exact shift other

/-- The frame of sample `k`. -/
def played (source : Source) (ctl : Ctl) (k : Nat) : Sent :=
  ⟨frameBits (ctl.ctrl ++ sample source ctl.period k), false, none⟩

/-- The frames of the waveform. -/
def streamed (frames : List Sent) : List Sent := frames.filter fun frame => frame.static.isNone

/-- The frames of the waveform in a playback are the samples in order, from the one that SYNC is about to rise over. -/
theorem Playing.run {edges : List Edge} (steady : Steady b) (playing : Playing source ctl n b)
    (along : sequencer.Along (Plays source) b edges)
    (fits : source.Fits ctl.period) :
    ∃ first count, (Ended b → n = first + 1) ∧ (¬ Ended b → n = first) ∧
      streamed (sequencer.emitted b edges) = (List.range' first count).map (played source ctl) := by
  induction edges generalizing b n with
  | nil =>
    by_cases ended : Ended b
    · have whole := playing.fetched
      simp only [Fetched, ended.1] at whole
      obtain ⟨k, next, -⟩ := whole ended.2.1 ended.2.2
      exact ⟨k, 0, fun _ => next, fun other => absurd ended other, rfl⟩
    · exact ⟨n, 0, fun other => absurd other ended, fun _ => rfl, rfl⟩
  | cons i edges ih =>
    obtain ⟨plays, rest⟩ := along
    obtain ⟨first, count, after, before, later⟩ := ih steady.step (playing.step steady plays fits) rest
    have moved := ended_step steady playing plays
    have sent := @Framed.sent b i steady.framed plays.1 plays.2.1
    have at_first : n = first := by
      cases fe : b.e.fe with
      | true =>
        have := after (moved.mpr fe)
        rw [fe, Bool.toNat_true] at this
        omega
      | false =>
        have := before fun other => Bool.false_ne_true (fe.symm.trans (moved.mp other))
        rwa [fe] at this
    subst at_first
    have head : sequencer.emitted b (i :: edges) = (b.sent i).toList ++ sequencer.emitted (b.step i) edges := rfl
    rw [head, sent, streamed, List.filter_append]
    by_cases ended : Ended b
    · have whole := playing.fetched
      simp only [Fetched, ended.1] at whole
      obtain ⟨k, next, word⟩ := whole ended.2.1 ended.2.2
      refine ⟨k, count + 1, fun _ => next, fun other => absurd ended other, ?_⟩
      rw [if_pos ⟨ended.1, ended.2.1⟩, word, ended.2.2, List.range'_succ, List.map_cons, ← next]
      exact congrArg _ later
    · refine ⟨n, count, fun other => absurd other ended, fun _ => rfl, ?_⟩
      split
      · next falls =>
          have wfr : b.e.wfr = true := by
            by_contra stream
            exact ended ⟨falls.1, falls.2, by simpa using stream⟩
          rw [wfr]
          exact later
      · exact later

theorem playing_start (source : Source) (start : b.startP = true) (stop : i.stop = false) :
    Playing source b.ctl 0 (b.step i) ∧ ¬ Ended (b.step i) := by
  have main := @Engine.main_start b.e (b.ports i) stop start
  have state : (b.step i).e.st = .idle := congrArg Fsm.st main
  have high : (b.step i).e.sync = true := congrArg Fsm.sync main
  have index : (b.step i).e.sidx = 0 ∧ (b.step i).e.sleft = b.ctl.period := by
    show (b.e.index (b.ports i)).sidx = _ ∧ (b.e.index (b.ports i)).sleft = _
    rw [Engine.index, if_neg (by simp [Bench.ports, stop]),
      if_pos (show (b.ports i).start = true from start)]
    exact ⟨rfl, rfl⟩
  refine ⟨⟨congrArg Fsm.running main, ?_, fun none => ?_, by simp [state], by simp [state], fun _ => ?_, fun _ => ?_, ?_⟩, ?_⟩
  · show ((b.e.main (b.ports i)).runI || b.wrP) = true
    rw [main, Bool.true_or]
  · have none : i.latch = .none := Option.not_isSome_iff_eq_none.mp (by simpa [Bench.step] using none)
    show i.latch.getD b.ctl = b.ctl
    rw [none]
    rfl
  · rw [index.1, index.2, Nat.zero_mod]
    exact ⟨rfl, rfl⟩
  · have pops : (b.step i).pops = 0 := if_pos (by rw [start, stop]; rfl)
    have pop : (b.step i).e.strmPop = false := congrArg Fsm.strmPop main
    rw [pops, pop, fetchedBytes, state]
    rfl
  · simp only [Fetched, state, high]
    intro low
    cases low
  · rintro ⟨-, low, -⟩
    exact Bool.false_ne_true (low.symm.trans high)

end BenchPod.DacStream
