import BenchPod.DacPsram.Stored
import BenchPod.DacStream.Static

/-!
# Samples and static frames are sent whole

Every frame that no start or stop cuts has 24 bits, a playback sends the stored samples in order, and a request is sent
once.
-/

namespace BenchPod.DacStream

/-- From a start on the frames of the waveform are what is stored, sample after sample, over and over. -/
def InOrder (b : Bench) : Prop :=
  ∀ (i : Edge) (source : Source) (edges : List Edge), b.startP = true → i.stop = false → source.Fits b.ctl.period →
    sequencer.Along (Plays source) (b.step i) edges →
      ∃ count, streamed (sequencer.emitted (b.step i) edges) = (List.range count).map (played source b.ctl)

/-- The request before is taken in this clock, or being fetched. -/
def Racing (b : Bench) : Prop := Fetching b ∨ Taking b

/-- A request is due or has been sent once and whole, and it is sent once enough clocks have passed in which no start,
stop or newer request comes and no fetch waits for data. -/
def SentOnce (b : Bench) : Prop :=
  ∀ (i : Edge) (word : BitVec 24) (edges : List Edge), i.wrLatch = some word → ¬ Racing (b.step i) →
    let r := (b.step i).wrId
    let sent := own r (sequencer.emitted (b.step i) edges)
    (sequencer.Along (Undisturbed r) (b.step i) edges →
      Due r word (sequencer.run (b.step i) edges) ∧ sent = [] ∨ sent = [⟨frameBits word, false, some r⟩]) ∧
    (sequencer.Along Quiet (b.step i) edges → 65641 ≤ worked (b.step i) edges → sent = [⟨frameBits word, false, some r⟩])

section Requests

variable {b : Bench} {i : Edge}

theorem shId_step (known : b.shId ≤ b.wrId) : (b.step i).shId ≤ (b.step i).wrId := by
  have grows := @wrId_le b i
  show (if b.e.st = .lat then b.wrId else b.shId) ≤ _
  split
  · exact grows
  · exact Nat.le_trans known grows

theorem shId_run (edges : List Edge) : (sequencer.run {} edges).shId ≤ (sequencer.run {} edges).wrId :=
  (sequencer.along_true {} edges).invariant _ (fun b => b.shId ≤ b.wrId) (fun known _ => shId_step known) (Nat.le_refl 0)

theorem due_request {word : BitVec 24} (known : b.shId ≤ b.wrId) (asks : i.wrLatch = some word)
    (calm : ¬ Racing (b.step i)) : Due (b.step i).wrId word (b.step i) := by
  obtain ⟨rest, free⟩ := not_or.mp calm
  have held : (b.step i).wrFrame = word := by
    show i.wrLatch.getD b.wrFrame = word
    rw [asks]
    rfl
  have pulse : (b.step i).wrP = true := by
    show i.wrLatch.isSome = true
    rw [asks]
    rfl
  refine .waiting rfl held (.inr pulse) rest (fun both => free both.2) fun _ => ?_
  have number : (b.step i).wrId = b.wrId + 1 := by
    show b.wrId + i.wrLatch.isSome.toNat = b.wrId + 1
    rw [asks]
    rfl
  have shifted : (b.step i).shId ≤ b.wrId := by
    show (if b.e.st = .lat then b.wrId else b.shId) ≤ b.wrId
    split
    · exact Nat.le_refl _
    · exact known
  omega

theorem sentOnce (steady : Steady b) (known : b.shId ≤ b.wrId) : SentOnce b := by
  intro i word edges asks calm
  have due := due_request known asks calm
  exact ⟨fun along => due.run steady.step along, fun quiet enough => due.sent steady.step quiet enough⟩

theorem inOrder (steady : Steady b) : InOrder b := by
  intro i source edges start stop fits along
  obtain ⟨playing, rest⟩ := @playing_start b i source start stop
  obtain ⟨first, count, -, from_first, frames⟩ := playing.run steady.step along fits
  rw [← from_first rest, ← List.range_eq_range'] at frames
  exact ⟨count, frames⟩

end Requests

/-- Frames that are not cut are whole, a playback sends the stored samples in order, whatever static frames come
between, and a static frame that no start or stop cuts is sent once. -/
theorem samples_whole (before : List Edge) :
    (∀ frame ∈ sequencer.emitted {} before, frame.cut = false → frame.bits.length = 24) ∧
      InOrder (sequencer.run {} before) ∧ SentOnce (sequencer.run {} before) := by
  refine ⟨?_, inOrder (steady_run before), sentOnce (steady_run before) (shId_run before)⟩
  refine (sequencer.along_true {} before).emitted_forall _ Steady (fun steady _ => steady.step) ?_ steady_first
  intro b i steady _ frame sent uncut
  have sent : b.sent i = some frame := sent
  obtain ⟨stop, start⟩ := uncut_edge sent uncut
  rw [steady.framed.sent stop start] at sent
  split at sent
  · rw [← Option.some.inj sent]
    exact frameBits_length b.word
  · exact nomatch sent

/-- A memory in which every byte tells its place. -/
def ownPlace : Source where
  psram := false
  buf place := BitVec.ofNat 8 place
  store _ := 0
  len := 0

theorem quiet_plays {b : Bench} (start : b.startP = false) (n : Nat) :
    sequencer.Along (Plays ownPlace) b (List.replicate n { source := ownPlace }) := by
  induction n generalizing b with
  | zero => exact trivial
  | succ n ih => exact ⟨⟨rfl, start, rfl⟩, ih rfl⟩

theorem samples_whole_two :
    let start : List Edge := [{ latch := some { ctrl := 0x10, period := 2 }, source := ownPlace }]
    let edges := List.replicate 200 { source := ownPlace }
    let frames := streamed (sequencer.emitted ((sequencer.run {} start).step { source := ownPlace }) edges)
    frames.length = 3 ∧ ∃ count, frames = (List.range count).map (played ownPlace { ctrl := 0x10, period := 2 }) := by
  intro start edges frames
  refine ⟨by decide +kernel, ?_⟩
  exact (samples_whole start).2.1 { source := ownPlace } ownPlace edges rfl rfl ⟨by decide, by decide⟩ (quiet_plays rfl 200)

theorem past_rest {r : Nat} {b : Bench} (pend : b.e.wpend = false) (pulse : b.wrP = false) (idle : b.e.st = .idle)
    (high : b.e.sync = true) (known : r ≤ b.wrId) : Past r b := by
  refine ⟨known, fun _ => ⟨?_, ?_⟩, ?_⟩
  · simp [Waiting, pend, pulse]
  · simp [Fetching, idle]
  · simp [Loaded, idle, high]

/-- A stop during a static frame: the frame is cut, and nothing is sent for it later. -/
theorem static_cut :
    let edges : List Edge := [{ wrLatch := some 0x123456, source := ownPlace }] ++
      List.replicate 20 { source := ownPlace } ++ [{ stop := true, source := ownPlace }]
    own 1 (sequencer.emitted {} edges) = [⟨[false, false, false, true, false, false, true], true, some 1⟩] ∧
      ∀ later, own 1 (sequencer.emitted (sequencer.run {} edges) later) = [] := by
  intro edges
  refine ⟨by decide +kernel, fun later => ?_⟩
  have rests : (sequencer.run {} edges).e.wpend = false ∧ (sequencer.run {} edges).wrP = false ∧
      (sequencer.run {} edges).e.st = .idle ∧ (sequencer.run {} edges).e.sync = true ∧
      1 ≤ (sequencer.run {} edges).wrId := by
    decide +kernel
  obtain ⟨pend, pulse, idle, high, known⟩ := rests
  exact Past.run (steady_run edges) (past_rest pend pulse idle high known)

end BenchPod.DacStream
