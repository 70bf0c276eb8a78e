import BenchPod.Dap.Batched

/-!
# States that differ in what a record left behind

A record leaves its counts, positions and ACKs behind.  A command that is not recorded does the same
whatever they are.
-/

namespace BenchPod.Dap

open Endian

/-- The settings, the line and the response are the same, and nothing is recorded. -/
structure Alike (d single : State) : Prop where
  settings : d.settings = single.settings
  seen : d.seen = single.seen
  resp : d.resp = single.resp
  off : d.recording = false
  off' : single.recording = false
  empty : d.ops = []
  empty' : single.ops = []

/-- The states of two loops that are not recorded. -/
def Twin (d single : State) : Prop := Alike d single ∧ d.budget = single.budget

/-- Two loops that are not recorded. -/
def Twins (l l' : Loop) : Prop := ∃ single, Twin l.d single ∧ l' = { l with d := single }

variable {t : Target} {d single : State} {request : Byte} {value : Word} {req : Request} {l l' : Loop}

namespace Alike

theorem put (offset : Nat) (bytes : List Byte) (alike : Alike d single) :
    Alike (d.put offset bytes) (single.put offset bytes) := by
  refine ⟨alike.settings, alike.seen, ?_, alike.off, alike.off', alike.empty, alike.empty'⟩
  simp only [State.put, alike.resp]

theorem line (wire : Wire) (alike : Alike d single) : Alike (d.line wire) (single.line wire) := by
  refine ⟨alike.settings, ?_, alike.resp, alike.off, alike.off', alike.empty, alike.empty'⟩
  simp only [State.line, alike.seen]

theorem set {settings settings' : Settings} (same : settings = settings') (alike : Alike d single) :
    Alike { d with settings } { single with settings := settings' } :=
  ⟨same, alike.seen, alike.resp, alike.off, alike.off', alike.empty, alike.empty'⟩

end Alike

namespace Twin

theorem xfer (never : NeverWaits t) (request : Byte) (value : Word) (twin : Twin d single) :
    Twin (d.xfer t request value).1 (single.xfer t request value).1 ∧
      (single.xfer t request value).2 = (d.xfer t request value).2 := by
  obtain ⟨alike, budget⟩ := twin
  rw [xfer_single never alike.off, xfer_single never alike.off', alike.seen]
  exact ⟨⟨⟨alike.settings, rfl, alike.resp, alike.off, alike.off', alike.empty, alike.empty'⟩, budget⟩, rfl⟩

theorem store (rp : Nat) (value : Word) (twin : Twin d single) : Twin (d.store rp value) (single.store rp value) := by
  obtain ⟨alike, budget⟩ := twin
  simp only [State.store, if_neg (Bool.eq_false_iff.mp alike.off), if_neg (Bool.eq_false_iff.mp alike.off')]
  exact ⟨alike.put rp _, budget⟩

theorem setCur (count rp : Nat) (twin : Twin d single) : Twin (d.setCur count rp) (single.setCur count rp) :=
  ⟨⟨twin.1.settings, twin.1.seen, twin.1.resp, twin.1.off, twin.1.off', twin.1.empty, twin.1.empty'⟩, twin.2⟩

theorem setMask (mask : Word) (twin : Twin d single) : Twin (d.setMask mask) (single.setMask mask) := by
  refine ⟨twin.1.set ?_, twin.2⟩
  rw [twin.1.settings]

theorem spend (twin : Twin d single) :
    Twin { d with budget := d.budget - 1 } { single with budget := single.budget - 1 } := by
  refine ⟨⟨twin.1.settings, twin.1.seen, twin.1.resp, twin.1.off, twin.1.off', twin.1.empty, twin.1.empty'⟩, ?_⟩
  rw [twin.2]

end Twin

namespace Twins

theorem andThen {flow other : Flow Loop} {second : Loop → Flow Loop} (first : flow.Both Twins other)
    (rest : ∀ l single, Twin l.d single → (second l).Both Twins (second { l with d := single })) :
    (flow.andThen second).Both Twins (other.andThen second) := by
  refine first.andThen ?_
  rintro l _ ⟨single, twin, rfl⟩
  exact rest l single twin

theorem xfer (never : NeverWaits t) (request : Byte) (value : Word) (twin : Twin l.d single) :
    (l.xfer t request value).Both Twins (({ l with d := single } : Loop).xfer t request value) := by
  obtain ⟨after, same⟩ := twin.xfer never request value
  simp only [Loop.xfer, same]
  split
  · exact ⟨_, after, rfl⟩
  · exact ⟨_, after, rfl⟩

theorem store (twin : Twin l.d single) : Twins l.store ({ l with d := single } : Loop).store :=
  ⟨_, twin.store l.rp l.data, rfl⟩

theorem flushPosted (never : NeverWaits t) (twin : Twin l.d single) :
    (l.flushPosted t).Both Twins (({ l with d := single } : Loop).flushPosted t) := by
  simp only [Loop.flushPosted]
  split
  · exact andThen (xfer never rdbuffRead 0 twin) fun l single twin => ⟨_, twin.store l.rp l.data, rfl⟩
  · exact ⟨single, twin, rfl⟩

theorem finishPosted (never : NeverWaits t) (twin : Twin l.d single) :
    (l.finishPosted t request).Both Twins (({ l with d := single } : Loop).finishPosted t request) := by
  simp only [Loop.finishPosted]
  split
  · split
    · exact andThen (xfer never request 0 twin) fun l single twin => store twin
    · exact andThen (xfer never rdbuffRead 0 twin) fun l single twin => ⟨_, twin.store l.rp l.data, rfl⟩
  · exact ⟨single, twin, rfl⟩

theorem matchReads {retry : Nat} (never : NeverWaits t) (twin : Twin l.d single) :
    (Loop.matchReads t request value retry l).Both Twins
      (Loop.matchReads t request value retry { l with d := single }) := by
  induction retry generalizing l single with
  | zero => exact andThen (xfer never _ 0 twin) fun l single twin => ⟨single, twin, rfl⟩
  | succ retry ih =>
    rw [Loop.matchReads, Loop.matchReads]
    refine andThen (xfer never _ 0 twin) fun l single twin => ?_
    simp only [← twin.1.settings, ← twin.2]
    split
    · exact ⟨single, twin, rfl⟩
    · have spent := twin.spend
      simp only [← twin.1.settings, ← twin.2] at spent
      exact @ih _ { l with d := { l.d with budget := l.d.budget - 1 } } spent

theorem matchRead (never : NeverWaits t) (twin : Twin l.d single) :
    (l.matchRead t req request).Both Twins (({ l with d := single } : Loop).matchRead t req request) := by
  simp only [Loop.matchRead]
  split
  · exact ⟨single, twin, rfl⟩
  · have first : (if isAp request then ({ l with p := l.p + 4 } : Loop).xfer t request 0
        else .next { l with p := l.p + 4 }).Both Twins
          (if isAp request then ({ l with d := single, p := l.p + 4 } : Loop).xfer t request 0
            else .next { l with d := single, p := l.p + 4 }) := by
      split
      · exact xfer (l := { l with p := l.p + 4 }) never request 0 twin
      · exact ⟨single, twin, rfl⟩
    refine andThen first fun l single twin => ?_
    simp only [← twin.1.settings]
    refine andThen (matchReads never twin) fun l single twin => ?_
    simp only [← twin.1.settings]
    split
    · exact ⟨single, twin, rfl⟩
    · exact ⟨single, twin, rfl⟩

theorem readOne (never : NeverWaits t) (twin : Twin l.d single) :
    (l.readOne t req request).Both Twins (({ l with d := single } : Loop).readOne t req request) := by
  rw [Loop.readOne, Loop.readOne]
  refine andThen (finishPosted never twin) fun l single twin => ?_
  simp only
  split
  · exact matchRead never twin
  · split
    · split
      · exact ⟨single, twin, rfl⟩
      · exact andThen (xfer never request 0 twin) fun l single twin => ⟨single, twin, rfl⟩
    · exact andThen (xfer never request 0 twin) fun l single twin => store twin

theorem writeOne (never : NeverWaits t) (twin : Twin l.d single) :
    (l.writeOne t req request).Both Twins (({ l with d := single } : Loop).writeOne t req request) := by
  rw [Loop.writeOne, Loop.writeOne]
  refine andThen (flushPosted never twin) fun l single twin => ?_
  simp only
  split
  · exact ⟨single, twin, rfl⟩
  · split
    · exact ⟨_, twin.setMask _, rfl⟩
    · exact xfer (l := { l with p := l.p + 4 }) never request _ twin

theorem transferOne (never : NeverWaits t) (twin : Twin l.d single) :
    (l.transferOne t req).Both Twins (({ l with d := single } : Loop).transferOne t req) := by
  simp only [Loop.transferOne]
  split
  · exact ⟨single, twin, rfl⟩
  · split
    · exact ⟨single, twin, rfl⟩
    · have noted := twin.setCur l.count l.rp
      refine andThen ?_ fun l single twin => ⟨single, twin, rfl⟩
      split
      · exact readOne (l := { l with d := l.d.setCur l.count l.rp, p := l.p + 1 }) never noted
      · exact writeOne (l := { l with d := l.d.setCur l.count l.rp, p := l.p + 1 }) never noted

theorem transferEnd (never : NeverWaits t) (twin : Twin l.d single) :
    Twins (l.transferEnd t) (({ l with d := single } : Loop).transferEnd t) := by
  have noted := twin.setCur l.count l.rp
  simp only [Loop.transferEnd]
  split
  · refine (andThen (xfer (l := { l with d := l.d.setCur l.count l.rp }) never rdbuffRead 0 noted) ?_).state
    exact fun l single twin => store twin
  · exact ⟨_, noted, rfl⟩

theorem transfers (req : Request) (count : Nat) (never : NeverWaits t) (twin : Twin l.d single) :
    Twins (l.transfers t req count) (({ l with d := single } : Loop).transfers t req count) := by
  have loops : (Flow.times (fun l => l.transferOne t req) count l).Both Twins
      (Flow.times (fun l => l.transferOne t req) count { l with d := single }) := by
    refine Flow.times_both ?_ ⟨single, twin, rfl⟩
    rintro l _ ⟨single, twin, rfl⟩
    exact transferOne never twin
  obtain ⟨single', twin', eq⟩ := loops.state
  rw [Loop.transfers, Loop.transfers, eq]
  exact transferEnd never twin'

theorem blockReads {left : Nat} (never : NeverWaits t) (twin : Twin l.d single) :
    (Loop.blockReads t request left l).Both Twins (Loop.blockReads t request left { l with d := single }) := by
  induction left generalizing l single with
  | zero => exact ⟨single, twin, rfl⟩
  | succ left ih =>
    rw [Loop.blockReads, Loop.blockReads]
    refine andThen ?_ fun l single twin => ih twin
    simp only [Loop.blockReadOne]
    exact andThen (xfer (l := { l with d := l.d.setCur l.count l.rp }) never _ 0
      (twin.setCur l.count l.rp)) fun l single twin => ⟨_, twin.store l.rp l.data, rfl⟩

theorem blockWriteOne (never : NeverWaits t) (twin : Twin l.d single) :
    (l.blockWriteOne t req request).Both Twins (({ l with d := single } : Loop).blockWriteOne t req request) := by
  simp only [Loop.blockWriteOne]
  split
  · exact ⟨single, twin, rfl⟩
  · exact andThen (xfer (l := { l with d := l.d.setCur l.count l.rp, p := l.p + 4 }) never request _
      (twin.setCur l.count l.rp)) fun l single twin => ⟨single, twin, rfl⟩

theorem block (req : Request) (request : Byte) (count : Nat) (never : NeverWaits t) (twin : Twin l.d single) :
    Twins (l.block t req request count) (({ l with d := single } : Loop).block t req request count) := by
  simp only [Loop.block]
  split
  · refine (andThen ?_ fun l single twin => blockReads never twin).state
    split
    · exact xfer (l := { l with d := l.d.setCur 0 l.rp }) never request 0 (twin.setCur 0 l.rp)
    · exact ⟨_, twin.setCur 0 l.rp, rfl⟩
  · refine (Flow.times_both ?_ ⟨single, twin, rfl⟩).state
    rintro l _ ⟨single, twin, rfl⟩
    exact blockWriteOne never twin

end Twins

end BenchPod.Dap
