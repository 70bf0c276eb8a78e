import BenchPod.Dap.Process

/-!
# What the loops keep

What single transfers, stores and settings keep, the transfer loops keep, and they leave room in the
response.
-/

namespace BenchPod.Dap

/-- A property between the transfers, and one that holds once the position is noted and that every
primitive of the transfer loops keeps. -/
structure Kept (t : Target) (P Q : State → Prop) : Prop where
  setCur {d : State} {rp : Nat} (count : Nat) : rp ≤ packetSize → P d → Q (d.setCur count rp)
  between {d : State} : Q d → P d
  xfer {d : State} (request : Byte) (value : Word) : Q d → Q (d.xfer t request value).1
  store {d : State} {rp : Nat} (value : Word) : rp + 4 ≤ packetSize → Q d → Q (d.store rp value)
  setMask {d : State} (mask : Word) : Q d → Q (d.setMask mask)
  budget {d : State} (budget : Nat) : Q d → Q { d with budget }

/-- The property holds, and there is room for some more bytes. -/
def Room (P : State → Prop) (more : Nat) (l : Loop) : Prop := P l.d ∧ l.rp + more ≤ packetSize

variable {t : Target} {P Q : State → Prop} {req : Request} {request : Byte} {value : Word} {l : Loop}
  {more : Nat}

theorem Room.less {less : Nat} (room : Room P more l) (le : less ≤ more) : Room P less l :=
  ⟨room.1, by have := room.2; omega⟩

namespace Kept

variable (kept : Kept t P Q)

include kept in
theorem loop_xfer (request : Byte) (value : Word) (room : Room Q more l) :
    (l.xfer t request value).Ends (Room Q more) (Room Q more) := by
  have same : Room Q more { l with
        d := (l.d.xfer t request value).1
        ack := (l.d.xfer t request value).2.1
        data := (l.d.xfer t request value).2.2 } := ⟨kept.xfer request value room.1, room.2⟩
  simp only [Loop.xfer]
  split
  · exact same
  · exact same

include kept in
theorem loop_store (room : Room Q (more + 4) l) : Room Q more l.store := by
  obtain ⟨holds, fits⟩ := room
  refine ⟨kept.store l.data (by omega) holds, ?_⟩
  simp only [Loop.store]
  omega

include kept in
theorem finishPosted (room : Room Q (more + 4) l) : (l.finishPosted t request).Ends (Room Q more) (Room Q more) := by
  rw [Loop.finishPosted]
  split
  · split
    · refine ((kept.loop_xfer request 0 room).imp (fun _ => id) fun _ room => room.less ?_).andThen ?_
      · omega
      · exact fun _ room => kept.loop_store room
    · refine ((kept.loop_xfer rdbuffRead 0 room).imp (fun _ => id) fun _ room => room.less ?_).andThen ?_
      · omega
      · intro l room
        have posted : Room Q (more + 4) { l with postRead := false } := room
        exact kept.loop_store posted
  · exact room.less (by omega)

include kept in
theorem matchReads {retry : Nat} (room : Room Q more l) :
    (Loop.matchReads t request value retry l).Ends (Room Q more) (Room Q more) := by
  induction retry generalizing l with
  | zero =>
    rw [Loop.matchReads]
    exact (kept.loop_xfer _ 0 room).andThen fun _ room => room
  | succ retry ih =>
    rw [Loop.matchReads]
    refine (kept.loop_xfer _ 0 room).andThen fun l room => ?_
    simp only
    split
    · exact room
    · exact ih ⟨kept.budget _ room.1, room.2⟩

include kept in
theorem matchRead (room : Room Q more l) : (l.matchRead t req request).Ends (Room Q more) (Room Q more) := by
  simp only [Loop.matchRead]
  split
  · exact room
  · have posted : Room Q more { l with p := l.p + 4 } := room
    have first : (if isAp request then ({ l with p := l.p + 4 } : Loop).xfer t request 0
        else .next { l with p := l.p + 4 }).Ends (Room Q more) (Room Q more) := by
      split
      · exact kept.loop_xfer request 0 posted
      · exact posted
    refine first.andThen fun l room => (kept.matchReads room).andThen fun l room => ?_
    split
    · exact room
    · exact room

include kept in
theorem readOne (room : Room Q (more + 8) l) : (l.readOne t req request).Ends (Room Q more) (Room Q more) := by
  rw [Loop.readOne]
  have finished : Room Q ((more + 4) + 4) l := room
  have first : (l.finishPosted t request).Ends (Room Q (more + 4)) (Room Q more) :=
    (kept.finishPosted finished).imp (fun _ => id) fun _ room => room.less (Nat.le_add_right more 4)
  refine first.andThen fun l room => ?_
  split
  · exact (kept.matchRead room).imp (fun _ room => room.less (by omega)) fun _ room => room.less (by omega)
  · split
    · split
      · exact room.less (by omega)
      · refine ((kept.loop_xfer request 0 room).imp (fun _ => id) fun _ room => room.less ?_).andThen ?_
        · omega
        · exact fun l room => room.less (by omega)
    · refine ((kept.loop_xfer request 0 room).imp (fun _ => id) fun _ room => room.less ?_).andThen ?_
      · omega
      · exact fun _ room => kept.loop_store room

include kept in
theorem flushPosted (room : Room Q (more + 4) l) : (l.flushPosted t).Ends (Room Q more) (Room Q more) := by
  rw [Loop.flushPosted]
  split
  · refine ((kept.loop_xfer rdbuffRead 0 room).imp (fun _ => id) fun _ room => room.less ?_).andThen ?_
    · omega
    · exact fun _ room => kept.loop_store room
  · exact room.less (by omega)

include kept in
theorem writeOne (room : Room Q (more + 4) l) : (l.writeOne t req request).Ends (Room Q more) (Room Q more) := by
  rw [Loop.writeOne]
  refine (kept.flushPosted room).andThen fun l room => ?_
  simp only
  split
  · exact room
  · split
    · exact ⟨kept.setMask _ room.1, room.2⟩
    · have posted : Room Q more { l with p := l.p + 4 } := room
      exact kept.loop_xfer request _ posted

include kept in
theorem room_between (room : Room Q more l) : Room P more l := ⟨kept.between room.1, room.2⟩

include kept in
theorem transferOne (room : Room P 4 l) : (l.transferOne t req).Ends (Room P 4) (Room P 4) := by
  rw [Loop.transferOne]
  split
  · exact room
  · split
    · exact room
    · next fits =>
        have start : Room Q (4 + 8) { l with d := l.d.setCur l.count l.rp, p := l.p + 1 } :=
          ⟨kept.setCur l.count (by omega) room.1, by simp only; omega⟩
        have one : (if isRead (req.byte l.p)
            then ({ l with d := l.d.setCur l.count l.rp, p := l.p + 1 } : Loop).readOne t req (req.byte l.p)
            else ({ l with d := l.d.setCur l.count l.rp, p := l.p + 1 } : Loop).writeOne t req
              (req.byte l.p)).Ends (Room Q 4) (Room Q 4) := by
          split
          · exact kept.readOne start
          · exact kept.writeOne (start.less (by omega))
        exact (one.imp (fun _ => id) fun _ room => kept.room_between room).andThen fun l room => kept.room_between room

include kept in
theorem transferEnd (room : Room P 4 l) : Room Q 0 (l.transferEnd t) := by
  have start : Room Q 4 { l with d := l.d.setCur l.count l.rp } :=
    ⟨kept.setCur l.count (by have := room.2; omega) room.1, room.2⟩
  simp only [Loop.transferEnd]
  split
  · have last : ((({ l with d := l.d.setCur l.count l.rp } : Loop).xfer t rdbuffRead 0).andThen
        fun l => .next l.store).Ends (Room Q 0) (Room Q 0) := by
      refine ((kept.loop_xfer rdbuffRead 0 start).imp (fun _ => id) fun _ room => room.less ?_).andThen ?_
      · exact Nat.zero_le 4
      · exact fun _ room => kept.loop_store room
    obtain room | room := last.state <;> exact room
  · exact start.less (Nat.zero_le 4)

include kept in
theorem transfers {count : Nat} (holds : P l.d) (start : l.rp = 3) : Room P 0 (l.transfers t req count) := by
  have room : Room P 4 l := ⟨holds, by rw [start]; decide⟩
  have ends : (Flow.times (fun l => l.transferOne t req) count l).Ends (Room P 4) (Room P 4) :=
    Flow.times_ends (fun l room => kept.transferOne room) room
  obtain room | room := ends.state <;> exact kept.room_between (kept.transferEnd room)

include kept in
theorem blockReadOne {left : Nat} (room : Room P (more + 4) l) :
    (l.blockReadOne t request left).Ends (Room P more) (Room P more) := by
  have start : Room Q (more + 4) { l with d := l.d.setCur l.count l.rp } :=
    ⟨kept.setCur l.count (by have := room.2; omega) room.1, room.2⟩
  simp only [Loop.blockReadOne]
  refine ((kept.loop_xfer _ 0 start).imp (fun _ => id) fun _ room => ?_).andThen fun _ room => ?_
  · exact kept.room_between (room.less (by omega))
  · exact kept.room_between (kept.loop_store room)

include kept in
theorem blockReads {left : Nat} (room : Room P (4 * left) l) :
    (Loop.blockReads t request left l).Ends (Room P 0) (Room P 0) := by
  induction left generalizing l with
  | zero => exact room
  | succ left ih =>
    rw [Loop.blockReads]
    have next : Room P (4 * left + 4) l := room
    exact ((kept.blockReadOne next).imp (fun _ => id) fun _ room => room.less (Nat.zero_le _)).andThen
      fun l room => ih room

include kept in
theorem blockWriteOne (room : Room P 0 l) : (l.blockWriteOne t req request).Ends (Room P 0) (Room P 0) := by
  simp only [Loop.blockWriteOne]
  split
  · exact room
  · have start : Room Q 0 { l with d := l.d.setCur l.count l.rp, p := l.p + 4 } :=
      ⟨kept.setCur l.count room.2 room.1, room.2⟩
    exact ((kept.loop_xfer request _ start).imp (fun _ => id) fun _ room => kept.room_between room).andThen
      fun l room => kept.room_between room

include kept in
theorem block {count : Nat} (holds : P l.d) (start : l.rp = 4) : Room P 0 (l.block t req request count) := by
  simp only [Loop.block]
  split
  · have room : Room Q (4 * min count ((packetSize - 4) / 4)) { l with d := l.d.setCur 0 l.rp } := by
      refine ⟨kept.setCur 0 (by rw [start]; decide) holds, ?_⟩
      have most : min count ((packetSize - 4) / 4) ≤ (packetSize - 4) / 4 := Nat.min_le_right ..
      simp only [start, packetSize] at most ⊢
      omega
    have prime : (if isAp request then ({ l with d := l.d.setCur 0 l.rp } : Loop).xfer t request 0
        else .next { l with d := l.d.setCur 0 l.rp }).Ends
          (Room P (4 * min count ((packetSize - 4) / 4))) (Room P 0) := by
      split
      · exact (kept.loop_xfer request 0 room).imp (fun _ room => kept.room_between room) fun _ room =>
          kept.room_between (room.less (Nat.zero_le _))
      · exact kept.room_between room
    obtain room | room := (prime.andThen fun l room => kept.blockReads room).state <;> exact room
  · have room : Room P 0 l := ⟨holds, by rw [start]; decide⟩
    have ends : (Flow.times (fun l => l.blockWriteOne t req request) count l).Ends (Room P 0) (Room P 0) :=
      Flow.times_ends (fun l room => kept.blockWriteOne room) room
    obtain room | room := ends.state <;> exact room

end Kept
end BenchPod.Dap
