import BenchPod.Library.Emitter
import BenchPod.Library.Fifo
import BenchPod.Library.Word

/-!
# The transmit rings

The worker writes replies into a ring for each connection, the net task drains it.  Each side reads the
other's free-running 16-bit index at any moment, so the calls are cut where they read or write one.
-/

namespace BenchPod.ConnTx

/-- `CONN_TX_RING_SIZE`. -/
def ringSize : Nat := 2048

/-- `CONN_TX_MASK`, and the bytes a ring can hold. -/
def mask : Nat := ringSize - 1

/-- `conn_tx_slot`: the TCP connections, then the tunnels. -/
def connTxSlot (connId : Int) : Option (Fin 8) :=
  if 0 ≤ connId ∧ connId < 5 then some (Fin.ofNat 8 connId.toNat)
  else if 7 ≤ connId ∧ connId ≤ 9 then some (Fin.ofNat 8 (5 + (connId - 7)).toNat)
  else none

/-- `ring_t`. -/
structure Ring where
  head : Half := 0
  tail : Half := 0
  buf : Nat → Byte := fun _ => 0

/-- Where the worker is in `conn_tx_write`: before it reads the tail, or with so many bytes copied. -/
inductive Producer
  | idle
  | check (data : List Byte) (head : Half)
  | copy (data : List Byte) (head : Half) (done : Nat)

/-- A ring, where its producer is, how many bytes of the last peek the net task has left, and the head it
has read in `conn_tx_reset`. -/
structure Slot where
  ring : Ring := {}
  producer : Producer := .idle
  seen : Nat := 0
  resetting : Option Half := none

/-- What either side does next. -/
inductive Op
  /-- Call `conn_tx_write`, which reads the head. -/
  | write (data : List Byte)
  | check
  | store
  | publish
  | free
  | used
  | peek
  /-- Read a byte that was peeked. -/
  | look (index : Nat)
  | advance (count : Nat)
  /-- Call `conn_tx_reset`, which reads the head. -/
  | reset
  | resetDone

namespace Ring

variable (r : Ring)

/-- `conn_tx_used`. -/
def used : Nat := (r.head - r.tail).toNat

/-- `conn_tx_free`. -/
def free : Nat := mask - r.used

/-- `conn_tx_peek`: up to the end of the buffer. -/
def contig : Nat := min r.used (ringSize - r.tail.toNat % ringSize)

/-- The bytes that the indices delimit. -/
def bytes (count : Nat) : List Byte := (List.range count).map fun i => r.buf ((r.tail.toNat + i) % ringSize)

/-- The bytes queued. -/
def contents : List Byte := r.bytes r.used

end Ring

open Fifo (Act)

/-- One step of either side, and what it did to the queue. -/
def Slot.step (s : Slot) : Op → Slot × Option (Act Byte)
  | .write data =>
    match s.producer with
    | .idle => ({ s with producer := .check data s.ring.head }, none)
    | _ => (s, none)
  | .check =>
    match s.producer with
    | .check data head =>
      if mask - (head - s.ring.tail).toNat < data.length then
        ({ s with producer := .idle }, some (.refuse data))
      else ({ s with producer := .copy data head 0 }, none)
    | _ => (s, none)
  | .store =>
    match s.producer with
    | .copy data head done =>
      match data[done]? with
      | some byte =>
        let buf := Function.update s.ring.buf ((head.toNat + done) % ringSize) byte
        ({ s with ring := { s.ring with buf }, producer := .copy data head (done + 1) }, none)
      | none => (s, none)
    | _ => (s, none)
  | .publish =>
    match s.producer with
    | .copy data head done =>
      if done < data.length then (s, none)
      else
        ({ s with ring := { s.ring with head := head + BitVec.ofNat 16 data.length }, producer := .idle },
          some (.accept data))
    | _ => (s, none)
  | .free => (s, some (.free s.ring.free))
  | .used => (s, some (.used s.ring.used))
  | .peek =>
    match s.resetting with
    | none => ({ s with seen := s.ring.contig }, some (.peek s.ring.contig))
    | some _ => (s, none)
  | .look index =>
    if s.resetting.isNone ∧ index < s.seen then
      (s, some (.look index (s.ring.buf (s.ring.tail.toNat % ringSize + index))))
    else (s, none)
  | .advance count =>
    if s.resetting.isNone ∧ count ≤ s.seen then
      ({ s with
          ring := { s.ring with tail := s.ring.tail + BitVec.ofNat 16 count }
          seen := s.seen - count }, some (.take (s.ring.bytes count)))
    else (s, none)
  | .reset =>
    match s.resetting with
    | none => ({ s with resetting := some s.ring.head }, none)
    | some _ => (s, none)
  | .resetDone =>
    match s.resetting with
    | some head =>
      ({ s with ring := { s.ring with tail := head }, seen := 0, resetting := none },
        some (.discard (s.ring.bytes (head - s.ring.tail).toNat)))
    | none => (s, none)

/-- What happens on a connection. -/
structure Event where
  connId : Int
  op : Op

/-- All rings. -/
abbrev Rings := Fin 8 → Slot

/-- A step on the ring of a connection; one without a ring takes and gives nothing. -/
def step (rings : Rings) (event : Event) : Rings :=
  match connTxSlot event.connId with
  | some slot => Function.update rings slot ((rings slot).step event.op).1
  | none => rings

/-- What a step did, and to which ring. -/
def emit (rings : Rings) (event : Event) : Option (Fin 8 × Act Byte) :=
  (connTxSlot event.connId).bind fun slot => ((rings slot).step event.op).2.map fun act => (slot, act)

/-- The rings under the steps of the two tasks. -/
def system : Emitter Rings Event (Fin 8 × Act Byte) := ⟨step, emit⟩

/-- The acts on one ring. -/
def actsOn (slot : Fin 8) (acts : List (Fin 8 × Act Byte)) : List (Act Byte) :=
  acts.filterMap fun act => if act.1 = slot then some act.2 else none

/-- The ring holds a queue, and what either side is at in the middle of a call still fits it. -/
structure Holds (s : Slot) (queue : List Byte) : Prop where
  used : s.ring.used = queue.length
  bounded : queue.length ≤ mask
  bytes : ∀ i, ∀ byte ∈ queue[i]?, s.ring.buf ((s.ring.tail.toNat + i) % ringSize) = byte
  seen : s.seen ≤ s.ring.contig
  checks : ∀ data head, s.producer = .check data head → head = s.ring.head
  copies : ∀ data head done, s.producer = .copy data head done →
    head = s.ring.head ∧ queue.length + data.length ≤ mask ∧ done ≤ data.length ∧
      ∀ i < done, ∀ byte ∈ data[i]?, s.ring.buf ((head.toNat + i) % ringSize) = byte
  resets : ∀ head ∈ s.resetting, (head - s.ring.tail).toNat ≤ queue.length

section Indices

variable {head tail : Half} {count : Nat}

theorem used_publish (room : (head - tail).toNat + count ≤ mask) :
    (head + BitVec.ofNat 16 count - tail).toNat = (head - tail).toNat + count := by
  have small : mask = 2047 := rfl
  have := head.isLt
  have := tail.isLt
  simp only [BitVec.toNat_sub, BitVec.toNat_add, BitVec.toNat_ofNat] at room ⊢
  omega

theorem used_advance (within : count ≤ (head - tail).toNat) :
    (head - (tail + BitVec.ofNat 16 count)).toNat = (head - tail).toNat - count := by
  have := head.isLt
  have := tail.isLt
  simp only [BitVec.toNat_sub, BitVec.toNat_add, BitVec.toNat_ofNat] at within ⊢
  omega

theorem index_add : (tail + BitVec.ofNat 16 count).toNat % ringSize = (tail.toNat + count) % ringSize := by
  simp only [BitVec.toNat_add, BitVec.toNat_ofNat, ringSize]
  omega

theorem index_head (head tail : Half) (i : Nat) :
    (head.toNat + i) % ringSize = (tail.toNat + ((head - tail).toNat + i)) % ringSize := by
  have := head.isLt
  have := tail.isLt
  simp only [BitVec.toNat_sub, ringSize]
  omega

end Indices

namespace Holds

variable {s : Slot} {queue : List Byte} (holds : Holds s queue)

include holds

theorem bytes_eq {count : Nat} (within : count ≤ queue.length) : s.ring.bytes count = queue.take count := by
  apply List.ext_getElem
  · simp [Ring.bytes, within]
  · intro i small _
    have below : i < count := by simpa [Ring.bytes] using small
    have byte := holds.bytes i queue[i] (List.getElem?_eq_getElem (by omega))
    simpa [Ring.bytes] using byte

theorem contents_eq : s.ring.contents = queue := by
  rw [Ring.contents, holds.bytes_eq (Nat.le_of_eq holds.used), holds.used, List.take_length]

/-- The consumer has taken bytes off, or thrown them away. -/
theorem dropped {count : Nat} (within : count ≤ queue.length) {seen : Nat}
    (ahead : seen = 0 ∨ seen = s.seen - count ∧ count ≤ s.seen) (resetting : Option Half)
    (resets : ∀ head ∈ resetting, (head - (s.ring.tail + BitVec.ofNat 16 count)).toNat ≤ queue.length - count) :
    Holds { s with ring := { s.ring with tail := s.ring.tail + BitVec.ofNat 16 count }, seen, resetting }
      (queue.drop count) := by
  have used := holds.used
  have length : (queue.drop count).length = queue.length - count := List.length_drop
  have used_then : (s.ring.head - (s.ring.tail + BitVec.ofNat 16 count)).toNat = queue.length - count := by
    rw [used_advance (by rw [← holds.used] at within; exact within)]
    exact congrArg (· - count) holds.used
  refine ⟨?_, ?_, ?_, ?_, holds.checks, ?_, ?_⟩
  · rw [length]
    exact used_then
  · rw [length]
    exact Nat.le_trans (Nat.sub_le _ _) holds.bounded
  · intro i byte found
    rw [List.getElem?_drop] at found
    have byte := holds.bytes (count + i) byte found
    have place : ((s.ring.tail + BitVec.ofNat 16 count).toNat + i) % ringSize =
        (s.ring.tail.toNat + (count + i)) % ringSize := by
      rw [Nat.add_mod, index_add, ← Nat.add_mod, Nat.add_assoc]
    rw [← byte]
    exact congrArg s.ring.buf place
  · have contig := holds.seen
    have place : (s.ring.tail + BitVec.ofNat 16 count).toNat % ringSize = (s.ring.tail.toNat + count) % ringSize :=
      index_add
    unfold Ring.contig at contig ⊢
    change seen ≤ min (s.ring.head - (s.ring.tail + BitVec.ofNat 16 count)).toNat
      (ringSize - (s.ring.tail + BitVec.ofNat 16 count).toNat % ringSize)
    rw [used_then, place]
    rw [used] at contig
    simp only [ringSize] at contig ⊢
    omega
  · intro data head done copies
    obtain ⟨same, room, within, bytes⟩ := holds.copies data head done copies
    refine ⟨same, ?_, within, bytes⟩
    rw [length]
    omega
  · intro head member
    rw [length]
    exact resets head member

theorem moved {producer : Producer}
    (checks : ∀ data head, producer = .check data head → head = s.ring.head)
    (copies : ∀ data head done, producer = .copy data head done →
      head = s.ring.head ∧ queue.length + data.length ≤ mask ∧ done ≤ data.length ∧
        ∀ i < done, ∀ byte ∈ data[i]?, s.ring.buf ((head.toNat + i) % ringSize) = byte) :
    Holds { s with producer } queue :=
  ⟨holds.used, holds.bounded, holds.bytes, holds.seen, checks, copies, holds.resets⟩

/-- A byte copied behind the queue. -/
theorem stored {data : List Byte} {head : Half} {done : Nat} {byte : Byte}
    (copying : s.producer = .copy data head done) (found : data[done]? = some byte) :
    Holds
      { s with
        ring := { s.ring with buf := Function.update s.ring.buf ((head.toNat + done) % ringSize) byte }
        producer := .copy data head (done + 1) } queue := by
  obtain ⟨rfl, room, within, bytes⟩ := holds.copies data head done copying
  have full : mask = 2047 := rfl
  have used := holds.used
  have bounded := holds.bounded
  have below : done < data.length := (List.getElem?_eq_some_iff.mp found).1
  have place (i : Nat) : (s.ring.head.toNat + i) % ringSize = (s.ring.tail.toNat + (queue.length + i)) % ringSize := by
    rw [index_head s.ring.head s.ring.tail i]
    change (_ + (s.ring.used + i)) % _ = _
    rw [used]
  refine ⟨used, bounded, ?_, holds.seen, by simp, ?_, holds.resets⟩
  · intro i value queued
    have inside : i < queue.length := (List.getElem?_eq_some_iff.mp queued).1
    have other : (s.ring.tail.toNat + i) % ringSize ≠ (s.ring.head.toNat + done) % ringSize := by
      rw [place]
      simp only [ringSize]
      omega
    exact (Function.update_of_ne other _ _).trans (holds.bytes i value queued)
  · intro data' head' done' same
    cases same
    refine ⟨rfl, room, below, ?_⟩
    intro i earlier value written
    by_cases now : i = done
    · subst now
      rw [found] at written
      cases written
      exact Function.update_self _ _ _
    · have other : (s.ring.head.toNat + i) % ringSize ≠ (s.ring.head.toNat + done) % ringSize := by
        rw [place, place]
        simp only [ringSize]
        omega
      exact (Function.update_of_ne other _ _).trans (bytes i (by omega) value written)

/-- A write published. -/
theorem published {data : List Byte} {head : Half} {done : Nat}
    (copying : s.producer = .copy data head done) (all : ¬done < data.length) :
    Holds
      { s with
        ring := { s.ring with head := head + BitVec.ofNat 16 data.length }, producer := .idle }
      (queue ++ data) := by
  obtain ⟨rfl, room, within, bytes⟩ := holds.copies data head done copying
  have used := holds.used
  have bounded := holds.bounded
  have length : (queue ++ data).length = queue.length + data.length := List.length_append
  have used_then : (s.ring.head + BitVec.ofNat 16 data.length - s.ring.tail).toNat = queue.length + data.length := by
    have grown := @used_publish s.ring.head s.ring.tail data.length (by rw [← used] at room; exact room)
    rw [grown]
    exact congrArg (· + data.length) used
  refine ⟨?_, ?_, ?_, ?_, by simp, by simp, ?_⟩
  · rw [length]
    exact used_then
  · rw [length]
    exact room
  · intro i byte found
    by_cases front : i < queue.length
    · rw [List.getElem?_append_left front] at found
      exact holds.bytes i byte found
    · rw [List.getElem?_append_right (Nat.not_lt.mp front)] at found
      have inside := (List.getElem?_eq_some_iff.mp found).1
      have byte := bytes (i - queue.length) (by omega) byte found
      have place : (s.ring.tail.toNat + i) % ringSize = (s.ring.head.toNat + (i - queue.length)) % ringSize := by
        rw [index_head s.ring.head s.ring.tail]
        change _ = (_ + (s.ring.used + _)) % _
        rw [used, Nat.add_sub_cancel' (Nat.not_lt.mp front)]
      rw [← byte, ← place]
  · have contig := holds.seen
    unfold Ring.contig at contig ⊢
    change s.seen ≤ min (s.ring.head + BitVec.ofNat 16 data.length - s.ring.tail).toNat
      (ringSize - s.ring.tail.toNat % ringSize)
    rw [used_then]
    rw [used] at contig
    omega
  · intro head member
    have within := holds.resets head member
    rw [length]
    exact Nat.le_trans within (Nat.le_add_right _ _)

/-- Every step of either side is one act on the queue, or none. -/
theorem step (op : Op) : ∃ next, Holds (s.step op).1 next ∧
    match (s.step op).2 with
    | some act => Fifo.Move mask queue act next
    | none => next = queue := by
  have used := holds.used
  have bounded := holds.bounded
  have same : ∃ next, Holds s next ∧ next = queue := ⟨queue, holds, rfl⟩
  cases op with
  | write data =>
    dsimp only [Slot.step]
    split
    · refine ⟨queue, holds.moved ?_ (by simp), rfl⟩
      intro data head same
      cases same
      rfl
    · exact same
  | check =>
    dsimp only [Slot.step]
    split
    · rename_i data head checking
      obtain rfl := holds.checks data head checking
      change (s.ring.head - s.ring.tail).toNat = _ at used
      split
      · rename_i full
        refine ⟨queue, holds.moved (by simp) (by simp), ?_⟩
        exact .refuse (by omega)
      · rename_i room
        refine ⟨queue, holds.moved (by simp) ?_, rfl⟩
        intro data head done same
        cases same
        exact ⟨rfl, by omega, Nat.zero_le _, by simp⟩
    · exact same
  | store =>
    dsimp only [Slot.step]
    split
    · rename_i data head done copying
      split
      · rename_i byte found
        exact ⟨queue, holds.stored copying found, rfl⟩
      · exact same
    · exact same
  | publish =>
    dsimp only [Slot.step]
    split
    · rename_i data head done copying
      split
      · exact same
      · rename_i all
        exact ⟨queue ++ data, holds.published copying all, .accept (holds.copies data head done copying).2.1⟩
    · exact same
  | free =>
    refine ⟨queue, holds, ?_⟩
    dsimp only [Slot.step, Ring.free]
    rw [used]
    exact .free
  | used =>
    refine ⟨queue, holds, ?_⟩
    dsimp only [Slot.step]
    rw [used]
    exact .used
  | peek =>
    dsimp only [Slot.step]
    split
    · refine ⟨queue, ⟨used, bounded, holds.bytes, Nat.le_refl _, holds.checks, holds.copies, holds.resets⟩, ?_⟩
      refine .peek ?_ ?_
      · rw [Ring.contig, used]
        exact Nat.min_le_left _ _
      · intro some_held
        have length := List.length_pos_iff.mpr some_held
        rw [Ring.contig, used]
        simp only [ringSize]
        omega
    · exact same
  | look index =>
    dsimp only [Slot.step]
    split
    · rename_i inside
      have contig := holds.seen
      rw [Ring.contig, used] at contig
      refine ⟨queue, holds, .look ?_⟩
      have below : index < queue.length := by omega
      have byte := holds.bytes index queue[index] (List.getElem?_eq_getElem below)
      have place : (s.ring.tail.toNat + index) % ringSize = s.ring.tail.toNat % ringSize + index := by
        simp only [ringSize] at contig ⊢
        omega
      rw [place] at byte
      rw [byte]
      exact List.getElem?_eq_getElem below
    · exact same
  | advance count =>
    dsimp only [Slot.step]
    split
    · rename_i inside
      have contig := holds.seen
      rw [Ring.contig, used] at contig
      have within : count ≤ queue.length := by omega
      refine ⟨queue.drop count, holds.dropped within (.inr ⟨rfl, inside.2⟩) s.resetting ?_, ?_⟩
      · intro head member
        rw [Option.isNone_iff_eq_none.mp inside.1] at member
        cases member
      · dsimp only
        rw [holds.bytes_eq within]
        have taken := @Fifo.Move.take _ mask (queue.take count) (queue.drop count)
        rwa [List.take_append_drop] at taken
    · exact same
  | reset =>
    dsimp only [Slot.step]
    split
    · refine ⟨queue, ⟨used, bounded, holds.bytes, holds.seen, holds.checks, holds.copies, ?_⟩, rfl⟩
      intro head member
      cases member
      exact Nat.le_of_eq used
    · exact same
  | resetDone =>
    dsimp only [Slot.step]
    split
    · rename_i head resetting
      have within := holds.resets head resetting
      have moved : s.ring.tail + BitVec.ofNat 16 (head - s.ring.tail).toNat = head := by
        rw [BitVec.ofNat_toNat, BitVec.setWidth_eq]
        bv_omega
      have dropped := holds.dropped within (.inl rfl) none (by simp)
      rw [moved] at dropped
      refine ⟨queue.drop (head - s.ring.tail).toNat, dropped, ?_⟩
      · dsimp only
        rw [holds.bytes_eq within]
        have discarded := @Fifo.Move.discard _ mask (queue.take (head - s.ring.tail).toNat)
          (queue.drop (head - s.ring.tail).toNat)
        rwa [List.take_append_drop] at discarded
    · exact same

end Holds

/-- The ring of one connection under a run, seen alone. -/
def slotSystem : Emitter Slot Op (Act Byte) := ⟨fun s op => (s.step op).1, fun s op => (s.step op).2⟩

/-- The steps of a run that are on a ring. -/
def opsOn (slot : Fin 8) (events : List Event) : List Op :=
  events.filterMap fun event => if connTxSlot event.connId = some slot then some event.op else none

section Runs

variable {rings : Rings} {s : Slot} {queue : List Byte}

theorem Holds.run (holds : Holds s queue) (ops : List Op) :
    ∃ last, Holds (slotSystem.run s ops) last ∧ Fifo.Moves mask queue (slotSystem.emitted s ops) last := by
  induction ops generalizing s queue with
  | nil => exact ⟨queue, holds, .nil⟩
  | cons op ops ih =>
    obtain ⟨next, holds, moves⟩ := holds.step op
    obtain ⟨last, holds_last, rest⟩ := ih holds
    refine ⟨last, holds_last, ?_⟩
    rw [Emitter.emitted]
    change Fifo.Moves mask queue ((s.step op).2.toList ++ _) last
    cases acts : (s.step op).2 with
    | none =>
      rw [acts] at moves
      subst moves
      exact rest
    | some act =>
      rw [acts] at moves
      exact .cons moves rest

theorem step_on (slot : Fin 8) (event : Event) :
    step rings event slot =
      if connTxSlot event.connId = some slot then ((rings slot).step event.op).1 else rings slot := by
  unfold step
  cases mapped : connTxSlot event.connId with
  | none => rfl
  | some other =>
    by_cases same : other = slot
    · subst same
      rw [if_pos rfl]
      exact Function.update_self _ _ _
    · rw [if_neg (by simpa using same)]
      exact Function.update_of_ne (Ne.symm same) _ _

theorem emit_on (slot : Fin 8) (event : Event) :
    actsOn slot (emit rings event).toList =
      if connTxSlot event.connId = some slot then ((rings slot).step event.op).2.toList else [] := by
  unfold emit
  cases mapped : connTxSlot event.connId with
  | none => rfl
  | some other =>
    cases acts : ((rings other).step event.op).2 with
    | none =>
      by_cases same : other = slot
      · subst same
        simp [acts, actsOn]
      · simp [acts, actsOn, same]
    | some act =>
      by_cases same : other = slot
      · subst same
        simp [acts, actsOn]
      · simp [acts, actsOn, same]

theorem run_on (slot : Fin 8) (events : List Event) :
    system.run rings events slot = slotSystem.run (rings slot) (opsOn slot events) ∧
      actsOn slot (system.emitted rings events) = slotSystem.emitted (rings slot) (opsOn slot events) := by
  induction events generalizing rings with
  | nil => exact ⟨rfl, rfl⟩
  | cons event events ih =>
    obtain ⟨ran, acted⟩ := @ih (step rings event)
    have now := @step_on rings slot event
    have acts := @emit_on rings slot event
    have split : actsOn slot (system.emitted rings (event :: events)) =
        actsOn slot (emit rings event).toList ++ actsOn slot (system.emitted (step rings event) events) := by
      rw [Emitter.emitted]
      exact List.filterMap_append ..
    by_cases mapped : connTxSlot event.connId = some slot
    · have ops : opsOn slot (event :: events) = event.op :: opsOn slot events := by simp [opsOn, mapped]
      rw [if_pos mapped] at now acts
      refine ⟨?_, ?_⟩
      · rw [ops]
        exact ran.trans (by rw [now]; rfl)
      · rw [split, acts, acted, now, ops, Emitter.emitted]
        rfl
    · have ops : opsOn slot (event :: events) = opsOn slot events := by simp [opsOn, mapped]
      rw [if_neg mapped] at now acts
      refine ⟨?_, ?_⟩
      · rw [ops]
        exact ran.trans (by rw [now])
      · rw [split, acts, acted, now, ops]
        rfl

end Runs

theorem holds_initial : Holds {} [] where
  used := rfl
  bounded := Nat.zero_le _
  bytes := by simp
  seen := Nat.zero_le _
  checks := by simp
  copies := by simp
  resets := by simp

end BenchPod.ConnTx
