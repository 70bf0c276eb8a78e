import BenchPod.Capture.PumpFits

/-!
# A read-back that stalls

Every poll of the captures lets the pump go on.  A connection that takes nothing for `BULK_STALL_MS` is given up, unless
its free space lies between what refreshes the stamp of progress and what a frame needs.
-/

namespace BenchPod.Capture

open Json Command

/-- `bulk_pump`, for at most so many turns of its loop, and what it passes to `at_send_data`. -/
def Pumping.bulkPump : Nat → Pumping → (Nat → Found) → Pumping × List (List Byte)
  | 0, s, _ => (s, [])
  | turns + 1, s, seen =>
    let after := s.turn (seen 0)
    match after.2 with
    | none => (after.1, [])
    | some text =>
      let rest := bulkPump turns after.1 fun i => seen (i + 1)
      (rest.1, text :: rest.2)

/-- A read-back in progress: the pod, its `bulk`, and whether the PSRAM's bus is held for it. -/
structure Reading where
  pod : Pod
  pump : Pumping
  psram : Bool

/-- A call of `capture_poll`: what the hardware answers, and what each turn of the pump finds. -/
structure Polled where
  pass : Pass := {}
  turns : Nat := 0
  found : Nat → Found

namespace Reading

variable (r : Reading) (p : Polled)

/-- What the pump comes to in a poll. -/
def pumped : Pumping × List (List Byte) := r.pump.bulkPump (p.turns + 1) p.found

/-- `capture_poll`; whichever way the pump ends a read-back out of the PSRAM, it lets go of the bus. -/
def poll : Reading :=
  let after := (r.pumped p).1
  { pod := r.pod.capturePoll { p.pass with sent := if after.ended.isSome then none else some after.bulk.sent }
    pump := after
    psram := r.psram && !(after.ended.isSome && after.bulk.fromPsram) }

end Reading

/-- Poll after poll, with the frames that are passed on. -/
def polling : Emitter Reading Polled (List (List Byte)) where
  step := Reading.poll
  emit r p := if (r.pumped p).2 = [] then none else some (r.pumped p).2

/-- The free space a frame of the next kind needs. -/
def frameNeeds (b : Bulk) : Nat :=
  if b.adcSamples ≤ b.sent ∧ (b.chg = true ∨ b.is16 = true ∧ b.fromPsram = true) then 200
  else if b.b64 = true ∧ b.is16 = true then bulkFooterReserve b + bulkB64HeaderMax + 9
  else bulkFooterReserve b + 8

/-- Free space that counts as progress, with no frame that fits it. -/
def Waits (b : Bulk) (free : Nat) : Prop := 96 ≤ free ∧ free < frameNeeds b

namespace Pumping

variable {s : Pumping} {seen : Found}

theorem denseCount_eq_zero (left : s.bulk.sent < s.bulk.total) :
    s.denseCount seen.avail = 0 ↔
      seen.avail < if s.bulk.b64 = true ∧ s.bulk.is16 = true then bulkFooterReserve s.bulk + bulkB64HeaderMax + 9
        else bulkFooterReserve s.bulk + 8 := by
  have room : s.denseRoom seen.avail = 0 ↔
      seen.avail < if s.bulk.b64 = true ∧ s.bulk.is16 = true then bulkFooterReserve s.bulk + bulkB64HeaderMax + 9
        else bulkFooterReserve s.bulk + 8 := by
    have compact : s.dense64 = true ↔ s.bulk.b64 = true ∧ s.bulk.is16 = true := Bool.and_eq_true_iff
    rw [denseRoom]
    simp only [compact]
    split
    · split <;> omega
    · split <;> omega
  have chunk : chunkSamples = 256 := rfl
  rw [← room, denseCount]
  split <;> omega

theorem frameNeeds_region (region : s.bulk.adcSamples ≤ s.bulk.sent)
    (kind : s.bulk.chg = true ∨ s.bulk.is16 = true ∧ s.bulk.fromPsram = true) : frameNeeds s.bulk = 200 :=
  if_pos ⟨region, kind⟩

theorem changes_silent (silent : (s.bulkPumpChanges seen).2 = none) :
    (s.bulkPumpChanges seen).1 = { s with ended := some .unreadable } := by
  rw [bulkPumpChanges] at silent ⊢
  split at silent
  · rfl
  · cases silent
  · cases silent

theorem la_silent (silent : (s.laTurn seen).2 = none) :
    (s.laTurn seen).1 = if seen.avail < 200 then s else { s with ended := some .unreadable } := by
  rw [laTurn] at silent ⊢
  split
  · rfl
  next room =>
    rw [if_neg room] at silent
    split
    · rfl
    next reads =>
      rw [if_neg reads] at silent
      cases silent

theorem dense_silent (left : s.bulk.sent < s.bulk.total) (silent : (s.denseTurn seen).2 = none) :
    (s.denseTurn seen).1 =
      if seen.avail < if s.bulk.b64 = true ∧ s.bulk.is16 = true then bulkFooterReserve s.bulk + bulkB64HeaderMax + 9
        else bulkFooterReserve s.bulk + 8 then s
      else { s with ended := some .unreadable } := by
  have room := @denseCount_eq_zero s seen left
  generalize (if s.bulk.b64 = true ∧ s.bulk.is16 = true then bulkFooterReserve s.bulk + bulkB64HeaderMax + 9
    else bulkFooterReserve s.bulk + 8) = need at room ⊢
  rw [denseTurn] at silent ⊢
  simp only [room] at silent ⊢
  split
  · rfl
  next some_room =>
    rw [if_neg some_room] at silent
    split
    · rfl
    next reads =>
      rw [if_neg reads] at silent
      cases silent

theorem turn_silent (active : s.ended = none) (left : s.bulk.sent < s.bulk.total) (silent : (s.turn seen).2 = none) :
    (s.turn seen).1 =
      if seen.avail < 96 then
        if bulkStallMs < (seen.now - s.progress).toNat then { s with ended := some .stalled } else s
      else if seen.avail < frameNeeds s.bulk then { s with progress := seen.now }
      else { s with progress := seen.now, ended := some .unreadable } := by
  have on : ¬s.ended.isSome = true := by simp [active]
  rw [turn, if_neg on, if_neg (Nat.not_le.mpr left)] at silent ⊢
  split
  · split <;> rfl
  next room =>
    rw [if_neg room] at silent
    simp only at silent ⊢
    by_cases changes : s.bulk.chg = true ∧ s.bulk.adcSamples ≤ s.bulk.sent
    · rw [if_pos changes, frameNeeds_region changes.2 (.inl changes.1)] at *
      split
      · rfl
      next free =>
        rw [if_neg free] at silent
        exact changes_silent silent
    rw [if_neg changes] at silent ⊢
    by_cases words : s.bulk.is16 = true ∧ s.bulk.fromPsram = true ∧ s.bulk.adcSamples ≤ s.bulk.sent
    · rw [if_pos words] at silent ⊢
      rw [frameNeeds_region words.2.2 (.inr ⟨words.1, words.2.1⟩)]
      exact la_silent silent
    · rw [if_neg words] at silent ⊢
      have needs : frameNeeds s.bulk =
          if s.bulk.b64 = true ∧ s.bulk.is16 = true then bulkFooterReserve s.bulk + bulkB64HeaderMax + 9
          else bulkFooterReserve s.bulk + 8 := by
        rw [frameNeeds, if_neg]
        rintro ⟨region, chg | la⟩
        · exact changes ⟨chg, region⟩
        · exact words ⟨la.1, la.2, region⟩
      rw [needs]
      exact dense_silent left silent

theorem turn_over (past : s.ended.isSome = true) : s.turn seen = (s, none) := by
  rw [turn, if_pos past]

theorem bulkPump_silent {turns : Nat} {found : Nat → Found} (silent : (s.bulkPump (turns + 1) found).2 = []) :
    (s.turn (found 0)).2 = none ∧ s.bulkPump (turns + 1) found = ((s.turn (found 0)).1, []) := by
  rw [bulkPump] at silent ⊢
  split at silent
  · next none => exact ⟨none, rfl⟩
  · exact nomatch silent

end Pumping

namespace Reading

/-- Nothing else is in flight. -/
structure Idle (s : Pod) : Prop where
  trigwait : s.trigwait = none
  v2cap : s.v2cap = none
  lacap : s.lacap = none
  chgscan : s.chgscan = none
  dualcap : s.dualcap = none

/-- A read-back that goes on: it has the gate, and the PSRAM's bus where it reads the PSRAM. -/
structure InProgress (r : Reading) : Prop where
  idle : Idle r.pod
  bulk : r.pod.bulk = some r.pump.bulk
  owner : r.pod.heavyOwner = some (.conn r.pump.bulk.connId)
  psram : r.psram = r.pump.bulk.fromPsram
  active : r.pump.ended = none
  left : r.pump.bulk.sent < r.pump.bulk.total

/-- The read-back is over: `bulk` is inactive, the bus is released and the gate is free. -/
structure Over (r : Reading) : Prop where
  idle : Idle r.pod
  ended : r.pump.ended.isSome = true
  bulk : r.pod.bulk = none
  owner : r.pod.heavyOwner = none
  psram : r.psram = false

variable {r : Reading} {p : Polled} {free : Nat}

theorem Idle.capturePoll {s : Pod} (idle : Idle s) (pass : Pass) : s.capturePoll pass = s.bulkPump pass := by
  simp only [Pod.capturePoll, Pod.pollTrigger, Pod.pollV2cap, Pod.pollLacap, Pod.pollChgscan, Pod.pollDualcap,
    idle.trigwait, idle.v2cap, idle.lacap, idle.chgscan, idle.dualcap]

theorem InProgress.waits (reading : r.InProgress) {stamp : Word}
    (waits : (r.pumped p).1 = { r.pump with progress := stamp }) :
    r.poll p = { r with pump := { r.pump with progress := stamp } } := by
  have active : ({ r.pump with progress := stamp } : Pumping).ended.isSome = false := by
    rw [reading.active]
    rfl
  rw [poll, waits, reading.idle.capturePoll]
  simp only [active, Bool.false_and, Bool.not_false, Bool.and_true, Bool.false_eq_true, if_false, Pod.bulkPump,
    reading.bulk]
  rw [← reading.bulk]

theorem InProgress.ends (reading : r.InProgress) (ended : (r.pumped p).1.ended.isSome = true)
    (same : (r.pumped p).1.bulk = r.pump.bulk) : (r.poll p).Over := by
  have pod : (r.poll p).pod = Pod.heavyRelease { r.pod with bulk := none } (.conn r.pump.bulk.connId) := by
    rw [poll, reading.idle.capturePoll]
    simp only [ended, if_true, Pod.bulkPump, reading.bulk]
  have free : (r.poll p).pod = { r.pod with bulk := none, heavyOwner := none } := by
    rw [pod, Pod.heavyRelease, if_pos reading.owner]
  refine ⟨?_, ended, ?_, ?_, ?_⟩
  · rw [free]
    exact ⟨reading.idle.trigwait, reading.idle.v2cap, reading.idle.lacap, reading.idle.chgscan, reading.idle.dualcap⟩
  · rw [free]
  · rw [free]
  · rw [poll]
    simp only [ended, same, reading.psram, Bool.true_and, Bool.and_not_self]

theorem Over.poll (past : r.Over) : (r.poll p).Over ∧ (r.pumped p).2 = [] := by
  have pumped : r.pumped p = (r.pump, []) := by rw [Reading.pumped, Pumping.bulkPump, Pumping.turn_over past.ended]
  have pod : (r.poll p).pod = r.pod := by
    rw [Reading.poll, past.idle.capturePoll]
    simp only [Pod.bulkPump, past.bulk]
  refine ⟨⟨?_, ?_, ?_, ?_, ?_⟩, by rw [pumped]⟩
  · rw [pod]
    exact past.idle
  · rw [Reading.poll, pumped]
    exact past.ended
  · rw [pod]
    exact past.bulk
  · rw [pod]
    exact past.owner
  · rw [Reading.poll, past.psram]
    rfl

theorem InProgress.polled (reading : r.InProgress) (stuck : (p.found 0).avail = free)
    (silent : (r.pumped p).2 = []) :
    if free < 96 then
      if bulkStallMs < ((p.found 0).now - r.pump.progress).toNat then (r.poll p).Over else r.poll p = r
    else if free < frameNeeds r.pump.bulk then
      r.poll p = { r with pump := { r.pump with progress := (p.found 0).now } }
    else (r.poll p).Over := by
  obtain ⟨none, pumped⟩ := Pumping.bulkPump_silent silent
  have turned := Pumping.turn_silent reading.active reading.left none
  have pumped : (r.pumped p).1 = (r.pump.turn (p.found 0)).1 := congrArg Prod.fst pumped
  rw [← pumped, stuck] at turned
  split
  · next short =>
      rw [if_pos short] at turned
      split
      · next late =>
          rw [if_pos late] at turned
          exact reading.ends (by rw [turned]; rfl) (by rw [turned])
      · next early =>
          rw [if_neg early] at turned
          exact @InProgress.waits r p reading r.pump.progress turned
  next free96 =>
    rw [if_neg free96] at turned
    split
    · next short =>
        rw [if_pos short] at turned
        exact reading.waits turned
    · next room =>
        rw [if_neg room] at turned
        exact reading.ends (by rw [turned]; rfl) (by rw [turned])

theorem silent_cons {polls : List Polled} (silent : polling.emitted r (p :: polls) = []) :
    (r.pumped p).2 = [] ∧ polling.emitted (r.poll p) polls = [] := by
  rw [Emitter.emitted, List.append_eq_nil_iff, Option.toList_eq_nil_iff] at silent
  refine ⟨?_, silent.2⟩
  by_contra some_frame
  exact Option.some_ne_none _ ((if_neg some_frame).symm.trans silent.1)

theorem Over.run (past : r.Over) (polls : List Polled) : (polling.run r polls).Over := by
  induction polls generalizing r with
  | nil => exact past
  | cons p polls ih => exact ih past.poll.1

theorem InProgress.kept (reading : r.InProgress) (waits : Waits r.pump.bulk free) (polls : List Polled)
    (stuck : ∀ p ∈ polls, (p.found 0).avail = free) (silent : polling.emitted r polls = []) :
    (polling.run r polls).InProgress := by
  induction polls generalizing r with
  | nil => exact reading
  | cons p polls ih =>
    obtain ⟨now, later⟩ := silent_cons silent
    have same := reading.polled (stuck p List.mem_cons_self) now
    rw [if_neg (Nat.not_lt.mpr waits.1), if_pos waits.2] at same
    have next : (r.poll p).InProgress := by
      rw [same]
      exact ⟨reading.idle, reading.bulk, reading.owner, reading.psram, reading.active, reading.left⟩
    have still : Waits (r.poll p).pump.bulk free := by
      rw [same]
      exact waits
    exact ih next still (fun q member => stuck q (List.mem_cons_of_mem p member)) later

theorem InProgress.given_up (reading : r.InProgress) (free_ends : ¬Waits r.pump.bulk free) (front : List Polled)
    (final : Polled) (stuck : ∀ p ∈ front ++ [final], (p.found 0).avail = free)
    (late : bulkStallMs < ((final.found 0).now - r.pump.progress).toNat)
    (silent : polling.emitted r (front ++ [final]) = []) : (polling.run r (front ++ [final])).Over := by
  induction front generalizing r with
  | nil =>
    have last := reading.polled (stuck final List.mem_cons_self) (silent_cons silent).1
    rw [if_pos late] at last
    split at last
    · exact last
    · next room =>
        split at last
        · next short => exact absurd ⟨Nat.not_lt.mp room, short⟩ free_ends
        · exact last
  | cons p front ih =>
    obtain ⟨now, later⟩ := silent_cons silent
    have first := reading.polled (stuck p List.mem_cons_self) now
    have rest : ∀ q ∈ front ++ [final], (q.found 0).avail = free := fun q member =>
      stuck q (List.mem_cons_of_mem p member)
    split at first
    · split at first
      · exact first.run _
      · show (polling.run (r.poll p) (front ++ [final])).Over
        rw [first] at later ⊢
        exact ih reading free_ends rest late later
    · next room =>
        split at first
        · next short => exact absurd ⟨Nat.not_lt.mp room, short⟩ free_ends
        · exact first.run _

/-- On the wrapping clock a poll more than `BULK_STALL_MS` after the last frame leaves a read-back that sends nothing
over, unless the ring is stuck at a free space that counts as progress and that no frame of the next kind fits. -/
theorem stall_ends (r : Reading) (reading : r.InProgress) (last time free : Nat)
    (stamp : r.pump.progress = BitVec.ofNat 32 last) (front : List Polled) (final : Polled)
    (clock : (final.found 0).now = BitVec.ofNat 32 time) (late : last + bulkStallMs < time) (wrap : time < last + 2 ^ 32)
    (stuck : ∀ p ∈ front ++ [final], (p.found 0).avail = free)
    (silent : polling.emitted r (front ++ [final]) = []) :
    (polling.run r (front ++ [final])).Over ↔ ¬Waits r.pump.bulk free := by
  have passed : bulkStallMs < ((final.found 0).now - r.pump.progress).toNat := by
    have elapsed : (BitVec.ofNat 32 time - BitVec.ofNat 32 last).toNat = time - last := by
      rw [BitVec.toNat_sub, BitVec.toNat_ofNat, BitVec.toNat_ofNat]
      omega
    rw [clock, stamp, elapsed]
    omega
  constructor
  · intro past waits
    have kept := reading.kept waits _ stuck silent
    exact absurd past.ended (by rw [kept.active]; nofun)
  · exact fun free_ends => reading.given_up free_ends front final stuck passed silent

/-- The read-back of logic-analyzer words that has just started, with nothing else in flight. -/
def laReading : Reading where
  pod := { heavyOwner := some (.conn 0), bulk := some { connId := 0, total := 8, is16 := true, fromPsram := true } }
  pump := { bulk := { connId := 0, total := 8, is16 := true, fromPsram := true } }
  psram := true

theorem laReading_inProgress : laReading.InProgress := ⟨⟨rfl, rfl, rfl, rfl, rfl⟩, rfl, rfl, rfl, rfl, by decide⟩

/-- Stuck below 96 bytes, it is over after a minute. -/
theorem stall_ends_full :
    (polling.run laReading ([] ++ [{ found := fun _ => { avail := 40, now := 60000 } }])).Over ↔
      ¬Waits laReading.pump.bulk 40 := by
  refine stall_ends laReading laReading_inProgress 0 60000 40 rfl [] _ rfl (by decide) (by decide) ?_ (by decide +kernel)
  intro p member
  rw [List.mem_singleton.mp member]

/-- Stuck at 150 bytes, it is still there after a minute of polls that send nothing. -/
theorem stall_unnoticed :
    let polls : List Polled :=
      (List.range 61).map fun i => { found := fun _ => { avail := 150, now := BitVec.ofNat 32 (1000 * i) } }
    polling.emitted laReading polls = [] ∧ (polling.run laReading polls).pod.bulk.isSome = true ∧
      (polling.run laReading polls).psram = true ∧ (polling.run laReading polls).pod.heavyOwner = some (.conn 0) := by
  decide +kernel

end Reading
end BenchPod.Capture
