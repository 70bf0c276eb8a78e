import BenchPod.Dap.Proxy

/-!
# One connection in DAP mode

There is one SWD engine and one buffer for DAP frames.  A connection that arms the engine enters DAP mode
and leaves it by a frame or by being closed; the engine is also disarmed when nothing was sent for long
and when the gateware is loaded again.  A segment is taken byte by byte, as `Proxy.receive_fed` allows.
-/

namespace BenchPod.Dap

/-- The engine, the buffer, and the modes of the connections. -/
structure Probe (C : Type*) where
  /-- `swd_armed_local`, and the connection that armed the engine. -/
  armed : Option C := none
  /-- `spi_armed_local`. -/
  spi : Bool := false
  /-- The connection's mode is `PROTO_DAP`. -/
  dap : C → Bool := fun _ => false
  /-- The first `dap_rx_have` bytes of `dap_rx`, each with the connection it came from. -/
  rx : List (C × Byte) := []
  /-- `dap_dead_conn`. -/
  dead : Option C := none

/-- What happens on the worker. -/
inductive Happens (C : Type*)
  /-- `dap_start`; whether its voltage, pins and channels are right, and whether the engine is lost while it
  waits for the target. -/
  | start (c : C) (right lost : Bool)
  /-- A byte for a connection in DAP mode; whether there is room for a response and whether the engine is
  found lost while a packet runs. -/
  | byte (c : C) (b : Byte) (room lost : Bool)
  /-- `dap_poll`; whether nothing was sent for too long. -/
  | poll (late : Bool)
  | reconfigured
  | closed (c : C)
  /-- `spi_start` and `spi_stop`. -/
  | spi (on : Bool)
  /-- A command of a connection that is no stream sets another mode. -/
  | mode (c : C)

namespace Probe

variable {C : Type*} [DecidableEq C] (runs : C → Bool) (s : Probe C)

/-- A function changed at one connection. -/
def setDap (c : C) (on : Bool) : C → Bool := fun other => if other = c then on else s.dap other

/-- `swd_disarm_and_release`. -/
def disarm : Probe C := { s with armed := none }

/-- `handle_dap_start`; a stream's lines are not dispatched in DAP mode. -/
def dapStart (c : C) (right lost : Bool) : Probe C :=
  if runs c ∧ s.dap c then s
  else if right = false ∨ s.armed.isSome ∨ s.spi then s
  else { s with armed := if lost then none else some c, rx := [], dap := s.setDap c true }

/-- A packet keeps the engine or finds it lost. -/
def peer (room lost : Bool) : Peer Bool where
  room armed := (armed, room)
  run armed _ := armed && !lost

/-- The connection as `dap_proxy_receive` sees it. -/
def proxy (c : C) : Proxy Bool where
  pod := s.armed.isSome
  rx := s.rx.map Prod.snd
  dead := s.dead = some c

/-- A byte that `dap_proxy_receive` takes. -/
def dapByte (c : C) (b : Byte) (room lost : Bool) : Probe C :=
  if runs c ∧ s.dap c then
    let d := (Proxy.feed (peer room lost) (s.proxy c) b).1
    { s with
      armed := if d.left ∨ d.pod = false then none else s.armed
      dap := if d.left then s.setDap c false else s.dap
      rx := if s.dead = some c then s.rx else if d.rx = [] then [] else s.rx ++ [(c, b)]
      dead := if d.dead then some c else s.dead }
  else s

/-- `dap_conn_closed`, then `transport_conn_closed`. -/
def connClosed (c : C) : Probe C :=
  if runs c then
    let next := if s.dap c then { s.disarm with rx := [] } else s
    { next with dap := s.setDap c false, dead := if s.dead = some c then none else s.dead }
  else s

/-- One thing that happens. -/
def step : Happens C → Probe C
  | .start c right lost => s.dapStart runs c right lost
  | .byte c b room lost => s.dapByte runs c b room lost
  | .poll late => if late then s.disarm else s
  | .reconfigured => { s.disarm with spi := false }
  | .closed c => s.connClosed runs c
  | .spi on => if on then { s with spi := s.armed.isNone || s.spi } else { s with spi := false }
  | .mode c => if runs c then s else { s with dap := s.setDap c false }

/-- The worker as a system. -/
def system : Emitter (Probe C) (Happens C) Unit := ⟨step runs, fun _ _ => none⟩

/-- At most one connection is in DAP mode. -/
def One : Prop := ∀ c c', s.dap c → s.dap c' → c = c'

/-- The buffer holds bytes of the connection that armed the engine, and of no other. -/
def Owned : Prop := ∀ old ∈ s.rx, s.armed = some old.1

/-- What comes on a connection, and its close, leave the sessions of others armed. -/
def Spares (after : Probe C) : Happens C → Prop
  | .byte c .. | .closed c => ∀ other, other ≠ c → s.armed = some other → after.armed = some other
  | _ => True

/-- DAP mode is exclusive in a step and behind it. -/
def Exclusive (happens : Happens C) : Prop :=
  (s.step runs happens).One ∧ (s.step runs happens).Owned ∧ s.Spares (s.step runs happens) happens

/-- A session is not outlived: the engine is armed again only when no other connection is still in DAP
mode, it is not disarmed from behind within a frame, and no frame is sent once it was. -/
def NotOutlived : Happens C → Prop
  | .start c right _ =>
    ¬ (runs c ∧ s.dap c) → right → s.armed = none → s.spi = false → ∀ other, other ≠ c → s.dap other = false
  | .byte c .. => runs c → s.dap c → s.dead ≠ some c → s.armed.isSome
  | .poll late => late → s.rx = []
  | .reconfigured => s.rx = []
  | _ => True

/-- Where every session was left with its mode. -/
structure Kept : Prop where
  one : s.One
  /-- The engine is not armed for another connection than the one in DAP mode. -/
  mine : ∀ c c', s.dap c → s.armed = some c' → c = c'
  owned : ∀ old ∈ s.rx, s.armed = some old.1 ∧ s.dap old.1 ∧ runs old.1

variable {runs s} {c : C} {b : Byte} {room lost : Bool}

theorem feed_grows (d : Proxy Bool) (alive : d.dead = false) :
    Proxy.feed (peer room lost) d b = ({ d with rx := d.rx ++ [b] }, none) ∨
      (Proxy.feed (peer room lost) d b).1.rx = [] ∧ d.rx ≠ [] := by
  rw [Proxy.feed, alive, if_neg Bool.false_ne_true, Proxy.settle]
  dsimp only
  split_ifs with short long waits empty
  · exact .inl rfl
  · refine .inr ⟨rfl, ?_⟩
    rintro none
    rw [none] at short
    exact short Nat.one_lt_two
  · exact .inl rfl
  · refine .inr ⟨rfl, ?_⟩
    rintro none
    rw [none] at short
    exact short Nat.one_lt_two
  · refine .inr ⟨?_, ?_⟩
    · unfold Proxy.answer
      dsimp only
      split <;> rfl
    · rintro none
      rw [none] at short
      exact short Nat.one_lt_two

theorem setDap_false {other : C} (on : s.setDap c false other = true) : other ≠ c ∧ s.dap other = true := by
  unfold setDap at on
  split at on
  · cases on
  · rename_i differs
    exact ⟨differs, on⟩

theorem dapByte_grows (alive : s.dead ≠ some c) (stream : runs c = true) (dap : s.dap c = true) :
    s.dapByte runs c b room lost = { s with rx := s.rx ++ [(c, b)] } ∨
      s.rx ≠ [] ∧ (s.dapByte runs c b room lost).rx = [] ∧
        ((s.dapByte runs c b room lost).armed = s.armed ∨ (s.dapByte runs c b room lost).armed = none) ∧
        ((s.dapByte runs c b room lost).dap = s.dap ∨ (s.dapByte runs c b room lost).dap = s.setDap c false) := by
  have alive' : (s.proxy c).dead = false := decide_eq_false alive
  rw [dapByte, if_pos ⟨stream, dap⟩]
  obtain here | ⟨past, begun⟩ := feed_grows (b := b) (s.proxy c) alive'
  · refine .inl ?_
    rw [here]
    cases armed : s.armed with
    | none => simp [proxy, alive]
    | some owner => simp [proxy, alive, armed]
  · refine .inr ⟨?_, ?_, ?_, ?_⟩
    · rintro none
      exact begun (by rw [proxy, none]; rfl)
    · dsimp only
      rw [if_neg alive, if_pos past]
    · dsimp only
      split
      · exact .inr rfl
      · exact .inl rfl
    · dsimp only
      split
      · exact .inr rfl
      · exact .inl rfl

theorem dapByte_dead (dead : s.dead = some c) : s.dapByte runs c b room lost = s := by
  have dead' : (s.proxy c).dead = true := decide_eq_true dead
  unfold dapByte
  split
  · rw [Proxy.feed, dead', if_pos rfl]
    obtain ⟨armed, spi, dap, rx, dead⟩ := s
    cases armed <;> simp_all [proxy]
  · rfl

theorem dapByte_other (other : ¬ (runs c = true ∧ s.dap c = true)) : s.dapByte runs c b room lost = s := if_neg other

theorem Kept.leaves (kept : s.Kept runs) (clear : ∀ old ∈ s.rx, old.1 ≠ c) (dead : Option C) :
    { s with dap := s.setDap c false, dead : Probe C }.Kept runs where
  one c₁ c₂ on₁ on₂ := kept.one c₁ c₂ (setDap_false on₁).2 (setDap_false on₂).2
  mine c₁ c₂ on armed := kept.mine c₁ c₂ (setDap_false on).2 armed
  owned old member := by
    obtain ⟨armed, dap, stream⟩ := kept.owned old member
    exact ⟨armed, (if_neg (clear old member)).trans dap, stream⟩

theorem Kept.step (kept : s.Kept runs) {happens : Happens C} (right : s.NotOutlived runs happens) :
    (s.step runs happens).Kept runs := by
  have same := kept
  obtain ⟨one, mine, owned⟩ := kept
  cases happens with
  | start c asked lost =>
    change (s.dapStart runs c asked lost).Kept runs
    unfold dapStart
    split_ifs with raw refused
    · exact same
    · exact same
    all_goals
      simp only [not_or, Bool.not_eq_false, Bool.not_eq_true, Option.isSome_eq_false_iff,
        Option.isNone_iff_eq_none] at refused
      have others := right raw refused.1 refused.2.1 refused.2.2
      have only : ∀ other, s.setDap c true other = true → other = c := by
        intro other on
        by_contra differs
        rw [setDap, if_neg differs, others other differs] at on
        cases on
      refine ⟨fun c₁ c₂ on₁ on₂ => (only c₁ on₁).trans (only c₂ on₂).symm, fun c₁ c₂ on armed => ?_, nofun⟩
      cases armed
      try exact only c₁ on
  | byte c b room lost =>
    change (s.dapByte runs c b room lost).Kept runs
    by_cases mode : runs c = true ∧ s.dap c = true
    · by_cases dead : s.dead = some c
      · rw [dapByte_dead dead]
        exact same
      · obtain ⟨owner, armed⟩ := Option.isSome_iff_exists.mp (right mode.1 mode.2 dead)
        obtain rfl := mine c owner mode.2 armed
        obtain grows | ⟨-, past, engine, dap⟩ := dapByte_grows (b := b) dead mode.1 mode.2
        · rw [grows]
          refine ⟨one, mine, fun old member => ?_⟩
          obtain before | now := List.mem_append.mp member
          · exact owned old before
          · obtain rfl := List.mem_singleton.mp now
            exact ⟨armed, mode.2, mode.1⟩
        · have still : ∀ other, (s.dapByte runs c b room lost).dap other = true → s.dap other = true := by
            intro other on
            obtain kept | left := dap
            · rwa [kept] at on
            · rw [left] at on
              exact (setDap_false on).2
          refine ⟨fun c₁ c₂ on₁ on₂ => one c₁ c₂ (still c₁ on₁) (still c₂ on₂), fun c₁ c₂ on armed' => ?_, ?_⟩
          · obtain kept | none := engine
            · exact mine c₁ c₂ (still c₁ on) (kept ▸ armed')
            · rw [none] at armed'
              cases armed'
          · rw [past]
            nofun
    · rw [dapByte_other mode]
      exact same
  | poll late =>
    change (if late then s.disarm else s).Kept runs
    split
    · rename_i late
      refine ⟨one, nofun, fun old member => ?_⟩
      rw [disarm, right late] at member
      cases member
    · exact same
  | reconfigured =>
    refine ⟨one, nofun, fun old member => ?_⟩
    have none : s.rx = [] := right
    change old ∈ s.rx at member
    rw [none] at member
    cases member
  | closed c =>
    change (s.connClosed runs c).Kept runs
    unfold connClosed
    generalize (if s.dead = some c then none else s.dead) = dead
    split_ifs with stream mode
    · exact ⟨fun c₁ c₂ on₁ on₂ => one c₁ c₂ (setDap_false on₁).2 (setDap_false on₂).2, nofun, nofun⟩
    · refine same.leaves (fun old member => ?_) _
      rintro rfl
      exact mode (owned old member).2.1
    · exact same
  | spi on =>
    change (if on then _ else _ : Probe C).Kept runs
    split
    · exact ⟨one, mine, owned⟩
    · exact ⟨one, mine, owned⟩
  | mode c =>
    change (if runs c then s else { s with dap := s.setDap c false }).Kept runs
    split_ifs with stream
    · exact same
    · refine same.leaves (fun old member => ?_) s.dead
      rintro rfl
      exact stream (owned old member).2.2

/-- A step keeps DAP mode exclusive just when it does not outlive a session. -/
theorem Kept.exclusive_iff (kept : s.Kept runs) (happens : Happens C) :
    s.NotOutlived runs happens ↔ s.Exclusive runs happens := by
  constructor
  · intro right
    have next := kept.step right
    refine ⟨next.one, fun old member => (next.owned old member).1, ?_⟩
    cases happens with
    | byte c b room lost =>
      intro other differs armed
      change (s.dapByte runs c b room lost).armed = some other
      by_cases mode : runs c = true ∧ s.dap c = true
      · exact absurd (kept.mine c other mode.2 armed).symm differs
      · rw [dapByte_other mode]
        exact armed
    | closed c =>
      intro other differs armed
      change (s.connClosed runs c).armed = some other
      unfold connClosed
      generalize (if s.dead = some c then none else s.dead) = dead
      split_ifs with stream mode
      · exact absurd (kept.mine c other mode armed).symm differs
      · exact armed
      · exact armed
    | _ => exact trivial
  · rintro ⟨one, owned, -⟩
    cases happens with
    | start c asked lost =>
      rintro raw rfl free idle other differs
      have armed : s.step runs (.start c true lost) =
          { s with armed := if lost then none else some c, rx := [], dap := s.setDap c true } := by
        change s.dapStart runs c true lost = _
        rw [dapStart, if_neg raw, if_neg (by simp [free, idle])]
      rw [armed] at one
      refine Bool.eq_false_iff.mpr fun on => differs ?_
      exact (one c other (if_pos rfl) ((if_neg differs).trans on)).symm
    | byte c b room lost =>
      intro stream dap alive
      by_contra disarmed
      have none : s.armed = none := by simpa using disarmed
      change (s.dapByte runs c b room lost).Owned at owned
      obtain grows | ⟨begun, -⟩ := dapByte_grows (b := b) alive stream dap
      · rw [grows] at owned
        have mine := owned (c, b) (List.mem_append_right _ (List.mem_singleton_self _))
        rw [none] at mine
        cases mine
      · obtain ⟨old, member⟩ := List.exists_mem_of_ne_nil _ begun
        have mine := (kept.owned old member).1
        rw [none] at mine
        cases mine
    | poll late =>
      rintro rfl
      exact List.eq_nil_iff_forall_not_mem.mpr fun old member => nomatch owned old member
    | reconfigured => exact List.eq_nil_iff_forall_not_mem.mpr fun old member => nomatch owned old member
    | _ => exact trivial

end Probe

open Probe

/-- Along a run at most one connection is in DAP mode, the buffer holds only bytes of the connection whose
session is armed, and no connection ends another's session, just when no session is outlived. -/
theorem dap_exclusive {C : Type*} [DecidableEq C] (runs : C → Bool) (events : List (Happens C)) :
    (system runs).Along (Exclusive runs) {} events ↔ (system runs).Along (NotOutlived runs) {} events := by
  have fresh : ({} : Probe C).Kept runs := ⟨nofun, nofun, nofun⟩
  exact ((system runs).along_iff (Probe.Kept runs) (fun kept => kept.exclusive_iff _) (fun kept => kept.step) fresh).symm

/-- A connection whose session ran out stays in DAP mode while another starts its own, and ends that one
when it is closed. -/
theorem dap_not_exclusive :
    ¬ (system fun _ => true).Along (Exclusive fun _ => true) ({} : Probe (Fin 2))
      [.start 0 true false, .poll true, .start 1 true false, .closed 0] := by
  rintro ⟨-, -, ⟨one, -, -⟩, -⟩
  exact absurd (one 0 1 rfl rfl) (by decide)

end BenchPod.Dap
