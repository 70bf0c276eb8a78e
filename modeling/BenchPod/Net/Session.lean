import BenchPod.Command.Tunnel
import BenchPod.Worker.Teardown

/-!
# Sessions and their output

A connection's number is used by one session after the other.  The worker's replies go into the
connection's ring, and the net task moves them to whoever has the connection then, unless a close or reset
of it is still marked.
-/

namespace BenchPod.Net

open HwWorker Command

/-- A connection: one of `NET_MAX_CONN` TCP slots, or a tunnel. -/
inductive Chan
  | lan (i : Fin 5)
  | tunnel (slot : Slot)
  deriving DecidableEq

/-- The number of a connection. -/
def Chan.id : Chan → Int
  | .lan i => i.val
  | .tunnel slot => connOf slot

def Chan.isLan : Chan → Bool
  | .lan _ => true
  | .tunnel _ => false

/-- All connections. -/
def chans : List Chan := (List.finRange 5).map .lan ++ (List.finRange 3).map .tunnel

/-- A byte of a ring, and the session whose input the worker was at when it wrote it. -/
structure Mark where
  byte : Byte
  session : Nat
  deriving DecidableEq

structure Sessions where
  hw : HwWorker.State := {}
  /-- `conn_pcb` holds a connection. -/
  pcb : Fin 5 → Bool := fun _ => false
  /-- `s_close_req`. -/
  closeReq : Fin 5 → Bool := fun _ => false
  /-- `s_tunnels`; a free slot is empty. -/
  ids : Slot → List Byte := fun _ => []
  ring : Chan → List Mark := fun _ => []
  /-- How many sessions a connection has had. -/
  session : Chan → Nat := fun _ => 0
  /-- The session of each message that waits for the worker. -/
  waiting : Chan → List Nat := fun _ => []
  /-- The session whose state the worker keeps for a connection. -/
  owner : Chan → Option Nat := fun _ => none

/-- What the net task and the worker do. -/
inductive Event
  /-- A client connects, and the LAN policy lets it. -/
  | accept
  | received (i : Fin 5) (data : List Byte)
  /-- A client closes, or its connection fails. -/
  | gone (i : Fin 5)
  /-- The worker asks for a connection to be closed, and the net task does it. -/
  | askClose (i : Fin 5)
  | applyRequests (i : Fin 5)
  | opened (id : List Byte)
  /-- tunnel.data: the decoded bytes, `none` when the frame is malformed. -/
  | data (id : List Byte) (bytes : Option (List Byte))
  | closed (id : List Byte)
  /-- The cloud link is dropped. -/
  | dropped
  /-- Work that concerns no connection. -/
  | other
  /-- The net task drains a ring, with room for so many bytes. -/
  | drain (chan : Chan) (room : Nat)
  /-- The worker's next step. -/
  | work (asks : Bool)
  /-- The worker writes a reply. -/
  | write (chan : Chan) (data : List Byte)

/-- Bytes that were sent on a session. -/
structure Delivered where
  chan : Chan
  session : Nat
  bytes : List Mark
  deriving DecidableEq

namespace Sessions

variable (s : Sessions)

/-- Somebody has the connection. -/
def isBound : Chan → Bool
  | .lan i => s.pcb i
  | .tunnel slot => s.ids slot ≠ []

def busy (chan : Chan) : Bool := s.hw.connBusy chan.id

/-- The slots, for `cl_tunnel_slot_by_id` and `cl_tunnel_free_slot`. -/
def tunnels : Tunnels := { ids := s.ids, hw := s.hw }

/-- `conn_tx_reset`. -/
def txReset (chan : Chan) : Sessions := { s with ring := Function.update s.ring chan [] }

/-- A connection's next session starts. -/
def nextSession (chan : Chan) : Sessions :=
  { s with session := Function.update s.session chan (s.session chan + 1) }

def submitTeardown (kind : Teardown) (chan : Chan) : Sessions :=
  { s with hw := s.hw.submitTeardown kind chan.id }

def submitBytes (chan : Chan) (data : List Byte) : Sessions :=
  { s with
    hw := s.hw.submitBytes chan.id data
    waiting :=
      if s.hw.refuses chan.id then s.waiting
      else Function.update s.waiting chan (s.waiting chan ++ [s.session chan]) }

/-- `conn_detach`. -/
def detach (i : Fin 5) : Sessions := { s with pcb := Function.update s.pcb i false }

/-- `srv_accept`. -/
def accept : Sessions :=
  match (List.finRange 5).find? fun i => s.pcb i = false ∧ s.busy (.lan i) = false with
  | none => s
  | some i =>
    { (s.txReset (.lan i)).nextSession (.lan i) with
      pcb := Function.update s.pcb i true
      closeReq := Function.update s.closeReq i false }

/-- `srv_recv` and `srv_err` when the connection ends. -/
def gone (i : Fin 5) : Sessions :=
  if s.pcb i then (s.submitTeardown .closed (.lan i)).detach i else s

/-- `net_apply_worker_requests` for one connection. -/
def applyRequests (i : Fin 5) : Sessions :=
  if s.closeReq i then
    (({ s with closeReq := Function.update s.closeReq i false }.detach i).txReset (.lan i)).submitTeardown
      .closed (.lan i)
  else s

/-- `cl_handle_tunnel_open`. -/
def handleOpen (id : List Byte) : Sessions :=
  match s.tunnels.slotToOpen id with
  | none => s
  | some slot =>
    ({ s with ids := setAt s.ids slot id }.nextSession (.tunnel slot)).txReset (.tunnel slot)
      |>.submitTeardown .reset (.tunnel slot)

/-- A bound slot is given up: `cl_tunnel_fail`, `cl_handle_tunnel_close`. -/
def release (slot : Slot) : Sessions :=
  ({ s with ids := setAt s.ids slot [] }.txReset (.tunnel slot)).submitTeardown .reset (.tunnel slot)

/-- `cl_handle_tunnel_close`. -/
def handleClose (id : List Byte) : Sessions :=
  match s.tunnels.slotById id with
  | none => s
  | some slot => s.release slot

/-- `cl_handle_tunnel_data`. -/
def handleData (id : List Byte) (bytes : Option (List Byte)) : Sessions :=
  match s.tunnels.slotById id with
  | none => s
  | some slot =>
    match bytes with
    | none => s.release slot
    | some [] => s
    | some raw => s.submitBytes (.tunnel slot) raw

/-- `cl_drop_link`. -/
def dropLink : Sessions := (List.finRange 3).foldl (fun s slot => if s.ids slot = [] then s else s.release slot) s

/-- One connection's share of `net_tx_drain`. -/
def drain (chan : Chan) (room : Nat) : Sessions :=
  let rest := { s with ring := Function.update s.ring chan ((s.ring chan).drop room) }
  match chan with
  | .lan i => if s.pcb i = true ∧ s.busy chan = false then rest else s
  | .tunnel slot => if s.busy chan then rest else if s.ids slot = [] then s else rest

/-- What is sent when a ring is drained. -/
def drained (chan : Chan) (room : Nat) : Option Delivered :=
  if s.isBound chan = true ∧ s.busy chan = false then
    some ⟨chan, s.session chan, (s.ring chan).take room⟩
  else none

/-- The session whose input the worker is at, for a connection. -/
def writer (chan : Chan) : Option Nat :=
  match s.hw.worker with
  | .handle _ ⟨.bytes _, connId⟩ => if connId.toInt = chan.id then (s.waiting chan).head? else s.owner chan
  | _ => s.owner chan

/-- `conn_tx_write`: all or nothing. -/
def write (chan : Chan) (data : List Byte) : Sessions :=
  match s.writer chan with
  | none => s
  | some session =>
    if 2047 - (s.ring chan).length < data.length then s
    else { s with ring := Function.update s.ring chan (s.ring chan ++ data.map fun b => ⟨b, session⟩) }

/-- The worker's next step.  A message that is handled makes its session the one the worker keeps state
for; a teardown drops that state. -/
def work (asks : Bool) : Sessions :=
  { s with
    hw := s.hw.work asks
    waiting := fun chan =>
      match s.hw.shows with
      | some (.processed connId _) => if connId = chan.id then (s.waiting chan).tail else s.waiting chan
      | _ => s.waiting chan
    owner := fun chan =>
      match s.hw.shows with
      | some (.processed connId _) => if connId = chan.id then (s.waiting chan).head? else s.owner chan
      | some (.ran connId _) => if connId = chan.id then none else s.owner chan
      | _ => s.owner chan }

def step : Event → Sessions
  | .accept => s.accept
  | .received i data => if s.pcb i then s.submitBytes (.lan i) data else s
  | .gone i => s.gone i
  | .askClose i => { s with closeReq := Function.update s.closeReq i true }
  | .applyRequests i => s.applyRequests i
  | .opened id => s.handleOpen (id.take 63)
  | .data id bytes => s.handleData (id.take 63) bytes
  | .closed id => s.handleClose (id.take 63)
  | .dropped => s.dropLink
  | .other => { s with hw := s.hw.submitOther }
  | .drain chan room => s.drain chan room
  | .work asks => s.work asks
  | .write chan data => s.write chan data

def emit : Event → Option Delivered
  | .drain chan room => s.drained chan room
  | _ => none

/-- The connection whose mark the worker's next step clears. -/
def cleared : Option Int :=
  match s.hw.worker with
  | .done _ connId _ => some connId.toInt
  | .closeDone id _ | .resetDone id => some id
  | _ => none

/-- Nothing of an earlier session is left for a connection: no message, and, when somebody has it again, no
output.  (A free tunnel slot is marked again before it is used.) -/
def Settled (chan : Chan) : Prop :=
  (s.isBound chan = true →
      (∀ session ∈ s.waiting chan, session = s.session chan) ∧ ∀ b ∈ s.ring chan, b.session = s.session chan) ∧
    (s.isBound chan = false → chan.isLan = true → s.waiting chan = [])

instance (chan : Chan) : Decidable (s.Settled chan) := inferInstanceAs (Decidable (_ ∧ _))

/-- A step that clears the mark of a connection only when nothing of an earlier session is left. -/
def Sound : Event → Prop
  | .work _ => ∀ connId ∈ s.cleared, ∀ chan ∈ chans, chan.id = connId → s.Settled chan
  | _ => True

instance (event : Event) : Decidable (s.Sound event) :=
  match event with
  | .work _ => inferInstanceAs (Decidable (∀ connId ∈ s.cleared, ∀ chan ∈ chans, chan.id = connId → s.Settled chan))
  | .accept | .received .. | .gone _ | .askClose _ | .applyRequests _ | .opened _ | .data .. | .closed _
  | .dropped | .other | .drain .. | .write .. => isTrue trivial

end Sessions

/-- The net task and the worker, and what is sent. -/
def sessions : Emitter Sessions Event Delivered := ⟨Sessions.step, Sessions.emit⟩

namespace Chan

theorem tracked (chan : Chan) : Tracked chan.id := by
  cases chan with
  | lan i =>
    revert i
    decide
  | tunnel slot => exact connOf_tracked slot

theorem mem_chans (chan : Chan) : chan ∈ chans := by
  cases chan <;> simp [chans]

end Chan

section busy

variable {hw : HwWorker.State} {chan other : Chan} {kind : Teardown}

theorem busy_iff : hw.connBusy chan.id = true ↔ ∃ kind, (hw.inflight chan.id).has kind = true := by
  have tracked := chan.tracked
  simp only [HwWorker.State.connBusy, tracked, decide_true, Bool.true_and, decide_eq_true_eq, ne_eq,
    Mask.eq_empty_iff, not_forall, Bool.not_eq_false]

theorem submitTeardown_worker : (hw.submitTeardown kind chan.id).worker = hw.worker := by
  unfold HwWorker.State.submitTeardown
  split_ifs <;> rfl

theorem submitTeardown_busy : (hw.submitTeardown kind chan.id).connBusy chan.id = true := by
  refine busy_iff.mpr ⟨kind, ?_⟩
  rw [HwWorker.State.submitTeardown, if_pos chan.tracked]
  split_ifs
  · exact HwWorker.State.mark_self kind
  · exact HwWorker.State.mark_self kind

theorem submitTeardown_keeps (busy : hw.connBusy other.id = true) :
    (hw.submitTeardown kind chan.id).connBusy other.id = true := by
  obtain ⟨marked, has⟩ := busy_iff.mp busy
  have still : ((hw.step (.submit (.teardown kind chan.id))).inflight other.id).has marked = true :=
    HwWorker.State.step_has has fun clears => clears
  exact busy_iff.mpr ⟨marked, still⟩

theorem submitBytes_keeps (hw : HwWorker.State) (chan : Chan) (data : List Byte) :
    (hw.submitBytes chan.id data).inflight = hw.inflight ∧ (hw.submitBytes chan.id data).worker = hw.worker := by
  unfold HwWorker.State.submitBytes
  split_ifs <;> exact ⟨rfl, rfl⟩

theorem submitOther_keeps (hw : HwWorker.State) :
    hw.submitOther.inflight = hw.inflight ∧ hw.submitOther.worker = hw.worker := by
  unfold HwWorker.State.submitOther
  split_ifs <;> exact ⟨rfl, rfl⟩

theorem work_busy (asks : Bool) (busy : hw.connBusy chan.id = true) :
    (hw.work asks).connBusy chan.id = true ∨ ∃ kind, hw.Clears chan.id kind (.work asks) := by
  obtain ⟨kind, has⟩ := busy_iff.mp busy
  by_cases clears : hw.Clears chan.id kind (.work asks)
  · exact .inr ⟨kind, clears⟩
  · have still : ((hw.step (.work asks)).inflight chan.id).has kind = true :=
      HwWorker.State.step_has has clears
    exact .inl (busy_iff.mpr ⟨kind, still⟩)

end busy

namespace Sessions

variable {s s' : Sessions} {chan : Chan}

/-- Everything the worker has of a connection is its current session's. -/
structure Pure (s : Sessions) (chan : Chan) : Prop where
  waiting : ∀ session ∈ s.waiting chan, session = s.session chan
  owner : ∀ session ∈ s.owner chan, session = s.session chan
  ring : ∀ b ∈ s.ring chan, b.session = s.session chan

/-- What a connection is held to while its mark is clear.  A TCP slot is held to it from the moment it is
taken, a free one has nothing left. -/
structure Kept (s : Sessions) (chan : Chan) : Prop where
  bound : s.isBound chan = true → (s.busy chan = false ∨ ∃ i, chan = .lan i) → s.Pure chan
  free : ∀ i, chan = .lan i → s.isBound chan = false → s.busy chan = false → s.waiting chan = [] ∧ s.owner chan = none
  ran : ∀ kind asks, s.hw.Clears chan.id kind (.work asks) → s.owner chan = none

theorem clears_congr {hw hw' : HwWorker.State} (worker : hw'.worker = hw.worker) {connId : Int}
    {kind : Teardown} {asks : Bool} :
    hw'.Clears connId kind (.work asks) ↔ hw.Clears connId kind (.work asks) := by
  unfold HwWorker.State.Clears
  rw [worker]

theorem Kept.congr (kept : s.Kept chan) (bound : s'.isBound chan = s.isBound chan)
    (busy : s.busy chan = true → s'.busy chan = true) (worker : s'.hw.worker = s.hw.worker)
    (session : s'.session chan = s.session chan) (waiting : s'.waiting chan = s.waiting chan)
    (owner : s'.owner chan = s.owner chan) (ring : s'.ring chan = s.ring chan) : s'.Kept chan := by
  have idle (idle : s'.busy chan = false) : s.busy chan = false := by
    cases was : s.busy chan with
    | false => rfl
    | true => rw [busy was] at idle; cases idle
  refine ⟨fun has free => ?_, fun i lan has free => ?_, fun kind asks clears => ?_⟩
  · have pure := kept.bound (bound ▸ has) (free.imp_left idle)
    refine ⟨?_, ?_, ?_⟩
    · rw [waiting, session]
      exact pure.waiting
    · rw [owner, session]
      exact pure.owner
    · rw [ring, session]
      exact pure.ring
  · rw [waiting, owner]
    exact kept.free i lan (bound ▸ has) (idle free)
  · rw [owner]
    exact kept.ran kind asks ((clears_congr worker).mp clears)

theorem Kept.of_free (kept : s.Kept chan) (bound : s'.isBound chan = false) (busy : s'.busy chan = true)
    (worker : s'.hw.worker = s.hw.worker) (owner : s'.owner chan = s.owner chan) : s'.Kept chan := by
  refine ⟨fun has => ?_, fun i lan has free => ?_, fun kind asks clears => ?_⟩
  · rw [bound] at has
    cases has
  · rw [busy] at free
    cases free
  · rw [owner]
    exact kept.ran kind asks ((clears_congr worker).mp clears)

theorem Kept.accept (kept : s.Kept chan) : s.accept.Kept chan := by
  unfold Sessions.accept
  split
  · exact kept
  · rename_i i found
    have idle := List.find?_some found
    obtain ⟨unbound, idle⟩ : s.pcb i = false ∧ s.busy (.lan i) = false := by simpa using idle
    by_cases same : chan = .lan i
    · subst same
      obtain ⟨waiting, owner⟩ := kept.free i rfl unbound idle
      refine ⟨fun _ _ => ⟨?_, ?_, ?_⟩, fun j lan has => ?_, kept.ran⟩
      · intro session member
        have left : session ∈ s.waiting (.lan i) := member
        rw [waiting] at left
        cases left
      · intro session member
        have left : session ∈ s.owner (.lan i) := member
        rw [owner] at left
        cases left
      · simp [nextSession, Sessions.txReset]
      · simp [isBound] at has
    · refine kept.congr ?_ id rfl ?_ rfl rfl ?_
      · cases chan with
        | lan j =>
          have apart : j ≠ i := fun equal => same (congrArg Chan.lan equal)
          simp [isBound, Function.update, apart]
        | tunnel slot => rfl
      · simp [nextSession, Sessions.txReset, Function.update, same]
      · simp [nextSession, Sessions.txReset, Function.update, same]

theorem Kept.submitBytes (kept : s.Kept chan) {other : Chan} (bound : s.isBound other = true)
    (data : List Byte) : (s.submitBytes other data).Kept chan := by
  obtain ⟨inflight, worker⟩ := submitBytes_keeps s.hw other data
  have busy : (s.submitBytes other data).busy chan = s.busy chan := by
    simp only [Sessions.busy, HwWorker.State.connBusy, Sessions.submitBytes, inflight]
  have waiting : ∀ session ∈ (s.submitBytes other data).waiting chan,
      session ∈ s.waiting chan ∨ session = s.session chan ∧ chan = other := by
    intro session member
    simp only [Sessions.submitBytes] at member
    split at member
    · exact .inl member
    · by_cases same : chan = other
      · subst same
        rw [Function.update_self, List.mem_append, List.mem_singleton] at member
        exact member.imp_right fun equal => ⟨equal, rfl⟩
      · rw [Function.update_of_ne same] at member
        exact .inl member
  refine ⟨fun has free => ?_, fun i lan has free => ?_, fun kind asks clears => ?_⟩
  · have pure := kept.bound has (busy ▸ free)
    refine ⟨fun session member => ?_, pure.owner, pure.ring⟩
    obtain old | ⟨equal, -⟩ := waiting session member
    · exact pure.waiting session old
    · exact equal
  · have was : s.isBound chan = false := has
    have apart : chan ≠ other := by
      rintro rfl
      rw [bound] at was
      cases was
    obtain ⟨none_, owner⟩ := kept.free i lan has (busy ▸ free)
    refine ⟨List.eq_nil_iff_forall_not_mem.mpr fun session member => ?_, owner⟩
    obtain old | ⟨-, equal⟩ := waiting session member
    · rw [none_] at old
      cases old
    · exact apart equal
  · exact kept.ran kind asks ((clears_congr worker).mp clears)

theorem Kept.gone (kept : s.Kept chan) (i : Fin 5) : (s.gone i).Kept chan := by
  unfold Sessions.gone
  split
  · by_cases same : chan = .lan i
    · subst same
      refine kept.of_free ?_ submitTeardown_busy submitTeardown_worker rfl
      exact Function.update_self ..
    · refine kept.congr ?_ submitTeardown_keeps submitTeardown_worker rfl rfl rfl rfl
      cases chan with
      | lan j =>
        have apart : j ≠ i := fun equal => same (congrArg Chan.lan equal)
        exact Function.update_of_ne apart ..
      | tunnel slot => rfl
  · exact kept

theorem Kept.applyRequests (kept : s.Kept chan) (i : Fin 5) : (s.applyRequests i).Kept chan := by
  unfold Sessions.applyRequests
  split
  · by_cases same : chan = .lan i
    · subst same
      refine kept.of_free ?_ submitTeardown_busy submitTeardown_worker rfl
      exact Function.update_self ..
    · refine kept.congr ?_ submitTeardown_keeps submitTeardown_worker rfl rfl rfl ?_
      · cases chan with
        | lan j =>
          have apart : j ≠ i := fun equal => same (congrArg Chan.lan equal)
          exact Function.update_of_ne apart ..
        | tunnel slot => rfl
      · exact Function.update_of_ne same ..
  · exact kept

theorem Kept.handleOpen (kept : s.Kept chan) (id : List Byte) : (s.handleOpen id).Kept chan := by
  unfold Sessions.handleOpen
  split
  · exact kept
  · rename_i slot _
    by_cases same : chan = .tunnel slot
    · subst same
      have busy : (({ s with ids := setAt s.ids slot id }.nextSession (.tunnel slot)).txReset (.tunnel slot)
          |>.submitTeardown .reset (.tunnel slot)).busy (.tunnel slot) = true := submitTeardown_busy
      refine ⟨fun _ free => ?_, fun i lan => ?_, fun kind asks clears => ?_⟩
      · obtain idle | ⟨i, lan⟩ := free
        · rw [busy] at idle
          cases idle
        · cases lan
      · cases lan
      · exact kept.ran kind asks ((clears_congr submitTeardown_worker).mp clears)
    · refine kept.congr ?_ submitTeardown_keeps submitTeardown_worker ?_ rfl rfl ?_
      · cases chan with
        | lan j => rfl
        | tunnel other =>
          have apart : other ≠ slot := fun equal => same (congrArg Chan.tunnel equal)
          have ids : setAt s.ids slot id other = s.ids other := setAt_ne _ _ apart
          simp [isBound, Sessions.submitTeardown, Sessions.txReset, nextSession, ids]
      · exact Function.update_of_ne same ..
      · exact Function.update_of_ne same ..

theorem Kept.release (kept : s.Kept chan) (slot : Slot) : (s.release slot).Kept chan := by
  by_cases same : chan = .tunnel slot
  · subst same
    refine kept.of_free ?_ submitTeardown_busy submitTeardown_worker rfl
    simp [isBound, Sessions.release, Sessions.submitTeardown, Sessions.txReset]
  · refine kept.congr ?_ submitTeardown_keeps submitTeardown_worker rfl rfl rfl ?_
    · cases chan with
      | lan j => rfl
      | tunnel other =>
        have apart : other ≠ slot := fun equal => same (congrArg Chan.tunnel equal)
        have ids : setAt s.ids slot [] other = s.ids other := setAt_ne _ _ apart
        simp [isBound, Sessions.release, Sessions.submitTeardown, Sessions.txReset, ids]
    · exact Function.update_of_ne same ..

theorem Kept.dropLink (kept : s.Kept chan) : s.dropLink.Kept chan := by
  rw [Sessions.dropLink]
  generalize List.finRange 3 = slots
  induction slots generalizing s with
  | nil => exact kept
  | cons slot slots ih =>
    rw [List.foldl_cons]
    split
    · exact ih kept
    · exact ih (kept.release slot)

theorem Kept.shorter (kept : s.Kept chan) {ring : Chan → List Mark} (fewer : ∀ b ∈ ring chan, b ∈ s.ring chan) :
    { s with ring }.Kept chan := by
  refine ⟨fun has free => ?_, kept.free, kept.ran⟩
  have pure := kept.bound has free
  exact ⟨pure.waiting, pure.owner, fun b member => pure.ring b (fewer b member)⟩

theorem Kept.drain (kept : s.Kept chan) (other : Chan) (room : Nat) : (s.drain other room).Kept chan := by
  have rest : { s with ring := Function.update s.ring other ((s.ring other).drop room) }.Kept chan := by
    refine kept.shorter fun b member => ?_
    by_cases same : chan = other
    · subst same
      rw [Function.update_self] at member
      exact List.mem_of_mem_drop member
    · rw [Function.update_of_ne same] at member
      exact member
  unfold Sessions.drain
  dsimp only
  cases other with
  | lan i =>
    dsimp only
    split
    · exact rest
    · exact kept
  | tunnel slot =>
    dsimp only
    split
    · exact rest
    · split
      · exact kept
      · exact rest

theorem writer_mem {session : Nat} (writes : s.writer chan = some session) :
    session ∈ s.waiting chan ∨ session ∈ s.owner chan := by
  unfold writer at writes
  split at writes
  · split at writes
    · exact .inl (List.mem_of_head? writes)
    · exact .inr writes
  · exact .inr writes

theorem Kept.write (kept : s.Kept chan) (other : Chan) (data : List Byte) : (s.write other data).Kept chan := by
  unfold Sessions.write
  split
  · exact kept
  · rename_i session writes
    split
    · exact kept
    · refine ⟨fun has free => ?_, kept.free, kept.ran⟩
      have pure := kept.bound has free
      refine ⟨pure.waiting, pure.owner, fun b member => ?_⟩
      by_cases same : chan = other
      · subst same
        dsimp only at member ⊢
        rw [Function.update_self] at member
        obtain old | new := List.mem_append.mp member
        · exact pure.ring b old
        · obtain ⟨byte, -, rfl⟩ := List.mem_map.mp new
          exact (writer_mem writes).elim (pure.waiting session) (pure.owner session)
      · dsimp only at member ⊢
        rw [Function.update_of_ne same] at member
        exact pure.ring b member

/-- The worker reaches the point where it clears a mark only from the teardown itself. -/
theorem ran_of_clears {hw : HwWorker.State} {connId : Int} {kind : Teardown} {asks again : Bool}
    (clears : (hw.work asks).Clears connId kind (.work again)) : hw.shows = some (.ran connId kind) := by
  obtain ⟨queue, inflight, parked, worker⟩ := hw
  cases worker with
  | receive taken =>
    simp only [HwWorker.State.work] at clears
    split at clears
    · cases queue with
      | nil => exact clears.elim
      | cons item queue => exact clears.elim
    · exact clears.elim
  | handle taken item =>
    obtain ⟨work, id⟩ := item
    cases work with
    | bytes data =>
      cases asks with
      | true => exact clears.elim
      | false => exact clears.elim
    | teardown other =>
      obtain ⟨rfl, rfl⟩ : id.toInt = connId ∧ other = kind := clears
      rfl
    | other => exact clears.elim
  | close id bits =>
    simp only [HwWorker.State.work] at clears
    split at clears
    · rename_i closed
      obtain ⟨rfl, rfl⟩ : (id : Int) = connId ∧ kind = .closed := clears
      exact if_pos closed
    · exact clears.elim
  | reset id bits =>
    simp only [HwWorker.State.work] at clears
    split at clears
    · rename_i reset
      obtain ⟨rfl, rfl⟩ : (id : Int) = connId ∧ kind = .reset := clears
      exact if_pos reset
    · exact clears.elim
  | send taken id =>
    simp only [HwWorker.State.work] at clears
    split at clears
    · split at clears <;> exact clears.elim
    · exact clears.elim
  | scan id =>
    simp only [HwWorker.State.work] at clears
    split at clears
    · split at clears <;> exact clears.elim
    · exact clears.elim
  | test taken id | check =>
    simp only [HwWorker.State.work] at clears
    split at clears <;> exact clears.elim
  | mark | park | done | take | closeDone | resetDone | polls => exact clears.elim

theorem shows_of_clears {hw : HwWorker.State} {connId : Int} {kind : Teardown} {asks : Bool}
    (clears : hw.Clears connId kind (.work asks)) : hw.shows = none := by
  obtain ⟨queue, inflight, parked, worker⟩ := hw
  cases worker with
  | done | closeDone | resetDone => rfl
  | _ => exact clears.elim

theorem work_waiting (s : Sessions) (asks : Bool) (chan : Chan) :
    ∀ session ∈ (s.work asks).waiting chan, session ∈ s.waiting chan := by
  intro session member
  simp only [Sessions.work] at member
  split at member
  · split at member
    · exact List.mem_of_mem_tail member
    · exact member
  · exact member

theorem work_owner (s : Sessions) (asks : Bool) (chan : Chan) :
    ∀ session ∈ (s.work asks).owner chan, session ∈ s.waiting chan ∨ session ∈ s.owner chan := by
  intro session member
  simp only [Sessions.work] at member
  split at member
  · split at member
    · exact .inl (List.mem_of_head? member)
    · exact .inr member
  · split at member
    · cases member
    · exact .inr member
  · exact .inr member

theorem cleared_of_clears {kind : Teardown} {asks : Bool} (clears : s.hw.Clears chan.id kind (.work asks)) :
    s.cleared = some chan.id := by
  unfold cleared
  unfold HwWorker.State.Clears at clears
  cases place : s.hw.worker with
  | done taken connId other =>
    rw [place] at clears
    exact congrArg some clears.1
  | closeDone id bits =>
    rw [place] at clears
    exact congrArg some clears.1
  | resetDone id =>
    rw [place] at clears
    exact congrArg some clears.1
  | _ =>
    rw [place] at clears
    exact clears.elim

theorem Kept.work (kept : s.Kept chan) {asks : Bool} (sound : s.Sound (.work asks)) : (s.work asks).Kept chan := by
  have ran : ∀ kind again, (s.work asks).hw.Clears chan.id kind (.work again) → (s.work asks).owner chan = none := by
    intro kind again clears
    have shows : s.hw.shows = some (.ran chan.id kind) := ran_of_clears clears
    simp [Sessions.work, shows]
  by_cases clears : ∃ kind, s.hw.Clears chan.id kind (.work asks)
  · -- the mark goes: what is left is the condition's business
    obtain ⟨kind, clears⟩ := clears
    have settled : s.Settled chan := sound chan.id (cleared_of_clears clears) chan chan.mem_chans rfl
    have owner := kept.ran kind asks clears
    have none_ : (s.work asks).owner chan = none := by
      rw [Option.eq_none_iff_forall_not_mem]
      intro session member
      simp only [Sessions.work, shows_of_clears clears, owner] at member
      cases member
    refine ⟨fun has _ => ?_, fun i lan has _ => ⟨?_, none_⟩, ran⟩
    · have bound : s.isBound chan = true := has
      obtain ⟨waiting, ring⟩ := settled.1 bound
      refine ⟨fun session member => waiting session (work_waiting s asks chan session member), ?_, ring⟩
      intro session member
      rw [none_] at member
      cases member
    · have free : s.isBound chan = false := has
      subst lan
      have waiting := settled.2 free rfl
      refine List.eq_nil_iff_forall_not_mem.mpr fun session member => ?_
      have left := work_waiting s asks _ session member
      rw [waiting] at left
      cases left
  · have idle (idle : (s.work asks).busy chan = false) : s.busy chan = false := by
      cases was : s.busy chan with
      | false => rfl
      | true =>
        obtain still | gone := work_busy asks was
        · have same : (s.work asks).busy chan = true := still
          rw [same] at idle
          cases idle
        · exact absurd gone clears
    refine ⟨fun has free => ?_, fun i lan has free => ?_, ran⟩
    · have pure := kept.bound has (free.imp_left idle)
      refine ⟨fun session member => pure.waiting session (work_waiting s asks chan session member), ?_, pure.ring⟩
      intro session member
      exact (work_owner s asks chan session member).elim (pure.waiting session) (pure.owner session)
    · obtain ⟨waiting, owner⟩ := kept.free i lan has (idle free)
      constructor
      · refine List.eq_nil_iff_forall_not_mem.mpr fun session member => ?_
        have left := work_waiting s asks chan session member
        rw [waiting] at left
        cases left
      · refine Option.eq_none_iff_forall_not_mem.mpr fun session member => ?_
        have left := work_owner s asks chan session member
        rw [waiting, owner] at left
        obtain left | left := left <;> cases left

theorem bound_of_id {id : List Byte} {slot : Slot} (found : s.tunnels.slotById id = some slot) :
    s.isBound (.tunnel slot) = true := by
  rw [Tunnels.slotById] at found
  split_ifs at found with empty
  have holds := List.find?_some found
  have named : s.ids slot = id := of_decide_eq_true holds
  simpa [isBound, named] using empty

theorem Kept.step (kept : s.Kept chan) {event : Event} (sound : s.Sound event) : (s.step event).Kept chan := by
  cases event with
  | accept => exact kept.accept
  | received i data =>
    rw [Sessions.step]
    split_ifs with bound
    · have has : s.isBound (.lan i) = true := bound
      exact kept.submitBytes has data
    · exact kept
  | gone i => exact kept.gone i
  | askClose i => exact kept.congr rfl (fun busy => busy) rfl rfl rfl rfl rfl
  | applyRequests i => exact kept.applyRequests i
  | opened id => exact kept.handleOpen _
  | data id bytes =>
    rw [Sessions.step, Sessions.handleData]
    cases found : s.tunnels.slotById (id.take 63) with
    | none => exact kept
    | some slot =>
      have bound : s.isBound (.tunnel slot) = true := bound_of_id found
      rcases bytes with _ | ⟨_ | ⟨byte, raw⟩⟩
      · exact kept.release slot
      · exact kept
      · exact kept.submitBytes bound _
  | closed id =>
    rw [Sessions.step, Sessions.handleClose]
    cases s.tunnels.slotById (id.take 63) with
    | none => exact kept
    | some slot => exact kept.release slot
  | dropped => exact kept.dropLink
  | other =>
    obtain ⟨inflight, worker⟩ := submitOther_keeps s.hw
    refine kept.congr rfl ?_ worker rfl rfl rfl rfl
    intro busy
    simp only [Sessions.busy, Sessions.step, HwWorker.State.connBusy, inflight] at busy ⊢
    exact busy
  | drain other room => exact kept.drain other room
  | work asks => exact kept.work sound
  | write other data => exact kept.write other data

theorem kept_empty (chan : Chan) : ({} : Sessions).Kept chan := by
  refine ⟨fun has => ?_, fun _ _ _ _ => ⟨rfl, rfl⟩, fun _ _ clears => clears.elim⟩
  cases chan with
  | lan i => cases has
  | tunnel slot => simp [isBound] at has

end Sessions

/-! ## The messages that wait are the queue's -/

namespace Sessions

variable {s s' : Sessions} {chan : Chan}

end Sessions

/-- Three tunnels are bound and the worker has handled their resets. -/
def threeTunnels : List Event := [.opened [1], .opened [2], .opened [3]] ++ List.replicate 9 (.work false)

/-- A tunnel's reply is sent, it is closed, and another takes the slot once the worker is done with it. -/
def reusedRun : List Event :=
  threeTunnels ++ [.data [1] (some [65]), .work false, .write (.tunnel 0) [66], .work false,
    .drain (.tunnel 0) 100, .closed [1]] ++ List.replicate 3 (.work false) ++
    [.opened [4], .data [4] (some [67])] ++ List.replicate 4 (.work false) ++
    [.write (.tunnel 0) [68], .work false, .drain (.tunnel 0) 100]

/-- A tunnel is closed and another takes its slot while the worker is still at the first one's bytes. -/
def leakRun : List Event :=
  threeTunnels ++ [.data [1] (some [65]), .work false, .closed [1], .opened [4], .write (.tunnel 0) [66]] ++
    List.replicate 6 (.work false) ++ [.drain (.tunnel 0) 100]

/-- While marks are cleared only when nothing of an earlier session is left, whatever is sent on a session was
written while the worker was at that session's input. -/
theorem output_stays {events : List Event} (sound : sessions.Along Sessions.Sound {} events) :
    ∀ delivered ∈ sessions.emitted {} events, ∀ b ∈ delivered.bytes, b.session = delivered.session := by
  refine Emitter.Along.emitted_forall sessions sound (fun s => ∀ chan, s.Kept chan)
    (fun kept sound chan => (kept chan).step sound) ?_ Sessions.kept_empty
  intro s event kept sound delivered emitted b member
  cases event with
  | drain chan room =>
    have found : s.drained chan room = some delivered := emitted
    unfold Sessions.drained at found
    split at found
    · rename_i free
      obtain rfl := Option.some.inj found
      exact ((kept chan).bound free.1 (.inl free.2)).ring b (List.mem_of_mem_take member)
    · cases found
  | _ => cases emitted

theorem output_stays_reused :
    (sessions.emitted {} reusedRun).map (fun d => (d.session, d.bytes)) = [(1, [⟨66, 1⟩]), (2, [⟨68, 2⟩])] ∧
      ∀ delivered ∈ sessions.emitted {} reusedRun, ∀ b ∈ delivered.bytes, b.session = delivered.session :=
  ⟨by decide +kernel, output_stays (by decide +kernel)⟩

/-- The reply to the first tunnel's bytes is sent on the second tunnel. -/
theorem output_leaks :
    ∃ delivered ∈ sessions.emitted {} leakRun, ∃ b ∈ delivered.bytes, b.session ≠ delivered.session := by
  decide +kernel

end BenchPod.Net
