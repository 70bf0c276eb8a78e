import BenchPod.Command.Transport
import BenchPod.Worker.Line

/-!
# The tier of a cloud tunnel

The net task binds tunnels to three connections, sets the highest tier of each when it is opened, and
hands the bytes to the worker's queue; the worker cuts them into commands some time later.
-/

namespace BenchPod.Command

open Json HwWorker

/-- A tunnel's slot. -/
abbrev Slot := Fin 3

/-- `CH_CLOUD_TUNNEL_CONN + slot`. -/
def connOf (slot : Slot) : Int := 7 + slot.val

/-- The slot of a connection, if it is a tunnel. -/
def slotOf (connId : Int) : Option Slot := (List.finRange 3).find? fun slot => connOf slot = connId

/-- A command that was run, and the tiers its bytes came under. -/
structure Executed where
  tier : Tier
  origins : List Int
  deriving DecidableEq

structure Tunnels where
  /-- `s_tunnels`; a free slot is empty. -/
  ids : Slot → List Byte := fun _ => []
  /-- `s_tunnel_max_tier`. -/
  maxTier : Slot → Int := fun _ => 3
  hw : HwWorker.State := {}
  conns : Slot → Conn := fun _ => {}
  /-- How many bytes of the item in the worker's hands are behind it. -/
  fed : Nat := 0
  /-- The tier the last open of a slot carried. -/
  carried : Slot → Int := fun _ => 3
  /-- The tier under which each message that waits for the worker was accepted. -/
  waiting : Slot → List Int := fun _ => []

/-- What happens at the net task and in the worker. -/
inductive Event
  /-- tunnel.open: the id and the text of max_tier, empty when there is none. -/
  | opened (id maxTier : List Byte)
  /-- tunnel.data: the id and the decoded bytes, `none` when the frame is malformed. -/
  | data (id : List Byte) (bytes : Option (List Byte))
  | closed (id : List Byte)
  /-- The link is dropped. -/
  | dropped
  /-- Bytes and the close of a LAN connection, and the work that concerns no connection. -/
  | lanBytes (conn : Fin 5) (bytes : List Byte)
  | lanClosed (conn : Fin 5)
  | other
  /-- The worker's next step. -/
  | work (asks : Bool) (pod : Pod)
  /-- A handler or a poll of the worker starts or ends a raw mode. -/
  | mode (slot : Slot) (proto : Proto)

/-- A function changed at one slot. -/
def setAt {α : Type} (f : Slot → α) (slot : Slot) (value : α) : Slot → α :=
  fun other => if other = slot then value else f other

/-- `max_tier` as `cl_handle_tunnel_open` reads it. -/
def readMaxTier (text : List Byte) : Int := if text = [] then 3 else atoi text

/-- `command_handler_set_tunnel_max_tier`. -/
def keptMaxTier (maxTier : Int) : Int := if maxTier < 0 ∨ 3 < maxTier then 3 else maxTier

namespace Tunnels

variable (s : Tunnels)

/-- `cl_tunnel_slot_by_id`. -/
def slotById (id : List Byte) : Option Slot :=
  if id = [] then none else (List.finRange 3).find? fun slot => s.ids slot = id

/-- `cl_tunnel_free_slot`. -/
def freeSlot : Option Slot :=
  ((List.finRange 3).find? fun slot => s.ids slot = [] ∧ s.hw.connBusy (connOf slot) = false).or
    ((List.finRange 3).find? fun slot => s.ids slot = [])

/-- The slot a tunnel.open binds. -/
def slotToOpen (id : List Byte) : Option Slot :=
  if id = [] then none else (s.slotById id).or s.freeSlot

/-- `hw_worker_submit_tunnel_reset`. -/
def submitReset (slot : Slot) : Tunnels :=
  { s with hw := s.hw.submitTeardown .reset (connOf slot) }

/-- `cl_handle_tunnel_open`. -/
def handleOpen (id maxTier : List Byte) : Tunnels :=
  match s.slotToOpen id with
  | none => s
  | some slot =>
    { s with
      ids := setAt s.ids slot id
      maxTier := setAt s.maxTier slot (keptMaxTier (readMaxTier maxTier))
      carried := setAt s.carried slot (readMaxTier maxTier) }.submitReset slot

/-- A bound slot is given up: `cl_tunnel_fail`, `cl_handle_tunnel_close`. -/
def release (slot : Slot) : Tunnels := { s with ids := setAt s.ids slot [] }.submitReset slot

/-- `cl_handle_tunnel_close`. -/
def handleClose (id : List Byte) : Tunnels :=
  match s.slotById id with
  | none => s
  | some slot => s.release slot

/-- `cl_handle_tunnel_data`; a frame that the worker refuses stays where it is. -/
def handleData (id : List Byte) (bytes : Option (List Byte)) : Tunnels :=
  match s.slotById id with
  | none => s
  | some slot =>
    match bytes with
    | none => s.release slot
    | some [] => s
    | some raw =>
      { s with
        hw := s.hw.submitBytes (connOf slot) raw
        waiting :=
          if s.hw.refuses (connOf slot) then s.waiting
          else setAt s.waiting slot (s.waiting slot ++ [s.carried slot]) }

/-- `cl_drop_link`. -/
def dropLink : Tunnels := (List.finRange 3).foldl (fun s slot => if s.ids slot = [] then s else s.release slot) s

/-- One byte of the item in the worker's hands. -/
def feedByte (slot : Slot) (byte : Byte) : Tunnels :=
  { s with
    conns := setAt s.conns slot ((s.conns slot).feed ⟨byte, (s.waiting slot).headD 0⟩).1
    fed := s.fed + 1 }

/-- The tunnel's byte the worker is about to process. -/
def nextByte : Option (Slot × Byte) :=
  match s.hw.worker with
  | .handle _ ⟨.bytes data, connId⟩ => (slotOf connId.toInt).bind fun slot => data[s.fed]?.map fun byte => (slot, byte)
  | _ => none

/-- The tunnel whose item is all processed. -/
def finished : Option Slot :=
  match s.hw.shows with
  | some (.processed connId _) => slotOf connId
  | _ => none

/-- The tunnel that the worker is about to reset. -/
def resets : Option Slot :=
  match s.hw.shows with
  | some (.ran connId _) => slotOf connId
  | _ => none

/-- The worker's next step. -/
def work (asks : Bool) : Tunnels :=
  match s.nextByte with
  | some (slot, byte) => s.feedByte slot byte
  | none =>
    { s with
      hw := s.hw.work asks
      fed := 0
      conns := match s.resets with
        | some slot => setAt s.conns slot {}
        | none => s.conns
      waiting := match s.finished with
        | some slot => setAt s.waiting slot (s.waiting slot).tail
        | none => s.waiting }

def step : Event → Tunnels
  | .opened id maxTier => s.handleOpen (id.take 63) maxTier
  | .data id bytes => s.handleData (id.take 63) bytes
  | .closed id => s.handleClose (id.take 63)
  | .dropped => s.dropLink
  | .lanBytes conn bytes => { s with hw := s.hw.submitBytes conn.val bytes }
  | .lanClosed conn => { s with hw := s.hw.submitTeardown .closed conn.val }
  | .other => { s with hw := s.hw.submitOther }
  | .work asks _ => s.work asks
  | .mode slot proto => { s with conns := setAt s.conns slot { s.conns slot with proto } }

/-- The line that the next byte completes, with its slot. -/
def completes : Option (Slot × Line) :=
  match s.nextByte with
  | some (slot, byte) => ((s.conns slot).feed ⟨byte, (s.waiting slot).headD 0⟩).2.map fun line => (slot, line)
  | none => none

/-- The command that a step runs. -/
def emit : Event → Option Executed
  | .work _ pod =>
    s.completes.bind fun (slot, line) =>
      (line.dispatch pod (s.maxTier slot)).map fun tier => ⟨tier, line.bytes.map Sent.most⟩
  | _ => none

/-- A step that neither opens a slot under bytes that were sent with a lower tier, nor runs a SCPI line
above the tier of its slot. -/
def Guarded : Event → Prop
  | .opened id maxTier => ∀ slot ∈ s.slotToOpen (id.take 63),
      0 ≤ readMaxTier maxTier ∧ ∀ most ∈ s.waiting slot, keptMaxTier (readMaxTier maxTier) ≤ most
  | .work _ pod => ∀ found ∈ s.completes, found.2.proto = .scpi → pod.scpiRuns = true →
      (scpiTier found.2.text).num ≤ s.maxTier found.1
  | _ => True

end Tunnels

/-- The tunnels and the worker that runs their commands. -/
def tunnels : Emitter Tunnels Event Executed := ⟨Tunnels.step, Tunnels.emit⟩

/-- The command's tier is at most the tier that each tunnel.open its bytes came under carried. -/
def Executed.Within (command : Executed) : Prop := ∀ most ∈ command.origins, command.tier.num ≤ most

theorem connOf_injective {slot other : Slot} (same : connOf slot = connOf other) : slot = other := by
  unfold connOf at same
  exact Fin.ext (by omega)

theorem slotOf_eq_iff {connId : Int} {slot : Slot} : slotOf connId = some slot ↔ connId = connOf slot := by
  constructor
  · intro found
    have holds := List.find?_some found
    exact (of_decide_eq_true holds).symm
  · rintro rfl
    revert slot
    decide

theorem connOf_tracked (slot : Slot) : Tracked (connOf slot) := by
  revert slot
  decide

@[simp]
theorem setAt_same {α : Type} (f : Slot → α) (slot : Slot) (value : α) : setAt f slot value slot = value := if_pos rfl

theorem setAt_ne {α : Type} (f : Slot → α) {slot other : Slot} (value : α) (apart : other ≠ slot) :
    setAt f slot value other = f other := if_neg apart

theorem keptMaxTier_nonneg (maxTier : Int) : 0 ≤ keptMaxTier maxTier := by
  unfold keptMaxTier
  split <;> omega

theorem keptMaxTier_le {maxTier : Int} (nonneg : 0 ≤ maxTier) : keptMaxTier maxTier ≤ maxTier := by
  unfold keptMaxTier
  split <;> omega

theorem le_keptMaxTier {maxTier most : Int} (below : keptMaxTier maxTier ≤ most) :
    keptMaxTier maxTier ≤ keptMaxTier most := by
  unfold keptMaxTier at *
  split at below <;> split <;> omega

/-- An act on a line, or the parked marks taken past its values. -/
def Loose (line : BenchPod.Line (List Byte) Teardown)
    (act : Option (BenchPod.Line.Act (List Byte) Teardown)) (next : BenchPod.Line (List Byte) Teardown) :
    Prop :=
  line.Move act next ∨ (act = none ∧ line.taken = ∅ ∧ next = { line with parked := ∅, taken := line.parked })

section loose

variable {line next : BenchPod.Line (List Byte) Teardown}
variable {act : Option (BenchPod.Line.Act (List Byte) Teardown)} {kind : Teardown}

theorem Loose.values (loose : Loose line act next) :
    BenchPod.Line.values line.entries ++ BenchPod.Line.added act =
      BenchPod.Line.removed act ++ BenchPod.Line.values next.entries := by
  obtain move | ⟨rfl, _, rfl⟩ := loose
  · exact move.values
  · exact List.append_nil _

theorem Loose.waits (loose : Loose line act next) (waits : line.Waits kind []) :
    act = some (.run kind) ∨ next.Waits kind [] := by
  obtain move | ⟨rfl, idle, rfl⟩ := loose
  · obtain ⟨ran, _⟩ | ⟨rest, waits, split⟩ := waits.move move
    · exact .inl ran
    · obtain ⟨_, rfl⟩ := List.append_eq_nil_iff.mp split.symm
      exact .inr waits
  · right
    generalize front_eq : ([] : List (List Byte)) = front at waits
    cases waits with
    | queued split => exact .queued split
    | parked member =>
      rw [← front_eq]
      exact .taken member
    | taken member => exact absurd (idle ▸ member) (Set.notMem_empty kind)

end loose

theorem work_loose (hw : HwWorker.State) (connId : Int) (asks : Bool) :
    Loose (hw.line connId) (hw.shows.bind (Sight.act connId)) ((hw.work asks).line connId) := by
  by_cases place : ∃ id, hw.worker = .take id
  · obtain ⟨id, place⟩ := place
    obtain ⟨queue, inflight, parked, worker⟩ := hw
    obtain rfl : worker = .take id := place
    by_cases same : (id : Int) = connId
    · subst same
      refine .inr ⟨rfl, rfl, BenchPod.Line.ext rfl ?_ ?_⟩
      · ext kind
        simp [HwWorker.State.line, HwWorker.State.work]
      · ext kind
        simp [HwWorker.State.line, HwWorker.State.work, HwWorker.State.Taken]
    · have after : (HwWorker.State.work ⟨queue, inflight, parked, .take id⟩ asks).line connId =
          HwWorker.State.line ⟨queue, inflight, parked, .take id⟩ connId := by
        refine BenchPod.Line.ext rfl ?_ ?_
        · simp only [HwWorker.State.line, HwWorker.State.work, if_neg (Ne.symm same)]
        · ext kind
          simp [HwWorker.State.line, HwWorker.State.work, HwWorker.State.Taken, same]
      rw [after]
      exact .inl .still
  · exact .inl (HwWorker.State.work_move_untaken fun id taken => place ⟨id, taken⟩)

namespace Tunnels

variable {s s' : Tunnels} {slot : Slot}

/-- The tiers that the bytes still to come to a slot's commands were sent under. -/
def ahead (s : Tunnels) (slot : Slot) : List Int := s.waiting slot ++ [s.carried slot]

/-- The limit of a slot is what its last open carried, no message waits that was sent under less, and
the unfinished line was sent under no less either, unless a reset drops it before the next byte. -/
structure Safe (s : Tunnels) (slot : Slot) : Prop where
  kept : s.maxTier slot = keptMaxTier (s.carried slot)
  nonneg : 0 ≤ s.carried slot
  matched : (s.waiting slot).length = (BenchPod.Line.values (s.hw.line (connOf slot)).entries).length
  ordered : (s.ahead slot).Pairwise fun earlier later => keptMaxTier later ≤ earlier
  partly : (s.hw.line (connOf slot)).Waits .reset [] ∨
    ∀ sent ∈ (s.conns slot).buf, ∀ most ∈ s.ahead slot, keptMaxTier most ≤ sent.most

theorem Safe.waiting_le (safe : s.Safe slot) {most : Int} (member : most ∈ s.waiting slot) : s.maxTier slot ≤ most := by
  rw [safe.kept]
  exact (List.pairwise_append.mp safe.ordered).2.2 most member _ (List.mem_singleton.mpr rfl)

/-- What an act on a slot's line does to the messages that wait. -/
def nextWaiting (s : Tunnels) (slot : Slot) :
    Option (BenchPod.Line.Act (List Byte) Teardown) → List Int
  | some (.accept _) => s.waiting slot ++ [s.carried slot]
  | some (.process _) => (s.waiting slot).tail
  | _ => s.waiting slot

/-- What an act on a slot's line does to the connection. -/
def nextConn (s : Tunnels) (slot : Slot) : Option (BenchPod.Line.Act (List Byte) Teardown) → Conn
  | some (.run _) => {}
  | _ => s.conns slot

theorem Safe.carried_le (safe : s.Safe slot) {most : Int} (member : most ∈ s.ahead slot) :
    keptMaxTier (s.carried slot) ≤ most := by
  obtain waits | last := List.mem_append.mp member
  · rw [← safe.kept]
    exact safe.waiting_le waits
  · rw [List.mem_singleton.mp last]
    exact keptMaxTier_le safe.nonneg

theorem Safe.next (safe : s.Safe slot) (act : Option (BenchPod.Line.Act (List Byte) Teardown)) :
    (s.nextWaiting slot act ++ [s.carried slot]).Pairwise
        (fun earlier later => keptMaxTier later ≤ earlier) ∧
      ∀ most ∈ s.nextWaiting slot act ++ [s.carried slot], most ∈ s.ahead slot := by
  have same : (s.waiting slot ++ [s.carried slot]).Pairwise (fun earlier later => keptMaxTier later ≤ earlier) ∧
      ∀ most ∈ s.waiting slot ++ [s.carried slot], most ∈ s.ahead slot := ⟨safe.ordered, fun _ => id⟩
  cases act with
  | none => exact same
  | some act =>
    cases act with
    | accept value =>
      refine ⟨List.pairwise_append.mpr ⟨safe.ordered, List.pairwise_singleton .., ?_⟩, ?_⟩
      · intro earlier member later last
        rw [List.mem_singleton.mp last]
        exact safe.carried_le member
      · intro most member
        obtain old | last := List.mem_append.mp member
        · exact old
        · exact List.mem_append_right _ last
    | process value =>
      have sub : ((s.waiting slot).tail ++ [s.carried slot]).Sublist (s.ahead slot) :=
        (List.tail_sublist _).append_right _
      exact ⟨safe.ordered.sublist sub, fun most member => sub.subset member⟩
    | ask kind => exact same
    | run kind => exact same

theorem Safe.loose (safe : s.Safe slot) {act : Option (BenchPod.Line.Act (List Byte) Teardown)}
    (loose : Loose (s.hw.line (connOf slot)) act (s'.hw.line (connOf slot)))
    (maxTier : s'.maxTier slot = s.maxTier slot) (carried : s'.carried slot = s.carried slot)
    (waiting : s'.waiting slot = s.nextWaiting slot act)
    (conns : (s'.conns slot).buf = (s.nextConn slot act).buf) : s'.Safe slot := by
  have values := congrArg List.length loose.values
  rw [List.length_append, List.length_append, ← safe.matched] at values
  obtain ⟨ordered, among⟩ := safe.next act
  have ahead : s'.ahead slot = s.nextWaiting slot act ++ [s.carried slot] := by rw [Tunnels.ahead, waiting, carried]
  refine ⟨by rw [maxTier, carried, safe.kept], carried ▸ safe.nonneg, ?_, ahead ▸ ordered, ?_⟩
  · rw [waiting]
    cases act with
    | none => simpa [nextWaiting, BenchPod.Line.added, BenchPod.Line.removed] using values
    | some act =>
      cases act with
      | process value =>
        simp only [BenchPod.Line.added, BenchPod.Line.removed, BenchPod.Line.Act.accepted,
          BenchPod.Line.Act.processed, Option.bind_some, Option.toList_none, Option.toList_some,
          List.length_nil, List.length_singleton] at values
        rw [nextWaiting, List.length_tail]
        omega
      | accept value =>
        simpa [nextWaiting, BenchPod.Line.added, BenchPod.Line.removed, BenchPod.Line.Act.accepted,
          BenchPod.Line.Act.processed] using values
      | ask kind =>
        simpa [nextWaiting, BenchPod.Line.added, BenchPod.Line.removed, BenchPod.Line.Act.accepted,
          BenchPod.Line.Act.processed] using values
      | run kind =>
        simpa [nextWaiting, BenchPod.Line.added, BenchPod.Line.removed, BenchPod.Line.Act.accepted,
          BenchPod.Line.Act.processed] using values
  · by_cases ran : ∃ kind, act = some (.run kind)
    · obtain ⟨kind, rfl⟩ := ran
      right
      rw [conns]
      simp [nextConn]
    · have kept : (s'.conns slot).buf = (s.conns slot).buf := by
        rw [conns, nextConn]
        intro kind run
        exact ran ⟨kind, run⟩
      obtain shield | line := safe.partly
      · obtain run | shield := loose.waits shield
        · exact absurd ⟨_, run⟩ ran
        · exact .inl shield
      · right
        intro sent member most later
        rw [kept] at member
        rw [ahead] at later
        exact line sent member most (among most later)

theorem connOf_fits (slot : Slot) : Fits (connOf slot) := by
  revert slot
  unfold Fits
  decide

theorem teardown_act (hw : HwWorker.State) (kind : Teardown) {connId : Int} (fits : Fits connId)
    (slot : Slot) :
    (hw.line (connOf slot)).Move (if connId = connOf slot then some (.ask kind) else none)
      ((hw.submitTeardown kind connId).line (connOf slot)) :=
  HwWorker.State.submitTeardown_move fits (connOf_tracked slot)

theorem bytes_act (hw : HwWorker.State) (raw : List Byte) {connId : Int} (fits : Fits connId)
    (slot : Slot) :
    (hw.line (connOf slot)).Move
      ((hw.emit (.submit (.bytes connId raw))).bind (Sight.act (connOf slot)))
      ((hw.submitBytes connId raw).line (connOf slot)) :=
  HwWorker.State.submitBytes_move fits (connOf_tracked slot)

theorem Safe.teardown (safe : s.Safe slot) {kind : Teardown} {connId : Int} (fits : Fits connId)
    (ids : Slot → List Byte) :
    { s with ids, hw := s.hw.submitTeardown kind connId }.Safe slot := by
  have move := teardown_act s.hw kind fits slot
  split at move
  · exact safe.loose (.inl move) rfl rfl rfl rfl
  · exact safe.loose (.inl move) rfl rfl rfl rfl

theorem Safe.release (safe : s.Safe slot) (other : Slot) : (s.release other).Safe slot :=
  safe.teardown (connOf_fits other) _

theorem Safe.dropLink (safe : s.Safe slot) : s.dropLink.Safe slot := by
  rw [Tunnels.dropLink]
  generalize List.finRange 3 = slots
  induction slots generalizing s with
  | nil => exact safe
  | cons other slots ih =>
    rw [List.foldl_cons]
    split
    · exact ih safe
    · exact ih (safe.release other)

theorem Safe.submitBytes_ne (safe : s.Safe slot) {connId : Int} (fits : Fits connId) (raw : List Byte)
    (apart : connId ≠ connOf slot) {waiting : Slot → List Int}
    (same : waiting slot = s.waiting slot) :
    { s with hw := s.hw.submitBytes connId raw, waiting }.Safe slot := by
  have move := bytes_act s.hw raw fits slot
  have silent : ((s.hw.emit (.submit (.bytes connId raw))).bind (Sight.act (connOf slot))) = none := by
    simp only [HwWorker.State.emit]
    split
    · rfl
    · exact if_neg apart
  rw [silent] at move
  exact safe.loose (.inl move) rfl rfl same rfl

theorem Safe.submitBytes (safe : s.Safe slot) (raw : List Byte) :
    { s with
      hw := s.hw.submitBytes (connOf slot) raw
      waiting :=
        if s.hw.refuses (connOf slot) then s.waiting
        else setAt s.waiting slot (s.waiting slot ++ [s.carried slot]) }.Safe slot := by
  have move := bytes_act s.hw raw (connOf_fits slot) slot
  cases refuses : s.hw.refuses (connOf slot) with
  | true =>
    simp only [HwWorker.State.emit, refuses, if_true, Option.bind_none] at move
    exact safe.loose (.inl move) rfl rfl rfl rfl
  | false =>
    simp only [HwWorker.State.emit, refuses, Bool.false_eq_true, if_false, Option.bind_some, Sight.act, if_true] at move
    exact safe.loose (.inl move) rfl rfl (setAt_same ..) rfl

theorem Safe.handleData (safe : s.Safe slot) (id : List Byte) (bytes : Option (List Byte)) :
    (s.handleData id bytes).Safe slot := by
  unfold Tunnels.handleData
  split
  · exact safe
  · rename_i other _
    split
    · exact safe.release other
    · exact safe
    · rename_i raw _
      by_cases same : slot = other
      · subst same
        exact safe.submitBytes raw
      · have apart : connOf other ≠ connOf slot := fun equal => same (connOf_injective equal).symm
        refine safe.submitBytes_ne (connOf_fits other) raw apart ?_
        split
        · rfl
        · exact setAt_ne _ _ same

theorem waits_submitReset (hw : HwWorker.State) (slot : Slot)
    (clear : BenchPod.Line.values (hw.line (connOf slot)).entries = []) :
    ((hw.submitTeardown .reset (connOf slot)).line (connOf slot)).Waits .reset [] := by
  have tracked := connOf_tracked slot
  simp only [HwWorker.State.submitTeardown, if_pos tracked]
  split
  · have entry : Item.entry (connOf slot) ⟨.teardown .reset, Int16.ofInt (connOf slot)⟩ =
        some (.mark .reset) := if_pos (connOf_fits slot)
    rw [HwWorker.State.line_enqueue, entry, HwWorker.State.line_mark, ← clear]
    exact .queued rfl
  · rw [HwWorker.State.line_park, HwWorker.State.line_mark, ← clear]
    exact .parked (Set.mem_insert _ _)

/-- A guarded open puts no message that waits, and no unfinished line, under a higher tier. -/
theorem Safe.handleOpen (safe : s.Safe slot) (id maxTier : List Byte)
    (guarded : s.slotToOpen id = some slot →
      0 ≤ readMaxTier maxTier ∧
        ∀ most ∈ s.waiting slot, keptMaxTier (readMaxTier maxTier) ≤ most) :
    (s.handleOpen id maxTier).Safe slot := by
  unfold Tunnels.handleOpen
  split
  · exact safe
  · rename_i other bound
    by_cases same : other = slot
    · subst same
      obtain ⟨nonneg, under⟩ := guarded bound
      have move := teardown_act s.hw .reset (connOf_fits other) other
      rw [if_pos rfl] at move
      have values := congrArg List.length move.values
      simp only [BenchPod.Line.added, BenchPod.Line.removed, BenchPod.Line.Act.accepted,
        BenchPod.Line.Act.processed, Option.bind_some, Option.toList_none, List.append_nil,
        List.nil_append] at values
      refine ⟨?_, ?_, ?_, ?_, ?_⟩
      · simp [submitReset]
      · simpa [submitReset] using nonneg
      · exact safe.matched.trans values
      · simp only [Tunnels.ahead, submitReset, setAt_same]
        refine List.pairwise_append.mpr ⟨(List.pairwise_append.mp safe.ordered).1, List.pairwise_singleton .., ?_⟩
        intro earlier member later last
        rw [List.mem_singleton.mp last]
        exact under earlier member
      · cases waits : s.waiting other with
        | nil =>
          left
          apply waits_submitReset
          rw [← List.length_eq_zero_iff, ← safe.matched, waits, List.length_nil]
        | cons most rest =>
          obtain shield | line := safe.partly
          · obtain run | shield := (Loose.waits (.inl move) shield)
            · cases run
            · exact .inl shield
          · right
            intro sent member later among
            have head : most ∈ s.waiting other := waits ▸ List.mem_cons_self
            simp only [Tunnels.ahead, submitReset, setAt_same] at among
            obtain old | last := List.mem_append.mp among
            · exact line sent member later (List.mem_append_left _ old)
            · rw [List.mem_singleton.mp last]
              exact le_trans (le_keptMaxTier (under most head)) (line sent member most (List.mem_append_left _ head))
    · have apart : slot ≠ other := fun equal => same equal.symm
      have kept : ({ s with
          ids := setAt s.ids other id
          maxTier := setAt s.maxTier other (keptMaxTier (readMaxTier maxTier))
          carried := setAt s.carried other (readMaxTier maxTier) } : Tunnels).Safe slot := by
        refine ⟨?_, ?_, safe.matched, ?_, ?_⟩
        · simpa only [setAt_ne _ _ apart] using safe.kept
        · simpa only [setAt_ne _ _ apart] using safe.nonneg
        · simpa only [Tunnels.ahead, setAt_ne _ _ apart] using safe.ordered
        · simpa only [Tunnels.ahead, setAt_ne _ _ apart] using safe.partly
      exact kept.teardown (connOf_fits other) _

theorem not_waits_first {line : BenchPod.Line (List Byte) Teardown} {value : List Byte}
    {entries : List (Entry (List Byte) Teardown)} {kind : Teardown}
    (first : line.entries = .data value :: entries) (idle : line.taken = ∅) : ¬ line.Waits kind [] := by
  intro waits
  generalize front_eq : ([] : List (List Byte)) = before at waits
  cases waits with
  | @queued front back split =>
    cases front with
    | nil =>
      rw [first] at split
      cases split
    | cons entry front =>
      obtain ⟨rfl, _⟩ := List.cons.inj (first.symm.trans split)
      cases front_eq
  | parked member =>
    rw [first] at front_eq
    cases front_eq
  | taken member => exact absurd (idle ▸ member) (Set.notMem_empty kind)

theorem first_of_hands {hw : HwWorker.State} {taken : Nat} {data : List Byte} {connId : Int16}
    (place : hw.worker = .handle taken ⟨.bytes data, connId⟩) :
    (hw.line connId.toInt).entries = .data data :: hw.queue.filterMap (Item.entry connId.toInt) ∧
      (hw.line connId.toInt).taken = ∅ := by
  refine ⟨by simp [HwWorker.State.line, HwWorker.State.held, place, Item.entry], ?_⟩
  ext kind
  simp [HwWorker.State.line, HwWorker.State.Taken, place]

theorem nextByte_hands {byte : Byte} (next : s.nextByte = some (slot, byte)) :
    ∃ taken data connId, s.hw.worker = .handle taken ⟨.bytes data, connId⟩ ∧ connId.toInt = connOf slot := by
  unfold nextByte at next
  split at next
  · rename_i taken data connId place
    obtain ⟨found, at_slot, more⟩ := Option.bind_eq_some_iff.mp next
    obtain ⟨_, _, same⟩ := Option.map_eq_some_iff.mp more
    obtain rfl : found = slot := congrArg Prod.fst same
    exact ⟨taken, data, connId, place, slotOf_eq_iff.mp at_slot⟩
  · cases next

theorem Safe.of_nextByte (safe : s.Safe slot) {byte : Byte} (next : s.nextByte = some (slot, byte)) :
    (∃ rest, s.waiting slot = (s.waiting slot).headD 0 :: rest) ∧
      ∀ sent ∈ (s.conns slot).buf, ∀ most ∈ s.ahead slot, keptMaxTier most ≤ sent.most := by
  obtain ⟨taken, data, connId, place, conn⟩ := nextByte_hands next
  obtain ⟨first, idle⟩ := first_of_hands place
  rw [conn] at first idle
  refine ⟨?_, safe.partly.resolve_left (not_waits_first first idle)⟩
  have matched := safe.matched
  rw [first] at matched
  cases shape : s.waiting slot with
  | nil =>
    rw [shape] at matched
    cases matched
  | cons most rest => exact ⟨rest, rfl⟩

theorem Safe.feedByte (safe : s.Safe slot) {other : Slot} {byte : Byte}
    (next : s.nextByte = some (other, byte)) : (s.feedByte other byte).Safe slot := by
  by_cases same : slot = other
  · subst same
    obtain ⟨⟨rest, shape⟩, line⟩ := safe.of_nextByte next
    refine ⟨safe.kept, safe.nonneg, safe.matched, safe.ordered, .inr ?_⟩
    intro sent member most among
    simp only [Tunnels.feedByte, setAt_same] at member
    obtain old | rfl := ((s.conns slot).feed_bytes _).1 sent member
    · exact line sent old most among
    · have ordered := safe.ordered
      rw [Tunnels.ahead, shape, List.cons_append, List.pairwise_cons] at ordered
      change most ∈ s.waiting slot ++ [s.carried slot] at among
      rw [shape, List.cons_append] at among
      obtain rfl | later := List.mem_cons.mp among
      · refine keptMaxTier_le ?_
        refine le_trans (keptMaxTier_nonneg (s.carried slot)) ?_
        rw [← safe.kept]
        exact safe.waiting_le (shape ▸ List.mem_cons_self)
      · exact ordered.1 most later
  · have conns : (s.feedByte other byte).conns slot = s.conns slot := setAt_ne _ _ same
    refine ⟨safe.kept, safe.nonneg, safe.matched, safe.ordered, ?_⟩
    rw [conns]
    exact safe.partly

theorem setAt_found {α : Type} (f : Slot → α) (found : Option Slot) (value : Slot → α) (slot : Slot) :
    (match found with
      | some other => setAt f other (value other)
      | none => f) slot = if found = some slot then value slot else f slot := by
  cases found with
  | none => simp
  | some other =>
    by_cases same : other = slot
    · subst same
      simp
    · rw [if_neg fun equal => same (Option.some.inj equal)]
      exact setAt_ne _ _ fun equal => same equal.symm

theorem shows_ne_accepted (hw : HwWorker.State) (connId : Int) (data : List Byte) :
    hw.shows ≠ some (.accepted connId data) := by
  unfold HwWorker.State.shows
  split
  any_goals exact Option.some_ne_none _ ∘ Eq.symm
  any_goals exact fun equal => Sight.noConfusion (Option.some.inj equal)
  all_goals
    split
    · simp
    · simp

theorem shows_act (slot : Slot) :
    (s.finished = some slot ∧ s.resets = none ∧
        ∃ data, s.hw.shows.bind (Sight.act (connOf slot)) = some (.process data)) ∨
      (s.finished ≠ some slot ∧ s.resets = some slot ∧
        ∃ kind, s.hw.shows.bind (Sight.act (connOf slot)) = some (.run kind)) ∨
      (s.finished ≠ some slot ∧ s.resets ≠ some slot ∧
        (s.hw.shows.bind (Sight.act (connOf slot)) = none ∨
          ∃ kind, s.hw.shows.bind (Sight.act (connOf slot)) = some (.ask kind))) := by
  unfold finished resets
  cases shown : s.hw.shows with
  | none => exact .inr (.inr ⟨by simp, by simp, .inl rfl⟩)
  | some sight =>
    simp only [Option.bind_some]
    cases sight with
    | accepted connId data => exact absurd shown (shows_ne_accepted _ _ _)
    | processed connId data =>
      simp only [Sight.act, slotOf_eq_iff]
      by_cases same : connId = connOf slot
      · rw [if_pos same]
        exact .inl ⟨same, by simp, data, rfl⟩
      · rw [if_neg same]
        exact .inr (.inr ⟨fun found => same (slotOf_eq_iff.mp found), by simp, .inl rfl⟩)
    | asked connId kind =>
      simp only [Sight.act]
      refine .inr (.inr ⟨by simp, by simp, ?_⟩)
      split
      · exact .inr ⟨kind, rfl⟩
      · exact .inl rfl
    | ran connId kind =>
      simp only [Sight.act, slotOf_eq_iff]
      by_cases same : connId = connOf slot
      · rw [if_pos same]
        exact .inr (.inl ⟨by simp, same, kind, rfl⟩)
      · rw [if_neg same]
        exact .inr (.inr ⟨by simp, fun found => same (slotOf_eq_iff.mp found), .inl rfl⟩)

theorem work_shows (asks : Bool) (done : s.nextByte = none) (slot : Slot) :
    (s.work asks).waiting slot =
        s.nextWaiting slot (s.hw.shows.bind (Sight.act (connOf slot))) ∧
      (s.work asks).conns slot = s.nextConn slot (s.hw.shows.bind (Sight.act (connOf slot))) := by
  simp only [Tunnels.work, done]
  rw [setAt_found s.conns s.resets (fun _ => {}), setAt_found s.waiting s.finished fun other =>
    (s.waiting other).tail]
  obtain ⟨finished, resets, data, act⟩ | ⟨finished, resets, kind, act⟩ | ⟨finished, resets, act⟩ := s.shows_act slot
  · rw [act, if_pos finished, resets, if_neg (by simp)]
    exact ⟨rfl, rfl⟩
  · rw [act, if_neg finished, if_pos resets]
    exact ⟨rfl, rfl⟩
  · rw [if_neg finished, if_neg resets]
    obtain act | ⟨kind, act⟩ := act
    · rw [act]
      exact ⟨rfl, rfl⟩
    · rw [act]
      exact ⟨rfl, rfl⟩

theorem Safe.work (safe : s.Safe slot) (asks : Bool) : (s.work asks).Safe slot := by
  cases next : s.nextByte with
  | some found =>
    have fed : s.work asks = s.feedByte found.1 found.2 := by simp only [Tunnels.work, next]
    rw [fed]
    exact safe.feedByte next
  | none =>
    obtain ⟨waiting, conns⟩ := work_shows asks next slot
    have hw : (s.work asks).hw = s.hw.work asks := by simp only [Tunnels.work, next]
    refine safe.loose (hw ▸ work_loose s.hw (connOf slot) asks) ?_ ?_ waiting (congrArg Conn.buf conns)
    · simp only [Tunnels.work, next]
    · simp only [Tunnels.work, next]

theorem lan_fits (conn : Fin 5) : Fits conn.val := by
  revert conn
  unfold Fits
  decide

theorem Safe.step (safe : ∀ slot, s.Safe slot) {event : Event} (guarded : s.Guarded event) (slot : Slot) :
    (s.step event).Safe slot := by
  cases event with
  | opened id maxTier => exact (safe slot).handleOpen _ _ fun bound => guarded slot bound
  | data id bytes => exact (safe slot).handleData _ bytes
  | closed id =>
    simp only [Tunnels.step, Tunnels.handleClose]
    split
    · exact safe slot
    · exact (safe slot).release _
  | dropped => exact (safe slot).dropLink
  | lanBytes conn bytes =>
    refine (safe slot).submitBytes_ne (lan_fits conn) bytes ?_ rfl
    unfold connOf
    omega
  | lanClosed conn => exact (safe slot).teardown (lan_fits conn) s.ids
  | other => exact (safe slot).loose (.inl HwWorker.State.submitOther_move) rfl rfl rfl rfl
  | work asks pod => exact (safe slot).work asks
  | mode other proto =>
    have kept : ((s.step (.mode other proto)).conns slot).buf = (s.conns slot).buf := by
      by_cases same : slot = other
      · subst same
        simp [Tunnels.step]
      · exact congrArg Conn.buf (setAt_ne _ _ same)
    exact (safe slot).loose (.inl .still) rfl rfl rfl kept

theorem Safe.completes (safe : s.Safe slot) {line : Line} (found : s.completes = some (slot, line)) :
    ∀ sent ∈ line.bytes, s.maxTier slot ≤ sent.most := by
  unfold Tunnels.completes at found
  split at found
  · rename_i other byte next
    obtain ⟨_, complete, same⟩ := Option.map_eq_some_iff.mp found
    obtain ⟨rfl, rfl⟩ := Prod.mk.inj same
    obtain ⟨⟨rest, shape⟩, partly⟩ := safe.of_nextByte next
    intro sent member
    rw [safe.kept]
    obtain old | rfl := ((s.conns other).feed_bytes _).2 _ complete sent member
    · exact partly sent old _ (List.mem_append_right _ (List.mem_singleton.mpr rfl))
    · refine safe.carried_le (List.mem_append_left _ ?_)
      rw [shape]
      exact List.mem_cons_self
  · cases found

theorem Safe.emit (safe : ∀ slot, s.Safe slot) {event : Event} (guarded : s.Guarded event)
    {command : Executed} (runs : s.emit event = some command) : command.Within := by
  cases event with
  | work asks pod =>
    obtain ⟨⟨slot, line⟩, found, ran⟩ := Option.bind_eq_some_iff.mp runs
    obtain ⟨tier, dispatched, rfl⟩ := Option.map_eq_some_iff.mp ran
    have within : tier.num ≤ s.maxTier slot := by
      unfold Line.dispatch at dispatched
      split at dispatched
      · rename_i scpi
        split at dispatched
        · rename_i parsed
          cases dispatched
          exact guarded _ found scpi parsed
        · cases dispatched
      · refine dispatchLine_le ?_ dispatched
        rw [(safe slot).kept]
        exact keptMaxTier_nonneg _
    intro most member
    obtain ⟨sent, among, rfl⟩ := List.mem_map.mp member
    exact le_trans within ((safe slot).completes found sent among)
  | _ => cases runs

end Tunnels

theorem safe_initial (slot : Slot) : ({} : Tunnels).Safe slot :=
  ⟨rfl, Int.zero_le_ofNat 3, rfl, List.pairwise_singleton .., .inr (by simp)⟩

/-- In every guarded interleaving of the net task with the worker, each command of a tunnel is within
the tier that its own tunnel.open carried. -/
theorem tunnel_within {events : List Event} (guarded : tunnels.Along Tunnels.Guarded {} events) :
    ∀ command ∈ tunnels.emitted {} events, command.Within :=
  guarded.emitted_forall _ (fun s => ∀ slot, s.Safe slot) (fun safe guarded => Tunnels.Safe.step safe guarded)
    (fun safe guarded _ runs => Tunnels.Safe.emit safe guarded runs) safe_initial

instance Tunnels.Guarded.decidable (s : Tunnels) : ∀ event, Decidable (s.Guarded event)
  | .opened id maxTier => inferInstanceAs (Decidable (∀ slot ∈ s.slotToOpen (id.take 63),
      0 ≤ readMaxTier maxTier ∧ ∀ most ∈ s.waiting slot, keptMaxTier (readMaxTier maxTier) ≤ most))
  | .work _ pod => inferInstanceAs (Decidable (∀ found ∈ s.completes, found.2.proto = .scpi →
      pod.scpiRuns = true → (scpiTier found.2.text).num ≤ s.maxTier found.1))
  | .data .. | .closed _ | .dropped | .lanBytes .. | .lanClosed _ | .other | .mode .. =>
    inferInstanceAs (Decidable True)

instance (command : Executed) : Decidable command.Within :=
  inferInstanceAs (Decidable (∀ most ∈ command.origins, command.tier.num ≤ most))

/-- A pod with everything on. -/
def plainPod : Pod where
  lanPolicy := .lanOpen
  usbLink := false
  skipHw := false
  hasAnalog := true
  limitsRefuse := false
  scpiRuns := true

/-- A member's tunnel that pings the pod. -/
def memberRun : List Event :=
  [.opened (cstr "a") (cstr "1"), .data (cstr "a") (some (cstr "\x7b\"cmd\":\"ping\"\x7d\n"))] ++
    List.replicate 22 (.work false plainPod)

theorem tunnel_within_member :
    tunnels.Along Tunnels.Guarded {} memberRun ∧ (tunnels.emitted {} memberRun).length = 1 ∧
      ∀ command ∈ tunnels.emitted {} memberRun, command.Within :=
  have guarded : tunnels.Along Tunnels.Guarded {} memberRun := by decide +kernel
  ⟨guarded, by decide +kernel, tunnel_within guarded⟩

/-- A read-only tunnel that sends a SCPI setter. -/
def setterRun : List Event :=
  [.opened (cstr "a") (cstr "0"), .data (cstr "a") (some (cstr "OUTP ON\n"))] ++ List.replicate 16 (.work false plainPod)

/-- A tunnel that is opened again with more rights while its first bytes wait. -/
def reopenRun : List Event :=
  [.opened (cstr "a") (cstr "0"), .data (cstr "a") (some (cstr "\x7b\"cmd\":\"ota_abort\"\x7d\n")),
    .opened (cstr "a") (cstr "3")] ++ List.replicate 32 (.work false plainPod)

/-- Two ways around the limit: a SCPI line, and a limit that was raised over bytes that wait. -/
theorem tunnel_exceeds :
    (∃ command ∈ tunnels.emitted {} setterRun, ¬ command.Within) ∧
      ∃ command ∈ tunnels.emitted {} reopenRun, ¬ command.Within := by
  decide +kernel

end BenchPod.Command
