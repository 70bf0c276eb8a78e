import BenchPod.Library.Forever
import BenchPod.Library.Word

/-!
# The worker's queue

The net task hands bytes, closes and resets of connections to the worker through one bounded queue.
A close or reset that does not fit is parked in a mask and applied by the worker when it finds the
queue empty.  The net task runs above the worker, so its calls fall between any two steps of the
worker; the worker may itself ask for a reset while it handles bytes.
-/

namespace BenchPod.HwWorker

def workDataMax : Nat := 1536
def workQueueDepth : Nat := 16
def pendIds : Int := 16

inductive Teardown where
  | closed
  | reset
  deriving DecidableEq

/-- PEND_CLOSED and PEND_RESET. -/
structure Mask where
  closed : Bool := false
  reset : Bool := false
  deriving DecidableEq

namespace Mask

def has (mask : Mask) : Teardown → Bool
  | .closed => mask.closed
  | .reset => mask.reset

def put (mask : Mask) : Teardown → Bool → Mask
  | .closed, value => { mask with closed := value }
  | .reset, value => { mask with reset := value }

@[simp]
theorem has_empty (kind : Teardown) : ({} : Mask).has kind = false := by cases kind <;> rfl

@[simp]
theorem has_put (mask : Mask) (kind other : Teardown) (value : Bool) :
    (mask.put kind value).has other = if other = kind then value else mask.has other := by
  cases kind <;> cases other <;> rfl

theorem eq_empty_iff {mask : Mask} : mask = {} ↔ ∀ kind, mask.has kind = false := by
  constructor
  · rintro rfl kind
    exact has_empty kind
  · intro none
    obtain ⟨closed, reset⟩ := mask
    have not_closed : closed = false := none .closed
    have not_reset : reset = false := none .reset
    rw [not_closed, not_reset]

end Mask

/-- What a queue item asks for; the kinds that concern no connection are one. -/
inductive Work where
  | bytes (data : List Byte)
  | teardown (kind : Teardown)
  | other
  deriving DecidableEq

def Work.isBytes : Work → Bool
  | .bytes _ => true
  | _ => false

structure Item where
  work : Work
  connId : Int16
  deriving DecidableEq

/-- Where the worker is. -/
inductive Place where
  /-- Before the next item of a pass is received. -/
  | receive (taken : Nat)
  /-- Before the item's handler. -/
  | handle (taken : Nat) (item : Item)
  /-- The handler of some bytes asks for a reset: before it is marked, tested, sent or parked. -/
  | mark (taken : Nat) (connId : Int16)
  | test (taken : Nat) (connId : Int16)
  | send (taken : Nat) (connId : Int16)
  | park (taken : Nat) (connId : Int16)
  /-- Before a handled teardown's mark is cleared. -/
  | done (taken : Nat) (connId : Int16) (kind : Teardown)
  /-- Before the queue is looked at. -/
  | check
  /-- Before an id's parked teardowns are looked at. -/
  | scan (id : Nat)
  /-- Before they are taken. -/
  | take (id : Nat)
  /-- Before the taken close, and before its mark is cleared. -/
  | close (id : Nat) (bits : Mask)
  | closeDone (id : Nat) (bits : Mask)
  /-- Before the taken reset, and before its mark is cleared. -/
  | reset (id : Nat) (bits : Mask)
  | resetDone (id : Nat)
  /-- The rest of the pass. -/
  | polls
  deriving DecidableEq

structure State where
  queue : List Item := []
  inflight : Int → Mask := fun _ => {}
  parked : Int → Mask := fun _ => {}
  worker : Place := .receive 0

def Tracked (connId : Int) : Prop := 0 ≤ connId ∧ connId < pendIds

instance (connId : Int) : Decidable (Tracked connId) := inferInstanceAs (Decidable (_ ∧ _))

/-- What the net task submits. -/
inductive Submit where
  | bytes (connId : Int) (data : List Byte)
  | teardown (kind : Teardown) (connId : Int)
  | other
  deriving DecidableEq

/-- A submit of the net task, or the worker's next step. -/
inductive Event where
  | submit (call : Submit)
  | work (asks : Bool)
  deriving DecidableEq

/-- What can be seen of a run. -/
inductive Sight where
  | accepted (connId : Int) (data : List Byte)
  | processed (connId : Int) (data : List Byte)
  | asked (connId : Int) (kind : Teardown)
  | ran (connId : Int) (kind : Teardown)
  deriving DecidableEq

namespace State

variable (s : State)

def full : Bool := decide (workQueueDepth ≤ s.queue.length)

/-- The queue with one more item. -/
def enqueue (work : Work) (connId : Int) : State :=
  { s with queue := s.queue ++ [⟨work, Int16.ofInt connId⟩] }

def mark (kind : Teardown) (connId : Int) : State :=
  { s with inflight := fun id =>
      if id = connId then (s.inflight id).put kind true else s.inflight id }

def park (kind : Teardown) (connId : Int) : State :=
  { s with parked := fun id =>
      if id = connId then (s.parked id).put kind true else s.parked id }

/-- hw_worker_submit_bytes refuses. -/
def refuses (connId : Int) : Bool := (decide (Tracked connId) && decide (s.parked connId ≠ {})) || s.full

def submitBytes (connId : Int) (data : List Byte) : State :=
  if s.refuses connId then s else s.enqueue (.bytes (data.take workDataMax)) connId

def submitTeardown (kind : Teardown) (connId : Int) : State :=
  if Tracked connId then
    -- once one is parked the rest are, so that they stay behind it
    if s.parked connId = {} ∧ s.full = false
    then (s.mark kind connId).enqueue (.teardown kind) connId
    else (s.mark kind connId).park kind connId
  else if s.full then s else s.enqueue (.teardown kind) connId

def submitOther : State := if s.full then s else s.enqueue .other (-1)

/-- hw_worker_conn_busy. -/
def connBusy (connId : Int) : Bool := decide (Tracked connId) && decide (s.inflight connId ≠ {})

def teardownDone (connId : Int) (kind : Teardown) : State :=
  if Tracked connId then
    { s with inflight := fun id =>
        if id = connId then (s.inflight id).put kind false else s.inflight id }
  else s

def go (worker : Place) : State := { s with worker }

/-- The worker's next step; the handler of bytes may ask for a reset of their connection. -/
def work (asks : Bool) : State :=
  match s.worker with
  | .receive taken =>
    if taken < workQueueDepth then
      match s.queue with
      | [] => s.go .check
      | item :: queue => { s with queue, worker := .handle taken item }
    else s.go .check
  | .handle taken item =>
    match item.work with
    | .bytes _ => if asks then s.go (.mark taken item.connId) else s.go (.receive (taken + 1))
    | .teardown kind => s.go (.done taken item.connId kind)
    | .other => s.go (.receive (taken + 1))
  | .mark taken connId => (if Tracked connId.toInt then s.mark .reset connId.toInt else s).go (.test taken connId)
  | .test taken connId =>
    if Tracked connId.toInt ∧ s.parked connId.toInt ≠ {} then s.go (.park taken connId)
    else s.go (.send taken connId)
  | .send taken connId =>
    if s.full then
      if Tracked connId.toInt then s.go (.park taken connId) else s.go (.receive (taken + 1))
    else (s.enqueue (.teardown .reset) connId.toInt).go (.receive (taken + 1))
  | .park taken connId => (s.park .reset connId.toInt).go (.receive (taken + 1))
  | .done taken connId kind => (s.teardownDone connId.toInt kind).go (.receive (taken + 1))
  | .check => if s.queue = [] then s.go (.scan 0) else s.go .polls
  | .scan id =>
    if id < pendIds then
      if s.parked id = {} then s.go (.scan (id + 1)) else s.go (.take id)
    else s.go .polls
  | .take id =>
    { s with
      parked := fun other => if other = id then {} else s.parked other
      worker := .close id (s.parked id) }
  | .close id bits => if bits.closed then s.go (.closeDone id bits) else s.go (.reset id bits)
  | .closeDone id bits => (s.teardownDone id .closed).go (.reset id bits)
  | .reset id bits => if bits.reset then s.go (.resetDone id) else s.go (.scan (id + 1))
  | .resetDone id => (s.teardownDone id .reset).go (.scan (id + 1))
  | .polls => s.go (.receive 0)

def step : Event → State
  | .submit (.bytes connId data) => s.submitBytes connId data
  | .submit (.teardown kind connId) => s.submitTeardown kind connId
  | .submit .other => s.submitOther
  | .work asks => s.work asks

/-- What the worker's next step shows. -/
def shows : Option Sight :=
  match s.worker with
  | .handle _ ⟨.bytes data, connId⟩ => some (.processed connId.toInt data)
  | .handle _ ⟨.teardown kind, connId⟩ => some (.ran connId.toInt kind)
  | .send _ connId => if s.full then none else some (.asked connId.toInt .reset)
  | .park _ connId => some (.asked connId.toInt .reset)
  | .close id bits => if bits.closed then some (.ran id .closed) else none
  | .reset id bits => if bits.reset then some (.ran id .reset) else none
  | _ => none

def emit : Event → Option Sight
  | .submit (.bytes connId data) =>
    if s.refuses connId then none else some (.accepted connId (data.take workDataMax))
  | .submit (.teardown kind connId) => some (.asked connId kind)
  | .submit .other => none
  | .work _ => s.shows

end State

/-- The net task and the worker around their queue. -/
def system : Emitter State Event Sight := ⟨State.step, State.emit⟩

/-- The messages of a connection that were accepted. -/
def accepted (connId : Int) (sights : List Sight) : List (List Byte) :=
  sights.filterMap fun
    | .accepted id data => if id = connId then some data else none
    | _ => none

/-- The messages of a connection that were processed. -/
def processed (connId : Int) (sights : List Sight) : List (List Byte) :=
  sights.filterMap fun
    | .processed id data => if id = connId then some data else none
    | _ => none

end BenchPod.HwWorker
