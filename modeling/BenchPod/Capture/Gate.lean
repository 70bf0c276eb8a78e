import BenchPod.Capture.System

/-!
# Who holds the heavy gate

At any time at most one thing uses the sample buffers: a capture, the scan of its changes, a
read-back, or an upload.  The gate belongs to its connection, as long as the hold that a finished
upload leaves behind does not run out while the same connection uploads again.
-/

namespace BenchPod.Capture

open Command

/-- What can be using the buffers across polls. -/
inductive Activity
  | v2cap
  | lacap
  | dualcap
  | chgscan
  | bulk
  | upload
  deriving DecidableEq

/-- The captures that can wait for a trigger. -/
def Activity.captures : Activity → Bool
  | .v2cap | .lacap | .dualcap => true
  | .chgscan | .bulk | .upload => false

/-- The use of the buffers that is going on, and the connection it is for. -/
structure Use where
  activity : Activity
  conn : ConnId
  deriving DecidableEq

/-- The connection of the use, if it is of the given kind. -/
def Use.of : Option Use → Activity → Option ConnId
  | none, _ => none
  | some use, activity => if use.activity = activity then some use.conn else none

@[simp]
theorem Use.of_none (activity : Activity) : Use.of none activity = none := rfl

@[simp]
theorem Use.of_some (kind activity : Activity) (conn : ConnId) :
    Use.of (some ⟨kind, conn⟩) activity = if kind = activity then some conn else none := rfl

/-- The part of the pod's state that says who uses the buffers. -/
@[ext]
structure Gate where
  owner : Option Holder
  v2cap : Option ConnId
  lacap : Option ConnId
  dualcap : Option ConnId
  chgscan : Option ConnId
  bulk : Option ConnId
  upload : Option ConnId
  waiting : Option ConnId
  proto : ConnId → Proto

/-- The gate of a pod. -/
def Pod.gate (s : Pod) : Gate where
  owner := s.heavyOwner
  v2cap := s.v2cap.map V2cap.connId
  lacap := s.lacap.map Lacap.connId
  dualcap := s.dualcap.map Dualcap.connId
  chgscan := s.chgscan.map Chgscan.connId
  bulk := s.bulk.map Bulk.connId
  upload := s.loadBin.conn
  waiting := s.trigwait.map Trigwait.connId
  proto := s.proto

namespace Gate

/-- The gate serves exactly the given use. -/
structure Serves (g : Gate) (use : Option Use) : Prop where
  v2cap : g.v2cap = Use.of use .v2cap
  lacap : g.lacap = Use.of use .lacap
  dualcap : g.dualcap = Use.of use .dualcap
  chgscan : g.chgscan = Use.of use .chgscan
  bulk : g.bulk = Use.of use .bulk
  upload : g.upload = Use.of use .upload
  owner : ∀ u ∈ use, g.owner = some (.conn u.conn)
  waiting : ∀ conn ∈ g.waiting, ∃ u ∈ use, u.conn = conn ∧ u.activity.captures = true
  loads : ∀ conn, g.proto conn = .load ↔ g.upload = some conn
  runs : ∀ conn ∈ g.upload, connRunsStateMachine conn = true

/-- `heavy_release`. -/
def release (g : Gate) (holder : Holder) : Gate :=
  if g.owner = some holder then { g with owner := none } else g

theorem release_of_owner {g : Gate} {holder : Holder} (owned : g.owner = some holder) :
    g.release holder = { g with owner := none } := if_pos owned

/-- A connection's protocol set. -/
def speak (g : Gate) (conn : ConnId) (proto : Proto) : Gate :=
  { g with proto := fun c => if c = conn then proto else g.proto c }

/-- No capture is in flight and the gate is free for a holder. -/
structure FreeFor (g : Gate) (holder : Holder) : Prop where
  v2cap : g.v2cap = none
  lacap : g.lacap = none
  dualcap : g.dualcap = none
  chgscan : g.chgscan = none
  bulk : g.bulk = none
  owner : g.owner = none ∨ g.owner = some holder

/-- What one command of a connection can do to the gate. -/
inductive Commanded (g : Gate) (conn : ConnId) : Gate → Prop
  | same : Commanded g conn g
  | claimed (free : g.FreeFor (.conn conn)) (owner : Option Holder) :
      (owner = none ∨ owner = some (.conn conn)) → Commanded g conn { g with owner }
  | v2cap (free : g.FreeFor (.conn conn)) (waiting : Option ConnId) :
      (waiting = g.waiting ∨ waiting = some conn) →
      Commanded g conn { g with owner := some (.conn conn), v2cap := some conn, waiting }
  | lacap (free : g.FreeFor (.conn conn)) (waiting : Option ConnId) :
      (waiting = g.waiting ∨ waiting = some conn) →
      Commanded g conn { g with owner := some (.conn conn), lacap := some conn, waiting }
  | dualcap (free : g.FreeFor (.conn conn)) (waiting : Option ConnId) :
      (waiting = g.waiting ∨ waiting = some conn) →
      Commanded g conn { g with owner := some (.conn conn), dualcap := some conn, waiting }
  | bulk (free : g.FreeFor (.conn conn)) :
      Commanded g conn { g with owner := some (.conn conn), bulk := some conn }
  | upload (free : g.FreeFor (.conn conn)) (runs : connRunsStateMachine conn = true) :
      Commanded g conn
        (speak { g with owner := some (.conn conn), upload := some conn } conn .load)
  | mode (proto : Proto) (other : proto ≠ .load) : Commanded g conn (g.speak conn proto)

variable {g g' : Gate} {use : Option Use} {conn : ConnId} {holder : Holder}

theorem Serves.proto_ne (serves : g.Serves none) (conn : ConnId) : g.proto conn ≠ .load := by
  rw [Ne, serves.loads, serves.upload]
  simp

theorem Serves.waiting_none (serves : g.Serves none) : g.waiting = none := by
  cases h : g.waiting with
  | none => rfl
  | some conn => simpa using serves.waiting conn h

theorem Serves.free (serves : g.Serves use) (free : g.FreeFor holder)
    (apart : ∀ conn, holder = .conn conn → g.upload ≠ some conn) : use = none := by
  cases use with
  | none => rfl
  | some u =>
    obtain ⟨activity, conn⟩ := u
    have owner := serves.owner _ rfl
    have upload := serves.upload
    have v2cap := serves.v2cap
    have lacap := serves.lacap
    have dualcap := serves.dualcap
    have chgscan := serves.chgscan
    have bulk := serves.bulk
    rw [free.v2cap] at v2cap
    rw [free.lacap] at lacap
    rw [free.dualcap] at dualcap
    rw [free.chgscan] at chgscan
    rw [free.bulk] at bulk
    cases activity with
    | upload =>
      obtain unowned | owned := free.owner
      · simp [owner] at unowned
      · rw [owner, Option.some.injEq] at owned
        exact absurd upload (apart conn owned.symm)
    | v2cap => simp at v2cap
    | lacap => simp at lacap
    | dualcap => simp at dualcap
    | chgscan => simp at chgscan
    | bulk => simp at bulk

theorem Serves.speak (serves : g.Serves use) {proto : Proto} (other : proto ≠ .load)
    (apart : g.upload ≠ some conn) : (g.speak conn proto).Serves use := by
  refine ⟨serves.v2cap, serves.lacap, serves.dualcap, serves.chgscan, serves.bulk, serves.upload,
    serves.owner, serves.waiting, ?_, serves.runs⟩
  intro c
  by_cases same : c = conn
  · subst same
    simpa [Gate.speak, other] using apart
  · simpa [Gate.speak, same] using serves.loads c

/-- A command leaves the gate serving one use. -/
theorem Serves.commanded (serves : g.Serves use) (apart : g.upload ≠ some conn)
    (commanded : g.Commanded conn g') : ∃ use', g'.Serves use' := by
  have idle : g.FreeFor (.conn conn) → g.Serves none := by
    intro free
    rw [← serves.free free (fun other same => by cases same; exact apart)]
    exact serves
  cases commanded with
  | same => exact ⟨use, serves⟩
  | claimed free owner =>
    obtain ⟨v2cap, lacap, dualcap, chgscan, bulk, upload, -, waiting, loads, runs⟩ := idle free
    exact ⟨none, v2cap, lacap, dualcap, chgscan, bulk, upload, by simp, waiting, loads, runs⟩
  | v2cap free waiting which =>
    have idle := idle free
    refine ⟨some ⟨.v2cap, conn⟩, rfl, idle.lacap, idle.dualcap, idle.chgscan, idle.bulk, idle.upload,
      by simp, ?_, idle.loads, idle.runs⟩
    obtain rfl | rfl := which
    · simp [idle.waiting_none]
    · simp [Activity.captures]
  | lacap free waiting which =>
    have idle := idle free
    refine ⟨some ⟨.lacap, conn⟩, idle.v2cap, rfl, idle.dualcap, idle.chgscan, idle.bulk, idle.upload,
      by simp, ?_, idle.loads, idle.runs⟩
    obtain rfl | rfl := which
    · simp [idle.waiting_none]
    · simp [Activity.captures]
  | dualcap free waiting which =>
    have idle := idle free
    refine ⟨some ⟨.dualcap, conn⟩, idle.v2cap, idle.lacap, rfl, idle.chgscan, idle.bulk, idle.upload,
      by simp, ?_, idle.loads, idle.runs⟩
    obtain rfl | rfl := which
    · simp [idle.waiting_none]
    · simp [Activity.captures]
  | bulk free =>
    have idle := idle free
    refine ⟨some ⟨.bulk, conn⟩, idle.v2cap, idle.lacap, idle.dualcap, idle.chgscan, rfl, idle.upload,
      by simp, ?_, idle.loads, idle.runs⟩
    simp [idle.waiting_none]
  | upload free runs =>
    have idle := idle free
    refine ⟨some ⟨.upload, conn⟩, idle.v2cap, idle.lacap, idle.dualcap, idle.chgscan, idle.bulk, rfl,
      by simp [Gate.speak], ?_, ?_, by simpa [Gate.speak] using runs⟩
    · simp [Gate.speak, idle.waiting_none]
    · intro other
      by_cases same : other = conn
      · simp [Gate.speak, same]
      · simp [Gate.speak, same, idle.proto_ne other, Ne.symm same]
  | mode proto other => exact ⟨use, serves.speak other apart⟩

end Gate
end BenchPod.Capture
