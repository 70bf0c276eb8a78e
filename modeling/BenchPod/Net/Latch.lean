import BenchPod.Library.Recent
import BenchPod.Library.Emitter

/-!
# The reload latch

The worker requests and commits reloads of a link, the net task takes them.  They share six words and
no lock: the net task may run between any two statements of the worker, and inside the worker's
read-modify-write of the bits, but the worker never runs inside a take.
-/

namespace BenchPod.NetReload

def settleMs : Word := 20
def maxWaitMs : Word := 1000

/-- Where the worker is. -/
inductive Worker where
  | idle
  /-- Before the comparison that decides who starts the clock. -/
  | compare (what now : Word)
  /-- Before the clock is started. -/
  | stamp (what now : Word)
  /-- Before the bits are read. -/
  | load (what : Word)
  /-- Before the bits are written back. -/
  | store (what loaded : Word)
  /-- Before the sequence number is raised. -/
  | bump (what : Word)
  | commitRead (now : Word)
  | commitCheck (seq now : Word)
  | commitMs (seq now : Word)
  | commitSeq (seq : Word)
  deriving DecidableEq

/-- The shared words and the worker's place. -/
structure Latch where
  /-- Requested, not yet taken. -/
  bits : Word := 0
  reqSeq : Word := 0
  /-- When the first request since the last take was made. -/
  reqMs : Word := 0
  /-- The sequence number that was committed, and when. -/
  commitSeq : Word := 0
  commitMs : Word := 0
  /-- The sequence number that was taken last. -/
  takenSeq : Word := 0
  worker : Worker := .idle
  deriving DecidableEq

namespace Latch

variable (l : Latch)

/-- Call net_reload_request. -/
def request (what now : Word) : Latch :=
  if what = 0 then l else { l with worker := .compare what now }

/-- Call net_reload_commit. -/
def commit (now : Word) : Latch := { l with worker := .commitRead now }

/-- The worker's next statement. -/
def work : Latch :=
  match l.worker with
  | .idle => l
  | .compare what now =>
    { l with worker := if l.reqSeq = l.takenSeq then .stamp what now else .load what }
  | .stamp what now => { l with reqMs := now, worker := .load what }
  | .load what => { l with worker := .store what l.bits }
  | .store what loaded => { l with bits := loaded ||| what, worker := .bump what }
  | .bump _ => { l with reqSeq := l.reqSeq + 1, worker := .idle }
  | .commitRead now => { l with worker := .commitCheck l.reqSeq now }
  | .commitCheck seq now =>
    { l with
      worker := if seq = l.takenSeq ∨ seq = l.commitSeq then .idle else .commitMs seq now }
  | .commitMs seq now => { l with commitMs := now, worker := .commitSeq seq }
  | .commitSeq seq => { l with commitSeq := seq, worker := .idle }

/-- Whether something is requested and not yet taken. -/
def pending : Bool := l.reqSeq != l.takenSeq

/-- Whether what is pending is to be reloaded now. -/
def due (now : Word) (txBusy : Bool) : Bool :=
  maxWaitMs ≤ now - l.reqMs || (l.commitSeq == l.reqSeq && (settleMs ≤ now - l.commitMs && !txBusy))

/-- net_reload_take: what is to be reloaded now. -/
def take (now : Word) (txBusy : Bool) : Latch × Word :=
  if l.pending = false then (l, 0)
  else if l.due now txBusy = false then (l, 0)
  else ({ l with bits := l.bits &&& ~~~l.bits, takenSeq := l.reqSeq }, l.bits)

/-- Whether the worker is between the comparison and the new sequence number of a request. -/
def requesting : Bool :=
  match l.worker with
  | .stamp .. | .load .. | .store .. | .bump .. => true
  | _ => false

end Latch

/-- A request of the worker. -/
structure Asked where
  what : Word
  time : Nat
  /-- When it was committed. -/
  committed : Option Nat := none
  deriving DecidableEq

/-- What has happened, in real time. -/
structure Record where
  time : Nat := 0
  /-- When the request or commit under way was called. -/
  called : Nat := 0
  /-- The requests completed since a take last found something due. -/
  asked : List Asked := []
  /-- When the call was made that last started the clock. -/
  first : Nat := 0
  /-- Requested bits that no take has returned since. -/
  owed : Word := 0
  /-- How many requests have been completed since a commit was last recorded. -/
  uncommitted : Nat := 0
  /-- When the commit was called that was recorded last. -/
  commitTime : Nat := 0
  /-- Whether the take that last found something due fell outside of requests. -/
  clean : Bool := true
  deriving DecidableEq

namespace Record

variable (r : Record)

/-- The worker's next statement is done. -/
def work (l : Latch) : Record :=
  match l.worker with
  | .stamp .. => { r with first := r.called }
  | .store what _ => { r with owed := r.owed ||| what }
  | .bump what =>
    { r with
      asked := r.asked ++ [{ what, time := r.called }]
      uncommitted := r.uncommitted + 1 }
  | .commitSeq _ => { r with uncommitted := 0, commitTime := r.called }
  | _ => r

/-- A commit covers every completed request. -/
def commit (time : Nat) : Record :=
  { r with
    time
    called := time
    asked := r.asked.map fun a => { a with committed := a.committed.or (some time) } }

/-- A take is done. -/
def take (l : Latch) (now : Word) (time : Nat) (txBusy : Bool) : Record :=
  if l.pending && l.due now txBusy then
    { r with
      time
      asked := []
      owed := r.owed &&& ~~~(l.take now txBusy).2
      clean := !l.requesting }
  else { r with time }

end Record

/-- What the two tasks do, with the time of each call. -/
inductive Event where
  | request (what : Word) (time : Nat)
  | commit (time : Nat)
  | work
  | take (time : Nat) (txBusy : Bool)

/-- The latch and its record, under a clock with any start. -/
def recorded (start : Word) : Emitter (Latch × Record) Event Word where
  step entry
    | .request what time => (entry.1.request what (clockAt start time), { entry.2 with time, called := time })
    | .commit time => (entry.1.commit (clockAt start time), entry.2.commit time)
    | .work => (entry.1.work, entry.2.work entry.1)
    | .take time txBusy =>
      ((entry.1.take (clockAt start time) txBusy).1, entry.2.take entry.1 (clockAt start time) time txBusy)
  emit entry
    | .take time txBusy => some (entry.1.take (clockAt start time) txBusy).2
    | _ => none

/-- Time does not run backwards, the worker makes one call at a time, and the sequence numbers do not
run around between two takes or between two commits. -/
def Event.Fair (entry : Latch × Record) : Event → Prop
  | .request _ time => entry.1.worker = .idle ∧ entry.2.time ≤ time
  | .commit time => entry.1.worker = .idle ∧ entry.2.time ≤ time
  | .work => entry.2.asked.length + 1 < 2 ^ 32 ∧ entry.2.uncommitted + 1 < 2 ^ 32
  | .take time _ => entry.2.time ≤ time

instance (entry : Latch × Record) : ∀ event : Event, Decidable (event.Fair entry)
  | .request _ _ => inferInstanceAs (Decidable (_ ∧ _))
  | .commit _ => inferInstanceAs (Decidable (_ ∧ _))
  | .work => inferInstanceAs (Decidable (_ ∧ _))
  | .take _ _ => inferInstanceAs (Decidable (_ ≤ _))

end BenchPod.NetReload
