import Mathlib.Data.List.Basic

/-!
# A bounded queue between two parties

One party puts values in, whole or not at all; the other looks at the front, takes values off it or throws
them away.
-/

namespace BenchPod.Fifo

variable {α : Type*}

/-- What is done to a queue, with what it tells. -/
inductive Act (α : Type*)
  | accept (values : List α)
  | refuse (values : List α)
  /-- How much more would fit. -/
  | free (count : Nat)
  /-- How much the queue holds. -/
  | used (count : Nat)
  /-- So many values can be looked at. -/
  | peek (count : Nat)
  | look (index : Nat) (value : α)
  | take (values : List α)
  | discard (values : List α)

/-- One act on a queue of bounded length. -/
inductive Move (cap : Nat) : List α → Act α → List α → Prop
  | accept {queue values} (fits : queue.length + values.length ≤ cap) :
      Move cap queue (.accept values) (queue ++ values)
  | refuse {queue values} (full : cap < queue.length + values.length) :
      Move cap queue (.refuse values) queue
  | free {queue} : Move cap queue (.free (cap - queue.length)) queue
  | used {queue} : Move cap queue (.used queue.length) queue
  | peek {queue count} (within : count ≤ queue.length) (some_held : queue ≠ [] → 0 < count) :
      Move cap queue (.peek count) queue
  | look {queue : List α} {index value} (found : queue[index]? = some value) :
      Move cap queue (.look index value) queue
  | take {values queue} : Move cap (values ++ queue) (.take values) queue
  | discard {values queue} : Move cap (values ++ queue) (.discard values) queue

/-- Acts one after another. -/
inductive Moves (cap : Nat) : List α → List (Act α) → List α → Prop
  | nil {queue} : Moves cap queue [] queue
  | cons {queue next last act acts} (move : Move cap queue act next) (rest : Moves cap next acts last) :
      Moves cap queue (act :: acts) last

/-- The values that were put in. -/
def accepted (acts : List (Act α)) : List α :=
  acts.flatMap fun
    | .accept values => values
    | _ => []

/-- The values that left, taken or thrown away. -/
def gone (acts : List (Act α)) : List α :=
  acts.flatMap fun
    | .take values | .discard values => values
    | _ => []

variable {cap : Nat} {queue next last : List α} {act : Act α} {acts more : List (Act α)}

theorem Move.bounded (move : Move cap queue act next) (bounded : queue.length ≤ cap) : next.length ≤ cap := by
  cases move with
  | accept fits => rwa [List.length_append]
  | take | discard =>
    rw [List.length_append] at bounded
    omega
  | _ => exact bounded

theorem Moves.bounded (moves : Moves cap queue acts last) (bounded : queue.length ≤ cap) : last.length ≤ cap := by
  induction moves with
  | nil => exact bounded
  | cons move _ ih => exact ih (move.bounded bounded)

theorem Moves.in_order (moves : Moves cap queue acts last) : queue ++ accepted acts = gone acts ++ last := by
  induction moves with
  | nil => simp [accepted, gone]
  | @cons queue next last act acts move _ ih =>
    have step : queue ++ accepted [act] = gone [act] ++ next := by cases move <;> simp [accepted, gone]
    have whole : accepted (act :: acts) = accepted [act] ++ accepted acts := by simp [accepted]
    have left : gone (act :: acts) = gone [act] ++ gone acts := by simp [gone]
    rw [whole, left, ← List.append_assoc, step, List.append_assoc, ih, List.append_assoc]

end BenchPod.Fifo
