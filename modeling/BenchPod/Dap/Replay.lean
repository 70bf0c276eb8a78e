import BenchPod.Dap.Recording
import BenchPod.Dap.Serial

/-!
# A flush replays the record

The operations of a record are done one by one, each read's value going where it was noted, up to the
first operation that is not answered OK.
-/

namespace BenchPod.Dap

open Endian

/-- The value of a completed operation goes where it was noted. -/
def Recorded.place (entry : Recorded) (resp : Nat → Byte) (word : Word) : Nat → Byte :=
  if entry.op.read then
    match entry.dst with
    | some dst => written resp dst (le32 word)
    | none => resp
  else resp

/-- What the entries of a record leave on the line and in the response, and the one that is not answered
OK with its ACK. -/
structure Replayed where
  seen : List Wire
  resp : Nat → Byte
  stop : Option (Recorded × Byte)

def replay (t : Target) : List Wire → (Nat → Byte) → List Recorded → Replayed
  | seen, resp, [] => ⟨seen, resp, none⟩
  | seen, resp, entry :: entries =>
    let answer := t.answer seen entry.op
    if answer.code entry.op = ackOk then
      replay t (seen ++ [.transfer entry.op]) (entry.place resp answer.data) entries
    else ⟨seen ++ [.transfer entry.op], resp, some (entry, answer.code entry.op)⟩

variable {t : Target} {d : State} {seen : List Wire} {resp : Nat → Byte} {entries more : List Recorded}
  {entry : Recorded}

theorem replay_ok (ok : (t.answer seen entry.op).code entry.op = ackOk) :
    replay t seen resp (entry :: entries) =
      replay t (seen ++ [.transfer entry.op]) (entry.place resp (t.answer seen entry.op).data) entries := by
  rw [replay]
  exact if_pos ok

theorem replay_stop (stop : (t.answer seen entry.op).code entry.op ≠ ackOk) :
    replay t seen resp (entry :: entries) =
      ⟨seen ++ [.transfer entry.op], resp, some (entry, (t.answer seen entry.op).code entry.op)⟩ := by
  rw [replay]
  exact if_neg stop

theorem replay_append :
    replay t seen resp (entries ++ more) =
      match (replay t seen resp entries).stop with
      | none => replay t (replay t seen resp entries).seen (replay t seen resp entries).resp more
      | some _ => replay t seen resp entries := by
  induction entries generalizing seen resp with
  | nil => rfl
  | cons entry entries ih =>
    by_cases ok : (t.answer seen entry.op).code entry.op = ackOk
    · rw [List.cons_append, replay_ok ok, replay_ok ok, ih]
    · rw [List.cons_append, replay_stop ok, replay_stop ok]

theorem placeReads_cons (word : Word) (rdata : List Word) :
    State.placeReads (entry :: entries) ((if entry.op.read then [word] else []) ++ rdata) d =
      State.placeReads entries rdata { d with resp := entry.place d.resp word } := by
  rw [State.placeReads, Recorded.place]
  split
  · cases entry.dst with
    | none => rfl
    | some dst => rfl
  · rfl

theorem replay_serial (seen : List Wire) (entries : List Recorded) (extra : List Word) :
    (serial t seen (entries.map Recorded.op)).seen = (replay t seen d.resp entries).seen ∧
      (State.placeReads (entries.take (serial t seen (entries.map Recorded.op)).done)
        ((serial t seen (entries.map Recorded.op)).words ++ extra) d).resp =
          (replay t seen d.resp entries).resp ∧
      ((serial t seen (entries.map Recorded.op)).stop = none ∧
          (replay t seen d.resp entries).stop = none ∧
          entries[(serial t seen (entries.map Recorded.op)).done]? = none ∨
        ∃ entry ack, (serial t seen (entries.map Recorded.op)).stop = some ack ∧
          (replay t seen d.resp entries).stop = some (entry, ack) ∧
          entries[(serial t seen (entries.map Recorded.op)).done]? = some entry) := by
  induction entries generalizing d seen with
  | nil => exact ⟨rfl, rfl, .inl ⟨rfl, rfl, rfl⟩⟩
  | cons entry entries ih =>
    rw [List.map_cons]
    by_cases ok : (t.answer seen entry.op).code entry.op = ackOk
    · obtain ⟨seen_eq, resp_eq, stop_eq⟩ :=
        @ih { d with resp := entry.place d.resp (t.answer seen entry.op).data } (seen ++ [.transfer entry.op])
      rw [replay_ok ok, serial_ok ok]
      simp only [Serial.behind, Nat.add_comm 1, List.take_succ_cons, List.append_assoc, placeReads_cons,
        List.getElem?_cons_succ]
      exact ⟨seen_eq, resp_eq, stop_eq⟩
    · rw [replay_stop ok, serial_stop ok]
      exact ⟨rfl, rfl, .inr ⟨entry, _, rfl, rfl, rfl⟩⟩

/-- The record has at most a record's operations, and the one that stops its batch does not fill its
queue. -/
structure Runs (t : Target) (seen : List Wire) (entries : List Recorded) : Prop where
  few : entries.length ≤ recMax
  noWrap : NoWrap t seen 0 (entries.map Recorded.op)

theorem batch_replay (never : NeverWaits t) (runs : Runs t d.seen d.ops) :
    let batch := swdLlBatch t d.settings.batchRetry d.seen (d.ops.map Recorded.op)
    let replayed := replay t d.seen d.resp d.ops
    batch.seen = replayed.seen ∧
      State.placeReads (d.ops.take batch.done) batch.rdata d = { d with resp := replayed.resp } ∧
      (replayed.stop = none ∧ d.ops[batch.done]? = none ∨
        ∃ entry, replayed.stop = some (entry, batch.ack) ∧ d.ops[batch.done]? = some entry) := by
  have few : (d.ops.map Recorded.op).length ≤ 128 := by
    rw [List.length_map]
    exact runs.few
  obtain ⟨seen_eq, done_eq, ⟨extra, rdata_eq⟩, ack_eq⟩ := swdLlBatch_serial d.settings.batchRetry never few runs.noWrap
  obtain ⟨replay_seen, replay_resp, outcome⟩ := replay_serial (t := t) (d := d) d.seen d.ops extra
  extract_lets batch replayed
  refine ⟨seen_eq.trans replay_seen, ?_, ?_⟩
  · obtain ⟨resp, only⟩ := placeReads_only_resp (d.ops.take batch.done) batch.rdata d
    rw [← replay_resp, ← done_eq, ← rdata_eq, only]
  · rw [done_eq, ack_eq]
    obtain ⟨-, stop, beyond⟩ | ⟨entry, ack, stopped, stop, at_done⟩ := outcome
    · exact .inl ⟨stop, beyond⟩
    · rw [stopped]
      exact .inr ⟨entry, stop, at_done⟩

theorem replay_nil (empty : d.ops = []) : replay t d.seen d.resp d.ops = ⟨d.seen, d.resp, none⟩ := by
  rw [empty, replay]

theorem recFlush_ok (never : NeverWaits t) (runs : Runs t d.seen d.ops) (fine : d.failed = false)
    (through : (replay t d.seen d.resp d.ops).stop = none) :
    d.recFlush t =
      ({ d with
          seen := (replay t d.seen d.resp d.ops).seen, resp := (replay t d.seen d.resp d.ops).resp
          ops := [] }, ackOk) := by
  rw [State.recFlush, if_neg (Bool.eq_false_iff.mp fine)]
  split
  · next empty =>
      rw [replay_nil empty, ← empty]
  · obtain ⟨seen_eq, placed, outcome⟩ := batch_replay never runs
    obtain ⟨-, beyond⟩ | ⟨entry, stop, -⟩ := outcome
    · simp only [beyond, placed, seen_eq]
    · cases through.symm.trans stop

theorem recFlush_stop {ack : Byte} (never : NeverWaits t) (runs : Runs t d.seen d.ops) (fine : d.failed = false)
    (stopped : (replay t d.seen d.resp d.ops).stop = some (entry, ack)) :
    ∃ acked, d.recFlush t =
      ({ d with
          seen := (replay t d.seen d.resp d.ops).seen, resp := (replay t d.seen d.resp d.ops).resp
          ops := [], failed := true, failCnt := entry.cntAt, failRp := entry.rpAt, failAck := ack
          acked }, ack) := by
  rw [State.recFlush, if_neg (Bool.eq_false_iff.mp fine)]
  split
  · next empty =>
      rw [replay_nil empty] at stopped
      cases stopped
  · obtain ⟨seen_eq, placed, outcome⟩ := batch_replay never runs
    obtain ⟨through, -⟩ | ⟨entry', stop, at_done⟩ := outcome
    · cases stopped.symm.trans through
    · obtain ⟨rfl, rfl⟩ := Prod.mk.inj (Option.some.inj (stopped.symm.trans stop))
      simp only [at_done, placed, seen_eq]
      exact ⟨_, rfl⟩

end BenchPod.Dap
