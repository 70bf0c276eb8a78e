import BenchPod.Dap.Plan
import BenchPod.Dap.Replay

/-!
# A recorded plan and the plan one by one

While all is answered OK the record is what the transfers one by one have already done.  Where they stop,
the record goes on to its end, and its flush stops at the same operation.
-/

namespace BenchPod.Dap

open Endian

/-- The match mask when a record with `recorded` operations goes on to its end. -/
def maskBehind : Nat → List Act → Word → Word
  | _, [], mask => mask
  | recorded, .cur _ _ :: rest, mask => maskBehind recorded rest mask
  | recorded, .mask later :: rest, _ => maskBehind recorded rest later
  | recorded, .issue .. :: rest, mask =>
    if recorded = recMax then mask else maskBehind (recorded + 1) rest mask

/-- Where an operation is not answered OK, what the record goes on to do leaves the match mask as it is. -/
def MaskKept (t : Target) : List Wire → Word → Nat → List Act → Prop
  | _, _, _, [] => True
  | seen, mask, recorded, .cur _ _ :: rest => MaskKept t seen mask recorded rest
  | seen, _, recorded, .mask later :: rest => MaskKept t seen later recorded rest
  | seen, mask, recorded, .issue _ _ request value _ :: rest =>
    let op := Op.of request value
    let recorded := if recorded = recMax then 1 else recorded + 1
    if (t.answer seen op).code op = ackOk then MaskKept t (seen ++ [.transfer op]) mask recorded rest
    else maskBehind recorded rest mask = mask

/-- The operation that is not answered OK is no read that fills its queue. -/
def Unfilled (t : Target) : List Wire → Nat → Nat → List Act → Prop
  | _, _, _, [] => True
  | seen, recorded, taken, .cur _ _ :: rest => Unfilled t seen recorded taken rest
  | seen, recorded, taken, .mask _ :: rest => Unfilled t seen recorded taken rest
  | seen, recorded, taken, .issue _ _ request value _ :: rest =>
    let op := Op.of request value
    let taken := queueWith (if recorded = recMax then 0 else taken) op
    let recorded := if recorded = recMax then 1 else recorded + 1
    if (t.answer seen op).code op = ackOk then Unfilled t (seen ++ [.transfer op]) recorded taken rest
    else ¬ (op.read = true ∧ taken = swdqBytesMax)

instance decidableMaskKept (t : Target) :
    ∀ seen mask recorded acts, Decidable (MaskKept t seen mask recorded acts)
  | _, _, _, [] => isTrue trivial
  | seen, mask, recorded, .cur _ _ :: rest => decidableMaskKept t seen mask recorded rest
  | seen, _, recorded, .mask later :: rest => decidableMaskKept t seen later recorded rest
  | seen, mask, recorded, .issue _ _ request value _ :: rest =>
    let op := Op.of request value
    have := decidableMaskKept t (seen ++ [.transfer op]) mask (if recorded = recMax then 1 else recorded + 1) rest
    if ok : (t.answer seen op).code op = ackOk then
      decidable_of_iff (MaskKept t (seen ++ [.transfer op]) mask (if recorded = recMax then 1 else recorded + 1) rest)
        (iff_of_eq (if_pos ok).symm)
    else
      decidable_of_iff (maskBehind (if recorded = recMax then 1 else recorded + 1) rest mask = mask)
        (iff_of_eq (if_neg ok).symm)

instance decidableUnfilled (t : Target) :
    ∀ seen recorded taken acts, Decidable (Unfilled t seen recorded taken acts)
  | _, _, _, [] => isTrue trivial
  | seen, recorded, taken, .cur _ _ :: rest => decidableUnfilled t seen recorded taken rest
  | seen, recorded, taken, .mask _ :: rest => decidableUnfilled t seen recorded taken rest
  | seen, recorded, taken, .issue _ _ request value _ :: rest =>
    let op := Op.of request value
    let used := queueWith (if recorded = recMax then 0 else taken) op
    have := decidableUnfilled t (seen ++ [.transfer op]) (if recorded = recMax then 1 else recorded + 1) used rest
    if ok : (t.answer seen op).code op = ackOk then
      decidable_of_iff (Unfilled t (seen ++ [.transfer op]) (if recorded = recMax then 1 else recorded + 1) used rest)
        (iff_of_eq (if_pos ok).symm)
    else
      decidable_of_iff (¬ (op.read = true ∧ used = swdqBytesMax)) (iff_of_eq (if_neg ok).symm)

/-- The operations of a plan are issued where the last position was noted, and only reads keep a word. -/
def Positioned : Nat → Option Nat → List Act → Prop
  | _, _, [] => True
  | _, _, .cur count rp :: rest => Positioned count (some rp) rest
  | count, rp, .mask _ :: rest => Positioned count rp rest
  | count, rp, .issue atCount atRp request _ keep :: rest =>
    count = atCount ∧ rp = some atRp ∧ (keep = true → isRead request = true) ∧
      Positioned count (if keep then some (atRp + 4) else rp) rest

variable {t : Target} {d single : State} {request : Byte} {value : Word} {entry : Recorded}
  {entries more : List Recorded} {seen : List Wire} {resp : Nat → Byte} {taken recorded : Nat}

/-! ## One operation -/

theorem code_ne_wait (never : NeverWaits t) (seen : List Wire) (op : Op) : (t.answer seen op).code op ≠ ackWait := by
  have narrow : ∀ ack : BitVec 3, ack ≠ 2 → ack.setWidth 8 ≠ ackWait := by decide
  rw [Answer.code]
  split
  · decide
  · exact narrow _ (never seen op)

theorem xferTry_once (never : NeverWaits t) (op : Op) (retry : Nat) (d : State) :
    State.xferTry t op retry d = d.swdLlTransfer t op := by
  cases retry with
  | zero => rfl
  | succ retry =>
    rw [State.xferTry]
    exact if_pos (.inl (code_ne_wait never d.seen op))

theorem xfer_single (never : NeverWaits t) (off : d.recording = false) :
    d.xfer t request value =
      (({ d with
          seen := d.seen ++ [.transfer (Op.of request value)]
          acked :=
            if (t.answer d.seen (Op.of request value)).code (Op.of request value) = ackOk
            then d.acked ++ [Op.of request value] else d.acked } : State),
        (t.answer d.seen (Op.of request value)).code (Op.of request value),
        (t.answer d.seen (Op.of request value)).data) := by
  rw [State.xfer]
  simp only [if_neg (Bool.eq_false_iff.mp off), xferTry_once never]
  split
  · next ok =>
      have ok : (t.answer d.seen (Op.of request value)).code (Op.of request value) = ackOk := ok
      rw [if_pos ok]
      rfl
  · next wrong =>
      have wrong : ¬ (t.answer d.seen (Op.of request value)).code (Op.of request value) = ackOk := wrong
      rw [if_neg wrong]
      rfl

/-- The entry of an operation that is recorded, with the place that its store notes. -/
def State.issued (d : State) (request : Byte) (value : Word) (rp : Nat) (keep : Bool) : Recorded :=
  ⟨Op.of request value, if keep then some rp else none, d.curCnt, d.curRp⟩

theorem xfer_recorded (t : Target) (request : Byte) (value : Word) (rp : Nat) (keep : Bool)
    (on : d.recording = true) (fine : d.failed = false) (room : d.ops.length ≠ recMax) :
    (d.xfer t request value).2.1 = ackOk ∧
      ∃ acked, (if keep then (d.xfer t request value).1.store rp (d.xfer t request value).2.2
        else (d.xfer t request value).1) =
          { d with
            ops := d.ops ++ [d.issued request value rp keep], acked
            curRp := if keep then some (rp + 4) else d.curRp } := by
  have xfer_eq : d.xfer t request value = (({ d with
          ops := d.ops ++ [d.issued request value rp false]
          acked := d.acked ++ [Op.of request value] } : State), ackOk, 0) := by
    rw [State.xfer]
    simp only [if_pos on, if_neg (Bool.eq_false_iff.mp fine), if_neg room, ne_eq, not_true_eq_false, if_false]
    rfl
  rw [xfer_eq]
  refine ⟨rfl, d.acked ++ [Op.of request value], ?_⟩
  cases keep with
  | false => rfl
  | true =>
    simp only [State.store, if_pos on, if_true, List.modifyLast_concat]
    rfl

/-! ## The queue of a record -/

theorem noWrap_through (through : (replay t seen resp entries).stop = none) (later : List Op) :
    NoWrap t seen taken (entries.map Recorded.op ++ later) ↔
      NoWrap t (replay t seen resp entries).seen ((entries.map Recorded.op).foldl queueWith taken) later := by
  induction entries generalizing seen resp taken with
  | nil => exact Iff.rfl
  | cons entry entries ih =>
    by_cases ok : (t.answer seen entry.op).code entry.op = ackOk
    · rw [replay_ok ok] at through ⊢
      rw [List.map_cons, List.cons_append, NoWrap, if_pos ok, List.foldl_cons]
      exact ih through
    · rw [replay_stop ok] at through
      cases through

theorem noWrap_stopped {last : Recorded × Byte} (stopped : (replay t seen resp entries).stop = some last)
    (later : List Op) :
    NoWrap t seen taken (entries.map Recorded.op ++ later) ↔ NoWrap t seen taken (entries.map Recorded.op) := by
  induction entries generalizing seen resp taken with
  | nil => cases stopped
  | cons entry entries ih =>
    rw [List.map_cons, List.cons_append, NoWrap, NoWrap]
    by_cases ok : (t.answer seen entry.op).code entry.op = ackOk
    · rw [replay_ok ok] at stopped
      rw [if_pos ok, if_pos ok]
      exact ih stopped
    · rw [if_neg ok, if_neg ok]

/-! ## The record and the single transfers -/

/-- The record holds what the single transfers have done. -/
structure Live (t : Target) (d single : State) (recorded taken : Nat) : Prop where
  on : d.recording = true
  off : single.recording = false
  fine : d.failed = false
  length : d.ops.length = recorded
  few : recorded ≤ recMax
  taken_eq : (d.ops.map Recorded.op).foldl queueWith 0 = taken
  replayed : replay t d.seen d.resp d.ops = ⟨single.seen, single.resp, none⟩
  settings : d.settings = single.settings
  empty : single.ops = []

/-- The record stops where the single transfers have stopped. -/
structure Doomed (t : Target) (d single : State) (count rp : Nat) (ack : Byte) : Prop where
  on : d.recording = true
  wrong : ack ≠ ackOk
  stops : (d.failed = false ∧ Runs t d.seen d.ops ∧
      ∃ entry, replay t d.seen d.resp d.ops = ⟨single.seen, single.resp, some (entry, ack)⟩ ∧
        entry.cntAt = count ∧ entry.rpAt = some rp) ∨
    d.failed = true ∧ d.ops = [] ∧ d.seen = single.seen ∧ d.resp = single.resp ∧ d.failCnt = count ∧
      d.failRp = some rp ∧ d.failAck = ack

theorem Doomed.flush {count rp : Nat} {ack : Byte} (never : NeverWaits t)
    (doomed : Doomed t d single count rp ack) :
    Doomed t (d.recFlush t).1 single count rp ack ∧ (d.recFlush t).2 = ack ∧
      (d.recFlush t).1.failed = true ∧ (d.recFlush t).1.failAck = ack ∧
      (d.recFlush t).1.settings = d.settings := by
  obtain ⟨fine, runs, entry, replayed, at_count, at_rp⟩ | stopped := doomed.stops
  · obtain ⟨acked, eq⟩ := recFlush_stop never runs fine (congrArg Replayed.stop replayed)
    rw [eq]
    refine ⟨⟨doomed.on, doomed.wrong, .inr ⟨rfl, rfl, ?_, ?_, at_count, at_rp, rfl⟩⟩, rfl, rfl, rfl, rfl⟩
    · exact congrArg Replayed.seen replayed
    · exact congrArg Replayed.resp replayed
  · rw [State.recFlush, if_pos stopped.1]
    obtain ⟨failed, -, -, -, -, -, ack_eq⟩ := stopped
    exact ⟨doomed, ack_eq, failed, ack_eq, rfl⟩

/-- A record that has gone past the operation that stops it goes on to its end. -/
theorem Doomed.acts {count rp : Nat} {ack : Byte} (acts : List Act) (never : NeverWaits t)
    (doomed : Doomed t d single count rp ack) (fine : d.failed = false) :
    Doomed t (d.acts t acts).1 single count rp ack ∧
      (d.acts t acts).1.settings =
        { d.settings with matchMask := maskBehind d.ops.length acts d.settings.matchMask } := by
  induction acts generalizing d with
  | nil => exact ⟨doomed, rfl⟩
  | cons act acts ih =>
    cases act with
    | cur atCount atRp => exact ih ⟨doomed.on, doomed.wrong, doomed.stops⟩ fine
    | mask mask => exact ih ⟨doomed.on, doomed.wrong, doomed.stops⟩ fine
    | issue atCount atRp request value keep =>
      obtain ⟨-, runs, entry, replayed, at_count, at_rp⟩ | ⟨failed, -⟩ := doomed.stops
      · by_cases full : d.ops.length = recMax
        · obtain ⟨flushed, ack_eq, failed, fail_ack, settings⟩ := doomed.flush never
          have xfer_eq : d.xfer t request value = ((d.recFlush t).1, (d.recFlush t).1.failAck, 0) := by
            rw [State.xfer]
            simp only [if_pos doomed.on, if_neg (Bool.eq_false_iff.mp fine), if_pos full, ack_eq, ne_eq,
              doomed.wrong, not_false_eq_true, if_true]
          rw [State.acts, xfer_eq]
          simp only [fail_ack, if_neg doomed.wrong]
          refine ⟨flushed, ?_⟩
          rw [settings, maskBehind, if_pos full]
        · obtain ⟨ok, acked, stored⟩ :=
            xfer_recorded t request value atRp keep doomed.on fine full
          rw [State.acts]
          simp only [if_pos ok]
          rw [stored, maskBehind, if_neg full]
          have later : Doomed t { d with
                ops := d.ops ++ [d.issued request value atRp keep], acked
                curRp := if keep then some (atRp + 4) else d.curRp } single count rp ack := by
            refine ⟨doomed.on, doomed.wrong, .inl ⟨fine, ⟨?_, ?_⟩, entry, ?_, at_count, at_rp⟩⟩
            · have few := runs.few
              rw [List.length_append, List.length_singleton]
              omega
            · rw [List.map_append]
              exact (noWrap_stopped (congrArg Replayed.stop replayed) _).mpr runs.noWrap
            · rw [replay_append, replayed]
          have rest := ih later fine
          rw [List.length_append, List.length_singleton] at rest
          exact rest
      · cases fine.symm.trans failed

theorem Live.through (live : Live t d single recorded taken) :
    (replay t d.seen d.resp d.ops).stop = none := congrArg Replayed.stop live.replayed

theorem Live.runs (live : Live t d single recorded taken) : Runs t d.seen d.ops := by
  refine ⟨Nat.le_trans (Nat.le_of_eq live.length) live.few, ?_⟩
  have whole : NoWrap t d.seen 0 (d.ops.map Recorded.op ++ []) := (noWrap_through live.through []).mpr trivial
  rwa [List.append_nil] at whole

theorem Live.flush (never : NeverWaits t) (live : Live t d single recorded taken) :
    d.recFlush t = ({ d with seen := single.seen, resp := single.resp, ops := [] }, ackOk) := by
  rw [recFlush_ok never live.runs live.fine live.through, live.replayed]

theorem xfer_full {flushed : State} (on : d.recording = true) (fine : d.failed = false)
    (full : d.ops.length = recMax) (flush : d.recFlush t = (flushed, ackOk))
    (on' : flushed.recording = true) (fine' : flushed.failed = false) (empty : flushed.ops = []) :
    d.xfer t request value = flushed.xfer t request value := by
  have room : ¬ flushed.ops.length = recMax := by
    rw [empty]
    decide
  simp only [State.xfer, if_pos on, if_pos on', if_neg (Bool.eq_false_iff.mp fine),
    if_neg (Bool.eq_false_iff.mp fine'), if_pos full, if_neg room, flush]

theorem read_of (request : Byte) (value : Word) : (Op.of request value).read = isRead request := by
  simp only [Op.read, Op.of, isRead, BitVec.getLsbD_and]
  exact Bool.and_true _

theorem Live.replay_last (live : Live t d single recorded taken) (last : Recorded) :
    replay t d.seen d.resp (d.ops ++ [last]) =
      if (t.answer single.seen last.op).code last.op = ackOk then
        ⟨single.seen ++ [.transfer last.op], last.place single.resp (t.answer single.seen last.op).data, none⟩
      else
        ⟨single.seen ++ [.transfer last.op], single.resp, some (last, (t.answer single.seen last.op).code last.op)⟩ := by
  rw [replay_append, live.replayed]
  rfl

/-- A recorded operation and the same operation sent. -/
theorem Live.sent {keep : Bool} (rp : Nat) (acked acked' : List Op)
    (live : Live t d single recorded taken) (room : recorded ≠ recMax)
    (reads : keep = true → isRead request = true)
    (ok : (t.answer single.seen (Op.of request value)).code (Op.of request value) = ackOk) :
    Live t
      { d with
        ops := d.ops ++ [d.issued request value rp keep], acked
        curRp := if keep then some (rp + 4) else d.curRp }
      (if keep then
        ({ single with
          seen := single.seen ++ [.transfer (Op.of request value)], acked := acked' } : State).store rp
            (t.answer single.seen (Op.of request value)).data
      else { single with seen := single.seen ++ [.transfer (Op.of request value)], acked := acked' })
      (recorded + 1) (queueWith taken (Op.of request value)) := by
  have length : (d.ops ++ [d.issued request value rp keep]).length = recorded + 1 := by
    rw [List.length_append, live.length]
    rfl
  have few : recorded + 1 ≤ recMax := by
    have := live.few
    omega
  have taken_eq : ((d.ops ++ [d.issued request value rp keep]).map Recorded.op).foldl queueWith 0 =
      queueWith taken (Op.of request value) := by
    rw [List.map_append, List.foldl_append, live.taken_eq]
    rfl
  have replayed := (live.replay_last (d.issued request value rp keep)).trans (if_pos ok)
  cases keep with
  | false =>
    refine ⟨live.on, live.off, live.fine, length, few, taken_eq, replayed.trans ?_, live.settings, live.empty⟩
    simp only [Recorded.place, State.issued, Bool.false_eq_true, if_false, ite_self]
  | true =>
    have read : (Op.of request value).read = true := (read_of request value).trans (reads rfl)
    have off : ¬ single.recording = true := Bool.eq_false_iff.mp live.off
    simp only [if_true, State.store, if_neg off]
    refine ⟨live.on, live.off, live.fine, length, few, taken_eq, replayed.trans ?_, live.settings, live.empty⟩
    simp only [Recorded.place, State.issued, if_pos read, if_true]
    rfl

theorem Live.stopped {count rp : Nat} (keep : Bool) (acked acked' : List Op)
    (live : Live t d single recorded taken) (room : recorded ≠ recMax) (at_count : d.curCnt = count)
    (at_rp : d.curRp = some rp)
    (wrong : (t.answer single.seen (Op.of request value)).code (Op.of request value) ≠ ackOk)
    (unfilled : ¬ ((Op.of request value).read = true ∧
      queueWith taken (Op.of request value) = swdqBytesMax)) :
    Doomed t
      { d with
        ops := d.ops ++ [d.issued request value rp keep], acked
        curRp := if keep then some (rp + 4) else d.curRp }
      { single with seen := single.seen ++ [.transfer (Op.of request value)], acked := acked' } count rp
      ((t.answer single.seen (Op.of request value)).code (Op.of request value)) := by
  have few := live.few
  have replayed := (live.replay_last (d.issued request value rp keep)).trans (if_neg wrong)
  refine ⟨live.on, wrong, .inl ⟨live.fine, ⟨?_, ?_⟩, d.issued request value rp keep, replayed, at_count, at_rp⟩⟩
  · rw [List.length_append, live.length, List.length_singleton]
    omega
  · rw [List.map_append]
    refine (noWrap_through live.through _).mpr ?_
    rw [live.replayed, live.taken_eq]
    simp only [List.map_singleton, State.issued, NoWrap, if_neg wrong]
    exact unfilled

/-- A record and the single transfers after a plan; `kept` says whether the record has left the match
mask as the single transfers have. -/
inductive Together (t : Target) (kept : Prop) :
    State × Option (Nat × Nat × Byte) → State × Option (Nat × Nat × Byte) → Prop
  | live {d single : State} {recorded taken : Nat} :
      Live t d single recorded taken → kept → Together t kept (d, none) (single, none)
  | doomed {d single : State} {early : Option (Nat × Nat × Byte)} {count rp : Nat} {ack : Byte} :
      Doomed t d single count rp ack →
        d.settings = { single.settings with matchMask := d.settings.matchMask } →
        (d.settings.matchMask = single.settings.matchMask ↔ kept) → single.recording = false →
        single.ops = [] → Together t kept (d, early) (single, some (count, rp, ack))

/-- An operation issued to a record that has room, with what follows it. -/
theorem Live.issue {count rp : Nat} {keep : Bool} {acts : List Act} (never : NeverWaits t)
    (live : Live t d single recorded taken) (room : recorded ≠ recMax)
    (positioned : Positioned d.curCnt d.curRp (.issue count rp request value keep :: acts))
    (unfilled : Unfilled t single.seen recorded taken (.issue count rp request value keep :: acts))
    (later : ∀ {d single : State} {recorded taken : Nat}, Live t d single recorded taken →
      Positioned d.curCnt d.curRp acts → Unfilled t single.seen recorded taken acts →
      Together t (MaskKept t single.seen single.settings.matchMask recorded acts) (d.acts t acts)
        (single.acts t acts)) :
    Together t
      (MaskKept t single.seen single.settings.matchMask recorded (.issue count rp request value keep :: acts))
      (d.acts t (.issue count rp request value keep :: acts))
      (single.acts t (.issue count rp request value keep :: acts)) := by
  obtain ⟨at_count, at_rp, reads, positioned⟩ := positioned
  have unfull : d.ops.length ≠ recMax := fun eq => room (live.length.symm.trans eq)
  obtain ⟨recorded_ok, acked, stored⟩ := xfer_recorded t request value rp keep live.on live.fine unfull
  simp only [Unfilled, if_neg room] at unfilled
  rw [State.acts, State.acts]
  simp only [if_pos recorded_ok, MaskKept, if_neg room]
  rw [stored]
  simp only [xfer_single never live.off]
  by_cases ok : (t.answer single.seen (Op.of request value)).code (Op.of request value) = ackOk
  · rw [if_pos ok] at unfilled
    simp only [if_pos ok]
    have sent := live.sent rp acked (single.acked ++ [Op.of request value]) room reads ok
    have single_eq (next : State) (word : Word) (off : next.recording = false) :
        (if keep then next.store rp word else next).seen = next.seen ∧
          (if keep then next.store rp word else next).settings = next.settings := by
      cases keep with
      | false => exact ⟨rfl, rfl⟩
      | true =>
        simp only [if_true, State.store, if_neg (Bool.eq_false_iff.mp off)]
        exact ⟨rfl, rfl⟩
    obtain ⟨seen_eq, settings_eq⟩ := single_eq { single with
        seen := single.seen ++ [.transfer (Op.of request value)]
        acked := single.acked ++ [Op.of request value] }
      (t.answer single.seen (Op.of request value)).data live.off
    have rest := later sent positioned (by rw [seen_eq]; exact unfilled)
    rw [seen_eq, settings_eq] at rest
    exact rest
  · rw [if_neg ok] at unfilled
    simp only [if_neg ok]
    have stopped := live.stopped keep acked single.acked room at_count at_rp ok unfilled
    obtain ⟨doomed, settings⟩ := stopped.acts acts never live.fine
    have settings := settings.trans (by
      rw [List.length_append, live.length, live.settings, List.length_singleton] :
        _ = { single.settings with matchMask := maskBehind (recorded + 1) acts single.settings.matchMask })
    refine .doomed doomed ?_ ?_ live.off live.empty
    · rw [settings]
    · rw [settings]

theorem Live.acts (acts : List Act) (never : NeverWaits t) (live : Live t d single recorded taken)
    (positioned : Positioned d.curCnt d.curRp acts) (unfilled : Unfilled t single.seen recorded taken acts) :
    Together t (MaskKept t single.seen single.settings.matchMask recorded acts) (d.acts t acts) (single.acts t acts) := by
  induction acts generalizing d single recorded taken with
  | nil => exact .live live trivial
  | cons act acts ih =>
    cases act with
    | cur atCount atRp =>
      have noted : Live t (d.setCur atCount atRp) (single.setCur atCount atRp) recorded taken :=
        ⟨live.on, live.off, live.fine, live.length, live.few, live.taken_eq, live.replayed, live.settings, live.empty⟩
      exact ih noted positioned unfilled
    | mask mask =>
      have set : Live t (d.setMask mask) (single.setMask mask) recorded taken := by
        refine ⟨live.on, live.off, live.fine, live.length, live.few, live.taken_eq, live.replayed, ?_, live.empty⟩
        simp only [State.setMask, live.settings]
      exact ih set positioned unfilled
    | issue atCount atRp request value keep =>
      by_cases full : recorded = recMax
      · have flush := live.flush never
        have caught : Live t { d with seen := single.seen, resp := single.resp, ops := [] } single 0 0 :=
          ⟨live.on, live.off, live.fine, rfl, Nat.zero_le _, rfl, rfl, live.settings, live.empty⟩
        have same : d.acts t (.issue atCount atRp request value keep :: acts) =
            State.acts t (.issue atCount atRp request value keep :: acts)
              { d with seen := single.seen, resp := single.resp, ops := [] } := by
          rw [State.acts, State.acts, xfer_full live.on live.fine (live.length.trans full) flush live.on live.fine rfl]
        rw [same]
        simp only [Unfilled, if_pos full] at unfilled
        have rest := caught.issue never (by decide) positioned unfilled ih
        simp only [MaskKept, if_pos full] at rest ⊢
        exact rest
      · exact live.issue never full positioned unfilled ih

end BenchPod.Dap
