import BenchPod.Library.Emitter
import BenchPod.Library.Word

/-!
# The escape from the UART proxy

In a UART session the bytes of the client go to the device as they are.  Three `+` between two silences lead back to
JSON: a counter follows the bytes as they come, and a poll finds out whether the second silence is long enough.
-/

namespace BenchPod.Uart

/-- `UART_ESC_GUARD_MS` in microseconds. -/
def escGuardUs : Int := 1000000

/-- `'+'` -/
def plus : Byte := 0x2b

/-- What the connection of a session is: still raw, back to JSON (`PROTO_UNKNOWN`), or closed. -/
inductive Mode where
  | raw
  | json
  | closed
  deriving DecidableEq

/-- The state of the UART transparent proxy; the bytes for the device are kept with their times, the last one first. -/
structure Proxy where
  mode : Mode
  plusCount : Nat
  plusPending : Bool
  lastRxAt : Nat
  lastPlusAt : Nat
  uploadSuspended : Bool
  fifo : List Byte
  toClient : List Byte
  toDevice : List (Nat × Byte)
  deriving DecidableEq

/-- What a session meets: a segment of the client, bytes of the device, and a poll, while which an upload may be
going on, the ring to the client takes so much, and the client may be gone. -/
inductive Event where
  | segment (now : Nat) (first : Byte) (rest : List Byte)
  | device (bytes : List Byte)
  | poll (now : Nat) (uploading : Bool) (room : Nat) (gone : Bool)
  deriving DecidableEq

namespace Proxy

/-- The end of `handle_uart_proxy_start`. -/
def start (now : Nat) (fifo : List Byte) : Proxy where
  mode := .raw
  plusCount := 0
  plusPending := false
  lastRxAt := now
  lastPlusAt := now
  uploadSuspended := false
  fifo := fifo
  toClient := []
  toDevice := []

/-- `uart_proxy_end`. -/
def proxyEnd (p : Proxy) (mode : Mode) : Proxy :=
  { p with mode := mode, plusCount := 0, plusPending := false, uploadSuspended := false }

/-- One byte in the loop of `uart_proxy_receive`. -/
def receiveByte (now : Nat) (idleUs : Int) (p : Proxy) (b : Byte) : Proxy :=
  if b = plus then
    let count :=
      if p.plusCount = 0 then if escGuardUs ≤ idleUs then 1 else 0
      else if p.plusCount < 3 then p.plusCount + 1
      else p.plusCount
    { p with
      plusCount := count
      lastPlusAt := now
      plusPending := if 3 ≤ count then true else p.plusPending }
  else { p with plusCount := 0, plusPending := false }

/-- Bytes go to the device as they are. -/
def forward (p : Proxy) (now : Nat) (bytes : List Byte) : Proxy :=
  { p with toDevice := (bytes.map fun b => (now, b)).reverse ++ p.toDevice }

/-- `uart_proxy_receive`; only the first byte of a segment can follow a silence. -/
def receive (p : Proxy) (now : Nat) (first : Byte) (rest : List Byte) : Proxy :=
  let idleUs := (now : Int) - p.lastRxAt
  let p := rest.foldl (receiveByte now 0) ((p.forward now (first :: rest)).receiveByte now idleUs first)
  { p with lastRxAt := now }

/-- The bytes of the device that a poll reads when no upload is going on. -/
def drained (p : Proxy) (room : Nat) : List Byte :=
  (if p.uploadSuspended then p.fifo.drop 256 else p.fifo).take (min room 256)

/-- `uart_proxy_poll`. -/
def poll (p : Proxy) (now : Nat) (uploading : Bool) (room : Nat) (gone : Bool) : Proxy :=
  if uploading then { p with uploadSuspended := true }
  else
    let bytes := p.drained room
    let p := { p with
      uploadSuspended := false
      fifo := (if p.uploadSuspended then p.fifo.drop 256 else p.fifo).drop (min room 256) }
    if bytes ≠ [] ∧ gone then p.proxyEnd .closed
    else
      let p := { p with toClient := p.toClient ++ bytes }
      if p.plusPending ∧ escGuardUs ≤ (now : Int) - p.lastPlusAt then p.proxyEnd .json else p

/-- A session takes one event after the other, until it has ended; the FIFO of the gateware holds 256 bytes. -/
def step (p : Proxy) (event : Event) : Proxy :=
  if p.mode = .raw then
    match event with
    | .segment now first rest => p.receive now first rest
    | .device bytes => { p with fifo := (p.fifo ++ bytes).take 256 }
    | .poll now uploading room gone => p.poll now uploading room gone
  else p

end Proxy

/-- A session of the proxy. -/
def session : Emitter Proxy Event Unit where
  step := Proxy.step
  emit := fun _ _ => none

/-! ## What the client typed -/

/-- When the last byte came, or the session began. -/
def lastAt (start : Nat) : List (Nat × Byte) → Nat
  | [] => start
  | (time, _) :: _ => time

/-- Nothing was typed for the guard time. -/
def Silent (start : Nat) (typed : List (Nat × Byte)) (now : Nat) : Prop := escGuardUs ≤ (now : Int) - lastAt start typed

/-- The bytes end with a silence and three `+`. -/
def Thrice (start : Nat) (typed : List (Nat × Byte)) : Prop :=
  ∃ t₁ t₂ t₃ before, typed = (t₃, plus) :: (t₂, plus) :: (t₁, plus) :: before ∧ Silent start before t₁

/-- The bytes end with a silence, a `+`, and at least so many more. -/
def Guarded (start more : Nat) (typed : List (Nat × Byte)) : Prop :=
  ∃ run time before, typed = run ++ (time, plus) :: before ∧ more ≤ run.length ∧ (∀ byte ∈ run, byte.2 = plus) ∧
    Silent start before time

/-- More than three `+` in a row after a silence, and no silence before the last three. -/
def Overrun (start : Nat) (typed : List (Nat × Byte)) : Prop := Guarded start 3 typed ∧ ¬Thrice start typed

section Typed

variable {start more time : Nat} {byte : Byte} {typed : List (Nat × Byte)}

theorem guarded_cons :
    Guarded start more ((time, byte) :: typed) ↔
      byte = plus ∧ (more = 0 ∧ Silent start typed time ∨ Guarded start (more - 1) typed) := by
  constructor
  · rintro ⟨run, t, before, same, long, all, silent⟩
    cases run with
    | nil =>
      obtain ⟨⟨rfl, rfl⟩, rfl⟩ := (List.cons.injEq ..).mp same |>.imp_left Prod.mk.inj
      exact ⟨rfl, .inl ⟨Nat.le_zero.mp long, silent⟩⟩
    | cons head run =>
      obtain ⟨rfl, rfl⟩ := List.cons.inj same
      refine ⟨all _ List.mem_cons_self, .inr ⟨run, t, before, rfl, ?_, ?_, silent⟩⟩
      · exact Nat.sub_le_of_le_add long
      · exact fun b member => all b (List.mem_cons_of_mem _ member)
  · rintro ⟨rfl, ⟨rfl, silent⟩ | ⟨run, t, before, rfl, long, all, silent⟩⟩
    · exact ⟨[], time, typed, rfl, Nat.le_refl 0, nofun, silent⟩
    · refine ⟨(time, plus) :: run, t, before, rfl, ?_, ?_, silent⟩
      · exact Nat.le_add_of_sub_le long
      · exact List.forall_mem_cons.mpr ⟨rfl, all⟩

theorem guarded_nil : ¬Guarded start more [] := by
  rintro ⟨run, t, before, same, -, -, -⟩
  exact List.append_ne_nil_of_right_ne_nil run (List.cons_ne_nil _ _) same.symm

theorem guarded_two : Guarded start 2 typed ↔ Thrice start typed ∨ Guarded start 3 typed := by
  constructor
  · rintro ⟨run, t, before, rfl, long, all, silent⟩
    rcases run with _ | ⟨⟨t₃, b₃⟩, _ | ⟨⟨t₂, b₂⟩, _ | ⟨b₁, run⟩⟩⟩
    · exact absurd long (show ¬2 ≤ 0 by decide)
    · exact absurd long (show ¬2 ≤ 1 by decide)
    · obtain rfl : b₃ = plus := all _ List.mem_cons_self
      obtain rfl : b₂ = plus := all _ (List.mem_cons_of_mem _ List.mem_cons_self)
      exact .inl ⟨t, t₂, t₃, before, rfl, silent⟩
    · exact .inr ⟨_, t, before, rfl, Nat.le_add_left 3 run.length, all, silent⟩
  · rintro (⟨t₁, t₂, t₃, before, rfl, silent⟩ | ⟨run, t, before, rfl, long, all, silent⟩)
    · exact ⟨[(t₃, plus), (t₂, plus)], t₁, before, rfl, Nat.le_refl 2, by
        rintro byte (_ | ⟨_, _ | ⟨_, none⟩⟩)
        · rfl
        · rfl
        · exact absurd none List.not_mem_nil, silent⟩
    · exact ⟨run, t, before, rfl, Nat.le_of_succ_le long, all, silent⟩

/-- The counter counts the `+` since a silence up to three, and three of them are what is pending. -/
structure Counts (start : Nat) (p : Proxy) : Prop where
  few : p.plusCount ≤ 3
  counted : ∀ more < 3, more < p.plusCount ↔ Guarded start more p.toDevice
  pending : p.plusPending = true ↔ p.plusCount = 3
  since : 0 < p.plusCount → p.lastPlusAt = lastAt start p.toDevice

end Typed

/-! ## The detector -/

namespace Proxy

variable {start now : Nat} {p : Proxy}

theorem receiveByte_mode (idle : Int) (b : Byte) :
    (p.receiveByte now idle b).mode = p.mode ∧ (p.receiveByte now idle b).toDevice = p.toDevice := by
  rw [receiveByte]
  split
  · exact ⟨rfl, rfl⟩
  · exact ⟨rfl, rfl⟩

theorem receiveBytes_mode (bytes : List Byte) :
    (bytes.foldl (receiveByte now 0) p).mode = p.mode ∧ (bytes.foldl (receiveByte now 0) p).toDevice = p.toDevice := by
  induction bytes generalizing p with
  | nil => exact ⟨rfl, rfl⟩
  | cons b bytes ih =>
    obtain ⟨mode, kept⟩ := @ih (p.receiveByte now 0 b)
    obtain ⟨mode', kept'⟩ := @receiveByte_mode now p 0 b
    exact ⟨mode.trans mode', kept.trans kept'⟩

end Proxy

/-- A byte that is forwarded is counted. -/
theorem Counts.byte {start now : Nat} {p : Proxy} {typed : List (Nat × Byte)} {idle : Int} {b : Byte}
    (counts : Counts start { p with toDevice := typed }) (idleSince : idle = (now : Int) - lastAt start typed) :
    Counts start { p.receiveByte now idle b with toDevice := (now, b) :: typed } := by
  have few : p.plusCount ≤ 3 := counts.few
  have counted : ∀ more < 3, more < p.plusCount ↔ Guarded start more typed := counts.counted
  have pending : p.plusPending = true ↔ p.plusCount = 3 := counts.pending
  by_cases isPlus : b = plus
  · subst isPlus
    have after : ∀ more, Guarded start more ((now, plus) :: typed) ↔
        more = 0 ∧ escGuardUs ≤ idle ∨ Guarded start (more - 1) typed := by
      intro more
      rw [guarded_cons, idleSince]
      exact and_iff_right rfl
    rw [Proxy.receiveByte, if_pos rfl]
    generalize new : (if p.plusCount = 0 then if escGuardUs ≤ idle then 1 else 0
      else if p.plusCount < 3 then p.plusCount + 1 else p.plusCount) = count
    have grown : p.plusCount ≤ count ∧ count ≤ 3 := by
      rw [← new]
      split
      · split
        · omega
        · omega
      · split
        · omega
        · omega
    constructor
    · exact grown.2
    · intro more small
      change more < count ↔ Guarded start more ((now, plus) :: typed)
      rw [after, ← counted (more - 1) (Nat.lt_of_le_of_lt (Nat.sub_le _ _) small), ← new]
      split
      · split
        · omega
        · omega
      · split
        · omega
        · omega
    · change (if 3 ≤ count then true else p.plusPending) = true ↔ count = 3
      split
      · exact iff_of_true rfl (by omega)
      · rw [pending]
        omega
    · exact fun _ => rfl
  · have none : ∀ more, ¬Guarded start more ((now, b) :: typed) := by
      intro more guarded
      exact isPlus (guarded_cons.mp guarded).1
    have reset : p.receiveByte now idle b = { p with plusCount := 0, plusPending := false } := if_neg isPlus
    rw [reset]
    exact {
      few := Nat.zero_le 3
      counted := fun more _ => iff_of_false (Nat.not_lt_zero more) (none more)
      pending := iff_of_false Bool.false_ne_true nofun
      since := fun some => absurd some (Nat.lt_irrefl 0) }

theorem Counts.bytes {start now : Nat} {p : Proxy} {typed : List (Nat × Byte)} {rest : List Byte}
    (counts : Counts start { p with toDevice := typed }) (since : lastAt start typed = now) :
    Counts start { rest.foldl (Proxy.receiveByte now 0) p with
      toDevice := (rest.map fun b => (now, b)).reverse ++ typed } := by
  induction rest generalizing p typed with
  | nil => exact counts
  | cons b rest ih =>
    rw [List.map_cons, List.reverse_cons, List.append_assoc]
    exact ih (counts.byte (since ▸ (Int.sub_self _).symm)) rfl

theorem lastAt_bytes (start now : Nat) (first : Byte) (rest : List Byte) (typed : List (Nat × Byte)) :
    lastAt start ((rest.map fun b => (now, b)).reverse ++ (now, first) :: typed) = now := by
  induction rest generalizing first typed with
  | nil => rfl
  | cons b rest ih =>
    rw [List.map_cons, List.reverse_cons, List.append_assoc]
    exact ih b ((now, first) :: typed)

theorem Counts.receive {start now : Nat} {p : Proxy} {first : Byte} {rest : List Byte} (counts : Counts start p)
    (last : p.lastRxAt = lastAt start p.toDevice) :
    Counts start (p.receive now first rest) ∧
      (p.receive now first rest).lastRxAt = lastAt start (p.receive now first rest).toDevice ∧
      (p.receive now first rest).mode = p.mode := by
  have typed : (p.forward now (first :: rest)).toDevice =
      (rest.map fun b => (now, b)).reverse ++ (now, first) :: p.toDevice := by
    rw [Proxy.forward, List.map_cons, List.reverse_cons, List.append_assoc]
    rfl
  have idle : (now : Int) - p.lastRxAt = (now : Int) - lastAt start p.toDevice := congrArg _ (congrArg _ last)
  have begun := @Counts.byte start now (p.forward now (first :: rest)) p.toDevice _ first counts idle
  have counted := @Counts.bytes _ _ _ _ rest begun rfl
  obtain ⟨mode, kept⟩ := @Proxy.receiveByte_mode now (p.forward now (first :: rest)) ((now : Int) - p.lastRxAt) first
  obtain ⟨mode', kept'⟩ := @Proxy.receiveBytes_mode now
    ((p.forward now (first :: rest)).receiveByte now ((now : Int) - p.lastRxAt) first) rest
  have whole := (kept'.trans kept).trans typed
  refine ⟨⟨counted.few, ?_, counted.pending, ?_⟩, ?_, mode'.trans mode⟩
  · intro more small
    exact (counted.counted more small).trans (iff_of_eq (congrArg _ whole.symm))
  · intro some
    exact (counted.since some).trans (congrArg _ whole.symm)
  · change now = lastAt start _
    exact (congrArg _ whole).trans (lastAt_bytes start now first rest p.toDevice) |>.symm

/-! ## A whole session -/

/-- A session that began at that time and is still raw. -/
structure Session (start : Nat) (p : Proxy) : Prop where
  counts : Counts start p
  last : p.lastRxAt = lastAt start p.toDevice

/-- When a poll looks for the escape: no upload is going on, and the client has not gone. -/
def Event.looksAt (p : Proxy) : Event → Option Nat
  | .poll now uploading room gone => if uploading ∨ p.drained room ≠ [] ∧ gone then none else some now
  | _ => none

/-- An event leads back to JSON when it is a poll that looks and finds a silence, exactly three `+` and another
silence, and only then. -/
def Exact (start : Nat) (p : Proxy) (event : Event) : Prop :=
  p.mode = .raw → ((p.step event).mode = .json ↔
    ∃ now ∈ event.looksAt p, Thrice start p.toDevice ∧ Silent start p.toDevice now)

/-- A poll that looks does not find a silence after more than three `+`. -/
def Fine (start : Nat) (p : Proxy) (event : Event) : Prop :=
  p.mode = .raw → ∀ now ∈ event.looksAt p, Silent start p.toDevice now → ¬Overrun start p.toDevice

/-- Nothing that the detector looks at was touched. -/
structure Untouched (p q : Proxy) : Prop where
  count : q.plusCount = p.plusCount
  pending : q.plusPending = p.plusPending
  plusAt : q.lastPlusAt = p.lastPlusAt
  rxAt : q.lastRxAt = p.lastRxAt
  typed : q.toDevice = p.toDevice

theorem Session.kept {start : Nat} {p q : Proxy} (s : Session start p) (same : Untouched p q) : Session start q := by
  refine ⟨⟨same.count ▸ s.counts.few, ?_, ?_, ?_⟩, ?_⟩
  · rw [same.count, same.typed]
    exact s.counts.counted
  · rw [same.count, same.pending]
    exact s.counts.pending
  · rw [same.count, same.plusAt, same.typed]
    exact s.counts.since
  · rw [same.rxAt, same.typed]
    exact s.last

theorem Proxy.poll_blind {p : Proxy} (raw : p.mode = .raw) {now room : Nat} {uploading gone : Bool}
    (blind : uploading = true ∨ p.drained room ≠ [] ∧ gone = true) :
    (p.poll now uploading room gone).mode ≠ .json ∧
      ((p.poll now uploading room gone).mode = .raw → Untouched p (p.poll now uploading room gone)) := by
  rw [poll]
  split
  · exact ⟨fun json => (nomatch raw.symm.trans json), fun _ => ⟨rfl, rfl, rfl, rfl, rfl⟩⟩
  · rename_i upload
    rw [if_pos (blind.resolve_left upload)]
    exact ⟨nofun, nofun⟩

theorem Proxy.poll_looks {p : Proxy} (raw : p.mode = .raw) {now room : Nat} {uploading gone : Bool}
    (looks : ¬(uploading = true ∨ p.drained room ≠ [] ∧ gone = true)) :
    ((p.poll now uploading room gone).mode = .json ↔
      p.plusPending = true ∧ escGuardUs ≤ (now : Int) - p.lastPlusAt) ∧
      ((p.poll now uploading room gone).mode = .raw → Untouched p (p.poll now uploading room gone)) := by
  rw [not_or] at looks
  rw [poll, if_neg looks.1]
  dsimp only
  rw [if_neg looks.2]
  split
  · rename_i found
    exact ⟨iff_of_true rfl found, nofun⟩
  · rename_i missed
    exact ⟨iff_of_false (fun json => nomatch raw.symm.trans json) missed, fun _ => ⟨rfl, rfl, rfl, rfl, rfl⟩⟩

theorem Session.finds {start : Nat} {p : Proxy} (s : Session start p) (now : Nat) :
    p.plusPending = true ∧ escGuardUs ≤ (now : Int) - p.lastPlusAt ↔
      Guarded start 2 p.toDevice ∧ Silent start p.toDevice now := by
  have full : p.plusPending = true ↔ Guarded start 2 p.toDevice := by
    have few := s.counts.few
    rw [s.counts.pending, ← s.counts.counted 2 (by decide)]
    omega
  rw [full]
  refine and_congr_right fun guarded => ?_
  have some : 2 < p.plusCount := (s.counts.counted 2 (by decide)).mpr guarded
  rw [Silent, s.counts.since (Nat.zero_lt_of_lt some)]

theorem Session.step_json {start : Nat} {p : Proxy} (s : Session start p) (raw : p.mode = .raw) (event : Event) :
    ((p.step event).mode = .json ↔
      ∃ now ∈ event.looksAt p, Guarded start 2 p.toDevice ∧ Silent start p.toDevice now) ∧
      ((p.step event).mode = .raw → Session start (p.step event)) := by
  have none : ¬∃ now ∈ (Option.none : Option Nat), Guarded start 2 p.toDevice ∧ Silent start p.toDevice now := by
    rintro ⟨now, none, -⟩
    exact nomatch none
  cases event with
  | segment now first rest =>
    have stepped : p.step (.segment now first rest) = p.receive now first rest := if_pos raw
    obtain ⟨counts, last, mode⟩ := @Counts.receive start now p first rest s.counts s.last
    rw [stepped, mode, raw]
    exact ⟨iff_of_false nofun none, fun _ => ⟨counts, last⟩⟩
  | device bytes =>
    have stepped : p.step (.device bytes) = { p with fifo := (p.fifo ++ bytes).take 256 } := if_pos raw
    rw [stepped]
    exact ⟨iff_of_false (fun json => nomatch raw.symm.trans json) none, fun _ => s.kept ⟨rfl, rfl, rfl, rfl, rfl⟩⟩
  | poll now uploading room gone =>
    have stepped : p.step (.poll now uploading room gone) = p.poll now uploading room gone := if_pos raw
    rw [stepped, Event.looksAt]
    split
    · rename_i blind
      obtain ⟨stays, same⟩ := @Proxy.poll_blind p raw now room uploading gone blind
      exact ⟨iff_of_false stays none, fun still => s.kept (same still)⟩
    · rename_i looks
      obtain ⟨ends, same⟩ := @Proxy.poll_looks p raw now room uploading gone looks
      refine ⟨(ends.trans (s.finds now)).trans ⟨fun found => ⟨now, rfl, found⟩, ?_⟩, fun still => s.kept (same still)⟩
      rintro ⟨time, same, found⟩
      exact Option.some.inj same ▸ found

/-- In every session the escape fires exactly on its pattern if and only if no poll finds more than three `+`. -/
theorem escape_iff (start : Nat) (fifo : List Byte) (events : List Event) :
    session.Along (Exact start) (Proxy.start start fifo) events ↔
      session.Along (Fine start) (Proxy.start start fifo) events := by
  refine session.along_iff (fun p => p.mode = .raw → Session start p) ?_ ?_ ?_
  · intro p event good
    refine forall_congr' fun raw => ?_
    rw [((good raw).step_json raw event).1, guarded_two]
    constructor
    · rintro exact now looks silent ⟨more, fewer⟩
      obtain ⟨_, _, thrice, _⟩ := exact.mp ⟨now, looks, .inr more, silent⟩
      exact fewer thrice
    · intro fine
      constructor
      · rintro ⟨now, looks, thrice | more, silent⟩
        · exact ⟨now, looks, thrice, silent⟩
        · exact ⟨now, looks, not_not.mp fun fewer => fine now looks silent ⟨more, fewer⟩, silent⟩
      · rintro ⟨now, looks, thrice, silent⟩
        exact ⟨now, looks, .inl thrice, silent⟩
  · intro p event good _ still
    by_cases raw : p.mode = .raw
    · exact ((good raw).step_json raw event).2 still
    · have stays : p.step event = p := if_neg raw
      exact absurd (stays ▸ still) raw
  · exact fun _ => ⟨⟨Nat.zero_le 3, fun more _ => iff_of_false (Nat.not_lt_zero more) guarded_nil,
      iff_of_false Bool.false_ne_true nofun, fun some => absurd some (Nat.lt_irrefl 0)⟩, rfl⟩

/-- Four `+` between two silences lead back to JSON. -/
theorem four_escape :
    ¬session.Along (Exact 0) (Proxy.start 0 [])
      [.segment 2000000 plus [plus, plus, plus], .poll 4000000 false 256 false] := by
  rintro ⟨-, exact, -⟩
  obtain ⟨_, _, ⟨t₁, t₂, t₃, before, same, silent⟩, _⟩ := (exact rfl).mp (by decide)
  have rest : before = [(2000000, plus)] := (List.cons.inj (List.cons.inj (List.cons.inj same).2).2).2.symm
  have time : t₁ = 2000000 := (Prod.mk.inj (List.cons.inj (List.cons.inj (List.cons.inj same).2).2).1).1.symm
  rw [rest, time] at silent
  exact absurd silent (show ¬(1000000 : Int) ≤ (2000000 : Nat) - (2000000 : Nat) by decide)

end BenchPod.Uart
