import BenchPod.Worker.Progress

/-!
# Teardowns

In a run whose steps are careful, a connection is busy while a teardown of it is on its way, and every
teardown runs when exactly the bytes submitted before it have been processed.
-/

namespace BenchPod.HwWorker

theorem Tracked.fits {connId : Int} (tracked : Tracked connId) : Fits connId := by
  obtain ⟨lower, upper⟩ := tracked
  exact Int16.toInt_ofInt_of_le (by omega) (by rw [pendIds] at upper; omega)

namespace State

variable (s : State)

/-- The worker is about to queue or park a reset of its own. -/
def Asking (connId : Int) : Prop :=
  match s.worker with
  | .test _ id | .send _ id | .park _ id => id.toInt = connId
  | _ => False

/-- The worker is about to clear a mark. -/
def Clears (connId : Int) (kind : Teardown) : Event → Prop
  | .submit _ => False
  | .work _ =>
    match s.worker with
    | .done _ id done => id.toInt = connId ∧ done = kind
    | .closeDone id _ => id = connId ∧ kind = .closed
    | .resetDone id => id = connId ∧ kind = .reset
    | _ => False

/-- Whatever is on its way for a connection is marked. -/
def Marked (connId : Int) : Prop :=
  (∀ kind before, (s.line connId).Waits kind before → (s.inflight connId).has kind = true) ∧
    (s.Asking connId → (s.inflight connId).reset = true)

variable {s} {event : Event} {connId : Int} {kind : Teardown}

theorem mark_has (marked : (s.inflight connId).has kind = true) (other : Teardown) (id : Int) :
    ((s.mark other id).inflight connId).has kind = true := by
  simp only [mark]
  split
  · rw [Mask.has_put]
    split
    · rfl
    · exact marked
  · exact marked

theorem mark_self (kind : Teardown) : ((s.mark kind connId).inflight connId).has kind = true := by
  simp [mark]

theorem teardownDone_has {other : Teardown} {id : Int}
    (marked : (s.inflight connId).has kind = true) (apart : ¬ (id = connId ∧ kind = other)) :
    ((s.teardownDone id other).inflight connId).has kind = true := by
  rw [teardownDone]
  split
  · simp only
    split
    · next same =>
        rw [Mask.has_put, if_neg fun now => apart ⟨same.symm, now⟩]
        exact marked
    · exact marked
  · exact marked

/-- A mark stays set unless the worker is about to clear it. -/
theorem step_has (marked : (s.inflight connId).has kind = true)
    (keeps : ¬ s.Clears connId kind event) : ((s.step event).inflight connId).has kind = true := by
  cases event with
  | submit call =>
    cases call with
    | bytes id data =>
      simp only [step, submitBytes]
      split
      · exact marked
      · exact marked
    | teardown other id =>
      simp only [step, submitTeardown]
      split
      · split
        · exact mark_has marked other id
        · exact mark_has marked other id
      · split
        · exact marked
        · exact marked
    | other =>
      simp only [step, submitOther]
      split
      · exact marked
      · exact marked
  | work asks =>
    obtain ⟨queue, inflight, parked, worker⟩ := s
    cases worker with
    | mark taken id =>
      simp only [step, State.work]
      split
      · exact mark_has marked .reset id.toInt
      · exact marked
    | done taken id other => exact teardownDone_has marked fun same => keeps ⟨same.1, same.2.symm⟩
    | closeDone id bits => exact teardownDone_has marked keeps
    | resetDone id => exact teardownDone_has marked keeps
    | receive taken =>
      simp only [step, State.work]
      split
      · cases queue with
        | nil => exact marked
        | cons item queue => exact marked
      · exact marked
    | handle taken item =>
      obtain ⟨work, id⟩ := item
      cases work with
      | bytes data =>
        cases asks with
        | true => exact marked
        | false => exact marked
      | teardown other => exact marked
      | other => exact marked
    | test taken id =>
      simp only [step, State.work]
      split <;> exact marked
    | send taken id =>
      simp only [step, State.work]
      split
      · split <;> exact marked
      · exact marked
    | check =>
      simp only [step, State.work]
      split <;> exact marked
    | scan id =>
      simp only [step, State.work]
      split
      · split <;> exact marked
      · exact marked
    | close id bits =>
      simp only [step, State.work]
      split <;> exact marked
    | reset id bits =>
      simp only [step, State.work]
      split <;> exact marked
    | park taken id => exact marked
    | take id => exact marked
    | polls => exact marked

theorem asked_has (tracked : Tracked connId) (marked : s.Marked connId)
    (asked : (s.emit event).bind (Sight.act connId) = some (.ask kind)) :
    ((s.step event).inflight connId).has kind = true := by
  obtain ⟨sight, shown, act⟩ := Option.bind_eq_some_iff.mp asked
  rw [Sight.act_ask_iff.mp act] at shown
  cases event with
  | submit call =>
    cases call with
    | bytes id data => simp [emit] at shown
    | teardown other id =>
      obtain ⟨rfl, rfl⟩ : id = connId ∧ other = kind := by simpa [emit] using shown
      simp only [step, submitTeardown, if_pos tracked]
      split
      · exact mark_self _
      · exact mark_self _
    | other => simp [emit] at shown
  | work worker_asks =>
    obtain ⟨queue, inflight, parked, worker⟩ := s
    cases worker with
    | send taken id =>
      simp only [emit, shows] at shown
      split at shown
      · cases shown
      · next room =>
          obtain ⟨same, rfl⟩ : id.toInt = connId ∧ .reset = kind := by simpa using shown
          simp only [step, State.work, if_neg room]
          exact marked.2 same
    | park taken id =>
      obtain ⟨same, rfl⟩ : id.toInt = connId ∧ .reset = kind := by simpa [emit, shows] using shown
      exact marked.2 same
    | handle taken item =>
      obtain ⟨work, id⟩ := item
      cases work <;> simp [emit, shows] at shown
    | _ => simp [emit, shows] at shown

theorem eq_of_entry {item : Item} (entry : item.entry connId = some (.mark kind)) :
    item = ⟨.teardown kind, Int16.ofInt connId⟩ := by
  obtain ⟨work, id⟩ := item
  obtain ⟨rfl, stands⟩ := Option.ite_none_right_eq_some.mp entry
  cases work with
  | bytes data => simp at stands
  | teardown other =>
    obtain ⟨rfl⟩ : other = kind := by simpa using stands
    simp
  | other => simp at stands

theorem cleared_waits (careful : s.Careful event) (tracked : Tracked connId)
    (clears : s.Clears connId kind event) :
    ∀ before, ¬ (s.line connId).Waits kind before := by
  have alone : s.Alone connId kind ∧ s.held = [] ∧ ¬ s.Taken connId kind := by
    cases event with
    | submit call => exact clears.elim
    | work asks =>
      obtain ⟨queue, inflight, parked, worker⟩ := s
      cases worker with
      | done taken id other =>
        obtain ⟨rfl, rfl⟩ := clears
        exact ⟨careful tracked, rfl, fun taken => taken⟩
      | closeDone id bits =>
        obtain ⟨rfl, rfl⟩ := clears
        exact ⟨careful, rfl, fun taken => Teardown.noConfusion taken.2.1⟩
      | resetDone id =>
        obtain ⟨rfl, rfl⟩ := clears
        exact ⟨careful, rfl, fun taken => taken⟩
      | _ => exact clears.elim
  obtain ⟨⟨unqueued, unparked⟩, empty, untaken⟩ := alone
  intro before waits
  cases waits with
  | @queued front back split =>
    have member : Entry.mark kind ∈ (s.held ++ s.queue).filterMap (Item.entry connId) := by
      have there : Entry.mark kind ∈ (s.line connId).entries := by simp [split]
      exact there
    obtain ⟨item, among, entry⟩ := List.mem_filterMap.mp member
    rw [empty, List.nil_append] at among
    exact unqueued (eq_of_entry entry ▸ among)
  | parked member => exact absurd member (by simp [line, unparked])
  | taken member => exact untaken member

theorem asking_work {asks : Bool} (marked : s.Marked connId) (tracked : Tracked connId)
    (asking : (s.work asks).Asking connId) : ((s.work asks).inflight connId).reset = true := by
  obtain ⟨queue, inflight, parked, worker⟩ := s
  cases worker with
  | mark taken id =>
    have same : id.toInt = connId := asking
    simp only [State.work, same, if_pos tracked]
    exact mark_self .reset
  | test taken id =>
    simp only [State.work] at asking ⊢
    split at asking
    · next parked => rw [if_pos parked]; exact marked.2 asking
    · next clear => rw [if_neg clear]; exact marked.2 asking
  | send taken id =>
    simp only [State.work] at asking ⊢
    split at asking
    · next full =>
        split at asking
        · next known =>
            rw [if_pos full, if_pos known]
            exact marked.2 asking
        · exact asking.elim
    · exact asking.elim
  | receive taken =>
    simp only [State.work] at asking
    split at asking
    · cases queue with
      | nil => exact asking.elim
      | cons item queue => exact asking.elim
    · exact asking.elim
  | handle taken item =>
    obtain ⟨work, id⟩ := item
    cases work with
    | bytes data =>
      cases asks with
      | true => exact asking.elim
      | false => exact asking.elim
    | teardown kind => exact asking.elim
    | other => exact asking.elim
  | scan id =>
    simp only [State.work] at asking
    split at asking
    · split at asking <;> exact asking.elim
    · exact asking.elim
  | check | close id bits | reset id bits =>
    simp only [State.work] at asking
    split at asking <;> exact asking.elim
  | park | done | take | closeDone | resetDone | polls => exact asking.elim

theorem Marked.step (marked : s.Marked connId) (tracked : Tracked connId)
    (careful : s.Careful event) : (s.step event).Marked connId := by
  constructor
  · intro kind before waits
    obtain already | ⟨asked, _⟩ := (step_move tracked careful).waits waits
    · refine step_has (marked.1 kind _ already) ?_
      intro clears
      exact cleared_waits careful tracked clears _ already
    · exact asked_has tracked marked asked
  · intro asking
    cases event with
    | submit call =>
      have before : s.Asking connId := by
        cases call with
        | bytes id data =>
          simp only [State.step, submitBytes] at asking
          split at asking <;> exact asking
        | teardown kind id =>
          simp only [State.step, submitTeardown] at asking
          split at asking <;> split at asking <;> exact asking
        | other =>
          simp only [State.step, submitOther] at asking
          split at asking <;> exact asking
      have kept : s.Asking connId → ((s.step (.submit call)).inflight connId).has .reset = true :=
        fun before => step_has (marked.2 before) fun clears => clears
      exact kept before
    | work asks => exact asking_work marked tracked asking

theorem Marked.idle (marked : s.Marked connId) (tracked : Tracked connId)
    (idle : s.connBusy connId = false) (kind : Teardown) : s.Alone connId kind := by
  have empty : s.inflight connId = {} := by simpa [connBusy, tracked] using idle
  have none (before) : ¬ (s.line connId).Waits kind before := by
    intro waits
    have has := marked.1 kind before waits
    rw [empty, Mask.has_empty] at has
    cases has
  constructor
  · intro queued
    have entry : Item.entry connId ⟨.teardown kind, Int16.ofInt connId⟩ = some (.mark kind) := if_pos tracked.fits
    have stands : Entry.mark kind ∈ (s.line connId).entries :=
      List.mem_filterMap.mpr ⟨_, List.mem_append_right _ queued, entry⟩
    obtain ⟨front, back, split⟩ := List.append_of_mem stands
    exact none _ (.queued split)
  · exact Bool.eq_false_iff.mpr fun parked => none _ (.parked parked)

end State

variable {events : Nat → Event} {connId : Int} {kind : Teardown}

theorem accepted_toList (shown : Option Sight) :
    accepted connId shown.toList = Line.added (shown.bind (Sight.act connId)) := by
  cases shown with
  | none => rfl
  | some sight =>
    cases sight <;> simp only [accepted, Option.toList_some, Option.bind_some, Sight.act] <;>
      split <;> simp [*, Line.added, Line.Act.accepted]

theorem processed_toList (shown : Option Sight) :
    processed connId shown.toList = Line.removed (shown.bind (Sight.act connId)) := by
  cases shown with
  | none => rfl
  | some sight =>
    cases sight <;> simp only [processed, Option.toList_some, Option.bind_some, Sight.act] <;>
      split <;> simp [*, Line.removed, Line.Act.processed]

/-- The messages of a connection accepted before a time. -/
def acceptedBy (events : Nat → Event) (connId : Int) (n : Nat) : List (List Byte) :=
  accepted connId (system.history {} events n)

/-- The messages of a connection processed before a time. -/
def processedBy (events : Nat → Event) (connId : Int) (n : Nat) : List (List Byte) :=
  processed connId (system.history {} events n)

theorem acceptedBy_eq (n : Nat) : acceptedBy events connId n = Line.into (actAt events connId) n := by
  induction n with
  | zero => rfl
  | succ n ih =>
    rw [Line.into, ← ih]
    exact (List.filterMap_append ..).trans (congrArg (_ ++ ·) (accepted_toList _))

theorem processedBy_eq (n : Nat) : processedBy events connId n = Line.out (actAt events connId) n := by
  induction n with
  | zero => rfl
  | succ n ih =>
    rw [Line.out, ← ih]
    exact (List.filterMap_append ..).trans (congrArg (_ ++ ·) (processed_toList _))

/-- A teardown of a connection is asked for by an event. -/
def Asks (events : Nat → Event) (connId : Int) (kind : Teardown) (n : Nat) : Prop :=
  system.shown {} events n = some (.asked connId kind)

/-- A teardown of a connection runs in an event. -/
def Runs (events : Nat → Event) (connId : Int) (kind : Teardown) (n : Nat) : Prop :=
  system.shown {} events n = some (.ran connId kind)

theorem asks_iff {n : Nat} : Asks events connId kind n ↔ actAt events connId n = some (.ask kind) := by
  rw [Asks, actAt]
  cases system.shown {} events n with
  | none => simp
  | some sight => simp [Sight.act_ask_iff]

theorem runs_iff {n : Nat} : Runs events connId kind n ↔ actAt events connId n = some (.run kind) := by
  rw [Runs, actAt]
  cases system.shown {} events n with
  | none => simp
  | some sight => simp [Sight.act_run_iff]

theorem fresh_waits (events : Nat → Event) (kind : Teardown) (before : List (List Byte)) :
    ¬ ((stateAt events 0).line connId).Waits kind before := by
  intro waits
  cases waits with
  | @queued front back split => cases front <;> cases split
  | parked member => cases kind <;> cases member
  | taken member => exact member.elim

theorem always_marked (careful : system.Always {} events State.Careful) (tracked : Tracked connId)
    (n : Nat) : (stateAt events n).Marked connId := by
  refine careful.invariant (State.Marked · connId) ?_ ?_ n
  · intro s event marked careful
    exact marked.step tracked careful
  · refine ⟨fun kind before waits => ?_, fun asking => asking.elim⟩
    exact absurd waits (fresh_waits events kind before)

/-- In every run whose steps are careful: a connection that is not busy has no teardown queued or
parked; a teardown runs only when the messages processed are exactly those accepted before one was
asked for; until a teardown asked for has run, no message accepted after it is processed; and, when
the worker keeps taking steps and drains the queue while something is parked, every teardown asked
for runs. -/
theorem teardowns_kept (careful : system.Always {} events State.Careful)
    (tracked : Tracked connId) :
    (∀ n kind, (stateAt events n).connBusy connId = false → (stateAt events n).Alone connId kind) ∧
    (∀ m kind, Runs events connId kind m →
      ∃ n < m, Asks events connId kind n ∧ acceptedBy events connId n = processedBy events connId m) ∧
    (∀ n m kind, Asks events connId kind n → n < m →
      (∃ j, n < j ∧ j < m ∧ Runs events connId kind j ∧
        processedBy events connId j = acceptedBy events connId n) ∨
      processedBy events connId m <+: acceptedBy events connId n) ∧
    (Recurs (Turn events) → Drains events → ∀ n kind, Asks events connId kind n →
      ∃ m, n < m ∧ Runs events connId kind m ∧
        processedBy events connId m = acceptedBy events connId n) := by
  have moves := line_moves careful tracked
  have asked {n : Nat} {kind : Teardown} (asks : Asks events connId kind n) :
      ((stateAt events (n + 1)).line connId).Waits kind
          (Line.values ((stateAt events n).line connId).entries) ∧
        Line.out (actAt events connId) (n + 1) ++
            Line.values ((stateAt events n).line connId).entries = acceptedBy events connId n := by
    have act := asks_iff.mp asks
    have move := moves n
    rw [act] at move
    refine ⟨move.asked, ?_⟩
    rw [acceptedBy_eq, Line.into_eq moves rfl, Line.out, act]
    exact congrArg (· ++ _) (List.append_nil _)
  refine ⟨?_, ?_, ?_, ?_⟩
  · intro n kind idle
    exact (always_marked careful tracked n).idle tracked idle kind
  · intro m kind runs
    have move := moves m
    rw [runs_iff.mp runs] at move
    obtain ⟨n, lt, asks, same⟩ := Line.was_asked moves rfl (fresh_waits events) move.ran
    refine ⟨n, lt, asks_iff.mpr asks, ?_⟩
    rw [acceptedBy_eq, processedBy_eq, same, List.append_nil]
  · intro n m kind asks lt
    obtain ⟨waits, total⟩ := asked asks
    obtain ⟨j, later, before, run, out⟩ | ⟨rest, _, out⟩ := Line.waits_on moves waits lt
    · refine .inl ⟨j, later, before, runs_iff.mpr run, ?_⟩
      rw [processedBy_eq, out, total]
    · refine .inr ⟨rest, ?_⟩
      rw [processedBy_eq, ← out, total]
  · intro turns drains n kind asks
    obtain ⟨waits, total⟩ := asked asks
    obtain ⟨m, le, run, out⟩ := waits_runs careful tracked turns drains waits
    refine ⟨m, le, runs_iff.mpr run, ?_⟩
    rw [processedBy_eq, out, total]

/-- A message and a close of connection 3, then the worker alone. -/
def sampleRun : Nat → Event
  | 0 => .submit (.bytes 3 [1])
  | 1 => .submit (.teardown .closed 3)
  | _ => .work false

/-- The worker goes round an empty queue. -/
def State.Resting (s : State) : Prop :=
  s.queue = [] ∧ (∀ id, s.parked id = {}) ∧
    match s.worker with
    | .receive _ | .check | .scan _ | .polls => True
    | _ => False

theorem State.Resting.work {s : State} (resting : s.Resting) : (s.work false).Resting := by
  obtain ⟨queue, inflight, parked, worker⟩ := s
  obtain ⟨empty, clear, place⟩ := resting
  subst empty
  cases worker with
  | receive taken =>
    simp only [State.work]
    split <;> exact ⟨rfl, clear, trivial⟩
  | check => exact ⟨rfl, clear, trivial⟩
  | scan id =>
    simp only [State.work]
    split
    · rw [if_pos (clear id)]
      exact ⟨rfl, clear, trivial⟩
    · exact ⟨rfl, clear, trivial⟩
  | polls => exact ⟨rfl, clear, trivial⟩
  | _ => exact place.elim

theorem State.Resting.careful {s : State} (resting : s.Resting) : s.Careful (.work false) := by
  obtain ⟨queue, inflight, parked, worker⟩ := s
  obtain ⟨_, _, place⟩ := resting
  cases worker with
  | receive | check | scan | polls => exact trivial
  | _ => exact place.elim

theorem sampleRun_resting (n : Nat) : (stateAt sampleRun (n + 7)).Resting := by
  induction n with
  | zero => exact ⟨rfl, fun _ => rfl, trivial⟩
  | succ n ih => exact ih.work

theorem sampleRun_careful : system.Always {} sampleRun State.Careful := by
  rintro (_ | _ | _ | _ | _ | _ | _ | n)
  · exact Tracked.fits (by decide)
  · exact Tracked.fits (by decide)
  · exact trivial
  · exact trivial
  · exact trivial
  · exact trivial
  · exact fun _ => ⟨List.not_mem_nil, rfl⟩
  · exact (sampleRun_resting n).careful

theorem sampleRun_drains : Drains sampleRun := by
  rintro n ⟨id, _, parked⟩
  refine absurd ?_ parked
  obtain _ | _ | _ | _ | _ | _ | _ | n := n
  · rfl
  · rfl
  · rfl
  · rfl
  · rfl
  · rfl
  · rfl
  · exact (sampleRun_resting n).2.1 id

theorem sampleRun_turns : Recurs (Turn sampleRun) := fun n => ⟨n + 2, Nat.le_add_right n 2, false, rfl⟩

theorem teardowns_kept_sample :
    ∃ m, 1 < m ∧ Runs sampleRun 3 .closed m ∧
      processedBy sampleRun 3 m = acceptedBy sampleRun 3 1 :=
  (teardowns_kept sampleRun_careful (by decide)).2.2.2 sampleRun_turns sampleRun_drains 1 .closed rfl

/-- A tunnel's reset is asked for twice before the worker handles the first. -/
def twiceRun : Nat → Event
  | 0 | 1 => .submit (.teardown .reset 7)
  | _ => .work false

/-- The net task runs while the worker, which found the queue empty, goes through the masks: sixteen
messages of connection 3 and its close. -/
def overtakenRun (n : Nat) : Event :=
  if n < 2 then .work false
  else if n < 18 then .submit (.bytes 3 [1])
  else if n = 18 then .submit (.teardown .closed 3)
  else .work false

/-- Sixteen messages of connection 3 and its close, then messages of connection 4 as soon as there is
room. -/
def crammedRun (n : Nat) : Event :=
  if n < 16 then .submit (.bytes 3 [1])
  else if n = 16 then .submit (.teardown .closed 3)
  else if n % 2 = 1 then .work false
  else .submit (.bytes 4 [1])

/-- The queue is full of messages and a close of connection 3 is parked. -/
def State.Crammed (s : State) : Prop :=
  s.queue.length = workQueueDepth ∧ (∀ item ∈ s.queue, item.work.isBytes = true) ∧
    s.parked 3 = { closed := true } ∧ s.parked 4 = {} ∧
    match s.worker with
    | .receive _ | .check | .polls => True
    | .handle _ item => item.work.isBytes = true
    | _ => False

theorem State.Crammed.next {s : State} (crammed : s.Crammed) : ((s.work false).submitBytes 4 [1]).Crammed := by
  obtain ⟨queue, inflight, parked, worker⟩ := s
  obtain ⟨full, bytes, closing, clear, place⟩ := crammed
  have kept (t : Place) (fine : t = .check ∨ t = .polls ∨ ∃ n, t = .receive n) :
      (State.submitBytes ⟨queue, inflight, parked, t⟩ 4 [1]).Crammed := by
    have refused : State.refuses ⟨queue, inflight, parked, t⟩ 4 = true := by
      simp only [State.refuses, State.full, Bool.or_eq_true, decide_eq_true_eq]
      exact .inr full.ge
    rw [State.submitBytes, refused]
    refine ⟨full, bytes, closing, clear, ?_⟩
    obtain rfl | rfl | ⟨n, rfl⟩ := fine <;> exact trivial
  cases worker with
  | receive taken =>
    simp only [State.work]
    split
    · cases queue with
      | nil => cases full
      | cons item queue =>
        have room : queue.length = 15 := Nat.succ.inj full
        have accepts : State.refuses ⟨queue, inflight, parked, .handle taken item⟩ 4 = false := by
          have unparked : parked 4 = {} := clear
          simp [State.refuses, State.full, unparked, room, workQueueDepth]
        rw [State.submitBytes, accepts]
        refine ⟨?_, ?_, closing, clear, bytes item List.mem_cons_self⟩
        · simp [State.enqueue, room, workQueueDepth]
        · intro other member
          obtain old | new := List.mem_append.mp member
          · exact bytes other (List.mem_cons_of_mem _ old)
          · rw [List.mem_singleton.mp new]
            rfl
    · exact kept _ (.inl rfl)
  | handle taken item =>
    obtain ⟨work, id⟩ := item
    cases work with
    | bytes data => exact kept _ (.inr (.inr ⟨_, rfl⟩))
    | teardown kind => cases place
    | other => cases place
  | check =>
    have filled : queue ≠ [] := by
      rintro rfl
      cases full
    simp only [State.work, if_neg filled]
    exact kept _ (.inr (.inl rfl))
  | polls => exact kept _ (.inr (.inr ⟨_, rfl⟩))
  | _ => exact place.elim

theorem State.Crammed.shows {s : State} (crammed : s.Crammed) (id : Int) (kind : Teardown) :
    s.shows ≠ some (.ran id kind) := by
  obtain ⟨queue, inflight, parked, worker⟩ := s
  obtain ⟨_, _, _, _, place⟩ := crammed
  cases worker with
  | handle taken item =>
    obtain ⟨work, conn⟩ := item
    cases work with
    | bytes data => simp [State.shows]
    | teardown kind => cases place
    | other => cases place
  | receive | check | polls => simp [State.shows]
  | _ => exact place.elim

theorem crammedRun_work (n : Nat) : crammedRun (2 * n + 17) = .work false := by
  rw [crammedRun, if_neg (by omega), if_neg (by omega), if_pos (by omega)]

theorem crammedRun_submit (n : Nat) : crammedRun (2 * n + 18) = .submit (.bytes 4 [1]) := by
  rw [crammedRun, if_neg (by omega), if_neg (by omega), if_neg (by omega)]

theorem crammedRun_crammed (n : Nat) : (stateAt crammedRun (2 * n + 17)).Crammed := by
  induction n with
  | zero => exact ⟨rfl, by decide +kernel, rfl, rfl, trivial⟩
  | succ n ih =>
    have next : stateAt crammedRun (2 * (n + 1) + 17) =
        ((stateAt crammedRun (2 * n + 17)).work false).submitBytes 4 [1] := by
      rw [← stateAt_work (crammedRun_work n)]
      exact stateAt_submit (crammedRun_submit n)
    rw [next]
    exact ih.next

theorem crammedRun_never (m : Nat) : ¬ Runs crammedRun 3 .closed m := by
  have early : ∀ m < 17, system.shown {} crammedRun m ≠ some (.ran 3 .closed) := by decide +kernel
  intro runs
  obtain lt | le := Nat.lt_or_ge m 17
  · exact early m lt runs
  · obtain ⟨n, rfl | rfl⟩ : ∃ n, m = 2 * n + 17 ∨ m = 2 * n + 18 := ⟨(m - 17) / 2, by omega⟩
    · refine (crammedRun_crammed n).shows 3 .closed ?_
      rw [Runs, Emitter.shown, crammedRun_work] at runs
      exact runs
    · rw [runs_iff, actAt_submit (crammedRun_submit n)] at runs
      exact (State.submit_act _).2 .closed runs

/-- The three slips: a connection that is not busy with a reset in the queue; a close that runs before
the bytes submitted before it; and a close that never runs, because the worker never finds the queue
empty. -/
theorem teardown_slips :
    (∃ n, (stateAt twiceRun n).connBusy 7 = false ∧
      ⟨.teardown .reset, 7⟩ ∈ (stateAt twiceRun n).queue) ∧
    (∃ m, Runs overtakenRun 3 .closed m ∧ ∀ n < m, Asks overtakenRun 3 .closed n →
      acceptedBy overtakenRun 3 n ≠ processedBy overtakenRun 3 m) ∧
    (Recurs (Turn crammedRun) ∧ Asks crammedRun 3 .closed 16 ∧
      ∀ m, ¬ Runs crammedRun 3 .closed m) := by
  refine ⟨⟨5, by decide +kernel, by decide +kernel⟩, ⟨24, ?_, ?_⟩, ?_, ?_, crammedRun_never⟩
  · show system.shown {} overtakenRun 24 = some (.ran 3 .closed)
    decide +kernel
  · show ∀ n < 24, system.shown {} overtakenRun n = some (.asked 3 .closed) → _ ≠ _
    decide +kernel
  · intro n
    exact ⟨2 * n + 17, by omega, false, crammedRun_work n⟩
  · show system.shown {} crammedRun 16 = some (.asked 3 .closed)
    decide +kernel

end BenchPod.HwWorker
