import BenchPod.Worker.Line

/-!
# Progress of the worker

Every step of the worker brings it nearer to the next item of the queue.
-/

namespace BenchPod.HwWorker

/-- How far the worker is from taking up the next item. -/
def Place.cost : Place → Nat
  | .handle .. => 0
  | .receive taken => if taken < workQueueDepth then 1 else 101
  | .polls => 2
  | .scan id => 3 + 6 * (16 - id)
  | .resetDone id => 4 + 6 * (15 - id)
  | .reset id _ => 5 + 6 * (15 - id)
  | .closeDone id _ => 6 + 6 * (15 - id)
  | .close id _ => 7 + 6 * (15 - id)
  | .take id => 8 + 6 * (15 - id)
  | .check => 100
  | .done .. => 102
  | .park .. => 102
  | .send .. => 103
  | .test .. => 104
  | .mark .. => 105

theorem Place.cost_lt (place : Place) : place.cost < 200 := by
  cases place <;> simp only [cost] <;> try omega
  split <;> omega

namespace State

variable {s : State} {event : Event} {connId : Int} {kind : Teardown} {asks : Bool}

theorem receive_cost (taken : Nat) : (Place.receive taken).cost < 102 := by
  simp only [Place.cost]
  split <;> omega

@[simp]
theorem teardownDone_go (id : Int) (place : Place) : ((s.teardownDone id kind).go place).worker = place := rfl

/-- A step of the worker that finds something to do brings it nearer to the next item. -/
theorem work_cost (busy : s.held ++ s.queue ≠ [] ∨ ∀ taken, s.worker ≠ .receive taken)
    (free : s.held = []) : (s.work asks).worker.cost < s.worker.cost := by
  obtain ⟨queue, inflight, parked, worker⟩ := s
  cases worker with
  | handle taken item => cases free
  | receive taken =>
    simp only [State.work]
    split
    · next more =>
        cases queue with
        | nil =>
          obtain empty | place := busy
          · exact absurd rfl empty
          · exact absurd rfl (place taken)
        | cons item queue => simp [Place.cost, more]
    · next full => simp [Place.cost, full, go]
  | mark taken id => simp [State.work, Place.cost, go]
  | test taken id =>
    simp only [State.work]
    split <;> simp [Place.cost, go]
  | send taken id =>
    have near := receive_cost (taken + 1)
    simp only [State.work]
    split
    · split
      · simp [Place.cost, go]
      · exact Nat.lt_succ_of_lt near
    · exact Nat.lt_succ_of_lt near
  | park taken id => exact receive_cost (taken + 1)
  | done taken id kind => exact receive_cost (taken + 1)
  | check =>
    simp only [State.work]
    split <;> simp [Place.cost, go]
  | scan id =>
    simp only [State.work]
    split
    · next small =>
        have small : id < 16 := by
          rw [pendIds] at small
          omega
        split <;> simp only [Place.cost, go] <;> omega
    · simp only [Place.cost, go]
      omega
  | take id => simp [State.work, Place.cost]
  | close id bits =>
    simp only [State.work]
    split <;> simp [Place.cost, go]
  | closeDone id bits => simp [State.work, Place.cost]
  | reset id bits =>
    simp only [State.work]
    split
    · simp [Place.cost, go]
    · simp only [Place.cost, go]
      omega
  | resetDone id =>
    simp only [State.work, Place.cost, teardownDone_go]
    omega
  | polls => simp [State.work, Place.cost, go, workQueueDepth]

variable (s) in
theorem submit_items (call : Submit) :
    ∃ more, (s.step (.submit call)).held ++ (s.step (.submit call)).queue =
      s.held ++ s.queue ++ more ∧ (s.step (.submit call)).worker = s.worker := by
  have one (t : State) (work : Work) (id : Int) (held : t.held = s.held) (queue : t.queue = s.queue)
      (place : t.worker = s.worker) :
      ∃ more, (t.enqueue work id).held ++ (t.enqueue work id).queue = s.held ++ s.queue ++ more ∧
        (t.enqueue work id).worker = s.worker := by
    refine ⟨[⟨work, Int16.ofInt id⟩], ?_, place⟩
    rw [List.append_assoc, ← held, ← queue]
    rfl
  cases call with
  | bytes id data =>
    simp only [step, submitBytes]
    split
    · exact ⟨[], (List.append_nil _).symm, rfl⟩
    · exact one s _ _ rfl rfl rfl
  | teardown kind id =>
    simp only [step, submitTeardown]
    split
    · split
      · exact one (s.mark kind id) _ _ rfl rfl rfl
      · exact ⟨[], (List.append_nil _).symm, rfl⟩
    · split
      · exact ⟨[], (List.append_nil _).symm, rfl⟩
      · exact one s _ _ rfl rfl rfl
  | other =>
    simp only [step, submitOther]
    split
    · exact ⟨[], (List.append_nil _).symm, rfl⟩
    · exact one s _ _ rfl rfl rfl

@[simp]
theorem teardownDone_queue (id : Int) : (s.teardownDone id kind).queue = s.queue := by
  rw [teardownDone]
  split <;> rfl

/-- With empty hands the worker keeps the items and may add one. -/
theorem work_items (asks : Bool) (free : s.held = []) :
    ∃ more, (s.work asks).held ++ (s.work asks).queue = s.held ++ s.queue ++ more := by
  obtain ⟨queue, inflight, parked, worker⟩ := s
  have same (t : State) (empty : t.held = []) (kept : t.queue = queue) :
      ∃ more, t.held ++ t.queue = held ⟨queue, inflight, parked, worker⟩ ++ queue ++ more :=
    ⟨[], by rw [empty, free, kept, List.append_nil]⟩
  cases worker with
  | handle taken item => cases free
  | receive taken =>
    simp only [State.work]
    split
    · cases queue with
      | nil => exact same _ (by rfl) (by rfl)
      | cons item queue => exact ⟨[], (List.append_nil _).symm⟩
    · exact same _ (by rfl) (by rfl)
  | mark taken id =>
    simp only [State.work]
    split <;> exact same _ (by rfl) (by rfl)
  | test taken id =>
    simp only [State.work]
    split <;> exact same _ (by rfl) (by rfl)
  | send taken id =>
    simp only [State.work]
    split
    · split <;> exact same _ (by rfl) (by rfl)
    · exact ⟨[_], rfl⟩
  | scan id =>
    simp only [State.work]
    split
    · split <;> exact same _ (by rfl) (by rfl)
    · exact same _ (by rfl) (by rfl)
  | check | close id bits | reset id bits =>
    simp only [State.work]
    split <;> exact same _ (by rfl) (by rfl)
  | done taken id kind => exact same _ (by rfl) (teardownDone_queue _)
  | closeDone id bits => exact same _ (by rfl) (teardownDone_queue _)
  | resetDone id => exact same _ (by rfl) (teardownDone_queue _)
  | park | take | polls => exact same _ (by rfl) (by rfl)

theorem handle_items (connId : Int) (asks : Bool) {item : Item} (hands : s.held = [item]) :
    (s.work asks).held ++ (s.work asks).queue = s.queue ∧
      s.shows.bind (Sight.act connId) = (item.entry connId).map fun
        | .data data => .process data
        | .mark kind => .run kind := by
  obtain ⟨queue, inflight, parked, worker⟩ := s
  cases worker with
  | handle taken other =>
    have same : other = item := by simpa [held] using hands
    subst same
    obtain ⟨work, id⟩ := other
    constructor
    · cases work with
      | bytes data => cases asks <;> rfl
      | teardown kind => rfl
      | other => rfl
    · by_cases same : id.toInt = connId
      · cases work <;> simp [shows, Sight.act, Item.entry, same]
      · cases work <;> simp [shows, Sight.act, Item.entry, same]
  | _ => cases hands

theorem held_cases : s.held = [] ∨ ∃ item, s.held = [item] := by
  rw [held]
  split
  · exact .inr ⟨_, rfl⟩
  · exact .inl rfl

/-- The worker is on its way to the parked teardowns of a connection. -/
def Ahead (s : State) (connId : Int) : Prop :=
  match s.worker with
  | .scan id | .take id => id ≤ connId
  | .close id _ | .closeDone id _ | .reset id _ | .resetDone id => id < connId
  | _ => False

/-- The worker comes nearer to a parked teardown that is ahead of it, and takes it. -/
theorem ahead_work (asks : Bool) (tracked : Tracked connId) (ahead : s.Ahead connId)
    (parked : (s.parked connId).has kind = true) :
    ((s.work asks).Ahead connId ∧ (s.work asks).worker.cost < s.worker.cost) ∨ (s.work asks).Taken connId kind := by
  obtain ⟨queue, inflight, masks, worker⟩ := s
  obtain ⟨lower, upper⟩ := tracked
  rw [pendIds] at upper
  cases worker with
  | scan id =>
    have reached : (id : Int) ≤ connId := ahead
    have small : (id : Int) < pendIds := by
      rw [pendIds]
      omega
    simp only [State.work, if_pos small]
    split
    · next empty =>
        have passed : (id : Int) ≠ connId := by
          rintro rfl
          simp [empty] at parked
        refine .inl ⟨?_, ?_⟩
        · simp only [Ahead, go]
          omega
        · simp only [Place.cost, go]
          omega
    · refine .inl ⟨reached, ?_⟩
      simp only [Place.cost, go]
      omega
  | take id =>
    by_cases same : (id : Int) = connId
    · subst same
      exact .inr ⟨rfl, parked⟩
    · have reached : (id : Int) ≤ connId := ahead
      refine .inl ⟨?_, ?_⟩
      · simp only [State.work, Ahead]
        omega
      · simp [State.work, Place.cost]
  | close id bits =>
    simp only [State.work]
    split
    · exact .inl ⟨ahead, by simp [Place.cost, go]⟩
    · exact .inl ⟨ahead, by simp [Place.cost, go]⟩
  | closeDone id bits => exact .inl ⟨ahead, by simp [State.work, Place.cost]⟩
  | reset id bits =>
    have passed : (id : Int) < connId := ahead
    simp only [State.work]
    split
    · exact .inl ⟨ahead, by simp [Place.cost, go]⟩
    · refine .inl ⟨?_, ?_⟩
      · simp only [Ahead, go]
        omega
      · simp only [Place.cost, go]
        omega
  | resetDone id =>
    have passed : (id : Int) < connId := ahead
    refine .inl ⟨?_, ?_⟩
    · simp only [State.work, Ahead, teardownDone_go]
      omega
    · simp only [State.work, Place.cost, teardownDone_go]
      omega
  | _ => exact ahead.elim

theorem taken_place (taken : s.Taken connId kind) : s.held = [] ∧ ∀ count, s.worker ≠ .receive count := by
  obtain ⟨queue, inflight, parked, worker⟩ := s
  cases worker with
  | close | closeDone | reset => exact ⟨rfl, fun _ => Place.noConfusion⟩
  | _ => exact taken.elim

theorem ahead_submit (call : Submit) (ahead : s.Ahead connId) : (s.step (.submit call)).Ahead connId := by
  obtain ⟨more, _, place⟩ := s.submit_items call
  rw [Ahead, place]
  exact ahead

theorem submit_act (call : Submit) :
    Line.removed ((s.emit (.submit call)).bind (Sight.act connId)) = [] ∧
      ∀ kind, (s.emit (.submit call)).bind (Sight.act connId) ≠ some (.run kind) := by
  cases call with
  | bytes id data =>
    simp only [emit]
    split
    · exact ⟨rfl, fun _ => (Option.some_ne_none _).symm⟩
    · simp only [Option.bind_some, Sight.act]
      split <;> simp [Line.removed, Line.Act.processed]
  | teardown kind id =>
    simp only [emit, Option.bind_some, Sight.act]
    split <;> simp [Line.removed, Line.Act.processed]
  | other => exact ⟨rfl, fun _ => (Option.some_ne_none _).symm⟩

theorem free_act (free : s.held = []) : Line.removed (s.shows.bind (Sight.act connId)) = [] := by
  obtain ⟨queue, inflight, parked, worker⟩ := s
  cases worker with
  | handle taken item => cases free
  | send taken id =>
    simp only [shows]
    split
    · rfl
    · simp only [Option.bind_some, Sight.act]
      split <;> rfl
  | park taken id =>
    simp only [shows, Option.bind_some, Sight.act]
    split <;> rfl
  | close id bits | reset id bits =>
    simp only [shows]
    split
    · simp only [Option.bind_some, Sight.act]
      split <;> rfl
    · rfl
  | _ => rfl

theorem ahead_untaken (ahead : s.Ahead connId) : ¬ s.Taken connId kind := by
  intro taken
  obtain ⟨queue, inflight, parked, worker⟩ := s
  cases worker with
  | close | closeDone | reset => exact Int.ne_of_lt ahead taken.1
  | _ => exact taken.elim

theorem check_ahead (tracked : Tracked connId) (place : s.worker = .check) (empty : s.queue = []) :
    (s.work asks).Ahead connId := by
  rw [State.work, place]
  simp only [empty, if_true]
  exact tracked.1

end State

section Run

variable (events : Nat → Event)

/-- The state after a number of events. -/
def stateAt (n : Nat) : State := system.after {} events n

/-- What an event does to the line of a connection. -/
def actAt (connId : Int) (n : Nat) : Option (Line.Act (List Byte) Teardown) :=
  (system.shown {} events n).bind (Sight.act connId)

/-- The worker takes a step. -/
def Turn (n : Nat) : Prop := ∃ asks, events n = .work asks

/-- While something is parked, the worker finds the queue empty some time. -/
def Drains : Prop :=
  ∀ n, (∃ connId, Tracked connId ∧ (stateAt events n).parked connId ≠ {}) →
    ∃ m, n ≤ m ∧ Turn events m ∧ (stateAt events m).worker = .check ∧ (stateAt events m).queue = []

variable {events} {connId : Int} {kind : Teardown}

theorem line_moves (careful : system.Always {} events State.Careful) (tracked : Tracked connId)
    (n : Nat) : ((stateAt events n).line connId).Move (actAt events connId n) ((stateAt events (n + 1)).line connId) :=
  State.step_move tracked (careful n)

theorem submitted {n : Nat} (no_turn : ¬ Turn events n) : ∃ call, events n = .submit call := by
  cases event : events n with
  | submit call => exact ⟨call, rfl⟩
  | work asks => exact absurd ⟨asks, event⟩ no_turn

theorem stateAt_work {n : Nat} {asks : Bool} (turn : events n = .work asks) :
    stateAt events (n + 1) = (stateAt events n).work asks := by
  show State.step _ (events n) = _
  rw [turn]
  rfl

theorem stateAt_submit {n : Nat} {call : Submit} (submit : events n = .submit call) :
    stateAt events (n + 1) = (stateAt events n).step (.submit call) := by
  show State.step _ (events n) = _
  rw [submit]
  rfl

theorem actAt_work {n : Nat} {asks : Bool} (turn : events n = .work asks) :
    actAt events connId n = (stateAt events n).shows.bind (Sight.act connId) := by
  show (State.emit _ (events n)).bind _ = _
  rw [turn]
  rfl

theorem actAt_submit {n : Nat} {call : Submit} (submit : events n = .submit call) :
    actAt events connId n = ((stateAt events n).emit (.submit call)).bind (Sight.act connId) := by
  show (State.emit _ (events n)).bind _ = _
  rw [submit]
  rfl

theorem taken_runs (careful : system.Always {} events State.Careful) (tracked : Tracked connId)
    (turns : Recurs (Turn events)) {n : Nat} (taken : (stateAt events n).Taken connId kind) :
    ∃ m, n ≤ m ∧ actAt events connId m = some (.run kind) ∧
      Line.out (actAt events connId) m = Line.out (actAt events connId) n := by
  let Near (rank m : Nat) : Prop :=
    (stateAt events m).Taken connId kind ∧ Line.out (actAt events connId) m = Line.out (actAt events connId) n ∧
      (stateAt events m).worker.cost = rank
  have near : Near _ n := ⟨taken, rfl, rfl⟩
  refine turns.reaches ?_ ?_ near
  · rintro rank m ⟨taken, out, cost⟩ no_turn
    obtain ⟨call, submit⟩ := submitted no_turn
    obtain run | ⟨taken, removed⟩ := (line_moves careful tracked m).taken taken
    · exact absurd (actAt_submit submit ▸ run) ((State.submit_act call).2 kind)
    · obtain ⟨_, _, place⟩ := (stateAt events m).submit_items call
      refine ⟨taken, ?_, ?_⟩
      · rw [Line.out, removed, List.append_nil, out]
      · rw [stateAt_submit submit, place, cost]
  · rintro rank m ⟨taken, out, rfl⟩ ⟨asks, turn⟩
    obtain ⟨free, working⟩ := State.taken_place taken
    obtain run | ⟨taken, removed⟩ := (line_moves careful tracked m).taken taken
    · exact .inl ⟨run, out⟩
    · refine .inr ⟨_, ?_, taken, ?_, rfl⟩
      · rw [stateAt_work turn]
        exact State.work_cost (.inr working) free
      · rw [Line.out, removed, List.append_nil, out]

/-- A teardown that is queued runs when what stands before it has been dealt with. -/
theorem queued_runs (turns : Recurs (Turn events)) {n : Nat} {front back : List Item} {item : Item}
    (split : (stateAt events n).held ++ (stateAt events n).queue = front ++ item :: back)
    (entry : item.entry connId = some (.mark kind)) :
    ∃ m, n ≤ m ∧ actAt events connId m = some (.run kind) ∧
      Line.out (actAt events connId) m = Line.out (actAt events connId) n ++
        Line.values (front.filterMap (Item.entry connId)) := by
  let Near (rank m : Nat) : Prop :=
    ∃ ahead behind, (stateAt events m).held ++ (stateAt events m).queue = ahead ++ item :: behind ∧
      Line.out (actAt events connId) m ++ Line.values (ahead.filterMap (Item.entry connId)) =
        Line.out (actAt events connId) n ++ Line.values (front.filterMap (Item.entry connId)) ∧
      ahead.length * 200 + (stateAt events m).worker.cost = rank
  have near : Near _ n := ⟨front, back, split, rfl, rfl⟩
  refine turns.reaches ?_ ?_ near
  · rintro rank m ⟨ahead, behind, split, out, cost⟩ no_turn
    obtain ⟨call, submit⟩ := submitted no_turn
    obtain ⟨more, items, place⟩ := (stateAt events m).submit_items call
    refine ⟨ahead, behind ++ more, ?_, ?_, ?_⟩
    · rw [stateAt_submit submit, items, split, List.append_assoc, List.cons_append]
    · rw [Line.out, actAt_submit submit, (State.submit_act call).1, List.append_nil, out]
    · rw [stateAt_submit submit, place, cost]
  · rintro rank m ⟨ahead, behind, split, out, rfl⟩ ⟨asks, turn⟩
    obtain free | ⟨first, hands⟩ := (stateAt events m).held_cases
    · obtain ⟨more, items⟩ := State.work_items asks free
      have act : Line.removed (actAt events connId m) = [] := by
        rw [actAt_work turn]
        exact State.free_act free
      refine .inr ⟨_, ?_, ahead, behind ++ more, ?_, ?_, rfl⟩
      · rw [stateAt_work turn]
        refine Nat.add_lt_add_left (State.work_cost (.inl ?_) free) _
        rw [split]
        exact List.append_ne_nil_of_right_ne_nil _ (List.cons_ne_nil _ _)
      · rw [stateAt_work turn, items, split, List.append_assoc, List.cons_append]
      · rw [Line.out, act, List.append_nil, out]
    · obtain ⟨items, act⟩ := State.handle_items connId asks hands
      rw [hands] at split
      cases ahead with
      | nil =>
        obtain ⟨rfl, rest⟩ := List.cons.inj split
        refine .inl ⟨?_, ?_⟩
        · rw [actAt_work turn, act, entry]
          rfl
        · rw [← out]
          exact (List.append_nil _).symm
      | cons other ahead =>
        obtain ⟨rfl, rest⟩ := List.cons.inj split
        refine .inr ⟨_, ?_, ahead, behind, ?_, ?_, rfl⟩
        · have near := (stateAt events (m + 1)).worker.cost_lt
          simp only [List.length_cons]
          omega
        · rw [stateAt_work turn, items]
          exact rest
        · rw [← out, Line.out, actAt_work turn, act, List.append_assoc]
          congr 1
          rw [List.filterMap_cons]
          cases first.entry connId with
          | none => rfl
          | some entry => cases entry <;> rfl

theorem parked_step (careful : system.Always {} events State.Careful) (tracked : Tracked connId)
    {n : Nat} (parked : ((stateAt events n).parked connId).has kind = true) :
    (((stateAt events (n + 1)).parked connId).has kind = true ∧
        Line.into (actAt events connId) (n + 1) = Line.into (actAt events connId) n ∧
        ((stateAt events (n + 1)).Taken connId kind → (stateAt events n).Taken connId kind)) ∨
      ((stateAt events (n + 1)).Taken connId kind ∧
        Line.out (actAt events connId) (n + 1) = Line.into (actAt events connId) n) := by
  have moves := line_moves careful tracked
  obtain ⟨none_added, still | ⟨taken, none_removed, clear⟩⟩ := (moves n).parked parked
  · refine .inl ⟨still.1, ?_, still.2⟩
    rw [Line.into, none_added, List.append_nil]
  · refine .inr ⟨taken, ?_⟩
    rw [Line.out, none_removed, List.append_nil, Line.into_eq moves rfl n]
    exact (congrArg (_ ++ ·) clear).trans (List.append_nil _) |>.symm

theorem parked_until (careful : system.Always {} events State.Careful) (tracked : Tracked connId)
    {n m : Nat} (le : n ≤ m) (parked : ((stateAt events n).parked connId).has kind = true) :
    (((stateAt events m).parked connId).has kind = true ∧
        Line.into (actAt events connId) m = Line.into (actAt events connId) n) ∨
      ∃ j, n ≤ j ∧ (stateAt events j).Taken connId kind ∧
        Line.out (actAt events connId) j = Line.into (actAt events connId) n := by
  induction le with
  | refl => exact .inl ⟨parked, rfl⟩
  | @step m le ih =>
    obtain ⟨parked, into⟩ | taken := ih
    · obtain ⟨parked, same, _⟩ | ⟨taken, out⟩ := parked_step careful tracked parked
      · exact .inl ⟨parked, same.trans into⟩
      · exact .inr ⟨m + 1, Nat.le_succ_of_le le, taken, out.trans into⟩
    · exact .inr taken

theorem ahead_taken (careful : system.Always {} events State.Careful) (tracked : Tracked connId)
    (turns : Recurs (Turn events)) {n : Nat} (ahead : (stateAt events n).Ahead connId)
    (parked : ((stateAt events n).parked connId).has kind = true) :
    ∃ m, n ≤ m ∧ (stateAt events m).Taken connId kind ∧
      Line.out (actAt events connId) m = Line.into (actAt events connId) n := by
  let Near (rank m : Nat) : Prop :=
    (stateAt events m).Ahead connId ∧ ((stateAt events m).parked connId).has kind = true ∧
      Line.into (actAt events connId) m = Line.into (actAt events connId) n ∧
      (stateAt events m).worker.cost = rank
  have near : Near _ n := ⟨ahead, parked, rfl, rfl⟩
  have reached : ∃ m, n ≤ m ∧ ((stateAt events (m + 1)).Taken connId kind ∧
      Line.out (actAt events connId) (m + 1) = Line.into (actAt events connId) n) := by
    refine turns.reaches ?_ ?_ near
    · rintro rank m ⟨ahead, parked, into, cost⟩ no_turn
      obtain ⟨call, submit⟩ := submitted no_turn
      have ahead_next : (stateAt events (m + 1)).Ahead connId := by
        rw [stateAt_submit submit]
        exact State.ahead_submit call ahead
      obtain ⟨_, _, place⟩ := (stateAt events m).submit_items call
      obtain ⟨parked, same, _⟩ | ⟨taken, _⟩ := parked_step careful tracked parked
      · refine ⟨ahead_next, parked, same.trans into, ?_⟩
        rw [stateAt_submit submit, place, cost]
      · exact absurd taken (State.ahead_untaken ahead_next)
    · rintro rank m ⟨ahead, parked, into, rfl⟩ ⟨asks, turn⟩
      obtain ⟨parked_next, same, new⟩ | ⟨taken, out⟩ := parked_step careful tracked parked
      · have next := State.ahead_work asks tracked ahead parked
        rw [← stateAt_work turn] at next
        obtain ⟨ahead_next, cost⟩ | taken := next
        · exact .inr ⟨_, cost, ahead_next, parked_next, same.trans into, rfl⟩
        · exact absurd (new taken) (State.ahead_untaken ahead)
      · exact .inl ⟨taken, out.trans into⟩
  obtain ⟨m, le, taken, out⟩ := reached
  exact ⟨m + 1, Nat.le_succ_of_le le, taken, out⟩

theorem parked_runs (careful : system.Always {} events State.Careful) (tracked : Tracked connId)
    (turns : Recurs (Turn events)) (drains : Drains events) {n : Nat}
    (parked : ((stateAt events n).parked connId).has kind = true) :
    ∃ m, n ≤ m ∧ actAt events connId m = some (.run kind) ∧
      Line.out (actAt events connId) m = Line.into (actAt events connId) n := by
  have taken : ∃ j, n ≤ j ∧ (stateAt events j).Taken connId kind ∧
      Line.out (actAt events connId) j = Line.into (actAt events connId) n := by
    have waiting : (stateAt events n).parked connId ≠ {} := by
      intro empty
      simp [empty] at parked
    obtain ⟨m, le, ⟨asks, turn⟩, place, empty⟩ := drains n ⟨connId, tracked, waiting⟩
    obtain ⟨parked, into⟩ | taken := parked_until careful tracked (Nat.le_succ_of_le le) parked
    · have ahead : (stateAt events (m + 1)).Ahead connId := by
        rw [stateAt_work turn]
        exact State.check_ahead tracked place empty
      obtain ⟨j, later, taken, out⟩ := ahead_taken careful tracked turns ahead parked
      exact ⟨j, by omega, taken, out.trans into⟩
    · exact taken
  obtain ⟨j, le, taken, out⟩ := taken
  obtain ⟨m, later, run, same⟩ := taken_runs careful tracked turns taken
  exact ⟨m, Nat.le_trans le later, run, same.trans out⟩

theorem split_items {items : List Item} {front back : List (Entry (List Byte) Teardown)}
    (split : items.filterMap (Item.entry connId) = front ++ .mark kind :: back) :
    ∃ ahead item behind, items = ahead ++ item :: behind ∧ item.entry connId = some (.mark kind) ∧
      ahead.filterMap (Item.entry connId) = front := by
  obtain ⟨ahead, rest, rfl, front_eq, rest_eq⟩ := List.filterMap_eq_append_iff.mp split
  obtain ⟨skipped, item, behind, rfl, none, entry, _⟩ := List.filterMap_eq_cons_iff.mp rest_eq
  refine ⟨ahead ++ skipped, item, behind, by simp, entry, ?_⟩
  rw [List.filterMap_append, front_eq, List.filterMap_eq_nil_iff.mpr none, List.append_nil]

theorem waits_runs (careful : system.Always {} events State.Careful) (tracked : Tracked connId)
    (turns : Recurs (Turn events)) (drains : Drains events) {n : Nat} {before : List (List Byte)}
    (waits : ((stateAt events n).line connId).Waits kind before) :
    ∃ m, n ≤ m ∧ actAt events connId m = some (.run kind) ∧
      Line.out (actAt events connId) m = Line.out (actAt events connId) n ++ before := by
  cases waits with
  | queued split =>
    obtain ⟨ahead, item, behind, items, entry, rfl⟩ := split_items split
    exact queued_runs turns items entry
  | parked member =>
    obtain ⟨m, le, run, out⟩ := parked_runs careful tracked turns drains member
    refine ⟨m, le, run, out.trans ?_⟩
    exact Line.into_eq (line_moves careful tracked) rfl n
  | taken member =>
    obtain ⟨m, le, run, out⟩ := taken_runs careful tracked turns member
    exact ⟨m, le, run, out.trans (List.append_nil _).symm⟩

end Run
end BenchPod.HwWorker
