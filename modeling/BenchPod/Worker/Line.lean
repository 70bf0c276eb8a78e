import BenchPod.Library.Line
import BenchPod.Worker.Queue

/-!
# The line of a connection

Seen from one connection, the queue, the item in the worker's hands and the masks are a line with an
overflow, and every careful step is one act on it.
-/

namespace BenchPod.HwWorker

/-- What an item is in a connection's line. -/
def Item.entry (connId : Int) (item : Item) : Option (Entry (List Byte) Teardown) :=
  if item.connId.toInt = connId then
    match item.work with
    | .bytes data => some (.data data)
    | .teardown kind => some (.mark kind)
    | .other => none
  else none

/-- What a sight is for a connection's line. -/
def Sight.act (connId : Int) : Sight → Option (Line.Act (List Byte) Teardown)
  | .accepted id data => if id = connId then some (.accept data) else none
  | .processed id data => if id = connId then some (.process data) else none
  | .asked id kind => if id = connId then some (.ask kind) else none
  | .ran id kind => if id = connId then some (.run kind) else none

theorem Sight.act_ask_iff {sight : Sight} {connId : Int} {kind : Teardown} :
    sight.act connId = some (.ask kind) ↔ sight = .asked connId kind := by
  cases sight <;> simp [act]

theorem Sight.act_run_iff {sight : Sight} {connId : Int} {kind : Teardown} :
    sight.act connId = some (.run kind) ↔ sight = .ran connId kind := by
  cases sight <;> simp [act]

/-- An id that an item can carry. -/
def Fits (connId : Int) : Prop := (Int16.ofInt connId).toInt = connId

namespace State

variable (s : State)

/-- The item in the worker's hands. -/
def held : List Item :=
  match s.worker with
  | .handle _ item => [item]
  | _ => []

/-- Whether a teardown of a connection was taken from the mask and has not run. -/
def Taken (connId : Int) (kind : Teardown) : Prop :=
  match s.worker with
  | .close id bits => id = connId ∧ bits.has kind = true
  | .closeDone id bits | .reset id bits => id = connId ∧ kind = .reset ∧ bits.reset = true
  | _ => False

def line (connId : Int) : Line (List Byte) Teardown where
  entries := (s.held ++ s.queue).filterMap (Item.entry connId)
  parked := {kind | (s.parked connId).has kind = true}
  taken := {kind | s.Taken connId kind}

/-- No other teardown of a kind is on its way for a connection. -/
def Alone (connId : Int) (kind : Teardown) : Prop :=
  ⟨.teardown kind, Int16.ofInt connId⟩ ∉ s.queue ∧ (s.parked connId).has kind = false

/-- A step that keeps out of the way of the two slips of the worker: a mark is cleared only for the
last teardown it stands for, and what is parked is taken only behind the connection's bytes. -/
def Careful : Event → Prop
  | .submit (.bytes connId _) | .submit (.teardown _ connId) => Fits connId
  | .submit .other => True
  | .work _ =>
    match s.worker with
    | .done _ connId kind => Tracked connId.toInt → s.Alone connId.toInt kind
    | .closeDone id _ => s.Alone id .closed
    | .resetDone id => s.Alone id .reset
    | .take id => ∀ item ∈ s.queue, item.connId.toInt = id → item.work.isBytes = false
    | _ => True

variable {s} {event : Event} {connId : Int}

theorem entry_of_ne {item : Item} (other : item.connId.toInt ≠ connId) : item.entry connId = none := if_neg other

theorem line_enqueue (work : Work) (id : Int) :
    (s.enqueue work id).line connId =
      { s.line connId with
        entries := (s.line connId).entries ++ (Item.entry connId ⟨work, Int16.ofInt id⟩).toList } := by
  have more : ((s.enqueue work id).held ++ (s.enqueue work id).queue).filterMap (Item.entry connId) =
      (s.held ++ s.queue).filterMap (Item.entry connId) ++ (Item.entry connId ⟨work, Int16.ofInt id⟩).toList := by
    have one : [(⟨work, Int16.ofInt id⟩ : Item)].filterMap (Item.entry connId) =
        (Item.entry connId ⟨work, Int16.ofInt id⟩).toList := by
      cases entry : Item.entry connId ⟨work, Int16.ofInt id⟩ with
      | none => simp [entry]
      | some value => simp [entry]
    rw [← one, ← List.filterMap_append, List.append_assoc]
    rfl
  exact Line.ext more rfl rfl

theorem line_enqueue_ne {work : Work} {id : Int} (fits : Fits id) (other : id ≠ connId) :
    (s.enqueue work id).line connId = s.line connId := by
  rw [line_enqueue, entry_of_ne (fun same => other (fits.symm.trans same))]
  exact Line.ext (List.append_nil _) rfl rfl

theorem line_park_ne {kind : Teardown} {id : Int} (other : id ≠ connId) :
    (s.park kind id).line connId = s.line connId := by
  refine Line.ext rfl ?_ rfl
  simp only [line, park, if_neg (Ne.symm other)]

theorem line_park (kind : Teardown) :
    (s.park kind connId).line connId = { s.line connId with parked := insert kind (s.line connId).parked } := by
  refine Line.ext rfl ?_ rfl
  ext other
  simp only [line, park, if_true, Set.mem_ofPred_eq, Mask.has_put, Set.mem_insert_iff]
  by_cases same : other = kind
  · simp [same]
  · simp [same]

theorem line_mark (kind : Teardown) (id : Int) : (s.mark kind id).line connId = s.line connId := rfl

theorem parked_clear (clear : s.parked connId = {}) : (s.line connId).parked = ∅ := by
  ext kind
  simp [line, clear]

theorem submitBytes_move {id : Int} {data : List Byte} (fits : Fits id) (tracked : Tracked connId) :
    (s.line connId).Move ((s.emit (.submit (.bytes id data))).bind (Sight.act connId))
      ((s.submitBytes id data).line connId) := by
  simp only [emit, submitBytes]
  cases refuses : s.refuses id with
  | true => exact .still
  | false =>
    by_cases same : id = connId
    · subst same
      have clear : s.parked id = {} := by
        simp only [State.refuses, tracked, Bool.or_eq_false_iff] at refuses
        simpa using refuses.1
      have entry : Item.entry id ⟨.bytes (data.take workDataMax), Int16.ofInt id⟩ =
          some (.data (data.take workDataMax)) := if_pos fits
      simp only [Bool.false_eq_true, if_false, Option.bind_some, Sight.act, if_true]
      rw [line_enqueue, entry]
      exact .accept (parked_clear clear)
    · simp only [Bool.false_eq_true, if_false, Option.bind_some, Sight.act, if_neg same]
      rw [line_enqueue_ne fits same]
      exact .still

theorem submitTeardown_move {id : Int} {kind : Teardown} (fits : Fits id) (tracked : Tracked connId) :
    (s.line connId).Move ((s.emit (.submit (.teardown kind id))).bind (Sight.act connId))
      ((s.submitTeardown kind id).line connId) := by
  simp only [emit, submitTeardown, Option.bind_some, Sight.act]
  by_cases same : id = connId
  · subst same
    rw [if_pos rfl, if_pos tracked]
    split
    · have entry : Item.entry id ⟨.teardown kind, Int16.ofInt id⟩ = some (.mark kind) := if_pos fits
      rw [line_enqueue, entry, line_mark]
      exact .queue
    · rw [line_park, line_mark]
      exact .park
  · rw [if_neg same]
    split
    · split
      · rw [line_enqueue_ne fits same, line_mark]
        exact .still
      · rw [line_park_ne same, line_mark]
        exact .still
    · split
      · exact .still
      · rw [line_enqueue_ne fits same]
        exact .still

theorem submitOther_move : (s.line connId).Move none (s.submitOther.line connId) := by
  rw [submitOther]
  split
  · exact .still
  · have nothing : Item.entry connId ⟨.other, Int16.ofInt (-1)⟩ = none := by
      rw [Item.entry]
      split <;> rfl
    rw [line_enqueue, nothing]
    simp only [Option.toList_none, List.append_nil]
    exact .still

theorem receive_move {taken : Nat} {asks : Bool} (place : s.worker = .receive taken) :
    (s.line connId).Move (s.shows.bind (Sight.act connId)) ((s.work asks).line connId) := by
  obtain ⟨queue, inflight, parked, worker⟩ := s
  subst place
  simp only [work]
  split
  · cases queue with
    | nil => exact .still
    | cons item queue => exact .still
  · exact .still

theorem handle_move {taken : Nat} {item : Item} {asks : Bool}
    (place : s.worker = .handle taken item) :
    (s.line connId).Move (s.shows.bind (Sight.act connId)) ((s.work asks).line connId) := by
  obtain ⟨queue, inflight, parked, worker⟩ := s
  subst place
  obtain ⟨work, id⟩ := item
  by_cases same : id.toInt = connId
  · subst same
    cases work with
    | bytes data =>
      have first : (line ⟨queue, inflight, parked, .handle taken ⟨.bytes data, id⟩⟩ id.toInt).entries =
          .data data :: queue.filterMap (Item.entry id.toInt) := by
        simp [line, held, Item.entry]
      simp only [shows, Option.bind_some, Sight.act, if_true, State.work]
      cases asks with
      | true => exact .process rfl first
      | false => exact .process rfl first
    | teardown kind =>
      have first :
          (line ⟨queue, inflight, parked, .handle taken ⟨.teardown kind, id⟩⟩ id.toInt).entries =
            .mark kind :: queue.filterMap (Item.entry id.toInt) := by
        simp [line, held, Item.entry]
      simp only [shows, Option.bind_some, Sight.act, if_true, State.work]
      exact .run first
    | other =>
      have gone : line ⟨queue, inflight, parked, .handle taken ⟨.other, id⟩⟩ id.toInt =
          line ⟨queue, inflight, parked, .receive (taken + 1)⟩ id.toInt :=
        Line.ext (by simp [line, held, Item.entry]) rfl rfl
      rw [gone]
      exact .still
  · have absent : Item.entry connId ⟨work, id⟩ = none := entry_of_ne same
    have gone : ∀ place : Place, (place = .receive (taken + 1) ∨ place = .mark taken id ∨
          ∃ kind, place = .done taken id kind) →
        line ⟨queue, inflight, parked, .handle taken ⟨work, id⟩⟩ connId =
          line ⟨queue, inflight, parked, place⟩ connId := by
      intro place reached
      obtain rfl | rfl | ⟨kind, rfl⟩ := reached <;>
        exact Line.ext (by simp [line, held, absent]) rfl rfl
    cases work with
    | bytes data =>
      simp only [shows, Option.bind_some, Sight.act, if_neg same, State.work]
      cases asks with
      | true =>
        rw [gone _ (.inr (.inl rfl))]
        exact .still
      | false =>
        rw [gone _ (.inl rfl)]
        exact .still
    | teardown kind =>
      simp only [shows, Option.bind_some, Sight.act, if_neg same, State.work]
      rw [gone _ (.inr (.inr ⟨kind, rfl⟩))]
      exact .still
    | other =>
      rw [gone _ (.inl rfl)]
      exact .still

theorem fits_toInt (id : Int16) : Fits id.toInt := congrArg Int16.toInt (Int16.ofInt_toInt id)

theorem send_move {taken : Nat} {id : Int16} {asks : Bool} (place : s.worker = .send taken id) :
    (s.line connId).Move (s.shows.bind (Sight.act connId)) ((s.work asks).line connId) := by
  obtain ⟨queue, inflight, parked, worker⟩ := s
  subst place
  simp only [shows, State.work]
  split
  · split
    · exact .still
    · exact .still
  · simp only [Option.bind_some, Sight.act]
    have received (work : Work) : ((enqueue ⟨queue, inflight, parked, .send taken id⟩ work id.toInt).go
          (.receive (taken + 1))).line connId =
        (enqueue ⟨queue, inflight, parked, .send taken id⟩ work id.toInt).line connId := rfl
    rw [received]
    by_cases same : id.toInt = connId
    · subst same
      have entry : Item.entry id.toInt ⟨.teardown .reset, Int16.ofInt id.toInt⟩ =
          some (.mark .reset) := if_pos (fits_toInt id)
      rw [if_pos rfl, line_enqueue, entry]
      exact .queue
    · rw [if_neg same, line_enqueue_ne (fits_toInt id) same]
      exact .still

theorem park_move {taken : Nat} {id : Int16} {asks : Bool} (place : s.worker = .park taken id) :
    (s.line connId).Move (s.shows.bind (Sight.act connId)) ((s.work asks).line connId) := by
  obtain ⟨queue, inflight, parked, worker⟩ := s
  subst place
  simp only [shows, State.work, Option.bind_some, Sight.act]
  have received : ((State.park ⟨queue, inflight, parked, .park taken id⟩ .reset id.toInt).go
        (.receive (taken + 1))).line connId =
      (State.park ⟨queue, inflight, parked, .park taken id⟩ .reset id.toInt).line connId := rfl
  rw [received]
  by_cases same : id.toInt = connId
  · subst same
    rw [if_pos rfl, line_park]
    exact .park
  · rw [if_neg same, line_park_ne same]
    exact .still

theorem values_of_clear {queue : List Item}
    (clear : ∀ item ∈ queue, item.connId.toInt = connId → item.work.isBytes = false) :
    Line.values (queue.filterMap (Item.entry connId)) = [] := by
  induction queue with
  | nil => rfl
  | cons item queue ih =>
    have rest := ih fun other member => clear other (List.mem_cons_of_mem _ member)
    by_cases same : item.connId.toInt = connId
    · have here := clear item List.mem_cons_self same
      obtain ⟨work, id⟩ := item
      cases work with
      | bytes data => cases here
      | teardown kind =>
        have entry : Item.entry connId ⟨.teardown kind, id⟩ = some (.mark kind) := if_pos same
        rw [List.filterMap_cons_some entry]
        exact rest
      | other =>
        have entry : Item.entry connId ⟨.other, id⟩ = none := if_pos same
        rw [List.filterMap_cons_none entry]
        exact rest
    · rw [List.filterMap_cons_none (entry_of_ne same)]
      exact rest

theorem take_move {id : Nat} {asks : Bool} (place : s.worker = .take id)
    (careful : s.Careful (.work asks)) :
    (s.line connId).Move (s.shows.bind (Sight.act connId)) ((s.work asks).line connId) := by
  obtain ⟨queue, inflight, parked, worker⟩ := s
  subst place
  simp only [shows, State.work]
  by_cases same : (id : Int) = connId
  · subst same
    have after : (State.mk queue inflight (fun other => if other = id then {} else parked other)
          (.close id (parked id))).line id =
        { line ⟨queue, inflight, parked, .take id⟩ id with
          parked := ∅
          taken := (line ⟨queue, inflight, parked, .take id⟩ id).parked } := by
      refine Line.ext rfl ?_ ?_
      · ext kind
        simp [line]
      · ext kind
        simp [line, Taken]
    rw [after]
    exact .take rfl (values_of_clear careful)
  · have after : (State.mk queue inflight (fun other => if other = id then {} else parked other)
          (.close id (parked id))).line connId = line ⟨queue, inflight, parked, .take id⟩ connId := by
      refine Line.ext rfl ?_ ?_
      · simp only [line, if_neg (Ne.symm same)]
      · ext kind
        simp [line, Taken, same]
    rw [after]
    exact .still

theorem ran_move {t : State} {id : Int} {kind : Teardown}
    (items : t.held ++ t.queue = s.held ++ s.queue) (parked : t.parked = s.parked)
    (taken : ∀ other, s.Taken connId other ↔ t.Taken connId other ∨ (id = connId ∧ other = kind))
    (gone : ¬ t.Taken id kind) :
    (s.line connId).Move (Sight.act connId (.ran id kind)) (t.line connId) := by
  have entries : (t.line connId).entries = (s.line connId).entries :=
    congrArg (List.filterMap (Item.entry connId)) items
  rw [Sight.act]
  by_cases same : id = connId
  · subst same
    have after : t.line id = { s.line id with taken := (s.line id).taken \ {kind} } := by
      refine Line.ext entries ?_ ?_
      · simp only [line, parked]
      · ext other
        simp only [line, Set.mem_sdiff, Set.mem_ofPred_eq, Set.mem_singleton_iff, taken, true_and]
        constructor
        · intro still_taken
          refine ⟨.inl still_taken, ?_⟩
          rintro rfl
          exact gone still_taken
        · rintro ⟨still_taken | now, other_kind⟩
          · exact still_taken
          · exact absurd now other_kind
    rw [if_pos rfl, after]
    exact .apply ((taken kind).mpr (.inr ⟨rfl, rfl⟩))
  · have after : t.line connId = s.line connId := by
      refine Line.ext entries ?_ ?_
      · simp only [line, parked]
      · ext other
        simp [line, taken, same]
    rw [if_neg same, after]
    exact .still

theorem close_move {id : Nat} {bits : Mask} {asks : Bool} (place : s.worker = .close id bits) :
    (s.line connId).Move (s.shows.bind (Sight.act connId)) ((s.work asks).line connId) := by
  obtain ⟨queue, inflight, parked, worker⟩ := s
  subst place
  obtain ⟨closed, reset⟩ := bits
  simp only [shows, State.work]
  cases closed with
  | false =>
    have after : line ⟨queue, inflight, parked, .close id ⟨false, reset⟩⟩ connId =
        line ⟨queue, inflight, parked, .reset id ⟨false, reset⟩⟩ connId := by
      refine Line.ext rfl rfl ?_
      ext kind
      cases kind <;> simp [line, Taken, Mask.has]
    rw [after]
    exact .still
  | true =>
    refine ran_move rfl rfl ?_ ?_
    · intro kind
      cases kind <;> simp [Taken, Mask.has, go]
    · simp [Taken, go]

theorem closeDone_move {id : Nat} {bits : Mask} {asks : Bool}
    (place : s.worker = .closeDone id bits) :
    (s.line connId).Move (s.shows.bind (Sight.act connId)) ((s.work asks).line connId) := by
  obtain ⟨queue, inflight, parked, worker⟩ := s
  subst place
  simp only [shows, State.work, teardownDone]
  split
  · exact .still
  · exact .still

theorem reset_move {id : Nat} {bits : Mask} {asks : Bool} (place : s.worker = .reset id bits) :
    (s.line connId).Move (s.shows.bind (Sight.act connId)) ((s.work asks).line connId) := by
  obtain ⟨queue, inflight, parked, worker⟩ := s
  subst place
  obtain ⟨closed, reset⟩ := bits
  simp only [shows, State.work]
  cases reset with
  | false =>
    have after : line ⟨queue, inflight, parked, .reset id ⟨closed, false⟩⟩ connId =
        line ⟨queue, inflight, parked, .scan (id + 1)⟩ connId := by
      refine Line.ext rfl rfl ?_
      ext kind
      simp [line, Taken]
    rw [after]
    exact .still
  | true =>
    refine ran_move rfl rfl ?_ ?_
    · intro kind
      simp [Taken, go]
    · simp [Taken, go]

theorem work_move_untaken {asks : Bool} (untaken : ∀ id, s.worker ≠ .take id) :
    (s.line connId).Move (s.shows.bind (Sight.act connId)) ((s.work asks).line connId) := by
  cases place : s.worker with
  | receive taken => exact receive_move place
  | handle taken item => exact handle_move place
  | send taken id => exact send_move place
  | park taken id => exact park_move place
  | take id => exact absurd place (untaken id)
  | close id bits => exact close_move place
  | closeDone id bits => exact closeDone_move place
  | reset id bits => exact reset_move place
  | _ =>
    obtain ⟨queue, inflight, parked, worker⟩ := s
    subst place
    simp only [shows, State.work, teardownDone]
    first
      | exact .still
      | (split <;> first | exact .still | (split <;> exact .still))

theorem work_move {asks : Bool} (careful : s.Careful (.work asks)) :
    (s.line connId).Move (s.shows.bind (Sight.act connId)) ((s.work asks).line connId) := by
  by_cases place : ∃ id, s.worker = .take id
  · obtain ⟨id, place⟩ := place
    exact take_move place careful
  · exact work_move_untaken fun id taken => place ⟨id, taken⟩

theorem step_move (tracked : Tracked connId) (careful : s.Careful event) :
    (s.line connId).Move ((s.emit event).bind (Sight.act connId)) ((s.step event).line connId) := by
  cases event with
  | submit call =>
    cases call with
    | bytes id data => exact submitBytes_move careful tracked
    | teardown kind id => exact submitTeardown_move careful tracked
    | other => exact submitOther_move
  | work asks => exact work_move careful

end State
end BenchPod.HwWorker
