import BenchPod.SwdEngine.SwdBatch

/-!
# A target that answers

A target may drive any bit it likes in a cycle: here one that goes by the sequencer's place, and the edges it makes.
-/

namespace BenchPod.SwdEngine

open Engine

variable {half idle : Nat} {ops : List Op} {fed queue : List Byte} {log : List Clock} {e : Engine} {i : Input}
variable {policy : Nat → Nat → Bool} {Kept : List Clock → Core → Prop} {schedule : List (Option Byte)}

/-- The bit of a cycle is the policy's, by the index of the cycle and the read pointer. -/
def Says (policy : Nat → Nat → Bool) (c : Core) (bit : Bool) : Prop := bit = policy c.idx (c.taken % depth)

/-- SWDIO has been as the policy says since the cycle began. -/
def Tells (policy : Nat → Nat → Bool) (e : Engine) : Prop :=
  e.qst = .run → e.clkVal = false → e.dioS0 = policy e.idx e.qptr

/-- An edge without a command, with a byte of a feed or without one. -/
def feedInput (byte : Option Byte) (bit : Bool) : Input :=
  { feedStb := byte.isSome, feedByte := byte.getD 0, dioIn := bit }

/-- The next edge: the target drives the bit of the cycle that follows it. -/
def answer (policy : Nat → Nat → Bool) (e : Engine) (byte : Option Byte) : Input :=
  let next := e.tick (feedInput byte false)
  feedInput byte (policy next.idx next.qptr)

/-- Edge after edge. -/
def answers (policy : Nat → Nat → Bool) : Engine → List (Option Byte) → List Input
  | _, [] => []
  | e, byte :: schedule => answer policy e byte :: answers policy (e.tick (answer policy e byte)) schedule

theorem fed_feedInput (byte : Option Byte) (bit : Bool) : (feedInput byte bit).fed = byte := by
  cases byte <;> rfl

theorem plain_feedInput (byte : Option Byte) (bit : Bool) : (feedInput byte bit).Plain := ⟨rfl, rfl, rfl, rfl, rfl⟩

theorem map_answers (e : Engine) (schedule : List (Option Byte)) :
    (answers policy e schedule).map Input.fed = schedule := by
  induction schedule generalizing e with
  | nil => rfl
  | cons byte schedule ih => rw [answers, List.map_cons, ih, answer, fed_feedInput]

theorem filterMap_answers (e : Engine) (schedule : List (Option Byte)) :
    (answers policy e schedule).filterMap Input.fed = schedule.filterMap id := by
  conv_rhs => rw [← @map_answers policy e schedule, List.filterMap_map]
  rfl

theorem plain_answers (e : Engine) (schedule : List (Option Byte)) : ∀ i ∈ answers policy e schedule, i.Plain := by
  induction schedule generalizing e with
  | nil => exact fun _ member => nomatch member
  | cons byte schedule ih =>
    intro i member
    rw [answers, List.mem_cons] at member
    obtain rfl | later := member
    · exact plain_feedInput byte _
    · exact ih _ i later

theorem answers_append (e : Engine) (front back : List (Option Byte)) :
    answers policy e (front ++ back) =
      answers policy e front ++ answers policy (swdWire.run e (answers policy e front)) back := by
  induction front generalizing e with
  | nil => rfl
  | cons byte front ih =>
    rw [List.cons_append, answers, answers, ih]
    rfl

theorem tick_place (mode : e.IsSwd) (byte : Option Byte) (bit : Bool) :
    (e.tick (feedInput byte bit)).idx = (e.tick (feedInput byte false)).idx ∧
      (e.tick (feedInput byte bit)).qptr = (e.tick (feedInput byte false)).qptr := by
  have plain (bit : Bool) := plain_feedInput byte bit
  cases resting : e.qst with
  | idle =>
    cases held : !e.qstop && e.qready with
    | false => rw [tick_wait mode.run (plain bit) resting held, tick_wait mode.run (plain false) resting held]; exact ⟨rfl, rfl⟩
    | true =>
      rw [Bool.and_eq_true, Bool.not_eq_true'] at held
      rw [tick_start mode.run (plain bit) resting held.2 held.1, tick_start mode.run (plain false) resting held.2 held.1]
      exact ⟨rfl, rfl⟩
  | run =>
    obtain passed | left := Nat.eq_zero_or_pos e.hcnt
    · obtain high | low := Bool.eq_false_or_eq_true e.ph
      · cases moves : e.qByteIn && !e.qready with
        | false =>
          rw [tick_fall mode.run (plain bit) resting passed high moves, tick_fall mode.run (plain false) resting passed high moves,
            fall_eq mode.spi, fall_eq mode.spi]
          exact ⟨rfl, rfl⟩
        | true =>
          rw [tick_stall mode.run (plain bit) resting passed high moves, tick_stall mode.run (plain false) resting passed high moves]
          exact ⟨rfl, rfl⟩
      · rw [tick_rise mode.run (plain bit) resting passed low, tick_rise mode.run (plain false) resting passed low, rise_eq, rise_eq]
        exact ⟨rfl, rfl⟩
    · rw [tick_count mode.run (plain bit) resting (Nat.ne_of_gt left),
        tick_count mode.run (plain false) resting (Nat.ne_of_gt left)]
      exact ⟨rfl, rfl⟩

theorem Stands.place_low (stands : Stands half queue fed (Says policy) Kept log e) (mode : e.IsSwd) (running : e.qst = .run)
    (low : e.clkVal = false) (plain : i.Plain) : (e.tick i).idx = e.idx ∧ (e.tick i).qptr = e.qptr := by
  have level : e.ph = false := by
    cases stands with
    | idle c kept shows rest behind primed early =>
      rw [shows.running, rest, if_neg Bool.false_ne_true] at running
      exact nomatch running
    | low c kept goes shows going behind some phase level count settled => exact phase
    | high c bit before split fits kept goes shows going behind some high level count primed =>
      exact absurd (level.symm.trans low) Bool.noConfusion
  obtain passed | left := Nat.eq_zero_or_pos e.hcnt
  · rw [tick_rise mode.run plain running passed level, rise_eq]
    exact ⟨rfl, rfl⟩
  · rw [tick_count mode.run plain running (Nat.ne_of_gt left)]
    exact ⟨rfl, rfl⟩

theorem tells_answer (mode : e.IsSwd) (byte : Option Byte) : Tells policy (e.tick (answer policy e byte)) := by
  intro _ _
  have line := congrArg Outer.dioS0 (outer_tick mode (plain_feedInput byte (answer policy e byte).dioIn))
  obtain ⟨index, pointer⟩ := tick_place mode byte (answer policy e byte).dioIn
  have same : feedInput byte (answer policy e byte).dioIn = answer policy e byte := rfl
  rw [same] at line index pointer
  rw [index, pointer]
  exact line

theorem Stands.obeys_answer (stands : Stands half queue fed (Says policy) Kept log e) (mode : e.IsSwd)
    (tells : Tells policy e) (byte : Option Byte) : Obeys (Says policy) e (answer policy e byte) := by
  have drives (running : e.qst = .run) (low : e.clkVal = false) : (answer policy e byte).dioIn = policy e.idx e.qptr := by
    obtain ⟨index, pointer⟩ := stands.place_low mode running low (plain_feedInput byte false)
    rw [← index, ← pointer]
    rfl
  constructor
  · exact fun running low => (drives running low).trans (tells running low).symm
  · intro c shows running low
    rw [Says, ← shows.idx, ← shows.taken]
    exact drives running low

theorem Stands.obeys_answers (stands : Stands half queue fed (Says policy) Kept log e)
    (keeps : Keeps queue (45 + idle) (Says policy) Kept) (link : Link half idle queue fed e) (short : queue.length ≤ depth)
    (least : 2 ≤ half) (most : half ≤ 63) (tells : Tells policy e) (sent : fed ++ schedule.filterMap id <+: queue) :
    swdWire.Along (Obeys (Says policy)) e (answers policy e schedule) := by
  induction schedule generalizing fed log e with
  | nil => exact trivial
  | cons byte schedule ih =>
    have plain : (answer policy e byte).Plain := plain_feedInput byte _
    have brought : (answer policy e byte).fed = byte := fed_feedInput byte _
    have obeys := stands.obeys_answer link.mode tells byte
    have split : (byte :: schedule).filterMap id = byte.toList ++ schedule.filterMap id := by cases byte <;> rfl
    rw [split, ← List.append_assoc] at sent
    have first : fed ++ (answer policy e byte).fed.toList <+: queue := by
      rw [brought]
      exact (List.prefix_append _ _).trans sent
    have step := stands.step keeps link least most plain obeys
    have linked := link.tick short first plain
    rw [brought] at step linked
    exact ⟨obeys, ih step linked (tells_answer link.mode byte) sent⟩

/-- The edge a feed starts on. -/
def feedBegin : Input := { feedBegin := true, feedQ := true }

/-- A queue byte by byte, and then edges enough for it. -/
def feedSchedule (queue : List Byte) : List (Option Byte) := queue.map some ++ List.replicate swdqIdleTimeout none

/-- The feed of a queue to a target that answers. -/
def targetVisit (policy : Nat → Nat → Bool) (e : Engine) (queue : List Byte) : Visit :=
  ⟨feedBegin, answers policy (e.tick feedBegin) (feedSchedule queue), []⟩

theorem filterMap_some (queue : List Byte) : (queue.map some).filterMap id = queue := by
  rw [List.filterMap_map]
  exact List.filterMap_some

theorem filterMap_feedSchedule (queue : List Byte) : (feedSchedule queue).filterMap id = queue := by
  rw [feedSchedule, List.filterMap_append, filterMap_some, List.filterMap_replicate_of_none rfl, List.append_nil]

theorem SwdReady.targetVisit (ready : SwdReady half idle e) (least : 2 ≤ half) (most : half ≤ 63) (slack : idle ≤ 31)
    (short : (queueBytes ops).length ≤ depth) (few : readCount ops ≤ swdqReadsMax) (policy : Nat → Nat → Bool) :
    (targetVisit policy e (queueBytes ops)).Serves (queueBytes ops) e ∧
      swdWire.Along (Suits (Says policy)) e (feedBegin :: (targetVisit policy e (queueBytes ops)).ticks) := by
  have begins : feedBegin.Begin := ⟨rfl, rfl, rfl, rfl, rfl, rfl⟩
  have keeps : Keeps (queueBytes ops) (45 + idle) (Says policy) fun _ _ => True := fun _ _ _ _ _ _ => trivial
  obtain ⟨-, link, stands⟩ :=
    @SwdReady.begin half idle (queueBytes ops) e feedBegin (Says policy) (fun _ _ => True) ready begins rfl trivial
  have rests : (e.tick feedBegin).qst = .idle := congrArg Engine.qst (tick_begin begins ready.held)
  have tells : Tells policy (e.tick feedBegin) := fun running => nomatch rests.symm.trans running
  have sent : [] ++ (feedSchedule (queueBytes ops)).filterMap id <+: queueBytes ops :=
    ⟨[], by rw [List.append_nil, List.nil_append, filterMap_feedSchedule]⟩
  have obeys := stands.obeys_answers keeps link short least most tells sent
  have still : e.qst = .run → False := fun running => nomatch ready.rest.symm.trans running
  have feed : QueueFeed (queueBytes ops) e feedBegin (SwdEngine.targetVisit policy e (queueBytes ops)).ticks := by
    refine ⟨begins, rfl, plain_answers _ _, ?_, fun running => (still running).elim, obeys.imp swdWire And.left⟩
    rw [SwdEngine.targetVisit, filterMap_answers, filterMap_feedSchedule]
  refine ⟨⟨feed, ?_, fun _ member => nomatch member⟩, fun _ _ running => (still running).elim, obeys.imp swdWire And.right⟩
  have split := @answers_append policy (e.tick feedBegin) ((queueBytes ops).map some) (List.replicate swdqIdleTimeout none)
  have ticks : (SwdEngine.targetVisit policy e (queueBytes ops)).ticks = _ := split
  rw [ticks] at feed
  rw [Visit.status, ticks]
  refine feed.ends ready least most slack short few ?_ ?_
  · rw [filterMap_answers, filterMap_some]
  · have length (e : Engine) (schedule : List (Option Byte)) : (answers policy e schedule).length = schedule.length := by
      rw [← List.length_map Input.fed, map_answers]
    rw [length, List.length_replicate]
    exact ticksForQueue_le short most slack

end BenchPod.SwdEngine
