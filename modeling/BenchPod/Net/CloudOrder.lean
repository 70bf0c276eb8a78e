import BenchPod.Net.CloudRx
import Mathlib.Data.List.Induction

/-!
# Frames of the cloud link in order

Every byte that arrived is in a frame that was handled, in the buffer or still with the TLS layer, and
what was handed to the worker is what the handled frames say, one after the other.
-/

namespace BenchPod.Cloud

open Json Command

/-! ## Frames at the front of a buffer -/

theorem parsePayload_eq_frame {b0 opcode : Byte} {offset size consumed : Nat} {body payload : List Byte}
    (found : parsePayload b0 offset size body = .frame opcode payload consumed) :
    ∃ tail, body = payload ++ tail ∧ consumed = offset + payload.length ∧
      ∀ tail', parsePayload b0 offset size (payload ++ tail') = .frame opcode payload consumed := by
  unfold parsePayload at found
  split at found
  · cases found
  · rename_i whole
    injection found with opcode_eq payload_eq consumed_eq
    have length : payload.length = size := by
      rw [← payload_eq, List.length_take]
      omega
    refine ⟨body.drop size, ?_, ?_, ?_⟩
    · rw [← payload_eq, List.take_append_drop]
    · rw [← consumed_eq, length]
    · intro tail'
      have enough : ¬(payload ++ tail').length < size := by
        rw [List.length_append]
        omega
      rw [parsePayload, if_neg enough, opcode_eq, consumed_eq, ← length, List.take_left]

/-- A frame is found by its own bytes, whatever follows them. -/
theorem wsParseFrame_eq_frame {buf payload : List Byte} {opcode : Byte} {consumed : Nat}
    (found : wsParseFrame buf = .frame opcode payload consumed) :
    2 ≤ consumed ∧ consumed ≤ buf.length ∧
      ∀ tail, wsParseFrame (buf.take consumed ++ tail) = .frame opcode payload consumed := by
  suffices ∃ head tail, buf = head ++ payload ++ tail ∧ 2 ≤ head.length ∧ consumed = head.length + payload.length ∧
      ∀ tail', wsParseFrame (head ++ payload ++ tail') = .frame opcode payload consumed by
    obtain ⟨head, tail, rfl, two, rfl, again⟩ := this
    refine ⟨by omega, by simp, fun tail' => ?_⟩
    rw [← List.length_append, List.take_left, List.length_append]
    exact again tail'
  rcases buf with _ | ⟨b0, _ | ⟨b1, rest⟩⟩
  · cases found
  · cases found
  · rw [wsParseFrame] at found
    split_ifs at found with masked reserved part two short eight short' big
    · obtain ⟨tail, split, consumed_eq, again⟩ := parsePayload_eq_frame found
      have length : (rest.take 2).length = 2 := List.length_take_of_le (Nat.le_of_not_lt short)
      refine ⟨b0 :: b1 :: rest.take 2, tail, ?_, by simp, by simp [length, consumed_eq], fun tail' => ?_⟩
      · rw [List.append_assoc, ← split]
        simp
      · have longer : ¬(rest.take 2 ++ (payload ++ tail')).length < 2 := by
          rw [List.length_append]
          omega
        rw [List.append_assoc, List.cons_append, List.cons_append, wsParseFrame, if_neg masked,
          if_neg reserved, if_neg part, if_pos two, if_neg longer, List.take_left' length,
          List.drop_left' length, again]
    · obtain ⟨tail, split, consumed_eq, again⟩ := parsePayload_eq_frame found
      have length : (rest.take 8).length = 8 := List.length_take_of_le (Nat.le_of_not_lt short')
      refine ⟨b0 :: b1 :: rest.take 8, tail, ?_, by simp, by simp [length, consumed_eq], fun tail' => ?_⟩
      · rw [List.append_assoc, ← split]
        simp
      · have longer : ¬(rest.take 8 ++ (payload ++ tail')).length < 8 := by
          rw [List.length_append]
          omega
        rw [List.append_assoc, List.cons_append, List.cons_append, wsParseFrame, if_neg masked,
          if_neg reserved, if_neg part, if_neg two, if_pos eight, if_neg longer, List.take_left' length,
          if_neg big, List.drop_left' length, again]
    · obtain ⟨tail, rfl, consumed_eq, again⟩ := parsePayload_eq_frame found
      refine ⟨[b0, b1], tail, by simp, by simp, by simp [consumed_eq], fun tail' => ?_⟩
      rw [List.append_assoc, List.cons_append, List.cons_append, wsParseFrame, if_neg masked,
        if_neg reserved, if_neg part, if_neg two, if_neg eight, List.nil_append, again]

/-! ## Handlers that may be asked again -/

/-- A handler that changes nothing when the queue refuses it, and otherwise does what it does when the
queue takes everything. -/
def Fair (s : Sessions) (handler : Answer → Sessions × Bool) : Prop :=
  ∀ a, handler a = (s, false) ∧ a.accepts = false ∨ handler a = handler { busy := a.busy } ∧ (handler a).2 = true

section fair

variable {s : Sessions} (json : List Byte)

theorem fair_of_taken {handler : Answer → Sessions} (same : ∀ a, handler a = handler { busy := a.busy }) :
    Fair s fun a => (handler a, true) :=
  fun a => .inr ⟨congrArg (·, true) (same a), rfl⟩

theorem submit_fair (item : Took) : Fair s fun a => s.submit a item := by
  intro a
  obtain full | room : a.accepts = false ∨ a.accepts = true := by cases a.accepts <;> simp
  · exact .inl ⟨if_neg (by rw [full]; exact Bool.false_ne_true), full⟩
  · have taken : s.submit a item = ({ s with log := s.log ++ [item] }, true) := if_pos room
    exact .inr ⟨taken, congrArg Prod.snd taken⟩

theorem handleTunnelData_fair : Fair s fun a => s.handleTunnelData a json := by
  unfold Sessions.handleTunnelData
  split
  · exact fair_of_taken fun _ => rfl
  · split
    · exact fair_of_taken fun _ => rfl
    · dsimp only
      split_ifs
      · exact fair_of_taken fun _ => rfl
      · exact fair_of_taken fun _ => rfl
      · exact submit_fair _

theorem handleOtaBegin_fair : Fair s fun a => s.handleOtaBegin a json := by
  unfold Sessions.handleOtaBegin
  split
  · dsimp only
    split_ifs
    · exact fair_of_taken fun _ => rfl
    · exact submit_fair _
  · exact fair_of_taken fun _ => rfl

theorem handleOtaData_fair : Fair s fun a => s.handleOtaData a json := by
  unfold Sessions.handleOtaData
  split
  · exact fair_of_taken fun _ => rfl
  · dsimp only
    split_ifs
    · exact fair_of_taken fun _ => rfl
    · exact submit_fair _

theorem handleTextFrame_fair (payload : List Byte) : Fair s fun a => s.handleTextFrame a payload := by
  unfold Sessions.handleTextFrame
  dsimp only
  split_ifs
  · exact fair_of_taken fun _ => rfl
  · exact handleTunnelData_fair _
  · exact fair_of_taken fun _ => rfl
  · exact fair_of_taken fun _ => rfl
  · exact handleOtaBegin_fair _
  · exact handleOtaData_fair _
  · exact submit_fair _
  · exact submit_fair _
  · exact submit_fair _
  · exact fair_of_taken fun _ => rfl

end fair

/-! ## What was handled -/

/-- A frame that was handled, and what the worker was busy with then. -/
structure Turn where
  raw : List Byte
  opcode : Byte
  payload : List Byte
  busy : Slot → Bool

namespace Turn

/-- The bytes are one frame. -/
def Whole (turn : Turn) : Prop := wsParseFrame turn.raw = .frame turn.opcode turn.payload turn.raw.length

/-- The frame handled while the queue has room. -/
def take (s : Sessions) (turn : Turn) : Sessions :=
  if turn.opcode = 1 then (s.handleTextFrame { busy := turn.busy } turn.payload).1 else s

end Turn

/-- The frames in order, then what is left in the buffer, then what the TLS layer has. -/
structure Kept (s : Link) (turns : List Turn) : Prop where
  sent : s.sent = turns.flatMap Turn.raw ++ s.rx ++ s.wire
  whole : ∀ turn ∈ turns, turn.Whole
  sessions : s.sessions = turns.foldl Turn.take {}

namespace Link

/-- The link is up and not about to be dropped. -/
def Stays (s : Link) : Prop := s.up = true ∧ s.overflow = false

end Link

section kept

variable {s : Link} {turns : List Turn}

theorem not_stays_backoff (s : Link) : ¬s.backoff.Stays := fun stays => Bool.false_ne_true stays.1

theorem Kept.consume (kept : Kept s turns) {turn : Turn} {consumed : Nat}
    (found : wsParseFrame s.rx = .frame turn.opcode turn.payload consumed)
    (raw : turn.raw = s.rx.take consumed) :
    Kept ({ s with sessions := turn.take s.sessions }.rxConsume consumed) (turns ++ [turn]) := by
  obtain ⟨-, within, again⟩ := wsParseFrame_eq_frame found
  refine ⟨?_, ?_, ?_⟩
  · have split : s.rx = turn.raw ++ s.rx.drop consumed := by rw [raw, List.take_append_drop]
    calc s.sent = turns.flatMap Turn.raw ++ s.rx ++ s.wire := kept.sent
      _ = turns.flatMap Turn.raw ++ (turn.raw ++ s.rx.drop consumed) ++ s.wire := by rw [← split]
      _ = (turns ++ [turn]).flatMap Turn.raw ++ s.rx.drop consumed ++ s.wire := by simp
  · intro other member
    obtain earlier | last := List.mem_append.mp member
    · exact kept.whole other earlier
    · obtain rfl := List.mem_singleton.mp last
      have length : other.raw.length = consumed := by rw [raw, List.length_take_of_le within]
      have whole := again []
      rw [List.append_nil, ← raw, ← length] at whole
      exact whole
  · rw [List.foldl_append, ← kept.sessions]
    rfl

/-- What the loop does with the first frame: it leaves it, gives the link up, or takes it. -/
theorem processWsFrames_frame (answers : Nat → Answer) (fuel n : Nat) {opcode : Byte} {payload : List Byte}
    {consumed : Nat} (found : wsParseFrame s.rx = .frame opcode payload consumed) :
    (Link.processWsFrames answers (fuel + 1) n s = s ∧ (answers n).accepts = false) ∨
      ¬(Link.processWsFrames answers (fuel + 1) n s).Stays ∨
      ∃ turn : Turn, turn.opcode = opcode ∧ turn.payload = payload ∧ turn.raw = s.rx.take consumed ∧
        Link.processWsFrames answers (fuel + 1) n s = Link.processWsFrames answers fuel (n + 1)
          ({ s with sessions := turn.take s.sessions }.rxConsume consumed) := by
  let turn : Turn := ⟨s.rx.take consumed, opcode, payload, (answers n).busy⟩
  rw [Link.processWsFrames, found]
  dsimp only
  by_cases text : opcode = 1
  · rw [if_pos text]
    obtain ⟨refused, full⟩ | ⟨same, taken⟩ := handleTextFrame_fair (s := s.sessions) payload (answers n)
    · dsimp only at refused
      rw [refused]
      exact .inl ⟨rfl, full⟩
    · dsimp only at same taken
      have took : turn.take s.sessions = (s.sessions.handleTextFrame (answers n) payload).1 := by
        rw [same]
        exact if_pos text
      rw [if_neg (by rw [taken]; decide)]
      right
      by_cases drops : (answers n).drops
      · rw [if_pos drops]
        exact .inl (not_stays_backoff _)
      · rw [if_neg drops, ← took]
        exact .inr ⟨turn, rfl, rfl, rfl, rfl⟩
  · have same : turn.take s.sessions = s.sessions := if_neg text
    rw [if_neg text]
    right
    by_cases close : opcode = 8
    · rw [if_pos close]
      exact .inl (not_stays_backoff _)
    · rw [if_neg close]
      refine .inr ⟨turn, rfl, rfl, rfl, ?_⟩
      rw [same]

theorem processWsFrames_kept (answers : Nat → Answer) (fuel n : Nat) (kept : Kept s turns)
    (stays : (Link.processWsFrames answers fuel n s).Stays) :
    ∃ turns, Kept (Link.processWsFrames answers fuel n s) turns := by
  induction fuel generalizing s turns n with
  | zero => exact ⟨turns, kept⟩
  | succ fuel ih =>
    cases found : wsParseFrame s.rx with
    | more =>
      rw [Link.processWsFrames, found]
      exact ⟨turns, kept⟩
    | fragmented =>
      rw [Link.processWsFrames, found] at stays
      exact absurd stays (not_stays_backoff _)
    | bad =>
      rw [Link.processWsFrames, found] at stays
      exact absurd stays (not_stays_backoff _)
    | frame opcode payload consumed =>
      obtain ⟨left, -⟩ | gone | ⟨turn, rfl, rfl, raw, takes⟩ := processWsFrames_frame answers fuel n found
      · rw [left]
        exact ⟨turns, kept⟩
      · exact absurd stays gone
      · rw [takes] at stays ⊢
        exact ih (n + 1) (kept.consume found raw) stays

theorem processWsFrames_all {answers : Nat → Answer} (room : ∀ n, (answers n).accepts = true) {fuel : Nat}
    (enough : s.rx.length < fuel) (n : Nat) (stays : (Link.processWsFrames answers fuel n s).Stays) :
    wsParseFrame (Link.processWsFrames answers fuel n s).rx = .more := by
  induction fuel generalizing s n with
  | zero => cases enough
  | succ fuel ih =>
    cases found : wsParseFrame s.rx with
    | more =>
      rw [Link.processWsFrames, found]
      exact found
    | fragmented =>
      rw [Link.processWsFrames, found] at stays
      exact absurd stays (not_stays_backoff _)
    | bad =>
      rw [Link.processWsFrames, found] at stays
      exact absurd stays (not_stays_backoff _)
    | frame opcode payload consumed =>
      obtain ⟨-, full⟩ | gone | ⟨turn, rfl, rfl, -, takes⟩ := processWsFrames_frame answers fuel n found
      · exact absurd (room n) (by rw [full]; exact Bool.false_ne_true)
      · exact absurd stays gone
      · rw [takes] at stays ⊢
        obtain ⟨two, within, -⟩ := wsParseFrame_eq_frame found
        refine ih ?_ (n + 1) stays
        have shorter : (s.rx.drop consumed).length < fuel := by
          rw [List.length_drop]
          omega
        exact shorter

theorem poll_drains {answers : Nat → Answer} (room : ∀ n, (answers n).accepts = true)
    (stays : (s.step (.poll answers)).Stays) : wsParseFrame (s.step (.poll answers)).rx = .more := by
  by_cases up : s.up = true
  · have stepped : s.step (.poll answers) = s.poll answers := if_pos up
    rw [stepped, Link.poll] at stays ⊢
    split_ifs at stays ⊢
    · exact absurd stays (not_stays_backoff _)
    · exact processWsFrames_all room (Nat.lt_succ_self _) 0 stays
  · have stepped : s.step (.poll answers) = s := if_neg up
    rw [stepped] at stays
    exact absurd stays.1 up

theorem rxChain_stays (chain : List Nat) (bytes : List Byte) (enough : chain.sum ≤ bytes.length)
    (stays : (Link.rxChain s chain bytes).overflow = false) :
    Link.rxChain s chain bytes = { s with rx := s.rx ++ bytes.take chain.sum } := by
  have flagged : ∀ (chain : List Nat) (bytes : List Byte) (s : Link), s.overflow = true →
      (Link.rxChain s chain bytes).overflow = true := by
    intro chain
    induction chain with
    | nil => exact fun _ _ overflow => overflow
    | cons size chain ih =>
      intro bytes s overflow
      refine ih _ _ ?_
      rw [Link.rxAppend]
      split_ifs
      · rfl
      · exact overflow
  induction chain generalizing s bytes with
  | nil => simp [Link.rxChain]
  | cons size chain ih =>
    rw [List.sum_cons] at enough
    rw [Link.rxChain] at stays ⊢
    have fits : s.rxAppend (bytes.take size) = { s with rx := s.rx ++ bytes.take size } := by
      refine if_neg fun full => ?_
      rw [Link.rxAppend, if_pos full] at stays
      rw [flagged _ _ _ rfl] at stays
      cases stays
    have rest : chain.sum ≤ (bytes.drop size).length := by
      rw [List.length_drop]
      omega
    rw [fits] at stays ⊢
    rw [ih _ rest stays, List.append_assoc, List.sum_cons, List.take_add]

/-- A step that leaves the link up keeps everything in order. -/
theorem step_kept (event : Event) (kept : s.Stays → ∃ turns, Kept s turns) (stays : (s.step event).Stays) :
    ∃ turns, Kept (s.step event) turns := by
  by_cases up : s.up = true
  · cases event with
    | arrive bytes =>
      have stepped : s.step (.arrive bytes) = { s with wire := s.wire ++ bytes, sent := s.sent ++ bytes } := if_pos up
      rw [stepped] at stays ⊢
      obtain ⟨turns, kept⟩ := kept stays
      refine ⟨turns, ?_, kept.whole, kept.sessions⟩
      rw [kept.sent, List.append_assoc]
    | offer chain =>
      have stepped : s.step (.offer chain) = s.recvCb chain := if_pos up
      rw [stepped] at stays ⊢
      rw [Link.recvCb] at stays ⊢
      split_ifs at stays ⊢ with short refuses
      · exact kept stays
      · exact kept stays
      · have taken := rxChain_stays chain s.wire (Nat.le_of_not_lt short) stays.2
        rw [taken] at stays ⊢
        obtain ⟨turns, kept⟩ := kept stays
        refine ⟨turns, ?_, kept.whole, kept.sessions⟩
        calc s.sent = turns.flatMap Turn.raw ++ s.rx ++ s.wire := kept.sent
          _ = turns.flatMap Turn.raw ++ s.rx ++ (s.wire.take chain.sum ++ s.wire.drop chain.sum) := by
              rw [List.take_append_drop]
          _ = turns.flatMap Turn.raw ++ (s.rx ++ s.wire.take chain.sum) ++ s.wire.drop chain.sum := by
              simp only [List.append_assoc]
    | poll answers =>
      have stepped : s.step (.poll answers) = s.poll answers := if_pos up
      rw [stepped] at stays ⊢
      rw [Link.poll] at stays ⊢
      split_ifs at stays ⊢ with overflow
      · exact absurd stays (not_stays_backoff _)
      · obtain ⟨turns, kept⟩ := kept ⟨up, Bool.not_eq_true _ ▸ overflow⟩
        exact processWsFrames_kept answers _ 0 kept stays
  · have stepped : s.step event = s := by cases event <;> exact if_neg up
    rw [stepped] at stays
    exact absurd stays.1 up

theorem run_kept (events : List Event) (stays : (Link.run events).Stays) : ∃ turns, Kept (Link.run events) turns := by
  induction events using List.reverseRecOn with
  | nil => exact ⟨[], rfl, by simp, rfl⟩
  | append_singleton events event ih =>
    have last : Link.run (events ++ [event]) = (Link.run events).step event := List.foldl_concat ..
    rw [last] at stays ⊢
    exact step_kept event ih stays

end kept

end BenchPod.Cloud
