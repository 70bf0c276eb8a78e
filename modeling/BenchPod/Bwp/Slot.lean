import BenchPod.Bwp.Signer
import BenchPod.Library.Emitter

/-!
# One request at a time

The slot of the one request is started, sent again a bounded number of times and left once.  A signed
request is answered only under the key and the counter of its last send.
-/

namespace BenchPod.Bwp

/-- What happens to the slot. -/
inductive Act where
  | start (t : Transmission)
  | resend (t : Transmission)
  | leave (how : Leave)
  deriving DecidableEq

/-- The frame sent. -/
def Act.transmission : Act → Option Transmission
  | .start t => some t
  | .resend t => some t
  | .leave _ => none

/-- The sends of the request in the slot, after one more happening that is in order. -/
def Act.next : Option Nat → Act → Option (Option Nat)
  | none, .start _ => some (some 1)
  | some sends, .resend _ => if sends ≤ wbTries then some (some (sends + 1)) else none
  | some _, .leave _ => some none
  | _, _ => none

/-- The last frame sent. -/
def latest (acts : List Act) : Option Transmission := (acts.filterMap Act.transmission).getLast?

namespace Client

/-- What happens to the slot in a turn. -/
def act (b : Client) (turn : Turn) : Option Act :=
  match turn.left with
  | some how => some (.leave how)
  | none => turn.sent.map fun t => if b.reqState = .pending then .resend t else .start t

/-- The client and what happens to its slot. -/
def slot (prims : Primitives) (deriveSecret : List Byte → Option (List Byte)) :
    Emitter Client ClientEvent Act where
  step b event := (b.turn prims deriveSecret event).client
  emit b event := b.act (b.turn prims deriveSecret event)

/-- The sends of the request in the slot. -/
def outstanding (b : Client) : Option Nat :=
  if b.reqState = .pending then some b.reqTries else none

/-- What the slot holds of its request. -/
structure Held where
  pending : Bool
  seq : Half
  counter : Word
  signed : Bool
  tries : Nat
  resynced : Bool

def held (b : Client) : Held where
  pending := b.reqState == .pending
  seq := b.reqSeq
  counter := b.reqCounter
  signed := b.reqSigned
  tries := b.reqTries
  resynced := b.reqResynced

/-- The frame is the one the slot holds: its sequence number and, when signed, its counter. -/
def Held.Sent (held : Held) (t : Transmission) : Prop :=
  t.seq = held.seq ∧ t.signature.map (·.counter) = if held.signed then some held.counter else none

/-- What a turn can do to the slot. -/
inductive Moves (b : Client) (turn : Turn) : Prop where
  | rests (silent : turn.sent = none) (stays : turn.left = none) (held : turn.client.held = b.held)
  | starts {t : Transmission} (free : b.reqState ≠ .pending) (sent : turn.sent = some t)
      (stays : turn.left = none) (pending : turn.client.reqState = .pending)
      (tries : turn.client.reqTries = 1) (latest : turn.client.held.Sent t)
      (keyed : turn.client.reqSigned = true → b.haveKey = true)
  | resends {t : Transmission} (busy : b.reqState = .pending) (sent : turn.sent = some t)
      (stays : turn.left = none) (pending : turn.client.reqState = .pending)
      (tries : turn.client.reqTries = b.reqTries + 1) (latest : turn.client.held.Sent t)
      (signed : turn.client.reqSigned = b.reqSigned)
      (bounded : b.reqTries < wbTries ∨ b.reqResynced = false ∧ turn.client.reqResynced = true)
  | leaves {how : Leave} (busy : b.reqState = .pending) (silent : turn.sent = none)
      (left : turn.left = some how) (free : turn.client.reqState ≠ .pending)

variable {prims : Primitives} {deriveSecret : List Byte → Option (List Byte)} {b : Client}

theorem resend_latest (prims : Primitives) (b : Client) (now : Word) :
    ∃ t, (b.resend prims now).sent = some t ∧ (b.resend prims now).client.held.Sent t := by
  obtain ⟨t, sent, seq_eq, signature⟩ := b.resend_sent prims now
  refine ⟨t, sent, ?_⟩
  rw [resend_client]
  refine ⟨seq_eq, ?_⟩
  rw [signature]
  simp only [held]
  cases b.reqSigned <;> rfl

theorem resend_moves {again : Client} (busy : b.reqState = .pending) (now : Word)
    (state : again.reqState = .pending) (tries : again.reqTries = b.reqTries)
    (signed : again.reqSigned = b.reqSigned)
    (bounded : b.reqTries < wbTries ∨ b.reqResynced = false ∧ again.reqResynced = true) :
    b.Moves (again.resend prims now) := by
  obtain ⟨t, sent, latest⟩ := again.resend_latest prims now
  have client := again.resend_client prims now
  refine .resends busy sent rfl ?_ ?_ latest ?_ ?_
  · rw [client]
    exact state
  · rw [client]
    exact congrArg (· + 1) tries
  · rw [client]
    exact signed
  · rw [client]
    exact bounded

theorem startReq_moves {fresh : Client} (free : b.reqState ≠ .pending) (type : Byte)
    (body : List Byte) (timeout : Word) (internal : Bool) (now : Word)
    (keyed : fresh.bridgePaired = true → b.haveKey = true) :
    b.Moves (fresh.startReq prims type body timeout internal now) := by
  simp only [startReq]
  generalize again_eq : ({ fresh with
      reqState := .pending
      reqInternal := internal
      reqType := type
      seq := _
      reqSeq := _
      reqBody := body
      reqTimeout := timeout
      reqTries := 0
      reqResynced := false
      reqSigned := fresh.bridgePaired
      reply := {} } : Client) = again
  obtain ⟨t, sent, latest⟩ := again.resend_latest prims now
  have client := again.resend_client prims now
  subst again_eq
  refine .starts free sent rfl ?_ ?_ latest ?_
  · rw [client]
  · rw [client]
  · rw [client]
    exact keyed

theorem rests_of_held {turn : Turn} (silent : turn.sent = none) (stays : turn.left = none)
    (same : turn.client.held = b.held := by rfl) : b.Moves turn :=
  .rests silent stays same

theorem finish_moves {turn : Turn} {last : Client} {state : ReqState} {how : Leave}
    (busy : b.reqState = .pending) (silent : turn.sent = none) (left : turn.left = some how)
    (client : turn.client = last.finish state) (ends : state ≠ .pending) : b.Moves turn := by
  refine .leaves busy silent left ?_
  rw [client]
  simp only [finish]
  split
  · exact ReqState.noConfusion
  · exact ends

theorem poll_moves (now : Word) : b.Moves (b.poll prims now) := by
  unfold poll
  split
  · rename_i busy
    split
    · exact finish_moves busy rfl rfl rfl ReqState.noConfusion
    · split
      · split
        · rename_i early
          exact resend_moves busy now busy rfl rfl (.inl early)
        · exact finish_moves busy rfl rfl rfl ReqState.noConfusion
      · exact rests_of_held rfl rfl
  · rename_i free
    split
    · exact rests_of_held rfl rfl
    · split
      · rename_i unpaired
        split
        · refine startReq_moves free _ _ _ _ _ fun paired => ?_
          simp only [bridgePaired] at unpaired paired
          exact absurd (unpaired.symm.trans paired) Bool.false_ne_true
        · exact rests_of_held rfl rfl
      · split
        · rename_i due
          exact startReq_moves free _ _ _ _ _ fun _ => due.1
        · exact rests_of_held rfl rfl

theorem startRequest_moves (type : Byte) (body : List Byte) (timeout now : Word) :
    b.Moves (b.startRequest prims type body timeout now).1 := by
  unfold startRequest
  split
  · exact rests_of_held rfl rfl
  · split
    · exact rests_of_held rfl rfl
    · rename_i usable
      split
      · exact rests_of_held rfl rfl
      · rename_i idle
        split
        · exact rests_of_held rfl rfl
        · split
          · exact rests_of_held rfl rfl
          · refine startReq_moves ?_ _ _ _ _ _ fun paired => ?_
            · rw [not_not.mp idle]
              exact ReqState.noConfusion
            · simp only [not_or, not_and, Bool.not_eq_false] at usable
              exact usable.2 paired

theorem request_moves (type : Byte) (body : List Byte) (timeout now : Word) :
    b.Moves (b.request prims type body timeout now).1 := by
  unfold request
  split
  · exact rests_of_held rfl rfl
  · exact startRequest_moves ..

theorem requestExt_moves (type : Byte) (body : List Byte) (timeout now : Word) :
    b.Moves (b.requestExt prims type body timeout now).1 := by
  unfold requestExt
  split
  · exact rests_of_held rfl rfl
  · exact startRequest_moves ..

theorem requestSetWifi_moves (ssid pass sealNonce : List Byte) (timeout now : Word) :
    b.Moves (b.requestSetWifi prims ssid pass sealNonce timeout now).1 := by
  unfold requestSetWifi
  iterate 3
    split
    · exact rests_of_held rfl rfl
  exact request_moves ..

theorem release_held : b.release.held = b.held := by
  unfold release
  split
  · rename_i released
    have pending : (b.reqState == .pending) = false := by simpa using released.2
    simp only [held, pending]
    rfl
  · rfl

theorem conclude_moves (busy : b.reqState = .pending) (last : Client) (m : Msg) (result : Byte) :
    b.Moves (last.conclude m result) :=
  finish_moves busy rfl rfl rfl ReqState.noConfusion

theorem onAuth_moves (busy : b.reqState = .pending) {heard : Client} (same : heard.held = b.held)
    (m : Msg) (now : Word) : b.Moves (heard.onAuth prims m now) := by
  simp only [held, Held.mk.injEq] at same
  obtain ⟨pending, _, _, signed, tries, resynced⟩ := same
  have state : heard.reqState = .pending := by simpa [busy] using pending
  simp only [onAuth]
  split
  · split
    · rename_i again
      refine resend_moves busy now state tries signed ?_
      rw [tries, resynced] at again
      refine (Nat.lt_or_ge b.reqTries wbTries).imp id fun late => ?_
      refine ⟨again.resolve_left (Nat.not_lt.mpr late), ?_⟩
      simp only [tries]
      exact decide_eq_true late
    · exact conclude_moves busy _ m _
  · split
    · rename_i lost
      split at lost
      · cases lost
      · rename_i fresh
        refine resend_moves busy now state tries signed (.inr ⟨?_, rfl⟩)
        rw [← resynced]
        exact Bool.not_eq_true _ ▸ fresh
    · exact conclude_moves busy _ m _

theorem learnBridgePub_held (b : Client) (bridgePub : List Byte) : (b.learnBridgePub prims bridgePub).held = b.held := by
  unfold learnBridgePub
  split
  · rfl
  · split <;> rfl

theorem onReply_moves (busy : b.reqState = .pending) (m : Msg) (frame : List Byte) (now : Word) :
    b.Moves (b.onReply prims m frame now) := by
  simp only [onReply]
  split
  · exact rests_of_held rfl rfl
  · split
    · refine onAuth_moves busy ?_ m now
      split <;> rfl
    · split
      · exact conclude_moves busy _ m _
      · split
        · exact conclude_moves busy _ m _
        · split
          · exact conclude_moves busy _ m _
          · exact conclude_moves busy _ m _

theorem helloNonce_held (b : Client) (body : List Byte) (now : Word) : (b.helloNonce body now).held = b.held := by
  unfold helloNonce
  split
  · rfl
  · split <;> rfl

theorem helloInfo_held (b : Client) (body : List Byte) : (b.helloInfo prims body).held = b.held := by
  simp only [helloInfo]
  split
  · rfl
  · split
    · exact learnBridgePub_held _ _
    · rfl

theorem updateState_held (b : Client) (body : List Byte) (now : Word) : (b.updateState body now).held = b.held := by
  obtain ⟨info, nextStatus, updated⟩ := b.updateState_eq body now
  rw [updated]
  rfl

theorem takeUp_held (b : Client) (mac : List Byte) (now : Word) :
    (b.takeUp prims deriveSecret mac now).held = b.held := by
  unfold takeUp
  cases deriveSecret mac <;> rfl

/-- A HELLO leaves the slot as it is, unless it comes from another bridge. -/
theorem onHello_moves (m : Msg) (now : Word) : b.Moves (b.onHello prims deriveSecret m now) := by
  have held : (b.onHello prims deriveSecret m now).client.held = (b.met prims deriveSecret m now).held := by
    rw [onHello_client, helloInfo_held, updateState_held, helloNonce_held]
    rfl
  by_cases other : b.seen = false ∨ m.src ≠ b.mac
  · have met_eq : b.met prims deriveSecret m now =
        b.forgetBridge.client.takeUp prims deriveSecret m.src now := if_pos other
    have left : (b.onHello prims deriveSecret m now).left = b.forgetBridge.left := by simp only [onHello, if_pos other]
    rw [met_eq, takeUp_held] at held
    by_cases busy : b.reqState = .pending
    · have pending : (b.reqState == .pending) = true := by
        simp [busy]
      refine @Moves.leaves _ _ .timedOut busy (onHello_sent m now) ?_ ?_
      · rw [left]
        simp only [forgetBridge, pending, if_true]
      · have free := congrArg Held.pending held
        have forgotten : b.forgetBridge.client.reqState ≠ .pending := by
          simp only [forgetBridge, pending, if_true, finish]
          split <;> exact ReqState.noConfusion
        intro still
        simp [Client.held, still, forgotten] at free
    · have pending : (b.reqState == .pending) = false := by
        simpa using busy
      refine .rests (onHello_sent m now) ?_ (held.trans ?_)
      · rw [left]
        simp only [forgetBridge, pending]
        rfl
      · simp only [forgetBridge, pending]
        rfl
  · have met_eq : b.met prims deriveSecret m now = b := if_neg other
    have left : (b.onHello prims deriveSecret m now).left = none := by simp only [onHello, if_neg other]
    rw [met_eq] at held
    exact .rests (onHello_sent m now) left held

theorem turn_moves (prims : Primitives) (deriveSecret : List Byte → Option (List Byte)) (b : Client)
    (event : ClientEvent) : b.Moves (b.turn prims deriveSecret event) := by
  cases event with
  | link up => exact rests_of_held rfl rfl
  | receive frame now =>
    simp only [turn]
    obtain ⟨info, nextStatus, quiet⟩ | ⟨m, _, _, _, hello⟩ | ⟨m, _, _, awaits, reply⟩ :=
      b.rx_cases prims deriveSecret frame now
    · rw [quiet]
      exact rests_of_held rfl rfl
    · rw [hello]
      exact onHello_moves m now
    · rw [reply]
      exact onReply_moves awaits.2.2.2.1 m frame now
  | poll now => exact poll_moves now
  | request type body timeout now => exact request_moves type body timeout now
  | requestExt type body timeout now => exact requestExt_moves type body timeout now
  | setWifi ssid pass sealNonce timeout now => exact requestSetWifi_moves ssid pass sealNonce timeout now
  | release => exact rests_of_held rfl rfl release_held

/-- The sends of the pending request so far. -/
def Bounded (b : Client) : Prop :=
  b.reqState = .pending → 1 ≤ b.reqTries ∧ (b.reqTries ≤ wbTries ∨ b.reqTries = wbTries + 1 ∧ b.reqResynced = true)

/-- The happenings so far are in order, and the last frame sent is the one the slot holds. -/
structure InOrder (acts : List Act) (b : Client) : Prop where
  sends : acts.foldlM Act.next none = some b.outstanding
  bounded : b.Bounded
  latest : b.reqState = .pending → ∃ t, latest acts = some t ∧ b.held.Sent t

theorem init_inOrder (podMac : List Byte) : InOrder [] (init podMac) where
  sends := rfl
  bounded busy := ReqState.noConfusion busy
  latest busy := ReqState.noConfusion busy

theorem latest_append {acts : List Act} {act : Act} {t : Transmission}
    (sent : act.transmission = some t) : Bwp.latest (acts ++ [act]) = some t := by
  rw [Bwp.latest, List.filterMap_append, List.filterMap_cons_some sent, List.filterMap_nil]
  exact List.getLast?_concat

/-- Every move keeps the happenings in order. -/
theorem Moves.inOrder {acts : List Act} {turn : Turn} (order : InOrder acts b)
    (moves : b.Moves turn) : InOrder (acts ++ (b.act turn).toList) turn.client := by
  cases moves with
  | rests silent stays held =>
    have quiet : b.act turn = none := by simp only [act, stays, silent, Option.map_none]
    have state : turn.client.reqState = .pending ↔ b.reqState = .pending := by
      have pending := congrArg Held.pending held
      simpa [Client.held] using pending
    have tries : turn.client.reqTries = b.reqTries := congrArg Held.tries held
    have resynced : turn.client.reqResynced = b.reqResynced := congrArg Held.resynced held
    rw [quiet, Option.toList_none, List.append_nil]
    refine ⟨?_, ?_, ?_⟩
    · rw [order.sends, outstanding, outstanding, tries]
      simp only [state]
    · intro busy
      rw [tries, resynced]
      exact order.bounded (state.mp busy)
    · intro busy
      rw [held]
      exact order.latest (state.mp busy)
  | @starts t free sent stays pending tries latest _ =>
    have started : b.act turn = some (.start t) := by simp only [act, stays, sent, Option.map_some, if_neg free]
    rw [started, Option.toList_some]
    refine ⟨?_, ?_, fun _ => ⟨t, latest_append rfl, latest⟩⟩
    · have idle : b.outstanding = none := if_neg free
      rw [List.foldlM_append, order.sends, idle, outstanding, if_pos pending, tries]
      rfl
    · intro _
      rw [tries]
      exact ⟨Nat.le_refl 1, .inl (by decide)⟩
  | @resends t busy sent stays pending tries latest signed bounded =>
    have resent : b.act turn = some (.resend t) := by simp only [act, stays, sent, Option.map_some, if_pos busy]
    obtain ⟨positive, below⟩ := order.bounded busy
    have within : b.reqTries ≤ wbTries := by
      obtain early | ⟨fresh, _⟩ := bounded
      · exact Nat.le_of_lt early
      · refine below.resolve_right fun last => ?_
        exact absurd (fresh.symm.trans last.2) Bool.false_ne_true
    rw [resent, Option.toList_some]
    refine ⟨?_, ?_, fun _ => ⟨t, latest_append rfl, latest⟩⟩
    · have held : b.outstanding = some b.reqTries := if_pos busy
      rw [List.foldlM_append, order.sends, held, outstanding, if_pos pending, tries]
      simp only [Option.bind_eq_bind, Option.bind_some, List.foldlM_cons, List.foldlM_nil, Act.next, if_pos within]
      rfl
    · intro _
      rw [tries]
      refine ⟨Nat.le_add_left 1 _, ?_⟩
      obtain early | ⟨_, last⟩ := bounded
      · exact .inl early
      · obtain more | full := Nat.lt_or_eq_of_le within
        · exact .inl more
        · exact .inr ⟨by rw [full], last⟩
  | @leaves how busy silent left free =>
    have gone : b.act turn = some (.leave how) := by simp only [act, left]
    rw [gone, Option.toList_some]
    refine ⟨?_, fun still => absurd still free, fun still => absurd still free⟩
    have held : b.outstanding = some b.reqTries := if_pos busy
    have idle : turn.client.outstanding = none := if_neg free
    rw [List.foldlM_append, order.sends, held, idle]
    rfl

/-- How a request can have left the slot. -/
def Explains (prims : Primitives) (b : Client) (event : ClientEvent) : Leave → Prop
  | .answered result =>
    ∃ frame now m, event = .receive frame now ∧ parse frame = .ok m ∧ b.Awaits m ∧
      (getU8 m.body Tag.result).getD Result.internal.code = result ∧
      (b.reqSigned = true → verify prims frame m b.key b.nonce = .ok b.reqCounter)
  | .refused result =>
    isRefusal result = true ∧
      ∃ frame now m, event = .receive frame now ∧ parse frame = .ok m ∧ b.Awaits m ∧ getU8 m.body Tag.result = some result
  | .timedOut =>
    (∃ now, event = .poll now ∧
      (b.present now = false ∨ timeElapsed now b.reqSent b.reqTimeout = true ∧ wbTries ≤ b.reqTries)) ∨
    ∃ frame now m, event = .receive frame now ∧ parse frame = .ok m ∧ m.type = MsgType.hello ∧
      (b.seen = false ∨ m.src ≠ b.mac)

theorem onAuth_left {m : Msg} {now : Word} {how : Leave}
    (left : (b.onAuth prims m now).left = some how) : how = .refused Result.auth.code := by
  simp only [onAuth] at left
  split at left
  · split at left
    · cases left
    · exact (Option.some.inj left).symm
  · split at left
    · cases left
    · exact (Option.some.inj left).symm

theorem onReply_left {m : Msg} {frame : List Byte} {now : Word} {how : Leave}
    (left : (b.onReply prims m frame now).left = some how) :
    let result := (getU8 m.body Tag.result).getD Result.internal.code
    how = (if isRefusal result then .refused result else .answered result) ∧
      (b.reqSigned = true → isRefusal result = false → verify prims frame m b.key b.nonce = .ok b.reqCounter) := by
  intro result
  simp only [onReply] at left
  split at left
  · cases left
  · rename_i trusted
    refine ⟨?_, fun signed accepted => ?_⟩
    · split at left
      · rename_i auth
        obtain rfl := onAuth_left left
        have auth : result = Result.auth.code := auth
        rw [auth]
        rfl
      · iterate 2
          split at left
          · exact (Option.some.inj left).symm
        split at left
        · exact (Option.some.inj left).symm
        · exact (Option.some.inj left).symm
    · have both : (b.reqSigned && !isRefusal result) = true := by
        rw [signed, accepted]
        rfl
      by_contra unverified
      exact trusted ⟨both, unverified⟩

theorem onHello_left {m : Msg} {now : Word} {how : Leave}
    (left : (b.onHello prims deriveSecret m now).left = some how) :
    how = .timedOut ∧ (b.seen = false ∨ m.src ≠ b.mac) := by
  simp only [onHello] at left
  split at left
  · rename_i other
    refine ⟨?_, other⟩
    simp only [forgetBridge] at left
    split at left
    · exact (Option.some.inj left).symm
    · cases left
  · cases left

theorem startRequest_left (type : Byte) (body : List Byte) (timeout now : Word) :
    (b.startRequest prims type body timeout now).1.left = none := by
  unfold startRequest
  iterate 5
    split
    · rfl
  rfl

theorem request_left (type : Byte) (body : List Byte) (timeout now : Word) :
    (b.request prims type body timeout now).1.left = none := by
  unfold request
  split
  · rfl
  · exact startRequest_left ..

theorem poll_left {now : Word} {how : Leave} (left : (b.poll prims now).left = some how) :
    how = .timedOut ∧ (b.present now = false ∨ timeElapsed now b.reqSent b.reqTimeout = true ∧ wbTries ≤ b.reqTries) := by
  unfold poll at left
  split at left
  · split at left
    · rename_i absent
      exact ⟨(Option.some.inj left).symm, .inl absent⟩
    · split at left
      · rename_i late
        split at left
        · cases left
        · rename_i last
          exact ⟨(Option.some.inj left).symm, .inr ⟨late, Nat.not_lt.mp last⟩⟩
      · cases left
  · split at left
    · cases left
    · split at left
      · split at left <;> cases left
      · split at left <;> cases left

/-- Every request that leaves the slot has been answered, refused or given up. -/
theorem turn_explains {event : ClientEvent} {how : Leave}
    (left : (b.turn prims deriveSecret event).left = some how) : b.Explains prims event how := by
  cases event with
  | link up => cases left
  | receive frame now =>
    simp only [turn] at left
    obtain ⟨info, nextStatus, quiet⟩ | ⟨m, parsed, _, hello, eq⟩ | ⟨m, parsed, _, awaits, eq⟩ :=
      b.rx_cases prims deriveSecret frame now
    · rw [quiet] at left
      cases left
    · rw [eq] at left
      obtain ⟨rfl, other⟩ := onHello_left left
      exact .inr ⟨frame, now, m, rfl, parsed, hello, other⟩
    · rw [eq] at left
      obtain ⟨how_eq, verified⟩ := onReply_left left
      cases refusal : isRefusal ((getU8 m.body Tag.result).getD Result.internal.code) with
      | false =>
        rw [refusal, if_neg Bool.false_ne_true] at how_eq
        subst how_eq
        exact ⟨frame, now, m, rfl, parsed, awaits, rfl, fun signed => verified signed refusal⟩
      | true =>
        rw [refusal, if_pos rfl] at how_eq
        subst how_eq
        refine ⟨refusal, frame, now, m, rfl, parsed, awaits, ?_⟩
        cases found : getU8 m.body Tag.result with
        | none =>
          rw [found] at refusal
          exact absurd refusal (by decide)
        | some result => rfl
  | poll now =>
    obtain ⟨rfl, late⟩ := poll_left left
    exact .inl ⟨now, rfl, late⟩
  | request type body timeout now =>
    rw [turn, request_left] at left
    cases left
  | requestExt type body timeout now =>
    simp only [turn, requestExt] at left
    split at left
    · cases left
    · rw [startRequest_left] at left
      cases left
  | setWifi ssid pass sealNonce timeout now =>
    simp only [turn, requestSetWifi] at left
    iterate 3
      split at left
      · cases left
    rw [request_left] at left
    cases left
  | release => cases left

/-- The poll finds the bridge gone or the answer overdue. -/
def Due (b : Client) : ClientEvent → Prop
  | .poll now => b.present now = false ∨ timeElapsed now b.reqSent b.reqTimeout = true
  | _ => False

instance (b : Client) (event : ClientEvent) : Decidable (b.Due event) := by
  cases event <;> simp only [Due] <;> infer_instance

/-- The polls of a run that are due. -/
def duePolls (prims : Primitives) (deriveSecret : List Byte → Option (List Byte)) :
    Client → List ClientEvent → Nat
  | _, [] => 0
  | b, event :: events =>
    (if b.Due event then 1 else 0) + duePolls prims deriveSecret (b.turn prims deriveSecret event).client events

theorem due_moves {event : ClientEvent} (busy : b.reqState = .pending) (due : b.Due event) :
    (b.turn prims deriveSecret event).sent ≠ none ∧ b.reqTries < wbTries ∨
      (b.turn prims deriveSecret event).left ≠ none := by
  cases event with
  | poll now =>
    simp only [turn, poll, if_pos busy]
    split
    · exact .inr (Option.some_ne_none _)
    · rename_i here
      have late : timeElapsed now b.reqSent b.reqTimeout = true := due.resolve_left here
      rw [if_pos late]
      split
      · rename_i early
        exact .inl ⟨Option.some_ne_none _, early⟩
      · exact .inr (Option.some_ne_none _)
  | _ => exact absurd due id

/-- A pending request that is polled when due often enough leaves the slot. -/
theorem polled_leaves {events : List ClientEvent} (busy : b.reqState = .pending)
    (polled : wbTries - b.reqTries + 1 ≤ duePolls prims deriveSecret b events) :
    ∃ how, Act.leave how ∈ (slot prims deriveSecret).emitted b events := by
  induction events generalizing b with
  | nil => exact absurd polled (Nat.not_succ_le_zero _)
  | cons event events ih =>
    have moves := turn_moves prims deriveSecret b event
    rw [duePolls] at polled
    have later {next : Client} (next_eq : (b.turn prims deriveSecret event).client = next)
        (leaves : ∃ how, Act.leave how ∈ (slot prims deriveSecret).emitted next events) :
        ∃ how, Act.leave how ∈ (slot prims deriveSecret).emitted b (event :: events) := by
      obtain ⟨how, member⟩ := leaves
      subst next_eq
      exact ⟨how, List.mem_append.mpr (.inr member)⟩
    cases moves with
    | rests silent stays held =>
      have early : ¬b.Due event := fun due =>
        (due_moves busy due).elim (fun sends => sends.1 silent) fun left => left stays
      have tries : (b.turn prims deriveSecret event).client.reqTries = b.reqTries := congrArg Held.tries held
      rw [if_neg early, Nat.zero_add, ← tries] at polled
      refine later rfl (ih ?_ polled)
      have pending := congrArg Held.pending held
      simpa [Client.held, busy] using pending
    | starts free => exact absurd busy free
    | resends _ _ stays pending tries _ _ bounded =>
      refine later rfl (ih pending ?_)
      rw [tries]
      split at polled
      · rename_i due
        have early := (due_moves busy due).resolve_right fun left => left stays
        omega
      · omega
    | @leaves how _ _ left _ =>
      refine ⟨how, List.mem_append.mpr (.inl ?_)⟩
      have gone : b.act (b.turn prims deriveSecret event) = some (.leave how) := by simp only [act, left]
      exact Option.mem_toList.mpr gone

/-- No HELLO of the bridge brings a public key that is refused while a signed request is pending. -/
def KeyStays (prims : Primitives) (b : Client) : ClientEvent → Prop
  | .receive frame _ =>
    ∀ m bridgePub, parse frame = .ok m → b.Addressed m → m.type = MsgType.hello →
      b.seen = true → m.src = b.mac → b.reqState = .pending → b.reqSigned = true →
      (getU8 m.body Tag.flags).getD b.info.flags &&& Flag.paired ≠ 0 →
      getBytes m.body Tag.pubkey 32 = some bridgePub →
      prims.pairKey b.secret bridgePub b.pub bridgePub ≠ none
  | _ => True

theorem signs_bond {start : Signer} {turn : Turn} (signs : Signs start turn) : turn.client.signer.bond = start.bond := by
  cases signs with
  | nothing _ signer => rw [signer]
  | once _ _ signer =>
    rw [signer]
    rfl

theorem learnBridgePub_bonded {bridgePub : List Byte} (bonded : b.signer.Bonded prims)
    (accepted : prims.pairKey b.secret bridgePub b.pub bridgePub ≠ none) :
    (b.learnBridgePub prims bridgePub).signer.Bonded prims := by
  unfold learnBridgePub
  split
  · exact bonded
  · split
    · rename_i key paired
      exact paired
    · rename_i refused
      exact absurd refused accepted

theorem helloInfo_bonded {body : List Byte} (bonded : b.signer.Bonded prims)
    (accepted : (getU8 body Tag.flags).getD b.info.flags &&& Flag.paired ≠ 0 →
      ∀ bridgePub, getBytes body Tag.pubkey 32 = some bridgePub →
        prims.pairKey b.secret bridgePub b.pub bridgePub ≠ none) :
    (b.helloInfo prims body).signer.Bonded prims := by
  simp only [helloInfo]
  split
  · exact bonded
  · rename_i paired
    have paired : (getU8 body Tag.flags).getD b.info.flags &&& Flag.paired ≠ 0 := by simpa [bridgePaired] using paired
    split
    · rename_i bridgePub found
      exact learnBridgePub_bonded bonded (accepted paired bridgePub found)
    · exact bonded

theorem known_flags (b : Client) (body : List Byte) (now : Word) :
    (((b.heard now).helloNonce body now).updateState body now).info.flags = b.info.flags := by
  have nonce : ((b.heard now).helloNonce body now).info = b.info := by
    unfold helloNonce
    split
    · rfl
    · split <;> rfl
  unfold updateState
  split
  · split
    · rw [nonce]
    · simp only [nonce]
  · rw [nonce]

theorem known_bond (b : Client) (body : List Byte) (now : Word) :
    (((b.heard now).helloNonce body now).updateState body now).signer.bond = b.signer.bond := by
  rw [updateState_signer, helloNonce_signer]
  rfl

/-- While a signed request is pending the key stays the pairing key. -/
theorem turn_bonded {event : ClientEvent} (keyed : b.signer.Keyed prims deriveSecret)
    (bonded : b.reqState = .pending → b.reqSigned = true → b.signer.Bonded prims)
    (stays : b.KeyStays prims event)
    (pending : (b.turn prims deriveSecret event).client.reqState = .pending)
    (signed : (b.turn prims deriveSecret event).client.reqSigned = true) :
    (b.turn prims deriveSecret event).client.signer.Bonded prims := by
  have moves := turn_moves prims deriveSecret b event
  have before : b.signer.Bonded prims := by
    cases moves with
    | rests _ _ held =>
      have state := congrArg Held.pending held
      have same := congrArg Held.signed held
      refine bonded ?_ (same.symm.trans signed)
      simpa [Client.held, pending] using state.symm
    | starts _ _ _ _ _ _ have_key => exact keyed.bonded (have_key signed)
    | resends busy _ _ _ _ _ same => exact bonded busy (same.symm.trans signed)
    | leaves _ _ _ free => exact absurd pending free
  by_cases received : ∃ frame now, event = .receive frame now
  · obtain ⟨frame, now, rfl⟩ := received
    have left : (b.rx prims deriveSecret frame now).left = none := by
      cases moves with
      | rests _ stays _ => exact stays
      | starts _ _ stays => exact stays
      | resends _ _ stays => exact stays
      | leaves _ _ _ free => exact absurd pending free
    simp only [turn] at pending signed moves ⊢
    obtain ⟨info, nextStatus, quiet⟩ | ⟨m, parsed, addressed, hello, eq⟩ |
        ⟨m, _, _, awaits, eq⟩ := b.rx_cases prims deriveSecret frame now
    · rw [quiet]
      exact before
    · rw [eq] at pending signed left moves ⊢
      obtain ⟨busy, same⟩ : b.reqState = .pending ∧ b.reqSigned = true := by
        cases moves with
        | rests _ _ held =>
          have state := congrArg Held.pending held
          have same := congrArg Held.signed held
          refine ⟨?_, same.symm.trans signed⟩
          simpa [Client.held, pending] using state.symm
        | starts _ sent => rw [onHello_sent] at sent; cases sent
        | resends _ sent => rw [onHello_sent] at sent; cases sent
        | leaves _ _ _ free => exact absurd pending free
      have known : ¬(b.seen = false ∨ m.src ≠ b.mac) := by
        intro other
        have state : (b.reqState == .pending) = true := by simp [busy]
        simp only [onHello, if_pos other, forgetBridge, state, if_true] at left
        cases left
      rw [onHello_client, met, if_neg known]
      rw [not_or, not_not, Bool.not_eq_false] at known
      have bond := known_bond b m.body now
      refine helloInfo_bonded (before.of_bond bond) fun paired bridgePub found => ?_
      rw [known_flags] at paired
      simp only [Signer.bond, Prod.mk.injEq] at bond
      obtain ⟨secret, pub, _, _⟩ := bond
      change prims.pairKey (((b.heard now).helloNonce m.body now).updateState m.body now).signer.secret bridgePub
        (((b.heard now).helloNonce m.body now).updateState m.body now).signer.pub bridgePub ≠ none
      rw [secret, pub]
      exact stays m bridgePub parsed addressed hello known.1 known.2 busy same paired found
    · rw [eq] at left ⊢
      obtain ⟨start, _, signs, _, same⟩ := b.onReply_signs prims m frame now
      exact before.of_bond ((signs_bond signs).trans (same left))
  · have signs := b.turn_signs prims deriveSecret fun frame now is_rx => received ⟨frame, now, is_rx⟩
    exact before.of_bond (signs_bond signs)

/-- The answer taken is signed under the client's key and nonce, with the counter and the sequence
number of the last send. -/
def Trusts (prims : Primitives) (b : Client) (acts : List Act) (event : ClientEvent) : Prop :=
  ∃ frame now m t s, event = .receive frame now ∧ parse frame = .ok m ∧
    Bwp.latest acts = some t ∧ t.signature = some s ∧ m.seq = t.seq ∧
    verify prims frame m b.key b.nonce = .ok s.counter

theorem answered_trusts {acts : List Act} {event : ClientEvent} {result : Byte}
    (order : InOrder acts b) (explained : b.Explains prims event (.answered result))
    (signed : b.reqSigned = true) : b.Trusts prims acts event := by
  obtain ⟨frame, now, m, is_rx, parsed, awaits, _, verified⟩ := explained
  obtain ⟨t, latest, seq_eq, signature⟩ := order.latest awaits.2.2.2.1
  have signed_held : b.held.signed = true := signed
  rw [signed_held, if_pos rfl, Option.map_eq_some_iff] at signature
  obtain ⟨s, signature, counter_eq⟩ := signature
  refine ⟨frame, now, m, t, s, is_rx, parsed, latest, signature, ?_, ?_⟩
  · rw [seq_eq]
    exact awaits.2.2.2.2.1
  · rw [counter_eq]
    exact verified signed

theorem act_leave {turn : Turn} {how : Leave} (gone : b.act turn = some (.leave how)) : turn.left = some how := by
  unfold act at gone
  split at gone
  · rename_i left
    cases gone
    exact left
  · obtain ⟨t, _, is_send⟩ := Option.map_eq_some_iff.mp gone
    split at is_send <;> cases is_send

theorem run_inOrder (prims : Primitives) (deriveSecret : List Byte → Option (List Byte))
    (podMac : List Byte) (events : List ClientEvent) :
    InOrder ((slot prims deriveSecret).emitted (init podMac) events)
      ((slot prims deriveSecret).run (init podMac) events) := by
  have free : (slot prims deriveSecret).logged.Along (fun _ _ => True) ([], init podMac) events := Emitter.along_true ..
  have order := free.invariant _ (fun entry => InOrder entry.1 entry.2) ?_ (init_inOrder podMac)
  · rwa [Emitter.run_logged, List.nil_append] at order
  · rintro ⟨acts, b⟩ event order -
    exact (turn_moves prims deriveSecret b event).inOrder order

theorem run_bonded (prims : Primitives) (deriveSecret : List Byte → Option (List Byte))
    (podMac : List Byte) {events : List ClientEvent}
    (stays : (slot prims deriveSecret).Along (fun b event => b.KeyStays prims event) (init podMac)
      events)
    (pending : ((slot prims deriveSecret).run (init podMac) events).reqState = .pending)
    (signed : ((slot prims deriveSecret).run (init podMac) events).reqSigned = true) :
    ((slot prims deriveSecret).run (init podMac) events).signer.Bonded prims := by
  have good := stays.invariant _ (fun b => b.signer.Keyed prims deriveSecret ∧
    (b.reqState = .pending → b.reqSigned = true → b.signer.Bonded prims)) ?_
    ⟨init_keyed podMac, fun busy => ReqState.noConfusion busy⟩
  · exact good.2 pending signed
  · rintro b event ⟨keyed, bonded⟩ stays
    exact ⟨turn_keyed keyed event, turn_bonded keyed bonded stays⟩

end Client

/-- The slot of the one request over any run.  It is started, sent again and left in turn, with at
most four sends for one request, and left by an answer, a refusal or a timeout, once it is polled
three times when that is due.  A signed request is answered only by what verifies under the client's
key with counter and sequence number of the last send; that key is the pairing key as long as no
HELLO brings a refused public key while a signed request is pending. -/
theorem one_request (prims : Primitives) (deriveSecret : List Byte → Option (List Byte))
    (podMac : List Byte) (events : List ClientEvent) :
    let b := (Client.slot prims deriveSecret).run (Client.init podMac) events
    let acts := (Client.slot prims deriveSecret).emitted (Client.init podMac) events
    acts.foldlM Act.next none = some b.outstanding ∧
    (∀ event how, b.act (b.turn prims deriveSecret event) = some (.leave how) →
      b.Explains prims event how) ∧
    (b.reqState = .pending → ∀ more, wbTries ≤ Client.duePolls prims deriveSecret b more →
      ∃ how, Act.leave how ∈ (Client.slot prims deriveSecret).emitted b more) ∧
    (∀ event result, b.act (b.turn prims deriveSecret event) = some (.leave (.answered result)) →
      b.reqSigned = true → b.Trusts prims acts event) ∧
    ((Client.slot prims deriveSecret).Along (fun b event => b.KeyStays prims event)
        (Client.init podMac) events →
      ∀ event result, b.act (b.turn prims deriveSecret event) = some (.leave (.answered result)) →
        b.reqSigned = true → b.signer.Bonded prims) := by
  intro b acts
  have order := Client.run_inOrder prims deriveSecret podMac events
  refine ⟨order.sends, fun event how gone => Client.turn_explains (Client.act_leave gone), ?_, ?_, ?_⟩
  · intro busy more polled
    have started := (order.bounded busy).1
    refine Client.polled_leaves busy (Nat.le_trans ?_ polled)
    have positive : 0 < wbTries := by decide
    change 1 ≤ b.reqTries at started
    omega
  · intro event result gone signed
    exact Client.answered_trusts order (Client.turn_explains (Client.act_leave gone)) signed
  · intro stays event result gone signed
    obtain ⟨_, _, _, _, _, awaits, _, _⟩ := Client.turn_explains (Client.act_leave gone)
    exact Client.run_bonded prims deriveSecret podMac stays awaits.2.2.2.1 signed

/-- A SCAN that is answered, and one that is not. -/
theorem one_request_scan :
    let events : List ClientEvent := [.link true, .receive (sampleHello 1 9) 0, .request MsgType.scan [] 1000 0]
    let b := (Client.slot samplePrimitives sampleSecret).run samplePod events
    b.signer.Bonded samplePrimitives ∧
      ∃ how, Act.leave how ∈ (Client.slot samplePrimitives sampleSecret).emitted b
        [.poll 1000, .poll 2000, .poll 3000] := by
  intro events b
  obtain ⟨_, _, polled, _, answered⟩ :=
    one_request samplePrimitives sampleSecret [0, 0x80, 0xe1, 0x12, 0x34, 0x56] events
  have stays : (Client.slot samplePrimitives sampleSecret).Along
      (fun b event => b.KeyStays samplePrimitives event) samplePod events := by
    refine ⟨trivial, ?_, trivial, trivial⟩
    intro m _ _ _ _ _ _ busy
    cases busy
  refine ⟨?_, polled (by decide +kernel) _ (by decide +kernel)⟩
  exact answered stays (.receive (sampleAnswer (List.replicate 32 9)) 500) 0 (by decide +kernel)
    (by decide +kernel)

/-- A HELLO with a refused public key comes in while a signed request is pending: an answer signed
under the key of zeros is taken, though there is no pairing key. -/
theorem unpaired_answer_taken :
    let b := (Client.slot samplePrimitives sampleSecret).run samplePod
      [.link true, .receive (sampleHello 1 9) 0, .request MsgType.scan [] 1000 0,
        .receive (sampleHello 1 0) 100]
    b.reqSigned = true ∧
      b.act (b.turn samplePrimitives sampleSecret (.receive (sampleAnswer (zeros 32)) 500)) =
        some (.leave (.answered Result.ok.code)) ∧
      b.haveKey = false ∧
      samplePrimitives.pairKey b.secret b.bridgePub b.pub b.bridgePub = none := by
  decide +kernel

end BenchPod.Bwp
