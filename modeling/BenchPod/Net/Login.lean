import BenchPod.Net.CloudOrder
import BenchPod.Net.HttpReply

/-!
# The login to the cloud

The challenge and the upgrade to a WebSocket share one link.  The poll waits for each reply in the bytes that came so
far; what is behind the headers of the second one is left to the frames.
-/

namespace BenchPod.Cloud

open Json

/-- The states of `cloud_client_poll` from the challenge on. -/
inductive Phase
  | chalWait
  | wsWait
  | connected
  | backoff
  deriving DecidableEq

/-- What a poll meets besides the link. -/
structure Pass where
  /-- The deadline was reached. -/
  late : Bool := false
  /-- `cl_sign_nonce`. -/
  signs : Bool := true
  /-- `cl_send_ws_upgrade`. -/
  sends : Bool := true
  /-- `cl_send_capabilities`. -/
  capable : Bool := true
  answers : Nat → Answer := fun _ => {}

/-- The TLS layer offers no more than a record, the TCP window is smaller: an empty buffer takes it. -/
abbrev Chain : Type := { chain : List Nat // chain.sum ≤ rxAccum }

/-- What happens during the login; the server closes the link with a FIN. -/
inductive LoginEvent
  | arrive (bytes : List Byte)
  | offer (chain : Chain)
  | close
  | poll (pass : Pass)

/-- The client from the moment the challenge is sent. -/
structure Login where
  phase : Phase := .chalWait
  link : Link := {}
  /-- `s_dropped`. -/
  dropped : Bool := false
  /-- `s_nonce`. -/
  nonce : List Byte := []
  /-- `s_auth_v1`. -/
  authV1 : Bool := false
  /-- How many bytes were the challenge's reply. -/
  took : Nat := 0

/-- What the poll makes of the reply to the challenge. -/
inductive Verdict
  | more
  | refused
  | whole (body total : Nat)
  deriving DecidableEq

/-- The checks in `CL_CHAL_WAIT`. -/
def chalVerdict (rx : List Byte) : Verdict :=
  match headersEnd rx with
  | none => .more
  | some body =>
    let code := httpStatus (rx.take body)
    if code < 200 ∨ 299 < code then .refused
    else
      let clen := contentLength (rx.take body)
      if clen.toInt < 0 then .refused
      else if rx.length < body + clen.toNat then .more
      else .whole body (body + clen.toNat)

/-- The text that `cl_json_str` reads the nonce from: the body, cut at the end of the buffer. -/
def chalBody (rx : List Byte) (body total : Nat) : List Byte :=
  ((rx.take (if total < rxAccum then total else rxAccum - 1)).drop body).takeWhile (· ≠ 0)

/-- What `s_auth_v1` becomes when the upgrade is refused with this code. -/
def refusedAuth (code : Nat) (authV1 : Bool) : Bool := if code = 401 ∨ code = 403 then !authV1 else authV1

namespace Login

variable (s : Login)

/-- `cl_backoff`. -/
def backoff : Login := { s with phase := .backoff, link := s.link.backoff, dropped := false }

/-- `CL_CHAL_WAIT`. -/
def pollChalWait (pass : Pass) : Login :=
  if s.dropped then s.backoff
  else
    match chalVerdict s.link.rx with
    | .more => if pass.late then s.backoff else s
    | .refused => s.backoff
    | .whole body total =>
      match bpJsonGetTop (chalBody s.link.rx body total) (cstr "nonce") 96 with
      | none => s.backoff
      | some nonce =>
        let s := { s with nonce := nonce, link := s.link.rxConsume total, took := s.took + total }
        if pass.signs && pass.sends then { s with phase := .wsWait } else s.backoff

/-- What is handed on to the frames when the upgrade is accepted in `CL_WS_WAIT`. -/
def upgraded : Option (List Byte) :=
  if s.dropped then none
  else
    (headersEnd s.link.rx).bind fun e =>
      if statusIs101 (s.link.rx.take (e - 4)) then some (s.link.rx.drop e) else none

/-- `CL_WS_WAIT`. -/
def pollWsWait (pass : Pass) : Login :=
  if s.dropped then s.backoff
  else
    match headersEnd s.link.rx with
    | none => if pass.late then s.backoff else s
    | some e =>
      if statusIs101 (s.link.rx.take (e - 4)) then
        if pass.capable then
          let link := (s.link.rxConsume e).processWsFrames pass.answers (s.link.rx.length + 1) 0
          { s with link := link, phase := if link.up then .connected else .backoff }
        else s.backoff
      else { s with authV1 := refusedAuth (httpStatus (s.link.rx.take (e - 4))) s.authV1 }.backoff

/-- `CL_CONNECTED`. -/
def pollConnected (pass : Pass) : Login :=
  if s.dropped then s.backoff
  else
    let link := s.link.poll pass.answers
    { s with link := link, phase := if link.up then .connected else .backoff }

/-- `cloud_client_poll`. -/
def poll (pass : Pass) : Login :=
  match s.phase with
  | .chalWait => s.pollChalWait pass
  | .wsWait => s.pollWsWait pass
  | .connected => s.pollConnected pass
  | .backoff => s

def step : LoginEvent → Login
  | .arrive bytes => { s with link := s.link.step (.arrive bytes) }
  | .offer chain => { s with link := s.link.step (.offer chain.1) }
  | .close => { s with dropped := true }
  | .poll pass => s.poll pass

/-- The bytes that an event hands on when the link comes to count as up. -/
def handsOn : LoginEvent → Option (List Byte)
  | .poll _ => if s.phase = .wsWait then s.upgraded else none
  | _ => none

end Login

/-- The login, with what it hands on to the frames. -/
def login : Emitter Login LoginEvent (List Byte) where
  step := Login.step
  emit := Login.handsOn

/-- The reply to the challenge: a code of 2xx in the status line, and the header lines with the length of the body. -/
structure Challenged (reply : List Byte) (total : Nat) : Prop where
  accepted : ∃ body length, headersEnd reply = some body ∧ total = body + length ∧
    200 ≤ httpStatus (statusLine (reply.take body)) ∧ httpStatus (statusLine (reply.take body)) ≤ 299 ∧
    Declares (reply.take body) length

/-- The reply to the upgrade: a code of 101 in the status line, and what is behind the headers. -/
structure Switched (reply rest : List Byte) : Prop where
  accepted : ∃ e, headersEnd reply = some e ∧ httpStatus (statusLine (reply.take (e - 4))) = 101 ∧ rest = reply.drop e

namespace Login

variable {s : Login}

/-- An event is right: the challenge is accepted with its whole reply, the link counts as up with the reply to the
upgrade only, and the frames get what is behind it. -/
structure Exact (s : Login) (event : LoginEvent) : Prop where
  challenge : (s.step event).phase = .wsWait → s.phase = .wsWait ∨
    s.phase = .chalWait ∧ Challenged s.link.sent (s.step event).took ∧ (s.step event).took ≤ s.link.rx.length
  up : (s.step event).phase = .connected → s.phase = .connected ∨ (s.handsOn event).isSome
  upgrade : ∀ handed ∈ s.handsOn event, Switched (s.link.sent.drop s.took) (handed ++ s.link.wire)

/-- The headers that a poll looks at say what the searches find: there is a blank in the status line of the challenge's
reply, its first `content-length:` is a header line, and headers of the other reply with another code have no 101. -/
def Clear (s : Login) : LoginEvent → Prop
  | .poll _ =>
    (s.phase = .chalWait → ∀ body ∈ headersEnd s.link.rx,
      ascii ' ' ∈ statusLine (s.link.rx.take body) ∧ Plain (s.link.rx.take body)) ∧
    (s.phase = .wsWait → ∀ e ∈ headersEnd s.link.rx, statusIs101 (s.link.rx.take (e - 4)) = true →
      httpStatus (statusLine (s.link.rx.take (e - 4))) = 101)
  | _ => True

/-- While a reply is waited for, what came of it is in the buffer and what follows is with the TLS layer. -/
structure Waiting (s : Login) : Prop where
  up : s.link.up = true
  clean : s.link.overflow = false
  fits : s.link.rx.length ≤ rxAccum
  taken : s.took ≤ s.link.sent.length
  kept : s.link.sent.drop s.took = s.link.rx ++ s.link.wire
  fresh : s.phase = .chalWait → s.took = 0

theorem rxChain_clean {link : Link} {chain : List Nat} {bytes : List Byte} (clean : link.overflow = false)
    (enough : chain.sum ≤ bytes.length) (fits : link.rx.length + chain.sum ≤ rxAccum) :
    (Link.rxChain link chain bytes).overflow = false := by
  induction chain generalizing link bytes with
  | nil => exact clean
  | cons size chain ih =>
    rw [List.sum_cons] at enough fits
    have length : (bytes.take size).length = size := List.length_take_of_le (by omega)
    have appended : link.rxAppend (bytes.take size) = { link with rx := link.rx ++ bytes.take size } :=
      if_neg (by omega)
    rw [Link.rxChain, appended]
    refine ih clean ?_ ?_
    · rw [List.length_drop]
      omega
    · change (link.rx ++ bytes.take size).length + chain.sum ≤ rxAccum
      rw [List.length_append, length]
      omega

theorem Waiting.arrive (waiting : s.Waiting) (bytes : List Byte) : (s.step (.arrive bytes)).Waiting := by
  have stepped : s.link.step (.arrive bytes) =
      { s.link with wire := s.link.wire ++ bytes, sent := s.link.sent ++ bytes } := if_pos waiting.up
  rw [step, stepped]
  exact {
    up := waiting.up
    clean := waiting.clean
    fits := waiting.fits
    taken := by
      rw [List.length_append]
      exact Nat.le_add_right_of_le waiting.taken
    kept := by rw [List.drop_append_of_le_length waiting.taken, waiting.kept, List.append_assoc]
    fresh := waiting.fresh }

theorem Waiting.offer (waiting : s.Waiting) (chain : Chain) : (s.step (.offer chain)).Waiting := by
  have stepped : s.link.step (.offer chain.1) = s.link.recvCb chain.1 := if_pos waiting.up
  rw [step, stepped, Link.recvCb]
  split_ifs with short refuses
  · exact ⟨waiting.up, waiting.clean, waiting.fits, waiting.taken, waiting.kept, waiting.fresh⟩
  · exact ⟨waiting.up, waiting.clean, waiting.fits, waiting.taken, waiting.kept, waiting.fresh⟩
  · have enough : chain.1.sum ≤ s.link.wire.length := Nat.le_of_not_lt short
    have room : s.link.rx.length + chain.1.sum ≤ rxAccum := by
      have record := chain.2
      have fits := waiting.fits
      rw [cloudRxRefuse, Bool.and_eq_true, decide_eq_true_iff, decide_eq_true_iff] at refuses
      omega
    rw [rxChain_stays chain.1 s.link.wire enough (rxChain_clean waiting.clean enough room)]
    exact {
      up := waiting.up
      clean := waiting.clean
      fits := by
        rw [List.length_append, List.length_take_of_le enough]
        exact room
      taken := waiting.taken
      kept := by rw [waiting.kept, List.append_assoc, List.take_append_drop]
      fresh := waiting.fresh }

end Login

theorem chalVerdict_whole {rx : List Byte} {body total : Nat} (whole : chalVerdict rx = .whole body total) :
    headersEnd rx = some body ∧ 200 ≤ httpStatus (rx.take body) ∧ httpStatus (rx.take body) ≤ 299 ∧
      0 ≤ (contentLength (rx.take body)).toInt ∧ total = body + (contentLength (rx.take body)).toNat ∧
      total ≤ rx.length := by
  rw [chalVerdict] at whole
  cases found : headersEnd rx with
  | none =>
    rw [found] at whole
    exact nomatch whole
  | some e =>
    rw [found] at whole
    dsimp only at whole
    split_ifs at whole with code negative short
    obtain ⟨rfl, rfl⟩ := Verdict.whole.inj whole
    exact ⟨rfl, by omega, by omega, by omega, rfl, by omega⟩

namespace Login

variable {s : Login}

theorem Waiting.challenged (waiting : s.Waiting) (first : s.phase = .chalWait) {body total : Nat}
    (whole : chalVerdict s.link.rx = .whole body total)
    (blank : ascii ' ' ∈ statusLine (s.link.rx.take body)) (plain : Plain (s.link.rx.take body)) :
    Challenged s.link.sent total := by
  obtain ⟨found, low, high, positive, rfl, -⟩ := chalVerdict_whole whole
  obtain ⟨inside, later⟩ := headersEnd_append found s.link.wire
  have sent : s.link.sent = s.link.rx ++ s.link.wire := by rw [← waiting.kept, waiting.fresh first, List.drop_zero]
  have headers : s.link.sent.take body = s.link.rx.take body := by rw [sent, List.take_append_of_le_length inside]
  rw [httpStatus_line blank] at low high
  refine ⟨body, _, sent ▸ later, rfl, ?_, ?_, ?_⟩
  · rw [headers]
    exact low
  · rw [headers]
    exact high
  · rw [headers]
    exact contentLength_declares plain positive

theorem upgraded_some {handed : List Byte} (up : s.upgraded = some handed) :
    s.dropped = false ∧ ∃ e, headersEnd s.link.rx = some e ∧ statusIs101 (s.link.rx.take (e - 4)) = true ∧
      handed = s.link.rx.drop e := by
  rw [upgraded] at up
  split_ifs at up with dropped
  obtain ⟨e, found, rest⟩ := Option.bind_eq_some_iff.mp up
  split_ifs at rest with code
  exact ⟨Bool.not_eq_true _ ▸ dropped, e, found, code, (Option.some.inj rest).symm⟩

theorem Waiting.switched (waiting : s.Waiting) {e : Nat} (found : headersEnd s.link.rx = some e)
    (code : httpStatus (statusLine (s.link.rx.take (e - 4))) = 101) :
    Switched (s.link.sent.drop s.took) (s.link.rx.drop e ++ s.link.wire) := by
  obtain ⟨inside, later⟩ := headersEnd_append found s.link.wire
  rw [waiting.kept]
  refine ⟨e, later, ?_, ?_⟩
  · rw [List.take_append_of_le_length (by omega)]
    exact code
  · rw [List.drop_append_of_le_length inside]

theorem pollChalWait_phase (pass : Pass) :
    (s.pollChalWait pass).phase = .backoff ∨ s.pollChalWait pass = s ∨
      ∃ body total nonce, chalVerdict s.link.rx = .whole body total ∧ s.pollChalWait pass =
        { s with nonce := nonce, link := s.link.rxConsume total, took := s.took + total, phase := .wsWait } := by
  rw [pollChalWait]
  split
  · exact .inl rfl
  · cases verdict : chalVerdict s.link.rx with
    | more =>
      dsimp only
      split
      · exact .inl rfl
      · exact .inr (.inl rfl)
    | refused => exact .inl rfl
    | whole body total =>
      dsimp only
      split
      · exact .inl rfl
      · split
        · exact .inr (.inr ⟨body, total, _, rfl, rfl⟩)
        · exact .inl rfl

theorem pollWsWait_phase (pass : Pass) :
    (s.pollWsWait pass).phase = .backoff ∨ s.pollWsWait pass = s ∨
      (s.pollWsWait pass).phase = .connected ∧ s.upgraded.isSome = true := by
  rw [pollWsWait, upgraded]
  split
  · exact .inl rfl
  · rename_i stays
    cases found : headersEnd s.link.rx with
    | none =>
      dsimp only
      split
      · exact .inl rfl
      · exact .inr (.inl rfl)
    | some e =>
      dsimp only
      split
      · rename_i code
        split
        · by_cases up : ((s.link.rxConsume e).processWsFrames pass.answers (s.link.rx.length + 1) 0).up = true
          · refine .inr (.inr ⟨if_pos up, ?_⟩)
            rw [Option.bind_some, if_pos code]
            rfl
          · exact .inl (if_neg up)
        · exact .inl rfl
      · exact .inl rfl

theorem pollConnected_phase (pass : Pass) :
    (s.pollConnected pass).phase = .backoff ∨ (s.pollConnected pass).phase = .connected := by
  rw [pollConnected]
  split
  · exact .inl rfl
  · dsimp only
    split
    · exact .inr rfl
    · exact .inl rfl

/-- A reply is waited for. -/
def Waits (s : Login) : Prop := s.phase = .chalWait ∨ s.phase = .wsWait

theorem not_waits {phase : Phase} (other : phase = .backoff ∨ phase = .connected) (same : s.phase = phase) :
    ¬s.Waits := by
  rintro (first | second)
  · rcases other with rfl | rfl
    · exact nomatch first.symm.trans same
    · exact nomatch first.symm.trans same
  · rcases other with rfl | rfl
    · exact nomatch second.symm.trans same
    · exact nomatch second.symm.trans same

theorem step_chalWait (pass : Pass) (phase : s.phase = .chalWait) : s.step (.poll pass) = s.pollChalWait pass := by
  rw [step, poll, phase]

theorem step_wsWait (pass : Pass) (phase : s.phase = .wsWait) : s.step (.poll pass) = s.pollWsWait pass := by
  rw [step, poll, phase]

theorem step_connected (pass : Pass) (phase : s.phase = .connected) : s.step (.poll pass) = s.pollConnected pass := by
  rw [step, poll, phase]

theorem step_backoff (pass : Pass) (phase : s.phase = .backoff) : s.step (.poll pass) = s := by
  rw [step, poll, phase]

/-- While a reply is waited for everything stays in order. -/
theorem step_kept (event : LoginEvent) (kept : s.Waits → s.Waiting) (waits : (s.step event).Waits) :
    (s.step event).Waiting := by
  cases event with
  | arrive bytes => exact (kept waits).arrive bytes
  | offer chain => exact (kept waits).offer chain
  | close =>
    have waiting := kept waits
    exact ⟨waiting.up, waiting.clean, waiting.fits, waiting.taken, waiting.kept, waiting.fresh⟩
  | poll pass =>
    cases phase : s.phase with
    | chalWait =>
      rw [step_chalWait pass phase] at waits ⊢
      have waiting := kept (.inl phase)
      rcases s.pollChalWait_phase pass with gone | same | ⟨body, total, nonce, whole, taken⟩
      · exact absurd waits (not_waits (.inl rfl) gone)
      · exact same.symm ▸ waiting
      · obtain ⟨-, -, -, -, -, inside⟩ := chalVerdict_whole whole
        have sent : s.link.sent = s.link.rx ++ s.link.wire := by
          rw [← waiting.kept, waiting.fresh phase, List.drop_zero]
        have all : total ≤ s.link.sent.length := by
          rw [sent, List.length_append]
          exact Nat.le_add_right_of_le inside
        rw [taken, waiting.fresh phase, Nat.zero_add]
        exact {
          up := waiting.up
          clean := waiting.clean
          fits := by
            change (s.link.rx.drop total).length ≤ rxAccum
            rw [List.length_drop]
            exact (Nat.sub_le _ _).trans waiting.fits
          taken := all
          kept := by
            change s.link.sent.drop total = s.link.rx.drop total ++ s.link.wire
            rw [sent, List.drop_append_of_le_length inside]
          fresh := nofun }
    | wsWait =>
      rw [step_wsWait pass phase] at waits ⊢
      rcases s.pollWsWait_phase pass with gone | same | ⟨up, -⟩
      · exact absurd waits (not_waits (.inl rfl) gone)
      · exact same.symm ▸ kept (.inr phase)
      · exact absurd waits (not_waits (.inr rfl) up)
    | connected =>
      rw [step_connected pass phase] at waits
      rcases s.pollConnected_phase pass with gone | still
      · exact absurd waits (not_waits (.inl rfl) gone)
      · exact absurd waits (not_waits (.inr rfl) still)
    | backoff =>
      rw [step_backoff pass phase] at waits
      exact absurd waits (not_waits (.inl rfl) phase)

/-- An event with clear headers is right. -/
theorem step_exact (event : LoginEvent) (kept : s.Waits → s.Waiting) (clear : s.Clear event) : s.Exact event := by
  cases event with
  | arrive bytes => exact ⟨.inl, .inl, nofun⟩
  | offer chain => exact ⟨.inl, .inl, nofun⟩
  | close => exact ⟨.inl, .inl, nofun⟩
  | poll pass =>
    cases phase : s.phase with
    | chalWait =>
      have quiet : s.handsOn (.poll pass) = none := if_neg (by rw [phase]; exact nofun)
      have waiting := kept (.inl phase)
      constructor
      · intro sent
        rw [step_chalWait pass phase] at sent ⊢
        rcases s.pollChalWait_phase pass with gone | same | ⟨body, total, nonce, whole, taken⟩
        · exact nomatch gone.symm.trans sent
        · exact .inl (same ▸ sent)
        · obtain ⟨found, -, -, -, -, inside⟩ := chalVerdict_whole whole
          obtain ⟨blank, plain⟩ := clear.1 phase body found
          rw [taken, waiting.fresh phase, Nat.zero_add]
          exact .inr ⟨phase, waiting.challenged phase whole blank plain, inside⟩
      · intro up
        rw [step_chalWait pass phase] at up
        rcases s.pollChalWait_phase pass with gone | same | ⟨body, total, nonce, -, taken⟩
        · exact nomatch gone.symm.trans up
        · exact nomatch (same ▸ up).symm.trans phase
        · rw [taken] at up
          exact nomatch up
      · rw [quiet]
        exact nofun
    | wsWait =>
      have waiting := kept (.inr phase)
      have told : s.handsOn (.poll pass) = s.upgraded := if_pos phase
      constructor
      · exact fun _ => .inl phase
      · intro up
        rw [step_wsWait pass phase] at up
        rcases s.pollWsWait_phase pass with gone | same | ⟨-, some⟩
        · exact nomatch gone.symm.trans up
        · exact nomatch (same ▸ up).symm.trans phase
        · exact .inr (told ▸ some)
      · intro handed member
        obtain ⟨-, e, found, code, rfl⟩ := upgraded_some (told.symm.trans member)
        exact waiting.switched found (clear.2 phase e found code)
    | connected =>
      have quiet : s.handsOn (.poll pass) = none := if_neg (by rw [phase]; exact nofun)
      constructor
      · intro sent
        rw [step_connected pass phase] at sent
        rcases s.pollConnected_phase pass with gone | still
        · exact nomatch gone.symm.trans sent
        · exact nomatch still.symm.trans sent
      · exact fun _ => .inl phase
      · rw [quiet]
        exact nofun
    | backoff =>
      have quiet : s.handsOn (.poll pass) = none := if_neg (by rw [phase]; exact nofun)
      constructor
      · intro sent
        rw [step_backoff pass phase] at sent
        exact nomatch sent.symm.trans phase
      · intro up
        rw [step_backoff pass phase] at up
        exact nomatch up.symm.trans phase
      · rw [quiet]
        exact nofun

/-- Along every login whose polls find clear headers the challenge is accepted with its whole reply of code 2xx, and the
link counts as up only with a reply of code 101, whose rest is what the frames get. -/
theorem logged_in (events : List LoginEvent) (clear : login.Along Clear {} events) : login.Along Exact {} events := by
  apply clear.imp_good login (fun s => s.Waits → s.Waiting)
  · exact fun kept clear => step_exact _ kept clear
  · exact fun kept => step_kept _ kept
  · exact fun _ => ⟨rfl, rfl, Nat.zero_le _, Nat.zero_le _, rfl, fun _ => rfl⟩

/-- A line of a reply. -/
def lineOf (text : String) : List Byte := cstr text ++ [cr, lf]

/-- A challenge with its nonce. -/
def challengeReply : List Byte := lineOf "HTTP/1.1 200 OK" ++ lineOf "Content-Length: 13" ++ lineOf "" ++
  cstr "\x7b\"nonce\":\"A\"\x7d"

/-- Both replies come in a segment each and are polled. -/
def exchange (upgrade : List Byte) (fits : [upgrade.length].sum ≤ rxAccum) : List LoginEvent :=
  [.arrive challengeReply, .offer ⟨[challengeReply.length], by decide +kernel⟩, .poll {},
    .arrive upgrade, .offer ⟨[upgrade.length], fits⟩, .poll {}]

theorem challenge_plain : Plain (challengeReply.take 39) := by
  intro tail found
  have here : Search.search named (challengeReply.take 39) = some ((challengeReply.take 39).drop 17) := by
    decide +kernel
  obtain rfl := Option.some.inj (here.symm.trans found)
  exact ⟨⟨(challengeReply.take 39).take 15, by decide +kernel⟩, by decide +kernel⟩

theorem logged_in_switched :
    login.Along Exact {} (exchange (lineOf "HTTP/1.1 101 OK" ++ lineOf "") (by decide +kernel)) := by
  refine logged_in _ ⟨trivial, trivial, ⟨fun _ body found => ?_, fun phase => ?_⟩, trivial, trivial,
    ⟨fun phase => ?_, fun _ e found _ => ?_⟩, trivial⟩
  · obtain rfl : 39 = body := Option.some.inj ((by decide +kernel : _ = some 39).symm.trans found)
    exact ⟨by decide +kernel, challenge_plain⟩
  · exact absurd phase (by decide +kernel)
  · exact absurd phase (by decide +kernel)
  · obtain rfl : 19 = e := Option.some.inj ((by decide +kernel : _ = some 19).symm.trans found)
    decide +kernel

theorem not_exact {s : Login} {pass : Pass} {rx : List Byte} {e : Nat} (phase : s.phase = .wsWait)
    (stays : s.dropped = false) (came : s.link.rx = rx) (all : s.link.sent.drop s.took = rx)
    (found : headersEnd rx = some e) (has : statusIs101 (rx.take (e - 4)) = true)
    (code : httpStatus (statusLine (rx.take (e - 4))) ≠ 101) : ¬s.Exact (.poll pass) := by
  intro exact
  have up : s.handsOn (.poll pass) = some (rx.drop e) := by
    have told : s.handsOn (.poll pass) = s.upgraded := if_pos phase
    rw [told, upgraded, stays, came, found]
    exact if_pos has
  obtain ⟨e', found', code', -⟩ := (exact.upgrade _ up).accepted
  rw [all] at found' code'
  obtain rfl := Option.some.inj (found.symm.trans found')
  exact code code'

/-- The server refuses the device, and the text of the refusal is 101 bytes long. -/
def refusal : List Byte := lineOf "HTTP/1.1 403 No" ++ lineOf "Content-Length: 101" ++ lineOf "A: B" ++ lineOf ""

/-- A refusal whose length is 101 counts as an upgrade. -/
theorem refusal_counts_as_up : ¬login.Along Exact {} (exchange refusal (by decide +kernel)) := by
  intro along
  refine @not_exact _ {} refusal 46 ?_ ?_ ?_ ?_ ?_ ?_ ?_ along.2.2.2.2.2.1
  · decide +kernel
  · decide +kernel
  · decide +kernel
  · decide +kernel
  · decide +kernel
  · decide +kernel
  · decide +kernel

end Login

end BenchPod.Cloud
