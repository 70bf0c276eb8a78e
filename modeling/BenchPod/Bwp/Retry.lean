import BenchPod.Bwp.Repeat

/-!
# A request that is sent again

When an answer is lost the pod sends the request again.  Executing it twice leaves the bridge as
executing it once did, and all but a few requests are answered the same again.
-/

namespace BenchPod.Bwp

/-- How often and under which counters a request is sent: twice unsigned, or signed twice with
rising counters, the first of them new to the bridge. -/
inductive Attempts (pairing : Pairing) : Option Word → Option Word → Prop where
  | unsigned : Attempts pairing none none
  | signed {first second : Word} (new : pairing.paired = true → pairing.lastCounter < first)
      (next : first < second) : Attempts pairing (some first) (some second)

namespace Draft

variable (draft : Draft) (prims : Primitives) (pairing : Pairing)

/-- The body sent unsigned, or signed under a pairing with a counter. -/
def sentBody : Option Word → List Byte
  | none => draft.body
  | some counter => draft.signedBody prims pairing.key pairing.nonce counter

/-- The frame sent unsigned, or signed under a pairing with a counter. -/
def sent : Option Word → List Byte
  | none => draft.frame
  | some counter => draft.signed prims pairing.key pairing.nonce counter

/-- The message the bridge reads from it. -/
def sentMsg (counter : Option Word) : Msg where
  dst := draft.dst
  src := draft.src
  type := draft.type
  seq := draft.seq
  body := draft.sentBody prims pairing counter

theorem parse_sent (counter : Option Word) :
    parse (draft.sent prims pairing counter) = .ok (draft.sentMsg prims pairing counter) := by
  cases counter with
  | none => exact draft.parse_frame
  | some counter => exact draft.parse_signed prims pairing.key pairing.nonce counter

theorem manifest_signed (key nonce : List Byte) (counter : Word) :
    findPointer (draft.signedBody prims key nonce counter) Tag.signature =
      (Tlv.find draft.body Tag.signature).or (some (prims.authMac key nonce (draft.covered counter))) := by
  rw [findPointer, draft.find_signed prims key nonce counter (by decide) (by decide),
    draft.fields_signed, List.getLast?_append]
  rfl

theorem sameRequest {first second : Option Word} (attempts : Attempts pairing first second) :
    SameRequest (draft.sentBody prims pairing first) (draft.sentBody prims pairing second) := by
  cases attempts with
  | unsigned => exact ⟨fun _ _ _ => rfl, .inl rfl⟩
  | @signed first second new next =>
    constructor
    · intro tag not_counter not_auth
      rw [sentBody, sentBody, draft.find_signed _ _ _ _ not_counter not_auth,
        draft.find_signed _ _ _ _ not_counter not_auth]
    · simp only [sentBody, manifest_signed]
      cases Tlv.find draft.body Tag.signature with
      | some manifest => exact .inl rfl
      | none => exact .inr ⟨_, _, rfl, rfl, by simp, by simp⟩

theorem verify_sent (counter : Word) :
    verify prims (draft.sent prims pairing (some counter)) (draft.sentMsg prims pairing (some counter))
      pairing.key pairing.nonce = .ok counter :=
  draft.verify_signed prims pairing.key pairing.nonce counter rfl

theorem pubkey_sent (counter : Option Word) :
    getBytes (draft.sentMsg prims pairing counter).body Tag.pubkey 32 = getBytes draft.body Tag.pubkey 32 := by
  cases counter with
  | none => rfl
  | some counter =>
    change getBytes (draft.signedBody prims pairing.key pairing.nonce counter) Tag.pubkey 32 = _
    rw [getBytes, getBytes, draft.find_signed _ _ _ _ (by decide) (by decide)]

end Draft

namespace Bridge

variable (prims : Primitives) (env : Env) (b : Bridge)

/-- The bridge up to the last counter accepted and the time of the transfer's last request. -/
def settled : Bridge := b.touch 0 0

theorem serve_keeps (m : Msg) (signed : Option Word)
    (stays : (b.serve prims env m signed).reboots = false) :
    ((b.serve prims env m signed).bridge.serve prims env m signed).bridge = (b.serve prims env m signed).bridge := by
  by_cases ending : Kind.ofType m.type = .otaEnd
  · exact b.finish_keeps prims env m signed ending
  · exact (b.serve_repeats prims env m signed stays fun impossible => absurd impossible ending).1

theorem serve_twice (readings : Readings) (m m' : Msg) (same : SameRequest m.body m'.body)
    (type_eq : m'.type = m.type) (signed signed' : Option Word) (pairing : Pairing)
    (lastCounter : Word)
    (stays : ((b.admitted env pairing).serve prims env m signed).reboots = false) :
    let one := (b.admitted env pairing).serve prims env m signed
    let two := (one.bridge.admitted (env.later readings) { pairing with lastCounter }).serve prims
      (env.later readings) m' signed'
    two.bridge.settled = one.bridge.settled ∧ ((Kind.ofType m.type = .otaEnd → b.ota.seq.complete = false) →
        two.answer.map (·.result) = one.answer.map (·.result)) := by
  intro one two
  have kept : one.bridge.pairing = pairing := serve_pairing prims env _ m signed
  have confirmed : one.bridge.ota.confirm (env.later readings).ota = one.bridge.ota :=
    b.ota.confirm_again env.ota (serve_pending prims env _ m signed)
  have start : one.bridge.admitted (env.later readings) { pairing with lastCounter } =
      one.bridge.touch lastCounter one.bridge.ota.lastUs := by
    rw [admitted, confirmed, touch, kept]
  have alike := one.bridge.serve_alike prims env readings lastCounter one.bridge.ota.lastUs same type_eq signed signed'
  obtain ⟨⟨lastUs, bridge_eq⟩, result_eq, _⟩ := alike
  have two_eq : two = (one.bridge.touch lastCounter one.bridge.ota.lastUs).serve prims
      (env.later readings) m' signed' := by
    simp only [two, start]
  have seq_eq : (b.ota.confirm env.ota).seq = b.ota.seq := by
    simp only [BridgeOta.confirm]
    split <;> rfl
  constructor
  · rw [two_eq, settled, bridge_eq, serve_keeps prims env _ m signed stays]
    rfl
  · intro unfinished
    have repeats := serve_repeats prims env (b.admitted env pairing) m signed stays
      (fun ending => seq_eq ▸ unfinished ending)
    rw [two_eq, result_eq]
    exact repeats.2

theorem storePairkey_touch (readings : Readings) (lastCounter : Word) (lastUs : Nat)
    (key pub : List Byte) :
    (b.touch lastCounter lastUs).storePairkey (env.later readings) key pub =
      ((b.storePairkey env key pub).1.touch lastCounter lastUs, (b.storePairkey env key pub).2) := rfl

theorem pair_failed_again (readings : Readings) (lastCounter : Word) (lastUs : Nat) {m : Msg} (m' : Msg)
    {signed : Option Word} (signed' : Option Word) {newKey : List Byte}
    (failed : (b.pair prims env m signed newKey).answer.map (·.result) ≠ some .ok) :
    ((b.pair prims env m signed newKey).Alike
      (((b.pair prims env m signed newKey).bridge.touch lastCounter lastUs).pair prims
        (env.later readings) m' signed' newKey) lastCounter) := by
  cases derived : prims.pairKey env.secret newKey newKey (prims.x25519Public env.secret) with
  | none =>
    simp only [pair, Env.later, derived]
    exact ⟨⟨lastUs, rfl⟩, rfl, rfl⟩
  | some key =>
    cases stored : b.storePairkey env key (prims.x25519Public env.secret) with
    | mk after ok =>
      have again := b.storePairkey_again env key (prims.x25519Public env.secret)
      have later := after.storePairkey_touch env readings lastCounter lastUs key (prims.x25519Public env.secret)
      have secret_eq : (env.later readings).secret = env.secret := rfl
      rw [stored] at again
      simp only [again] at later
      cases ok with
      | true => simp [pair, derived, stored, reply] at failed
      | false =>
        simp only [pair, secret_eq, derived, stored, later, Bool.false_eq_true, if_false]
        exact ⟨⟨lastUs, rfl⟩, rfl, rfl⟩

theorem pair_twice (readings : Readings) {m : Msg} (m' : Msg) (signed signed' : Option Word)
    (newKey : List Byte) (pairing : Pairing) (lastCounter : Word)
    (failed : ((b.admitted env pairing).pair prims env m signed newKey).answer.map (·.result) ≠
      some .ok) :
    let one := (b.admitted env pairing).pair prims env m signed newKey
    let two := (one.bridge.admitted (env.later readings) { pairing with lastCounter }).pair prims
      (env.later readings) m' signed' newKey
    two.bridge.settled = one.bridge.settled ∧ two.answer.map (·.result) = one.answer.map (·.result) := by
  intro one two
  obtain ⟨kept, ota_kept⟩ := pair_failed_keeps prims env (b.admitted env pairing) failed
  have confirmed : one.bridge.ota.confirm (env.later readings).ota = one.bridge.ota :=
    b.ota.confirm_again env.ota (congrArg _ ota_kept)
  have start : one.bridge.admitted (env.later readings) { pairing with lastCounter } =
      one.bridge.touch lastCounter one.bridge.ota.lastUs := by
    rw [admitted, confirmed, touch, kept]
    rfl
  obtain ⟨⟨lastUs, bridge_eq⟩, result_eq, _⟩ := pair_failed_again prims env (b.admitted env pairing)
    readings lastCounter one.bridge.ota.lastUs m' signed' failed
  have two_eq : two = (one.bridge.touch lastCounter one.bridge.ota.lastUs).pair prims
      (env.later readings) m' signed' newKey := by
    simp only [two, start]
  rw [two_eq]
  exact ⟨(congrArg settled bridge_eq :), result_eq⟩

end Bridge

/-- Two sendings of one request fare alike: both are refused for the same reason, or both are
admitted. -/
theorem checked_twice (prims : Primitives) (draft : Draft) {pairing : Pairing}
    {first second : Option Word} (attempts : Attempts pairing first second) :
    (∃ verdict : PairVerdict, verdict.result ≠ .ok ∧
      pairing.check prims (draft.sent prims pairing first) (draft.sentMsg prims pairing first) =
        { pairing, verdict } ∧
      pairing.check prims (draft.sent prims pairing second) (draft.sentMsg prims pairing second) =
        { pairing, verdict }) ∨
    (∃ before after authed authed',
      pairing.check prims (draft.sent prims pairing first) (draft.sentMsg prims pairing first) =
        { pairing := { pairing with lastCounter := before }
          verdict := Pairing.asksFor (draft.sentMsg prims pairing first), authed } ∧
      ({ pairing with lastCounter := before } : Pairing).check prims (draft.sent prims pairing second)
          (draft.sentMsg prims pairing second) =
        { pairing := { pairing with lastCounter := after }
          verdict := Pairing.asksFor (draft.sentMsg prims pairing second), authed := authed' }) := by
  by_cases paired : pairing.paired = true
  · cases attempts with
    | unsigned =>
      have missing (frame : List Byte) := draft.verify_frame prims pairing.key pairing.nonce
        (draft.sentMsg prims pairing none) rfl frame
      refine .inl ⟨if draft.type = MsgType.pair then .alreadyPaired else .authMissing, ?_, ?_, ?_⟩
      · split <;> decide
      · simp only [Pairing.check, paired, missing, if_true]
        rfl
      · simp only [Pairing.check, paired, missing, if_true]
        rfl
    | @signed first second new next =>
      refine .inr ⟨first, second, some first, some second, ?_, ?_⟩
      · exact Pairing.check_signed paired (draft.verify_signed prims pairing.key pairing.nonce first rfl) (new paired)
      · have still : ({ pairing with lastCounter := first } : Pairing).paired = true := paired
        exact Pairing.check_signed still (draft.verify_signed prims pairing.key pairing.nonce second rfl) next
  · rw [Bool.not_eq_true] at paired
    by_cases other : draft.type ≠ MsgType.status ∧ draft.type ≠ MsgType.scan ∧ draft.type ≠ MsgType.pair
    · refine .inl ⟨.notPaired, by decide, ?_, ?_⟩
      · rw [Pairing.check_unpaired paired, if_pos]
        exact other
      · rw [Pairing.check_unpaired paired, if_pos]
        exact other
    · refine .inr ⟨pairing.lastCounter, pairing.lastCounter, none, none, ?_, ?_⟩
      · rw [Pairing.check_unpaired paired, if_neg]
        exact other
      · rw [Pairing.check_unpaired paired, if_neg]
        exact other

section Resent

variable (prims : Primitives) (env : Env) (readings : Readings) (draft : Draft) (b : Bridge)
  (first second : Option Word)

/-- The first sending handled. -/
def once : Handled := b.handle prims env (draft.sent prims b.pairing first)

/-- The second sending handled after it. -/
def twice : Handled :=
  (once prims env draft b first).bridge.handle prims (env.later readings)
    (draft.sent prims b.pairing second)

/-- A second sending leaves the bridge as the first did.  Its result is the first one's again, but
that of a PAIR that succeeded; nothing is said of the end of a complete transfer. -/
def Resent : Prop :=
  (twice prims env readings draft b first second).bridge.settled =
      (once prims env draft b first).bridge.settled ∧
    ((Kind.ofType draft.type = .otaEnd → b.ota.seq.complete = false) →
      (twice prims env readings draft b first second).answer.map (·.result) =
        if draft.type = MsgType.pair ∧ (once prims env draft b first).answer.map (·.result) = some .ok
        then some .alreadyPaired
        else (once prims env draft b first).answer.map (·.result))

variable {prims env readings draft b first second}

theorem resent_dropped (answer : draft.type &&& response ≠ 0) :
    Resent prims env readings draft b first second := by
  have once_eq : once prims env draft b first = { bridge := b } :=
    b.handle_answer prims env (draft.parse_sent ..) answer
  have twice_eq : twice prims env readings draft b first second = { bridge := b } := by
    rw [twice, once_eq]
    exact b.handle_answer prims (env.later readings) (draft.parse_sent ..) answer
  rw [Resent, twice_eq, once_eq, if_neg (by simp)]
  exact ⟨rfl, fun _ => rfl⟩

theorem once_act (request : draft.type &&& response = 0) :
    once prims env draft b first =
      b.act prims env (draft.sentMsg prims b.pairing first)
        (b.pairing.check prims (draft.sent prims b.pairing first)
          (draft.sentMsg prims b.pairing first)) :=
  b.handle_request prims env (draft.parse_sent ..) request

theorem twice_act (request : draft.type &&& response = 0) :
    twice prims env readings draft b first second =
      (once prims env draft b first).bridge.act prims (env.later readings)
        (draft.sentMsg prims b.pairing second)
        ((once prims env draft b first).bridge.pairing.check prims
          (draft.sent prims b.pairing second) (draft.sentMsg prims b.pairing second)) :=
  (once prims env draft b first).bridge.handle_request prims (env.later readings)
    (draft.parse_sent ..) request

theorem resent_of_refused {after after' : Bridge} {m m' : Msg} {verdict : PairVerdict}
    (once_eq : once prims env draft b first =
      { bridge := after, answer := some (after.refusal m verdict) })
    (twice_eq : twice prims env readings draft b first second =
      { bridge := after', answer := some (after'.refusal m' verdict) })
    (settled_eq : after'.settled = after.settled) (refused : verdict.result ≠ .ok) :
    Resent prims env readings draft b first second := by
  rw [Resent, twice_eq, once_eq, if_neg fun both => refused (Option.some.inj both.2)]
  exact ⟨settled_eq, fun _ => rfl⟩

theorem resent_refused (request : draft.type &&& response = 0) {verdict : PairVerdict}
    (refused : verdict.result ≠ .ok)
    (check : b.pairing.check prims (draft.sent prims b.pairing first)
      (draft.sentMsg prims b.pairing first) = { pairing := b.pairing, verdict })
    (check' : b.pairing.check prims (draft.sent prims b.pairing second)
      (draft.sentMsg prims b.pairing second) = { pairing := b.pairing, verdict }) :
    Resent prims env readings draft b first second := by
  have once_eq : once prims env draft b first =
      { bridge := b, answer := some (b.refusal (draft.sentMsg prims b.pairing first) verdict) } := by
    rw [once_act request, check]
    exact b.act_refused prims env refused
  have twice_eq : twice prims env readings draft b first second =
      { bridge := b, answer := some (b.refusal (draft.sentMsg prims b.pairing second) verdict) } := by
    rw [twice_act request, once_eq, check']
    exact b.act_refused prims (env.later readings) refused
  exact resent_of_refused once_eq twice_eq rfl refused

section Admitted

variable {before after : Word} {authed authed' : Option Word}
  (request : draft.type &&& response = 0) (attempts : Attempts b.pairing first second)
  (check : b.pairing.check prims (draft.sent prims b.pairing first)
      (draft.sentMsg prims b.pairing first) =
    { pairing := { b.pairing with lastCounter := before }
      verdict := Pairing.asksFor (draft.sentMsg prims b.pairing first), authed })
  (check' : ({ b.pairing with lastCounter := before } : Pairing).check prims
      (draft.sent prims b.pairing second) (draft.sentMsg prims b.pairing second) =
    { pairing := { b.pairing with lastCounter := after }
      verdict := Pairing.asksFor (draft.sentMsg prims b.pairing second), authed := authed' })

include request attempts check check'

theorem resent_served (not_pair : draft.type ≠ MsgType.pair)
    (stays : (once prims env draft b first).reboots = false) :
    Resent prims env readings draft b first second := by
  have once_eq : once prims env draft b first =
      (b.admitted env { b.pairing with lastCounter := before }).serve prims env
        (draft.sentMsg prims b.pairing first) authed := by
    rw [once_act request, check]
    exact b.act_accept prims env not_pair _ _
  have kept : (once prims env draft b first).bridge.pairing =
      { b.pairing with lastCounter := before } := by
    rw [once_eq]
    exact Bridge.serve_pairing prims env _ _ _
  have twice_eq : twice prims env readings draft b first second =
      ((once prims env draft b first).bridge.admitted (env.later readings)
        { b.pairing with lastCounter := after }).serve prims (env.later readings)
        (draft.sentMsg prims b.pairing second) authed' := by
    rw [twice_act request, kept, check']
    exact Bridge.act_accept prims (env.later readings) _ not_pair _ _
  rw [once_eq] at stays
  have served := b.serve_twice prims env readings (draft.sentMsg prims b.pairing first)
    (draft.sentMsg prims b.pairing second) (draft.sameRequest prims b.pairing attempts) rfl
    authed authed' { b.pairing with lastCounter := before } after stays
  rw [Resent, if_neg fun both => not_pair both.1, twice_eq, once_eq]
  exact served

omit attempts in
theorem resent_badKey (is_pair : draft.type = MsgType.pair)
    (found : getBytes draft.body Tag.pubkey 32 = none) :
    Resent prims env readings draft b first second := by
  have bad (counter : Option Word) : Pairing.asksFor (draft.sentMsg prims b.pairing counter) = .badKey := by
    simp only [Pairing.asksFor, draft.pubkey_sent, found]
    exact if_pos is_pair
  have once_eq : once prims env draft b first =
      { bridge := { b with pairing := { b.pairing with lastCounter := before } }
        answer := some (Bridge.refusal { b with pairing := { b.pairing with lastCounter := before } }
          (draft.sentMsg prims b.pairing first) .badKey) } := by
    rw [once_act request, check, bad]
    exact b.act_refused prims env (by decide)
  have twice_eq : twice prims env readings draft b first second =
      { bridge := { b with pairing := { b.pairing with lastCounter := after } }
        answer := some (Bridge.refusal { b with pairing := { b.pairing with lastCounter := after } }
          (draft.sentMsg prims b.pairing second) .badKey) } := by
    rw [twice_act request, once_eq, check', bad]
    exact Bridge.act_refused prims (env.later readings) _ (by decide)
  exact resent_of_refused once_eq twice_eq rfl (by decide)

omit attempts in
/-- A PAIR that is admitted twice: when it succeeds the bridge is taken. -/
theorem resent_pair (is_pair : draft.type = MsgType.pair) {newKey : List Byte}
    (found : getBytes draft.body Tag.pubkey 32 = some newKey)
    (rekeyed : (once prims env draft b first).answer.map (·.result) = some .ok → second.isSome →
      ∀ value, verify prims (draft.sent prims b.pairing second) (draft.sentMsg prims b.pairing second)
        (once prims env draft b first).bridge.pairing.key
        (once prims env draft b first).bridge.pairing.nonce ≠ .ok value) :
    Resent prims env readings draft b first second := by
  have once_eq : once prims env draft b first =
      (b.admitted env { b.pairing with lastCounter := before }).pair prims env
        (draft.sentMsg prims b.pairing first) authed newKey := by
    rw [once_act request, check]
    exact b.act_pair prims env is_pair ((draft.pubkey_sent ..).trans found) _ _
  by_cases succeeded : (once prims env draft b first).answer.map (·.result) = some .ok
  · have taken : (once prims env draft b first).bridge.pairing.paired = true := by
      rw [once_eq] at succeeded ⊢
      exact (Bridge.pair_ok prims env _ succeeded).1
    have unverified (value : Word) :
        verify prims (draft.sent prims b.pairing second) (draft.sentMsg prims b.pairing second)
          (once prims env draft b first).bridge.pairing.key
          (once prims env draft b first).bridge.pairing.nonce ≠ .ok value := by
      cases second with
      | none =>
        rw [draft.verify_frame prims _ _ (draft.sentMsg prims b.pairing none) rfl]
        simp
      | some counter => exact rekeyed succeeded rfl value
    obtain ⟨verdict, refusal, _, already⟩ := Pairing.check_unverified taken unverified
    have refused : verdict.result ≠ .ok := by
      rw [already is_pair]
      decide
    have twice_eq : twice prims env readings draft b first second =
        { bridge := (once prims env draft b first).bridge
          answer := some ((once prims env draft b first).bridge.refusal
            (draft.sentMsg prims b.pairing second) verdict) } := by
      rw [twice_act request, refusal]
      exact Bridge.act_refused prims (env.later readings) _ refused
    rw [Resent, if_pos ⟨is_pair, succeeded⟩, twice_eq]
    exact ⟨rfl, fun _ => congrArg some (already is_pair)⟩
  · have failed := succeeded
    rw [once_eq] at failed
    have kept : (once prims env draft b first).bridge.pairing =
        { b.pairing with lastCounter := before } := by
      rw [once_eq]
      exact (Bridge.pair_failed_keeps prims env _ failed).1
    have twice_eq : twice prims env readings draft b first second =
        ((once prims env draft b first).bridge.admitted (env.later readings)
          { b.pairing with lastCounter := after }).pair prims (env.later readings)
          (draft.sentMsg prims b.pairing second) authed' newKey := by
      rw [twice_act request, kept, check']
      exact Bridge.act_pair prims (env.later readings) _ is_pair ((draft.pubkey_sent ..).trans found) _ _
    have paired := b.pair_twice prims env readings (draft.sentMsg prims b.pairing second)
      authed authed' newKey { b.pairing with lastCounter := before } after failed
    rw [Resent, if_neg fun both => succeeded both.2, twice_eq, once_eq]
    exact ⟨paired.1, fun _ => paired.2⟩

end Admitted

theorem resent (attempts : Attempts b.pairing first second)
    (rekeyed : draft.type = MsgType.pair →
      (once prims env draft b first).answer.map (·.result) = some .ok → second.isSome →
      ∀ value, verify prims (draft.sent prims b.pairing second) (draft.sentMsg prims b.pairing second)
        (once prims env draft b first).bridge.pairing.key
        (once prims env draft b first).bridge.pairing.nonce ≠ .ok value)
    (stays : (once prims env draft b first).reboots = false) :
    Resent prims env readings draft b first second := by
  by_cases request : draft.type &&& response = 0
  · obtain ⟨verdict, refused, check, check'⟩ | ⟨before, after, authed, authed', check, check'⟩ :=
      checked_twice prims draft attempts
    · exact resent_refused request refused check check'
    · by_cases is_pair : draft.type = MsgType.pair
      · cases found : getBytes draft.body Tag.pubkey 32 with
        | none => exact resent_badKey request check check' is_pair found
        | some newKey => exact resent_pair request check check' is_pair found (rekeyed is_pair)
      · exact resent_served request attempts check check' is_pair stays
  · exact resent_dropped request

end Resent

theorem NvsPair.clear_result (port : NvsPort) (pair : NvsPair) : (pair.clear port).2 = (port.opens && port.commits) := by
  simp only [NvsPair.clear]
  cases port.opens <;> rfl

namespace Bridge

variable (prims : Primitives) (env : Env) (b : Bridge)

theorem clearCreds_eq :
    (b.clearCreds env).1.creds = (b.creds.clear env.creds).1 ∧
      (b.clearCreds env).1.pairkey = b.pairkey ∧ (b.clearCreds env).1.ota = b.ota ∧
      (b.clearCreds env).2 = (env.creds.opens && env.creds.commits) := by
  rw [← NvsPair.clear_result env.creds b.creds]
  cases opens : env.creds.opens with
  | true => simp only [clearCreds, opens, if_true, true_and]
  | false => simp only [clearCreds, opens, NvsPair.clear, Bool.false_eq_true, if_false, if_true, true_and]

theorem serveFactoryReset_eq (m : Msg) (signed : Option Word) :
    (b.serveFactoryReset env m signed).bridge.creds = (b.creds.clear env.creds).1 ∧
    (b.serveFactoryReset env m signed).bridge.pairkey =
      (if env.creds.opens && env.creds.commits then (b.pairkey.clear env.pairkey).1 else b.pairkey) ∧
    (b.serveFactoryReset env m signed).bridge.ota = b.ota ∧
    (b.serveFactoryReset env m signed).answer.map (·.result) =
      some (if (env.creds.opens && env.creds.commits) && (env.pairkey.opens && env.pairkey.commits)
        then .ok else .storage) := by
  obtain ⟨creds_eq, pairkey_eq, ota_eq, cleared⟩ := b.clearCreds_eq env
  rw [← NvsPair.clear_result env.pairkey b.pairkey]
  cases outcome : env.creds.opens && env.creds.commits with
  | true =>
    simp only [serveFactoryReset, resetSettings, cleared, outcome, if_true, clearPairkey, creds_eq, pairkey_eq, ota_eq,
      reply, Option.map_some, Bool.true_and, true_and]
  | false =>
    simp only [serveFactoryReset, resetSettings, cleared, outcome, creds_eq, pairkey_eq, ota_eq, reply,
      Option.map_some, Bool.false_and, Bool.false_eq_true, if_false, true_and]

theorem restart_again {nonce nonce' : List Byte} {after : Bridge}
    (creds_eq : after.creds = b.creds) (pairkey_eq : after.pairkey = b.pairkey)
    (boots : after.ota.boots = false) :
    after.restart nonce' =
      { b.restart nonce with
        pairing := { (b.restart nonce).pairing with nonce := nonce' }
        ota := { (b.restart nonce).ota with pending := false } } := by
  have init_nonce (key : Option (List Byte)) :
      Pairing.init nonce' key = { Pairing.init nonce key with nonce := nonce' } := by
    cases key <;> rfl
  simp only [restart, creds_eq, pairkey_eq, boots, init_nonce (Option.map _ _)]

end Bridge

section Restarted

variable {prims : Primitives} {env : Env} {readings : Readings} {draft : Draft} {b : Bridge}
  {first second : Option Word}

theorem once_restarts (attempts : Attempts b.pairing first second)
    (restarts : (once prims env draft b first).reboots = true) :
    draft.type &&& response = 0 ∧
      (Kind.ofType draft.type = .reboot ∨ Kind.ofType draft.type = .factoryReset) ∧
      ∃ pairing authed, once prims env draft b first =
        (b.admitted env pairing).serve prims env (draft.sentMsg prims b.pairing first) authed := by
  by_cases request : draft.type &&& response = 0
  · refine ⟨request, ?_⟩
    rw [once_act request] at restarts ⊢
    obtain ⟨verdict, refused, check, _⟩ | ⟨before, after, authed, _, check, _⟩ := checked_twice prims draft attempts
    · rw [check, b.act_refused prims env refused] at restarts
      cases restarts
    · rw [check] at restarts ⊢
      by_cases is_pair : draft.type = MsgType.pair
      · cases found : getBytes draft.body Tag.pubkey 32 with
        | none =>
          have bad : Pairing.asksFor (draft.sentMsg prims b.pairing first) = .badKey := by
            simp only [Pairing.asksFor, draft.pubkey_sent, found]
            exact if_pos is_pair
          rw [bad, b.act_refused prims env (by decide)] at restarts
          cases restarts
        | some newKey =>
          rw [b.act_pair prims env is_pair ((draft.pubkey_sent ..).trans found), Bridge.pair_reboots] at restarts
          cases restarts
      · have served := b.act_accept prims env (m := draft.sentMsg prims b.pairing first) is_pair
          { b.pairing with lastCounter := before } authed
        rw [served] at restarts ⊢
        exact ⟨(Bridge.serve_reboots prims env _ _ _).mp restarts, _, _, rfl⟩
  · have dropped : once prims env draft b first = { bridge := b } :=
      b.handle_answer prims env (draft.parse_sent ..) request
    rw [dropped] at restarts
    cases restarts

theorem not_unpaired_kind {type : Byte}
    (restarting : Kind.ofType type = .reboot ∨ Kind.ofType type = .factoryReset) :
    type ≠ MsgType.status ∧ type ≠ MsgType.scan ∧ type ≠ MsgType.pair := by
  refine ⟨?_, ?_, ?_⟩
  all_goals
    rintro rfl
    revert restarting
    decide

/-- The bridge after the restart that the first sending asks for. -/
def restarted (prims : Primitives) (env : Env) (draft : Draft) (b : Bridge) (first : Option Word)
    (nonce : List Byte) : Bridge :=
  (once prims env draft b first).bridge.restart nonce

/-- The request sent again to the restarted bridge, signed under the new nonce while the bridge is
still paired. -/
def resentAfter (prims : Primitives) (env : Env) (readings : Readings) (draft : Draft) (up : Bridge)
    (counter : Word) : Handled :=
  up.handle prims (env.later readings)
    (draft.sent prims up.pairing (if up.pairing.paired then some counter else none))

theorem serve_restarting (readings : Readings) (x y : Bridge) (m m' : Msg) (signed signed' : Option Word)
    (type_eq : m'.type = m.type)
    (kind : Kind.ofType m.type = .reboot ∨ Kind.ofType m.type = .factoryReset)
    (creds_eq : y.creds = (x.serve prims env m signed).bridge.creds)
    (pairkey_eq : y.pairkey = (x.serve prims env m signed).bridge.pairkey) :
    let again := y.serve prims (env.later readings) m' signed'
    again.answer.map (·.result) = (x.serve prims env m signed).answer.map (·.result) ∧
      again.bridge.creds = y.creds ∧ again.bridge.pairkey = y.pairkey ∧ again.bridge.ota = y.ota := by
  obtain reboot | reset := kind
  · have x_eq : x.serve prims env m signed =
        { bridge := x, answer := some (Bridge.reply m signed .ok none), reboots := true } := by
      simp only [Bridge.serve, reboot]
    have y_eq : y.serve prims (env.later readings) m' signed' =
        { bridge := y, answer := some (Bridge.reply m' signed' .ok none), reboots := true } := by
      simp only [Bridge.serve, type_eq, reboot]
    rw [x_eq, y_eq]
    exact ⟨rfl, rfl, rfl, rfl⟩
  · simp only [Bridge.serve, type_eq, reset] at creds_eq pairkey_eq ⊢
    obtain ⟨creds, pairkey, _, result⟩ := x.serveFactoryReset_eq env m signed
    obtain ⟨creds', pairkey', ota', result'⟩ := y.serveFactoryReset_eq (env.later readings) m' signed'
    rw [creds] at creds_eq
    rw [pairkey] at pairkey_eq
    refine ⟨result'.trans result.symm, ?_, ?_, ota'⟩
    · rw [creds', creds_eq]
      exact congrArg Prod.fst (x.creds.clear_again env.creds)
    · rw [pairkey', pairkey_eq]
      simp only [Env.later]
      split
      · exact congrArg Prod.fst (x.pairkey.clear_again env.pairkey)
      · rfl

/-- A restarted bridge that is still paired executes the request once more with the same result, and
the restart after that leaves what the first one left.  An unpaired one refuses it. -/
theorem resent_restarted (attempts : Attempts b.pairing first second)
    (restarts : (once prims env draft b first).reboots = true) (nonce nonce' : List Byte)
    {counter : Word} (positive : 0 < counter) :
    let up := restarted prims env draft b first nonce
    let again := resentAfter prims env readings draft up counter
    if up.pairing.paired then
      again.answer.map (·.result) = (once prims env draft b first).answer.map (·.result) ∧
        again.bridge.restart nonce' = { up with
            pairing := { up.pairing with nonce := nonce' }
            ota := { up.ota with pending := false } }
    else again.answer.map (·.result) = some .notPaired ∧ again.bridge = up := by
  intro up again
  obtain ⟨request, kind, pairing, authed, once_eq⟩ := once_restarts attempts restarts
  have not_pair := (not_unpaired_kind kind).2.2
  split
  · rename_i paired
    have above : up.pairing.lastCounter < counter := by
      have zero : up.pairing.lastCounter = 0 := Pairing.init_lastCounter ..
      rwa [zero]
    have check := Pairing.check_signed paired (draft.verify_sent prims up.pairing counter) above
    have again_eq : again = (up.admitted (env.later readings) { up.pairing with lastCounter := counter }).serve
        prims (env.later readings) (draft.sentMsg prims up.pairing (some counter)) (some counter) := by
      change up.handle prims _ (draft.sent prims up.pairing (if up.pairing.paired then _ else _)) = _
      rw [if_pos paired, up.handle_request prims _ (draft.parse_sent ..) request, check]
      exact up.act_accept prims (env.later readings) not_pair _ _
    have up_creds : up.creds = (once prims env draft b first).bridge.creds := rfl
    have up_pairkey : up.pairkey = (once prims env draft b first).bridge.pairkey := rfl
    obtain ⟨result, creds, pairkey, ota⟩ := serve_restarting readings (b.admitted env pairing)
      (up.admitted (env.later readings) { up.pairing with lastCounter := counter })
      (draft.sentMsg prims b.pairing first) (draft.sentMsg prims up.pairing (some counter)) authed
      (some counter) rfl kind (once_eq ▸ up_creds) (once_eq ▸ up_pairkey)
    rw [← again_eq] at result creds pairkey ota
    rw [once_eq]
    refine ⟨result, ?_⟩
    have boots : again.bridge.ota.boots = false := by
      rw [ota]
      change (up.ota.confirm _).boots = false
      simp only [BridgeOta.confirm]
      split <;> rfl
    exact Bridge.restart_again _ (creds.trans up_creds) (pairkey.trans up_pairkey) boots
  · rename_i unpaired
    rw [Bool.not_eq_true] at unpaired
    have again_eq : again = { bridge := up
                              answer := some (up.refusal (draft.sentMsg prims up.pairing none) .notPaired) } := by
      simp only [again, resentAfter, unpaired, Bool.false_eq_true, if_false]
      rw [up.handle_request prims _ (draft.parse_sent ..) request, Pairing.check_unpaired unpaired, if_pos]
      · exact up.act_refused prims _ (by decide)
      · exact not_unpaired_kind kind
    rw [again_eq]
    exact ⟨rfl, rfl⟩

/-- A request that is sent again because its answer was lost does what it did the first time: it
changes nothing more, and its result is the same, but that a PAIR that succeeded finds the bridge
paired and a FACTORY_RESET that succeeded finds it unpaired.  A MAC under the old key is taken not to
verify under the new one. -/
theorem retry_idempotent (prims : Primitives) (env : Env) (readings : Readings) (draft : Draft)
    (b : Bridge) {first second : Option Word} (attempts : Attempts b.pairing first second)
    (rekeyed : draft.type = MsgType.pair →
      (once prims env draft b first).answer.map (·.result) = some .ok → second.isSome →
      ∀ value, verify prims (draft.sent prims b.pairing second) (draft.sentMsg prims b.pairing second)
        (once prims env draft b first).bridge.pairing.key
        (once prims env draft b first).bridge.pairing.nonce ≠ .ok value) :
    ((once prims env draft b first).reboots = false →
      Resent prims env readings draft b first second) ∧
    ((once prims env draft b first).reboots = true →
      ∀ (nonce nonce' : List Byte) (counter : Word), 0 < counter →
        let up := restarted prims env draft b first nonce
        let again := resentAfter prims env readings draft up counter
        if up.pairing.paired then
          again.answer.map (·.result) = (once prims env draft b first).answer.map (·.result) ∧
            again.bridge.restart nonce' =
              { up with
                pairing := { up.pairing with nonce := nonce' }
                ota := { up.ota with pending := false } }
        else again.answer.map (·.result) = some .notPaired ∧ again.bridge = up) :=
  ⟨resent attempts rekeyed, fun restarts nonce nonce' _ positive =>
    resent_restarted attempts restarts nonce nonce' positive⟩

end Restarted

/-- The same surroundings a second later. -/
def sampleReadings : Readings where
  now := 1000000
  radio := sampleEnv.radio
  aps := []
  ethLink := true
  podMac := none

/-- A key rotation that is sent again, signed under the old key both times. -/
theorem retry_idempotent_rotation :
    Resent samplePrimitives sampleEnv sampleReadings samplePair pairedBridge (some 1) (some 2) := by
  have unverified :
      verify samplePrimitives (samplePair.sent samplePrimitives pairedBridge.pairing (some 2))
        (samplePair.sentMsg samplePrimitives pairedBridge.pairing (some 2))
        (once samplePrimitives sampleEnv samplePair pairedBridge (some 1)).bridge.pairing.key
        (once samplePrimitives sampleEnv samplePair pairedBridge (some 1)).bridge.pairing.nonce =
          .bad := by
    decide +kernel
  refine (retry_idempotent samplePrimitives sampleEnv sampleReadings samplePair pairedBridge
    (.signed (fun _ => by decide) (by decide)) ?_).1 (by decide +kernel)
  intro _ _ _ value verified
  rw [unverified] at verified
  cases verified

/-- An unpaired bridge that executed a PAIR refuses the same PAIR when it comes again. -/
theorem pair_retry_refused :
    (once samplePrimitives sampleEnv samplePair unpairedBridge none).answer.map (·.result) = some .ok ∧
      (twice samplePrimitives sampleEnv sampleReadings samplePair unpairedBridge none none).answer.map
        (·.result) = some .alreadyPaired := by
  decide +kernel

end BenchPod.Bwp
