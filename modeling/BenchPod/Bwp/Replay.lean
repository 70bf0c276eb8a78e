import BenchPod.Bwp.Control
import BenchPod.Library.Emitter

/-!
# No signed request is accepted twice

A bridge meets frames from anybody in any order, the buttons and the console, and restarts.  While
its key and nonce last, the signed requests it accepts carry strictly increasing counters.
-/

namespace BenchPod.Bwp

/-- What can happen to a bridge. -/
inductive BridgeEvent where
  /-- A frame is received.  The nonce is that of the boot that follows a restart it asks for. -/
  | frame (env : Env) (bytes nonce : List Byte)
  /-- The pairing is forgotten on the spot. -/
  | forget (port : NvsPort)
  /-- The settings are erased on the spot. -/
  | factoryReset (env : Env) (nonce : List Byte)
  | restart (nonce : List Byte)

namespace Bridge

def forgetPairing (port : NvsPort) (b : Bridge) : Bridge :=
  { b with
    pairkey := (b.pairkey.clear port).1
    pairing := b.pairing.forget
    pub := zeros 32 }

variable (prims : Primitives)

/-- The bridge after an event. -/
def step (b : Bridge) : BridgeEvent → Bridge
  | .frame env bytes nonce =>
    let handled := b.handle prims env bytes
    if handled.reboots then handled.bridge.restart nonce else handled.bridge
  | .forget port => b.forgetPairing port
  | .factoryReset env nonce => (b.resetSettings env).1.restart nonce
  | .restart nonce => b.restart nonce

/-- The counter under which a frame is accepted as signed. -/
def authed (b : Bridge) (bytes : List Byte) : Option Word :=
  match parse bytes with
  | .error _ => none
  | .ok m => if m.type &&& response ≠ 0 then none else (b.pairing.check prims bytes m).authed

/-- The frame an event gets accepted as signed, with its counter. -/
def accept (b : Bridge) : BridgeEvent → Option (List Byte × Word)
  | .frame _ bytes _ => (b.authed prims bytes).map (bytes, ·)
  | _ => none

/-- A bridge and the signed requests it accepts. -/
def system : Emitter Bridge BridgeEvent (List Byte × Word) where
  step := step prims
  emit := accept prims

/-- The event sets the key or the nonce: it restarts the bridge, forgets the pairing, or is a PAIR
that succeeds. -/
def Renews (b : Bridge) : BridgeEvent → Prop
  | .frame env bytes _ =>
    (b.handle prims env bytes).reboots = true ∨
      ((∃ m, parse bytes = .ok m ∧ m.type = MsgType.pair) ∧ (b.handle prims env bytes).answer.map (·.result) = some .ok)
  | _ => True

/-- The event is one that may take the pairing away: a PAIR or a FACTORY_RESET accepted as signed,
or something done on the spot. -/
def Rekeys (b : Bridge) : BridgeEvent → Prop
  | .frame _ bytes _ =>
    (∃ m, parse bytes = .ok m ∧ (m.type = MsgType.pair ∨ m.type = MsgType.factoryReset)) ∧ (b.authed prims bytes).isSome
  | .restart _ => False
  | _ => True

/-- The event restarts the bridge. -/
def Restarts (b : Bridge) : BridgeEvent → Prop
  | .frame env bytes _ => (b.handle prims env bytes).reboots = true
  | .forget _ => False
  | _ => True

end Bridge

/-- A frame ends in the MAC of its bytes from the magic on under a key and a nonce, and carries a
counter. -/
def Carries (prims : Primitives) (key nonce bytes : List Byte) (counter : Word) : Prop :=
  ∃ m front, parse bytes = .ok m ∧ getU32 m.body Tag.counter = some counter ∧
    m.body = front ++ Tlv.put Tag.auth (prims.authMac key nonce (slice bytes ethHdrLen (hdrLen + front.length)))

namespace Pairing

variable {prims : Primitives} {pairing : Pairing} {frame : List Byte} {m : Msg}

theorem check_storeKey {newKey : List Byte}
    (stores : (pairing.check prims frame m).verdict = .storeKey newKey) : m.type = MsgType.pair := by
  have admitted (admits : asksFor m = .storeKey newKey) : m.type = MsgType.pair := by
    by_contra not_pair
    rw [asksFor, if_neg not_pair] at admits
    cases admits
  unfold check at stores
  split at stores
  · split at stores
    · simp only at stores
      split at stores <;> cases stores
    · simp only at stores
      split at stores <;> cases stores
    · split at stores
      · cases stores
      · exact admitted stores
  · split at stores
    · cases stores
    · exact admitted stores

theorem check_unauthed (paired : pairing.paired = true)
    (unauthed : (pairing.check prims frame m).authed = none) :
    ∃ verdict, pairing.check prims frame m = { pairing, verdict } ∧ verdict.result ≠ .ok := by
  unfold check at unauthed ⊢
  rw [if_pos paired] at unauthed ⊢
  cases verified : verify prims frame m pairing.key pairing.nonce with
  | missing =>
    refine ⟨_, rfl, ?_⟩
    split <;> decide
  | bad =>
    refine ⟨_, rfl, ?_⟩
    split <;> decide
  | ok counter =>
    simp only [verified] at unauthed ⊢
    split at unauthed
    · rename_i low
      exact ⟨.replay, by rw [if_pos low], by decide⟩
    · cases unauthed

end Pairing

namespace Bridge

variable {prims : Primitives} {env : Env} {b : Bridge} {bytes : List Byte}

theorem act_pairing (prims : Primitives) (env : Env) (b : Bridge) {m : Msg} (checked : Checked)
    (stores : ∀ newKey, checked.verdict = .storeKey newKey → m.type = MsgType.pair) :
    (b.act prims env m checked).bridge.pairing = checked.pairing ∨
      (m.type = MsgType.pair ∧ (b.act prims env m checked).answer.map (·.result) = some .ok) := by
  obtain ⟨pairing, verdict, authed⟩ := checked
  cases verdict with
  | accept => exact .inl (serve_pairing prims env _ m authed)
  | storeKey newKey =>
    by_cases succeeded : ((b.admitted env pairing).pair prims env m authed newKey).answer.map (·.result) = some .ok
    · exact .inr ⟨stores newKey rfl, succeeded⟩
    · exact .inl (pair_failed_keeps prims env _ succeeded).1
  | _ => exact .inl rfl

theorem handle_pairing (renews : ¬b.Renews prims (.frame env bytes nonce)) :
    (b.handle prims env bytes).bridge.pairing =
      { b.pairing with lastCounter := (b.authed prims bytes).getD b.pairing.lastCounter } := by
  simp only [Renews, not_or, not_and] at renews
  cases parsed : parse bytes with
  | error _ => simp only [handle, authed, parsed, Option.getD_none]
  | ok m =>
    by_cases answer : m.type &&& response ≠ 0
    · simp only [handle, authed, parsed, if_pos answer, Option.getD_none]
    · have request : m.type &&& response = 0 := by
        simpa using answer
      have handled := b.handle_request prims env parsed request
      have accepted : b.authed prims bytes = (b.pairing.check prims bytes m).authed := by
        simp only [authed, parsed, if_neg answer]
      obtain kept | ⟨is_pair, succeeded⟩ := act_pairing prims env b
        (b.pairing.check prims bytes m) fun _ => Pairing.check_storeKey
      · rw [handled, kept, accepted]
        exact Pairing.check_pairing
      · rw [← handled] at succeeded
        exact absurd succeeded (renews.2 ⟨m, parsed, is_pair⟩)

theorem authed_spec {counter : Word} (accepted : b.authed prims bytes = some counter) :
    b.pairing.paired = true ∧ b.pairing.lastCounter < counter ∧
      Carries prims b.pairing.key b.pairing.nonce bytes counter := by
  unfold authed at accepted
  split at accepted
  · cases accepted
  · rename_i m parsed
    split at accepted
    · cases accepted
    · obtain ⟨paired, verified, above⟩ := Pairing.check_authed_iff.mp accepted
      obtain ⟨read, front, _, _, body_eq⟩ := verify_ok (parse_ok parsed).chain verified
      exact ⟨paired, above, m, front, parsed, read, body_eq⟩

theorem step_pairing {event : BridgeEvent} (renews : ¬b.Renews prims event) :
    (b.step prims event).pairing =
      { b.pairing with
        lastCounter := ((b.accept prims event).map (·.2)).getD b.pairing.lastCounter } := by
  cases event with
  | frame env bytes nonce =>
    have stays : ¬(b.handle prims env bytes).reboots = true := fun reboots => renews (.inl reboots)
    have kept := handle_pairing renews
    simp only [step, if_neg stays, accept, Option.map_map]
    rw [kept]
    cases b.authed prims bytes <;> rfl
  | forget port => exact absurd trivial renews
  | factoryReset env nonce => exact absurd trivial renews
  | restart nonce => exact absurd trivial renews

theorem accept_spec {event : BridgeEvent} {entry : List Byte × Word}
    (accepted : b.accept prims event = some entry) :
    b.pairing.lastCounter < entry.2 ∧ Carries prims b.pairing.key b.pairing.nonce entry.1 entry.2 := by
  cases event with
  | frame env bytes nonce =>
    obtain ⟨counter, authed, rfl⟩ := Option.map_eq_some_iff.mp accepted
    exact (authed_spec authed).2
  | forget port => cases accepted
  | factoryReset env nonce => cases accepted
  | restart nonce => cases accepted

theorem steady_carries {events : List BridgeEvent}
    (steady : (system prims).Along (fun b event => ¬b.Renews prims event) b events) :
    ∀ entry ∈ (system prims).emitted b events, Carries prims b.pairing.key b.pairing.nonce entry.1 entry.2 := by
  refine steady.emitted_forall _ (fun now =>
    now.pairing.key = b.pairing.key ∧ now.pairing.nonce = b.pairing.nonce) ?_ ?_ ⟨rfl, rfl⟩
  · intro now event good renews
    change (now.step prims event).pairing.key = _ ∧ (now.step prims event).pairing.nonce = _
    rw [step_pairing renews]
    exact good
  · rintro now event ⟨key_eq, nonce_eq⟩ _ entry accepted
    rw [← key_eq, ← nonce_eq]
    exact (accept_spec accepted).2

theorem steady_increasing {events : List BridgeEvent}
    (steady : (system prims).Along (fun b event => ¬b.Renews prims event) b events) :
    ((system prims).emitted b events).Pairwise fun earlier later =>
      earlier.2.toNat < later.2.toNat := by
  have raises : (system prims).Along ((system prims).Raises
      (fun now => now.pairing.lastCounter.toNat) fun entry => entry.2.toNat) b events := by
    refine steady.imp _ ?_
    intro now event renews
    have mark_eq : ((system prims).step now event).pairing.lastCounter =
        ((now.accept prims event).map (·.2)).getD now.pairing.lastCounter :=
      congrArg _ (step_pairing renews)
    simp only [Emitter.Raises, mark_eq]
    constructor
    · cases accepted : now.accept prims event with
      | none => exact Nat.le_refl _
      | some entry => exact Nat.le_of_lt (accept_spec accepted).1
    · intro entry accepted
      have accepted : now.accept prims event = some entry := accepted
      rw [accepted]
      exact ⟨(accept_spec accepted).1, Nat.le_refl _⟩
  exact raises.increasing.2

theorem steady_nodup {events : List BridgeEvent}
    (steady : (system prims).Along (fun b event => ¬b.Renews prims event) b events) :
    (((system prims).emitted b events).map (·.1)).Nodup := by
  rw [List.nodup_iff_pairwise_ne, List.pairwise_map]
  have carries := steady_carries steady
  refine (steady_increasing steady).imp_of_mem ?_
  intro earlier later earlier_mem later_mem rises same
  obtain ⟨m, _, parsed, read, _⟩ := carries earlier earlier_mem
  obtain ⟨m', _, parsed', read', _⟩ := carries later later_mem
  -- the counter is read off the frame, so equal frames carry equal counters
  rw [same, parsed', Except.ok.injEq] at parsed
  rw [← parsed, read', Option.some.injEq] at read
  rw [read] at rises
  exact Nat.lt_irrefl _ rises

theorem unpaired_executes (unpaired : b.pairing.paired = false) {m : Msg} (parsed : parse bytes = .ok m)
    (other : m.type ≠ MsgType.status ∧ m.type ≠ MsgType.scan ∧ m.type ≠ MsgType.pair) :
    (b.handle prims env bytes).bridge = b ∧ (b.handle prims env bytes).reboots = false ∧
      ∀ answer ∈ (b.handle prims env bytes).answer, answer.result = .notPaired := by
  by_cases request : m.type &&& response = 0
  · rw [b.handle_request prims env parsed request, Pairing.check_unpaired unpaired, if_pos other,
      b.act_refused prims env (by decide)]
    refine ⟨rfl, rfl, ?_⟩
    rintro answer ⟨⟩
    rfl
  · rw [b.handle_answer prims env parsed request]
    exact ⟨rfl, rfl, by simp⟩

/-- The pairing in force is the one a restart loads. -/
def Stored (b : Bridge) (key : List Byte) : Prop :=
  b.pairing.paired = true ∧ b.pairing.key = key ∧ (pairkeyLoad b.pairkey).map (·.1) = some key

theorem Stored.restart {key : List Byte} (stored : b.Stored key) (nonce : List Byte) : (b.restart nonce).Stored key := by
  have loaded := stored.2.2
  refine ⟨?_, ?_, loaded⟩
  · simp only [Bridge.restart, loaded]
    rfl
  · simp only [Bridge.restart, loaded]
    rfl

theorem serve_pairkey {m : Msg} (keeps : m.type ≠ MsgType.factoryReset) (signed : Option Word) :
    (b.serve prims env m signed).bridge.pairkey = b.pairkey := by
  unfold serve
  cases kind : Kind.ofType m.type with
  | setWifi =>
    simp only [serveSetWifi]
    split
    · rfl
    · split
      · rfl
      · simp only [setWifi, storeCreds]
        split
        · split <;> rfl
        · split <;> rfl
  | clearWifi =>
    simp only [serveClearWifi, clearWifi, clearCreds]
    split <;> rfl
  | otaBegin =>
    simp only [serveOtaBegin]
    split <;> rfl
  | otaData =>
    simp only [serveOtaData]
    split <;> rfl
  | factoryReset => exact absurd (Kind.eq_factoryReset kind) keeps
  | status => rfl
  | scan => rfl
  | otaEnd => rfl
  | otaAbort => rfl
  | reboot => rfl
  | pair => rfl
  | unknown => rfl

theorem handle_keeps (env : Env) (paired : b.pairing.paired = true)
    (harmless : ¬b.Rekeys prims (.frame env bytes nonce)) :
    (b.handle prims env bytes).bridge.pairing.paired = true ∧
      (b.handle prims env bytes).bridge.pairing.key = b.pairing.key ∧
      (b.handle prims env bytes).bridge.pairkey = b.pairkey := by
  cases parsed : parse bytes with
  | error _ =>
    have dropped : b.handle prims env bytes = { bridge := b } := by simp only [handle, parsed]
    rw [dropped]
    exact ⟨paired, rfl, rfl⟩
  | ok m =>
    by_cases request : m.type &&& response = 0
    · rw [b.handle_request prims env parsed request]
      cases authed : (b.pairing.check prims bytes m).authed with
      | none =>
        obtain ⟨verdict, check, refused⟩ := Pairing.check_unauthed paired authed
        rw [check, b.act_refused prims env refused]
        exact ⟨paired, rfl, rfl⟩
      | some counter =>
        have accepted : b.authed prims bytes = some counter := by
          simp only [Bridge.authed, parsed, request, ne_eq, not_true, if_false, authed]
        have other : ¬(m.type = MsgType.pair ∨ m.type = MsgType.factoryReset) := fun rekeys =>
          harmless ⟨⟨m, parsed, rekeys⟩, by rw [accepted]; rfl⟩
        rw [not_or] at other
        obtain ⟨_, verified, above⟩ := Pairing.check_authed_iff.mp authed
        rw [Pairing.check_signed paired verified above, b.act_accept prims env other.1,
          serve_pairing, serve_pairkey other.2]
        exact ⟨paired, rfl, rfl⟩
    · rw [b.handle_answer prims env parsed request]
      exact ⟨paired, rfl, rfl⟩

theorem run_key {events : List BridgeEvent} (paired : b.pairing.paired = true)
    (harmless : (system prims).Along
      (fun now event => ¬now.Rekeys prims event ∧ ¬now.Restarts prims event) b events) :
    ((system prims).run b events).pairing.paired = true ∧ ((system prims).run b events).pairing.key = b.pairing.key := by
  refine harmless.invariant _ (fun now =>
    now.pairing.paired = true ∧ now.pairing.key = b.pairing.key) ?_ ⟨paired, rfl⟩
  rintro now event ⟨paired, key_eq⟩ ⟨harmless, stays⟩
  cases event with
  | frame env bytes nonce =>
    obtain ⟨paired', key_eq', _⟩ := handle_keeps env paired harmless
    have up : ¬(now.handle prims env bytes).reboots = true := stays
    change (now.step prims (.frame env bytes nonce)).pairing.paired = true ∧
      (now.step prims (.frame env bytes nonce)).pairing.key = b.pairing.key
    simp only [step, if_neg up]
    exact ⟨paired', key_eq'.trans key_eq⟩
  | restart nonce => exact absurd trivial stays
  | forget port => exact absurd trivial harmless
  | factoryReset env nonce => exact absurd trivial harmless

theorem run_stored {key : List Byte} {events : List BridgeEvent} (stored : b.Stored key)
    (harmless : (system prims).Along (fun b event => ¬b.Rekeys prims event) b events) :
    ((system prims).run b events).Stored key := by
  refine harmless.invariant _ (fun now => now.Stored key) ?_ stored
  intro now event stored harmless
  cases event with
  | frame env bytes nonce =>
    obtain ⟨paired, key_eq, pairkey_eq⟩ := handle_keeps env stored.1 harmless
    have kept : (now.handle prims env bytes).bridge.Stored key := by
      refine ⟨paired, key_eq.trans stored.2.1, ?_⟩
      rw [pairkey_eq]
      exact stored.2.2
    change (now.step prims (.frame env bytes nonce)).Stored key
    simp only [step]
    split
    · exact kept.restart nonce
    · exact kept
  | restart nonce => exact stored.restart nonce
  | forget port => exact absurd trivial harmless
  | factoryReset env nonce => exact absurd trivial harmless

end Bridge

open Bridge in
/-- Replay and ordering safety of the bridge.  While the key and the nonce last, the signed requests
accepted carry the MAC of the current key and nonce, strictly increasing counters, and no frame
twice.  A paired bridge keeps its key until a PAIR or a FACTORY_RESET is accepted as signed or the
pairing is taken away on the spot, through restarts too when the stored key is the one in force.  An
unpaired one executes STATUS, SCAN and PAIR only. -/
theorem replay_safe (prims : Primitives) (b : Bridge) (events : List BridgeEvent) :
    ((system prims).Along (fun now event => ¬now.Renews prims event) b events →
      (∀ entry ∈ (system prims).emitted b events,
        Carries prims b.pairing.key b.pairing.nonce entry.1 entry.2) ∧
      (((system prims).emitted b events).Pairwise fun earlier later => earlier.2.toNat < later.2.toNat) ∧
      (((system prims).emitted b events).map (·.1)).Nodup) ∧
    (b.pairing.paired = true →
      (system prims).Along (fun now event => ¬now.Rekeys prims event ∧ ¬now.Restarts prims event) b
        events →
      ((system prims).run b events).pairing.paired = true ∧
        ((system prims).run b events).pairing.key = b.pairing.key) ∧
    (∀ key, b.Stored key →
      (system prims).Along (fun now event => ¬now.Rekeys prims event) b events →
      ((system prims).run b events).Stored key) ∧
    (b.pairing.paired = false → ∀ env bytes m, parse bytes = .ok m →
      m.type ≠ MsgType.status ∧ m.type ≠ MsgType.scan ∧ m.type ≠ MsgType.pair →
      (b.handle prims env bytes).bridge = b ∧ (b.handle prims env bytes).reboots = false ∧
        ∀ answer ∈ (b.handle prims env bytes).answer, answer.result = .notPaired) :=
  ⟨fun steady => ⟨steady_carries steady, steady_increasing steady, steady_nodup steady⟩,
    fun paired harmless => run_key paired harmless,
    fun _ stored harmless => run_stored stored harmless,
    fun unpaired _ _ _ parsed other => unpaired_executes unpaired parsed other⟩

/-- A bare request of the pod the sample bridge is paired with. -/
def sampleRequest (type : Byte) : Draft :=
  { samplePair with type, body := [], fits := by decide, chain := .nil, unsigned := by decide }

/-- The frame of a bare request, signed for the sample bridge. -/
def sampleSigned (type : Byte) (counter : Word) : List Byte :=
  (sampleRequest type).signed samplePrimitives pairedBridge.pairing.key pairedBridge.pairing.nonce
    counter

/-- A SCAN that is recorded and sent again is accepted as signed once. -/
theorem replay_safe_scan :
    let frame := BridgeEvent.frame sampleEnv (sampleSigned MsgType.scan 1) []
    ((Bridge.system samplePrimitives).emitted pairedBridge [frame, frame]).length = 1 ∧
      (((Bridge.system samplePrimitives).emitted pairedBridge [frame, frame]).map (·.1)).Nodup := by
  intro frame
  have steady : (Bridge.system samplePrimitives).Along
      (fun now event => ¬now.Renews samplePrimitives event) pairedBridge [frame, frame] := by
    have not_pair (m : Msg) (parsed : parse (sampleSigned MsgType.scan 1) = .ok m) :
        m.type ≠ MsgType.pair := by
      have type_eq : (parse (sampleSigned MsgType.scan 1)).map (·.type) = .ok MsgType.scan := by decide +kernel
      rw [parsed, Except.map, Except.ok.injEq] at type_eq
      rw [type_eq]
      decide
    refine ⟨?_, ?_, trivial⟩
    · rintro (reboots | ⟨⟨m, parsed, is_pair⟩, -⟩)
      · exact absurd reboots (by decide +kernel)
      · exact not_pair m parsed is_pair
    · rintro (reboots | ⟨⟨m, parsed, is_pair⟩, -⟩)
      · exact absurd reboots (by decide +kernel)
      · exact not_pair m parsed is_pair
  exact ⟨by decide +kernel, ((replay_safe samplePrimitives pairedBridge [frame, frame]).1 steady).2.2⟩

/-- A FACTORY_RESET that is accepted as signed takes the key away. -/
theorem key_lost_by_reset :
    pairedBridge.pairing.paired = true ∧
      (parse (sampleSigned MsgType.factoryReset 1)).map (·.type) = .ok MsgType.factoryReset ∧
      (pairedBridge.authed samplePrimitives (sampleSigned MsgType.factoryReset 1)).isSome ∧
      (pairedBridge.step samplePrimitives
        (.frame sampleEnv (sampleSigned MsgType.factoryReset 1) (List.replicate 8 2))).pairing.paired =
          false := by
  decide +kernel

end BenchPod.Bwp
