import BenchPod.Bwp.Client

/-!
# What the client signs with

Apart from HELLOs and answers nothing changes what a signature is made of, and a turn signs at most
one frame, with the next counter.
-/

namespace BenchPod.Bwp

/-- What a signature is made of, and where its key comes from. -/
structure Signer where
  mac : List Byte
  secret : List Byte
  pub : List Byte
  haveSecret : Bool
  bridgePub : List Byte
  key : List Byte
  haveKey : Bool
  nonce : List Byte
  counter : Word

def Client.signer (b : Client) : Signer where
  mac := b.mac
  secret := b.secret
  pub := b.pub
  haveSecret := b.haveSecret
  bridgePub := b.bridgePub
  key := b.key
  haveKey := b.haveKey
  nonce := b.nonce
  counter := b.counter

/-- The next signature. -/
def Signer.next (signer : Signer) : Signature where
  key := signer.key
  nonce := signer.nonce
  counter := signer.counter + 1

/-- A turn that starts with a signer signs nothing, or one frame. -/
inductive Signs (start : Signer) (turn : Turn) : Prop where
  | nothing (plain : ∀ t ∈ turn.sent, t.signature = none) (signer : turn.client.signer = start)
  | once {t : Transmission} (sent : turn.sent = some t) (signed : t.signature = some start.next)
      (signer : turn.client.signer = { start with counter := start.counter + 1 })

/-- A key the pod can hold for the bridge with a MAC: none yet, or a pairing key of the secret it has
for that bridge. -/
def KeyFor (prims : Primitives) (deriveSecret : List Byte → Option (List Byte))
    (mac key : List Byte) : Prop :=
  key = zeros 32 ∨ ∃ secret bridgePub, deriveSecret mac = some secret ∧
    prims.pairKey secret bridgePub (prims.x25519Public secret) bridgePub = some key

/-- The key is the one of our secret and the bridge's public key. -/
def Signer.Bonded (prims : Primitives) (signer : Signer) : Prop :=
  prims.pairKey signer.secret signer.bridgePub signer.pub signer.bridgePub = some signer.key

/-- What the pairing key is computed from, and the key itself. -/
def Signer.bond (signer : Signer) : List Byte × List Byte × List Byte × List Byte :=
  (signer.secret, signer.pub, signer.bridgePub, signer.key)

theorem Signer.Bonded.of_bond {prims : Primitives} {signer signer' : Signer}
    (bonded : signer.Bonded prims) (same : signer'.bond = signer.bond) : signer'.Bonded prims := by
  simp only [bond, Prod.mk.injEq] at same
  obtain ⟨secret, pub, bridgePub, key⟩ := same
  rw [Bonded, secret, pub, bridgePub, key]
  exact bonded

/-- Secret and key belong to the bridge. -/
structure Signer.Keyed (prims : Primitives) (deriveSecret : List Byte → Option (List Byte))
    (signer : Signer) : Prop where
  secret : signer.haveSecret = true →
    deriveSecret signer.mac = some signer.secret ∧ signer.pub = prims.x25519Public signer.secret
  key : KeyFor prims deriveSecret signer.mac signer.key
  bonded : signer.haveKey = true → signer.Bonded prims

namespace Client

variable {prims : Primitives} {deriveSecret : List Byte → Option (List Byte)} {b : Client}

theorem resend_signs {start : Signer} (b : Client) (now : Word)
    (same : b.signer = start := by rfl) : Signs start (b.resend prims now) := by
  subst same
  obtain ⟨t, sent, _, signature⟩ := b.resend_sent prims now
  have client := b.resend_client prims now
  cases signed : b.reqSigned with
  | false =>
    rw [signed, if_neg Bool.false_ne_true] at signature
    refine .nothing ?_ ?_
    · intro other member
      rw [sent] at member
      cases member
      exact signature
    · rw [client, signed]
      rfl
  | true =>
    rw [signed, if_pos rfl] at signature
    refine .once sent signature ?_
    rw [client, signed]
    rfl

theorem signs_quiet {start : Signer} {turn : Turn} (silent : turn.sent = none)
    (signer : turn.client.signer = start) : Signs start turn := by
  refine .nothing ?_ signer
  intro t member
  rw [silent] at member
  cases member

theorem startReq_signs {start : Signer} (b : Client) (type : Byte) (body : List Byte)
    (timeout : Word) (internal : Bool) (now : Word) (same : b.signer = start := by rfl) :
    Signs start (b.startReq prims type body timeout internal now) := by
  unfold startReq
  exact resend_signs _ now same

theorem poll_signs (now : Word) : Signs b.signer (b.poll prims now) := by
  unfold poll
  split
  · split
    · exact signs_quiet rfl rfl
    · split
      · split
        · exact b.resend_signs now
        · exact signs_quiet rfl rfl
      · exact signs_quiet rfl rfl
  · split
    · exact signs_quiet rfl rfl
    · split
      · split
        · exact startReq_signs _ _ _ _ _ _ (by simp only [signer])
        · exact signs_quiet rfl rfl
      · split
        · exact startReq_signs _ _ _ _ _ _ (by simp only [signer])
        · exact signs_quiet rfl rfl

theorem startRequest_signs (type : Byte) (body : List Byte) (timeout now : Word) :
    Signs b.signer (b.startRequest prims type body timeout now).1 := by
  unfold startRequest
  iterate 5
    split
    · exact signs_quiet rfl rfl
  exact startReq_signs _ _ _ _ _ _

theorem request_signs (type : Byte) (body : List Byte) (timeout now : Word) :
    Signs b.signer (b.request prims type body timeout now).1 := by
  unfold request
  split
  · exact signs_quiet rfl rfl
  · exact startRequest_signs ..

theorem requestExt_signs (type : Byte) (body : List Byte) (timeout now : Word) :
    Signs b.signer (b.requestExt prims type body timeout now).1 := by
  unfold requestExt
  split
  · exact signs_quiet rfl rfl
  · exact startRequest_signs ..

theorem requestSetWifi_signs (ssid pass sealNonce : List Byte) (timeout now : Word) :
    Signs b.signer (b.requestSetWifi prims ssid pass sealNonce timeout now).1 := by
  unfold requestSetWifi
  iterate 3
    split
    · exact signs_quiet rfl rfl
  exact request_signs ..

theorem turn_signs (prims : Primitives) (deriveSecret : List Byte → Option (List Byte))
    {event : ClientEvent} (local_ : ∀ frame now, event ≠ .receive frame now) :
    Signs b.signer (b.turn prims deriveSecret event) := by
  cases event with
  | link up => exact signs_quiet rfl rfl
  | receive frame now => exact absurd rfl (local_ frame now)
  | poll now => exact poll_signs now
  | request type body timeout now => exact request_signs type body timeout now
  | requestExt type body timeout now => exact requestExt_signs type body timeout now
  | setWifi ssid pass sealNonce timeout now => exact requestSetWifi_signs ssid pass sealNonce timeout now
  | release =>
    refine signs_quiet rfl ?_
    simp only [turn, release]
    split <;> rfl

theorem conclude_signs {start : Signer} (b : Client) (m : Msg) (result : Byte)
    (same : b.signer = start := by rfl) : Signs start (b.conclude m result) := by
  subst same
  refine signs_quiet rfl ?_
  simp only [conclude]
  split
  · rfl
  · split <;> rfl

/-- What an answer makes the client sign with from then on. -/
inductive Adopts (prims : Primitives) (b : Client) (m : Msg) : Signer → Prop where
  | keeps : Adopts prims b m b.signer
  /-- The answer to a PAIR brings the bridge's public key. -/
  | learns (bridgePub : List Byte) :
      Adopts prims b m (learnBridgePub prims { b with haveKey := false } bridgePub).signer
  /-- A refusal brings another nonce. -/
  | renews {nonce : List Byte} (refused : getU8 m.body Tag.result = some Result.auth.code)
      (found : getBytes m.body Tag.nonce 8 = some nonce)
      (other : b.haveNonce = false ∨ nonce ≠ b.nonce) :
      Adopts prims b m { b.signer with nonce, counter := 0 }
  /-- A refusal brings the bridge's count. -/
  | resyncs {counter : Word} (refused : getU8 m.body Tag.result = some Result.auth.code)
      (found : getU32 m.body Tag.counter = some counter) (above : b.counter ≤ counter) :
      Adopts prims b m { b.signer with counter }

theorem onAuth_signs (prims : Primitives) {m : Msg} (refused : getU8 m.body Tag.result = some Result.auth.code)
    (now : Word) : ∃ start, b.Adopts prims m start ∧ start.bond = b.signer.bond ∧ Signs start (b.onAuth prims m now) := by
  simp only [onAuth]
  split
  · rename_i nonce renewed
    obtain ⟨found, other⟩ := Option.filter_eq_some_iff.mp renewed
    have other : b.haveNonce = false ∨ nonce ≠ b.nonce := by simpa using other
    refine ⟨_, .renews refused found other, rfl, ?_⟩
    split
    · exact resend_signs _ now
    · exact conclude_signs _ m _
  · split
    · rename_i counter lost
      have found : getU32 m.body Tag.counter = some counter := by
        split at lost
        · cases lost
        · exact lost
      by_cases above : b.counter ≤ counter
      · refine ⟨_, .resyncs refused found above, rfl, ?_⟩
        rw [if_pos above]
        exact resend_signs _ now
      · refine ⟨_, .keeps, rfl, ?_⟩
        rw [if_neg above]
        exact resend_signs _ now
    · exact ⟨_, .keeps, rfl, conclude_signs _ m _⟩

theorem onOk_signer (m : Msg) (now : Word) : b.Adopts prims m (b.onOk prims m now).signer := by
  unfold onOk
  split
  · split
    · exact .keeps
    · exact .learns _
  · iterate 3
      split
      · exact .keeps
    exact .keeps

theorem Adopts.of_info {m : Msg} {info : Info} {start : Signer}
    (adopts : Adopts prims { b with info } m start) : b.Adopts prims m start := by
  cases adopts with
  | keeps => exact .keeps
  | learns bridgePub =>
    have same : (learnBridgePub prims { b with info, haveKey := false } bridgePub).signer =
        (learnBridgePub prims { b with haveKey := false } bridgePub).signer := by
      simp only [learnBridgePub]
      split
      · rfl
      · split <;> rfl
    rw [same]
    exact .learns bridgePub
  | renews refused found other => exact .renews refused found other
  | resyncs refused found above => exact .resyncs refused found above

theorem onReply_signs (prims : Primitives) (m : Msg) (frame : List Byte) (now : Word) :
    ∃ start, b.Adopts prims m start ∧ Signs start (b.onReply prims m frame now) ∧
      ((b.onReply prims m frame now).sent = none ∨
        getU8 m.body Tag.result = some Result.auth.code) ∧
      ((b.onReply prims m frame now).left = none → start.bond = b.signer.bond) := by
  simp only [onReply]
  split
  · exact ⟨_, .keeps, signs_quiet rfl rfl, .inl rfl, fun _ => rfl⟩
  · generalize info_eq : (if (b.reqSigned && !isRefusal ((getU8 m.body Tag.result).getD Result.internal.code)) = true then
        ({ b with info := { b.info with paired := true, problem := none } } : Client) else b) = heard
    have same : ∃ info, heard = { b with info } := by
      rw [← info_eq]
      split
      · exact ⟨_, rfl⟩
      · exact ⟨b.info, rfl⟩
    obtain ⟨info, rfl⟩ := same
    split
    · rename_i auth
      have refused : getU8 m.body Tag.result = some Result.auth.code := by
        cases found : getU8 m.body Tag.result with
        | none => rw [found] at auth; exact absurd auth (by decide)
        | some result => rw [found, Option.getD_some] at auth; rw [auth]
      obtain ⟨start, adopts, bond, signs⟩ := onAuth_signs prims (b := { b with info }) refused now
      exact ⟨start, adopts.of_info, signs, .inr refused, fun _ => bond⟩
    · split
      · exact ⟨_, .keeps, conclude_signs _ m _, .inl rfl, fun _ => rfl⟩
      · split
        · exact ⟨_, .keeps, conclude_signs _ m _, .inl rfl, fun _ => rfl⟩
        · split
          · refine ⟨_, (onOk_signer m now).of_info, conclude_signs _ m _, .inl rfl, fun stays => ?_⟩
            cases stays
          · exact ⟨_, .keeps, conclude_signs _ m _, .inl rfl, fun _ => rfl⟩

theorem learnBridgePub_same (prims : Primitives) (b : Client) (bridgePub : List Byte) :
    (b.learnBridgePub prims bridgePub).mac = b.mac ∧
      (b.learnBridgePub prims bridgePub).nonce = b.nonce ∧
      (b.learnBridgePub prims bridgePub).counter = b.counter := by
  unfold learnBridgePub
  split
  · exact ⟨rfl, rfl, rfl⟩
  · split <;> exact ⟨rfl, rfl, rfl⟩

theorem learnBridgePub_keyed {bridgePub : List Byte} (keyed : b.signer.Keyed prims deriveSecret) :
    (b.learnBridgePub prims bridgePub).signer.Keyed prims deriveSecret := by
  unfold learnBridgePub
  split
  · exact keyed
  · rename_i known
    simp only [not_or, Bool.not_eq_false] at known
    obtain ⟨derived, pub_eq⟩ := keyed.secret known.1
    split
    · rename_i key paired
      refine ⟨keyed.secret, .inr ⟨b.secret, bridgePub, derived, ?_⟩, fun _ => paired⟩
      have pub_eq : b.pub = prims.x25519Public b.secret := pub_eq
      rw [← pub_eq]
      exact paired
    · exact ⟨keyed.secret, .inl rfl, fun have_ => absurd have_ Bool.false_ne_true⟩

theorem adopts_keyed {m : Msg} {start : Signer} (adopts : b.Adopts prims m start)
    (keyed : b.signer.Keyed prims deriveSecret) : start.Keyed prims deriveSecret := by
  cases adopts with
  | keeps => exact keyed
  | learns bridgePub =>
    refine learnBridgePub_keyed ⟨keyed.secret, keyed.key, ?_⟩
    exact fun have_ => absurd have_ Bool.false_ne_true
  | renews => exact ⟨keyed.secret, keyed.key, keyed.bonded⟩
  | resyncs => exact ⟨keyed.secret, keyed.key, keyed.bonded⟩

theorem signs_keyed {start : Signer} {turn : Turn} (signs : Signs start turn)
    (keyed : start.Keyed prims deriveSecret) : turn.client.signer.Keyed prims deriveSecret := by
  cases signs with
  | nothing _ signer => rw [signer]; exact keyed
  | once _ _ signer => rw [signer]; exact ⟨keyed.secret, keyed.key, keyed.bonded⟩

/-- The client met by a HELLO, once another bridge is forgotten. -/
def met (prims : Primitives) (deriveSecret : List Byte → Option (List Byte)) (b : Client) (m : Msg)
    (now : Word) : Client :=
  if b.seen = false ∨ m.src ≠ b.mac then
    b.forgetBridge.client.takeUp prims deriveSecret m.src now
  else b

theorem onHello_client (m : Msg) (now : Word) :
    (b.onHello prims deriveSecret m now).client =
      (((((b.met prims deriveSecret m now).heard now).helloNonce m.body now).updateState m.body
        now).helloInfo prims m.body) := by
  simp only [onHello, met]
  split <;> rfl

theorem onHello_sent (m : Msg) (now : Word) : (b.onHello prims deriveSecret m now).sent = none := by
  simp only [onHello]
  split <;> rfl

theorem takeUp_keyed (mac : List Byte) (now : Word) :
    (b.forgetBridge.client.takeUp prims deriveSecret mac now).signer.Keyed prims deriveSecret := by
  unfold takeUp
  cases derived : deriveSecret mac with
  | some secret => exact ⟨fun _ => ⟨derived, rfl⟩, .inl rfl, fun have_ => absurd have_ Bool.false_ne_true⟩
  | none => exact ⟨fun have_ => absurd have_ Bool.false_ne_true, .inl rfl, fun have_ => absurd have_ Bool.false_ne_true⟩

theorem helloInfo_keyed (keyed : b.signer.Keyed prims deriveSecret) (body : List Byte) :
    (b.helloInfo prims body).signer.Keyed prims deriveSecret := by
  simp only [helloInfo]
  split
  · exact ⟨keyed.secret, keyed.key, fun have_ => absurd have_ Bool.false_ne_true⟩
  · split
    · exact learnBridgePub_keyed ⟨keyed.secret, keyed.key, keyed.bonded⟩
    · exact ⟨keyed.secret, keyed.key, keyed.bonded⟩

theorem helloInfo_same (prims : Primitives) (b : Client) (body : List Byte) :
    (b.helloInfo prims body).mac = b.mac ∧ (b.helloInfo prims body).nonce = b.nonce ∧
      (b.helloInfo prims body).counter = b.counter := by
  simp only [helloInfo]
  split
  · exact ⟨rfl, rfl, rfl⟩
  · split
    · exact learnBridgePub_same _ _ _
    · exact ⟨rfl, rfl, rfl⟩

theorem helloNonce_signer (b : Client) (body : List Byte) (now : Word) :
    (b.helloNonce body now).signer =
      { b.signer with
        nonce := (getBytes body Tag.nonce 8).getD b.nonce
        counter :=
          if (getBytes body Tag.nonce 8).getD b.nonce ≠ b.nonce then 0 else b.counter } := by
  unfold helloNonce
  split
  · rename_i absent
    rw [absent, Option.getD_none, if_neg (not_not.mpr rfl)]
    rfl
  · rename_i nonce found
    rw [found, Option.getD_some]
    split
    · rfl
    · rename_i same
      rw [not_not.mp same]
      rfl

theorem updateState_signer (b : Client) (body : List Byte) (now : Word) : (b.updateState body now).signer = b.signer := by
  obtain ⟨info, nextStatus, updated⟩ := b.updateState_eq body now
  rw [updated]
  rfl

theorem onHello_keyed (keyed : b.signer.Keyed prims deriveSecret) (m : Msg) (now : Word) :
    (b.onHello prims deriveSecret m now).client.signer.Keyed prims deriveSecret := by
  have met_keyed : (b.met prims deriveSecret m now).signer.Keyed prims deriveSecret := by
    unfold met
    split
    · exact takeUp_keyed m.src now
    · exact keyed
  rw [onHello_client]
  apply helloInfo_keyed
  rw [updateState_signer, helloNonce_signer]
  exact ⟨met_keyed.secret, met_keyed.key, met_keyed.bonded⟩

/-- A HELLO that comes from another bridge or brings another nonce. -/
def Restarts (b : Client) (m : Msg) : Prop :=
  b.seen = false ∨ m.src ≠ b.mac ∨ (getBytes m.body Tag.nonce 8).getD b.nonce ≠ b.nonce

instance (m : Msg) : Decidable (b.Restarts m) := by
  unfold Restarts
  infer_instance

theorem forgetBridge_signer (b : Client) :
    b.forgetBridge.client.signer =
      { b.signer with
        secret := zeros 32, haveSecret := false, key := zeros 32, haveKey := false, counter := 0 } := by
  unfold forgetBridge
  cases b.reqState == .pending <;> rfl

theorem takeUp_same (prims : Primitives) (deriveSecret : List Byte → Option (List Byte))
    (b : Client) (mac : List Byte) (now : Word) :
    (b.takeUp prims deriveSecret mac now).mac = mac ∧
      (b.takeUp prims deriveSecret mac now).nonce = b.nonce ∧
      (b.takeUp prims deriveSecret mac now).counter = b.counter := by
  unfold takeUp
  cases deriveSecret mac
  · exact ⟨rfl, rfl, rfl⟩
  · exact ⟨rfl, rfl, rfl⟩

theorem met_signer (prims : Primitives) (deriveSecret : List Byte → Option (List Byte)) (b : Client)
    (m : Msg) (now : Word) :
    (b.met prims deriveSecret m now).mac = m.src ∧
      (b.met prims deriveSecret m now).nonce = b.nonce ∧
      (b.met prims deriveSecret m now).counter = if b.seen = false ∨ m.src ≠ b.mac then 0 else b.counter := by
  unfold met
  split
  · obtain ⟨mac_eq, nonce_eq, counter_eq⟩ :=
      takeUp_same prims deriveSecret b.forgetBridge.client m.src now
    rw [mac_eq, nonce_eq, counter_eq]
    exact ⟨rfl, congrArg Signer.nonce b.forgetBridge_signer, congrArg Signer.counter b.forgetBridge_signer⟩
  · rename_i known
    rw [not_or, not_not] at known
    exact ⟨known.2.symm, rfl, rfl⟩

theorem onHello_same (prims : Primitives) (deriveSecret : List Byte → Option (List Byte))
    (m : Msg) (now : Word) :
    (b.onHello prims deriveSecret m now).client.mac = m.src ∧
      (b.onHello prims deriveSecret m now).client.nonce =
        (getBytes m.body Tag.nonce 8).getD b.nonce ∧
      (b.onHello prims deriveSecret m now).client.counter = if b.Restarts m then 0 else b.counter := by
  obtain ⟨mac_eq, nonce_eq, counter_eq⟩ := met_signer prims deriveSecret b m now
  rw [onHello_client]
  generalize b.met prims deriveSecret m now = known at mac_eq nonce_eq counter_eq ⊢
  have told := updateState_signer ((known.heard now).helloNonce m.body now) m.body now
  rw [helloNonce_signer] at told
  obtain ⟨mac, nonce, counter⟩ := helloInfo_same prims
    (((known.heard now).helloNonce m.body now).updateState m.body now) m.body
  refine ⟨mac.trans ((congrArg Signer.mac told).trans mac_eq), nonce.trans ?_, counter.trans ?_⟩
  · refine (congrArg Signer.nonce told).trans ?_
    change (getBytes m.body Tag.nonce 8).getD known.nonce = _
    rw [nonce_eq]
  · refine (congrArg Signer.counter told).trans ?_
    change (if (getBytes m.body Tag.nonce 8).getD known.nonce ≠ known.nonce then 0
      else known.counter) = _
    rw [nonce_eq, counter_eq]
    by_cases other : b.seen = false ∨ m.src ≠ b.mac
    · have restarts : b.Restarts m := other.imp id .inl
      rw [if_pos other, ite_self, if_pos restarts]
    · have same : b.Restarts m ↔ (getBytes m.body Tag.nonce 8).getD b.nonce ≠ b.nonce := by
        rw [Restarts, ← or_assoc, or_iff_right other]
      rw [if_neg other]
      exact if_congr same.symm rfl rfl

theorem init_keyed (podMac : List Byte) : (init podMac).signer.Keyed prims deriveSecret where
  secret have_ := absurd have_ Bool.false_ne_true
  key := .inl rfl
  bonded have_ := absurd have_ Bool.false_ne_true

theorem turn_keyed (keyed : b.signer.Keyed prims deriveSecret) (event : ClientEvent) :
    (b.turn prims deriveSecret event).client.signer.Keyed prims deriveSecret := by
  by_cases received : ∃ frame now, event = .receive frame now
  · obtain ⟨frame, now, rfl⟩ := received
    simp only [turn]
    obtain ⟨info, nextStatus, quiet⟩ | ⟨m, _, _, _, hello⟩ | ⟨m, _, _, _, reply⟩ :=
      b.rx_cases prims deriveSecret frame now
    · rw [quiet]
      exact ⟨keyed.secret, keyed.key, keyed.bonded⟩
    · rw [hello]
      exact onHello_keyed keyed m now
    · rw [reply]
      obtain ⟨start, adopts, signs, _, _⟩ := b.onReply_signs prims m frame now
      exact signs_keyed signs (adopts_keyed adopts keyed)
  · exact signs_keyed (turn_signs prims deriveSecret fun frame now is_rx => received ⟨frame, now, is_rx⟩) keyed

end Client
end BenchPod.Bwp
