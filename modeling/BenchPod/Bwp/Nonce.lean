import BenchPod.Bwp.Signer
import BenchPod.Library.Emitter

/-!
# A counter is signed once

The count only rises while bridge and nonce stay.  Where a frame starts it over, a counter is signed
twice unless nothing was signed before under the nonce that is taken up.
-/

namespace BenchPod.Bwp

/-- The client and the frames it sends. -/
def Client.transmitter (prims : Primitives) (deriveSecret : List Byte → Option (List Byte)) :
    Emitter Client ClientEvent Transmission where
  step b event := (b.turn prims deriveSecret event).client
  emit b event := (b.turn prims deriveSecret event).sent

section Condition

variable (prims : Primitives) (deriveSecret : List Byte → Option (List Byte))
  (log : List Transmission)

/-- Nothing was signed under the nonce with a key for the bridge with the MAC. -/
def Unused (mac nonce : List Byte) : Prop :=
  ∀ t ∈ log, ∀ s, t.signature = some s → s.nonce = nonce → ¬KeyFor prims deriveSecret mac s.key

/-- The last counter there is. -/
def lastCount : Word := 0xffffffff

/-- A frame starts the count over under an unused nonce only, and nothing may be signed once the
count has reached its end. -/
def Harmless (b : Client) : ClientEvent → Prop
  | .receive frame _ =>
    ∀ m, parse frame = .ok m → b.Addressed m →
      (m.type = MsgType.hello → b.Restarts m →
        Unused prims deriveSecret log m.src ((getBytes m.body Tag.nonce 8).getD b.nonce)) ∧
      (b.Awaits m → getU8 m.body Tag.result = some Result.auth.code →
        (∀ nonce, getBytes m.body Tag.nonce 8 = some nonce →
          b.haveNonce = false ∨ nonce ≠ b.nonce → Unused prims deriveSecret log b.mac nonce) ∧
        b.counter ≠ lastCount ∧
        ∀ counter, getU32 m.body Tag.counter = some counter → counter ≠ lastCount)
  | .link _ => True
  | .release => True
  | _ => b.counter ≠ lastCount

/-- No signature under the nonce with a key for the bridge goes above the count. -/
def Signer.Counted (signer : Signer) : Prop :=
  ∀ t ∈ log, ∀ s, t.signature = some s → s.nonce = signer.nonce →
    KeyFor prims deriveSecret signer.mac s.key → s.counter ≤ signer.counter

end Condition

variable {prims : Primitives} {deriveSecret : List Byte → Option (List Byte)}
  {log : List Transmission} {b : Client}

theorem Unused.counted {signer : Signer}
    (unused : Unused prims deriveSecret log signer.mac signer.nonce) :
    signer.Counted prims deriveSecret log :=
  fun t member s signed nonce_eq key => absurd key (unused t member s signed nonce_eq)

theorem lt_succ_of_ne {count : Word} (below : count ≠ lastCount) : count < count + 1 := by
  unfold lastCount at below
  bv_omega

namespace Client

theorem adopts_counted {m : Msg} {start : Signer} (adopts : b.Adopts prims m start)
    (counted : b.signer.Counted prims deriveSecret log)
    (renewed : getU8 m.body Tag.result = some Result.auth.code →
      ∀ nonce, getBytes m.body Tag.nonce 8 = some nonce → b.haveNonce = false ∨ nonce ≠ b.nonce →
        Unused prims deriveSecret log b.mac nonce) : start.Counted prims deriveSecret log := by
  cases adopts with
  | keeps => exact counted
  | learns bridgePub =>
    obtain ⟨mac_eq, nonce_eq, counter_eq⟩ := learnBridgePub_same prims { b with haveKey := false } bridgePub
    intro t member s signed under key
    have mac_eq : (learnBridgePub prims { b with haveKey := false } bridgePub).signer.mac = b.mac := mac_eq
    change s.counter ≤ (learnBridgePub prims { b with haveKey := false } bridgePub).counter
    rw [counter_eq]
    rw [mac_eq] at key
    exact counted t member s signed (under.trans nonce_eq) key
  | renews refused found other => exact Unused.counted (renewed refused _ found other)
  | resyncs _ _ above =>
    intro t member s signed under key
    exact BitVec.le_trans (counted t member s signed under key) above

theorem adopts_below {m : Msg} {start : Signer} (adopts : b.Adopts prims m start)
    (below : b.counter ≠ lastCount)
    (told : ∀ counter, getU32 m.body Tag.counter = some counter → counter ≠ lastCount) :
    start.counter ≠ lastCount := by
  cases adopts with
  | keeps => exact below
  | learns bridgePub =>
    obtain ⟨_, _, counter_eq⟩ := learnBridgePub_same prims { b with haveKey := false } bridgePub
    change (learnBridgePub prims { b with haveKey := false } bridgePub).counter ≠ lastCount
    rw [counter_eq]
    exact below
  | renews =>
    change (0 : Word) ≠ lastCount
    decide
  | resyncs _ found _ => exact told _ found

/-- What a harmless event signs with: it is counted, and its count is not at its end. -/
theorem turn_counted {event : ClientEvent} (keyed : b.signer.Keyed prims deriveSecret)
    (counted : b.signer.Counted prims deriveSecret log)
    (harmless : Harmless prims deriveSecret log b event) :
    ∃ start, start.Keyed prims deriveSecret ∧ start.Counted prims deriveSecret log ∧
      Signs start (b.turn prims deriveSecret event) ∧
      ((b.turn prims deriveSecret event).sent = none ∨ start.counter ≠ lastCount) := by
  by_cases received : ∃ frame now, event = .receive frame now
  · obtain ⟨frame, now, rfl⟩ := received
    simp only [turn]
    obtain ⟨info, nextStatus, quiet⟩ | ⟨m, parsed, addressed, hello, eq⟩ |
        ⟨m, parsed, addressed, awaits, eq⟩ := b.rx_cases prims deriveSecret frame now
    · rw [quiet]
      exact ⟨b.signer, keyed, counted, signs_quiet rfl rfl, .inl rfl⟩
    · rw [eq]
      refine ⟨_, onHello_keyed keyed m now, ?_, signs_quiet (onHello_sent m now) rfl, .inl (onHello_sent m now)⟩
      have unused := (harmless m parsed addressed).1 hello
      obtain ⟨mac_eq, nonce_eq, counter_eq⟩ := b.onHello_same prims deriveSecret m now
      by_cases restarts : b.Restarts m
      · apply Unused.counted
        change Unused prims deriveSecret log (b.onHello prims deriveSecret m now).client.mac
          (b.onHello prims deriveSecret m now).client.nonce
        rw [mac_eq, nonce_eq]
        exact unused restarts
      · rw [if_neg restarts] at counter_eq
        simp only [Restarts, not_or, not_not] at restarts
        intro t member s signed under key
        change s.nonce = (b.onHello prims deriveSecret m now).client.nonce at under
        change KeyFor prims deriveSecret (b.onHello prims deriveSecret m now).client.mac s.key at key
        change s.counter ≤ (b.onHello prims deriveSecret m now).client.counter
        rw [nonce_eq, restarts.2.2] at under
        rw [mac_eq, restarts.2.1] at key
        rw [counter_eq]
        exact counted t member s signed under key
    · rw [eq]
      have refusal := (harmless m parsed addressed).2 awaits
      obtain ⟨start, adopts, signs, sends, _⟩ := b.onReply_signs prims m frame now
      refine ⟨start, adopts_keyed adopts keyed,
        adopts_counted adopts counted fun refused => (refusal refused).1, signs, ?_⟩
      exact sends.imp id fun refused => adopts_below adopts (refusal refused).2.1 (refusal refused).2.2
  · have signs := b.turn_signs prims deriveSecret fun frame now is_rx => received ⟨frame, now, is_rx⟩
    refine ⟨b.signer, keyed, counted, signs, ?_⟩
    cases event with
    | link up => exact .inl rfl
    | release => exact .inl rfl
    | receive frame now => exact absurd ⟨frame, now, rfl⟩ received
    | poll now => exact .inr harmless
    | request type body timeout now => exact .inr harmless
    | requestExt type body timeout now => exact .inr harmless
    | setWifi ssid pass sealNonce timeout now => exact .inr harmless

theorem signs_counted {start : Signer} {turn : Turn} (counted : start.Counted prims deriveSecret log)
    (signs : Signs start turn) (below : turn.sent = none ∨ start.counter ≠ lastCount) :
    turn.client.signer.Counted prims deriveSecret (log ++ turn.sent.toList) := by
  cases signs with
  | nothing plain signer =>
    rw [signer]
    intro t member s signed
    obtain before | now := List.mem_append.mp member
    · exact counted t before s signed
    · rw [plain t (Option.mem_toList.mp now)] at signed
      cases signed
  | once sent signed signer =>
    rename_i sent_t
    have rises : start.counter < start.counter + 1 := by
      refine lt_succ_of_ne (below.resolve_left ?_)
      rw [sent]
      exact Option.some_ne_none _
    rw [signer, sent]
    intro t member s signed' under key
    obtain before | now := List.mem_append.mp member
    · have low := counted t before s signed' under key
      change s.counter ≤ start.counter + 1
      bv_omega
    · obtain rfl := List.mem_singleton.mp now
      rw [signed] at signed'
      cases signed'
      exact BitVec.le_refl _

theorem signs_new {start : Signer} {turn : Turn} (keyed : start.Keyed prims deriveSecret)
    (counted : start.Counted prims deriveSecret log) (signs : Signs start turn)
    (below : turn.sent = none ∨ start.counter ≠ lastCount) {t earlier : Transmission}
    (sent : turn.sent = some t) (member : earlier ∈ log) {s : Signature}
    (signed : earlier.signature = some s) : t.signature ≠ some s := by
  intro again
  cases signs with
  | nothing plain _ =>
    rw [plain t sent] at again
    cases again
  | once sent' signed' _ =>
    rw [sent, Option.some.injEq] at sent'
    subst sent'
    rw [again, Option.some.injEq] at signed'
    subst signed'
    have rises : start.counter < start.counter + 1 := by
      refine lt_succ_of_ne (below.resolve_left ?_)
      rw [sent]
      exact Option.some_ne_none _
    have low := counted earlier member start.next signed rfl keyed.key
    exact absurd rises (BitVec.not_lt.mpr low)

end Client

/-- While the count starts over under unused nonces only, the pod never signs twice with one key,
nonce and counter. -/
theorem signatures_unique (prims : Primitives) (deriveSecret : List Byte → Option (List Byte))
    (podMac : List Byte) (events : List ClientEvent)
    (harmless : (Client.transmitter prims deriveSecret).logged.Along
      (fun entry event => Harmless prims deriveSecret entry.1 entry.2 event)
      ([], Client.init podMac) events) :
    ((Client.transmitter prims deriveSecret).emitted (Client.init podMac) events).Pairwise
      fun earlier later => ∀ s, earlier.signature = some s → later.signature ≠ some s := by
  refine harmless.pairwise _ (fun entry =>
    entry.2.signer.Keyed prims deriveSecret ∧ entry.2.signer.Counted prims deriveSecret entry.1)
    ?_ ?_ ⟨Client.init_keyed podMac, ?_⟩
  · rintro ⟨log, b⟩ event ⟨keyed, counted⟩ harmless
    obtain ⟨start, _, start_counted, signs, below⟩ := Client.turn_counted keyed counted harmless
    exact ⟨Client.turn_keyed keyed event, Client.signs_counted start_counted signs below⟩
  · rintro ⟨log, b⟩ event ⟨keyed, counted⟩ harmless t sent earlier member s signed
    obtain ⟨start, start_keyed, start_counted, signs, below⟩ := Client.turn_counted keyed counted harmless
    exact Client.signs_new start_keyed start_counted signs below sent member signed
  · intro t member
    cases member

/-- A request and its retry, after the bridge has been heard. -/
theorem signatures_unique_retry :
    ((Client.transmitter samplePrimitives sampleSecret).emitted samplePod
      [.link true, .receive (sampleHello 1 9) 0, .request MsgType.scan [] 1000 0,
        .poll 1000]).length = 2 ∧
    ((Client.transmitter samplePrimitives sampleSecret).emitted samplePod
      [.link true, .receive (sampleHello 1 9) 0, .request MsgType.scan [] 1000 0,
        .poll 1000]).Pairwise
      fun earlier later => ∀ s, earlier.signature = some s → later.signature ≠ some s := by
  refine ⟨by decide +kernel, signatures_unique samplePrimitives sampleSecret _ _ ?_⟩
  have running (count : Word) (below : count.toNat < 2) : count ≠ lastCount := by
    rintro rfl
    exact absurd below (by decide)
  refine ⟨trivial, ?_, running _ (by decide +kernel), running _ (by decide +kernel), trivial⟩
  intro m _ _
  refine ⟨fun _ _ t member => ?_, fun awaits => ?_⟩
  · cases member
  · cases awaits.2.2.2.1

/-- A bridge announces a nonce, another one and the first again: the pod signs two different requests
with one counter under the first. -/
theorem counter_reused :
    let sent := (Client.transmitter samplePrimitives sampleSecret).emitted samplePod
      [.link true, .receive (sampleHello 1 9) 0, .request MsgType.scan [] 1000 0, .poll 1000,
        .poll 2000, .poll 3000, .release, .receive (sampleHello 2 9) 3000,
        .receive (sampleHello 1 9) 3000, .request MsgType.reboot [] 1000 3000]
    let signature : Signature :=
      { key := List.replicate 32 9, nonce := List.replicate 8 1, counter := 1 }
    sent[0]?.bind (·.signature) = some signature ∧ sent[3]?.bind (·.signature) = some signature ∧
      sent[0]?.map (·.frame) ≠ sent[3]?.map (·.frame) := by
  decide +kernel

end BenchPod.Bwp
