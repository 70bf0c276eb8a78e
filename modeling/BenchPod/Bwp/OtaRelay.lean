import BenchPod.Bwp.Relay
import BenchPod.Bwp.Repeat

/-!
# A relayed update over a lossy channel

Every request that the pod starts reaches the bridge any number of times or never, later requests never
before earlier ones, and any of its answers may be lost.  What the bridge has written and hashed is at
every moment the image up to the offset it wants next.
-/

namespace BenchPod.Bwp

/-- A transfer of an image has come as far as its offset says; when it is over, no further. -/
def Progress (image : RelayImage) (ota : BridgeOta) : Prop :=
  ∃ n, ota.written = image.bytes.take n ∧ ota.hashed = image.bytes.take n ∧
    (ota.seq.active = true → ota.seq.size = image.size ∧ ota.seq.next ≤ image.size ∧ n = ota.seq.next.toNat)

namespace Progress

variable {image : RelayImage} {ota after : BridgeOta}

theorem ended (progress : Progress image ota) (written : after.written = ota.written)
    (hashed : after.hashed = ota.hashed) (past : after.seq.active = false) : Progress image after := by
  obtain ⟨n, written_eq, hashed_eq, -⟩ := progress
  refine ⟨n, written.trans written_eq, hashed.trans hashed_eq, fun active => ?_⟩
  exact absurd (past.symm.trans active) Bool.false_ne_true

theorem same (progress : Progress image ota) (written : after.written = ota.written)
    (hashed : after.hashed = ota.hashed) (seq : after.seq = ota.seq) : Progress image after := by
  rw [Progress, written, hashed, seq]
  exact progress

theorem begun (written : ota.written = []) (hashed : ota.hashed = []) (seq : ota.seq = .begin image.size) :
    Progress image ota := by
  refine ⟨0, written, hashed, fun _ => ?_⟩
  rw [seq]
  exact ⟨rfl, BitVec.le_def.mpr (Nat.zero_le _), rfl⟩

theorem whole (progress : Progress image ota) (active : ota.seq.active = true)
    (complete : ota.seq.next = ota.seq.size) : ota.hashed = image.bytes := by
  obtain ⟨count, -, hashed, aligned⟩ := progress
  obtain ⟨size, -, count_eq⟩ := aligned active
  rw [hashed, count_eq, complete, size, ← image.sized, List.take_length]

end Progress

namespace BridgeOta

variable {prims : Primitives} {port : OtaPort} {ota : BridgeOta} {image : RelayImage}

theorem abort_over (ota : BridgeOta) :
    ota.abort.seq.active = false ∧ ota.abort.written = ota.written ∧ ota.abort.hashed = ota.hashed := by
  rw [abort]
  split
  · exact ⟨rfl, rfl, rfl⟩
  · next past => exact ⟨Bool.eq_false_iff.mpr past, rfl, rfl⟩

theorem begin_cases (prims : Primitives) (port : OtaPort) (ota : BridgeOta) (size : Word) (sig : Option (List Byte)) :
    (∃ ota', ota.begin prims port size sig = { ota := ota', result := .ok } ∧ ota'.seq = .begin size ∧
      ota'.written = [] ∧ ota'.hashed = []) ∨
    ((ota.begin prims port size sig).result ≠ .ok ∧ (ota.begin prims port size sig).ota.seq.active = false ∧
      (ota.begin prims port size sig).ota.written = ota.written ∧
      (ota.begin prims port size sig).ota.hashed = ota.hashed) := by
  have past := abort_over ota
  rw [begin]
  split
  · exact .inr ⟨Result.noConfusion, past⟩
  · split
    · exact .inr ⟨Result.noConfusion, past⟩
    · split
      · exact .inr ⟨Result.noConfusion, past⟩
      · split
        · exact .inr ⟨Result.noConfusion, past⟩
        · exact .inl ⟨_, rfl, rfl, rfl, rfl⟩

theorem write_progress {off n : Word} (progress : Progress image ota) (active : ota.seq.active = true)
    (due : off = ota.seq.next) (within : off.toNat + n.toNat ≤ image.size.toNat) :
    Progress image (ota.write port off (slice image.bytes off.toNat n.toNat)).ota ∧
      (ota.write port off (slice image.bytes off.toNat n.toNat)).ota.seq.active = ota.seq.active ∧
      ota.seq.next ≤ (ota.write port off (slice image.bytes off.toNat n.toNat)).ota.seq.next := by
  have kept : Progress image ota ∧ ota.seq.active = ota.seq.active ∧ ota.seq.next ≤ ota.seq.next :=
    ⟨progress, rfl, BitVec.le_refl _⟩
  rw [write]
  split
  · exact kept
  · split
    · exact kept
    · obtain ⟨count, written, hashed, aligned⟩ := progress
      obtain ⟨size, below, count_eq⟩ := aligned active
      have length : (slice image.bytes off.toNat n.toNat).length = n.toNat := by
        rw [slice, List.length_take, List.length_drop, image.sized]
        omega
      have next_eq : (off + n).toNat = off.toNat + n.toNat := by
        have size_lt := image.size.isLt
        rw [BitVec.toNat_add]
        omega
      have longer : image.bytes.take count ++ slice image.bytes off.toNat n.toNat = image.bytes.take (off + n).toNat := by
        rw [next_eq, List.take_add, slice, count_eq, due]
      have len : BitVec.ofNat 32 (slice image.bytes off.toNat n.toNat).length = n := by
        rw [length, BitVec.ofNat_toNat, BitVec.setWidth_eq]
      refine ⟨⟨(off + n).toNat, ?_, ?_, fun _ => ⟨size, ?_, ?_⟩⟩, rfl, ?_⟩
      · exact (congrArg (· ++ _) written).trans longer
      · exact (congrArg (· ++ _) hashed).trans longer
      · simp only [OtaSeq.advance, len, BitVec.le_def, next_eq]
        exact within
      · simp only [OtaSeq.advance, len]
      · simp only [OtaSeq.advance, len, BitVec.le_def, next_eq, ← due]
        omega

/-- A chunk of the image that is transferred leaves the transfer where it was, or one chunk on. -/
theorem data_progress (port : OtaPort) {off n : Word} (progress : Progress image ota)
    (within : off.toNat + n.toNat ≤ image.size.toNat) :
    Progress image (ota.data port off (slice image.bytes off.toNat n.toNat)).ota ∧
      (ota.data port off (slice image.bytes off.toNat n.toNat)).ota.seq.active = ota.seq.active ∧
      ota.seq.next ≤ (ota.data port off (slice image.bytes off.toNat n.toNat)).ota.seq.next := by
  have kept : Progress image ota ∧ ota.seq.active = ota.seq.active ∧ ota.seq.next ≤ ota.seq.next :=
    ⟨progress, rfl, BitVec.le_refl _⟩
  have stamped (outcome : OtaOutcome) (along : Progress image outcome.ota ∧ outcome.ota.seq.active = ota.seq.active ∧
        ota.seq.next ≤ outcome.ota.seq.next) :
      let stamp : OtaOutcome :=
        if outcome.ota.seq.active then { outcome with ota := { outcome.ota with lastUs := port.now } }
        else outcome
      Progress image stamp.ota ∧ stamp.ota.seq.active = ota.seq.active ∧ ota.seq.next ≤ stamp.ota.seq.next := by
    intro stamp
    simp only [stamp]
    split
    · exact ⟨along.1.same rfl rfl rfl, along.2⟩
    · exact along
  rw [data]
  split
  · exact kept
  · apply stamped
    split
    · exact kept
    · exact kept
    · exact kept
    · exact kept
    · next write =>
        have active : ota.seq.active = true := by
          by_contra idle
          rw [OtaSeq.check_inactive_iff.mpr (Bool.eq_false_iff.mpr idle)] at write
          cases write
        have due : off = ota.seq.next := by
          by_contra elsewhere
          simp only [OtaSeq.check, active, if_pos elsewhere] at write
          split at write
          · cases write
          · split at write <;> cases write
        exact write_progress progress active due within

theorem finish_ok (ok : (ota.finish prims port).result = .ok) :
    ota.seq.active = true ∧ ota.seq.next = ota.seq.size ∧ prims.sha256 ota.hashed = ota.sig.sha256 := by
  rw [finish] at ok
  split at ok
  · cases ok
  · next active =>
      split at ok
      · cases ok
      · next complete =>
          have complete : ota.seq.complete = true := (Bool.not_eq_false _).mp complete
          simp only [OtaSeq.complete, Bool.and_eq_true, beq_iff_eq] at complete
          dsimp only at ok
          split at ok
          · cases ok
          · next same => exact ⟨complete.1, complete.2, not_not.mp same⟩

theorem finish_cases (prims : Primitives) (port : OtaPort) (ota : BridgeOta) :
    (ota.finish prims port).ota.written = ota.written ∧ (ota.finish prims port).ota.hashed = ota.hashed ∧
      ((ota.finish prims port).ota.seq = ota.seq ∨ (ota.finish prims port).ota.seq.active = false) := by
  rw [finish]
  split
  · exact ⟨rfl, rfl, .inl rfl⟩
  · split
    · exact ⟨rfl, rfl, .inl rfl⟩
    · dsimp only
      split
      · exact ⟨rfl, rfl, .inr rfl⟩
      · split
        · exact ⟨rfl, rfl, .inr rfl⟩
        · exact ⟨rfl, rfl, .inr rfl⟩
        · split <;> exact ⟨rfl, rfl, .inr rfl⟩

end BridgeOta

/-- A request that the pod has started, with the image it is of. -/
structure Sent where
  request : RelayRequest
  image : RelayImage

/-- What the pod finds in the request slot: nothing yet, an answer to its last request, a refusal that
anybody may have sent, or a timeout. -/
inductive RelayTake where
  | pending
  | answered (which : Nat)
  | refused (result : Byte) (offset : Word) (message : List Byte)
  | timedOut (message : List Byte)

inductive RelayEvent where
  /-- Another image is put in the pod's slot. -/
  | install (image : RelayImage)
  | force
  | poll (present : Bool) (info : Info) (busFree : Bool) (now : Word) (allocates reads : Bool) (start : Int)
      (take : RelayTake)
  /-- One of the pod's requests reaches the bridge, signed. -/
  | deliver (which : Nat) (env : Env) (pairing : Pairing) (dst src : List Byte) (seq : Half)
      (trailer : List Byte) (signed : Option Word)
  /-- The bridge executes another request. -/
  | serve (env : Env) (pairing : Pairing) (m : Msg) (signed : Option Word)
  /-- The bridge looks whether the transfer is idle. -/
  | look (port : OtaPort)
  | restart (nonce : List Byte)

/-- What an answer leaves for the pod. -/
def Answer.reply (type : Byte) (answer : Answer) : Reply where
  result := answer.result.code
  message := ((answer.fields.lookup Tag.message).filter (·.length < 64)).getD []
  offset :=
    if type = MsgType.otaData then ((answer.fields.lookup Tag.offset).map Endian.getBe32).getD 0 else 0

structure RelaySystem where
  relay : Relay := {}
  store : RelayImage
  bridge : Bridge
  /-- The requests started so far. -/
  sent : List Sent := []
  /-- The last request that reached the bridge: none before it can any more. -/
  handled : Nat := 0
  answers : List (Nat × Answer) := []
  /-- The image whose transfer was begun last. -/
  transfer : Option RelayImage := none

/-- The requests of an update. -/
def Kind.ofUpdate : Kind → Bool
  | .otaBegin | .otaData | .otaEnd | .otaAbort => true
  | _ => false

namespace RelaySystem

variable (prims : Primitives) (s : RelaySystem)

/-- A pod that has just started and a bridge that has. -/
def start (store : RelayImage) (bridge : Bridge) (nonce : List Byte) : RelaySystem where
  store
  bridge := bridge.restart nonce

/-- What taking the slot gives. -/
def taken : RelayTake → ReqState × Reply
  | .pending => (.pending, {})
  | .answered which =>
    match s.answers[which]? with
    | some (asked, answer) =>
      match s.sent[asked]? with
      | some sent =>
        if asked + 1 = s.sent.length then (.done, answer.reply sent.request.type) else (.pending, {})
      | none => (.pending, {})
    | none => (.pending, {})
  | .refused result offset message =>
    if Client.isRefusal result then (.done, { result, offset, message }) else (.pending, {})
  | .timedOut message => (.timeout, { message })

def poll (port : RelayPort) : RelaySystem :=
  let step := s.relay.poll port
  { s with
    relay := step.relay
    sent :=
      match step.asked with
      | some request => if port.start = 0 then s.sent ++ [⟨request, s.store⟩] else s.sent
      | none => s.sent }

/-- The bridge executes a request of the pod. -/
def deliver (which : Nat) (env : Env) (pairing : Pairing) (m : Msg) (signed : Option Word) (sent : Sent) :
    RelaySystem :=
  let served := (s.bridge.admitted env pairing).serve prims env m signed
  { s with
    bridge := served.bridge
    handled := which
    answers := s.answers ++ served.answer.toList.map (which, ·)
    transfer :=
      if m.type = MsgType.otaBegin ∧ served.answer.map (·.result) = some .ok then some sent.image
      else s.transfer }

/-- The message that a request reaches the bridge as. -/
def message (sent : Sent) (dst src : List Byte) (seq : Half) (trailer : List Byte) : Msg where
  dst
  src
  type := sent.request.type
  seq
  body := sent.request.body ++ trailer

def step : RelayEvent → RelaySystem
  | .install image => if s.relay.busy then s else { s with store := image }
  | .force => { s with relay := s.relay.force }
  | .poll present info busFree now allocates reads start take =>
    s.poll
      { present, info, image := s.store, busFree, now, allocates, reads, start, take := s.taken take }
  | .deliver which env pairing dst src seq trailer signed =>
    match s.sent[which]? with
    | some sent =>
      if s.handled ≤ which then
        s.deliver prims which env pairing (message sent dst src seq trailer) signed sent
      else s
    | none => s
  | .serve env pairing m signed =>
    if (Kind.ofType m.type).ofUpdate then s
    else { s with bridge := ((s.bridge.admitted env pairing).serve prims env m signed).bridge }
  | .look port => { s with bridge := { s.bridge with ota := s.bridge.ota.poll port } }
  | .restart nonce => { s with bridge := s.bridge.restart nonce }

def run : List RelayEvent → RelaySystem := List.foldl (step prims) s

/-! ## What holds between the two sides -/

/-- A request says of its image what the image is. -/
inductive Fine (image : RelayImage) : RelayRequest → Prop where
  | begin : Fine image (Relay.beginRequest image)
  | chunk (off : Word) (within : off ≤ image.size) : Fine image (Relay.chunkRequest image image.size off)
  | finish (timeout : Word) : Fine image ⟨MsgType.otaEnd, [], timeout⟩
  | reboot (timeout : Word) : Fine image ⟨MsgType.reboot, [], timeout⟩

/-- The offset an answer to a chunk carries. -/
def asked (answer : Answer) : Word := (answer.reply MsgType.otaData).offset

/-- What holds between the requests started, the answers given and the transfer. -/
structure Channel (s : RelaySystem) : Prop where
  fine : ∀ sent ∈ s.sent, Fine sent.image sent.request
  /-- Between the last request that reached the bridge and one that is no OTA_BEGIN no other image is begun. -/
  single : ∀ i sent, s.sent[i]? = some sent → sent.request.type ≠ MsgType.otaBegin →
    ∀ j before, s.handled ≤ j → j ≤ i → s.sent[j]? = some before → before.image = sent.image
  answered : ∀ entry ∈ s.answers, entry.1 ≤ s.handled ∧ s.handled < s.sent.length
  progress : ∀ image, s.transfer = some image → Progress image s.bridge.ota
  fresh : s.transfer = none → s.bridge.ota.seq.active = false ∧ s.bridge.ota.written = [] ∧ s.bridge.ota.hashed = []
  current : s.bridge.ota.seq.active = true → ∃ sent, s.sent[s.handled]? = some sent ∧ s.transfer = some sent.image
  /-- An answer to the last request, when that is a chunk, asks for no more than what is next. -/
  newest : ∀ entry ∈ s.answers, ∀ sent, s.sent[entry.1]? = some sent → entry.1 + 1 = s.sent.length →
    sent.request.type = MsgType.otaData → s.bridge.ota.seq.active = true →
    asked entry.2 ≤ s.bridge.ota.seq.next

/-- The bridge has answered a chunk of the pod's image with the offset. -/
def Acknowledged (s : RelaySystem) (off : Word) : Prop :=
  ∃ entry ∈ s.answers, ∃ sent, s.sent[entry.1]? = some sent ∧ sent.request.type = MsgType.otaData ∧
    sent.image = s.store ∧ asked entry.2 = off

/-- The pod is past the beginning of the transfer, at an offset. -/
structure Steady (s : RelaySystem) (off : Word) : Prop where
  handled : s.handled < s.sent.length
  pending : ∀ i sent, s.handled ≤ i → s.sent[i]? = some sent →
    sent.image = s.store ∧ (off = 0 ∨ sent.request.type ≠ MsgType.otaBegin)
  reached : off = 0 ∨ s.Acknowledged off
  behind : s.bridge.ota.seq.active = true → off ≤ s.bridge.ota.seq.next
  within : off ≤ s.store.size

/-- The pod is past the beginning of a transfer. -/
def Sending (o : Relay) : Prop := o.state = .data ∨ o.state = .finish ∨ o.state = .reboot

structure Aligned (s : RelaySystem) : Prop extends Channel s where
  sized : s.relay.busy = true → s.relay.size = s.store.size
  begun : s.relay.state = .begin → s.relay.off = 0 ∧ ∃ sent, s.sent[s.sent.length - 1]? = some sent ∧ sent.image = s.store
  steady : Sending s.relay → s.Steady s.relay.off

variable {prims : Primitives} {s : RelaySystem} {off : Word} {sent : Sent}

theorem Sending.busy {o : Relay} (sending : Sending o) : o.busy = true := by
  obtain data | finish | reboot := sending
  · rw [Relay.busy, data]
  · rw [Relay.busy, finish]
  · rw [Relay.busy, reboot]

/-! ### Starting a request -/

theorem sent_push {i : Nat} {found : Sent} (at' : (s.sent ++ [sent])[i]? = some found) :
    s.sent[i]? = some found ∨ i = s.sent.length ∧ found = sent := by
  obtain early | last := Nat.lt_or_ge i s.sent.length
  · rw [List.getElem?_append_left early] at at'
    exact .inl at'
  · rw [List.getElem?_append_right last, List.getElem?_singleton] at at'
    split at at'
    · next zero =>
        cases at'
        exact .inr ⟨by omega, rfl⟩
    · cases at'

theorem sent_keep {i : Nat} {found : Sent} (at' : s.sent[i]? = some found) : (s.sent ++ [sent])[i]? = some found := by
  obtain ⟨early, -⟩ := List.getElem?_eq_some_iff.mp at'
  rw [List.getElem?_append_left early]
  exact at'

theorem sent_lt {i : Nat} {found : Sent} (at' : s.sent[i]? = some found) : i < s.sent.length :=
  (List.getElem?_eq_some_iff.mp at').1

/-- One more request is started. -/
def push (s : RelaySystem) (relay : Relay) (sent : Sent) : RelaySystem :=
  { s with relay, sent := s.sent ++ [sent] }

theorem Channel.push {relay : Relay} (channel : s.Channel) (fine : Fine sent.image sent.request)
    (same : sent.request.type ≠ MsgType.otaBegin →
      ∀ j before, s.handled ≤ j → s.sent[j]? = some before → before.image = sent.image) :
    (s.push relay sent).Channel where
  fine found member := by
    obtain old | new := List.mem_append.mp member
    · exact channel.fine found old
    · rw [List.mem_singleton.mp new]
      exact fine
  single i found at' kind j before late early before_at := by
    obtain old | ⟨rfl, rfl⟩ := sent_push at'
    · obtain known | ⟨rfl, -⟩ := sent_push before_at
      · exact channel.single i found old kind j before late early known
      · exact absurd (sent_lt old) (Nat.not_lt.mpr early)
    · obtain known | ⟨-, rfl⟩ := sent_push before_at
      · exact same kind j before late known
      · rfl
  answered entry member := by
    obtain ⟨before, within⟩ := channel.answered entry member
    refine ⟨before, ?_⟩
    rw [RelaySystem.push, List.length_append]
    exact Nat.lt_succ_of_lt within
  progress := channel.progress
  fresh := channel.fresh
  current active := by
    obtain ⟨found, at', image⟩ := channel.current active
    exact ⟨found, sent_keep at', image⟩
  newest entry member found at' last := by
    obtain ⟨before, within⟩ := channel.answered entry member
    rw [RelaySystem.push, List.length_append] at last
    have last : entry.1 = s.sent.length := Nat.succ.inj last
    omega

theorem Steady.push {relay : Relay} (steady : s.Steady off) (image : sent.image = s.store)
    (kind : sent.request.type ≠ MsgType.otaBegin) : (s.push relay sent).Steady off where
  handled := by
    rw [RelaySystem.push, List.length_append]
    exact Nat.lt_succ_of_lt steady.handled
  pending i found late at' := by
    obtain old | ⟨-, rfl⟩ := sent_push at'
    · exact steady.pending i found late old
    · exact ⟨image, .inr kind⟩
  reached := by
    refine steady.reached.imp_right ?_
    rintro ⟨entry, member, found, at', rest⟩
    exact ⟨entry, member, found, sent_keep at', rest⟩
  behind := steady.behind
  within := steady.within

/-! ### A poll of the pod -/

theorem taken_done {take : RelayTake} (done : (s.taken take).1 = .done) :
    (∃ entry ∈ s.answers, ∃ sent, s.sent[entry.1]? = some sent ∧ entry.1 + 1 = s.sent.length ∧
      (s.taken take).2 = entry.2.reply sent.request.type) ∨
    Client.isRefusal (s.taken take).2.result = true := by
  cases take with
  | pending => cases done
  | timedOut message => cases done
  | refused result offset message =>
    rw [taken] at done ⊢
    split
    · next refusal => exact .inr refusal
    · next other =>
        rw [if_neg other] at done
        cases done
  | answered which =>
    rw [taken] at done ⊢
    split at done
    · next asked answer at' =>
        split at done
        · next sent found =>
            split at done
            · next last =>
                refine .inl ⟨(asked, answer), List.mem_of_getElem? at', sent, found, last, ?_⟩
                simp only [if_pos last]
            · cases done
        · cases done
    · cases done

theorem taken_answered {take : RelayTake} (channel : s.Channel) (done : (s.taken take).1 = .done)
    (ok : (s.taken take).2.result = Result.ok.code ∨
      (s.taken take).2.result = Result.otaBadOffset.code) :
    ∃ entry ∈ s.answers, ∃ sent, s.sent[entry.1]? = some sent ∧ entry.1 = s.handled ∧
      entry.1 + 1 = s.sent.length ∧ (s.taken take).2 = entry.2.reply sent.request.type := by
  obtain ⟨entry, member, sent, at', last, reply⟩ | refusal := taken_done done
  · obtain ⟨before, within⟩ := channel.answered entry member
    exact ⟨entry, member, sent, at', by omega, last, reply⟩
  · obtain ok | ok := ok
    · rw [ok] at refusal
      exact absurd refusal (by decide)
    · rw [ok] at refusal
      exact absurd refusal (by decide)

theorem reaches_steady {port : RelayPort} {take : RelayTake} (aligned : s.Aligned)
    (took : port.take = s.taken take) (reached : s.relay.Reaches port off) : s.Steady off := by
  cases reached with
  | again sending stays =>
    rw [stays]
    exact aligned.steady (sending.imp_right .inl)
  | first begun done ok start =>
    rw [took] at done ok
    obtain ⟨zero, newest, newest_at, image⟩ := aligned.begun begun
    obtain ⟨entry, member, sent, at', here, last, -⟩ := taken_answered aligned.toChannel done (.inl ok)
    have off_zero : off = 0 := start.trans zero
    refine ⟨by omega, fun i found late found_at => ⟨?_, .inl off_zero⟩, .inl off_zero, fun _ => ?_, ?_⟩
    · have only : i = s.sent.length - 1 := by
        have within := sent_lt found_at
        omega
      rw [only, newest_at] at found_at
      cases found_at
      exact image
    · rw [off_zero]
      exact BitVec.le_def.mpr (Nat.zero_le _)
    · rw [off_zero]
      exact BitVec.le_def.mpr (Nat.zero_le _)
  | next sending done ok wanted within =>
    rw [took] at done ok wanted
    have before := aligned.steady (.inl sending)
    rw [aligned.sized (Sending.busy (.inl sending))] at within
    obtain ⟨entry, member, sent, at', here, last, reply⟩ := taken_answered aligned.toChannel done ok
    obtain ⟨image, -⟩ := before.pending entry.1 sent (by omega) at'
    by_cases data : sent.request.type = MsgType.otaData
    · have asks : asked entry.2 = off := by
        rw [wanted, reply, data]
        rfl
      refine ⟨by omega, fun i found late found_at => ?_, .inr ⟨entry, member, sent, at', data, image, asks⟩,
        fun active => ?_, within⟩
      · have only : i = entry.1 := by
          have last_at := sent_lt found_at
          omega
        rw [only, at'] at found_at
        cases found_at
        refine ⟨image, .inr ?_⟩
        rw [data]
        decide
      · rw [← asks]
        exact aligned.newest entry member sent at' last data active
    · have off_zero : off = 0 := by
        rw [wanted, reply, Answer.reply]
        exact if_neg data
      refine ⟨by omega, fun i found late found_at => ?_, .inl off_zero, fun _ => ?_, within⟩
      · exact ⟨(before.pending i found late found_at).1, .inl off_zero⟩
      · rw [off_zero]
        exact BitVec.le_def.mpr (Nat.zero_le _)

theorem Aligned.quiet {relay : Relay} (aligned : s.Aligned)
    (sized : relay.busy = true → relay.size = s.store.size)
    (begun : relay.state = .begin → relay.off = 0 ∧
      ∃ sent, s.sent[s.sent.length - 1]? = some sent ∧ sent.image = s.store)
    (steady : Sending relay → s.Steady relay.off) : Aligned { s with relay } where
  fine := aligned.fine
  single := aligned.single
  answered := aligned.answered
  progress := aligned.progress
  fresh := aligned.fresh
  current := aligned.current
  newest := aligned.newest
  sized := sized
  begun := begun
  steady sending :=
    have kept := steady sending
    ⟨kept.handled, kept.pending, kept.reached, kept.behind, kept.within⟩

/-- The requests after a poll that asked for one: it is started or the slot was busy. -/
def started (s : RelaySystem) (relay : Relay) (request : RelayRequest) (rc : Int) : RelaySystem :=
  if rc = 0 then s.push relay ⟨request, s.store⟩ else { s with relay }

theorem Aligned.started {relay : Relay} {request : RelayRequest} (aligned : s.Aligned) (rc : Int)
    (size : relay.size = s.store.size) (reached : s.Steady relay.off) (sending : Sending relay)
    (fine : Fine s.store request) (kind : request.type ≠ MsgType.otaBegin) :
    (s.started relay request rc).Aligned := by
  have not_begin : relay.state ≠ .begin := by
    intro begun
    obtain data | finish | reboot := sending
    · cases begun.symm.trans data
    · cases begun.symm.trans finish
    · cases begun.symm.trans reboot
  rw [RelaySystem.started]
  split
  · have channel : (s.push relay ⟨request, s.store⟩).Channel := by
      refine aligned.toChannel.push fine fun _ j before late at' => ?_
      exact (reached.pending j before late at').1
    exact ⟨channel, fun _ => size, fun begun => absurd begun not_begin, fun _ => reached.push rfl kind⟩
  · exact aligned.quiet (fun _ => size) (fun begun => absurd begun not_begin) fun _ => reached

theorem poll_asks {port : RelayPort} {request : RelayRequest}
    (asked : (s.relay.poll port).asked = some request) :
    s.poll port = s.started (s.relay.poll port).relay request port.start := by
  rw [poll, started]
  simp only [asked]
  split <;> rfl

/-- A poll keeps both sides aligned. -/
theorem Aligned.poll {port : RelayPort} {take : RelayTake} (aligned : s.Aligned)
    (image : port.image = s.store) (took : port.take = s.taken take) : (s.poll port).Aligned := by
  obtain ⟨away, refused⟩ | ⟨silent, state, size, off⟩ | ⟨asked, due⟩ := s.relay.poll_polls port
  · have same : s.poll port = { s with relay := (s.relay.poll port).relay } := by
      rw [RelaySystem.poll]
      cases asked : (s.relay.poll port).asked with
      | none => rfl
      | some request =>
        have refused := refused (by rw [asked]; exact Option.some_ne_none request)
        simp only [if_neg refused]
    rw [same]
    refine aligned.quiet ?_ ?_ ?_
    · intro busy
      exact absurd (away.symm.trans busy) Bool.false_ne_true
    · intro begun
      rw [Relay.busy, begun] at away
      cases away
    · intro sending
      exact absurd (away.symm.trans sending.busy) Bool.false_ne_true
  · have same : s.poll port = { s with relay := (s.relay.poll port).relay } := by
      simp only [RelaySystem.poll, silent]
    rw [same]
    refine aligned.quiet ?_ ?_ ?_
    · rw [Relay.busy, state, size]
      exact aligned.sized
    · rw [state, off]
      exact aligned.begun
    · rw [Sending, state, off]
      exact aligned.steady
  · rw [poll_asks asked]
    cases due with
    | begin idle state size off started =>
      rw [RelaySystem.started, if_pos started]
      refine ⟨aligned.toChannel.push ?_ fun kind => absurd rfl kind, fun _ => ?_, fun _ => ⟨off, ?_⟩, ?_⟩
      · rw [image]
        exact .begin
      · exact size.trans (congrArg RelayImage.size image)
      · refine ⟨⟨Relay.beginRequest port.image, s.store⟩, ?_, rfl⟩
        rw [RelaySystem.push, List.length_append, List.getElem?_append_right (by simp)]
        simp
      · intro sending
        obtain data | finish | reboot := sending
        · cases state.symm.trans data
        · cases state.symm.trans finish
        · cases state.symm.trans reboot
    | chunk reached state size =>
      have sized := aligned.sized reached.busy
      have steady := reaches_steady aligned took reached
      rw [image, sized]
      have kind : MsgType.otaData ≠ MsgType.otaBegin := by decide
      exact aligned.started _ (size.trans sized) steady (.inl state) (.chunk _ steady.within) kind
    | finish reached state size =>
      have steady := reaches_steady aligned took reached
      refine aligned.started _ (size.trans (aligned.sized reached.busy)) steady (.inr (.inl state)) (.finish _) ?_
      decide
    | reboot ending state off size =>
      have sending : Sending s.relay := ending.elim (fun h => .inr (.inl h)) fun h => .inr (.inr h)
      have steady := aligned.steady sending
      rw [← off] at steady
      refine aligned.started _ (size.trans (aligned.sized sending.busy)) steady (.inr (.inr state)) (.reboot _) ?_
      decide

/-! ### The bridge -/

theorem Aligned.bridge {bridge : Bridge} (aligned : s.Aligned)
    (progress : ∀ image, Progress image s.bridge.ota → Progress image bridge.ota)
    (fresh : s.bridge.ota.seq.active = false → s.bridge.ota.written = [] → s.bridge.ota.hashed = [] →
      bridge.ota.seq.active = false ∧ bridge.ota.written = [] ∧ bridge.ota.hashed = [])
    (grows : bridge.ota.seq.active = true →
      s.bridge.ota.seq.active = true ∧ s.bridge.ota.seq.next ≤ bridge.ota.seq.next) :
    Aligned { s with bridge } where
  fine := aligned.fine
  single := aligned.single
  answered := aligned.answered
  progress image begun := progress image (aligned.progress image begun)
  fresh none_begun :=
    have empty := aligned.fresh none_begun
    fresh empty.1 empty.2.1 empty.2.2
  current active := aligned.current (grows active).1
  newest entry member sent at' last data active :=
    BitVec.le_trans (aligned.newest entry member sent at' last data (grows active).1) (grows active).2
  sized := aligned.sized
  begun := aligned.begun
  steady sending :=
    have kept := aligned.steady sending
    ⟨kept.handled, kept.pending, kept.reached,
      fun active => BitVec.le_trans (kept.behind (grows active).1) (grows active).2, kept.within⟩

theorem Aligned.bridge_same {bridge : Bridge} (aligned : s.Aligned) (seq : bridge.ota.seq = s.bridge.ota.seq)
    (written : bridge.ota.written = s.bridge.ota.written) (hashed : bridge.ota.hashed = s.bridge.ota.hashed) :
    Aligned { s with bridge } := by
  refine aligned.bridge (fun _ progress => progress.same written hashed seq) ?_ ?_
  · rw [seq, written, hashed]
    exact fun past empty none_hashed => ⟨past, empty, none_hashed⟩
  · rw [seq]
    exact fun active => ⟨active, BitVec.le_refl _⟩

theorem Aligned.look (aligned : s.Aligned) (port : OtaPort) :
    Aligned { s with bridge := { s.bridge with ota := s.bridge.ota.poll port } } := by
  rw [BridgeOta.poll]
  split
  · obtain ⟨past, written, hashed⟩ := BridgeOta.abort_over s.bridge.ota
    refine aligned.bridge (fun _ progress => progress.ended written hashed past) ?_ ?_
    · exact fun _ empty none_hashed => ⟨past, written.trans empty, hashed.trans none_hashed⟩
    · exact fun active => absurd (past.symm.trans active) Bool.false_ne_true
  · exact aligned

theorem Aligned.restart (aligned : s.Aligned) (nonce : List Byte) :
    Aligned { s with bridge := s.bridge.restart nonce } := by
  refine aligned.bridge (fun _ _ => ?_) (fun _ _ _ => ⟨rfl, rfl, rfl⟩) fun active => nomatch active
  exact ⟨0, rfl, rfl, fun active => nomatch active⟩

/-- A request has reached the bridge. -/
theorem Aligned.handled {which : Nat} {bridge : Bridge} {answer : Option Answer}
    {transfer : Option RelayImage} (aligned : s.Aligned) (at' : s.sent[which]? = some sent)
    (late : s.handled ≤ which)
    (progress : ∀ image, transfer = some image → Progress image bridge.ota)
    (fresh : transfer = none → bridge.ota.seq.active = false ∧ bridge.ota.written = [] ∧
      bridge.ota.hashed = [])
    (current : bridge.ota.seq.active = true → transfer = some sent.image)
    (grows : sent.request.type ≠ MsgType.otaBegin → bridge.ota.seq.active = true →
      s.bridge.ota.seq.active = true ∧ s.bridge.ota.seq.next ≤ bridge.ota.seq.next)
    (asks : ∀ a, answer = some a → sent.request.type = MsgType.otaData →
      asked a ≤ bridge.ota.seq.next) :
    Aligned { s with bridge, handled := which, answers := s.answers ++ answer.toList.map (which, ·), transfer } := by
  have last := sent_lt at'
  have entries (entry : Nat × Answer) (member : entry ∈ s.answers ++ answer.toList.map (which, ·)) :
      entry ∈ s.answers ∧ entry.1 ≤ s.handled ∨ entry.1 = which ∧ answer = some entry.2 := by
    obtain old | new := List.mem_append.mp member
    · exact .inl ⟨old, (aligned.answered entry old).1⟩
    · obtain ⟨a, given, rfl⟩ := List.mem_map.mp new
      exact .inr ⟨rfl, Option.mem_toList.mp given⟩
  refine ⟨⟨aligned.fine, ?_, ?_, progress, fresh, ?_, ?_⟩, aligned.sized, aligned.begun, ?_⟩
  · intro i found found_at kind j before after early
    exact aligned.single i found found_at kind j before (Nat.le_trans late after) early
  · intro entry member
    obtain ⟨-, before⟩ | ⟨rfl, -⟩ := entries entry member
    · exact ⟨Nat.le_trans before late, last⟩
    · exact ⟨Nat.le_refl _, last⟩
  · exact fun active => ⟨sent, at', current active⟩
  · intro entry member found found_at newest data active
    obtain ⟨old, before⟩ | ⟨here, given⟩ := entries entry member
    · have newest : entry.1 + 1 = s.sent.length := newest
      have here : entry.1 = which := by omega
      have found_at : s.sent[entry.1]? = some found := found_at
      have same : found = sent := by
        rw [here, at'] at found_at
        cases found_at
        rfl
      have kind : sent.request.type ≠ MsgType.otaBegin := by
        rw [← same, data]
        decide
      obtain ⟨before_active, further⟩ := grows kind active
      exact BitVec.le_trans (aligned.newest entry old found found_at newest data before_active) further
    · have found_at : s.sent[entry.1]? = some found := found_at
      rw [here, at'] at found_at
      cases found_at
      exact asks entry.2 given data
  · intro sending
    have kept := aligned.steady sending
    refine ⟨last, fun i found after => kept.pending i found (Nat.le_trans late after), ?_, fun active => ?_, kept.within⟩
    · refine kept.reached.imp_right ?_
      rintro ⟨entry, member, rest⟩
      exact ⟨entry, List.mem_append.mpr (.inl member), rest⟩
    · obtain zero | kind := (kept.pending which sent late at').2
      · rw [zero]
        exact BitVec.le_def.mpr (Nat.zero_le _)
      · obtain ⟨before_active, further⟩ := grows kind active
        exact BitVec.le_trans (kept.behind before_active) further

theorem begin_read (image : RelayImage) (trailer : List Byte) :
    getU32 ((Relay.beginRequest image).body ++ trailer) Tag.imageSize = some image.size ∧
      findPointer ((Relay.beginRequest image).body ++ trailer) Tag.signature = some image.manifest := by
  have size_fits : (Endian.be32 image.size).length < 65536 := by
    rw [Endian.be32_length]
    decide
  have manifest_fits : image.manifest.length < 65536 := by
    rw [image.manifest_length]
    decide
  constructor
  · rw [getU32, Relay.beginRequest, List.append_assoc, Tlv.find_put size_fits]
    simp only [beq_self_eq_true, if_true, Endian.be32_length, Endian.getBe32_be32]
  · have other : (Tag.imageSize == Tag.signature) = false := by decide
    rw [findPointer, Relay.beginRequest, List.append_assoc, Tlv.find_put size_fits, Tlv.find_put manifest_fits, other]
    simp only [Bool.false_eq_true, if_false, beq_self_eq_true, if_true, Option.some_or]

/-- How many bytes a chunk has. -/
def chunkLen (image : RelayImage) (off : Word) : Word :=
  if image.size - off < wboChunk then image.size - off else wboChunk

theorem chunkLen_within {image : RelayImage} (within : off ≤ image.size) :
    off.toNat + (chunkLen image off).toNat ≤ image.size.toNat := by
  have le := BitVec.le_def.mp within
  have rest : (image.size - off).toNat = image.size.toNat - off.toNat := BitVec.toNat_sub_of_le within
  rw [chunkLen]
  split
  · omega
  · next more =>
      have more := BitVec.le_def.mp (BitVec.not_lt.mp more)
      omega

theorem chunk_read (image : RelayImage) (off : Word) (trailer : List Byte) :
    getU32 ((Relay.chunkRequest image image.size off).body ++ trailer) Tag.offset = some off ∧
      Tlv.find ((Relay.chunkRequest image image.size off).body ++ trailer) Tag.data =
        some (slice image.bytes off.toNat (chunkLen image off).toNat) := by
  have off_fits : (Endian.be32 off).length < 65536 := by
    rw [Endian.be32_length]
    decide
  have short : (chunkLen image off).toNat ≤ 1024 := by
    rw [chunkLen]
    split
    · next less => exact Nat.le_of_lt (BitVec.lt_def.mp less)
    · decide
  have data_fits : (slice image.bytes off.toNat (chunkLen image off).toNat).length < 65536 := by
    rw [slice, List.length_take]
    omega
  have other : (Tag.offset == Tag.data) = false := by decide
  have body : (Relay.chunkRequest image image.size off).body = Tlv.put Tag.offset (Endian.be32 off) ++
        Tlv.put Tag.data (slice image.bytes off.toNat (chunkLen image off).toNat) := rfl
  rw [body, List.append_assoc]
  constructor
  · rw [getU32, Tlv.find_put off_fits]
    simp only [beq_self_eq_true, if_true, Endian.be32_length, Endian.getBe32_be32]
  · rw [Tlv.find_put off_fits, other, Tlv.find_put data_fits]
    simp only [Bool.false_eq_true, if_false, beq_self_eq_true, if_true]

theorem admitted_ota (b : Bridge) (env : Env) (pairing : Pairing) :
    (b.admitted env pairing).ota.seq = b.ota.seq ∧ (b.admitted env pairing).ota.written = b.ota.written ∧
      (b.admitted env pairing).ota.hashed = b.ota.hashed := by
  rw [Bridge.admitted, BridgeOta.confirm]
  split <;> exact ⟨rfl, rfl, rfl⟩

theorem data_over {port : OtaPort} {ota : BridgeOta} {data : List Byte} (past : ota.seq.active = false) :
    (ota.data port off data).ota = ota := by
  rw [BridgeOta.data]
  split
  · rfl
  · simp only [OtaSeq.check_inactive_iff.mpr past, past, Bool.false_eq_true, if_false]

theorem Aligned.deliver_begin {which : Nat} {m : Msg} {image : RelayImage} {trailer : List Byte}
    (aligned : s.Aligned) (at' : s.sent[which]? = some ⟨Relay.beginRequest image, image⟩)
    (late : s.handled ≤ which) (type : m.type = MsgType.otaBegin)
    (body : m.body = (Relay.beginRequest image).body ++ trailer) (env : Env) (pairing : Pairing)
    (signed : Option Word) :
    (s.deliver prims which env pairing m signed ⟨Relay.beginRequest image, image⟩).Aligned := by
  obtain ⟨size, manifest⟩ := begin_read image trailer
  have kind : Kind.ofType m.type = .otaBegin := by
    rw [type]
    decide
  have not_data : MsgType.otaBegin ≠ MsgType.otaData := by decide
  obtain ⟨-, written_eq, hashed_eq⟩ := admitted_ota s.bridge env pairing
  rw [deliver, Bridge.serve, kind]
  simp only [Bridge.serveOtaBegin, body, size, manifest, Bridge.replyOta, Bridge.reply, type, true_and,
    Option.map_some, Option.some.injEq]
  obtain ⟨ota, begun, seq, written, hashed⟩ | ⟨refused, past, written, hashed⟩ :=
    BridgeOta.begin_cases prims env.ota (s.bridge.admitted env pairing).ota image.size (some image.manifest)
  · rw [begun]
    refine aligned.handled at' late ?_ ?_ (fun _ => rfl) (fun data => absurd rfl data) fun _ _ data => ?_
    · intro other same
      cases same
      exact .begun written hashed seq
    · rintro ⟨⟩
    · exact absurd data not_data
  · rw [if_neg refused]
    have idle : ∀ {after : BridgeOta}, after.seq.active = false → after.seq.active = true → False :=
      fun off active => Bool.false_ne_true (off.symm.trans active)
    refine aligned.handled at' late ?_ ?_ (fun active => (idle past active).elim)
      (fun data => absurd rfl data) fun _ _ data => absurd data not_data
    · intro other same
      exact (aligned.progress other same).ended (written.trans written_eq) (hashed.trans hashed_eq) past
    · intro same
      obtain ⟨-, empty, none_hashed⟩ := aligned.fresh same
      exact ⟨past, (written.trans written_eq).trans empty, (hashed.trans hashed_eq).trans none_hashed⟩

/-- A chunk reaches the bridge. -/
theorem Aligned.deliver_chunk {which : Nat} {m : Msg} {image : RelayImage} {trailer : List Byte}
    (aligned : s.Aligned) (within : off ≤ image.size)
    (at' : s.sent[which]? = some ⟨Relay.chunkRequest image image.size off, image⟩)
    (late : s.handled ≤ which) (type : m.type = MsgType.otaData)
    (body : m.body = (Relay.chunkRequest image image.size off).body ++ trailer) (env : Env)
    (pairing : Pairing) (signed : Option Word) :
    (s.deliver prims which env pairing m signed ⟨Relay.chunkRequest image image.size off, image⟩).Aligned := by
  obtain ⟨offset, data⟩ := chunk_read image off trailer
  have kind : Kind.ofType m.type = .otaData := by
    rw [type]
    decide
  have not_begin : MsgType.otaData ≠ MsgType.otaBegin := by decide
  obtain ⟨seq_eq, written_eq, hashed_eq⟩ := admitted_ota s.bridge env pairing
  rw [deliver, Bridge.serve, kind]
  simp only [Bridge.serveOtaData, body, offset, data, type, not_begin, false_and, if_false]
  generalize after_eq : ((s.bridge.admitted env pairing).ota.data env.ota off
    (slice image.bytes off.toNat (chunkLen image off).toNat)) = after
  have here : ∀ a, some ({ Bridge.reply m signed after.result none with
      fields := (Tag.offset, Endian.be32 after.ota.seq.next) :: Bridge.messageFields after.msg } : Answer) = some a →
      MsgType.otaData = MsgType.otaData → asked a ≤ after.ota.seq.next := by
    rintro a same -
    cases same
    have next : asked ({ Bridge.reply m signed after.result none with
        fields := (Tag.offset, Endian.be32 after.ota.seq.next) :: Bridge.messageFields after.msg } : Answer) =
        after.ota.seq.next := by
      simp only [asked, Answer.reply, if_true, List.lookup_cons, beq_self_eq_true, Option.map_some,
        Endian.getBe32_be32, Option.getD_some]
    rw [next]
    exact BitVec.le_refl _
  cases active : s.bridge.ota.seq.active with
  | false =>
    have past : (s.bridge.admitted env pairing).ota.seq.active = false := by
      rw [seq_eq]
      exact active
    have same : after.ota = (s.bridge.admitted env pairing).ota := by
      rw [← after_eq]
      exact data_over past
    have idle : after.ota.seq.active = false := by
      rw [same]
      exact past
    refine aligned.handled at' late ?_ ?_ ?_ ?_ here
    · intro other begun
      refine (aligned.progress other begun).ended ?_ ?_ idle
      · exact (congrArg BridgeOta.written same).trans written_eq
      · exact (congrArg BridgeOta.hashed same).trans hashed_eq
    · intro none_begun
      obtain ⟨-, empty, none_hashed⟩ := aligned.fresh none_begun
      refine ⟨idle, ?_, ?_⟩
      · exact ((congrArg BridgeOta.written same).trans written_eq).trans empty
      · exact ((congrArg BridgeOta.hashed same).trans hashed_eq).trans none_hashed
    · exact fun active => absurd (idle.symm.trans active) Bool.false_ne_true
    · exact fun _ active => absurd (idle.symm.trans active) Bool.false_ne_true
  | true =>
    obtain ⟨begun, begun_at, transfer⟩ := aligned.current active
    have image_eq : begun.image = image :=
      aligned.single which _ at' not_begin s.handled begun (Nat.le_refl _) late begun_at
    rw [image_eq] at transfer
    have before : Progress image (s.bridge.admitted env pairing).ota :=
      (aligned.progress image transfer).same written_eq hashed_eq seq_eq
    obtain ⟨progress, still, further⟩ := BridgeOta.data_progress env.ota before (chunkLen_within within)
    rw [after_eq] at progress still further
    rw [seq_eq] at still further
    refine aligned.handled at' late ?_ ?_ (fun _ => transfer) ?_ here
    · intro other same
      cases transfer.symm.trans same
      exact progress
    · intro none_begun
      cases transfer.symm.trans none_begun
    · exact fun _ _ => ⟨active, further⟩

/-- An OTA_END or a REBOOT reaches the bridge. -/
theorem Aligned.deliver_plain {which : Nat} {m : Msg} (aligned : s.Aligned)
    (at' : s.sent[which]? = some sent) (late : s.handled ≤ which) (type : m.type = sent.request.type)
    (kind : sent.request.type = MsgType.otaEnd ∨ sent.request.type = MsgType.reboot) (env : Env)
    (pairing : Pairing) (signed : Option Word) : (s.deliver prims which env pairing m signed sent).Aligned := by
  have not_begin : sent.request.type ≠ MsgType.otaBegin := by
    obtain finish | reboot := kind
    · rw [finish]
      decide
    · rw [reboot]
      decide
  have not_data : sent.request.type ≠ MsgType.otaData := by
    obtain finish | reboot := kind
    · rw [finish]
      decide
    · rw [reboot]
      decide
  obtain ⟨seq_eq, written_eq, hashed_eq⟩ := admitted_ota s.bridge env pairing
  have served : ∃ after, (s.bridge.admitted env pairing).serve prims env m signed = after ∧
      after.bridge.ota.written = s.bridge.ota.written ∧ after.bridge.ota.hashed = s.bridge.ota.hashed ∧
        (after.bridge.ota.seq = s.bridge.ota.seq ∨ after.bridge.ota.seq.active = false) := by
    refine ⟨_, rfl, ?_⟩
    obtain finish | reboot := kind
    · have kind : Kind.ofType m.type = .otaEnd := by
        rw [type, finish]
        decide
      rw [Bridge.serve, kind]
      simp only [Bridge.replyOta]
      obtain ⟨written, hashed, seq⟩ := BridgeOta.finish_cases prims env.ota (s.bridge.admitted env pairing).ota
      exact ⟨written.trans written_eq, hashed.trans hashed_eq, seq.imp_left (·.trans seq_eq)⟩
    · have kind : Kind.ofType m.type = .reboot := by
        rw [type, reboot]
        decide
      rw [Bridge.serve, kind]
      exact ⟨written_eq, hashed_eq, .inl seq_eq⟩
  obtain ⟨after, after_eq, written, hashed, seq⟩ := served
  rw [deliver, after_eq, type]
  simp only [not_begin, false_and, if_false]
  have grows : after.bridge.ota.seq.active = true →
      s.bridge.ota.seq.active = true ∧ s.bridge.ota.seq.next ≤ after.bridge.ota.seq.next := by
    intro active
    obtain same | past := seq
    · rw [same] at active ⊢
      exact ⟨active, BitVec.le_refl _⟩
    · exact absurd (past.symm.trans active) Bool.false_ne_true
  refine aligned.handled at' late ?_ ?_ ?_ (fun _ => grows) fun _ _ data => absurd data not_data
  · intro image begun
    have progress := aligned.progress image begun
    obtain same | past := seq
    · exact progress.same written hashed same
    · exact progress.ended written hashed past
  · intro none_begun
    obtain ⟨idle, empty, none_hashed⟩ := aligned.fresh none_begun
    refine ⟨?_, written.trans empty, hashed.trans none_hashed⟩
    obtain same | past := seq
    · rw [same]
      exact idle
    · exact past
  · intro active
    obtain ⟨begun, begun_at, transfer⟩ := aligned.current (grows active).1
    have image_eq : begun.image = sent.image :=
      aligned.single which _ at' not_begin s.handled begun (Nat.le_refl _) late begun_at
    rw [transfer, image_eq]

theorem serve_ota (prims : Primitives) (b : Bridge) (env : Env) {m : Msg} (other : (Kind.ofType m.type).ofUpdate = false)
    (signed : Option Word) : (b.serve prims env m signed).bridge.ota = b.ota := by
  have creds_kept : (b.clearCreds env).1.ota = b.ota := by
    simp only [Bridge.clearCreds]
    split <;> rfl
  rw [Bridge.serve]
  cases kind : Kind.ofType m.type with
  | setWifi =>
    simp only [Bridge.serveSetWifi]
    split
    · rfl
    · split
      · rfl
      · exact (b.setWifi_keeps env _ _).2
  | clearWifi => exact creds_kept
  | factoryReset =>
    simp only [Bridge.serveFactoryReset, Bridge.resetSettings]
    split <;> exact creds_kept
  | otaBegin | otaData | otaEnd | otaAbort =>
    rw [kind] at other
    cases other
  | status | scan | reboot | pair | unknown => rfl

/-- Both sides stay aligned. -/
theorem Aligned.step (aligned : s.Aligned) (event : RelayEvent) : (s.step prims event).Aligned := by
  cases event with
  | install image =>
    rw [RelaySystem.step]
    split
    · exact aligned
    · next free =>
        have not_sending : ¬ Sending s.relay := fun sending => free sending.busy
        have not_begun : s.relay.state ≠ .begin := by
          intro begun
          rw [Relay.busy, begun] at free
          exact free rfl
        exact { aligned with
            sized := fun busy => absurd busy free
            begun := fun begun => absurd begun not_begun
            steady := fun sending => absurd sending not_sending }
  | force => exact aligned.quiet aligned.sized aligned.begun aligned.steady
  | poll present info busFree now allocates reads start take => exact aligned.poll rfl rfl
  | look port => exact aligned.look port
  | restart nonce => exact aligned.restart nonce
  | serve env pairing m signed =>
    rw [RelaySystem.step]
    split
    · exact aligned
    · next other =>
        have same := serve_ota prims (s.bridge.admitted env pairing) env (Bool.eq_false_iff.mpr other) signed
        obtain ⟨seq, written, hashed⟩ := admitted_ota s.bridge env pairing
        refine aligned.bridge_same ?_ ?_ ?_
        · rw [same, seq]
        · rw [same, written]
        · rw [same, hashed]
  | deliver which env pairing dst src seq trailer signed =>
    rw [RelaySystem.step]
    split
    · next sent at' =>
        split
        · next late =>
            obtain ⟨request, image⟩ := sent
            have fine : Fine image request := aligned.fine _ (List.mem_of_getElem? at')
            cases fine with
            | begin => exact aligned.deliver_begin at' late rfl rfl env pairing signed
            | chunk off within => exact aligned.deliver_chunk within at' late rfl rfl env pairing signed
            | finish timeout => exact aligned.deliver_plain at' late rfl (.inl rfl) env pairing signed
            | reboot timeout => exact aligned.deliver_plain at' late rfl (.inr rfl) env pairing signed
        · exact aligned
    · exact aligned

theorem start_aligned (store : RelayImage) (bridge : Bridge) (nonce : List Byte) :
    (start store bridge nonce).Aligned where
  fine _ member := nomatch member
  single _ _ at' := nomatch at'
  answered _ member := nomatch member
  progress _ begun := nomatch begun
  fresh _ := ⟨rfl, rfl, rfl⟩
  current active := nomatch active
  newest _ member := nomatch member
  sized busy := nomatch busy
  begun begun := nomatch begun
  steady sending := nomatch sending

theorem Aligned.run (aligned : s.Aligned) (events : List RelayEvent) : (s.run prims events).Aligned := by
  induction events generalizing s with
  | nil => exact aligned
  | cons event events ih => exact ih (aligned.step event)

theorem end_answered {which : Nat} {env : Env} {pairing : Pairing} {dst src : List Byte} {seq : Half}
    {trailer : List Byte} {signed : Option Word} (at' : s.sent[which]? = some sent)
    (finish : sent.request.type = MsgType.otaEnd)
    (ok : ((s.bridge.admitted env pairing).serve prims env (message sent dst src seq trailer) signed).answer.map
      (·.result) = some .ok) (aligned : s.Aligned) (late : s.handled ≤ which) :
    s.transfer = some sent.image ∧ s.bridge.ota.hashed = sent.image.bytes ∧
      prims.sha256 sent.image.bytes = s.bridge.ota.sig.sha256 := by
  have ending : Kind.ofType MsgType.otaEnd = .otaEnd := by decide
  have kind : Kind.ofType (message sent dst src seq trailer).type = .otaEnd :=
    (congrArg Kind.ofType finish).trans ending
  rw [Bridge.serve, kind] at ok
  have result : ((s.bridge.admitted env pairing).ota.finish prims env.ota).result = .ok := Option.some.inj ok
  obtain ⟨active, complete, hash⟩ := BridgeOta.finish_ok result
  obtain ⟨seq_eq, -, hashed_eq⟩ := admitted_ota s.bridge env pairing
  have sig_eq : (s.bridge.admitted env pairing).ota.sig = s.bridge.ota.sig := by
    rw [Bridge.admitted, BridgeOta.confirm]
    split <;> rfl
  rw [seq_eq] at active complete
  obtain ⟨begun, begun_at, transfer⟩ := aligned.current active
  have not_begin : sent.request.type ≠ MsgType.otaBegin := by
    rw [finish]
    decide
  have image_eq : begun.image = sent.image :=
    aligned.single which _ at' not_begin s.handled begun (Nat.le_refl _) late begun_at
  rw [image_eq] at transfer
  have whole := (aligned.progress _ transfer).whole active complete
  refine ⟨transfer, whole, ?_⟩
  rw [← whole, ← hashed_eq, hash, sig_eq]

end RelaySystem

open RelaySystem in
/-- A relayed update over any run.  What the bridge has written is what it has hashed, and while a transfer
is under way both are the image up to the offset it wants next, which lies within the announced size.  The
pod's offset is 0 or one that the bridge has acknowledged, and no further than what the bridge has.  An
OTA_END is answered OK only once the whole image is hashed, with the hash its manifest names. -/
theorem relayed_in_order (prims : Primitives) (store : RelayImage) (bridge : Bridge) (nonce : List Byte)
    (events : List RelayEvent) :
    let s := (start store bridge nonce).run prims events
    (∀ image, s.transfer = some image → Progress image s.bridge.ota) ∧
    (s.transfer = none → s.bridge.ota.seq.active = false ∧ s.bridge.ota.written = [] ∧
      s.bridge.ota.hashed = []) ∧
    (Sending s.relay → (s.relay.off = 0 ∨ s.Acknowledged s.relay.off) ∧ s.relay.off ≤ s.store.size ∧
      (s.bridge.ota.seq.active = true → s.transfer = some s.store ∧ s.relay.off ≤ s.bridge.ota.seq.next)) ∧
    ∀ which sent env pairing dst src seq trailer signed, s.sent[which]? = some sent → s.handled ≤ which →
      sent.request.type = MsgType.otaEnd →
      ((s.bridge.admitted env pairing).serve prims env (message sent dst src seq trailer)
        signed).answer.map (·.result) = some .ok →
      s.transfer = some sent.image ∧ s.bridge.ota.hashed = sent.image.bytes ∧
        prims.sha256 sent.image.bytes = s.bridge.ota.sig.sha256 := by
  intro s
  have aligned : s.Aligned := (start_aligned store bridge nonce).run events
  refine ⟨aligned.progress, aligned.fresh, fun sending => ?_, ?_⟩
  · have steady := aligned.steady sending
    refine ⟨steady.reached, steady.within, fun active => ⟨?_, steady.behind active⟩⟩
    obtain ⟨begun, begun_at, transfer⟩ := aligned.current active
    rw [transfer, (steady.pending s.handled begun (Nat.le_refl _) begun_at).1]
  · intro which sent env pairing dst src seq trailer signed at' late finish ok
    exact end_answered at' finish ok aligned late

/-- An image of the project `b` of two chunks, with a manifest under a key of zeros. -/
def sampleRelayImage : RelayImage where
  present := true
  size := 1200
  version := 2
  manifest := ascii "BPSG" ++ [1, 0, fwsigTargetBridge, 0, 0xb0, 0x04, 0, 0] ++ (0xe9 :: zeros 31) ++ zeros 84
  bytes := 0xe9 :: zeros 31 ++ [0x32, 0x54, 0xcd, 0xab] ++ zeros 44 ++ ascii "b" ++ zeros 1119
  sized := by decide +kernel
  manifest_length := by decide +kernel

/-- The second chunk comes twice and its first answer is lost. -/
example :
    let env : Env :=
      { sampleEnv with ota := { sampleEnv.ota with keys := [zeros 32], project := ascii "b" } }
    let deliver (which : Nat) : RelayEvent := .deliver which env (.init [] none) [] [] 0 [] none
    let poll (take : RelayTake) : RelayEvent :=
      .poll true { fwVersion := ascii "0.0.1", paired := true } true 0 true true 0 take
    let s := (RelaySystem.start sampleRelayImage (blankBridge {}) []).run samplePrimitives
      [poll .pending, deliver 0, poll (.answered 0), deliver 1, poll (.answered 1), deliver 2, deliver 2,
        poll (.answered 3), deliver 3]
    s.bridge.ota.hashed = sampleRelayImage.bytes ∧ s.bridge.ota.boots = true := by
  decide +kernel

end BenchPod.Bwp
