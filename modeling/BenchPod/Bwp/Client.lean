import BenchPod.Bwp.Control

/-!
# The pod's client of the bridge

The pod follows the bridge's HELLOs, pairs with it, and runs one request at a time: each send is
signed with a new counter, and the answer ends the request unless a new nonce or a lost counter asks
for one more send.
-/

namespace BenchPod.Bwp

/-- A HELLO counts for this long. -/
def helloTimeoutMs : Word := 6000

/-- The time between two STATUS polls. -/
def statusEveryMs : Word := 10000

/-- The time between two attempts to pair. -/
def pairRetryMs : Word := 5000

/-- Sends of a request before it is given up. -/
def wbTries : Nat := 3

/-- The longest body of a small request. -/
def wbReqMax : Nat := 128

/-- The longest body of any request. -/
def wbBodyMax : Nat := maxFrame - ethHdrLen - hdrLen - trailerLen

/-- The networks a SCAN keeps. -/
def wbScanMax : Nat := 20

/-- The value of a text field that leaves room for its end in a buffer. -/
def getStr (body : List Byte) (tag : Byte) (cap : Nat) : Option (List Byte) :=
  match Tlv.find body tag with
  | some value => if value.length < cap then some value else none
  | none => none

/-- Where the slot of the one request is. -/
inductive ReqState where
  | idle
  | pending
  | done
  | timeout
  deriving DecidableEq, Repr

/-- What a request leaves for its caller. -/
structure Reply where
  result : Byte := 0
  message : List Byte := []
  /-- The offset the bridge wants next. -/
  offset : Word := 0
  aps : List Ap := []
  deriving DecidableEq

/-- What the pod knows of the bridge. -/
structure Info where
  fwVersion : List Byte := []
  hwRev : List Byte := []
  /-- The flags of the last HELLO. -/
  helloFlags : Byte := 0
  state : Byte := 0
  flags : Byte := 0
  /-- The bridge accepts our key. -/
  paired : Bool := false
  problem : Option String := none
  haveStatus : Bool := false
  statusState : Byte := 0
  ssid : List Byte := []
  channel : Byte := 0
  rssi : Byte := 0
  reason : Byte := 0
  uptime : Word := 0
  counters : List Word := List.replicate 7 0
  deriving DecidableEq

/-- The client's state. -/
structure Client where
  podMac : List Byte
  linkUp : Bool := false
  seen : Bool := false
  lastHello : Word := 0
  mac : List Byte := zeros 6
  nonce : List Byte := zeros 8
  haveNonce : Bool := false
  /-- Our secret and public key for this bridge. -/
  secret : List Byte := zeros 32
  pub : List Byte := zeros 32
  haveSecret : Bool := false
  bridgePub : List Byte := zeros 32
  /-- The pairing key of our secret and the bridge's public key. -/
  key : List Byte := zeros 32
  haveKey : Bool := false
  /-- The last counter sent with this nonce. -/
  counter : Word := 0
  seq : Half := 0
  info : Info := {}
  statusAt : Word := 0
  nextStatus : Word := 0
  nextPair : Word := 0
  reqState : ReqState := .idle
  /-- Our own PAIR or STATUS, not a caller's request. -/
  reqInternal : Bool := false
  reqType : Byte := 0
  reqSeq : Half := 0
  /-- The counter of the latest send. -/
  reqCounter : Word := 0
  reqSigned : Bool := false
  reqBody : List Byte := []
  reqTimeout : Word := 0
  reqSent : Word := 0
  reqTries : Nat := 0
  /-- Already sent once more for a lost counter. -/
  reqResynced : Bool := false
  reply : Reply := {}

/-- What a frame is signed with. -/
structure Signature where
  key : List Byte
  nonce : List Byte
  counter : Word
  deriving DecidableEq

/-- A frame sent. -/
structure Transmission where
  frame : List Byte
  seq : Half
  signature : Option Signature
  deriving DecidableEq

/-- How a request leaves the slot. -/
inductive Leave where
  | answered (result : Byte)
  | refused (result : Byte)
  | timedOut
  deriving DecidableEq

/-- What a call leaves: the client, the frame it sends, and how a request left the slot. -/
structure Turn where
  client : Client
  sent : Option Transmission := none
  left : Option Leave := none

def timeElapsed (now since ms : Word) : Bool := ms ≤ now - since

namespace Client

variable (prims : Primitives) (deriveSecret : List Byte → Option (List Byte)) (b : Client)

def init (podMac : List Byte) : Client := { podMac }

def present (now : Word) : Bool := b.seen && b.linkUp && !timeElapsed now b.lastHello helloTimeoutMs

def bridgePaired : Bool := b.info.flags &&& Flag.paired != 0

def setMsg (text : String) : Client :=
  { b with reply := { b.reply with message := (ascii text).take 63 } }

def finish (state : ReqState) : Client :=
  { b with reqState := if b.reqInternal then .idle else state }

/-- Send the request once more, signed with the next counter. -/
def sendReq (now : Word) : Client × Transmission :=
  let total := b.reqBody.length + if b.reqSigned then trailerLen else 0
  let head := header b.mac b.podMac b.reqType b.reqSeq (BitVec.ofNat 16 total)
  let sent := { b with reqSent := now, reqTries := b.reqTries + 1 }
  if b.reqSigned then
    let counter := b.counter + 1
    let field := counterField counter
    let mac := prims.authMac b.key b.nonce (head.drop ethHdrLen ++ (b.reqBody ++ field))
    ({ sent with counter, reqCounter := counter },
      { frame := pad (head ++ (b.reqBody ++ (field ++ Tlv.put Tag.auth mac)))
        seq := b.reqSeq
        signature := some { key := b.key, nonce := b.nonce, counter } })
  else (sent, { frame := pad (head ++ b.reqBody), seq := b.reqSeq, signature := none })

/-- Send the request once more and keep it pending. -/
def resend (now : Word) : Turn :=
  let (client, transmission) := b.sendReq prims now
  { client, sent := some transmission }

def startReq (type : Byte) (body : List Byte) (timeout : Word) (internal : Bool) (now : Word) : Turn :=
  let next := b.seq + 1
  let seq := if next = 0 then 1 else next
  resend prims
    { b with
      reqState := .pending
      reqInternal := internal
      reqType := type
      seq
      reqSeq := seq
      reqBody := body
      reqTimeout := timeout
      reqTries := 0
      reqResynced := false
      reqSigned := b.bridgePaired
      reply := {} } now

/-- Forget a bridge that went away, and give its request up. -/
def forgetBridge : Turn :=
  let pending := b.reqState == .pending
  let b := if pending then (b.setMsg "the bridge went away").finish .timeout else b
  { client :=
      { b with
        seen := false
        haveNonce := false
        haveKey := false
        haveSecret := false
        counter := 0
        key := zeros 32
        secret := zeros 32
        info := {} }
    left := if pending then some .timedOut else none }

def setLink (up : Bool) : Client :=
  { b with
    haveNonce := if b.linkUp && !up then false else b.haveNonce
    linkUp := up }

/-- The pairing key from the bridge's public key. -/
def learnBridgePub (bridgePub : List Byte) : Client :=
  if b.haveSecret = false ∨ (b.haveKey = true ∧ bridgePub = b.bridgePub) then b
  else
    match prims.pairKey b.secret bridgePub b.pub bridgePub with
    | some key => { b with bridgePub, key, haveKey := true }
    | none => { b with bridgePub, key := zeros 32, haveKey := false }

/-- The state from a HELLO or an unsolicited STATUS. -/
def updateState (body : List Byte) (now : Word) : Client :=
  match getU8 body Tag.state with
  | some state =>
    if state = b.info.state then b
    else { b with info := { b.info with state }, nextStatus := now }
  | none => b

/-- Take up the bridge that a HELLO comes from, in place of any other. -/
def takeUp (mac : List Byte) (now : Word) : Client :=
  let known :=
    match deriveSecret mac with
    | some secret => { b with secret, haveSecret := true, pub := prims.x25519Public secret }
    | none => { b with haveSecret := false }
  { known with
    mac
    info :=
      { known.info with
        problem :=
          if known.haveSecret then none else some "no device identity on this pod: cannot pair" }
    nextPair := now
    nextStatus := now }

/-- The nonce a HELLO announces: another one starts the counter over. -/
def helloNonce (body : List Byte) (now : Word) : Client :=
  match getBytes body Tag.nonce 8 with
  | none => b
  | some nonce =>
    if nonce ≠ b.nonce then { b with nonce, counter := 0, nextStatus := now, haveNonce := true }
    else
      { b with
        nextStatus := if b.haveNonce then b.nextStatus else now
        haveNonce := true }

/-- What a HELLO says of the bridge, and its public key while it is paired. -/
def helloInfo (body : List Byte) : Client :=
  let flags := (getU8 body Tag.flags).getD b.info.flags
  let b :=
    { b with
      info :=
        { b.info with
          flags
          helloFlags := flags
          fwVersion := (getStr body Tag.fwVersion 16).getD []
          hwRev := (getStr body Tag.hwRev 8).getD [] } }
  if b.bridgePaired = false then { b with info := { b.info with paired := false }, haveKey := false }
  else
    match getBytes body Tag.pubkey 32 with
    | some bridgePub => b.learnBridgePub prims bridgePub
    | none => b

/-- The bridge has just been heard. -/
def heard (now : Word) : Client := { b with seen := true, lastHello := now }

def onHello (m : Msg) (now : Word) : Turn :=
  let met : Turn :=
    if b.seen = false ∨ m.src ≠ b.mac then
      let forgotten := b.forgetBridge
      { forgotten with client := forgotten.client.takeUp prims deriveSecret m.src now }
    else { client := b }
  let known := ((met.client.heard now).helloNonce m.body now).updateState m.body now
  { met with client := known.helloInfo prims m.body }

/-- The words of a STATUS's counters. -/
def parseCounters (value : List Byte) : List Word := (List.range 7).map fun i => Endian.getBe32 (slice value (4 * i) 4)

def parseStatus (m : Msg) (now : Word) : Client :=
  let state := (getU8 m.body Tag.state).getD b.info.state
  { b with
    info :=
      { b.info with
        state
        statusState := state
        flags := (getU8 m.body Tag.flags).getD b.info.flags
        ssid := (getStr m.body Tag.ssid 33).getD []
        channel := (getU8 m.body Tag.channel).getD 0
        rssi := (getU8 m.body Tag.rssi).getD 0
        reason := (getU8 m.body Tag.reason).getD 0
        uptime := (getU32 m.body Tag.uptime).getD 0
        counters := ((getBytes m.body Tag.counters 28).map parseCounters).getD b.info.counters
        haveStatus := true }
    statusAt := now }

/-- A network as a SCAN reports it. -/
def parseAp (value : List Byte) : Option Ap :=
  if Tlv.valid value then
    (getStr value Tag.ssid 33).map fun ssid =>
      { ssid
        rssi := (getU8 value Tag.rssi).getD 0
        channel := (getU8 value Tag.channel).getD 0
        authmode := (getU8 value Tag.authmode).getD 255
        bssid := (getBytes value Tag.bssid 6).getD (zeros 6) }
  else none

def parseScan (m : Msg) : Client :=
  let aps := (Tlv.fields m.body).filterMap fun field =>
    if field.tag = Tag.ap then parseAp field.val else none
  { b with reply := { b.reply with aps := (b.reply.aps ++ aps).take wbScanMax } }

/-- What the user is told when the bridge does not take our key. -/
def rejected : String := "the bridge is paired with another pod: press PAIR on the bridge"

/-- The results that refuse a request, which a bridge leaves unsigned. -/
def isRefusal (result : Byte) : Bool :=
  result == Result.auth.code || result == Result.notPaired.code || result == Result.alreadyPaired.code

/-- The end of an answer: keep its result and its text, and free the slot. -/
def conclude (m : Msg) (result : Byte) : Turn :=
  let offset :=
    if b.reqType = MsgType.otaData then (getU32 m.body Tag.offset).getD b.reply.offset
    else b.reply.offset
  let message := (getStr m.body Tag.message 64).getD []
  let told := { b with reply := { b.reply with offset, result, message } }
  let explained :=
    if result = Result.auth.code ∨ result = Result.alreadyPaired.code then told.setMsg rejected
    else if result = Result.notPaired.code then
      told.setMsg "the bridge is not paired yet; pairing now, try again"
    else told
  { client := explained.finish .done
    left := some (if isRefusal result then .refused result else .answered result) }

/-- The refusal of a signed request: send it once more under a new nonce or above the counter the
bridge has, or else take it as the answer. -/
def onAuth (m : Msg) (now : Word) : Turn :=
  let renewed := (getBytes m.body Tag.nonce 8).filter fun nonce => b.haveNonce == false || nonce != b.nonce
  match renewed with
  | some nonce =>
    -- a reboot of the bridge was missed
    let b := { b with nonce, haveNonce := true, counter := 0 }
    if b.reqTries < wbTries ∨ b.reqResynced = false then
      resend prims { b with reqResynced := decide (wbTries ≤ b.reqTries) } now
    else b.conclude m Result.auth.code
  | none =>
    let lost := if b.reqResynced then none else getU32 m.body Tag.counter
    match lost with
    | some counter =>
      -- the pod restarted: carry on above the bridge's count
      resend prims
        { b with
          counter := if b.counter ≤ counter then counter else b.counter
          reqResynced := true } now
    | none =>
      conclude { b with info := { b.info with paired := false, problem := some rejected } } m
        Result.auth.code

/-- What an answer that is OK tells about the bridge. -/
def onOk (m : Msg) (now : Word) : Client :=
  if b.reqType = MsgType.pair then
    match getBytes m.body Tag.pubkey 32 with
    | none => b
    | some bridgePub =>
      let learnt := learnBridgePub prims { b with haveKey := false } bridgePub
      { learnt with
        info :=
          { learnt.info with
            flags := learnt.info.flags ||| Flag.paired
            paired := learnt.haveKey
            problem := if learnt.haveKey then none else some "the bridge sent a bad public key" }
        nextStatus := now }
  else if b.reqType = MsgType.status then b.parseStatus m now
  else if b.reqType = MsgType.scan then b.parseScan m
  else if b.reqType = MsgType.setWifi then
    { b with
      info :=
        { b.info with
          haveStatus := false
          state := WifiState.joining
          statusState := WifiState.joining }
      nextStatus := now }
  else b

def onReply (m : Msg) (frame : List Byte) (now : Word) : Turn :=
  let result := (getU8 m.body Tag.result).getD Result.internal.code
  let trusted := b.reqSigned && !isRefusal result
  -- an answer to a signed request is signed with our key and that request's counter
  if trusted = true ∧ verify prims frame m b.key b.nonce ≠ .ok b.reqCounter then { client := b }
  else
    let b :=
      if trusted then { b with info := { b.info with paired := true, problem := none } } else b
    if result = Result.auth.code then b.onAuth prims m now
    else if result = Result.alreadyPaired.code then
      conclude { b with info := { b.info with paired := false, problem := some rejected } } m result
    else if result = Result.notPaired.code then
      conclude
        { b with
          info := { b.info with flags := b.info.flags &&& ~~~Flag.paired, paired := false }
          nextPair := now } m result
    else if result = Result.ok.code then (b.onOk prims m now).conclude m result
    else b.conclude m result

/-- Take one received frame. -/
def rx (frame : List Byte) (now : Word) : Turn :=
  match parse frame with
  | .error _ => { client := b }
  | .ok m =>
    if m.dst ≠ b.podMac ∧ m.dst.headD 0 &&& 1 = 0 then { client := b }
    else if m.type = MsgType.hello then b.onHello prims deriveSecret m now
    else if m.type &&& response = 0 ∨ b.seen = false ∨ m.src ≠ b.mac then { client := b }
    else if m.seq = 0 then
      -- an unsolicited STATUS only refreshes the state
      if m.type = MsgType.status ||| response then
        let b := b.updateState m.body now
        { client :=
            { b with info := { b.info with flags := (getU8 m.body Tag.flags).getD b.info.flags } } }
      else { client := b }
    else if b.reqState = .pending ∧ m.seq = b.reqSeq ∧ m.type = b.reqType ||| response then
      b.onReply prims m frame now
    else { client := b }

/-- Timeouts, retries, pairing and the STATUS poll. -/
def poll (now : Word) : Turn :=
  if b.reqState = .pending then
    if b.present now = false then
      { client := (b.setMsg "no Wi-Fi bridge on the Ethernet port").finish .timeout
        left := some .timedOut }
    else if timeElapsed now b.reqSent b.reqTimeout then
      if b.reqTries < wbTries then b.resend prims now
      else
        { client := (b.setMsg "no answer from the Wi-Fi bridge").finish .timeout
          left := some .timedOut }
    else { client := b }
  else if b.reqState ≠ .idle ∨ b.present now = false ∨ b.haveSecret = false ∨ b.haveNonce = false then
    { client := b }
  else if b.bridgePaired = false then
    if 0 ≤ (now - b.nextPair).toInt then
      startReq prims { b with nextPair := now + pairRetryMs } MsgType.pair (Tlv.put Tag.pubkey b.pub) 1000
        true now
    else { client := b }
  else if b.haveKey = true ∧ 0 ≤ (now - b.nextStatus).toInt then
    startReq prims { b with nextStatus := now + statusEveryMs } MsgType.status [] 1000 true now
  else { client := b }

/-- Start a caller's request: the turn, and 0 or the reason why not. -/
def startRequest (type : Byte) (body : List Byte) (timeout now : Word) : Turn × Int :=
  if b.present now = false then ({ client := b }, -2)
  else if b.haveSecret = false ∨ (b.bridgePaired = true ∧ b.haveKey = false) then ({ client := b }, -3)
  else if b.reqState ≠ .idle then ({ client := b }, -1)
  else if b.bridgePaired = false ∧ type ≠ MsgType.status ∧ type ≠ MsgType.scan then
    ({ client := b }, -1)
  else if b.bridgePaired = true ∧ b.haveNonce = false then ({ client := b }, -1)
  else (b.startReq prims type body timeout false now, 0)

/-- A request with a small body. -/
def request (type : Byte) (body : List Byte) (timeout now : Word) : Turn × Int :=
  if body.length > wbReqMax then ({ client := b }, -3)
  else b.startRequest prims type body timeout now

/-- A request with a body that stays with its caller. -/
def requestExt (type : Byte) (body : List Byte) (timeout now : Word) : Turn × Int :=
  if body.length > wbBodyMax then ({ client := b }, -3)
  else b.startRequest prims type body timeout now

/-- A passphrase sealed under the pairing key. -/
def sealPassphrase (key sealNonce pass : List Byte) : List Byte :=
  let block := BitVec.ofNat 8 pass.length :: (pass ++ zeros (64 - pass.length))
  sealNonce ++ prims.chacha20X block (prims.passKey key) sealNonce

/-- A SET_WIFI with a sealed passphrase. -/
def requestSetWifi (ssid pass sealNonce : List Byte) (timeout now : Word) : Turn × Int :=
  if ssid.length < 1 ∨ 32 < ssid.length ∨ passphraseValid pass = false then ({ client := b }, -4)
  else if b.present now = false then ({ client := b }, -2)
  else if b.bridgePaired = false ∨ b.haveKey = false then
    ({ client := b }, if b.haveSecret = true ∧ b.bridgePaired = false then -1 else -3)
  else
    let sealed :=
      if pass = [] then [] else Tlv.put Tag.encPassphrase (sealPassphrase prims b.key sealNonce pass)
    b.request prims MsgType.setWifi (Tlv.put Tag.ssid ssid ++ sealed) timeout now

def release : Client :=
  if b.reqInternal = false ∧ b.reqState ≠ .pending then { b with reqState := .idle } else b

end Client

/-- What can happen to the client. -/
inductive ClientEvent where
  | link (up : Bool)
  | receive (frame : List Byte) (now : Word)
  | poll (now : Word)
  | request (type : Byte) (body : List Byte) (timeout now : Word)
  | requestExt (type : Byte) (body : List Byte) (timeout now : Word)
  | setWifi (ssid pass sealNonce : List Byte) (timeout now : Word)
  | release

/-- What an event leads to. -/
def Client.turn (prims : Primitives) (deriveSecret : List Byte → Option (List Byte)) (b : Client) :
    ClientEvent → Turn
  | .link up => { client := b.setLink up }
  | .receive frame now => b.rx prims deriveSecret frame now
  | .poll now => b.poll prims now
  | .request type body timeout now => (b.request prims type body timeout now).1
  | .requestExt type body timeout now => (b.requestExt prims type body timeout now).1
  | .setWifi ssid pass sealNonce timeout now => (b.requestSetWifi prims ssid pass sealNonce timeout now).1
  | .release => { client := b.release }

namespace Client

variable (prims : Primitives) (deriveSecret : List Byte → Option (List Byte)) {b : Client}

/-- The frame is for this pod, or for everybody. -/
def Addressed (b : Client) (m : Msg) : Prop := m.dst = b.podMac ∨ m.dst.headD 0 &&& 1 ≠ 0

/-- The frame has the form of an answer to the pending request. -/
def Awaits (b : Client) (m : Msg) : Prop :=
  b.seen = true ∧ m.src = b.mac ∧ m.seq ≠ 0 ∧ b.reqState = .pending ∧ m.seq = b.reqSeq ∧ m.type = b.reqType ||| response

theorem resend_client (now : Word) :
    (b.resend prims now).client =
      { b with
        reqSent := now
        reqTries := b.reqTries + 1
        counter := if b.reqSigned then b.counter + 1 else b.counter
        reqCounter := if b.reqSigned then b.counter + 1 else b.reqCounter } := by
  unfold resend sendReq
  cases b.reqSigned <;> rfl

theorem resend_sent (now : Word) :
    ∃ t, (b.resend prims now).sent = some t ∧ t.seq = b.reqSeq ∧
      t.signature = if b.reqSigned then some { key := b.key, nonce := b.nonce, counter := b.counter + 1 }
        else none := by
  unfold resend sendReq
  cases b.reqSigned
  · exact ⟨_, rfl, rfl, rfl⟩
  · exact ⟨_, rfl, rfl, rfl⟩

theorem updateState_eq (b : Client) (body : List Byte) (now : Word) :
    ∃ info nextStatus, b.updateState body now = { b with info, nextStatus } := by
  unfold updateState
  split
  · split
    · exact ⟨b.info, b.nextStatus, rfl⟩
    · exact ⟨_, _, rfl⟩
  · exact ⟨b.info, b.nextStatus, rfl⟩

/-- A received frame is a HELLO, or an answer that is waited for, or refreshes what is known of the
bridge and no more. -/
theorem rx_cases (frame : List Byte) (now : Word) :
    (∃ info nextStatus, b.rx prims deriveSecret frame now = { client := { b with info, nextStatus } }) ∨
    (∃ m, parse frame = .ok m ∧ b.Addressed m ∧ m.type = MsgType.hello ∧
      b.rx prims deriveSecret frame now = b.onHello prims deriveSecret m now) ∨
    (∃ m, parse frame = .ok m ∧ b.Addressed m ∧ b.Awaits m ∧
      b.rx prims deriveSecret frame now = b.onReply prims m frame now) := by
  have kept : ∃ info nextStatus, (({ client := b } : Turn)) =
      { client := { b with info, nextStatus } } := ⟨b.info, b.nextStatus, rfl⟩
  unfold rx
  cases parsed : parse frame with
  | error _ => exact .inl kept
  | ok m =>
    simp only
    split
    · exact .inl kept
    · rename_i addressed
      have addressed : b.Addressed m := by
        rw [not_and_or, not_not] at addressed
        exact addressed
      split
      · rename_i hello
        exact .inr (.inl ⟨m, rfl, addressed, hello, rfl⟩)
      · split
        · exact .inl kept
        · rename_i ours
          simp only [not_or, Bool.not_eq_false, not_not] at ours
          split
          · split
            · obtain ⟨info, nextStatus, updated⟩ := b.updateState_eq m.body now
              rw [updated]
              exact .inl ⟨_, _, rfl⟩
            · exact .inl kept
          · rename_i solicited
            split
            · rename_i waited
              exact .inr (.inr ⟨m, rfl, addressed, ⟨ours.2.1, ours.2.2, solicited, waited⟩, rfl⟩)
            · exact .inl kept

end Client

/-- A HELLO of a paired bridge with a nonce and a public key. -/
def sampleHello (nonce pubkey : Byte) : List Byte :=
  pad (header (List.replicate 6 0xff) [2, 0xbb, 0, 0, 0, 1] MsgType.hello 0 50 ++
    (Tlv.put Tag.flags [Flag.paired] ++ (Tlv.put Tag.nonce (List.replicate 8 nonce) ++
      Tlv.put Tag.pubkey (List.replicate 32 pubkey))))

/-- The pod of the samples. -/
def samplePod : Client := .init [0, 0x80, 0xe1, 0x12, 0x34, 0x56]

def sampleSecret (_ : List Byte) : Option (List Byte) := some (List.replicate 32 3)

/-- The bridge's answer to the first SCAN of the sample pod, signed under a key. -/
def sampleAnswer (key : List Byte) : List Byte :=
  let answer : Draft :=
    { samplePair with
      dst := samplePair.src
      src := samplePair.dst
      type := MsgType.scan ||| response
      body := Tlv.put Tag.result [Result.ok.code]
      dst_length := samplePair.src_length
      src_length := samplePair.dst_length
      fits := by decide
      chain := Tlv.valid_put (by decide)
      unsigned := by decide }
  answer.signed samplePrimitives key (List.replicate 8 1) 1

end BenchPod.Bwp
