import BenchPod.Bwp.BridgeOta
import BenchPod.Bwp.Pairing

/-!
# The bridge's control channel

One task takes the frames in order.  A frame that is a request is checked against the pairing, then
executed on the bridge's stored settings, its pairing and its update component, and answered.
-/

namespace BenchPod.Bwp

/-- Two entries of the settings store that are written and erased together. -/
structure NvsPair where
  first : Option (List Byte) := none
  second : Option (List Byte) := none
  deriving DecidableEq

/-- Which operations of the settings store succeed. -/
structure NvsPort where
  opens : Bool
  setFirst : Bool
  setSecond : Bool
  eraseFirst : Bool
  eraseSecond : Bool
  commits : Bool

namespace NvsPair

/-- Write both entries: the entries afterwards, and whether all went well. -/
def store (port : NvsPort) (pair : NvsPair) (first second : List Byte) : NvsPair × Bool :=
  if port.opens = false then (pair, false)
  else if port.setFirst = false then (pair, false)
  else if port.setSecond = false then ({ pair with first := some first }, false)
  else ({ first := some first, second := some second }, port.commits)

/-- Erase both entries. -/
def clear (port : NvsPort) (pair : NvsPair) : NvsPair × Bool :=
  if port.opens = false then (pair, false)
  else
    ({ first := if port.eraseFirst then none else pair.first
       second := if port.eraseSecond then none else pair.second }, port.commits)

end NvsPair

/-- A network a scan found. -/
structure Ap where
  ssid : List Byte
  rssi : Byte
  channel : Byte
  authmode : Byte
  bssid : List Byte
  deriving DecidableEq

/-- What the radio and the clock report. -/
structure Radio where
  channel : Byte
  rssi : Byte
  bssid : List Byte
  reason : Byte
  uptime : Word
  counters : List Word

/-- Everything outside the control task that a request meets. -/
structure Env where
  creds : NvsPort
  pairkey : NvsPort
  ota : OtaPort
  /-- The random bytes a pairing's secret is made of. -/
  secret : List Byte
  radio : Radio
  scan : Result × List Ap
  ethLink : Bool
  podMac : Option (List Byte)

/-- The bridge as the control task sees it. -/
structure Bridge where
  pairing : Pairing
  /-- Our public key of the pairing. -/
  pub : List Byte
  /-- The stored network: its name and its passphrase. -/
  creds : NvsPair
  /-- Whether a network is stored, once that has been looked up. -/
  credsPresent : Option Bool
  /-- The stored pairing: the key and our public key. -/
  pairkey : NvsPair
  wifiState : Byte
  ota : BridgeOta
  deriving DecidableEq

/-- An answer: its result, its other fields, and the counter it is signed with. -/
structure Answer where
  dst : List Byte
  type : Byte
  seq : Half
  result : Result
  fields : List (Byte × List Byte) := []
  signed : Option Word := none
  deriving DecidableEq

/-- What handling a frame leaves. -/
structure Handled where
  bridge : Bridge
  answer : Option Answer := none
  reboots : Bool := false

namespace WifiState

def unconfigured : Byte := 0
def waitPod : Byte := 1
def joining : Byte := 2
def connected : Byte := 3

end WifiState

/-- The stored network, when one can be loaded. -/
def credsLoad (creds : NvsPair) : Option (List Byte × List Byte) :=
  match creds.first, creds.second with
  | some ssid, some pass => if 1 ≤ ssid.length ∧ ssid.length ≤ 32 then some (ssid, pass) else none
  | _, _ => none

/-- The stored pairing, when one can be loaded. -/
def pairkeyLoad (pairkey : NvsPair) : Option (List Byte × List Byte) :=
  match pairkey.first, pairkey.second with
  | some key, some pub => if key.length = 32 ∧ pub.length = 32 then some (key, pub) else none
  | _, _ => none

/-- Hexadecimal digits. -/
def isHex (byte : Byte) : Bool :=
  (0x30 ≤ byte && byte ≤ 0x39) || (0x61 ≤ byte && byte ≤ 0x66) || (0x41 ≤ byte && byte ≤ 0x46)

/-- An empty passphrase, 8 to 63 printable characters or 64 hexadecimal digits. -/
def passphraseValid (pass : List Byte) : Bool :=
  if pass.length = 0 then true
  else if pass.length = 64 then pass.all isHex
  else if pass.length < 8 ∨ 63 < pass.length then false
  else pass.all fun byte => 0x20 ≤ byte && byte ≤ 0x7e

/-- The network a SET_WIFI asks for.  A passphrase must come sealed under the pairing key. -/
def parseSetWifi (prims : Primitives) (body : List Byte) (key : Option (List Byte)) :
    Option (List Byte × List Byte) :=
  match Tlv.find body Tag.ssid with
  | none => none
  | some ssid =>
    if ssid.length < 1 ∨ 32 < ssid.length then none
    else if (Tlv.find body Tag.passphrase).isSome then none
    else
      match Tlv.find body Tag.encPassphrase with
      | none => some (ssid, [])
      | some sealed =>
        match key.bind fun key => prims.openPassphrase key sealed with
        | none => none
        | some pass => if passphraseValid pass then some (ssid, pass) else none

/-- The value pointer a search leaves: the field looked for, or else the last one passed over. -/
def findPointer (body : List Byte) (tag : Byte) : Option (List Byte) :=
  (Tlv.find body tag).or ((Tlv.fields body).getLast?.map (·.val))

namespace Flag

def configured : Byte := 0x01
def ethLink : Byte := 0x02
def otaActive : Byte := 0x04
def podKnown : Byte := 0x08
def pendingVerify : Byte := 0x10
def paired : Byte := 0x20

end Flag

namespace Bridge

variable (prims : Primitives) (env : Env)

/-- Look the stored network up, and remember whether there is one. -/
def loadCreds (b : Bridge) : Bridge := { b with credsPresent := some (credsLoad b.creds).isSome }

/-- Whether a network is stored, looked up at most once. -/
def hasCreds (b : Bridge) : Bool := b.credsPresent.getD (credsLoad b.creds).isSome

def storeCreds (b : Bridge) (ssid pass : List Byte) : Bridge × Bool :=
  let (creds, stored) := b.creds.store env.creds ssid pass
  if env.creds.opens then ({ b with creds, credsPresent := none }, stored) else (b, stored)

def clearCreds (b : Bridge) : Bridge × Bool :=
  let (creds, cleared) := b.creds.clear env.creds
  if env.creds.opens then ({ b with creds, credsPresent := some false }, cleared) else (b, cleared)

def storePairkey (b : Bridge) (key pub : List Byte) : Bridge × Bool :=
  let (pairkey, stored) := b.pairkey.store env.pairkey key pub
  ({ b with pairkey }, stored)

def clearPairkey (b : Bridge) : Bridge × Bool :=
  let (pairkey, cleared) := b.pairkey.clear env.pairkey
  ({ b with pairkey }, cleared)

/-- The station starts over with the stored network. -/
def credsChanged (b : Bridge) : Bridge :=
  { b with
    credsPresent := some b.hasCreds
    wifiState := if b.hasCreds then WifiState.joining else b.wifiState }

def setWifi (b : Bridge) (ssid pass : List Byte) : Bridge × Bool :=
  let (b, stored) := b.storeCreds env ssid pass
  if stored then (b.credsChanged, true) else (b, false)

def clearWifi (b : Bridge) : Bridge × Bool :=
  let (b, cleared) := b.clearCreds env
  (b.credsChanged, cleared)

/-- The flags a STATUS shows. -/
def flags (b : Bridge) : Byte :=
  (if b.hasCreds then Flag.configured else 0) ||| (if env.ethLink then Flag.ethLink else 0) |||
  (if b.ota.seq.active then Flag.otaActive else 0) |||
  (if b.ota.pending then Flag.pendingVerify else 0) |||
  (if b.pairing.paired then Flag.paired else 0) |||
  (if env.podMac.isSome then Flag.podKnown else 0)

/-- The fields of a STATUS behind its result. -/
def statusFields (b : Bridge) : List (Byte × List Byte) :=
  let ssid := match credsLoad b.creds with
    | some (ssid, _) => cString ssid
    | none => []
  [(Tag.state, [b.wifiState]), (Tag.flags, [b.flags env])] ++
  (if ssid = [] then [] else [(Tag.ssid, ssid)]) ++
  (if b.wifiState = WifiState.connected then
    [(Tag.channel, [env.radio.channel]), (Tag.rssi, [env.radio.rssi]), (Tag.bssid, env.radio.bssid)]
   else []) ++
  (if env.radio.reason = 0 then [] else [(Tag.reason, [env.radio.reason])]) ++
  [(Tag.uptime, Endian.be32 env.radio.uptime)] ++
  (match env.podMac with
   | some mac => [(Tag.podMac, mac)]
   | none => []) ++
  [(Tag.counters, (env.radio.counters.map Endian.be32).flatten)]

/-- The fields a network of a scan is reported with. -/
def apFields (ap : Ap) : List Byte :=
  Tlv.put Tag.ssid (cString ap.ssid) ++ Tlv.put Tag.rssi [ap.rssi] ++ Tlv.put Tag.channel [ap.channel] ++
    Tlv.put Tag.authmode [ap.authmode] ++ Tlv.put Tag.bssid ap.bssid

/-- The fields of a SCAN behind its result: the first twenty networks. -/
def scanFields (aps : List Ap) : List (Byte × List Byte) := (aps.take 20).map fun ap => (Tag.ap, apFields ap)

/-- The field a message travels in, when there is one. -/
def messageFields (msg : Option String) : List (Byte × List Byte) :=
  match msg with
  | some text => if text = "" then [] else [(Tag.message, ascii text)]
  | none => []

/-- An answer that says a result and perhaps why. -/
def reply (m : Msg) (signed : Option Word) (result : Result) (msg : Option String) : Answer where
  dst := m.src
  type := m.type ||| response
  seq := m.seq
  result
  fields := messageFields msg
  signed

/-- The unsigned answer to a refused request, with our nonce. -/
def refusal (b : Bridge) (m : Msg) (verdict : PairVerdict) : Answer where
  dst := m.src
  type := m.type ||| response
  seq := m.seq
  result := verdict.result
  fields := [(Tag.message, ascii verdict.why), (Tag.nonce, b.pairing.nonce)] ++
    -- a pod that started counting again learns where to continue
    if verdict = .replay then [(Tag.counter, Endian.be32 b.pairing.lastCounter)] else []

/-- Execute a PAIR with the pod's public key.  The answer still goes out under the old key. -/
def pair (b : Bridge) (m : Msg) (signed : Option Word) (newKey : List Byte) : Handled :=
  let pub := prims.x25519Public env.secret
  match prims.pairKey env.secret newKey newKey pub with
  | none => { bridge := b, answer := some (reply m signed .badRequest (some "bad public key")) }
  | some key =>
    let (b, stored) := b.storePairkey env key pub
    if stored then
      { bridge := { b with pairing := b.pairing.setKey key, pub }
        answer := some { reply m signed .ok none with fields := [(Tag.pubkey, pub)] } }
    else { bridge := b, answer := some (reply m signed .storage none) }

/-- What a refused SET_WIFI is told. -/
def setWifiWhy : String := "SSID 1-32 bytes; passphrase sealed (ENC_PASSPHRASE), empty, 8-63 printable ASCII or 64 hex"

/-- The key sealed passphrases are opened with. -/
def sealKey (b : Bridge) : Option (List Byte) := if b.pairing.paired then some b.pairing.key else none

def serveSetWifi (b : Bridge) (m : Msg) (signed : Option Word) : Handled :=
  match parseSetWifi prims m.body b.sealKey with
  | none => { bridge := b, answer := some (reply m signed .badRequest (some setWifiWhy)) }
  | some (ssid, pass) =>
    if b.ota.seq.active then
      { bridge := b, answer := some (reply m signed .busy (some "OTA in progress")) }
    else
      let (b, stored) := b.setWifi env ssid pass
      { bridge := b, answer := some (reply m signed (if stored then .ok else .storage) none) }

def serveClearWifi (b : Bridge) (m : Msg) (signed : Option Word) : Handled :=
  let (b, cleared) := b.clearWifi env
  { bridge := b, answer := some (reply m signed (if cleared then .ok else .storage) none) }

/-- Answer with what a request of the update component came to. -/
def replyOta (b : Bridge) (m : Msg) (signed : Option Word) (outcome : OtaOutcome) : Handled where
  bridge := { b with ota := outcome.ota }
  answer := some (reply m signed outcome.result outcome.msg)

def serveOtaBegin (b : Bridge) (m : Msg) (signed : Option Word) : Handled :=
  match getU32 m.body Tag.imageSize with
  | none => { bridge := b, answer := some (reply m signed .badRequest none) }
  | some size => b.replyOta m signed (b.ota.begin prims env.ota size (findPointer m.body Tag.signature))

/-- The answer to a chunk carries the offset that is expected next. -/
def serveOtaData (b : Bridge) (m : Msg) (signed : Option Word) : Handled :=
  match getU32 m.body Tag.offset, Tlv.find m.body Tag.data with
  | some offset, some data =>
    let outcome := b.ota.data env.ota offset data
    { bridge := { b with ota := outcome.ota }
      answer := some { reply m signed outcome.result none with
        fields := (Tag.offset, Endian.be32 outcome.ota.seq.next) :: messageFields outcome.msg } }
  | _, _ =>
    { bridge := b
      answer := some { reply m signed .badRequest none with fields := [(Tag.offset, Endian.be32 0)] } }

/-- Erase the stored network, then the stored pairing. -/
def resetSettings (b : Bridge) : Bridge × Bool :=
  let (b, cleared) := b.clearCreds env
  if cleared then b.clearPairkey env else (b, false)

def serveFactoryReset (b : Bridge) (m : Msg) (signed : Option Word) : Handled :=
  let (b, cleared) := b.resetSettings env
  { bridge := b
    answer := some (reply m signed (if cleared then .ok else .storage) none)
    reboots := true }

/-- Execute an accepted request other than PAIR. -/
def serve (b : Bridge) (m : Msg) (signed : Option Word) : Handled :=
  match Kind.ofType m.type with
  | .status =>
    { bridge := b.loadCreds
      answer := some { reply m signed .ok none with fields := b.statusFields env } }
  | .scan =>
    { bridge := b
      answer := some { reply m signed env.scan.1 none with fields := scanFields env.scan.2 } }
  | .setWifi => b.serveSetWifi prims env m signed
  | .clearWifi => b.serveClearWifi env m signed
  | .otaBegin => b.serveOtaBegin prims env m signed
  | .otaData => b.serveOtaData env m signed
  | .otaEnd => b.replyOta m signed (b.ota.finish prims env.ota)
  | .otaAbort => b.replyOta m signed { ota := b.ota.abort, result := .ok }
  | .reboot => { bridge := b, answer := some (reply m signed .ok none), reboots := true }
  | .factoryReset => b.serveFactoryReset env m signed
  | .pair | .unknown => { bridge := b, answer := some (reply m signed .unsupported none) }

/-- Act on what the pairing decided about a request. -/
def act (b : Bridge) (m : Msg) (checked : Checked) : Handled :=
  let b := { b with pairing := checked.pairing }
  match checked.verdict with
  | .accept => ({ b with ota := b.ota.confirm env.ota }).serve prims env m checked.authed
  | .storeKey newKey => ({ b with ota := b.ota.confirm env.ota }).pair prims env m checked.authed newKey
  | verdict => { bridge := b, answer := some (b.refusal m verdict) }

/-- Handle one received frame. -/
def handle (b : Bridge) (frame : List Byte) : Handled :=
  match parse frame with
  | .error _ => { bridge := b }
  | .ok m =>
    if m.type &&& response ≠ 0 then { bridge := b }
    else b.act prims env m (b.pairing.check prims frame m)

/-- The bridge after a restart with the new boot's nonce.  A new image runs on trial. -/
def restart (nonce : List Byte) (b : Bridge) : Bridge :=
  let loaded := pairkeyLoad b.pairkey
  let present := (credsLoad b.creds).isSome
  { b with
    pairing := .init nonce (loaded.map (·.1))
    pub := (loaded.map (·.2)).getD (zeros 32)
    credsPresent := some present
    wifiState := if present then WifiState.waitPod else WifiState.unconfigured
    ota :=
      { seq := {}
        sig := { target := 0, size := 0, sha256 := [], version := 0, release := 0, keyId := [] }
        hashed := []
        written := []
        boots := false
        lastUs := 0
        pending := b.ota.boots } }

variable (b : Bridge)

theorem setWifi_pairing (ssid pass : List Byte) : (b.setWifi env ssid pass).1.pairing = b.pairing := by
  simp only [setWifi, storeCreds]
  split
  · split <;> rfl
  · split <;> rfl

theorem clearCreds_pairing : (b.clearCreds env).1.pairing = b.pairing := by
  simp only [clearCreds]
  split <;> rfl

theorem serve_pairing (m : Msg) (signed : Option Word) : (b.serve prims env m signed).bridge.pairing = b.pairing := by
  unfold serve
  cases Kind.ofType m.type with
  | setWifi =>
    simp only [serveSetWifi]
    split
    · rfl
    · split
      · rfl
      · exact b.setWifi_pairing env _ _
  | clearWifi => exact b.clearCreds_pairing env
  | otaBegin =>
    simp only [serveOtaBegin]
    split <;> rfl
  | otaData =>
    simp only [serveOtaData]
    split <;> rfl
  | factoryReset =>
    simp only [serveFactoryReset, resetSettings]
    split <;> exact b.clearCreds_pairing env
  | status => rfl
  | scan => rfl
  | otaEnd => rfl
  | otaAbort => rfl
  | reboot => rfl
  | pair => rfl
  | unknown => rfl

theorem serve_reboots (m : Msg) (signed : Option Word) :
    (b.serve prims env m signed).reboots = true ↔ Kind.ofType m.type = .reboot ∨ Kind.ofType m.type = .factoryReset := by
  unfold serve
  cases Kind.ofType m.type with
  | setWifi =>
    simp only [serveSetWifi]
    split
    · simp
    · split <;> simp
  | otaBegin =>
    simp only [serveOtaBegin]
    split <;> simp [replyOta]
  | otaData =>
    simp only [serveOtaData]
    split <;> simp
  | clearWifi => simp [serveClearWifi]
  | factoryReset => simp [serveFactoryReset]
  | otaEnd => simp [replyOta]
  | otaAbort => simp [replyOta]
  | status => simp
  | scan => simp
  | reboot => simp
  | pair => simp
  | unknown => simp

theorem handle_request {frame : List Byte} {m : Msg} (parsed : parse frame = .ok m)
    (request : m.type &&& response = 0) :
    b.handle prims env frame = b.act prims env m (b.pairing.check prims frame m) := by
  simp only [handle, parsed, request, ne_eq, not_true, if_false]

theorem handle_answer {frame : List Byte} {m : Msg} (parsed : parse frame = .ok m)
    (answer : m.type &&& response ≠ 0) : b.handle prims env frame = { bridge := b } := by
  simp only [handle, parsed, if_pos answer]

theorem act_refused {m : Msg} {pairing : Pairing} {verdict : PairVerdict} {authed : Option Word}
    (refused : verdict.result ≠ .ok) :
    b.act prims env m { pairing, verdict, authed } =
      { bridge := { b with pairing }
        answer := some (({ b with pairing } : Bridge).refusal m verdict) } := by
  cases verdict with
  | accept => exact absurd rfl refused
  | storeKey newKey => exact absurd rfl refused
  | _ => rfl

/-- The state a request is executed in: its counter noted, a new image confirmed. -/
def admitted (pairing : Pairing) : Bridge :=
  { b with pairing, ota := b.ota.confirm env.ota }

theorem act_accept {m : Msg} (not_pair : m.type ≠ MsgType.pair) (pairing : Pairing)
    (authed : Option Word) :
    b.act prims env m { pairing, verdict := Pairing.asksFor m, authed } =
      (b.admitted env pairing).serve prims env m authed := by
  simp only [act, Pairing.asksFor, if_neg not_pair, admitted]

theorem act_pair {m : Msg} (is_pair : m.type = MsgType.pair) {newKey : List Byte}
    (found : getBytes m.body Tag.pubkey 32 = some newKey) (pairing : Pairing)
    (authed : Option Word) :
    b.act prims env m { pairing, verdict := Pairing.asksFor m, authed } =
      (b.admitted env pairing).pair prims env m authed newKey := by
  simp only [act, Pairing.asksFor, if_pos is_pair, found, admitted]

theorem pair_failed_keeps {m : Msg} {signed : Option Word} {newKey : List Byte}
    (failed : (b.pair prims env m signed newKey).answer.map (·.result) ≠ some .ok) :
    (b.pair prims env m signed newKey).bridge.pairing = b.pairing ∧
      (b.pair prims env m signed newKey).bridge.ota = b.ota := by
  simp only [pair] at failed ⊢
  split
  · exact ⟨rfl, rfl⟩
  · rename_i key derived
    simp only [derived] at failed
    split
    · rename_i stored
      simp [stored, reply] at failed
    · exact ⟨rfl, rfl⟩

theorem pair_ok {m : Msg} {signed : Option Word} {newKey : List Byte}
    (succeeded : (b.pair prims env m signed newKey).answer.map (·.result) = some .ok) :
    (b.pair prims env m signed newKey).bridge.pairing.paired = true ∧
      (b.pair prims env m signed newKey).reboots = false := by
  simp only [pair] at succeeded ⊢
  split
  · rename_i derived
    simp [derived, reply] at succeeded
  · rename_i key derived
    simp only [derived] at succeeded
    split
    · exact ⟨rfl, rfl⟩
    · rename_i failed
      simp [failed, reply] at succeeded

theorem pair_reboots (m : Msg) (signed : Option Word) (newKey : List Byte) :
    (b.pair prims env m signed newKey).reboots = false := by
  simp only [pair]
  split
  · rfl
  · split <;> rfl

end Bridge
/-- A settings store that does what it is asked. -/
def sampleNvs : NvsPort where
  opens := true
  setFirst := true
  setSecond := true
  eraseFirst := true
  eraseSecond := true
  commits := true

/-- Surroundings in which every operation succeeds. -/
def sampleEnv : Env where
  creds := sampleNvs
  pairkey := sampleNvs
  ota :=
    { part := some 0x180000, keys := [], project := ascii "benchpod-wifi-bridge"
      beginErr := none, writeErr := none, finish := .ok, setBootErr := none, markValid := true, now := 0 }
  secret := List.replicate 32 7
  radio := { channel := 6, rssi := 0xd0, bssid := zeros 6, reason := 0, uptime := 1, counters := [] }
  scan := (.ok, [])
  ethLink := true
  podMac := none

/-- The settings store and the memory of a bridge before its first boot. -/
def blankBridge (pairkey : NvsPair) : Bridge where
  pairing := .init [] none
  pub := zeros 32
  creds := {}
  credsPresent := none
  pairkey
  wifiState := WifiState.unconfigured
  ota :=
    { seq := {}
      sig := { target := 0, size := 0, sha256 := [], version := 0, release := 0, keyId := [] }
      hashed := [], written := [], boots := false, lastUs := 0, pending := false }

/-- A bridge fresh from the factory. -/
def unpairedBridge : Bridge := (blankBridge {}).restart (List.replicate 8 1)

/-- A bridge that starts with a stored pairing. -/
def pairedBridge : Bridge :=
  (blankBridge { first := some (List.replicate 32 5), second := some (List.replicate 32 6) }).restart
    (List.replicate 8 1)

/-- A pod's PAIR. -/
def samplePair : Draft where
  dst := [2, 0xbb, 0, 0, 0, 1]
  src := [0, 0x80, 0xe1, 0x12, 0x34, 0x56]
  type := MsgType.pair
  seq := 1
  body := Tlv.put Tag.pubkey (List.replicate 32 9)
  dst_length := rfl
  src_length := rfl
  fits := by decide
  chain := Tlv.valid_put (by decide)
  unsigned := by decide

end BenchPod.Bwp
