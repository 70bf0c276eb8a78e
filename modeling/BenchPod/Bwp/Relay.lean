import BenchPod.Bwp.Client

/-!
# The pod's side of a relayed firmware update

The pod begins a transfer of the image it holds, sends chunks at the offset the bridge asks for, ends
the transfer and restarts the bridge.  Each poll is one step.
-/

namespace BenchPod.Bwp

/-- The bytes of an image that one request carries. -/
def wboChunk : Word := 1024

def wboCheckEveryMs : Word := 5000

/-- How long the bridge may take to restart, and perhaps to roll back. -/
def wboComeBackMs : Word := 180000

def wboManifestLen : Nat := 128

/-- Attempts of one version. -/
def wboTries : Byte := 3

/-- What the pod's slot holds. -/
structure RelayImage where
  present : Bool
  size : Word
  version : Word
  manifest : List Byte
  bytes : List Byte
  sized : bytes.length = size.toNat
  manifest_length : manifest.length = wboManifestLen

inductive RelayState where
  | idle
  | begin
  | data
  | finish
  | reboot
  /-- The bridge restarts. -/
  | waitBack
  deriving DecidableEq

structure Relay where
  state : RelayState := .idle
  size : Word := 0
  /-- The offset of the chunk to send. -/
  off : Word := 0
  /-- The version being installed, and the last one that failed. -/
  want : Word := 0
  failed : Word := 0
  nextCheck : Word := 0
  deadline : Word := 0
  /-- The version whose attempts are counted. -/
  triesFor : Word := 0
  tries : Byte := 0
  forced : Bool := false
  /-- The request slot was busy. -/
  resend : Bool := false
  seenNew : Bool := false
  /-- The buffer for request bodies is allocated. -/
  buf : Bool := false
  status : List Byte := ascii "idle"
  deriving DecidableEq

/-- A request with its body. -/
structure RelayRequest where
  type : Byte
  body : List Byte
  timeout : Word
  deriving DecidableEq

/-- What a poll finds. -/
structure RelayPort where
  present : Bool
  info : Info
  image : RelayImage
  busFree : Bool
  now : Word
  allocates : Bool
  reads : Bool
  /-- What starting a request returns. -/
  start : Int
  /-- What the request slot holds. -/
  take : ReqState × Reply

/-- What a poll leaves, with the request it asked the slot to start. -/
structure RelayStep where
  relay : Relay
  asked : Option RelayRequest := none

def elapsed (now at' : Word) : Bool := 0 ≤ (now - at').toInt

/-- The name of a result. -/
def wbResultStr (result : Byte) : String :=
  match result.toNat with
  | 0 => "ok"
  | 1 => "bad-request"
  | 2 => "unsupported"
  | 3 => "busy"
  | 4 => "storage"
  | 5 => "ota-not-started"
  | 6 => "ota-bad-offset"
  | 7 => "ota-verify"
  | 8 => "ota-too-large"
  | 9 => "internal"
  | 10 => "ota-wrong-image"
  | 11 => "not-paired"
  | 12 => "auth"
  | 13 => "already-paired"
  | _ => "error"

def isSpace (byte : Byte) : Bool := byte == 0x20 || (0x09 ≤ byte && byte ≤ 0x0d)

def isDigit (byte : Byte) : Bool := 0x30 ≤ byte && byte ≤ 0x39

/-- The number that a conversion of an unsigned number reads, and what it leaves. -/
def scanUnsigned (text : List Byte) : Option (Word × List Byte) :=
  let text := text.dropWhile isSpace
  let sign := text.headD 0
  let text := if sign = 0x2b ∨ sign = 0x2d then text.tail else text
  let digits := text.takeWhile isDigit
  if digits = [] then none
  else
    let value := digits.foldl (fun value digit => 10 * value + (digit.toNat - 0x30)) 0
    let word : Word :=
      if 2 ^ 32 ≤ value then BitVec.ofNat 32 (2 ^ 32 - 1)
      else if sign = 0x2d then -BitVec.ofNat 32 value
      else BitVec.ofNat 32 value
    some (word, text.dropWhile isDigit)

/-- A version as three numbers of one byte each. -/
def wboPackVersion (text : List Byte) : Word :=
  let packed := do
    let (a, text) ← scanUnsigned text
    if text.headD 0 ≠ 0x2e then none
    let (b, text) ← scanUnsigned text.tail
    if text.headD 0 ≠ 0x2e then none
    let (c, text) ← scanUnsigned text.tail
    if text ≠ [] ∨ 255 < a ∨ 255 < b ∨ 255 < c then none
    some (a <<< 16 ||| b <<< 8 ||| c)
  packed.getD 0

/-- An EMC test build. -/
def wboIsEmcBuild (fwVersion : List Byte) : Bool :=
  4 < fwVersion.length && fwVersion.drop (fwVersion.length - 4) == ascii "-emc"

def decimal (value : Nat) : List Byte := ascii (toString value)

def wboVersionStr (version : Word) : List Byte :=
  decimal (version >>> 16 &&& 0xff).toNat ++ ascii "." ++ decimal (version >>> 8 &&& 0xff).toNat ++
    ascii "." ++ decimal (version &&& 0xff).toNat

namespace Relay

variable (o : Relay) (port : RelayPort)

/-- An update is moving data. -/
def busy : Bool :=
  match o.state with
  | .begin | .data | .finish | .reboot => true
  | .idle | .waitBack => false

/-- Try now, even a version that failed. -/
def force : Relay := { o with forced := true, nextCheck := 0 }

/-- The status is a text in a buffer of 80 bytes. -/
def say (text : List Byte) : Relay := { o with status := text.take 79 }

def stop : Relay := { o with buf := false, state := .idle, forced := false }

/-- What the detail of a failure adds to its text. -/
def detailed (detail : List Byte) : List Byte := if detail = [] then [] else ascii ": " ++ detail

def fail (why detail : List Byte) : Relay :=
  stop
    { o.say (ascii "update to " ++ wboVersionStr o.want ++ ascii " failed: " ++ why ++ detailed detail) with
      failed := o.want }

/-- Fail on the way: a later check tries again, up to the last attempt. -/
def failTransient (why detail : List Byte) : Relay :=
  if wboTries ≤ o.tries then o.fail why detail
  else
    (o.say (ascii "update to " ++ wboVersionStr o.want ++ ascii " failed (will retry): " ++ why ++ detailed detail)).stop

/-- A request that the bridge cannot take. -/
def cannotTake : Relay := o.fail (ascii "the bridge cannot take a request") []

/-- The request that carries the bytes of an image at an offset. -/
def chunkRequest (image : RelayImage) (size off : Word) : RelayRequest :=
  let n := if size - off < wboChunk then size - off else wboChunk
  { type := MsgType.otaData
    body := Tlv.put Tag.offset (Endian.be32 off) ++ Tlv.put Tag.data (slice image.bytes off.toNat n.toNat)
    timeout := 2000 }

/-- Send the chunk that is due. -/
def sendChunk : RelayStep :=
  if port.reads = false then
    { relay := o.fail (ascii "the pod could not read the image from its W25Q") [] }
  else
    let asked := some (chunkRequest port.image o.size o.off)
    let o := { o with resend := port.start == -1 }
    if port.start ≠ 0 ∧ port.start ≠ -1 then { relay := o.cannotTake, asked }
    else
      { relay :=
          o.say (ascii "updating to " ++ wboVersionStr o.want ++ ascii ": " ++
            decimal (o.off.toNat * 100 / o.size.toNat) ++ ascii "%")
        asked }

/-- Send a request without a body. -/
def sendSimple (type : Byte) (timeout : Word) : RelayStep :=
  let asked := some { type, body := [], timeout }
  let o := { o with resend := port.start == -1 }
  if port.start ≠ 0 ∧ port.start ≠ -1 then { relay := o.cannotTake, asked }
  else { relay := o, asked }

/-- The request that begins the transfer of an image. -/
def beginRequest (image : RelayImage) : RelayRequest where
  type := MsgType.otaBegin
  body := Tlv.put Tag.imageSize (Endian.be32 image.size) ++ Tlv.put Tag.signature image.manifest
  timeout := 30000

/-- Why no update can start, whatever the versions are. -/
def hindrance : Option String :=
  if port.image.present = false then some "the pod holds no bridge image (slot \"bridge\")"
  else if port.present = false then some "no Wi-Fi bridge on the Ethernet port"
  else if port.info.paired = false then some "the bridge is not paired with this pod"
  else if port.info.flags &&& (Flag.pendingVerify ||| Flag.otaActive) ≠ 0 then
    some "the bridge is busy with another update"
  else none

/-- The version the bridge runs, 0 when it is not known. -/
def bridgeVersion : Word := if port.present then wboPackVersion (cString port.info.fwVersion) else 0

/-- The versions of an update that starts. -/
def starting (want have' : Word) : List Byte :=
  ascii "updating " ++ (if have' = 0 then ascii "?" else wboVersionStr have') ++ ascii " to " ++
    wboVersionStr want ++ ascii ": starting"

/-- Begin the transfer once a request buffer is there. -/
def tryBegin : RelayStep :=
  if port.allocates = false then { relay := o.say (ascii "update waiting: out of memory") }
  else
    let want := port.image.version
    let o :=
      { o with
        buf := true
        want
        triesFor := want
        tries := (if o.triesFor ≠ want ∨ o.forced = true then 0 else o.tries) + 1
        seenNew := false
        size := port.image.size
        off := 0 }
    let asked := some (beginRequest port.image)
    if port.start ≠ 0 then { relay := { o with buf := false }, asked }
    else { relay := say { o with state := .begin } (starting want (bridgeVersion port)), asked }

def tryStart : RelayStep :=
  let o := { o with nextCheck := port.now + wboCheckEveryMs }
  match hindrance port with
  | some why =>
    if o.forced then { relay := say { o with forced := false } (ascii "cannot update: " ++ ascii why) }
    else { relay := o }
  | none =>
    if o.forced = false ∧ wboIsEmcBuild (cString port.info.fwVersion) = true then
      { relay := o.say (ascii "no automatic update: the bridge runs an EMC test build") }
    else if o.forced = false ∧
        (bridgeVersion port = 0 ∨ port.image.version ≤ bridgeVersion port ∨ port.image.version = o.failed) then
      { relay := o }
    else if port.busFree = false then { relay := o.say (ascii "update waiting: the bus is busy") }
    else o.tryBegin port

/-- Wait for the bridge to come back with the new version, confirmed. -/
def pollWaitBack : Relay :=
  let version := wboVersionStr o.want
  let running := port.present && wboPackVersion (cString port.info.fwVersion) == o.want
  -- the flags of the HELLO: the STATUS after a rollback comes before the HELLO with the old version
  if running = true ∧ port.info.helloFlags &&& Flag.pendingVerify ≠ 0 then
    say { o with seenNew := true }
      (ascii "updating to " ++ version ++ ascii ": on trial, waiting for the bridge to confirm")
  else if running then
    stop { o.say (ascii "updated to " ++ version) with failed := 0, tries := 0 }
  else if port.present = true ∧ o.seenNew = true then
    o.fail (ascii "the bridge rolled back to its previous firmware") []
  else if elapsed port.now o.deadline then
    if port.present then o.fail (ascii "the bridge came back with its old firmware (rolled back?)") []
    else o.failTransient (ascii "the bridge did not come back") []
  else o

/-- Ask again where the request slot was busy. -/
def pollResend : RelayStep :=
  match o.state with
  | .data => o.sendChunk port
  | .finish => o.sendSimple port MsgType.otaEnd 30000
  | .reboot => o.sendSimple port MsgType.reboot 1000
  | _ => { relay := o }

/-- The name of the request that is waited for. -/
def stepName : String :=
  match o.state with
  | .begin => "OTA_BEGIN"
  | .data => "OTA_DATA"
  | .finish => "OTA_END"
  | _ => "REBOOT"

/-- Go on once the request is answered. -/
def pollAnswered (reply : Reply) : RelayStep :=
  let refused := o.fail (ascii (wbResultStr reply.result)) reply.message
  match o.state with
  | .begin =>
    if reply.result ≠ Result.ok.code then { relay := refused }
    else sendChunk { o with state := .data } port
  | .data =>
    if reply.result ≠ Result.ok.code ∧ reply.result ≠ Result.otaBadOffset.code then { relay := refused }
    else
      -- the next offset the bridge wants, also after a loss
      let o := { o with off := reply.offset }
      if o.size < o.off then
        { relay := o.fail (ascii "the bridge asked for an offset past the image") [] }
      else if o.off = o.size then
        sendSimple { o with state := .finish } port MsgType.otaEnd 30000
      else o.sendChunk port
  | .finish =>
    if reply.result ≠ Result.ok.code then { relay := refused }
    else sendSimple { o with state := .reboot } port MsgType.reboot 1000
  | _ => { relay := o }

/-- Take what the slot holds of the request. -/
def pollTake : RelayStep :=
  match port.take with
  | (.pending, _) | (.idle, _) => { relay := o }
  | (taken, reply) =>
    if o.state = .reboot then
      -- answered or not, the bridge restarts
      { relay :=
          say { o.stop with state := .waitBack, deadline := port.now + wboComeBackMs }
            (ascii "updating to " ++ wboVersionStr o.want ++ ascii ": waiting for the bridge to restart") }
    else if taken = .timeout then
      { relay := o.failTransient (ascii "no answer to " ++ ascii o.stepName) reply.message }
    else o.pollAnswered port reply

/-- One step of the update. -/
def poll : RelayStep :=
  match o.state with
  | .idle =>
    if o.forced = true ∨ elapsed port.now o.nextCheck = true then o.tryStart port else { relay := o }
  | .waitBack => { relay := o.pollWaitBack port }
  | _ => if o.resend then o.pollResend port else o.pollTake port

/-- How a poll comes to the offset it goes on with. -/
inductive Reaches (off : Word) : Prop where
  /-- The transfer has just begun. -/
  | first (begun : o.state = .begin) (taken : port.take.1 = .done)
      (ok : port.take.2.result = Result.ok.code) (start : off = o.off)
  /-- The request slot was busy. -/
  | again (sending : o.state = .data ∨ o.state = .finish) (stays : off = o.off)
  /-- The bridge has said what it wants next. -/
  | next (sending : o.state = .data) (taken : port.take.1 = .done)
      (ok : port.take.2.result = Result.ok.code ∨ port.take.2.result = Result.otaBadOffset.code)
      (wanted : off = port.take.2.offset) (within : off ≤ o.size)

/-- What a poll asks the slot for, and the update that it then is. -/
inductive Asks (after : Relay) : RelayRequest → Prop where
  | begin (idle : o.state = .idle) (state : after.state = .begin) (size : after.size = port.image.size)
      (off : after.off = 0) (started : port.start = 0) : Asks after (beginRequest port.image)
  | chunk (reached : o.Reaches port after.off) (state : after.state = .data) (size : after.size = o.size) :
      Asks after (chunkRequest port.image o.size after.off)
  | finish (reached : o.Reaches port after.off) (state : after.state = .finish)
      (size : after.size = o.size) : Asks after ⟨MsgType.otaEnd, [], 30000⟩
  | reboot (ending : o.state = .finish ∨ o.state = .reboot) (state : after.state = .reboot)
      (off : after.off = o.off) (size : after.size = o.size) : Asks after ⟨MsgType.reboot, [], 1000⟩

/-- What a poll can do. -/
inductive Polls : RelayStep → Prop where
  | leaves {step : RelayStep} (away : step.relay.busy = false)
      (refused : step.asked ≠ none → port.start ≠ 0) : Polls step
  | rests {step : RelayStep} (silent : step.asked = none) (state : step.relay.state = o.state)
      (size : step.relay.size = o.size) (off : step.relay.off = o.off) : Polls step
  | asks {step : RelayStep} {request : RelayRequest} (asked : step.asked = some request)
      (due : o.Asks port step.relay request) : Polls step

variable {o : Relay} {port : RelayPort}

theorem Reaches.busy {off : Word} (reached : o.Reaches port off) : o.busy = true := by
  cases reached with
  | first begun => rw [Relay.busy, begun]
  | again sending =>
    obtain data | finish := sending
    · rw [Relay.busy, data]
    · rw [Relay.busy, finish]
  | next sending => rw [Relay.busy, sending]

theorem fail_away (why detail : List Byte) : (o.fail why detail).busy = false := rfl

theorem failTransient_away (why detail : List Byte) : (o.failTransient why detail).busy = false := by
  rw [failTransient]
  split <;> rfl

theorem sendChunk_polls {due : Relay} (reached : o.Reaches port due.off) (state : due.state = .data)
    (size : due.size = o.size) : o.Polls port (due.sendChunk port) := by
  rw [sendChunk]
  split
  · exact .leaves (fail_away _ _) fun asked => absurd rfl asked
  · split
    · next refused => exact .leaves (fail_away _ _) fun _ => refused.1
    · refine .asks (congrArg some (congrArg (chunkRequest port.image · due.off) size)) ?_
      exact .chunk reached state size

theorem sendSimple_polls {due : Relay} {type : Byte} {timeout : Word}
    (asks : ∀ resend, o.Asks port { due with resend } ⟨type, [], timeout⟩) :
    o.Polls port (due.sendSimple port type timeout) := by
  rw [sendSimple]
  split
  · next refused => exact .leaves (fail_away _ _) fun _ => refused.1
  · exact .asks rfl (asks _)

theorem tryBegin_polls {due : Relay} (idle : o.state = .idle) (same : due.state = o.state) :
    o.Polls port (due.tryBegin port) := by
  have away (after : Relay) (state : after.state = due.state) : after.busy = false := by rw [busy, state, same, idle]
  by_cases allocated : port.allocates = false
  · rw [tryBegin, if_pos allocated]
    exact .leaves (away _ rfl) fun asked => absurd rfl asked
  · by_cases started : port.start = 0
    · rw [tryBegin, if_neg allocated]
      simp only [if_neg (not_not.mpr started)]
      exact .asks rfl (.begin idle rfl rfl rfl started)
    · rw [tryBegin, if_neg allocated]
      simp only [if_pos started]
      exact .leaves (away _ rfl) fun _ => started

theorem tryStart_polls (idle : o.state = .idle) : o.Polls port (o.tryStart port) := by
  have away (after : Relay) (state : after.state = .idle) : o.Polls port { relay := after } := by
    refine .leaves ?_ fun asked => absurd rfl asked
    rw [busy, state]
  have told (due : Relay) (text : List Byte) (state : due.state = .idle) : (due.say text).state = .idle := state
  rw [tryStart]
  split
  · split
    · refine away _ ?_
      exact told _ _ idle
    · exact away _ idle
  · split
    · refine away _ ?_
      exact told _ _ idle
    · split
      · exact away _ idle
      · split
        · refine away _ ?_
          exact told _ _ idle
        · exact tryBegin_polls idle rfl

theorem pollWaitBack_away (waiting : o.state = .waitBack) : (o.pollWaitBack port).busy = false := by
  rw [pollWaitBack]
  split
  · rw [busy]
    simp only [say, waiting]
  · split
    · rfl
    · split
      · exact fail_away _ _
      · split
        · split
          · exact fail_away _ _
          · exact failTransient_away _ _
        · rw [busy, waiting]

theorem pollResend_polls : o.Polls port (o.pollResend port) := by
  rw [pollResend]
  split
  · next data => exact sendChunk_polls (.again (.inl data) rfl) data rfl
  · next finish => exact sendSimple_polls fun _ => .finish (.again (.inr finish) rfl) finish rfl
  · next reboot => exact sendSimple_polls fun _ => .reboot (.inr reboot) reboot rfl rfl
  · exact .rests rfl rfl rfl rfl

theorem pollAnswered_polls (taken : port.take.1 = .done) : o.Polls port (o.pollAnswered port port.take.2) := by
  have refused (why detail : List Byte) : o.Polls port { relay := o.fail why detail } :=
    .leaves (fail_away _ _) fun asked => absurd rfl asked
  rw [pollAnswered]
  split
  · next begun =>
      split
      · exact refused _ _
      · next ok => exact sendChunk_polls (.first begun taken (not_not.mp ok) rfl) rfl rfl
  · next sending =>
      split
      · exact refused _ _
      · next ok =>
          rw [not_and_or, not_not, not_not] at ok
          dsimp only
          split
          · exact .leaves (fail_away _ _) fun asked => absurd rfl asked
          · next past =>
            have within : port.take.2.offset ≤ o.size := BitVec.not_lt.mp past
            split
            · exact sendSimple_polls fun _ => .finish (.next sending taken ok rfl within) rfl rfl
            · exact sendChunk_polls (.next sending taken ok rfl within) sending rfl
  · next ending =>
      split
      · exact refused _ _
      · exact sendSimple_polls fun _ => .reboot (.inl ending) rfl rfl rfl
  · exact .rests rfl rfl rfl rfl

theorem pollTake_polls : o.Polls port (o.pollTake port) := by
  rw [pollTake]
  split
  · exact .rests rfl rfl rfl rfl
  · exact .rests rfl rfl rfl rfl
  · next taken reply not_pending not_idle took =>
      split
      · exact .leaves rfl fun asked => absurd rfl asked
      · split
        · exact .leaves (failTransient_away _ _) fun asked => absurd rfl asked
        · next late =>
            have done : port.take.1 = .done := by
              rw [took]
              cases taken with
              | idle => exact absurd rfl not_idle
              | pending => exact absurd rfl not_pending
              | done => rfl
              | timeout => exact absurd rfl late
            have reply_eq : reply = port.take.2 := by rw [took]
            rw [reply_eq]
            exact pollAnswered_polls done

theorem poll_polls (o : Relay) (port : RelayPort) : o.Polls port (o.poll port) := by
  rw [poll]
  split
  · next idle =>
      split
      · exact tryStart_polls idle
      · exact .rests rfl rfl rfl rfl
  · next waiting => exact .leaves (pollWaitBack_away waiting) fun asked => absurd rfl asked
  · split
    · exact pollResend_polls
    · exact pollTake_polls

end Relay
end BenchPod.Bwp
