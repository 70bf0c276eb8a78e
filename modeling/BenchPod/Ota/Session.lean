import BenchPod.Library.StrideLoop
import BenchPod.Ota.FwSign

/-!
# The update session

One staging area in the PSRAM, three transports.  A session receives an image, checks it and waits for
its commit; it belongs to the transport that began it.
-/

namespace BenchPod
namespace Ota

open Bwp (Primitives slice zeros)

/-- How long a session may make no progress before another transport may begin over it. -/
def takeoverIdleMs : Word := 30000

/-- How long a session may receive nothing before it is abandoned. -/
def stageIdleMs : Word := 120000

/-- How long a verified image waits for its commit. -/
def verifiedHoldMs : Word := 600000

/-- The chunk an image is read back in. -/
def otaChunk : Nat := 4096

inductive OtaState where
  | idle
  | receiving
  /-- The staged image has the expected digest. -/
  | verified
  | error
  | installed
  deriving DecidableEq, Repr

/-- What an update writes. -/
inductive Target where
  | firmware
  | gw0
  | gw1
  | esp
  | ca
  | tls
  | bridge
  deriving DecidableEq, Repr

/-- The number a target is signed under. -/
def Target.code : Target → Byte
  | .firmware => 0
  | .gw0 => 1
  | .gw1 => 2
  | .esp => 3
  | .ca => 4
  | .tls => 5
  | .bridge => 6

def Target.name : Target → String
  | .firmware => "firmware"
  | .gw0 => "gw0"
  | .gw1 => "gw1"
  | .esp => "esp"
  | .ca => "ca"
  | .tls => "tls"
  | .bridge => "bridge"

/-- Configuration, not code: it is not signed. -/
def Target.isConfig : Target → Bool
  | .ca | .tls => true
  | _ => false

/-- Who a session belongs to. -/
inductive Owner where
  | none
  | cloud
  | usb
  | lan (conn : Nat)
  deriving DecidableEq, Repr

def Owner.isLan : Owner → Bool
  | .lan _ => true
  | _ => false

/-- What a pod is built with. -/
structure Board where
  prims : Primitives
  /-- The release keys. -/
  keys : List (List Byte)
  /-- Built for a Wi-Fi bridge. -/
  bridge : Bool
  /-- The internal flash in bytes. -/
  flashSize : Word

/-- What the PSRAM and the checks elsewhere answer during one call. -/
structure Answers where
  /-- Whether the read of a chunk succeeds. -/
  chunkRead : Nat → Bool := fun _ => true
  fitsRead : Bool := true
  flagsRead : Bool := true
  /-- How many bytes of a chunk are written before the write fails; none when it succeeds. -/
  failsAt : Option Nat := none
  /-- What is wrong with a staged configuration. -/
  invalid : Option String := none
  /-- Why a verified image could not be written. -/
  failed : Option String := none

/-- The session with its staging area and the signature policy. -/
structure Session where
  state : OtaState := .idle
  size : Word := 0
  /-- How far bytes are staged. -/
  received : Word := 0
  expect : List Byte := zeros 32
  target : Target := .firmware
  version : Word := 0
  err : String := ""
  /-- The signature check of the last begin, and the key it names. -/
  sig : FwSigResult := .none
  sigKey : List Byte := []
  /-- The manifest of a bridge image. -/
  sigCopy : List Byte := zeros 128
  /-- What the watchdog last saw received, and when; 0 is not yet. -/
  wdSeen : Word := 0
  wdMark : Word := 0
  /-- When the watchdog first saw the image verified; 0 is not yet. -/
  verifiedMark : Word := 0
  owner : Owner := .none
  /-- The owning LAN connection closed. -/
  orphan : Bool := false
  clock : Word := 0
  activity : Word := 0
  /-- The last refusal that was shown to its owner only. -/
  refOwner : Owner := .none
  refErr : String := ""
  refSeq : Word := 0
  staged : Nat → Byte := fun _ => 0
  policy : FwSigPolicy := .audit

/-- A text as a buffer of a given size keeps it. -/
def clip (count : Nat) (text : String) : String := String.ofList (text.toList.take count)

def hexNibble (c : Char) : Option Nat :=
  if '0' ≤ c ∧ c ≤ '9' then some (c.toNat - '0'.toNat)
  else if 'a' ≤ c ∧ c ≤ 'f' then some (c.toNat - 'a'.toNat + 10)
  else if 'A' ≤ c ∧ c ≤ 'F' then some (c.toNat - 'A'.toNat + 10)
  else none

/-- The bytes of pairs of hex digits. -/
def hexPairs : List Char → Option (List Byte)
  | [] => some []
  | [_] => none
  | hi :: lo :: rest => do
      let hi ← hexNibble hi
      let lo ← hexNibble lo
      let bytes ← hexPairs rest
      some (BitVec.ofNat 8 (hi * 16 + lo) :: bytes)

/-- The digest of exactly 64 hex digits. -/
def parseSha256Hex (hex : Option String) : Option (List Byte) :=
  match hex with
  | none => none
  | some text => if text.toList.length = 64 then hexPairs text.toList else none

namespace Board

variable (board : Board)

/-- What lies below the persistent store. -/
def otaMaxSize : Word := 0x1e0000 - 0x200000 + board.flashSize

def targetKnown : Target → Bool
  | .bridge => board.bridge
  | _ => true

/-- The largest image of a target: its slot without the header, or what its store takes. -/
def targetMaxSize : Target → Word
  | .firmware => board.otaMaxSize
  | .gw0 | .gw1 => 0x040000 - 0x1000
  | .esp => 0x400000 - 0x1000
  | .ca => 0x010000 - 0x1000
  | .tls => 7680 - 16
  | .bridge => 0x100000 - 0x1000

end Board

/-- The block that says what a firmware image needs. -/
def fwInfoMagic : Word := 0x57465042

def fwInfoRequiredKb (info : Option (List Byte)) : Word :=
  match info with
  | some bytes =>
    if Endian.rd32 (slice bytes 0 4) ≠ fwInfoMagic ∨ Endian.rd16 (slice bytes 6 2) = 0 then 2048
    else (Endian.rd16 (slice bytes 6 2)).setWidth 32
  | none => 2048

def fwInfoFlags (info : Option (List Byte)) : Word :=
  match info with
  | some bytes =>
    if Endian.rd32 (slice bytes 0 4) = fwInfoMagic then Endian.rd32 (slice bytes 8 4) else 0
  | none => 0

def fwInfoOffset : Nat := 0x400

/-- Staged bytes. -/
def readStaged (staged : Nat → Byte) (off count : Nat) : List Byte := (List.range count).map fun i => staged (off + i)

/-- Stage bytes. -/
def writeStaged (staged : Nat → Byte) (off : Nat) (bytes : List Byte) : Nat → Byte :=
  fun addr =>
    if off ≤ addr ∧ addr < off + bytes.length then bytes.getD (addr - off) 0 else staged addr

namespace Session

variable (board : Board) (s : Session) (answers : Answers)

def setErr (text : String) : Session := { s with err := clip 63 text, state := .error }

def active : Bool := s.state == .receiving || s.state == .verified

/-- The owning LAN connection closed and another LAN connection carries on. -/
def mayAdopt (who : Owner) : Bool := s.orphan && who.isLan && s.owner.isLan

def mayAct (who : Owner) : Bool := !s.active || s.owner == .none || s.owner == who || s.mayAdopt who

/-- No progress for too long. -/
def abandoned : Bool := takeoverIdleMs ≤ s.clock - s.activity

def adopt (who : Owner) : Session :=
  let taken :=
    if s.active && s.owner != who && s.mayAdopt who then { s with owner := who } else s
  if taken.owner = who then { taken with orphan := false } else taken

def mayReplace (who : Owner) : Bool := s.mayAct who || s.owner == who || s.abandoned

/-- Who the session belongs to while it is active. -/
def otaOwner : Owner := if s.active then s.owner else .none

def holderName : String :=
  match s.owner with
  | .cloud => "the cloud"
  | .usb => "the USB console"
  | .lan conn => "LAN connection " ++ toString conn
  | .none => "LAN connection -16"

def busyMsg : String := clip 95 ("busy: " ++ s.target.name ++ " update from " ++ s.holderName ++ " is in progress")

/-- Why someone may not send data, end or commit; who may act adopts the session. -/
def busyFor (who : Owner) : Option String × Session :=
  if s.mayAct who then (none, s.adopt who) else (some s.busyMsg, s)

/-- Why someone may not begin or abort. -/
def busyReplaceFor (who : Owner) : Option String :=
  if s.mayReplace who then none else some s.busyMsg

def clearRefusal (who : Owner) : Session :=
  if s.refOwner = who then { s with refOwner := .none, refErr := "" } else s

/-- Refuse something someone asked for.  Refusals of data and ends are not repeated. -/
def refuse (who : Owner) (why : String) (fresh : Bool) : Session :=
  if s.mayReplace who then
    let cleared := s.clearRefusal who
    let counted := if fresh then { cleared with refSeq := cleared.refSeq + 1 } else cleared
    { counted.setErr why with owner := who, orphan := false }
  else if s.refOwner = who ∧ s.refErr = clip 95 why ∧ fresh = false then s
  else { s with refOwner := who, refErr := clip 95 why, refSeq := s.refSeq + 1 }

/-- Check the manifest of an image; a bridge image always needs a good one. -/
def checkSignature (sig : Option (List Byte)) (expect : List Byte) : Session × Int :=
  let result := fwSignCheckKeys board.prims sig s.target.code s.size expect board.keys
  let checked :=
    { s with
      sig := result
      sigKey :=
        if result ≠ .none ∧ result ≠ .format then ((fwSignOut sig).map (·.keyId)).getD [] else [] }
  if s.target = .bridge then
    if result = .ok then ({ checked with sigCopy := sig.getD [] }, 0)
    else (checked.setErr ("signature: " ++ result.name), -1)
  else if fwSignAccept result s.policy then (checked, 0)
  else (checked.setErr ("signature: " ++ result.name), -1)

/-- Begin a session for a target; none is a number that names no target. -/
def beginSigned (size : Word) (sha256Hex : Option String) (target : Option Target) (version : Word)
    (sig : Option (List Byte)) : Session × Int :=
  let fresh := { s with sig := .none, sigKey := [] }
  match target.filter board.targetKnown with
  | none => (fresh.setErr "bad target", -1)
  | some target =>
    let aimed := { fresh with target, version }
    if size = 0 ∨ size > board.targetMaxSize target then (aimed.setErr "bad size", -1)
    else
      match parseSha256Hex sha256Hex with
      | none => (aimed.setErr "bad sha256", -1)
      | some expect =>
        let sized := { aimed with size }
        let (checked, rc) :=
          if target.isConfig then (sized, 0) else sized.checkSignature board sig expect
        if rc ≠ 0 then (checked, -1)
        else
          ({ checked with
             expect
             size
             received := 0
             err := ""
             state := .receiving
             wdSeen := 0
             wdMark := 0
             verifiedMark := 0 }, 0)

/-- Begin a session for a transport. -/
def beginOwned (who : Owner) (size : Word) (sha256Hex : Option String) (target : Option Target)
    (version : Word) (sig : Option (List Byte)) : Session × Int :=
  match s.busyReplaceFor who with
  | some busy => (s.refuse who busy true, -1)
  | none =>
    let owned := { s.clearRefusal who with owner := who, orphan := false }
    let (begun, rc) := owned.beginSigned board size sha256Hex target version sig
    ({ begun with activity := begun.clock }, rc)

/-- Stage a chunk. -/
def otaData (offset : Word) (bytes : List Byte) : Session × Int :=
  if s.state ≠ .receiving then (s.setErr "not receiving", -1)
  else
    let s := { s with activity := s.clock }
    if bytes.length = 0 then (s, 0)
    else if offset > s.size ∨ bytes.length > (s.size - offset).toNat then
      (s.setErr "chunk out of range", -1)
    else
      match answers.failsAt with
      | some count =>
        let partly := writeStaged s.staged offset.toNat (bytes.take count)
        ({ s with staged := partly }.setErr "psram write failed", -1)
      | none =>
        let last := offset + BitVec.ofNat 32 bytes.length
        ({ s with
           staged := writeStaged s.staged offset.toNat bytes
           received := if last > s.received then last else s.received }, 0)

/-- The staged image, read back chunk by chunk. -/
def readImage : Option (List Byte) :=
  (strides s.size.toNat otaChunk).foldlM (fun read off =>
    if answers.chunkRead off then
      some (read ++ readStaged s.staged off (min otaChunk (s.size.toNat - off)))
    else none) []

/-- Compare the staged image's digest: 0 is equal, 1 is not. -/
def stagedHashCheck : Session × Int :=
  match s.readImage answers with
  | none => (s.setErr "psram read failed", -1)
  | some image => if board.prims.sha256 image = s.expect then (s, 0) else (s, 1)

/-- The information block of the staged image, when it is long enough to have one. -/
def stagedInfo : Option (List Byte) :=
  if s.size.toNat ≥ fwInfoOffset + 16 then some (readStaged s.staged fwInfoOffset 16) else none

/-- Whether the staged firmware fits this pod's flash. -/
def stagedFitsThisFlash : Session × Int :=
  if s.stagedInfo.isSome ∧ answers.fitsRead = false then (s.setErr "psram read failed", -1)
  else
    let needKb := fwInfoRequiredKb s.stagedInfo
    let haveKb := board.flashSize / 1024
    if needKb > haveKb then
      (s.setErr ("image needs " ++ toString needKb.toNat ++ " KB flash, this pod has " ++
        toString haveKb.toNat ++ " KB"), -1)
    else (s, 0)

/-- Whether the staged firmware can refuse unsigned updates where the policy asks for it. -/
def stagedKeepsEnforcement : Session × Int :=
  if s.policy ≠ .required then (s, 0)
  else if s.stagedInfo.isSome ∧ answers.flagsRead = false then (s.setErr "psram read failed", -1)
  else if fwInfoFlags s.stagedInfo &&& 1 ≠ 0 then (s, 0)
  else (s.setErr "image cannot enforce signatures (policy required)", -1)

/-- End a session: the whole image must have come and have the expected digest. -/
def otaEnd : Session × Int :=
  if s.state ≠ .receiving then (s.setErr "not receiving", -1)
  else if s.received < s.size then (s.setErr "incomplete image", -1)
  else
    let (hashed, rc) := s.stagedHashCheck board answers
    if rc < 0 then (hashed, -1)
    else if rc > 0 then (hashed.setErr "sha256 mismatch", -1)
    else
      let (fits, rc) :=
        if hashed.target = .firmware then hashed.stagedFitsThisFlash board answers else (hashed, 0)
      if rc ≠ 0 then (fits, -1)
      else
        let (kept, rc) :=
          if fits.target = .firmware then fits.stagedKeepsEnforcement answers else (fits, 0)
        if rc ≠ 0 then (kept, -1)
        else
          match if kept.target.isConfig then answers.invalid else none with
          | some why => (kept.setErr (if why = "" then "invalid" else clip 79 why), -1)
          | none => ({ kept with state := .verified }, 0)

/-- Check a verified image once more right before it is written. -/
def otaReverifyHeld : Session × Int :=
  if s.state ≠ .verified then (s, -1)
  else
    let (hashed, rc) := s.stagedHashCheck board answers
    if rc > 0 then (hashed.setErr "staged image changed after verify (sha256 mismatch)", -1)
    else (hashed, rc)

def otaAbort : Session :=
  { s with
    owner := .none
    orphan := false
    state := .idle
    target := .firmware
    size := 0
    received := 0
    err := "" }

def otaDataBy (who : Owner) (offset : Word) (bytes : List Byte) : Session × Int :=
  match s.busyFor who with
  | (some busy, s) => (s.refuse who busy false, -1)
  | (none, s) => s.otaData answers offset bytes

def otaEndBy (who : Owner) : Session × Int :=
  match s.busyFor who with
  | (some busy, s) => (s.refuse who busy false, -1)
  | (none, s) =>
    let (ended, rc) := s.otaEnd board answers
    ({ ended with activity := ended.clock }, rc)

def otaAbortBy (who : Owner) : Session × Int :=
  if s.mayReplace who then ((s.clearRefusal who).otaAbort, 0) else (s, -1)

def otaRefuseFor (who : Owner) (why : String) : Session := s.refuse who why true

def otaOwnerGone (who : Owner) : Session :=
  if s.active ∧ s.owner = who ∧ who.isLan then { s with orphan := true } else s

/-- Install a verified blob or configuration. -/
def otaInstallBlob : Session × Int :=
  if s.state ≠ .verified then (s.setErr "no verified image staged", -1)
  else if s.target = .firmware then (s.setErr "not a blob", -1)
  else
    match answers.failed with
    | some why =>
      let text :=
        if s.target = .tls then (if why = "" then "install failed" else clip 79 why)
        else "blob write failed"
      (s.setErr text, -1)
    | none => ({ s with state := .installed }, 0)

/-- Drop an image that no commit came for, or a session that stopped receiving. -/
def otaWatchdog (now : Word) : Session :=
  let s := { s with clock := now }
  if s.state = .verified then
    if s.verifiedMark = 0 then { s with verifiedMark := if now = 0 then 1 else now }
    else if now - s.verifiedMark < verifiedHoldMs then s
    else s.otaAbort
  else
    let s := { s with verifiedMark := 0 }
    if s.state ≠ .receiving then { s with wdMark := now }
    else if s.received ≠ s.wdSeen ∨ s.wdMark = 0 then
      { s with
        wdSeen := s.received
        wdMark := if now = 0 then 1 else now }
    else if now - s.wdMark < stageIdleMs then s
    else s.otaAbort

end Session

/-- What happens to the session, with what the hardware answers.  The calls without an owner are the
ones that skip the ownership checks. -/
inductive Call where
  | beginOwned (who : Owner) (size : Word) (sha256Hex : Option String) (target : Option Target)
      (version : Word) (sig : Option (List Byte))
  | dataBy (who : Owner) (offset : Word) (bytes : List Byte)
  | data (offset : Word) (bytes : List Byte)
  | endBy (who : Owner)
  | finish
  | busyFor (who : Owner)
  | abortBy (who : Owner)
  | abort
  | refuseFor (who : Owner) (why : String)
  | ownerGone (who : Owner)
  | watchdog (now : Word)
  | reverifyHeld
  | installBlob
  | setPolicy (policy : FwSigPolicy)
  /-- A capture or another user of the PSRAM writes over the staging area. -/
  | overwrite (staged : Nat → Byte)

/-- The session after a call, and what the call returns. -/
def Session.call (board : Board) (s : Session) (answers : Answers) : Call → Session × Int
  | .beginOwned who size hex target version sig => s.beginOwned board who size hex target version sig
  | .dataBy who offset bytes => s.otaDataBy answers who offset bytes
  | .data offset bytes => s.otaData answers offset bytes
  | .endBy who => s.otaEndBy board answers who
  | .finish => s.otaEnd board answers
  | .busyFor who => ((s.busyFor who).2, 0)
  | .abortBy who => s.otaAbortBy who
  | .abort => (s.otaAbort, 0)
  | .refuseFor who why => (s.otaRefuseFor who why, 0)
  | .ownerGone who => (s.otaOwnerGone who, 0)
  | .watchdog now => (s.otaWatchdog now, 0)
  | .reverifyHeld => s.otaReverifyHeld board answers
  | .installBlob => s.otaInstallBlob answers
  | .setPolicy policy => ({ s with policy }, 0)
  | .overwrite staged => ({ s with staged }, 0)

/-- The session after some calls. -/
def Session.run (board : Board) (s : Session) (calls : List (Answers × Call)) : Session :=
  calls.foldl (fun s entry => (s.call board entry.1 entry.2).1) s

/-- A pod with 2 MB of flash that is built for a bridge. -/
def sampleBoard : Board where
  prims := Bwp.samplePrimitives
  keys := []
  bridge := true
  flashSize := 0x200000

/-- The begin of a small unsigned image. -/
def sampleBegin (who : Owner) : Call :=
  .beginOwned who 4 (some (String.ofList (List.replicate 64 '0'))) (some .gw0) 1 none

end Ota
end BenchPod

/-!
## Whose session it is

A transport that does not own an active session is refused.  Its refusal leaves the session as it was
until the session has been idle for so long that it may be replaced.
-/

namespace BenchPod
namespace Ota

namespace Session

variable {s : Session} {who : Owner}

/-- Someone who neither owns an active session nor adopts it. -/
structure Stranger (s : Session) (who : Owner) : Prop where
  active : s.active = true
  owned : s.owner ≠ .none
  other : s.owner ≠ who
  /-- A LAN connection adopts the session of a closed LAN connection. -/
  apart : ¬ (s.orphan = true ∧ who.isLan = true ∧ s.owner.isLan = true)

/-- Nothing of the session or of the staged bytes has changed. -/
structure Undisturbed (before after : Session) : Prop where
  state : after.state = before.state
  owner : after.owner = before.owner
  target : after.target = before.target
  size : after.size = before.size
  received : after.received = before.received
  expect : after.expect = before.expect
  err : after.err = before.err
  staged : after.staged = before.staged

theorem Stranger.mayAct (stranger : s.Stranger who) : s.mayAct who = false := by
  have apart : s.mayAdopt who = false := by
    rw [mayAdopt, Bool.eq_false_iff]
    intro adopts
    rw [Bool.and_eq_true, Bool.and_eq_true] at adopts
    exact stranger.apart ⟨adopts.1.1, adopts.1.2, adopts.2⟩
  simp [Session.mayAct, stranger.active, stranger.owned, stranger.other, apart]

theorem Stranger.mayReplace (stranger : s.Stranger who) : s.mayReplace who = s.abandoned := by
  simp [Session.mayReplace, stranger.mayAct, stranger.other]

theorem active_ne (active : s.active = true) {state : OtaState} (passed : state ≠ .receiving)
    (unverified : state ≠ .verified) : s.state ≠ state := by
  rintro rfl
  simp [Session.active, passed, unverified] at active

theorem refuse_undisturbed (stranger : s.Stranger who) (why : String) (fresh : Bool) :
    s.Undisturbed (s.refuse who why fresh) ↔ s.abandoned = false := by
  have replace := stranger.mayReplace
  constructor
  · intro same
    rw [Bool.eq_false_iff]
    intro abandoned
    rw [abandoned] at replace
    have failed : (s.refuse who why fresh).state = .error := by
      rw [refuse, if_pos replace]
      rfl
    exact active_ne stranger.active (by decide) (by decide) (same.state.symm.trans failed)
  · intro live
    rw [live] at replace
    rw [refuse, if_neg (Bool.eq_false_iff.mp replace)]
    split
    · exact ⟨rfl, rfl, rfl, rfl, rfl, rfl, rfl, rfl⟩
    · exact ⟨rfl, rfl, rfl, rfl, rfl, rfl, rfl, rfl⟩

theorem Stranger.busyFor (stranger : s.Stranger who) : s.busyFor who = (some s.busyMsg, s) := by
  rw [Session.busyFor, stranger.mayAct]
  rfl

theorem Stranger.dataBy (stranger : s.Stranger who) (answers : Answers) (offset : Word)
    (bytes : List Byte) :
    s.otaDataBy answers who offset bytes = (s.refuse who s.busyMsg false, -1) := by
  rw [otaDataBy, stranger.busyFor]

theorem Stranger.endBy (stranger : s.Stranger who) (board : Board) (answers : Answers) :
    s.otaEndBy board answers who = (s.refuse who s.busyMsg false, -1) := by
  rw [otaEndBy, stranger.busyFor]

end Session

/-- A stranger's data and end are refused, and they leave the session and the staged bytes as they
were exactly while the session is not abandoned. -/
theorem stranger_refused (board : Board) (answers : Answers) (s : Session) (who : Owner)
    (stranger : s.Stranger who) (offset : Word) (bytes : List Byte) :
    ((s.otaDataBy answers who offset bytes).2 = -1 ∧
        s.Undisturbed (s.otaDataBy answers who offset bytes).1 ↔ s.abandoned = false) ∧
      ((s.otaEndBy board answers who).2 = -1 ∧
        s.Undisturbed (s.otaEndBy board answers who).1 ↔ s.abandoned = false) := by
  rw [stranger.dataBy, stranger.endBy]
  have undisturbed := Session.refuse_undisturbed stranger s.busyMsg false
  exact ⟨(and_iff_right rfl).trans undisturbed, (and_iff_right rfl).trans undisturbed⟩

/-- A LAN upload. -/
def sampleUpload (now : Word) : Session :=
  Session.run sampleBoard {} [({}, .watchdog 1000), ({}, sampleBegin (.lan 0)), ({}, .watchdog now)]

theorem stranger_refused_sample :
    ((sampleUpload 2000).otaDataBy {} .cloud 0 [1]).2 = -1 ∧
      (sampleUpload 2000).Undisturbed ((sampleUpload 2000).otaDataBy {} .cloud 0 [1]).1 := by
  have live : (sampleUpload 2000).abandoned = false := by decide +kernel
  have stranger : (sampleUpload 2000).Stranger .cloud := by refine ⟨?_, ?_, ?_, ?_⟩ <;> decide +kernel
  exact (stranger_refused sampleBoard {} (sampleUpload 2000) .cloud stranger 0 [1]).1.mpr live

/-- After 30 s without progress the cloud's stray chunk fails a LAN upload and takes it over. -/
theorem idle_upload_taken :
    (sampleUpload 31000).Stranger .cloud ∧
      ((sampleUpload 31000).otaDataBy {} .cloud 0 [1]).2 = -1 ∧
      ((sampleUpload 31000).otaDataBy {} .cloud 0 [1]).1.state = .error ∧
      ((sampleUpload 31000).otaDataBy {} .cloud 0 [1]).1.owner = .cloud ∧
      ¬ (sampleUpload 31000).Undisturbed ((sampleUpload 31000).otaDataBy {} .cloud 0 [1]).1 := by
  have failed : ((sampleUpload 31000).otaDataBy {} .cloud 0 [1]).1.state = .error := by decide +kernel
  have receiving : (sampleUpload 31000).state = .receiving := by decide +kernel
  refine ⟨?_, ?_, failed, ?_, fun same => ?_⟩
  · refine ⟨?_, ?_, ?_, ?_⟩ <;> decide +kernel
  · decide +kernel
  · decide +kernel
  · have kept := same.state
    rw [failed, receiving] at kept
    cases kept

end Ota
end BenchPod
