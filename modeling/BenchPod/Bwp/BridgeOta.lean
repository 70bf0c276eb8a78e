import BenchPod.Bwp.Frame

/-!
# The bridge's side of a relayed firmware update

Chunks arrive in order, are written to the update partition and hashed as they are written.  The
image becomes bootable once its hash is the one its signed manifest names.
-/

namespace BenchPod.Bwp

/-- How far a transfer has come. -/
structure OtaSeq where
  active : Bool := false
  size : Word := 0
  next : Word := 0
  lastOff : Word := 0
  lastLen : Word := 0
  deriving DecidableEq

/-- What is to be done with a chunk. -/
inductive OtaChunk where
  | write
  /-- A repeat of the last chunk: acknowledged, not written. -/
  | duplicate
  | badOffset
  | tooLarge
  | inactive
  deriving DecidableEq

namespace OtaSeq

def begin (size : Word) : OtaSeq := { active := true, size }

def check (seq : OtaSeq) (offset len : Word) : OtaChunk :=
  if seq.active = false then .inactive
  else if seq.lastLen ≠ 0 ∧ offset = seq.lastOff ∧ len = seq.lastLen then .duplicate
  else if offset ≠ seq.next then .badOffset
  else if seq.size - seq.next < len then .tooLarge
  else .write

def advance (seq : OtaSeq) (offset len : Word) : OtaSeq :=
  { seq with lastOff := offset, lastLen := len, next := offset + len }

def complete (seq : OtaSeq) : Bool := seq.active && seq.next == seq.size

end OtaSeq

/-- The bytes of an image up to the end of its description. -/
def imgDescEnd : Nat := 112

/-- The bytes of a string up to its terminator. -/
def cString (bytes : List Byte) : List Byte := bytes.takeWhile (· ≠ 0)

/-- The project an image says it is of. -/
def imageProject (image : List Byte) : Option (List Byte) :=
  if image.length < imgDescEnd ∨ image.getD 0 0 ≠ 0xe9 then none
  else if Endian.rd32 (slice image 32 4) ≠ 0xabcd5432 then none
  else some (cString (slice image 80 32))

/-- How the platform's own check of a written image ends. -/
inductive OtaFinish where
  | ok
  | validateFailed
  | failed (name : String)
  deriving DecidableEq

/-- What the bridge's flash and clock answer.  An operation that fails gives the error's name. -/
structure OtaPort where
  /-- The size of the partition the next image goes to. -/
  part : Option Word
  /-- The keys a manifest may be signed with. -/
  keys : List (List Byte)
  /-- The running application's project name. -/
  project : List Byte
  beginErr : Option String
  writeErr : Option String
  finish : OtaFinish
  setBootErr : Option String
  markValid : Bool
  now : Nat

/-- The state of the update component. -/
structure BridgeOta where
  seq : OtaSeq
  /-- The manifest of the transfer in progress. -/
  sig : Fwsig
  /-- The bytes hashed so far. -/
  hashed : List Byte
  /-- The bytes written to the update partition. -/
  written : List Byte
  /-- The update partition is the one that boots next. -/
  boots : Bool
  /-- The time of the transfer's last request. -/
  lastUs : Nat
  /-- A new image is on trial. -/
  pending : Bool
  deriving DecidableEq

/-- The state after a request of the update, its result and its message. -/
structure OtaOutcome where
  ota : BridgeOta
  result : Result
  msg : Option String := none

/-- The target number of bridge images. -/
def fwsigTargetBridge : Byte := 6

namespace BridgeOta

variable (prims : Primitives) (port : OtaPort)

def abort (ota : BridgeOta) : BridgeOta :=
  if ota.seq.active then { ota with seq := {} } else ota

/-- Drop a transfer that has been idle for a minute. -/
def poll (ota : BridgeOta) : BridgeOta :=
  if ota.seq.active = true ∧ port.now - ota.lastUs > 60 * 1000000 then ota.abort else ota

def begin (ota : BridgeOta) (size : Word) (sig : Option (List Byte)) : OtaOutcome :=
  let ota := { ota.abort with sig := fwsigOut sig ota.sig }
  match fwsigCheck prims port.keys sig fwsigTargetBridge size with
  | .error refusal =>
    { ota, result := .otaVerify
      msg := some ("signature: " ++ match sig with | some _ => refusal.name | none => "none") }
  | .ok _ =>
    match port.part with
    | none => { ota, result := .internal, msg := some "no OTA partition" }
    | some part =>
      if size < BitVec.ofNat 32 imgDescEnd ∨ part < size then
        { ota, result := .otaTooLarge, msg := some "image size out of range" }
      else
        match port.beginErr with
        | some name => { ota, result := .storage, msg := some name }
        | none =>
          { ota := { ota with
              seq := .begin size, hashed := [], written := [], lastUs := port.now }
            result := .ok }

/-- Write a chunk that is due.  The first one must describe an image of this project. -/
def write (ota : BridgeOta) (offset : Word) (data : List Byte) : OtaOutcome :=
  if offset = 0 ∧ imageProject data ≠ some port.project then
    { ota, result := .otaWrongImage, msg := some "not a benchpod-wifi-bridge image" }
  else
    match port.writeErr with
    | some name => { ota, result := .storage, msg := some name }
    | none =>
      { ota := { ota with
          written := ota.written ++ data
          hashed := ota.hashed ++ data
          seq := ota.seq.advance offset (BitVec.ofNat 32 data.length) }
        result := .ok }

def data (ota : BridgeOta) (offset : Word) (data : List Byte) : OtaOutcome :=
  if data.length = 0 ∨ otaChunkMax < data.length then { ota, result := .badRequest }
  else
    let outcome : OtaOutcome :=
      match ota.seq.check offset (BitVec.ofNat 32 data.length) with
      | .inactive => { ota, result := .otaNotStarted }
      | .duplicate => { ota, result := .ok }
      | .badOffset => { ota, result := .otaBadOffset }
      | .tooLarge => { ota, result := .otaTooLarge }
      | .write => ota.write port offset data
    if outcome.ota.seq.active then { outcome with ota := { outcome.ota with lastUs := port.now } }
    else outcome

def finish (ota : BridgeOta) : OtaOutcome :=
  if ota.seq.active = false then { ota, result := .otaNotStarted }
  else if ota.seq.complete = false then
    { ota, result := .otaBadOffset, msg := some "image incomplete" }
  else
    let ota := { ota with seq := {} }
    if prims.sha256 ota.hashed ≠ ota.sig.sha256 then
      { ota, result := .otaVerify, msg := some "image does not match its signed manifest" }
    else
      match port.finish with
      | .validateFailed =>
        { ota, result := .otaVerify, msg := some "image verification failed (hash or signature)" }
      | .failed name => { ota, result := .internal, msg := some name }
      | .ok =>
        match port.setBootErr with
        | some name => { ota, result := .storage, msg := some name }
        | none => { ota := { ota with boots := true }, result := .ok }

/-- A valid request from the pod keeps an image that is on trial. -/
def confirm (ota : BridgeOta) : BridgeOta :=
  if ota.pending = true ∧ port.markValid = true then { ota with pending := false } else ota

end BridgeOta
end BenchPod.Bwp
