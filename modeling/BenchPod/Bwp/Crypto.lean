import BenchPod.Library.Word

/-!
# Cryptography of the bridge protocol

HMAC, the pairing key, the passphrase seal and the signed image manifest over the primitives of
Monocypher and SHA-256, which stay parameters.
-/

namespace BenchPod.Bwp

/-- The primitives the protocol is built from, with the lengths of their outputs. -/
structure Primitives where
  sha256 : List Byte → List Byte
  sha512 : List Byte → List Byte
  /-- The shared secret of a secret and a public key. -/
  x25519 : List Byte → List Byte → List Byte
  x25519Public : List Byte → List Byte
  /-- Output length, key and message. -/
  blake2bKeyed : Nat → List Byte → List Byte → List Byte
  /-- Text, key and nonce. -/
  chacha20X : List Byte → List Byte → List Byte → List Byte
  /-- Signature, public key and message. -/
  ed25519Check : List Byte → List Byte → List Byte → Bool
  sha256_length (data : List Byte) : (sha256 data).length = 32

/-- The bytes of a string of ASCII characters. -/
def ascii (text : String) : List Byte := text.toList.map fun char => BitVec.ofNat 8 char.toNat

/-- A run of bytes of a buffer. -/
def slice (bytes : List Byte) (start count : Nat) : List Byte := (bytes.drop start).take count

/-- A run of zero bytes. -/
def zeros (count : Nat) : List Byte := List.replicate count 0

@[simp]
theorem zeros_length (count : Nat) : (zeros count).length = count := List.length_replicate

theorem slice_append {front middle back : List Byte} {start count : Nat}
    (start_eq : front.length = start) (count_eq : middle.length = count) :
    slice (front ++ (middle ++ back)) start count = middle := by
  subst start_eq count_eq
  rw [slice, List.drop_left, List.take_left]

namespace Primitives

variable (prims : Primitives)

/-- HMAC over SHA-256. -/
def hmacSha256 (key data : List Byte) : List Byte :=
  let short := if key.length > 64 then prims.sha256 key else key
  let block := short ++ zeros (64 - short.length)
  let inner := prims.sha256 (block.map (· ^^^ 0x36) ++ data)
  prims.sha256 (block.map (· ^^^ 0x5c) ++ inner)

/-- The truncated MAC of a frame under a key and a boot's nonce. -/
def authMac (key nonce covered : List Byte) : List Byte := (prims.hmacSha256 key (nonce ++ covered)).take 16

@[simp]
theorem authMac_length (key nonce covered : List Byte) : (prims.authMac key nonce covered).length = 16 := by
  rw [authMac, hmacSha256, List.length_take, prims.sha256_length]
  rfl

/-- The pairing key of a secret and the other side's public key.  A low-order public key is
refused. -/
def pairKey (secret peer podPub bridgePub : List Byte) : Option (List Byte) :=
  let shared := prims.x25519 secret peer
  if shared = zeros 32 then none
  else some (prims.blake2bKeyed 32 shared (ascii "BWP pairing v1" ++ podPub ++ bridgePub))

/-- The key a passphrase is sealed under. -/
def passKey (key : List Byte) : List Byte := prims.blake2bKeyed 32 key (ascii "BWP passphrase v1")

/-- Open a sealed passphrase. -/
def openPassphrase (key sealed : List Byte) : Option (List Byte) :=
  if sealed.length ≠ 24 + 65 then none
  else
    let block := prims.chacha20X (sealed.drop 24) (prims.passKey key) (sealed.take 24)
    let count := (block.headD 0).toNat
    if count > 64 then none else some (slice block 1 count)

end Primitives

/-- Primitives that keep the lengths and let a MAC depend on its key. -/
def samplePrimitives : Primitives where
  sha256 data := (data ++ zeros 32).take 32
  sha512 data := (data ++ zeros 64).take 64
  x25519 _ peer := peer
  x25519Public secret := secret
  blake2bKeyed count key _ := (key ++ zeros count).take count
  chacha20X text _ _ := text
  ed25519Check _ _ _ := true
  sha256_length data := by simp

/-- What a manifest says about an image. -/
structure Fwsig where
  target : Byte
  size : Word
  sha256 : List Byte
  version : Word
  release : Word
  keyId : List Byte
  deriving DecidableEq

/-- Why a manifest is refused. -/
inductive FwsigError where
  | format
  | unknownKey
  | signature
  | target
  | image
  deriving DecidableEq, Repr

/-- The word the refusal is reported with. -/
def FwsigError.name : FwsigError → String
  | .format => "format"
  | .unknownKey => "unknown-key"
  | .signature => "signature"
  | .target => "target"
  | .image => "image"

/-- The fields of a manifest in their wire layout. -/
def Fwsig.read (sig : List Byte) : Fwsig where
  target := sig.getD 6 0
  size := Endian.rd32 (slice sig 8 4)
  sha256 := slice sig 12 32
  version := Endian.rd32 (slice sig 44 4)
  release := Endian.rd32 (slice sig 48 4)
  keyId := slice sig 56 8

/-- Whether a manifest has the length, the magic and the format that are understood. -/
def Fwsig.wellFormed (sig : List Byte) : Bool :=
  sig.length == 128 && slice sig 0 4 == ascii "BPSG" && Endian.rd16 (slice sig 4 2) == 1

/-- The manifest a check leaves behind: any well formed one, accepted or not. -/
def fwsigOut (sig : Option (List Byte)) (previous : Fwsig) : Fwsig :=
  match sig with
  | some bytes => if Fwsig.wellFormed bytes then .read bytes else previous
  | none => previous

/-- Check a manifest's format, key, signature, target and size. -/
def fwsigCheck (prims : Primitives) (keys : List (List Byte)) (sig : Option (List Byte))
    (target : Byte) (size : Word) : Except FwsigError Unit :=
  match sig with
  | none => .error .format
  | some bytes =>
    if Fwsig.wellFormed bytes then
      let manifest := Fwsig.read bytes
      match keys.find? fun key => slice (prims.sha512 key) 0 8 == manifest.keyId with
      | none => .error .unknownKey
      | some key =>
        let message := ascii "benchpod-fw-sign:v1" ++ [0] ++ bytes.take 64
        if prims.ed25519Check (bytes.drop 64) key message = false then .error .signature
        else if manifest.target ≠ target then .error .target
        else if manifest.size ≠ size then .error .image
        else .ok ()
    else .error .format

end BenchPod.Bwp
