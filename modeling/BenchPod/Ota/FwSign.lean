import BenchPod.Bwp.BridgeOta

/-!
# The signed manifest of an image

The pod checks the manifest of an image before it stages it, and the bridge checks that of its own
image once more.  The two checks are written apart and agree.
-/

namespace BenchPod.Ota

open Bwp (Primitives ascii slice)

/-- What a check of a manifest finds. -/
inductive FwSigResult where
  /-- No manifest came with the image. -/
  | none
  | ok
  | format
  | unknownKey
  | signature
  | target
  | image
  deriving DecidableEq, Repr

/-- The word a result is reported with. -/
def FwSigResult.name : FwSigResult → String
  | .none => "none"
  | .ok => "ok"
  | .format => "format"
  | .unknownKey => "unknown-key"
  | .signature => "signature"
  | .target => "target"
  | .image => "image"

/-- Which images a pod lets in. -/
inductive FwSigPolicy where
  /-- Every image. -/
  | audit
  /-- An unsigned image, but none with a bad signature. -/
  | permissive
  | required
  deriving DecidableEq, Repr

/-- Whether a policy lets an image with this result in. -/
def fwSignAccept (result : FwSigResult) : FwSigPolicy → Bool
  | .audit => true
  | .permissive => result == .ok || result == .none
  | .required => result == .ok

/-- What a manifest says. -/
structure FwSigManifest where
  target : Byte
  flags : Byte
  size : Word
  sha256 : List Byte
  version : Word
  release : Word
  layout : Half
  minFlashKb : Half
  keyId : List Byte
  deriving DecidableEq

def manifestLen : Nat := 128

/-- The part of a manifest that is signed. -/
def signedLen : Nat := 64

/-- The fields of a manifest in their wire layout. -/
def FwSigManifest.read (sig : List Byte) : FwSigManifest where
  target := sig.getD 6 0
  flags := sig.getD 7 0
  size := Endian.rd32 (slice sig 8 4)
  sha256 := slice sig 12 32
  version := Endian.rd32 (slice sig 44 4)
  release := Endian.rd32 (slice sig 48 4)
  layout := Endian.rd16 (slice sig 52 2)
  minFlashKb := Endian.rd16 (slice sig 54 2)
  keyId := slice sig 56 8

/-- Whether a manifest has the length, the magic, the format and a target that are understood.
Signed targets are 0 to 3 and the bridge, 6. -/
def FwSigManifest.wellFormed (sig : List Byte) : Bool :=
  sig.length == manifestLen && slice sig 0 4 == ascii "BPSG" && Endian.rd16 (slice sig 4 2) == 1 &&
    !(sig.getD 6 0 > 3 && sig.getD 6 0 != 6)

/-- Check a manifest against an image. -/
def fwSignCheckKeys (prims : Primitives) (sig : Option (List Byte)) (target : Byte) (size : Word)
    (sha256 : List Byte) (keys : List (List Byte)) : FwSigResult :=
  match sig with
  | none => .none
  | some [] => .none
  | some bytes =>
    if FwSigManifest.wellFormed bytes = false then .format
    else
      let m := FwSigManifest.read bytes
      match keys.find? fun key => (prims.sha512 key).take 8 == m.keyId with
      | none => .unknownKey
      | some pub =>
        let message := ascii "benchpod-fw-sign:v1" ++ [0] ++ bytes.take signedLen
        if prims.ed25519Check (bytes.drop signedLen) pub message = false then .signature
        else if m.target ≠ target then .target
        else if m.size ≠ size ∨ m.sha256 ≠ sha256 then .image
        else .ok

/-- The manifest a check leaves behind: any that has the format, accepted or not. -/
def fwSignOut (sig : Option (List Byte)) : Option FwSigManifest :=
  match sig with
  | none => none
  | some [] => none
  | some bytes =>
    if FwSigManifest.wellFormed bytes = false then none
    else some (.read bytes)

/-- A manifest that both sides accept: the format, a known key, its signature, target and size. -/
structure Genuine (prims : Primitives) (keys : List (List Byte)) (bytes : List Byte) (target : Byte)
    (size : Word) : Prop where
  formed : Bwp.Fwsig.wellFormed bytes = true
  signer : ∃ key, keys.find? (fun key => (prims.sha512 key).take 8 == slice bytes 56 8) = some key ∧
    prims.ed25519Check (bytes.drop signedLen) key
      (ascii "benchpod-fw-sign:v1" ++ [0] ++ bytes.take signedLen) = true
  target : bytes.getD 6 0 = target
  size : Endian.rd32 (slice bytes 8 4) = size

/-- Targets whose images are signed. -/
def SignedTarget (target : Byte) : Prop := target ≤ 3 ∨ target = 6

theorem wellFormed_iff {bytes : List Byte} :
    FwSigManifest.wellFormed bytes = true ↔ Bwp.Fwsig.wellFormed bytes = true ∧ SignedTarget (bytes.getD 6 0) := by
  have targets : (!(bytes.getD 6 0 > 3 && bytes.getD 6 0 != 6)) = true ↔ SignedTarget (bytes.getD 6 0) := by
    rw [SignedTarget, Bool.not_eq_true', Bool.and_eq_false_iff, decide_eq_false_iff_not,
      bne_eq_false_iff_eq, gt_iff_lt, BitVec.not_lt]
  rw [FwSigManifest.wellFormed, Bool.and_eq_true, targets]
  rfl

section Agreement

variable {prims : Primitives} {keys : List (List Byte)} {bytes : List Byte} {target : Byte}
  {size : Word}

/-- The pod accepts exactly the genuine manifests of a signed target that carry the digest. -/
theorem fwSignCheckKeys_ok {sha256 : List Byte} :
    fwSignCheckKeys prims (some bytes) target size sha256 keys = .ok ↔
      Genuine prims keys bytes target size ∧ SignedTarget target ∧ slice bytes 12 32 = sha256 := by
  constructor
  · intro accepted
    unfold fwSignCheckKeys at accepted
    split at accepted
    · cases accepted
    · cases accepted
    · rename_i _ found_bytes _ bytes_eq
      cases bytes_eq
      split at accepted
      · cases accepted
      · rename_i well
        obtain ⟨formed, signed⟩ := wellFormed_iff.mp (Bool.not_eq_false _ ▸ well)
        simp only at accepted
        split at accepted
        · cases accepted
        · rename_i key found
          split at accepted
          · cases accepted
          · rename_i checked
            split at accepted
            · cases accepted
            · rename_i target_eq
              split at accepted
              · cases accepted
              · rename_i image_eq
                rw [not_or, not_not, not_not] at image_eq
                have target_eq : bytes.getD 6 0 = target := Decidable.not_not.mp target_eq
                exact ⟨⟨formed, ⟨key, found, Bool.not_eq_false _ ▸ checked⟩, target_eq, image_eq.1⟩,
                  target_eq ▸ signed, image_eq.2⟩
  · rintro ⟨genuine, signed, digest⟩
    obtain ⟨key, found, checked⟩ := genuine.signer
    have well : ¬ FwSigManifest.wellFormed bytes = false := by
      rw [Bool.not_eq_false, wellFormed_iff, genuine.target]
      exact ⟨genuine.formed, signed⟩
    have found : keys.find? (fun key =>
        (prims.sha512 key).take 8 == (FwSigManifest.read bytes).keyId) = some key := found
    have target_eq : (FwSigManifest.read bytes).target = target := genuine.target
    have size_eq : (FwSigManifest.read bytes).size = size := genuine.size
    have digest_eq : (FwSigManifest.read bytes).sha256 = sha256 := digest
    cases bytes with
    | nil => exact absurd rfl well
    | cons first rest =>
      simp only [fwSignCheckKeys, found, checked, target_eq, size_eq, digest_eq]
      simp [well]

theorem fwsigCheck_ok :
    Bwp.fwsigCheck prims keys (some bytes) target size = .ok () ↔
      Genuine prims keys bytes target size := by
  constructor
  · intro accepted
    simp only [Bwp.fwsigCheck] at accepted
    split at accepted
    · rename_i formed
      split at accepted
      · cases accepted
      · rename_i key found
        split at accepted
        · cases accepted
        · rename_i checked
          split at accepted
          · cases accepted
          · rename_i target_eq
            split at accepted
            · cases accepted
            · rename_i size_eq
              exact ⟨formed, ⟨key, found, Bool.not_eq_false _ ▸ checked⟩,
                Decidable.not_not.mp target_eq, Decidable.not_not.mp size_eq⟩
    · cases accepted
  · intro genuine
    obtain ⟨key, found, checked⟩ := genuine.signer
    have found : keys.find? (fun key =>
        slice (prims.sha512 key) 0 8 == (Bwp.Fwsig.read bytes).keyId) = some key := found
    have target_eq : (Bwp.Fwsig.read bytes).target = target := genuine.target
    have size_eq : (Bwp.Fwsig.read bytes).size = size := genuine.size
    rw [signedLen] at checked
    simp only [Bwp.fwsigCheck, genuine.formed, found, checked, target_eq, size_eq]
    simp

end Agreement

/-- The pod accepts an image for the bridge exactly when the bridge accepts its manifest and the
manifest carries the image's digest. -/
theorem checks_agree (prims : Primitives) (keys : List (List Byte)) (sig : Option (List Byte))
    (size : Word) (sha256 : List Byte) :
    fwSignCheckKeys prims sig Bwp.fwsigTargetBridge size sha256 keys = .ok ↔
      Bwp.fwsigCheck prims keys sig Bwp.fwsigTargetBridge size = .ok () ∧
        sig.map (fun bytes => (FwSigManifest.read bytes).sha256) = some sha256 := by
  cases sig with
  | none => exact ⟨nofun, nofun⟩
  | some bytes =>
    rw [fwSignCheckKeys_ok, fwsigCheck_ok, Option.map_some, Option.some.injEq]
    have signed : SignedTarget Bwp.fwsigTargetBridge := .inr rfl
    exact ⟨fun accepted => ⟨accepted.1, accepted.2.2⟩,
      fun accepted => ⟨accepted.1, signed, accepted.2⟩⟩

end BenchPod.Ota
