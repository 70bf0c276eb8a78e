import BenchPod.Json.Get
import BenchPod.Store.PowerLoss

/-!
# The stored policies

The signature policy, the LAN policy and two switches live in one record that is written whole.  Each
setter decides from the source of its request; the signature policy has a second copy in `fw_sign.c`,
which is the one that updates are held to.
-/

namespace BenchPod.PodPolicy

open ConfigStore Endian Json

def podPolicyRecordMagic : Word := 0x4C4F5050

/-- `FW_SIG_POLICY_REQUIRED`; below it are `PERMISSIVE` and `AUDIT`. -/
def fwSigPolicyRequired : Nat := 2

/-- `POD_LAN_OFF`; below it are `LOCKED` and `OPEN`. -/
def podLanOff : Nat := 2

def podLanLocked : Nat := 1

/-- `policy_src_t`. -/
inductive PolicySrc
  | usb
  | cloud
  | lan
  deriving DecidableEq

/-- `pod_policy_rec_t`; the default is what the firmware starts from. -/
structure PodPolicyRec where
  magic : Word := podPolicyRecordMagic
  sig : Byte := 0
  lan : Byte := 0
  usbNetOff : Byte := 0
  httpsOnly : Byte := 0
  reserved : Vector Byte 8 := Vector.replicate 8 0

namespace PodPolicyRec

variable (r : PodPolicyRec)

/-- `sizeof(pod_policy_rec_t)`. -/
def size : Nat := 16

/-- The record in memory. -/
def encode : List Byte := le32 r.magic ++ ([r.sig, r.lan, r.usbNetOff, r.httpsOnly] ++ r.reserved.toList)

/-- A record read from memory. -/
def decode (bytes : List Byte) : PodPolicyRec where
  magic := rd32 (bytes.take 4)
  sig := bytes.getD 4 0
  lan := bytes.getD 5 0
  usbNetOff := bytes.getD 6 0
  httpsOnly := bytes.getD 7 0
  reserved := Vector.ofFn fun i => bytes.getD (8 + i) 0

/-- Values that this firmware does not know become the strictest it knows, or locked. -/
def known : PodPolicyRec :=
  { r with
    sig := if fwSigPolicyRequired < r.sig.toNat then BitVec.ofNat 8 fwSigPolicyRequired else r.sig
    lan := if podLanOff < r.lan.toNat then BitVec.ofNat 8 podLanLocked else r.lan
    usbNetOff := if 1 < r.usbNetOff.toNat then 1 else r.usbNetOff
    httpsOnly := if 1 < r.httpsOnly.toNat then 1 else r.httpsOnly }

end PodPolicyRec

def kStore : AbStore where
  slotOff i := if i = 0 then 0x1E6000 else 0x1E4000
  magic := podPolicyRecordMagic
  version := 1
  legacyOff := 0
  legacyMagic := 0
  maxLen := 0
  slots_aligned := by decide
  slots_distinct := by decide
  legacy_aligned := no_legacy_aligned
  legacy_distinct := by decide
  legacyMagic_written := no_legacy_written
  maxLen_fits := no_limit_fits

/-- The flash, the policy in RAM and the one in the signature check. -/
structure PolicyPod where
  flash : Flash
  /-- `s_rec`. -/
  rec_ : PodPolicyRec := {}
  /-- `s_policy` of `fw_sign.c`. -/
  fwSign : Byte := 0

def podPolicyLoad (pod : PolicyPod) : PolicyPod :=
  let loaded :=
    match kStore.load pod.flash PodPolicyRec.size with
    | none => pod.rec_
    | some bytes =>
      let r := PodPolicyRec.decode bytes
      if r.magic = podPolicyRecordMagic then r.known else pod.rec_
  { pod with rec_ := loaded, fwSign := loaded.sig }

/-- A reset loses the RAM, and the boot loads the policy. -/
def reboot (flash : Flash) : PolicyPod := podPolicyLoad { flash }

def fwSignPolicyName (p : Nat) : List Byte :=
  if p = 0 then cstr "audit" else if p = 1 then cstr "permissive" else if p = 2 then cstr "required" else cstr "?"

/-- What a setter decides before it saves. -/
inductive Decision
  | refuse (why : List Byte)
  | same
  | save (r : PodPolicyRec)

/-- `pod_policy_set_sig` up to its save. -/
def podPolicySetSig (r : PodPolicyRec) (p : Nat) (src : PolicySrc) : Decision :=
  if fwSigPolicyRequired < p then .refuse (cstr "sig_policy: unknown policy")
  else if src = .lan then .refuse (cstr "sig_policy: change it from the cloud or the USB console")
  else if src = .cloud ∧ p < r.sig.toNat then
    .refuse (cstr "sig_policy: only the USB console can loosen the policy (now " ++ fwSignPolicyName r.sig.toNat ++
      cstr ")")
  else if p = r.sig.toNat then .same
  else .save { r with sig := BitVec.ofNat 8 p }

/-- `pod_policy_set_lan` up to its save. -/
def podPolicySetLan (r : PodPolicyRec) (p : Nat) (src : PolicySrc) : Decision :=
  if podLanOff < p then .refuse (cstr "lan_policy: unknown policy")
  else if src = .lan then .refuse (cstr "lan_policy: change it from the cloud or the USB console")
  else if p = r.lan.toNat then .same
  else .save { r with lan := BitVec.ofNat 8 p }

/-- `pod_policy_set_usb_net` up to its save. -/
def podPolicySetUsbNet (r : PodPolicyRec) (on : Bool) (src : PolicySrc) (usbLink : Bool) : Decision :=
  if src = .cloud ∨ (src = .lan ∧ usbLink = false) then
    .refuse (cstr "usb_network: change it on the device (the USB console, or over the USB link)")
  else if on = decide (r.usbNetOff = 0) then .same
  else .save { r with usbNetOff := if on then 0 else 1 }

def podPolicyLanTlsGate (src : PolicySrc) (usbLink tlsLink : Bool) : Option (List Byte) :=
  if src ≠ .lan ∨ usbLink ∨ tlsLink then none
  else some (cstr "lan_tls: change it over TLS (port 8443), over USB or from the cloud")

/-- `pod_policy_set_https_only` up to its save. -/
def podPolicySetHttpsOnly (r : PodPolicyRec) (on : Bool) (src : PolicySrc) (usbLink tlsLink : Bool) : Decision :=
  match if on then none else podPolicyLanTlsGate src usbLink tlsLink with
  | some why => .refuse why
  | none =>
    if on = decide (r.httpsOnly ≠ 0) then .same
    else .save { r with httpsOnly := if on then 1 else 0 }

/-- A call of a setter. -/
inductive PolicyCall
  | setSig (p : Nat) (src : PolicySrc)
  | setLan (p : Nat) (src : PolicySrc)
  | setUsbNet (on : Bool) (src : PolicySrc) (usbLink : Bool)
  | setHttpsOnly (on : Bool) (src : PolicySrc) (usbLink tlsLink : Bool)
  deriving DecidableEq

namespace PolicyCall

/-- What the setter decides. -/
def decide_ (r : PodPolicyRec) : PolicyCall → Decision
  | .setSig p src => podPolicySetSig r p src
  | .setLan p src => podPolicySetLan r p src
  | .setUsbNet on src usbLink => podPolicySetUsbNet r on src usbLink
  | .setHttpsOnly on src usbLink tlsLink => podPolicySetHttpsOnly r on src usbLink tlsLink

/-- Only the signature policy is told to the signature check, after it is saved. -/
def enforced (fwSign : Byte) : PolicyCall → Byte
  | .setSig p _ => BitVec.ofNat 8 p
  | _ => fwSign

/-- A call from the LAN that is not on the USB link. -/
def fromLan : PolicyCall → Bool
  | .setSig _ src | .setLan _ src => src == .lan
  | .setUsbNet _ src usbLink | .setHttpsOnly _ src usbLink _ => src == .lan && !usbLink

/-- A call over TLS. -/
def overTls : PolicyCall → Bool
  | .setHttpsOnly _ _ _ tlsLink => tlsLink
  | _ => false

end PolicyCall

/-- What happens to the policies: a call with its error, a reset between two calls, or one in a call. -/
inductive PolicyEvent
  | call (call : PolicyCall) (why : Option (List Byte))
  | reboot
  | lost (call : PolicyCall)

/-- The effect of an event.  A save may fail, and a reset may cut it. -/
def PolicyStep (before : PolicyPod) (event : PolicyEvent) (after : PolicyPod) : Prop :=
  match event with
  | .reboot => after = reboot before.flash
  | .call call why =>
    match call.decide_ before.rec_ with
    | .refuse text => why = some text ∧ after = before
    | .same => why = none ∧ after = before
    | .save r =>
      ∃ rc flash, Exec kStore.device (kStore.save r.encode) before.flash (.done rc) flash ∧
        if rc ≠ 0 then why = some (cstr "could not save the policy") ∧ after = { before with flash }
        else why = none ∧ after = { flash, rec_ := r, fwSign := call.enforced before.fwSign }
  | .lost call =>
    match call.decide_ before.rec_ with
    | .refuse _ | .same => after = reboot before.flash
    | .save r => ∃ flash, Exec kStore.device (kStore.save r.encode) before.flash .cut flash ∧ after = reboot flash

namespace PodPolicyRec

variable {r : PodPolicyRec}

@[simp]
theorem encode_length : r.encode.length = size := by simp [encode, size]

theorem decode_encode : decode r.encode = r := by
  have reserved_eq : (Vector.ofFn fun i : Fin 8 => r.encode.getD (8 + i) 0) = r.reserved := by
    apply Vector.ext
    intro i within
    have at_eq : r.encode[8 + i]? = r.reserved.toList[i]? := by
      rw [encode, List.getElem?_append_right (by rw [le32_length]; omega),
        List.getElem?_append_right (by rw [le32_length]; simp only [List.length_cons, List.length_nil]; omega)]
      congr 1
      simp only [le32_length, List.length_cons, List.length_nil]
      omega
    simp only [Vector.getElem_ofFn, List.getD_eq_getElem?_getD, at_eq]
    simp [within]
  have magic_eq : r.encode.take 4 = le32 r.magic := by exact List.take_left' (le32_length _)
  have field (i : Nat) (low : i < 4) : r.encode.getD (4 + i) 0 = [r.sig, r.lan, r.usbNetOff, r.httpsOnly].getD i 0 := by
    rw [encode, List.getD_eq_getElem?_getD, List.getElem?_append_right (by rw [le32_length]; omega), le32_length,
      Nat.add_sub_cancel_left, List.getElem?_append_left (by simpa using low), ← List.getD_eq_getElem?_getD]
  have sig_eq := field 0 (by decide)
  have lan_eq := field 1 (by decide)
  have usbNetOff_eq := field 2 (by decide)
  have httpsOnly_eq := field 3 (by decide)
  rw [decode, magic_eq, rd32_le32, reserved_eq]
  cases r
  simp_all

/-- A record with values that this firmware knows. -/
structure Valid (r : PodPolicyRec) : Prop where
  magic_eq : r.magic = podPolicyRecordMagic
  sig_le : r.sig.toNat ≤ fwSigPolicyRequired
  lan_le : r.lan.toNat ≤ podLanOff
  usbNetOff_le : r.usbNetOff.toNat ≤ 1
  httpsOnly_le : r.httpsOnly.toNat ≤ 1

theorem Valid.known_eq (valid : r.Valid) : r.known = r := by
  simp only [known, if_neg (Nat.not_lt.mpr valid.sig_le), if_neg (Nat.not_lt.mpr valid.lan_le),
    if_neg (Nat.not_lt.mpr valid.usbNetOff_le), if_neg (Nat.not_lt.mpr valid.httpsOnly_le)]

theorem known_valid (magic_eq : r.magic = podPolicyRecordMagic) : r.known.Valid where
  magic_eq := magic_eq
  sig_le := by
    simp only [known]
    split
    · decide
    · omega
  lan_le := by
    simp only [known]
    split
    · decide
    · omega
  usbNetOff_le := by
    simp only [known]
    split
    · decide
    · omega
  httpsOnly_le := by
    simp only [known]
    split
    · decide
    · omega

end PodPolicyRec

theorem default_valid : ({} : PodPolicyRec).Valid := ⟨rfl, by decide, by decide, by decide, by decide⟩

theorem reboot_valid (flash : Flash) : (reboot flash).rec_.Valid := by
  simp only [reboot, podPolicyLoad]
  split
  · exact default_valid
  · split
    · rename_i magic_eq
      exact PodPolicyRec.known_valid magic_eq
    · exact default_valid

theorem reboot_congr {flash flash' : Flash}
    (load_eq : kStore.load flash' PodPolicyRec.size = kStore.load flash PodPolicyRec.size) :
    (reboot flash').rec_ = (reboot flash).rec_ := by
  simp only [reboot, podPolicyLoad, load_eq]

theorem reboot_spoiled {flash flash' : Flash}
    (spoiled : AbStore.TargetSpoiled (kStore.view flash) (kStore.view flash')) :
    (reboot flash').rec_ = (reboot flash).rec_ := by
  apply reboot_congr
  rw [kStore.load_current flash' _ (.inl (by decide)), kStore.load_current flash _ (.inl (by decide)),
    spoiled.legacy_eq, View.current, spoiled.newest_eq, ← View.current]

theorem reboot_current {flash : Flash} {r : PodPolicyRec} (valid : r.Valid)
    (current_eq : (kStore.view flash).current = some (kStore.version.setWidth 32, r.encode)) :
    (reboot flash).rec_ = r := by
  have loaded := (AbStore.loads_of_current current_eq (by rw [PodPolicyRec.encode_length]; decide)).1
  rw [PodPolicyRec.encode_length] at loaded
  simp only [reboot, podPolicyLoad, loaded, PodPolicyRec.decode_encode, if_pos valid.magic_eq, valid.known_eq]

theorem save_done_reboot {flash flash' : Flash} {r : PodPolicyRec} {rc : Int} (valid : r.Valid)
    (execution : Exec kStore.device (kStore.save r.encode) flash (.done rc) flash') :
    (reboot flash').rec_ = if rc = 0 then r else (reboot flash).rec_ := by
  rcases AbStore.save_done execution with ⟨rfl, spoiled⟩ | ⟨rfl, admits, ⟨rfl, same⟩ | view_eq⟩
  · exact reboot_spoiled spoiled
  · exact reboot_current valid (AbStore.unchanged_current same)
  · exact reboot_current valid (view_eq ▸ AbStore.put_current _ admits)

theorem save_cut_reboot {flash flash' : Flash} {r : PodPolicyRec} (valid : r.Valid)
    (execution : Exec kStore.device (kStore.save r.encode) flash .cut flash') :
    (reboot flash').rec_ = (reboot flash).rec_ ∨ (reboot flash').rec_ = r := by
  rcases AbStore.save_cut execution with spoiled | ⟨admits, view_eq⟩
  · exact .inl (reboot_spoiled spoiled)
  · exact .inr (reboot_current valid (view_eq ▸ AbStore.put_current _ admits))

/-- What a setter may save over a record. -/
structure Allowed (call : PolicyCall) (r r' : PodPolicyRec) : Prop where
  valid : r'.Valid
  enforced_eq : call.enforced r.sig = r'.sig
  loosened : r'.sig.toNat < r.sig.toNat → ∃ p, call = .setSig p .usb
  lan : call.fromLan → r'.sig = r.sig ∧ r'.lan = r.lan ∧ (r.httpsOnly ≠ 0 → r'.httpsOnly = 0 → call.overTls)

variable {r r' : PodPolicyRec}

theorem podPolicySetSig_allowed {p : Nat} {src : PolicySrc} (valid : r.Valid)
    (decided : podPolicySetSig r p src = .save r') : Allowed (.setSig p src) r r' := by
  simp only [podPolicySetSig] at decided
  split at decided
  · cases decided
  rename_i known
  split at decided
  · cases decided
  rename_i from_lan
  split at decided
  · cases decided
  rename_i tightens
  split at decided
  · cases decided
  obtain rfl := Decision.save.inj decided
  have sig_eq : (BitVec.ofNat 8 p).toNat = p := by
    simp only [fwSigPolicyRequired] at known
    rw [BitVec.toNat_ofNat, Nat.mod_eq_of_lt (by omega)]
  constructor
  · exact { valid with sig_le := by rw [sig_eq]; omega }
  · rfl
  · intro loosened
    rw [sig_eq] at loosened
    cases src with
    | usb => exact ⟨p, rfl⟩
    | cloud => exact absurd ⟨rfl, loosened⟩ tightens
    | lan => exact absurd rfl from_lan
  · intro lan
    exact absurd (by simpa [PolicyCall.fromLan] using lan) from_lan

theorem podPolicySetLan_allowed {p : Nat} {src : PolicySrc} (valid : r.Valid)
    (decided : podPolicySetLan r p src = .save r') : Allowed (.setLan p src) r r' := by
  simp only [podPolicySetLan] at decided
  split at decided
  · cases decided
  rename_i known
  split at decided
  · cases decided
  rename_i from_lan
  split at decided
  · cases decided
  obtain rfl := Decision.save.inj decided
  have lan_eq : (BitVec.ofNat 8 p).toNat = p := by
    simp only [podLanOff] at known
    rw [BitVec.toNat_ofNat, Nat.mod_eq_of_lt (by omega)]
  constructor
  · exact { valid with lan_le := by rw [lan_eq]; omega }
  · rfl
  · intro loosened
    exact absurd loosened (Nat.lt_irrefl _)
  · intro lan
    exact absurd (by simpa [PolicyCall.fromLan] using lan) from_lan

theorem podPolicySetUsbNet_allowed {on usbLink : Bool} {src : PolicySrc} (valid : r.Valid)
    (decided : podPolicySetUsbNet r on src usbLink = .save r') : Allowed (.setUsbNet on src usbLink) r r' := by
  simp only [podPolicySetUsbNet] at decided
  split at decided
  · cases decided
  split at decided
  · cases decided
  obtain rfl := Decision.save.inj decided
  constructor
  · exact { valid with usbNetOff_le := by cases on <;> simp }
  · rfl
  · intro loosened
    exact absurd loosened (Nat.lt_irrefl _)
  · intro _
    exact ⟨rfl, rfl, fun kept switched => absurd switched kept⟩

theorem podPolicySetHttpsOnly_allowed {on usbLink tlsLink : Bool} {src : PolicySrc} (valid : r.Valid)
    (decided : podPolicySetHttpsOnly r on src usbLink tlsLink = .save r') :
    Allowed (.setHttpsOnly on src usbLink tlsLink) r r' := by
  simp only [podPolicySetHttpsOnly] at decided
  split at decided
  · cases decided
  rename_i gate
  split at decided
  · cases decided
  obtain rfl := Decision.save.inj decided
  constructor
  · exact { valid with httpsOnly_le := by cases on <;> simp }
  · rfl
  · intro loosened
    exact absurd loosened (Nat.lt_irrefl _)
  · intro lan
    refine ⟨rfl, rfl, fun _ switched => ?_⟩
    cases on with
    | true => exact absurd switched (by simp)
    | false =>
      -- The gate lets a call from the LAN that is off the USB link through only over TLS.
      obtain ⟨rfl, rfl⟩ : src = .lan ∧ usbLink = false := by simpa [PolicyCall.fromLan] using lan
      simpa [podPolicyLanTlsGate, PolicyCall.overTls] using gate

theorem decide_allowed {call : PolicyCall} (valid : r.Valid) (decided : call.decide_ r = .save r') :
    Allowed call r r' := by
  cases call with
  | setSig p src => exact podPolicySetSig_allowed valid decided
  | setLan p src => exact podPolicySetLan_allowed valid decided
  | setUsbNet on src usbLink => exact podPolicySetUsbNet_allowed valid decided
  | setHttpsOnly on src usbLink tlsLink => exact podPolicySetHttpsOnly_allowed valid decided

/-- The policy in RAM is valid, enforced and what the next boot loads. -/
structure Agrees (pod : PolicyPod) : Prop where
  valid : pod.rec_.Valid
  enforced_eq : pod.fwSign = pod.rec_.sig
  stored_eq : (reboot pod.flash).rec_ = pod.rec_

theorem reboot_agrees (flash : Flash) : Agrees (reboot flash) := ⟨reboot_valid flash, rfl, rfl⟩

/-- The call of an event, whether it returned or not. -/
def PolicyEvent.request : PolicyEvent → Option PolicyCall
  | .call c _ | .lost c => some c
  | .reboot => none

/-- The error of an event. -/
def PolicyEvent.error : PolicyEvent → Option (List Byte)
  | .call _ why => why
  | .reboot | .lost _ => none

/-- An event leaves the policy as it was, or it is a call without an error that saved a record. -/
theorem PolicyStep.agrees {pod after : PolicyPod} {event : PolicyEvent} (agrees : Agrees pod)
    (step : PolicyStep pod event after) :
    Agrees after ∧ (after.rec_ = pod.rec_ ∨
      event.error = none ∧ ∃ call, event.request = some call ∧ Allowed call pod.rec_ after.rec_) := by
  have rebooted {flash : Flash} (same : (reboot flash).rec_ = (reboot pod.flash).rec_) :
      (reboot flash).rec_ = pod.rec_ := same.trans agrees.stored_eq
  cases event with
  | reboot =>
    obtain rfl := step
    exact ⟨reboot_agrees _, .inl agrees.stored_eq⟩
  | call call why =>
    simp only [PolicyStep] at step
    split at step
    · obtain ⟨-, rfl⟩ := step
      exact ⟨agrees, .inl rfl⟩
    · obtain ⟨-, rfl⟩ := step
      exact ⟨agrees, .inl rfl⟩
    · rename_i r decided
      have allowed := decide_allowed agrees.valid decided
      obtain ⟨rc, flash, execution, outcome⟩ := step
      have stored := save_done_reboot allowed.valid execution
      split at outcome
      · rename_i failed
        obtain ⟨-, rfl⟩ := outcome
        rw [if_neg failed] at stored
        exact ⟨⟨agrees.valid, agrees.enforced_eq, rebooted stored⟩, .inl rfl⟩
      · rename_i succeeded
        obtain ⟨rfl, rfl⟩ := outcome
        rw [if_pos (not_not.mp succeeded)] at stored
        refine ⟨⟨allowed.valid, ?_, stored⟩, .inr ⟨rfl, call, rfl, allowed⟩⟩
        rw [agrees.enforced_eq]
        exact allowed.enforced_eq
  | lost call =>
    simp only [PolicyStep] at step
    split at step
    · obtain rfl := step
      exact ⟨reboot_agrees _, .inl agrees.stored_eq⟩
    · obtain rfl := step
      exact ⟨reboot_agrees _, .inl agrees.stored_eq⟩
    · rename_i r decided
      have allowed := decide_allowed agrees.valid decided
      obtain ⟨flash, execution, rfl⟩ := step
      refine ⟨reboot_agrees _, ?_⟩
      rcases save_cut_reboot allowed.valid execution with kept | landed
      · exact .inl (rebooted kept)
      · exact .inr ⟨rfl, call, rfl, landed.symm ▸ allowed⟩

theorem PolicyStep.run_agrees {flash : Flash} {events : List PolicyEvent} {pod : PolicyPod}
    (run : Run PolicyStep (reboot flash) events pod) : Agrees pod :=
  run.invariant (fun _ => True) Agrees (fun _ _ => trivial)
    (fun _ agrees step => (PolicyStep.agrees agrees step).1) (reboot_agrees flash)

/-- Only the USB console loosens the signature policy, the LAN changes neither policy and switches
HTTPS-only off only over TLS, and a call with an error changes nothing, not even after a reset. -/
theorem loosens_from_usb {flash : Flash} {events : List PolicyEvent} {pod after : PolicyPod} {event : PolicyEvent}
    (run : Run PolicyStep (reboot flash) events pod) (step : PolicyStep pod event after) :
    (pod.fwSign = pod.rec_.sig ∧ after.fwSign = after.rec_.sig) ∧
      (after.rec_.sig.toNat < pod.rec_.sig.toNat → ∃ p, event.request = some (.setSig p .usb)) ∧
      (∀ call, event.request = some call → call.fromLan →
        after.rec_.sig = pod.rec_.sig ∧ after.rec_.lan = pod.rec_.lan ∧
          (pod.rec_.httpsOnly ≠ 0 → after.rec_.httpsOnly = 0 → call.overTls)) ∧
      (∀ call why, event = .call call (some why) →
        after.rec_ = pod.rec_ ∧ after.fwSign = pod.fwSign ∧ (reboot after.flash).rec_ = (reboot pod.flash).rec_) := by
  have agrees := PolicyStep.run_agrees run
  obtain ⟨agrees', changed⟩ := PolicyStep.agrees agrees step
  refine ⟨⟨agrees.enforced_eq, agrees'.enforced_eq⟩, ?_, ?_, ?_⟩
  · intro loosened
    rcases changed with kept | ⟨-, call, request_eq, allowed⟩
    · exact absurd loosened (kept ▸ Nat.lt_irrefl _)
    · obtain ⟨p, rfl⟩ := allowed.loosened loosened
      exact ⟨p, request_eq⟩
  · intro call request_eq from_lan
    rcases changed with kept | ⟨-, other, other_eq, allowed⟩
    · rw [kept]
      exact ⟨rfl, rfl, fun on off => absurd off on⟩
    · obtain rfl := Option.some.inj (other_eq.symm.trans request_eq)
      exact allowed.lan from_lan
  · rintro call why rfl
    rcases changed with kept | ⟨error_eq, -⟩
    · rw [agrees'.enforced_eq, agrees.enforced_eq, agrees'.stored_eq, agrees.stored_eq, kept]
      exact ⟨rfl, rfl, rfl⟩
    · cases error_eq

/-- On a blank flash the cloud demands signatures, and the USB console takes that back. -/
theorem loosens_from_usb_blank :
    ∃ pod, Run PolicyStep (reboot Flash.erased) [.call (.setSig 2 .cloud) none] pod ∧
      ∃ after, PolicyStep pod (.call (.setSig 0 .usb) none) after ∧
        pod.fwSign = 2 ∧ after.fwSign = 0 ∧ after.rec_.sig = 0 := by
  have blank : (kStore.view Flash.erased).newest = none :=
    View.newest_eq_none.mpr fun _ => AbStore.recordAt_blank (Flash.erased_blank _ _)
  have empty : kStore.load Flash.erased PodPolicyRec.size = none := by
    rw [kStore.load_current _ _ (.inl (by decide)), View.current, blank]
    rfl
  have booted : (reboot Flash.erased).rec_ = {} := by simp only [reboot, podPolicyLoad, empty]
  have first : (PolicyCall.setSig 2 .cloud).decide_ (reboot Flash.erased).rec_ = .save { sig := 2 } := by
    rw [booted]
    rfl
  obtain ⟨flash, saved⟩ := kStore.save_exec (reboot Flash.erased).flash
    (show kStore.Admits ({ sig := 2 } : PodPolicyRec).encode by decide)
  have step : PolicyStep (reboot Flash.erased) (.call (.setSig 2 .cloud) none) ⟨flash, { sig := 2 }, 2⟩ := by
    simp only [PolicyStep, first]
    exact ⟨0, flash, saved, by simp [PolicyCall.enforced]⟩
  obtain ⟨flash', saved'⟩ := kStore.save_exec flash (show kStore.Admits ({} : PodPolicyRec).encode by decide)
  have step' : PolicyStep ⟨flash, { sig := 2 }, 2⟩ (.call (.setSig 0 .usb) none) ⟨flash', {}, 0⟩ :=
    ⟨0, flash', saved', rfl, rfl⟩
  have agree := (loosens_from_usb (.cons step .nil) step').1
  exact ⟨_, .cons step .nil, _, step', agree.1, agree.2, rfl⟩

end BenchPod.PodPolicy
