import BenchPod.Bwp.Frame

/-!
# Whose requests the bridge accepts

An unpaired bridge executes STATUS, SCAN and PAIR from anybody.  A paired one executes what is
signed with its key, its boot's nonce and a counter above every counter it accepted before.
-/

namespace BenchPod.Bwp

/-- The bridge's side of a pairing. -/
structure Pairing where
  paired : Bool
  key : List Byte
  /-- A fresh random value every boot. -/
  nonce : List Byte
  /-- The highest counter accepted with this key and nonce. -/
  lastCounter : Word
  deriving DecidableEq

/-- What is to be done with a request. -/
inductive PairVerdict where
  | accept
  /-- A PAIR to accept, with the pod's public key. -/
  | storeKey (newKey : List Byte)
  | notPaired
  | alreadyPaired
  | authMissing
  | authBad
  | replay
  | badKey
  deriving DecidableEq

/-- The result a verdict is answered with. -/
def PairVerdict.result : PairVerdict → Result
  | .accept | .storeKey _ => .ok
  | .notPaired => .notPaired
  | .alreadyPaired => .alreadyPaired
  | .badKey => .badRequest
  | .authMissing | .authBad | .replay => .auth

/-- The text a refusal is answered with. -/
def PairVerdict.why : PairVerdict → String
  | .notPaired => "not paired: send PAIR first"
  | .alreadyPaired => "paired with another pod: press PAIR on the bridge"
  | .authMissing => "AUTH required"
  | .authBad => "AUTH wrong (key or nonce)"
  | .replay => "COUNTER not increasing"
  | .badKey => "KEY must be 32 bytes"
  | .accept | .storeKey _ => ""

/-- A verdict, the pairing after it, and the counter of a request that was signed. -/
structure Checked where
  pairing : Pairing
  verdict : PairVerdict
  authed : Option Word := none

namespace Pairing

def setKey (pairing : Pairing) (key : List Byte) : Pairing :=
  { pairing with key, paired := true, lastCounter := 0 }

/-- The pairing a boot starts with, from its nonce and the stored key. -/
def init (nonce : List Byte) (key : Option (List Byte)) : Pairing :=
  let fresh := { paired := false, key := zeros 32, nonce, lastCounter := 0 }
  match key with
  | some key => setKey fresh key
  | none => fresh

def forget (pairing : Pairing) : Pairing := { pairing with key := zeros 32, paired := false }

/-- What an admitted request asks for: a PAIR must bring a public key. -/
def asksFor (m : Msg) : PairVerdict :=
  if m.type = MsgType.pair then
    match getBytes m.body Tag.pubkey 32 with
    | some newKey => .storeKey newKey
    | none => .badKey
  else .accept

/-- Decide on one parsed request. -/
def check (prims : Primitives) (pairing : Pairing) (frame : List Byte) (m : Msg) : Checked :=
  if pairing.paired then
    match verify prims frame m pairing.key pairing.nonce with
    | .missing =>
      { pairing, verdict := if m.type = MsgType.pair then .alreadyPaired else .authMissing }
    | .bad => { pairing, verdict := if m.type = MsgType.pair then .alreadyPaired else .authBad }
    | .ok counter =>
      if counter ≤ pairing.lastCounter then { pairing, verdict := .replay }
      else
        { pairing := { pairing with lastCounter := counter }
          verdict := asksFor m
          authed := some counter }
  else if m.type ≠ MsgType.status ∧ m.type ≠ MsgType.scan ∧ m.type ≠ MsgType.pair then
    { pairing, verdict := .notPaired }
  else { pairing, verdict := asksFor m }

variable {prims : Primitives} {pairing : Pairing} {frame : List Byte} {m : Msg}

theorem init_lastCounter (nonce : List Byte) (key : Option (List Byte)) : (init nonce key).lastCounter = 0 := by
  cases key <;> rfl

theorem check_authed_iff {counter : Word} :
    (pairing.check prims frame m).authed = some counter ↔
      pairing.paired = true ∧ verify prims frame m pairing.key pairing.nonce = .ok counter ∧
        pairing.lastCounter < counter := by
  unfold check
  cases pairing.paired with
  | false =>
    simp only [Bool.false_eq_true, if_false, false_and, iff_false]
    split <;> simp
  | true =>
    cases verify prims frame m pairing.key pairing.nonce with
    | missing => simp
    | bad => simp
    | ok value =>
      simp only [if_true, true_and, Verdict.ok.injEq]
      split
      · rename_i low
        constructor
        · intro impossible
          cases impossible
        · rintro ⟨rfl, above⟩
          exact absurd above (BitVec.not_lt.mpr low)
      · rename_i above
        simp only [Option.some.injEq]
        constructor
        · rintro rfl
          exact ⟨rfl, BitVec.not_le.mp above⟩
        · rintro ⟨rfl, _⟩
          rfl

theorem check_pairing :
    (pairing.check prims frame m).pairing =
      { pairing with
        lastCounter := (pairing.check prims frame m).authed.getD pairing.lastCounter } := by
  unfold check
  split
  · cases verify prims frame m pairing.key pairing.nonce with
    | missing => rfl
    | bad => rfl
    | ok value =>
      simp only
      split <;> rfl
  · split <;> rfl

theorem check_signed {counter : Word} (paired : pairing.paired = true)
    (verified : verify prims frame m pairing.key pairing.nonce = .ok counter)
    (above : pairing.lastCounter < counter) :
    pairing.check prims frame m =
      { pairing := { pairing with lastCounter := counter }, verdict := asksFor m, authed := some counter } := by
  simp only [check, paired, verified, if_true, if_neg (BitVec.not_le.mpr above)]

theorem check_unpaired (unpaired : pairing.paired = false) :
    pairing.check prims frame m =
      { pairing
        verdict := if m.type ≠ MsgType.status ∧ m.type ≠ MsgType.scan ∧ m.type ≠ MsgType.pair
          then .notPaired else asksFor m } := by
  simp only [check, unpaired, Bool.false_eq_true, if_false]
  split <;> rfl

theorem check_unverified (paired : pairing.paired = true)
    (unverified : ∀ counter, verify prims frame m pairing.key pairing.nonce ≠ .ok counter) :
    ∃ verdict, pairing.check prims frame m = { pairing, verdict } ∧
      (verdict.result = .alreadyPaired ∨ verdict.result = .auth) ∧
      (m.type = MsgType.pair → verdict.result = .alreadyPaired) := by
  have answer (other : PairVerdict) (refusal : other.result = .auth) :
      ((if m.type = MsgType.pair then .alreadyPaired else other : PairVerdict).result = .alreadyPaired ∨
        (if m.type = MsgType.pair then .alreadyPaired else other : PairVerdict).result = .auth) ∧
      (m.type = MsgType.pair → (if m.type = MsgType.pair then .alreadyPaired else other : PairVerdict).result =
          .alreadyPaired) := by
    constructor
    · split
      · exact .inl rfl
      · exact .inr refusal
    · intro is_pair
      rw [if_pos is_pair]
      rfl
  unfold check
  rw [if_pos paired]
  cases outcome : verify prims frame m pairing.key pairing.nonce with
  | ok counter => exact absurd outcome (unverified counter)
  | missing => exact ⟨_, rfl, answer .authMissing rfl⟩
  | bad => exact ⟨_, rfl, answer .authBad rfl⟩

end Pairing
end BenchPod.Bwp
