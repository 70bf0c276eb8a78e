import BenchPod.Bwp.Control

/-!
# Executing a request twice

Every handler of the bridge leaves the bridge as it is when it runs a second time, and handles alike
bridges that differ only in the last counter and in the time of the last request.
-/

namespace BenchPod.Bwp

namespace NvsPair

variable (port : NvsPort) (pair : NvsPair)

theorem store_again (first second : List Byte) :
    (pair.store port first second).1.store port first second = pair.store port first second := by
  simp only [store]
  split
  · rfl
  · split
    · rfl
    · split <;> rfl

theorem clear_again : (pair.clear port).1.clear port = pair.clear port := by
  simp only [clear]
  split
  · rfl
  · simp only [Prod.mk.injEq, NvsPair.mk.injEq, and_true]
    constructor
    · split <;> rfl
    · split <;> rfl

end NvsPair

theorem OtaSeq.check_inactive_iff {seq : OtaSeq} {offset len : Word} :
    seq.check offset len = .inactive ↔ seq.active = false := by
  simp only [OtaSeq.check]
  split
  · simpa
  · rename_i active
    simp only [active]
    split
    · simp
    · split
      · simp
      · split <;> simp

theorem OtaSeq.check_advance {seq : OtaSeq} (active : seq.active = true) (offset : Word)
    {len : Word} (some_bytes : len ≠ 0) : (seq.advance offset len).check offset len = .duplicate := by
  rw [check, if_neg (by simp [advance, active]), if_pos ⟨some_bytes, rfl, rfl⟩]

namespace BridgeOta

variable (prims : Primitives) (port : OtaPort) (ota : BridgeOta)

theorem abort_again : ota.abort.abort = ota.abort := by
  simp only [abort]
  split <;> rfl

theorem fwsigOut_again (sig : Option (List Byte)) (previous : Fwsig) :
    fwsigOut sig (fwsigOut sig previous) = fwsigOut sig previous := by
  cases sig with
  | none => rfl
  | some bytes =>
    simp only [fwsigOut]
    split <;> rfl

theorem begin_again (size : Word) (sig : Option (List Byte)) :
    (ota.begin prims port size sig).ota.begin prims port size sig = ota.begin prims port size sig := by
  have idle : ({ ota.abort with sig := fwsigOut sig ota.sig } : BridgeOta).abort =
      { ota.abort with sig := fwsigOut sig ota.sig } := by
    simp only [abort]
    split <;> rfl
  cases checked : fwsigCheck prims port.keys sig fwsigTargetBridge size with
  | error refusal => simp only [begin, checked, idle, fwsigOut_again]
  | ok _ =>
    cases found : port.part with
    | none => simp only [begin, checked, found, idle, fwsigOut_again]
    | some part =>
      by_cases range : size < BitVec.ofNat 32 imgDescEnd ∨ part < size
      · simp only [begin, checked, found, if_pos range, idle, fwsigOut_again]
      · cases started : port.beginErr with
        | some name => simp only [begin, checked, found, if_neg range, started, idle, fwsigOut_again]
        | none =>
          simp only [begin, checked, found, if_neg range, started, fwsigOut_again]
          simp only [abort, OtaSeq.begin, if_true]

theorem data_again (offset : Word) (data : List Byte) :
    (ota.data port offset data).ota.data port offset data = ota.data port offset data := by
  by_cases size : data.length = 0 ∨ otaChunkMax < data.length
  · simp only [BridgeOta.data, if_pos size]
  · have some_bytes : BitVec.ofNat 32 data.length ≠ 0 := by
      intro none_left
      have value : (BitVec.ofNat 32 data.length).toNat = 0 := congrArg BitVec.toNat none_left
      simp only [BitVec.toNat_ofNat, otaChunkMax, not_or, Nat.not_lt] at value size
      omega
    by_cases active : ota.seq.active = true
    · cases due : ota.seq.check offset (BitVec.ofNat 32 data.length) with
      | inactive => simp [OtaSeq.check_inactive_iff.mp due] at active
      | write =>
        by_cases ident : offset = 0 ∧ imageProject data ≠ some port.project
        · simp only [BridgeOta.data, write, if_neg size, due, if_pos ident, active, if_true]
        · cases failed : port.writeErr with
          | some name => simp only [BridgeOta.data, write, if_neg size, due, if_neg ident, failed, active, if_true]
          | none =>
            -- the retransmission is recognised by its offset and length
            have again := OtaSeq.check_advance active offset some_bytes
            have still : (ota.seq.advance offset (BitVec.ofNat 32 data.length)).active = true := active
            simp only [BridgeOta.data, write, if_neg size, due, if_neg ident, failed, still, if_true, again]
      | duplicate => simp only [BridgeOta.data, if_neg size, due, active, if_true]
      | badOffset => simp only [BridgeOta.data, if_neg size, due, active, if_true]
      | tooLarge => simp only [BridgeOta.data, if_neg size, due, active, if_true]
    · rw [Bool.not_eq_true] at active
      simp only [BridgeOta.data, if_neg size, OtaSeq.check_inactive_iff.mpr active, active, Bool.false_eq_true, if_false]

theorem finish_again : ((ota.finish prims port).ota.finish prims port).ota = (ota.finish prims port).ota := by
  by_cases active : ota.seq.active = false
  · simp only [finish, if_pos active]
  · by_cases complete : ota.seq.complete = false
    · simp only [finish, if_neg active, if_pos complete]
    · have ended : (ota.finish prims port).ota.seq = {} := by
        simp only [finish, if_neg active, if_neg complete]
        split
        · rfl
        · split
          · rfl
          · rfl
          · split <;> rfl
      rw [finish, if_pos (by rw [ended])]

theorem finish_incomplete (incomplete : ota.seq.complete = false) :
    (ota.finish prims port).ota.finish prims port = ota.finish prims port := by
  by_cases active : ota.seq.active = false
  · simp only [finish, if_pos active]
  · simp only [finish, if_neg active, if_pos incomplete]

end BridgeOta

namespace Bridge

variable (prims : Primitives) (env : Env) (b : Bridge)

theorem storePairkey_again (key pub : List Byte) :
    (b.storePairkey env key pub).1.storePairkey env key pub = b.storePairkey env key pub := by
  simp only [storePairkey, NvsPair.store_again]

theorem setWifi_again (ssid pass : List Byte) :
    (b.setWifi env ssid pass).1.setWifi env ssid pass = b.setWifi env ssid pass := by
  cases opens : env.creds.opens with
  | false => simp [setWifi, storeCreds, opens, NvsPair.store]
  | true =>
    cases stored : b.creds.store env.creds ssid pass with
    | mk creds ok =>
      have again : creds.store env.creds ssid pass = (creds, ok) := by
        have once := b.creds.store_again env.creds ssid pass
        rwa [stored] at once
      cases ok with
      | false => simp [setWifi, storeCreds, opens, stored, again]
      | true =>
        simp only [setWifi, storeCreds, opens, stored, again, credsChanged, hasCreds, if_true, Option.getD_none]
        split <;> simp [*]

theorem credsChanged_again : b.credsChanged.credsChanged = b.credsChanged := by
  by_cases found : b.credsPresent.getD (credsLoad b.creds).isSome = true
  · simp only [credsChanged, hasCreds, found, Option.getD_some, if_true]
  · simp only [credsChanged, hasCreds, found, Option.getD_some, Bool.false_eq_true, if_false]

theorem clearWifi_again : (b.clearWifi env).1.clearWifi env = b.clearWifi env := by
  cases opens : env.creds.opens with
  | false =>
    simp only [clearWifi, clearCreds, opens, NvsPair.clear, Bool.false_eq_true, if_false, if_true, credsChanged_again]
  | true =>
    cases cleared : b.creds.clear env.creds with
    | mk creds ok =>
      have again : creds.clear env.creds = (creds, ok) := by
        have once := b.creds.clear_again env.creds
        rwa [cleared] at once
      simp [clearWifi, clearCreds, opens, cleared, again, credsChanged, hasCreds]

/-- A handler that leaves the bridge the same, with the same result, when it is run again. -/
def Repeats (handler : Bridge → Handled) (b : Bridge) : Prop :=
  (handler (handler b).bridge).bridge = (handler b).bridge ∧
    (handler (handler b).bridge).answer.map (·.result) = (handler b).answer.map (·.result)

theorem repeats_of_eq {handler : Bridge → Handled} (again : handler (handler b).bridge = handler b) :
    Repeats handler b := by
  rw [Repeats, again]
  exact ⟨rfl, rfl⟩

variable (m : Msg) (signed : Option Word)

theorem serveClearWifi_repeats : Repeats (fun b => b.serveClearWifi env m signed) b := by
  apply repeats_of_eq
  simp only [serveClearWifi, clearWifi_again]

theorem setWifi_keeps (ssid pass : List Byte) :
    (b.setWifi env ssid pass).1.sealKey = b.sealKey ∧ (b.setWifi env ssid pass).1.ota = b.ota := by
  simp only [setWifi, storeCreds]
  split
  · split <;> exact ⟨rfl, rfl⟩
  · split <;> exact ⟨rfl, rfl⟩

theorem serveSetWifi_repeats : Repeats (fun b => b.serveSetWifi prims env m signed) b := by
  apply repeats_of_eq
  cases parsed : parseSetWifi prims m.body b.sealKey with
  | none => simp only [serveSetWifi, parsed]
  | some network =>
    obtain ⟨ssid, pass⟩ := network
    cases busy : b.ota.seq.active with
    | true => simp only [serveSetWifi, parsed, busy, if_true]
    | false =>
      obtain ⟨same_key, same_ota⟩ := b.setWifi_keeps env ssid pass
      simp only [serveSetWifi, parsed, busy, Bool.false_eq_true, if_false, same_key, same_ota, setWifi_again]

theorem serveOtaBegin_repeats : Repeats (fun b => b.serveOtaBegin prims env m signed) b := by
  apply repeats_of_eq
  cases size : getU32 m.body Tag.imageSize with
  | none => simp only [serveOtaBegin, size]
  | some size => simp only [serveOtaBegin, size, replyOta, BridgeOta.begin_again]

theorem serveOtaData_repeats : Repeats (fun b => b.serveOtaData env m signed) b := by
  apply repeats_of_eq
  cases offset : getU32 m.body Tag.offset with
  | none => simp only [serveOtaData, offset]
  | some offset =>
    cases data : Tlv.find m.body Tag.data with
    | none => simp only [serveOtaData, offset, data]
    | some data => simp only [serveOtaData, offset, data, BridgeOta.data_again]

theorem serve_repeats (stays : (b.serve prims env m signed).reboots = false)
    (unfinished : Kind.ofType m.type = .otaEnd → b.ota.seq.complete = false) :
    Repeats (fun b => b.serve prims env m signed) b := by
  unfold serve at stays ⊢
  cases kind : Kind.ofType m.type with
  | status => exact ⟨rfl, rfl⟩
  | scan => exact ⟨rfl, rfl⟩
  | setWifi => exact b.serveSetWifi_repeats prims env m signed
  | clearWifi => exact b.serveClearWifi_repeats env m signed
  | otaBegin => exact b.serveOtaBegin_repeats prims env m signed
  | otaData => exact b.serveOtaData_repeats env m signed
  | otaEnd =>
    apply repeats_of_eq
    simp only [replyOta, BridgeOta.finish_incomplete _ _ _ (unfinished kind)]
  | otaAbort =>
    apply repeats_of_eq
    simp only [replyOta, BridgeOta.abort_again]
  | reboot => simp [kind] at stays
  | factoryReset => simp [kind, serveFactoryReset] at stays
  | pair => exact ⟨rfl, rfl⟩
  | unknown => exact ⟨rfl, rfl⟩

theorem finish_keeps (ending : Kind.ofType m.type = .otaEnd) :
    ((b.serve prims env m signed).bridge.serve prims env m signed).bridge = (b.serve prims env m signed).bridge := by
  simp only [serve, ending, replyOta, BridgeOta.finish_again]

end Bridge

/-- What the bridge reads from its surroundings and finds changed from one request to the next. -/
structure Readings where
  now : Nat
  radio : Radio
  aps : List Ap
  ethLink : Bool
  podMac : Option (List Byte)

/-- The same surroundings at another time. -/
def Env.later (env : Env) (readings : Readings) : Env :=
  { env with
    ota := { env.ota with now := readings.now }
    radio := readings.radio
    scan := (env.scan.1, readings.aps)
    ethLink := readings.ethLink
    podMac := readings.podMac }

/-- Two bodies of one request: they differ in the counter and the MAC only. -/
structure SameRequest (body body' : List Byte) : Prop where
  find : ∀ tag, tag ≠ Tag.counter → tag ≠ Tag.auth → Tlv.find body' tag = Tlv.find body tag
  manifest : findPointer body' Tag.signature = findPointer body Tag.signature ∨
    ∃ other other', findPointer body Tag.signature = some other ∧
      findPointer body' Tag.signature = some other' ∧ other.length ≠ 128 ∧ other'.length ≠ 128

/-- Two bridges that differ in the last counter accepted and in the time of the transfer's last
request only. -/
def Bridge.touch (b : Bridge) (lastCounter : Word) (lastUs : Nat) : Bridge :=
  { b with pairing := { b.pairing with lastCounter }, ota := { b.ota with lastUs } }

/-- Two handlings of one request: the same result on bridges that stay alike. -/
structure Handled.Alike (h h' : Handled) (lastCounter : Word) : Prop where
  bridge : ∃ lastUs, h'.bridge = h.bridge.touch lastCounter lastUs
  result : h'.answer.map (·.result) = h.answer.map (·.result)
  reboots : h'.reboots = h.reboots

section Alike

variable {body body' : List Byte}

theorem getU32_same (same : SameRequest body body') {tag : Byte} (not_counter : tag ≠ Tag.counter)
    (not_auth : tag ≠ Tag.auth) : getU32 body' tag = getU32 body tag := by
  rw [getU32, getU32, same.find tag not_counter not_auth]

theorem parseSetWifi_same (prims : Primitives) (same : SameRequest body body')
    (key : Option (List Byte)) : parseSetWifi prims body' key = parseSetWifi prims body key := by
  rw [parseSetWifi, parseSetWifi, same.find Tag.ssid (by decide) (by decide),
    same.find Tag.passphrase (by decide) (by decide),
    same.find Tag.encPassphrase (by decide) (by decide)]

theorem begin_malformed (prims : Primitives) (port : OtaPort) (ota : BridgeOta) (size : Word)
    {sig : List Byte} (length : sig.length ≠ 128) :
    ota.begin prims port size (some sig) =
      { ota := ota.abort, result := .otaVerify, msg := some "signature: format" } := by
  have refused : Fwsig.wellFormed sig = false := by simp [Fwsig.wellFormed, length]
  have kept : ({ ota.abort with sig := ota.sig } : BridgeOta) = ota.abort := by
    simp only [BridgeOta.abort]
    split <;> rfl
  simp only [BridgeOta.begin, fwsigCheck, fwsigOut, refused, Bool.false_eq_true, if_false, kept]
  rfl

theorem begin_same (prims : Primitives) (port : OtaPort) (ota : BridgeOta) (size : Word)
    (same : SameRequest body body') :
    ota.begin prims port size (findPointer body' Tag.signature) =
      ota.begin prims port size (findPointer body Tag.signature) := by
  obtain equal | ⟨other, other', found, found', length, length'⟩ := same.manifest
  · rw [equal]
  · rw [found, found', begin_malformed _ _ _ _ length, begin_malformed _ _ _ _ length']

/-- Two outcomes that differ in the time of the transfer's last request only. -/
def OtaOutcome.Alike (outcome outcome' : OtaOutcome) : Prop :=
  (∃ lastUs, outcome'.ota = { outcome.ota with lastUs }) ∧ outcome'.result = outcome.result

end Alike

namespace BridgeOta

variable (prims : Primitives) (port : OtaPort) (ota : BridgeOta) (lastUs now : Nat)

theorem abort_lastUs : ({ ota with lastUs } : BridgeOta).abort = { ota.abort with lastUs } := by
  simp only [abort]
  split <;> rfl

theorem begin_alike (size : Word) (sig : Option (List Byte)) :
    (ota.begin prims port size sig).Alike (({ ota with lastUs } : BridgeOta).begin prims { port with now } size sig) := by
  simp only [begin, abort_lastUs]
  split
  · exact ⟨⟨_, rfl⟩, rfl⟩
  · split
    · exact ⟨⟨_, rfl⟩, rfl⟩
    · split
      · exact ⟨⟨_, rfl⟩, rfl⟩
      · split
        · exact ⟨⟨_, rfl⟩, rfl⟩
        · exact ⟨⟨_, rfl⟩, rfl⟩

theorem write_alike (offset : Word) (data : List Byte) :
    ({ ota with lastUs } : BridgeOta).write { port with now } offset data =
      { ota.write port offset data with
        ota := { (ota.write port offset data).ota with lastUs } } := by
  simp only [write]
  split
  · rfl
  · split <;> rfl

theorem data_alike (offset : Word) (data : List Byte) :
    (ota.data port offset data).Alike (({ ota with lastUs } : BridgeOta).data { port with now } offset data) := by
  simp only [BridgeOta.data, write_alike]
  split
  · exact ⟨⟨_, rfl⟩, rfl⟩
  · cases ota.seq.check offset (BitVec.ofNat 32 data.length) with
    | write => 
      simp only
      split <;> exact ⟨⟨_, rfl⟩, rfl⟩
    | inactive =>
      simp only
      split <;> exact ⟨⟨_, rfl⟩, rfl⟩
    | duplicate =>
      simp only
      split <;> exact ⟨⟨_, rfl⟩, rfl⟩
    | badOffset =>
      simp only
      split <;> exact ⟨⟨_, rfl⟩, rfl⟩
    | tooLarge =>
      simp only
      split <;> exact ⟨⟨_, rfl⟩, rfl⟩

theorem finish_alike :
    (ota.finish prims port).Alike (({ ota with lastUs } : BridgeOta).finish prims { port with now }) := by
  simp only [finish]
  split
  · exact ⟨⟨_, rfl⟩, rfl⟩
  · split
    · exact ⟨⟨_, rfl⟩, rfl⟩
    · split
      · exact ⟨⟨_, rfl⟩, rfl⟩
      · split
        · exact ⟨⟨_, rfl⟩, rfl⟩
        · exact ⟨⟨_, rfl⟩, rfl⟩
        · split <;> exact ⟨⟨_, rfl⟩, rfl⟩

end BridgeOta

namespace Bridge

variable (prims : Primitives) (env : Env) (b : Bridge) (readings : Readings) (lastCounter : Word)
  (lastUs : Nat)

theorem storeCreds_touch (ssid pass : List Byte) :
    (b.touch lastCounter lastUs).storeCreds (env.later readings) ssid pass =
      ((b.storeCreds env ssid pass).1.touch lastCounter lastUs, (b.storeCreds env ssid pass).2) := by
  cases opens : env.creds.opens with
  | false => simp only [storeCreds, Env.later, touch, opens, Bool.false_eq_true, if_false]
  | true => simp only [storeCreds, Env.later, touch, opens, if_true]

theorem setWifi_touch (ssid pass : List Byte) :
    (b.touch lastCounter lastUs).setWifi (env.later readings) ssid pass =
      ((b.setWifi env ssid pass).1.touch lastCounter lastUs, (b.setWifi env ssid pass).2) := by
  simp only [setWifi, storeCreds_touch]
  split <;> rfl

theorem clearCreds_touch :
    (b.touch lastCounter lastUs).clearCreds (env.later readings) =
      ((b.clearCreds env).1.touch lastCounter lastUs, (b.clearCreds env).2) := by
  cases opens : env.creds.opens with
  | false => simp only [clearCreds, Env.later, touch, opens, Bool.false_eq_true, if_false]
  | true => simp only [clearCreds, Env.later, touch, opens, if_true]

theorem clearWifi_touch :
    (b.touch lastCounter lastUs).clearWifi (env.later readings) =
      ((b.clearWifi env).1.touch lastCounter lastUs, (b.clearWifi env).2) := by
  simp only [clearWifi, clearCreds_touch]
  rfl

theorem clearPairkey_touch :
    (b.touch lastCounter lastUs).clearPairkey (env.later readings) =
      ((b.clearPairkey env).1.touch lastCounter lastUs, (b.clearPairkey env).2) := rfl

theorem resetSettings_touch :
    (b.touch lastCounter lastUs).resetSettings (env.later readings) =
      ((b.resetSettings env).1.touch lastCounter lastUs, (b.resetSettings env).2) := by
  simp only [resetSettings, clearCreds_touch, clearPairkey_touch]
  split <;> rfl

theorem replyOta_alike {outcome outcome' : OtaOutcome} (alike : outcome.Alike outcome')
    (m m' : Msg) (signed signed' : Option Word) :
    (b.replyOta m signed outcome).Alike ((b.touch lastCounter lastUs).replyOta m' signed' outcome') lastCounter := by
  obtain ⟨⟨later, ota_eq⟩, result_eq⟩ := alike
  refine ⟨⟨later, ?_⟩, ?_, rfl⟩
  · simp only [replyOta, ota_eq]
    rfl
  · simp only [replyOta, reply, result_eq, Option.map_some]

/-- Requests that agree in everything but counter and MAC are executed alike on bridges that are
alike. -/
theorem serve_alike {m m' : Msg} (same : SameRequest m.body m'.body) (type_eq : m'.type = m.type)
    (signed signed' : Option Word) :
    (b.serve prims env m signed).Alike
      ((b.touch lastCounter lastUs).serve prims (env.later readings) m' signed') lastCounter := by
  simp only [serve, type_eq]
  cases kind : Kind.ofType m.type with
  | status => exact ⟨⟨lastUs, rfl⟩, rfl, rfl⟩
  | scan => exact ⟨⟨lastUs, rfl⟩, rfl, rfl⟩
  | setWifi =>
    have sealKey_eq : (b.touch lastCounter lastUs).sealKey = b.sealKey := rfl
    have active_eq : (b.touch lastCounter lastUs).ota.seq.active = b.ota.seq.active := rfl
    simp only [serveSetWifi, parseSetWifi_same prims same, sealKey_eq, active_eq, setWifi_touch]
    split
    · exact ⟨⟨lastUs, rfl⟩, rfl, rfl⟩
    · split <;> exact ⟨⟨lastUs, rfl⟩, rfl, rfl⟩
  | clearWifi =>
    simp only [serveClearWifi, clearWifi_touch]
    exact ⟨⟨lastUs, rfl⟩, rfl, rfl⟩
  | otaBegin =>
    simp only [serveOtaBegin, getU32_same same (show Tag.imageSize ≠ Tag.counter by decide)
      (show Tag.imageSize ≠ Tag.auth by decide)]
    cases getU32 m.body Tag.imageSize with
    | none => exact ⟨⟨lastUs, rfl⟩, rfl, rfl⟩
    | some size =>
      simp only [begin_same _ _ _ _ same]
      exact b.replyOta_alike _ _ (b.ota.begin_alike prims env.ota lastUs readings.now size _) ..
  | otaData =>
    simp only [serveOtaData, getU32_same same (show Tag.offset ≠ Tag.counter by decide)
      (show Tag.offset ≠ Tag.auth by decide), same.find Tag.data (by decide) (by decide)]
    cases getU32 m.body Tag.offset with
    | none => exact ⟨⟨lastUs, rfl⟩, rfl, rfl⟩
    | some offset =>
      cases Tlv.find m.body Tag.data with
      | none => exact ⟨⟨lastUs, rfl⟩, rfl, rfl⟩
      | some data =>
        obtain ⟨⟨later, ota_eq⟩, result_eq⟩ := b.ota.data_alike env.ota lastUs readings.now offset data
        refine ⟨⟨later, ?_⟩, congrArg some result_eq, rfl⟩
        change { b.touch lastCounter lastUs with
          ota := (({ b.ota with lastUs } : BridgeOta).data { env.ota with now := readings.now } offset data).ota } = _
        rw [ota_eq]
        rfl
  | otaEnd => exact b.replyOta_alike _ _ (b.ota.finish_alike prims env.ota lastUs readings.now) ..
  | otaAbort =>
    have aborted : OtaOutcome.Alike { ota := b.ota.abort, result := .ok }
        { ota := (b.touch lastCounter lastUs).ota.abort, result := .ok } :=
      ⟨⟨lastUs, b.ota.abort_lastUs lastUs⟩, rfl⟩
    exact b.replyOta_alike _ _ aborted ..
  | reboot => exact ⟨⟨lastUs, rfl⟩, rfl, rfl⟩
  | factoryReset =>
    simp only [serveFactoryReset, resetSettings_touch]
    exact ⟨⟨lastUs, rfl⟩, rfl, rfl⟩
  | pair => exact ⟨⟨lastUs, rfl⟩, rfl, rfl⟩
  | unknown => exact ⟨⟨lastUs, rfl⟩, rfl, rfl⟩

end Bridge

namespace BridgeOta

variable (prims : Primitives) (port : OtaPort) (ota : BridgeOta)

theorem begin_pending (size : Word) (sig : Option (List Byte)) :
    (ota.begin prims port size sig).ota.pending = ota.pending := by
  have aborted : ota.abort.pending = ota.pending := by
    simp only [abort]
    split <;> rfl
  simp only [begin]
  split
  · exact aborted
  · split
    · exact aborted
    · split
      · exact aborted
      · split <;> exact aborted

theorem write_pending (offset : Word) (data : List Byte) : (ota.write port offset data).ota.pending = ota.pending := by
  simp only [write]
  split
  · rfl
  · split <;> rfl

theorem data_pending (offset : Word) (data : List Byte) : (ota.data port offset data).ota.pending = ota.pending := by
  have stamped (outcome : OtaOutcome) (kept : outcome.ota.pending = ota.pending) :
      (if outcome.ota.seq.active then { outcome with ota := { outcome.ota with lastUs := port.now } }
        else outcome).ota.pending = ota.pending := by
    split
    · exact kept
    · exact kept
  simp only [BridgeOta.data]
  split
  · rfl
  · apply stamped
    cases ota.seq.check offset (BitVec.ofNat 32 data.length) with
    | write => exact ota.write_pending port offset data
    | inactive => rfl
    | duplicate => rfl
    | badOffset => rfl
    | tooLarge => rfl

theorem finish_pending : (ota.finish prims port).ota.pending = ota.pending := by
  simp only [finish]
  split
  · rfl
  · split
    · rfl
    · split
      · rfl
      · split
        · rfl
        · rfl
        · split <;> rfl

theorem confirm_again {after : BridgeOta} (kept : after.pending = (ota.confirm port).pending) :
    after.confirm port = after := by
  unfold confirm
  rw [if_neg]
  rintro ⟨trial, valid⟩
  rw [kept, confirm] at trial
  split at trial
  · cases trial
  · rename_i unconfirmed
    exact unconfirmed ⟨trial, valid⟩

end BridgeOta

namespace Bridge

variable (prims : Primitives) (env : Env) (b : Bridge)

/-- Whether an image is on trial is not decided by the requests executed. -/
theorem serve_pending (m : Msg) (signed : Option Word) :
    (b.serve prims env m signed).bridge.ota.pending = b.ota.pending := by
  have creds_kept : (b.clearCreds env).1.ota = b.ota := by
    simp only [clearCreds]
    split <;> rfl
  unfold serve
  cases Kind.ofType m.type with
  | setWifi =>
    simp only [serveSetWifi]
    split
    · rfl
    · split
      · rfl
      · exact congrArg _ (b.setWifi_keeps env _ _).2
  | clearWifi => exact congrArg _ creds_kept
  | otaBegin =>
    simp only [serveOtaBegin]
    split
    · rfl
    · exact b.ota.begin_pending prims env.ota _ _
  | otaData =>
    simp only [serveOtaData]
    split
    · exact b.ota.data_pending env.ota _ _
    · rfl
  | factoryReset =>
    simp only [serveFactoryReset, resetSettings]
    split <;> exact congrArg _ creds_kept
  | otaEnd => exact b.ota.finish_pending prims env.ota
  | otaAbort =>
    simp only [replyOta, BridgeOta.abort]
    split <;> rfl
  | status => rfl
  | scan => rfl
  | reboot => rfl
  | pair => rfl
  | unknown => rfl

end Bridge

end BenchPod.Bwp
