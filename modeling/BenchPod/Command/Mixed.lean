import BenchPod.Command.Table

/-!
# The verbs that read and write

The handlers of the ten mixed verbs with everything they take from the line, as far as the changes they ask
for.  A store that answers with an error may have changed something first, so a change counts as soon as it
is asked for.
-/

namespace BenchPod.Command

open Json

/-- `eth_req_t`. -/
inductive EthReq
  | down
  | up
  | restart
  | speed (mbit : Int) (full : Bool)
  | refclk
  | loopback (mbit : Int) (n : Nat)
  deriving DecidableEq

/-- A change that outlives the command. -/
inductive Change
  | dacLimitsClear
  | dacLimits (path : Nat) (inverted : Bool) (minMv maxMv : Int)
  | calClear
  | calClearPart (part : List Byte)
  | calDac (path : Nat) (code1 uv1 code2 uv2 : Int)
  | calComp (hfDcE4 cTopFf : Int)
  | calGain (source : Nat) (low : Bool)
  | calCurrentIn
  | sigPolicy (policy : Nat)
  | lanPolicy (policy : LanPolicy)
  | usbNet (on : Bool)
  | httpsOnly (on : Bool)
  | tlsRegenerate
  | caClear
  | proxySet (spec user pass : List Byte)
  | proxyClear
  | eepromWrite (addr : Int) (data : List Byte)
  | eepromId (major minor : Word) (serial : List Byte)
  | eepromCalCommit (len : Int)
  | eth (req : EthReq)
  deriving DecidableEq

/-- What the handlers ask the rest of the firmware. -/
structure Services where
  src : PolicySrc := .lan
  usbLink : Bool := false
  tlsLink : Bool := false
  /-- Why a change is not made. -/
  why : Change → Option (List Byte) := fun _ => none
  /-- `bus_busy_reason`. -/
  busBusy : Option (List Byte) := none
  /-- `heavy_begin` claims the gate. -/
  heavyBegin : Bool := true
  adcRangeSupported : Bool := true
  adcCalGainReady : Int → Option (List Byte) := fun _ => none
  /-- The result and the span of `adc_cal_measure_gain`, and the result of `adc_cal_measure_current_in`. -/
  measureGain : Int × Nat := (0, 0)
  measureCurrentIn : Int := 0
  moduleLink : Bool := true
  modulePresent : Bool := true
  eepromRead : Bool := true
  loopbackDone : Bool := true

inductive Reply
  | done
  | error (why : List Byte)
  deriving DecidableEq

/-- The changes that are asked for, and the reply. -/
abbrev Outcome := List Change × Reply

def refuse (text : String) : Outcome := ([], .error (cstr text))

/-- A reply that only reports. -/
def report : Outcome := ([], .done)

def answer : Option (List Byte) → Reply
  | none => .done
  | some why => .error why

/-- A change whose refusal is sent as it stands. -/
def ask (pod : Services) (change : Change) : Outcome := ([change], answer (pod.why change))

/-- A change whose refusal is sent as a text of the handler. -/
def askOr (pod : Services) (change : Change) (text : String) : Outcome :=
  ([change], if (pod.why change).isSome then .error (cstr text) else .done)

section fields

/-- `json_get_value`: the text of a field. -/
def field (json : List Byte) (key : String) (outLen : Nat) : Option (List Byte) := bpJsonGet json (cstr key) outLen

def jsonLong (json : List Byte) (key : String) : Option Int :=
  match field json key 24 with
  | none => none
  | some v =>
    if v = [] ∨ (strtol v).2.length = v.length ∨ (strtol v).2 ≠ [] then none else some (strtol v).1

def numField (json : List Byte) (key : String) : Option Int :=
  match field json key 16 with
  | none => none
  | some v => if v = [] ∨ (strtol v).2 ≠ [] then none else some (strtol v).1

/-- `labs` on a 32-bit `long`. -/
def labs (x : Int) : Int := if x = -2147483648 then x else x.natAbs

def hexNibble (c : Byte) : Option Nat := hexValue c

/-- The bytes of pairs of digits. -/
def hexPairs : List Byte → Option (List Byte)
  | [] => some []
  | [_] => none
  | hi :: lo :: rest =>
    match hexNibble hi, hexNibble lo, hexPairs rest with
    | some hi, some lo, some rest => some (BitVec.ofNat 8 (16 * hi + lo) :: rest)
    | _, _, _ => none

def hexDecode (s : List Byte) (cap : Nat) : Option (List Byte) :=
  if s.length % 2 ≠ 0 ∨ cap < s.length / 2 then none else hexPairs s

/-- `sscanf` of two unsigned numbers with a dot between them. -/
def scanRev (text : List Byte) : Option (Word × Word) :=
  match scanInteger text with
  | none => none
  | some (_, _, rest) =>
    match rest with
    | dot :: minor =>
      if dot = ascii '.' ∧ (scanInteger minor).isSome then some (strtoul text, strtoul minor) else none
    | [] => none

end fields

section policies

def podPolicySigFromName (name : List Byte) : Option Nat :=
  if name = cstr "audit" then some 0
  else if name = cstr "permissive" then some 1
  else if name = cstr "required" then some 2
  else none

def podPolicyLanFromName (name : List Byte) : Option LanPolicy :=
  if name = cstr "open" then some .lanOpen
  else if name = cstr "locked" then some .lanLocked
  else if name = cstr "off" then some .lanOff
  else none

def podPolicyCloudLinkGate (pod : Services) (verb : String) : Option (List Byte) :=
  if pod.src ≠ .lan ∨ pod.usbLink = true then none
  else some (cstr verb ++ cstr ": change it from the cloud or over USB")

def podPolicyLanTlsGate (pod : Services) : Option (List Byte) :=
  if pod.src ≠ .lan ∨ pod.usbLink = true ∨ pod.tlsLink = true then none
  else some (cstr "lan_tls: change it over TLS (port 8443), over USB or from the cloud")

def handleSigPolicy (pod : Services) (json : List Byte) : Outcome :=
  match field json "set" 16 with
  | none => report
  | some v =>
    match podPolicySigFromName v with
    | none => refuse "sig_policy: set must be audit, permissive or required"
    | some p => ask pod (.sigPolicy p)

def handleLanPolicy (pod : Services) (json : List Byte) : Outcome :=
  match field json "set" 16 with
  | none => report
  | some v =>
    match podPolicyLanFromName v with
    | none => refuse "lan_policy: set must be open, locked or off"
    | some p => ask pod (.lanPolicy p)

def handleUsbNetwork (pod : Services) (json : List Byte) : Outcome :=
  match field json "set" 8 with
  | none => report
  | some v =>
    if v ≠ cstr "on" ∧ v ≠ cstr "off" then refuse "usb_network: set must be on or off"
    else ask pod (.usbNet (v = cstr "on"))

/-- The first half of `handle_lan_tls`. -/
def setHttpsOnly (pod : Services) (json : List Byte) : Outcome :=
  match field json "https_only" 8 with
  | none => report
  | some v =>
    if v ≠ cstr "true" ∧ v ≠ cstr "false" then refuse "lan_tls: https_only must be true or false"
    else ask pod (.httpsOnly (v = cstr "true"))

def handleLanTls (pod : Services) (json : List Byte) : Outcome :=
  let first := setHttpsOnly pod json
  if first.2 ≠ .done then first
  else if field json "regenerate" 8 = some (cstr "true") then
    match podPolicyLanTlsGate pod with
    | some why => (first.1, .error why)
    | none => (first.1 ++ (ask pod .tlsRegenerate).1, (ask pod .tlsRegenerate).2)
  else first

/-- A change behind the gate of the cloud link and of the shared bus. -/
def askBus (pod : Services) (verb : String) (change : Change) : Outcome :=
  match podPolicyCloudLinkGate pod verb with
  | some why => ([], .error why)
  | none =>
    match pod.busBusy with
    | some why => ([], .error why)
    | none => ask pod change

def handleCloudCa (pod : Services) (json : List Byte) : Outcome :=
  if field json "clear" 8 = some (cstr "true") then askBus pod "cloud_ca" .caClear else report

def handleCloudProxy (pod : Services) (json : List Byte) : Outcome :=
  match field json "set" 80 with
  | some spec =>
    askBus pod "cloud_proxy"
      (.proxySet spec ((field json "user" 48).getD []) ((field json "password" 64).getD []))
  | none =>
    if field json "clear" 8 = some (cstr "true") then askBus pod "cloud_proxy" .proxyClear else report

end policies

section calibrate

/-- `canon` of `dac_limits.c`. -/
def canon (name : List Byte) : List Byte :=
  if name = cstr "dac_3v3" then cstr "3v3"
  else if name = cstr "dac_5v" then cstr "5v"
  else if name = cstr "dac_12v" then cstr "12v"
  else if name = cstr "adc_ext" ∨ name = cstr "sma" then cstr "ext"
  else name

def dacLimitsPathIndex (name : List Byte) : Option Nat := [cstr "3v3", cstr "5v", cstr "12v"].findIdx? (canon name == ·)

def handleDacLimits (pod : Services) (json : List Byte) : Outcome :=
  if field json "enabled" 16 = some (cstr "false") then
    askOr pod .dacLimitsClear "could not clear the DAC limits"
  else
    match field json "path" 16 with
    | none => report
    | some path =>
      match field json "min_mv" 16, field json "max_mv" 16 with
      | some lo, some hi =>
        match dacLimitsPathIndex path with
        | none => refuse "path must be 3v3, 5v or 12v"
        | some idx =>
          ask pod (.dacLimits idx (field json "inverted" 8 = some (cstr "true")) (strtol lo).1 (strtol hi).1)
      | _, _ => refuse "dac_limits needs path, min_mv and max_mv (and inverted)"

def adcCalSrcIndex (name : List Byte) : Option Nat := [cstr "cal1", cstr "cal2", cstr "ext"].findIdx? (name == ·)

def adcCalSrcName : Nat → List Byte
  | 0 => cstr "cal1"
  | 1 => cstr "cal2"
  | 2 => cstr "ext"
  | _ => cstr "?"

/-- `calibrate` with `clear`. -/
def calibrateClear (pod : Services) (part : List Byte) : Outcome :=
  if part = cstr "true" then askOr pod .calClear "could not clear the calibration"
  else if part = cstr "offset" ∨ part = cstr "dac" ∨ part = cstr "adc" then
    askOr pod (.calClearPart part) "could not clear the calibration"
  else refuse "calibrate: clear must be true, offset, dac or adc"

/-- `calibrate` with `dac`. -/
def calibrateDac (pod : Services) (json path : List Byte) : Outcome :=
  match dacLimitsPathIndex path with
  | none => refuse "calibrate: dac must be 3v3, 5v or 12v"
  | some path =>
    match jsonLong json "code1", jsonLong json "uv1", jsonLong json "code2", jsonLong json "uv2" with
    | some c1, some u1, some c2, some u2 =>
      if c1 < 0 ∨ 65535 < c1 ∨ c2 < 0 ∨ 65535 < c2 ∨ 20000000 < labs u1 ∨ 20000000 < labs u2 then
        refuse "calibrate: codes are 0-65535 and readings within +/-20 V"
      else ask pod (.calDac path c1 u1 c2 u2)
    | _, _, _, _ => refuse "calibrate: dac needs code1, uv1, code2 and uv2 (16-bit codes, DMM microvolts)"

/-- `calibrate` with `comp_hf_dc_e4`. -/
def calibrateComp (pod : Services) (json : List Byte) : Outcome :=
  match jsonLong json "comp_hf_dc_e4", jsonLong json "comp_c_top_ff" with
  | some hf, some ctop => ask pod (.calComp hf ctop)
  | _, _ => refuse "calibrate: comp_hf_dc_e4 and comp_c_top_ff go together"

/-- A measurement's refusal. -/
def readFailed (rc : Int) : Outcome :=
  if rc = -1 then refuse "route failed" else refuse "adc read failed"

/-- The measurement of an ADC gain and its store. -/
def calibrateGain (pod : Services) (src : Nat) (low : Bool) : Outcome :=
  match pod.adcCalGainReady src with
  | some why => ([], .error why)
  | none =>
    if pod.heavyBegin = false then refuse "busy"
    else if pod.measureGain.1 = -3 then
      ([], .error (cstr "calibrate: " ++ adcCalSrcName src ++ cstr " not settled (" ++
        cstr (Nat.repr pod.measureGain.2) ++
        cstr " counts pk-pk). Is something connected to the DAC output?"))
    else if pod.measureGain.1 ≠ 0 then readFailed pod.measureGain.1
    else ask pod (.calGain src low)

/-- `calibrate` with `adc`. -/
def calibrateAdc (pod : Services) (json source : List Byte) : Outcome :=
  let range := field json "range" 12
  let low := range.any (· ≠ cstr "normal")
  let src := adcCalSrcIndex source
  if low = true ∧ range ≠ some (cstr "low") then refuse "calibrate: range must be normal or low"
  else if low = true ∧ pod.adcRangeSupported = false then
    refuse "range: the low range needs analog module v3r4 or later"
  else if low = true ∧ src ≠ some 0 then
    refuse "calibrate: the low range is calibrated through cal1 (adc cal1), and serves every source"
  else
    match src with
    | none => refuse "calibrate: adc must be cal1, cal2 or ext"
    | some src => calibrateGain pod src low

/-- `calibrate` with `source`. -/
def calibrateSource (pod : Services) (source : List Byte) : Outcome :=
  if source ≠ cstr "current_in" then
    refuse "only current_in can be calibrated on the pod: source must be current_in"
  else if pod.heavyBegin = false then refuse "busy"
  else if pod.measureCurrentIn ≠ 0 then readFailed pod.measureCurrentIn
  else ask pod .calCurrentIn

/-- `handle_calibrate`: the first of the forms that is there. -/
def handleCalibrate (pod : Services) (json : List Byte) : Outcome :=
  match field json "clear" 16 with
  | some part => if part ≠ cstr "false" then calibrateClear pod part else rest
  | none => rest
where
  rest : Outcome :=
    match field json "dac" 16 with
    | some path => calibrateDac pod json path
    | none =>
      match field json "comp_hf_dc_e4" 16 with
      | some _ => calibrateComp pod json
      | none =>
        match field json "adc" 16 with
        | some source => calibrateAdc pod json source
        | none =>
          match field json "source" 16 with
          | some source => calibrateSource pod source
          | none => report

end calibrate

section module

/-- `module` with `read`. -/
def moduleRead (pod : Services) (json : List Byte) : Outcome :=
  match numField json "addr", numField json "len" with
  | some addr, some len =>
    if addr < 0 ∨ len < 1 ∨ 128 < len ∨ 4096 < addr + len then outside
    else if pod.eepromRead = false then refuse "module: EEPROM read failed"
    else report
  | _, _ => outside
where
  outside : Outcome := refuse "module: read needs addr and len (1..128) inside the 4096-byte EEPROM"

/-- `module` with `write`. -/
def moduleWrite (pod : Services) (json : List Byte) : Outcome :=
  match numField json "addr", (field json "data" 130).bind (hexDecode · 64) with
  | some addr, some data =>
    if data = [] then missing
    -- `module_ee_raw_write_ok`
    else if addr < 0x100 ∨ 4096 ≤ addr ∨ 4096 < addr + data.length then
      refuse ("module: raw writes go to the calibration area, 0x100..0xfff " ++
        "(the header is written by id and cal_commit)")
    else askOr pod (.eepromWrite addr data) "module: EEPROM write failed"
  | _, _ => missing
where
  missing : Outcome := refuse "module: write needs addr and data (hex, 1..64 bytes)"

/-- `module` with `id`. -/
def moduleId (pod : Services) (json : List Byte) : Outcome :=
  if (field json "type" 12).any (· ≠ cstr "analog") then refuse "module: type must be analog"
  else
    match (field json "rev" 12).bind scanRev with
    | none => refuse "module: id needs rev as \"major.minor\", for example \"1.0\""
    | some (maj, min) =>
      if 255 < maj ∨ 255 < min then refuse "module: id needs rev as \"major.minor\", for example \"1.0\""
      else
        match field json "serial" 18 with
        | none => refuse "module: id needs serial (up to 16 characters)"
        | some serial =>
          if 16 < serial.length then refuse "module: id needs serial (up to 16 characters)"
          else askOr pod (.eepromId maj min serial) "module: EEPROM write failed"

/-- `module` with `cal_commit`. -/
def moduleCalCommit (pod : Services) (json : List Byte) : Outcome :=
  match numField json "len" with
  | none => refuse "module: cal_commit needs len (0..3840)"
  | some len =>
    if len < 0 ∨ 3840 < len then refuse "module: cal_commit needs len (0..3840)"
    else askOr pod (.eepromCalCommit len) "module: EEPROM write failed"

def handleModule (pod : Services) (json : List Byte) : Outcome :=
  if pod.moduleLink = false then refuse "module: this BenchPod has no module link (digital v3r3 only)"
  else
    match field json "eeprom" 16 with
    | none => report
    | some op =>
      if pod.modulePresent = false then refuse "module: no module plugged in, or module power is off"
      else if op = cstr "read" then moduleRead pod json
      else if op = cstr "write" then moduleWrite pod json
      else if op = cstr "id" then moduleId pod json
      else if op = cstr "cal_commit" then moduleCalCommit pod json
      else refuse "module: eeprom must be read, write, id or cal_commit"

end module

section ethernet

/-- `eth` with `loopback`. -/
def ethLoopback (pod : Services) (json : List Byte) : Outcome :=
  let mbit := atoi ((field json "mbit" 8).getD [])
  if mbit ≠ 10 ∧ mbit ≠ 100 then refuse "eth loopback mbit must be 10 or 100"
  else
    let count := (field json "n" 8).getD []
    let n := if count = [] then 200 else (BitVec.ofInt 32 (atoi count)).toNat
    ([.eth (.loopback mbit (min 1000 (max 1 n)))],
      if pod.loopbackDone then .done else .error (cstr "eth loopback: timed out"))

/-- `eth` with `speed`. -/
def ethSpeed (json : List Byte) : Outcome :=
  let text := (field json "mbit" 8).getD []
  if text = [] then refuse "eth speed needs mbit (0 = autoneg, 10 or 100)"
  else if atoi text ≠ 0 ∧ atoi text ≠ 10 ∧ atoi text ≠ 100 then
    refuse "eth speed mbit must be 0 (autoneg), 10 or 100"
  else ([.eth (.speed (atoi text) (field json "duplex" 8 = some (cstr "full")))], .done)

def handleEth (pod : Services) (json : List Byte) : Outcome :=
  let action := (field json "action" 16).getD []
  if action = cstr "stats" then report
  else if action = cstr "loopback" then ethLoopback pod json
  else if action = cstr "refclk" then ([.eth .refclk], .done)
  else if action = cstr "speed" then ethSpeed json
  else if action = cstr "stop" then ([.eth .down], .done)
  else if action = cstr "start" then ([.eth .up], .done)
  else if action = cstr "restart" ∨ action = [] then ([.eth .restart], .done)
  else refuse "eth action must be stop|start|restart|stats|speed|refclk|loopback"

/-- The wired link. -/
structure EthLink where
  /-- `s_eth_admin_down`. -/
  adminDown : Bool
  up : Bool
  /-- The mode in the PHY; `none` negotiates. -/
  forced : Option (Int × Bool)
  /-- `none` while DHCP has none. -/
  address : Option Word
  deriving DecidableEq

/-- `net_eth_apply_request` on a PHY that takes its registers.  All but a stop lift it, all but a forced mode
reset the PHY, and the address goes. -/
def netEthApplyRequest (link : EthLink) : EthReq → EthLink
  | .down => { link with adminDown := true, up := false, address := none }
  | .speed mbit full =>
    { adminDown := false, up := false, address := none, forced := if mbit = 0 then none else some (mbit, full) }
  | .up | .restart | .refclk | .loopback _ _ =>
    { adminDown := false, up := false, address := none, forced := none }

theorem netEthApplyRequest_drops (link : EthLink) (req : EthReq) :
    (netEthApplyRequest link req).up = false ∧ (netEthApplyRequest link req).address = none := by
  cases req <;> exact ⟨rfl, rfl⟩

end ethernet

/-- The mixed verbs. -/
inductive MixedVerb
  | dacLimits
  | calibrate
  | eth
  | sigPolicy
  | lanPolicy
  | usbNetwork
  | module
  | cloudCa
  | cloudProxy
  | lanTls
  deriving DecidableEq

def MixedVerb.name : MixedVerb → List Byte
  | .dacLimits => cstr "dac_limits"
  | .calibrate => cstr "calibrate"
  | .eth => cstr "eth"
  | .sigPolicy => cstr "sig_policy"
  | .lanPolicy => cstr "lan_policy"
  | .usbNetwork => cstr "usb_network"
  | .module => cstr "module"
  | .cloudCa => cstr "cloud_ca"
  | .cloudProxy => cstr "cloud_proxy"
  | .lanTls => cstr "lan_tls"

/-- The handler in the verb's row. -/
def MixedVerb.handle (pod : Services) (json : List Byte) : MixedVerb → Outcome
  | .dacLimits => handleDacLimits pod json
  | .calibrate => handleCalibrate pod json
  | .eth => handleEth pod json
  | .sigPolicy => handleSigPolicy pod json
  | .lanPolicy => handleLanPolicy pod json
  | .usbNetwork => handleUsbNetwork pod json
  | .module => handleModule pod json
  | .cloudCa => handleCloudCa pod json
  | .cloudProxy => handleCloudProxy pod json
  | .lanTls => handleLanTls pod json

theorem MixedVerb.row (verb : MixedVerb) :
    ∃ row, cmdFind verb.name = some row ∧ row.name = verb.name ∧ row.flags.contains .mixed = true := by
  cases verb <;> exact ⟨_, rfl, rfl, rfl⟩

theorem mixed_row : ∀ row ∈ rows, row.flags.contains .mixed = true → ∃ verb : MixedVerb, verb.name = row.name := by
  have names : (rows.filter fun row => row.flags.contains .mixed).map Row.name =
      [MixedVerb.dacLimits, .calibrate, .eth, .sigPolicy, .lanPolicy, .usbNetwork, .module, .cloudCa, .cloudProxy,
        .lanTls].map MixedVerb.name := by
    decide +kernel
  intro row mem mixed
  have name : row.name ∈ (rows.filter fun row => row.flags.contains .mixed).map Row.name :=
    List.mem_map_of_mem (List.mem_filter.mpr ⟨mem, mixed⟩)
  rw [names] at name
  obtain ⟨verb, -, same⟩ := List.mem_map.mp name
  exact ⟨verb, same⟩

section reads

variable {pod : Services} {json : List Byte}

theorem given_eq (key : String) {outLen : Nat} (room : 2 ≤ outLen) : given json key = (field json key outLen).isSome :=
  bpJsonGet_isSome (by omega) room

theorem field_absent {key : String} (absent : given json key = false) {outLen : Nat} (room : 2 ≤ outLen) :
    field json key outLen = none := by
  rw [given_eq key room] at absent
  simpa using absent

theorem field_other {key text : String} (other : reads json key text = false) {outLen : Nat}
    (room : (cstr text).length < outLen - 1) (le : outLen ≤ 16) :
    field json key outLen ≠ some (cstr text) := by
  intro got
  have longer := bpJsonGet_grows le got room
  simp [reads, longer] at other

theorem field_word {key text : String} (word : readsOther json key text = false) :
    field json key 16 = none ∨ field json key 16 = some (cstr text) := by
  cases got : field json key 16 with
  | none => exact .inl rfl
  | some value =>
    have there : given json key = true := by
      have there : given json key = (field json key 16).isSome := given_eq key (by decide)
      rwa [got] at there
    have reads : reads json key text = true := by simpa [readsOther, there] using word
    have same : field json key 16 = some (cstr text) := by simpa [Command.reads, field] using reads
    exact .inr (got ▸ same)

theorem dacLimits_reads (read : mixedWrite (cstr "dac_limits") json = false) : (handleDacLimits pod json).1 = [] := by
  unfold mixedWrite at read
  rw [if_pos rfl, Bool.or_eq_false_iff] at read
  unfold handleDacLimits
  rw [if_neg (field_other read.2 (by decide) (Nat.le_refl _)), field_absent read.1 (by decide)]
  rfl

theorem calibrate_reads (read : mixedWrite (cstr "calibrate") json = false) : (handleCalibrate pod json).1 = [] := by
  unfold mixedWrite at read
  rw [if_neg (by decide), if_pos rfl] at read
  simp only [Bool.or_eq_false_iff] at read
  obtain ⟨⟨⟨⟨source, dac⟩, adc⟩, comp⟩, clear⟩ := read
  have rest : handleCalibrate.rest pod json = report := by
    unfold handleCalibrate.rest
    rw [field_absent dac (by decide), field_absent comp (by decide), field_absent adc (by decide),
      field_absent source (by decide)]
  unfold handleCalibrate
  rcases field_word clear with absent | off
  · rw [absent, rest]
    rfl
  · rw [off]
    dsimp only
    rw [if_neg (by simp), rest]
    rfl

theorem sigPolicy_reads (read : mixedWrite (cstr "sig_policy") json = false) : (handleSigPolicy pod json).1 = [] := by
  unfold mixedWrite at read
  rw [if_neg (by decide), if_neg (by decide), if_pos (.inl rfl)] at read
  unfold handleSigPolicy
  rw [field_absent read (by decide)]
  rfl

theorem lanPolicy_reads (read : mixedWrite (cstr "lan_policy") json = false) : (handleLanPolicy pod json).1 = [] := by
  unfold mixedWrite at read
  rw [if_neg (by decide), if_neg (by decide), if_pos (.inr (.inl rfl))] at read
  unfold handleLanPolicy
  rw [field_absent read (by decide)]
  rfl

theorem usbNetwork_reads (read : mixedWrite (cstr "usb_network") json = false) : (handleUsbNetwork pod json).1 = [] := by
  unfold mixedWrite at read
  rw [if_neg (by decide), if_neg (by decide), if_pos (.inr (.inr rfl))] at read
  unfold handleUsbNetwork
  rw [field_absent read (by decide)]
  rfl

theorem moduleRead_reads : (moduleRead pod json).1 = [] := by
  unfold moduleRead
  split
  · split
    · rfl
    · split <;> rfl
  · rfl

theorem module_reads (read : mixedWrite (cstr "module") json = false) : (handleModule pod json).1 = [] := by
  unfold mixedWrite at read
  iterate 5 rw [if_neg (by decide)] at read
  rw [if_pos rfl] at read
  unfold handleModule
  by_cases link : pod.moduleLink = false
  · rw [if_pos link]
    rfl
  · rw [if_neg link]
    rcases field_word read with absent | asked
    · rw [absent]
      rfl
    · rw [asked]
      dsimp only
      by_cases present : pod.modulePresent = false
      · rw [if_pos present]
        rfl
      · rw [if_neg present, if_pos rfl]
        exact moduleRead_reads

theorem cloudCa_reads (read : mixedWrite (cstr "cloud_ca") json = false) : (handleCloudCa pod json).1 = [] := by
  unfold mixedWrite at read
  rw [if_neg (by decide), if_neg (by decide), if_neg (by decide), if_pos (.inl rfl), Bool.or_eq_false_iff] at read
  unfold handleCloudCa
  rw [if_neg (field_other read.2 (by decide) (by decide))]
  rfl

theorem cloudProxy_reads (read : mixedWrite (cstr "cloud_proxy") json = false) : (handleCloudProxy pod json).1 = [] := by
  unfold mixedWrite at read
  rw [if_neg (by decide), if_neg (by decide), if_neg (by decide), if_pos (.inr rfl), Bool.or_eq_false_iff] at read
  unfold handleCloudProxy
  rw [field_absent read.1 (by decide)]
  dsimp only
  rw [if_neg (field_other read.2 (by decide) (by decide))]
  rfl

theorem lanTls_reads (read : mixedWrite (cstr "lan_tls") json = false) : (handleLanTls pod json).1 = [] := by
  unfold mixedWrite at read
  rw [if_neg (by decide), if_neg (by decide), if_neg (by decide), if_neg (by decide), if_pos rfl,
    Bool.or_eq_false_iff] at read
  have first : setHttpsOnly pod json = report := by
    unfold setHttpsOnly
    rw [field_absent read.1 (by decide)]
  unfold handleLanTls
  rw [first, if_neg (by decide), if_neg (field_other read.2 (by decide) (by decide))]
  rfl

theorem eth_reads (read : mixedWrite (cstr "eth") json = false) :
    ∀ change ∈ (handleEth pod json).1, change = .eth .refclk := by
  unfold mixedWrite at read
  iterate 6 rw [if_neg (by decide)] at read
  rw [if_pos rfl] at read
  unfold handleEth
  have word : field json "action" 16 = some (cstr "stats") ∨ field json "action" 16 = some (cstr "refclk") := by
    simpa [reads, field, or_iff_not_imp_left] using read
  rcases word with stats | refclk
  · rw [stats]
    simp [report]
  · rw [refclk]
    dsimp only [Option.getD]
    rw [if_neg (by decide), if_neg (by decide), if_pos rfl]
    simp

theorem MixedVerb.reads {verb : MixedVerb} (read : mixedWrite verb.name json = false) :
    ∀ change ∈ (verb.handle pod json).1, change = .eth .refclk := by
  have idle {outcome : Outcome} (none : outcome.1 = []) : ∀ change ∈ outcome.1, change = .eth .refclk := by simp [none]
  cases verb with
  | dacLimits => exact idle (dacLimits_reads read)
  | calibrate => exact idle (calibrate_reads read)
  | eth => exact eth_reads read
  | sigPolicy => exact idle (sigPolicy_reads read)
  | lanPolicy => exact idle (lanPolicy_reads read)
  | usbNetwork => exact idle (usbNetwork_reads read)
  | module => exact idle (module_reads read)
  | cloudCa => exact idle (cloudCa_reads read)
  | cloudProxy => exact idle (cloudProxy_reads read)
  | lanTls => exact idle (lanTls_reads read)

theorem MixedVerb.tier {verb : MixedVerb} (write : mixedWrite verb.name json = true) :
    cmdTierOf (cmdFind verb.name) json = .t2 := by
  obtain ⟨row, found, name, mixed⟩ := verb.row
  unfold cmdTierOf
  rw [found]
  dsimp only
  rw [name, write, mixed]
  rfl

/-- A line whose handler asks for a lasting change, the clock measurement apart, is at least T2, and neither
a locked LAN nor a tunnel below T2 gets it past the gates. -/
theorem mixed_change_gated (verb : MixedVerb) (pod : Services) (json : List Byte) (change : Change)
    (asked : change ∈ (verb.handle pod json).1) (lasting : change ≠ .eth .refclk) :
    2 ≤ (cmdTierOf (cmdFind verb.name) json).num ∧
      (∀ ctx : GateCtx, ctx.src = .lan → ctx.usbLink = false → ctx.lanPolicy ≠ .lanOpen →
        cmdGateCheck verb.name json (cmdTierOf (cmdFind verb.name) json) ctx ≠ none) ∧
      ∀ (ctx : GateCtx) (most : Int), ctx.tunnelMaxTier = some most → 0 ≤ most → most < 2 →
        cmdGateCheck verb.name json (cmdTierOf (cmdFind verb.name) json) ctx ≠ none := by
  have write : mixedWrite verb.name json = true := by
    cases write : mixedWrite verb.name json with
    | true => rfl
    | false => exact absurd (MixedVerb.reads write change asked) lasting
  rw [MixedVerb.tier write]
  refine ⟨by decide, ?_, ?_⟩
  · intro ctx lan remote locked
    unfold cmdGateCheck
    rw [if_pos ⟨by decide, lan, remote, locked⟩]
    simp
  · intro ctx most tunnel nonneg below passed
    have within := gate_tunnel tunnel nonneg passed
    exact absurd within (by simpa [Tier.num] using below)

/-- Clearing the output limits is refused from a locked LAN. -/
theorem mixed_change_gated_limits :
    2 ≤ (cmdTierOf (cmdFind (cstr "dac_limits")) (cstr "\x7b\"cmd\":\"dac_limits\",\"enabled\":false\x7d")).num :=
  (mixed_change_gated .dacLimits {} (cstr "\x7b\"cmd\":\"dac_limits\",\"enabled\":false\x7d") .dacLimitsClear
    (by decide +kernel) (by decide)).1

/-- The clock measurement is T0 and passes a locked LAN and a tunnel that only reads, and it brings a link back
that was stopped and forces no mode any more. -/
theorem refclk_passes :
    Change.eth .refclk ∈ (MixedVerb.eth.handle {} (cstr "\x7b\"action\":\"refclk\"\x7d")).1 ∧
      cmdTierOf (cmdFind (cstr "eth")) (cstr "\x7b\"action\":\"refclk\"\x7d") = .t0 ∧
      cmdGateCheck (cstr "eth") (cstr "\x7b\"action\":\"refclk\"\x7d") .t0
        { src := .lan, lanPolicy := .lanLocked, usbLink := false, leaseActive := false, leaseLeftS := 0,
          leaseHolder := [], tunnelMaxTier := none, skipHw := false, hasAnalog := true } = none ∧
      cmdGateCheck (cstr "eth") (cstr "\x7b\"action\":\"refclk\"\x7d") .t0
        { src := .cloud, lanPolicy := .lanLocked, usbLink := false, leaseActive := false, leaseLeftS := 0,
          leaseHolder := [], tunnelMaxTier := some 0, skipHw := false, hasAnalog := true } = none ∧
      netEthApplyRequest { adminDown := true, up := false, forced := some (10, true), address := none } .refclk =
        { adminDown := false, up := false, forced := none, address := none } := by
  decide +kernel

end reads

end BenchPod.Command
