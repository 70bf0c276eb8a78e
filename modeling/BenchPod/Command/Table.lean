import BenchPod.Json.Get

/-!
# The command table and its gates

Every JSON verb has one row: its tier and what the gates need to know about it.  A line is refused by
the first gate that objects; the refusals are the texts that are sent.
-/

namespace BenchPod.Command

open Json

/-- How much a command can change. -/
inductive Tier
  | t0
  | t1
  | t2
  | t3
  deriving DecidableEq

/-- The number of a tier. -/
def Tier.num : Tier → Int
  | .t0 => 0
  | .t1 => 1
  | .t2 => 2
  | .t3 => 3

/-- What the gates read of a row. -/
inductive Flag
  | noHw
  | analog
  | heavy
  | mixed
  deriving DecidableEq

structure Row where
  name : List Byte
  tier : Tier
  flags : List Flag
  deriving DecidableEq

def row (name : String) (tier : Tier) (flags : List Flag) : Row := ⟨cstr name, tier, flags⟩

/-- `k_tiers`. -/
def rows : List Row :=
  [ row "ping" .t0 [.noHw],
    row "status" .t0 [.noHw],
    row "cloud_status" .t0 [.noHw],
    row "wifi_status" .t0 [.noHw],
    row "wifi_scan" .t0 [.noHw],
    row "la_pins" .t0 [],
    row "usb_cc" .t0 [.noHw],
    row "target_status" .t0 [.noHw],
    row "power_status" .t0 [.noHw],
    row "identity_public" .t0 [.noHw],
    row "identity_pop" .t0 [.noHw],
    row "identity_wipe" .t0 [.noHw],
    row "spi_status" .t0 [],
    row "sensor_status" .t0 [],
    row "sensor_types" .t0 [],
    row "gps_status" .t0 [],
    row "can_status" .t0 [.noHw],
    row "ota_status" .t0 [],
    row "blob_status" .t0 [],
    row "dac_loop_probe" .t0 [.analog],
    row "capture" .t0 [.analog, .heavy],
    row "capture_dual" .t0 [.heavy],
    row "capture_read" .t0 [.heavy],
    row "stream" .t0 [.analog, .heavy],
    row "la_capture" .t0 [.heavy],
    row "sensor_regs" .t0 [.heavy],
    row "sensor_la" .t0 [.heavy],
    row "can_read" .t0 [.noHw, .heavy],
    row "psram_ping" .t0 [.heavy],
    row "test" .t0 [.heavy],
    row "dac_limits" .t0 [.noHw, .analog, .mixed],
    row "calibrate" .t0 [.analog, .mixed],
    row "eth" .t0 [.noHw, .mixed],
    row "sig_policy" .t0 [.mixed],
    row "lan_policy" .t0 [.mixed],
    row "usb_network" .t0 [.mixed],
    row "module" .t0 [.noHw, .mixed],
    row "cloud_ca" .t0 [.mixed],
    row "cloud_proxy" .t0 [.mixed],
    row "lan_tls" .t0 [.mixed],
    row "generate" .t1 [.analog],
    row "measure" .t1 [.analog],
    row "load" .t1 [.analog],
    row "load_bin" .t1 [.analog],
    row "replay" .t1 [.analog],
    row "dac_stop" .t1 [],
    row "dac_set" .t1 [.analog],
    row "dac_mux" .t1 [.analog],
    row "cal_switch" .t1 [.analog],
    row "analog_path" .t1 [.analog],
    row "dac_out" .t1 [.analog],
    row "current_out" .t1 [.analog],
    row "adc_read" .t1 [.analog],
    row "adc_range" .t1 [.analog],
    row "dac_control_loop" .t1 [.analog],
    row "dac_loop_input" .t1 [.analog],
    row "la" .t1 [],
    row "gpio" .t1 [],
    row "la_voltage" .t1 [.noHw],
    row "nrst" .t1 [.noHw],
    row "target_power" .t1 [.noHw],
    row "module_power" .t1 [],
    row "power_profile" .t1 [.noHw],
    row "dap_start" .t1 [],
    row "uart_proxy_start" .t1 [],
    row "spi_start" .t1 [],
    row "spi_stop" .t1 [],
    row "spi_xfer" .t1 [],
    row "spi_stream" .t1 [],
    row "spi_flash" .t1 [],
    row "sensor_start" .t1 [],
    row "sensor_set" .t1 [],
    row "sensor_stop" .t1 [],
    row "gps_start" .t1 [],
    row "gps_set" .t1 [],
    row "gps_stop" .t1 [],
    row "can_config" .t1 [.noHw],
    row "can_write" .t1 [.noHw],
    row "can_term" .t1 [.noHw],
    row "can_respond" .t1 [.noHw],
    row "can_disable" .t1 [.noHw],
    row "speedtest" .t1 [.noHw],
    row "fpga_image" .t1 [],
    row "psram_recover" .t1 [],
    row "cloud_set" .t2 [.noHw],
    row "cloud_clear" .t2 [.noHw],
    row "wifi_set" .t2 [.noHw],
    row "wifi_clear" .t2 [.noHw],
    row "ota_begin" .t3 [],
    row "ota_data" .t3 [],
    row "ota_end" .t3 [],
    row "ota_commit" .t3 [],
    row "ota_abort" .t3 [],
    row "ota_selftest" .t3 [] ]

def cmdFind (cmd : List Byte) : Option Row := rows.find? fun row => row.name == cmd

def cmdHas (d : Option Row) (flag : Flag) : Bool :=
  match d with
  | none => false
  | some row => row.flags.contains flag

/-- A field is there. -/
def given (json : List Byte) (key : String) : Bool := (bpJsonGet json (cstr key) 16).isSome

/-- A field is there and reads as `text`. -/
def reads (json : List Byte) (key text : String) : Bool := bpJsonGet json (cstr key) 16 == some (cstr text)

/-- A field is there and reads as something else. -/
def readsOther (json : List Byte) (key text : String) : Bool := given json key && !reads json key text

/-- `mixed_write`: the write forms of the verbs that read and write. -/
def mixedWrite (cmd json : List Byte) : Bool :=
  if cmd = cstr "dac_limits" then given json "path" || reads json "enabled" "false"
  else if cmd = cstr "calibrate" then
    given json "source" || given json "dac" || given json "adc" || given json "comp_hf_dc_e4" ||
      readsOther json "clear" "false"
  else if cmd = cstr "sig_policy" ∨ cmd = cstr "lan_policy" ∨ cmd = cstr "usb_network" then
    given json "set"
  else if cmd = cstr "cloud_ca" ∨ cmd = cstr "cloud_proxy" then
    given json "set" || reads json "clear" "true"
  else if cmd = cstr "lan_tls" then given json "https_only" || reads json "regenerate" "true"
  else if cmd = cstr "module" then readsOther json "eeprom" "read"
  else if cmd = cstr "eth" then !reads json "action" "stats" && !reads json "action" "refclk"
  else false

def cmdTierOf (d : Option Row) (json : List Byte) : Tier :=
  match d with
  | none => .t3
  | some row => if row.flags.contains .mixed && mixedWrite row.name json then .t2 else row.tier

def cmdTierLight (cmd json : List Byte) : Bool :=
  match cmdFind cmd with
  | none => false
  | some row => !row.flags.contains .heavy && cmdTierOf (some row) json == .t0

/-- Where a command came from. -/
inductive PolicySrc
  | usb
  | cloud
  | lan
  deriving DecidableEq

/-- `pod_lan_policy_t`. -/
inductive LanPolicy
  | lanOpen
  | lanLocked
  | lanOff
  deriving DecidableEq

/-- `cmd_gate_ctx_t`. -/
structure GateCtx where
  src : PolicySrc
  lanPolicy : LanPolicy
  usbLink : Bool
  leaseActive : Bool
  leaseLeftS : Word
  leaseHolder : List Byte
  /-- `none` when the connection is not a tunnel. -/
  tunnelMaxTier : Option Int
  skipHw : Bool
  hasAnalog : Bool

/-- What `snprintf` leaves in `why`. -/
def why (text : List Byte) : List Byte := text.take 111

/-- `atoi`, for digits that stand at the start after white space and a sign. -/
def atoi (text : List Byte) : Int :=
  let digits (p : List Byte) : Int :=
    (p.takeWhile fun c => ascii '0' ≤ c && c ≤ ascii '9').foldl
      (fun value c => 10 * value + (c - ascii '0').toNat) 0
  match text.dropWhile fun c => isWs c || c == 11 || c == 12 with
  | [] => 0
  | c :: rest =>
    if c = ascii '-' then -digits rest
    else if c = ascii '+' then digits rest
    else digits (c :: rest)

def safeModeText : List Byte := cstr "safe mode: iCE40/PSRAM are off. Unplug and replug the pod"

def noAnalogText : List Byte :=
  cstr "this BenchPod has no analog front end (digital board): no DAC, ADC or analog outputs. " ++
    cstr "Restart the pod after fitting an analog add-on"

def cmdGateDevice (cmd json : List Byte) (skipHw hasAnalog : Bool) : Option (List Byte) :=
  if skipHw && !cmdHas (cmdFind cmd) .noHw then some safeModeText
  else if hasAnalog then none
  else
    let adcCapture := cmd == cstr "capture_dual" && decide (0 < atoi ((bpJsonGet json (cstr "adc_samples") 16).getD []))
    if adcCapture || cmdHas (cmdFind cmd) .analog then some noAnalogText else none

/-- `cmd_gate_check`: the refusal of the first gate that objects. -/
def cmdGateCheck (cmd json : List Byte) (tier : Tier) (ctx : GateCtx) : Option (List Byte) :=
  if 2 ≤ tier.num ∧ ctx.src = .lan ∧ ctx.usbLink = false ∧ ctx.lanPolicy ≠ .lanOpen then
    some (why (cstr "locked: " ++ cmd ++ cstr " needs the cloud or USB"))
  else if ctx.src = .lan ∧ ctx.leaseActive = true ∧ cmdTierLight cmd json = false then
    some (why (cstr "busy: a cloud job holds this pod (" ++
      (if ctx.leaseHolder = [] then cstr "cloud" else ctx.leaseHolder) ++ cstr ", " ++
      cstr (toString ctx.leaseLeftS.toNat) ++ cstr " s left)"))
  else if ctx.tunnelMaxTier.any (fun most => decide (0 ≤ most ∧ most < tier.num)) then
    some (why (cstr "forbidden: " ++ cmd ++ cstr " needs an organization owner or admin"))
  else cmdGateDevice cmd json ctx.skipHw ctx.hasAnalog

/-- `cmd_gate_scpi_line_writes`: some part of the line is no query. -/
def scpiLineWrites (line : List Byte) : Bool := (line.splitOn (ascii ';')).any fun part => !part.contains (ascii '?')

/-- The tier of a SCPI line: a query reads, anything else sets. -/
def scpiTier (line : List Byte) : Tier := if scpiLineWrites line then .t1 else .t0

theorem gate_tunnel {cmd json : List Byte} {tier : Tier} {ctx : GateCtx} {most : Int}
    (tunnel : ctx.tunnelMaxTier = some most) (nonneg : 0 ≤ most)
    (passed : cmdGateCheck cmd json tier ctx = none) : tier.num ≤ most := by
  unfold cmdGateCheck at passed
  split at passed
  · cases passed
  · split at passed
    · cases passed
    · split at passed
      · cases passed
      · rename_i within
        simp only [tunnel, Option.any_some, decide_eq_true_eq, not_and] at within
        have := within nonneg
        omega

theorem rows_nodup : (rows.map Row.name).Nodup := by
  decide +kernel

end BenchPod.Command
