import BenchPod.Command.Table

/-!
# From bytes to commands

The byte stream of a connection is cut into lines, and every line is a JSON command or a SCPI line.
Each byte carries the tier its sender was given when it was accepted, so that a command can be held
against all the bytes it was made of.
-/

namespace BenchPod.Command

open Json

def lineAsmSize : Nat := 1280

/-- `proto_t`. -/
inductive Proto
  | unknown
  | json
  | scpi
  | uart
  | dap
  | load
  | speedtest
  deriving DecidableEq

/-- The bytes go to the module that owns the mode. -/
def Proto.raw : Proto → Bool
  | .uart | .dap | .load | .speedtest => true
  | .unknown | .json | .scpi => false

/-- A byte and the highest tier its sender may use. -/
structure Sent where
  byte : Byte
  most : Int
  deriving DecidableEq

/-- `line_asm_t` and the protocol of a connection. -/
structure Conn where
  buf : List Sent := []
  discarding : Bool := false
  proto : Proto := .unknown
  deriving DecidableEq

/-- A line that is dispatched, its newline included. -/
structure Line where
  proto : Proto
  bytes : List Sent
  deriving DecidableEq

/-- The line as a C string. -/
def Line.text (line : Line) : List Byte := (line.bytes.dropLast.map Sent.byte).takeWhile (· ≠ 0)

/-- One byte of `command_handler_process`, and the line it completes. -/
def Conn.feed (conn : Conn) (sent : Sent) : Conn × Option Line :=
  if conn.proto.raw then (conn, none)
  else if sent.byte = ascii '\r' then (conn, none)
  else if sent.byte = ascii '\n' then
    if conn.discarding then ({ conn with discarding := false, buf := [] }, none)
    else if conn.buf = [] then (conn, none)
    else ({ conn with buf := [] }, some ⟨conn.proto, conn.buf ++ [sent]⟩)
  else if conn.discarding then (conn, none)
  else if conn.proto = .unknown ∧ (sent.byte = ascii ' ' ∨ sent.byte = ascii '\t') then (conn, none)
  else
    let proto :=
      if conn.proto = .unknown then (if sent.byte = ascii '\x7b' then .json else .scpi) else conn.proto
    if conn.buf.length < lineAsmSize - 1 then ({ conn with buf := conn.buf ++ [sent], proto }, none)
    else ({ buf := [], discarding := true, proto }, none)

/-- What the pod makes of a line when it is dispatched. -/
structure Pod where
  lanPolicy : LanPolicy
  usbLink : Bool
  skipHw : Bool
  hasAnalog : Bool
  /-- The output limits refuse the command. -/
  limitsRefuse : Bool
  /-- The SCPI parser finds a command and runs it. -/
  scpiRuns : Bool

/-- The snapshot of `dispatch_line` for a line of a tunnel. -/
def tunnelCtx (pod : Pod) (maxTier : Int) : GateCtx where
  src := .cloud
  lanPolicy := pod.lanPolicy
  usbLink := pod.usbLink
  leaseActive := false
  leaseLeftS := 0
  leaseHolder := []
  tunnelMaxTier := some maxTier
  skipHw := pod.skipHw
  hasAnalog := pod.hasAnalog

/-- `dispatch_line` on a tunnel: the tier of the command that is run. -/
def dispatchLine (pod : Pod) (maxTier : Int) (buf : List Byte) : Option Tier :=
  match bpJsonGet buf (cstr "cmd") 32 with
  | none => none
  | some cmd =>
    let d := cmdFind cmd
    let tier := cmdTierOf d buf
    if (cmdGateCheck cmd buf tier (tunnelCtx pod maxTier)).isSome then none
    else if pod.limitsRefuse then none
    else if d.isSome then some tier
    else none

/-- A line of a tunnel: the tier of the command that is run.  SCPI lines take no gate. -/
def Line.dispatch (line : Line) (pod : Pod) (maxTier : Int) : Option Tier :=
  if line.proto = .scpi then (if pod.scpiRuns then some (scpiTier line.text) else none)
  else dispatchLine pod maxTier line.text

theorem dispatchLine_le {pod : Pod} {maxTier : Int} {buf : List Byte} {tier : Tier}
    (nonneg : 0 ≤ maxTier) (ran : dispatchLine pod maxTier buf = some tier) : tier.num ≤ maxTier := by
  unfold dispatchLine at ran
  split at ran
  · cases ran
  · rename_i cmd found
    dsimp only at ran
    split at ran
    · cases ran
    · rename_i passed
      split at ran
      · cases ran
      · split at ran
        · cases ran
          have gate : cmdGateCheck cmd buf (cmdTierOf (cmdFind cmd) buf) (tunnelCtx pod maxTier) = none := by
            simpa using passed
          exact gate_tunnel rfl nonneg gate
        · cases ran

theorem Conn.feed_bytes (conn : Conn) (sent : Sent) :
    (∀ old ∈ (conn.feed sent).1.buf, old ∈ conn.buf ∨ old = sent) ∧
      ∀ line ∈ (conn.feed sent).2, ∀ old ∈ line.bytes, old ∈ conn.buf ∨ old = sent := by
  unfold feed
  split
  · simp +contextual
  · split
    · simp +contextual
    · split
      · split
        · simp
        · split
          · simp +contextual
          · simp
      · split
        · simp +contextual
        · split
          · simp +contextual
          · dsimp only
            split
            · simp
            · simp

end BenchPod.Command
