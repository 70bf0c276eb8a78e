import BenchPod.Json.Anywhere

/-!
# The emitter and what is read back

The builder of `bp_json.c` appends to a buffer as long as everything fits, and gives up for good with the
first append that does not.  A string it has written is read back by the flat reader, a control character
that has no escape of its own as a question mark.
-/

namespace BenchPod.Json

/-- `bp_emit_t`, with all the bytes of its buffer. -/
structure Emit where
  buf : List Byte
  len : Nat
  ok : Bool
  deriving DecidableEq

/-- What `vsnprintf` makes of a format: its text, or an error with whatever it wrote before. -/
inductive Formatted
  | text (bytes : List Byte)
  | error (written : List Byte)

/-- Bytes put into a buffer at an offset. -/
def overwrite (buf : List Byte) (offset : Nat) (bytes : List Byte) : List Byte :=
  buf.take offset ++ bytes ++ buf.drop (offset + bytes.length)

namespace Emit

/-- `bp_emit_init`. -/
def init (buf : List Byte) : Emit where
  buf := overwrite buf 0 (if 0 < buf.length then [0] else [])
  len := 0
  ok := 0 < buf.length

/-- What was written so far. -/
def written (e : Emit) : List Byte := e.buf.take e.len

def emitBytes (e : Emit) (s : List Byte) : Emit :=
  if e.ok then
    if e.buf.length - e.len < s.length + 1 then { e with ok := false }
    else
      { e with
        buf := overwrite (overwrite e.buf e.len s) (e.len + s.length) [0]
        len := e.len + s.length }
  else e

def bpEmit (e : Emit) (formatted : Formatted) : Emit :=
  if e.ok then
    let space := e.buf.length - e.len
    match formatted with
    | .error bytes =>
      { e with
        buf := overwrite (overwrite e.buf e.len (bytes.take space)) e.len [0]
        ok := false }
    | .text bytes =>
      let buf := overwrite e.buf e.len (bytes.take (space - 1) ++ [0])
      if space ≤ bytes.length then { e with buf := overwrite buf e.len [0], ok := false }
      else { e with buf := buf, len := e.len + bytes.length }
  else e

/-- A hexadecimal digit as `%x` prints it. -/
def hexDigit (value : Nat) : Byte := if value < 10 then ascii '0' + BitVec.ofNat 8 value
  else ascii 'a' + BitVec.ofNat 8 (value - 10)

/-- What `bp_emit_jstr` writes for a character. -/
def escaped (c : Byte) : List Byte :=
  if c = ascii '"' then cstr "\\\""
  else if c = ascii '\\' then cstr "\\\\"
  else if c = ascii '\n' then cstr "\\n"
  else if c = ascii '\r' then cstr "\\r"
  else if c = ascii '\t' then cstr "\\t"
  else if c.toNat < 0x20 then cstr "\\u00" ++ [hexDigit (c.toNat / 16), hexDigit (c.toNat % 16)]
  else [c]

/-- The loop of `bp_emit_jstr`. -/
def emitChars (e : Emit) : List Byte → Emit
  | [] => e
  | c :: s => if e.ok then emitChars (e.emitBytes (escaped c)) s else e

def bpEmitJstr (e : Emit) (s : List Byte) : Emit := ((e.emitBytes [ascii '"']).emitChars s).emitBytes [ascii '"']

/-- A call of the emitter. -/
inductive Call
  | emit (formatted : Formatted)
  | raw (s : List Byte)
  | jstr (s : List Byte)

def step (e : Emit) : Call → Emit
  | .emit formatted => e.bpEmit formatted
  | .raw s => e.emitBytes s
  | .jstr s => e.bpEmitJstr s

def run (e : Emit) (calls : List Call) : Emit := calls.foldl step e

/-- The C string in the buffer. -/
def cString (e : Emit) : List Byte := e.buf.takeWhile fun c => c ≠ 0

/-- A quoted and escaped string. -/
def quotedString (s : List Byte) : List Byte := ascii '"' :: s.flatMap escaped ++ [ascii '"']

/-- What a call is to append; nothing can be said of a format that fails. -/
def Call.bytes : Call → Option (List Byte)
  | .emit (.text bytes) => some bytes
  | .emit (.error _) => none
  | .raw s => some s
  | .jstr s => some (quotedString s)

/-! ## What an append does -/

/-- The buffer holds a string that ends inside it. -/
structure Ended (e : Emit) (cap : Nat) : Prop where
  length : e.buf.length = cap
  inside : e.len < cap
  nul : e.buf[e.len]? = some 0

/-- An append that fits, and one that does not. -/
inductive Appends (e after : Emit) : Option (List Byte) → Prop
  | fits {bytes : List Byte} (room : e.len + bytes.length < e.buf.length) (ok : after.ok = true)
      (written : after.written = e.written ++ bytes) : Appends e after (some bytes)
  | full {bytes : Option (List Byte)}
      (cut : ∀ text ∈ bytes, e.buf.length ≤ e.len + text.length) (ok : after.ok = false)
      (written : e.written <+: after.written) : Appends e after bytes

theorem length_overwrite {buf bytes : List Byte} {offset : Nat} (fits : offset + bytes.length ≤ buf.length) :
    (overwrite buf offset bytes).length = buf.length := by
  rw [overwrite, List.length_append, List.length_append, List.length_take, List.length_drop]
  omega

theorem take_overwrite {buf : List Byte} {offset count : Nat} (bytes : List Byte) (within : count ≤ offset)
    (fits : offset ≤ buf.length) : (overwrite buf offset bytes).take count = buf.take count := by
  rw [overwrite, List.append_assoc, List.take_append_of_le_length (by rw [List.length_take]; omega),
    List.take_take, Nat.min_eq_left within]

theorem take_overwrite_end {buf bytes : List Byte} {offset : Nat} (fits : offset ≤ buf.length) :
    (overwrite buf offset bytes).take (offset + bytes.length) = buf.take offset ++ bytes := by
  have length : (buf.take offset ++ bytes).length = offset + bytes.length := by
    rw [List.length_append, List.length_take]
    omega
  rw [overwrite, List.take_left' length]

theorem getElem_overwrite {buf bytes : List Byte} {offset i : Nat} (fits : offset ≤ buf.length)
    (inside : i < bytes.length) : (overwrite buf offset bytes)[offset + i]? = bytes[i]? := by
  have length : (buf.take offset).length = offset := List.length_take_of_le fits
  rw [overwrite, List.append_assoc, List.getElem?_append_right (by omega), length, Nat.add_sub_cancel_left,
    List.getElem?_append_left inside]

variable {e : Emit} {cap : Nat}

theorem length_written (ended : Ended e cap) : e.written.length = e.len := by
  rw [written, List.length_take, ended.length]
  exact Nat.min_eq_left ended.inside.le

theorem overwrite_concat {buf bytes : List Byte} {offset : Nat} (fits : offset + bytes.length < buf.length) :
    overwrite (overwrite buf offset bytes) (offset + bytes.length) [0] = overwrite buf offset (bytes ++ [0]) := by
  have first : (overwrite buf offset bytes).take (offset + bytes.length) = buf.take offset ++ bytes :=
    take_overwrite_end (by omega)
  have length : (buf.take offset ++ bytes).length = offset + bytes.length := by
    rw [List.length_append, List.length_take]
    omega
  have rest : (overwrite buf offset bytes).drop (offset + bytes.length + 1) = buf.drop (offset + bytes.length + 1) := by
    rw [overwrite, ← length, List.drop_length_add_append, length, List.drop_drop]
  rw [overwrite, first, List.length_singleton, rest, overwrite, List.length_append, List.length_singleton,
    List.append_assoc (buf.take offset)]
  rfl

theorem extended (ended : Ended e cap) {bytes : List Byte} (room : e.len + bytes.length < e.buf.length) (ok : Bool) :
    Ended ⟨overwrite e.buf e.len (bytes ++ [0]), e.len + bytes.length, ok⟩ cap ∧
      written ⟨overwrite e.buf e.len (bytes ++ [0]), e.len + bytes.length, ok⟩ = e.written ++ bytes := by
  have length := ended.length
  refine ⟨⟨?_, length ▸ room, ?_⟩, ?_⟩
  · rw [length_overwrite, length]
    rw [List.length_append, List.length_singleton]
    omega
  · refine (getElem_overwrite (by omega) (by simp)).trans ?_
    exact List.getElem?_concat_length
  · rw [← overwrite_concat room, written, take_overwrite [0] (Nat.le_refl _), take_overwrite_end (by omega)]
    · rfl
    · rw [length_overwrite room.le]
      exact room.le

theorem spilled (ended : Ended e cap) {bytes : List Byte} (room : e.len + bytes.length ≤ e.buf.length) (ok : Bool) :
    Ended ⟨overwrite (overwrite e.buf e.len bytes) e.len [0], e.len, ok⟩ cap ∧
      written ⟨overwrite (overwrite e.buf e.len bytes) e.len [0], e.len, ok⟩ = e.written := by
  have length := ended.length
  have inside := ended.inside
  have first : (overwrite e.buf e.len bytes).length = e.buf.length := length_overwrite room
  refine ⟨⟨?_, inside, ?_⟩, ?_⟩
  · rw [length_overwrite, first, length]
    rw [first, List.length_singleton]
    omega
  · exact getElem_overwrite ((Nat.le_of_add_right_le room).trans first.ge)
      (show 0 < ([0] : List Byte).length from Nat.one_pos)
  · rw [written, take_overwrite [0] (Nat.le_refl _), take_overwrite bytes (Nat.le_refl _)]
    · rfl
    · exact Nat.le_of_add_right_le room
    · rw [first]
      exact Nat.le_of_add_right_le room

theorem emitBytes_appends (ended : Ended e cap) (ok : e.ok = true) (s : List Byte) :
    Ended (e.emitBytes s) cap ∧ Appends e (e.emitBytes s) (some s) := by
  rw [emitBytes, if_pos ok]
  split
  · rename_i full
    refine ⟨⟨ended.length, ended.inside, ended.nul⟩, .full ?_ rfl List.prefix_rfl⟩
    rintro text ⟨⟩
    omega
  · rename_i fits
    have room : e.len + s.length < e.buf.length := by omega
    rw [overwrite_concat room]
    obtain ⟨still, text⟩ := extended ended room e.ok
    exact ⟨still, .fits room ok text⟩

theorem bpEmit_appends (ended : Ended e cap) (ok : e.ok = true) (formatted : Formatted) :
    Ended (e.bpEmit formatted) cap ∧ Appends e (e.bpEmit formatted) (Call.emit formatted).bytes := by
  have length := ended.length
  have inside := ended.inside
  rw [bpEmit, if_pos ok]
  cases formatted with
  | error bytes =>
    have room : e.len + (bytes.take (e.buf.length - e.len)).length ≤ e.buf.length := by
      rw [List.length_take]
      omega
    obtain ⟨still, text⟩ := spilled ended room false
    exact ⟨still, .full nofun rfl (text ▸ List.prefix_rfl)⟩
  | text bytes =>
    by_cases full : e.buf.length - e.len ≤ bytes.length
    · have room : e.len + (bytes.take (e.buf.length - e.len - 1) ++ [0]).length ≤ e.buf.length := by
        rw [List.length_append, List.length_take, List.length_singleton]
        omega
      obtain ⟨still, text⟩ := spilled ended room false
      dsimp only
      rw [if_pos full]
      refine ⟨still, .full ?_ rfl (text ▸ List.prefix_rfl)⟩
      rintro text ⟨⟩
      omega
    · have room : e.len + bytes.length < e.buf.length := by omega
      obtain ⟨still, text⟩ := extended ended room e.ok
      dsimp only
      rw [if_neg full, List.take_of_length_le (by omega)]
      exact ⟨still, .fits room ok text⟩

theorem emitBytes_stopped (stopped : e.ok = false) (s : List Byte) : e.emitBytes s = e :=
  if_neg (by rw [stopped]; exact Bool.false_ne_true)

theorem Appends.trans {middle after : Emit} {a b : List Byte} (ended : Ended e cap) (behind : Ended middle cap)
    (first : Appends e middle (some a)) (going : middle.ok = true → Appends middle after (some b))
    (stopped : middle.ok = false → after = middle) : Appends e after (some (a ++ b)) := by
  have same : e.buf.length = middle.buf.length := ended.length.trans behind.length.symm
  cases first with
  | fits room ok text =>
    have length : middle.len = e.len + a.length := by
      rw [← length_written behind, text, List.length_append, length_written ended]
    cases going ok with
    | fits more ok' text' =>
      refine .fits ?_ ok' ?_
      · rw [List.length_append]
        omega
      · rw [text', text, List.append_assoc]
    | full cut ok' text' =>
      refine .full ?_ ok' ?_
      · rintro text ⟨⟩
        have enough := cut b rfl
        rw [List.length_append]
        omega
      · exact ((List.prefix_append _ a).trans (text ▸ List.prefix_rfl)).trans text'
  | full cut ok text =>
    obtain rfl := stopped ok
    refine .full ?_ ok text
    rintro text ⟨⟩
    have enough := cut a rfl
    rw [List.length_append]
    omega

theorem emitChars_stopped (stopped : e.ok = false) (s : List Byte) : e.emitChars s = e := by
  cases s with
  | nil => rfl
  | cons c s => exact if_neg (by rw [stopped]; exact Bool.false_ne_true)

theorem emitChars_appends (ended : Ended e cap) (ok : e.ok = true) (s : List Byte) :
    Ended (e.emitChars s) cap ∧ Appends e (e.emitChars s) (some (s.flatMap escaped)) := by
  induction s generalizing e with
  | nil =>
    refine ⟨ended, .fits ?_ ok (List.append_nil _).symm⟩
    rw [ended.length]
    exact ended.inside
  | cons c s ih =>
    obtain ⟨behind, first⟩ := emitBytes_appends ended ok (escaped c)
    rw [emitChars, if_pos ok, List.flatMap_cons]
    rcases going : (e.emitBytes (escaped c)).ok with _ | _
    · rw [emitChars_stopped going]
      exact ⟨behind, first.trans ended behind (fun ok => Bool.noConfusion (going.symm.trans ok))
        fun _ => rfl⟩
    · obtain ⟨last, second⟩ := ih behind going
      exact ⟨last, first.trans ended behind (fun _ => second)
        fun stopped => Bool.noConfusion (going.symm.trans stopped)⟩

theorem bpEmitJstr_appends (ended : Ended e cap) (ok : e.ok = true) (s : List Byte) :
    Ended (e.bpEmitJstr s) cap ∧ Appends e (e.bpEmitJstr s) (some (quotedString s)) := by
  obtain ⟨opened, first⟩ := emitBytes_appends ended ok [ascii '"']
  have body : Ended ((e.emitBytes [ascii '"']).emitChars s) cap ∧
      Appends e ((e.emitBytes [ascii '"']).emitChars s) (some ([ascii '"'] ++ s.flatMap escaped)) := by
    rcases going : (e.emitBytes [ascii '"']).ok with _ | _
    · rw [emitChars_stopped going]
      exact ⟨opened, first.trans ended opened (fun ok => Bool.noConfusion (going.symm.trans ok)) fun _ => rfl⟩
    · obtain ⟨still, second⟩ := emitChars_appends opened going s
      exact ⟨still, first.trans ended opened (fun _ => second)
        fun stopped => Bool.noConfusion (going.symm.trans stopped)⟩
  obtain ⟨still, text⟩ := body
  rw [bpEmitJstr, quotedString]
  rcases going : ((e.emitBytes [ascii '"']).emitChars s).ok with _ | _
  · rw [emitBytes_stopped going]
    exact ⟨still, text.trans ended still (fun ok => Bool.noConfusion (going.symm.trans ok)) fun _ => rfl⟩
  · obtain ⟨closed, last⟩ := emitBytes_appends still going [ascii '"']
    exact ⟨closed, text.trans ended still (fun _ => last) fun stopped => Bool.noConfusion (going.symm.trans stopped)⟩

/-! ## Whole runs -/

theorem step_appends (ended : Ended e cap) (ok : e.ok = true) (call : Call) :
    Ended (e.step call) cap ∧ Appends e (e.step call) call.bytes := by
  cases call with
  | emit formatted => exact bpEmit_appends ended ok formatted
  | raw s => exact emitBytes_appends ended ok s
  | jstr s => exact bpEmitJstr_appends ended ok s

theorem step_stopped (stopped : e.ok = false) (call : Call) : e.step call = e := by
  have skip : ¬e.ok = true := by
    rw [stopped]
    exact Bool.false_ne_true
  cases call with
  | emit formatted => exact if_neg skip
  | raw s => exact emitBytes_stopped stopped s
  | jstr s => rw [step, bpEmitJstr, emitBytes_stopped stopped, emitChars_stopped stopped, emitBytes_stopped stopped]

theorem run_stopped (stopped : e.ok = false) (calls : List Call) : e.run calls = e := by
  induction calls with
  | nil => rfl
  | cons call calls ih =>
    rw [run, List.foldl_cons, step_stopped stopped]
    exact ih

theorem step_ended (ended : Ended e cap) (call : Call) : Ended (e.step call) cap := by
  rcases going : e.ok with _ | _
  · rw [step_stopped going]
    exact ended
  · exact (step_appends ended going call).1

theorem run_ended (ended : Ended e cap) (calls : List Call) : Ended (e.run calls) cap := by
  induction calls generalizing e with
  | nil => exact ended
  | cons call calls ih => exact ih (step_ended ended call)

theorem run_written (ended : Ended e cap) (calls : List Call) : e.written <+: (e.run calls).written := by
  induction calls generalizing e with
  | nil => exact List.prefix_rfl
  | cons call calls ih =>
    refine List.IsPrefix.trans ?_ (ih (step_ended ended call))
    rcases going : e.ok with _ | _
    · exact ⟨[], by rw [List.append_nil, step_stopped going]⟩
    · have appends := (step_appends ended going call).2
      generalize call.bytes = bytes at appends
      cases appends with
      | fits room ok text => exact text ▸ List.prefix_append _ _
      | full cut ok text => exact text

theorem step_ok (ended : Ended e cap) (call : Call) :
    (e.step call).ok = true ↔ e.ok = true ∧ ∃ bytes, call.bytes = some bytes ∧ e.len + bytes.length < cap := by
  rcases going : e.ok with _ | _
  · rw [step_stopped going, going]
    simp
  · have appends := (step_appends ended going call).2
    rw [← ended.length]
    generalize call.bytes = bytes at appends
    cases appends with
    | fits room ok text => simp [ok, room]
    | full cut ok text =>
      simp only [ok, Bool.false_eq_true, true_and, false_iff, not_exists, not_and, Nat.not_lt]
      exact fun bytes same => cut bytes same

theorem init_ended {buf : List Byte} (room : buf ≠ []) : Ended (init buf) buf.length := by
  have some : 0 < buf.length := List.length_pos_iff.mpr room
  refine ⟨?_, some, ?_⟩
  · rw [init, if_pos some]
    exact length_overwrite (Nat.succ_le_of_lt some)
  · rw [init, if_pos some]
    exact getElem_overwrite (Nat.zero_le _) (show 0 < ([0] : List Byte).length from Nat.one_pos)

end Emit

/-! ## Reading back -/

/-- The copy of a string value and where it stops. -/
def copyTo : Nat → List Byte → List Byte × List Byte
  | 0, text => ([], text)
  | _ + 1, [] => ([], [])
  | left + 1, c :: rest =>
    if c = ascii '"' then ([], c :: rest)
    else if c = ascii '\\' then
      match rest with
      | [] => ([c], [])
      | e :: rest => ((unescape e rest).1 :: (copyTo left (unescape e rest).2).1, (copyTo left (unescape e rest).2).2)
    else (c :: (copyTo left rest).1, (copyTo left rest).2)

/-- The text goes on where the copy stopped. -/
def cutShort (stop : List Byte) (ends : Byte → Bool) : Bool :=
  match stop with
  | [] => false
  | c :: _ => !ends c

/-- `bp_json_get_fit`: its result and what it leaves in a buffer of `outLen` bytes. -/
def bpJsonGetFit (json key : List Byte) (outLen : Nat) : Int × List Byte :=
  match findKey json key with
  | none => (0, [])
  | some [] => (0, [])
  | some (c :: rest) =>
    if c = ascii '"' then
      let copied := copyTo (outLen - 1) rest
      (if cutShort copied.2 (fun c => c == ascii '"') then -1 else 1, copied.1)
    else
      let out := ((c :: rest).takeWhile fun c => !endsBare c).take (outLen - 1)
      if out = [] then (0, [])
      else (if cutShort ((c :: rest).drop out.length) endsBare then -1 else 1, out)

/-- A character as it is read back: one that was written by its number is a question mark. -/
def readBack (c : Byte) : Byte :=
  if c.toNat < 0x20 ∧ c ≠ ascii '\n' ∧ c ≠ ascii '\r' ∧ c ≠ ascii '\t' then ascii '?' else c

open Emit

theorem copyTo_backslash (left : Nat) (c : Byte) (rest : List Byte) :
    copyTo (left + 1) (ascii '\\' :: c :: rest) =
      ((unescape c rest).1 :: (copyTo left (unescape c rest).2).1, (copyTo left (unescape c rest).2).2) := rfl

theorem unescape_numbered {high low : Byte} (highHex : isHexDigit high) (lowHex : isHexDigit low)
    (rest : List Byte) : unescape (ascii 'u') (ascii '0' :: ascii '0' :: high :: low :: rest) = (ascii '?', rest) := by
  have zero : isHexDigit (ascii '0') := by decide
  have skipped : skipHex 4 (ascii '0' :: ascii '0' :: high :: low :: rest) = rest := by
    rw [skipHex, if_pos zero, skipHex, if_pos zero, skipHex, if_pos highHex, skipHex, if_pos lowHex]
    cases rest <;> rfl
  rw [unescape, skipped]
  rfl

theorem isHexDigit_hexDigit {value : Nat} (digit : value < 16) : isHexDigit (hexDigit value) := by
  revert value
  decide

theorem copyTo_escaped (c : Byte) (left : Nat) (rest : List Byte) :
    copyTo (left + 1) (escaped c ++ rest) = (readBack c :: (copyTo left rest).1, (copyTo left rest).2) := by
  unfold escaped
  split_ifs with quote backslash newline return' tab control
  · subst quote
    exact copyTo_backslash left (ascii '"') rest
  · subst backslash
    exact copyTo_backslash left (ascii '\\') rest
  · subst newline
    exact copyTo_backslash left (ascii 'n') rest
  · subst return'
    exact copyTo_backslash left (ascii 'r') rest
  · subst tab
    exact copyTo_backslash left (ascii 't') rest
  · have numbered := unescape_numbered (isHexDigit_hexDigit (show c.toNat / 16 < 16 by omega))
      (isHexDigit_hexDigit (show c.toNat % 16 < 16 by omega)) rest
    have mark : readBack c = ascii '?' := if_pos ⟨control, newline, return', tab⟩
    refine (copyTo_backslash left (ascii 'u') _).trans ?_
    rw [mark]
    exact numbered ▸ rfl
  · have same : readBack c = c := if_neg fun numbered => control numbered.1
    rw [List.singleton_append, copyTo.eq_def, same]
    dsimp only
    rw [if_neg quote, if_neg backslash]

theorem copyTo_full (c : Byte) (rest : List Byte) (ends : Byte → Bool) (quote : ends = fun c => c == ascii '"') :
    cutShort (copyTo 0 (escaped c ++ rest)).2 ends = true := by
  have head : ∃ d more, escaped c = d :: more ∧ d ≠ ascii '"' := by
    unfold escaped
    split_ifs with quote
    all_goals first | exact ⟨_, _, rfl, quote⟩ | exact ⟨_, _, rfl, by decide⟩
  obtain ⟨d, more, same, other⟩ := head
  rw [same, quote]
  simpa [copyTo, cutShort] using other

theorem copyTo_quoted (s : List Byte) (left : Nat) (rest : List Byte) :
    (copyTo left (s.flatMap escaped ++ ascii '"' :: rest)).1 = (s.map readBack).take left ∧
      cutShort (copyTo left (s.flatMap escaped ++ ascii '"' :: rest)).2 (fun c => c == ascii '"') =
        decide (left < s.length) := by
  induction s generalizing left with
  | nil =>
    cases left with
    | zero => exact ⟨rfl, rfl⟩
    | succ left => exact ⟨rfl, rfl⟩
  | cons c s ih =>
    rw [List.flatMap_cons, List.append_assoc]
    cases left with
    | zero => exact ⟨rfl, (copyTo_full c _ _ rfl).trans (decide_eq_true (Nat.zero_lt_succ _)).symm⟩
    | succ left =>
      obtain ⟨copied, cut⟩ := ih left
      rw [copyTo_escaped, copied, cut]
      simp

theorem findNeedle_skip {key : List Byte} {head text : List Byte}
    (first : ∀ i < head.length, hit key ((head ++ text).drop i) = none) :
    findNeedle (needle key) (head ++ text) = findNeedle (needle key) text := by
  induction head with
  | nil => rfl
  | cons c head ih =>
    have here := first 0 (Nat.zero_lt_succ _)
    rw [List.drop_zero, List.cons_append] at here
    rw [List.cons_append, findNeedle_cons, here, Option.none_or]
    exact ih fun i inside => first (i + 1) (Nat.succ_lt_succ inside)

theorem hit_member {key before after : List Byte} (blank : Blank before) (blank' : Blank after) (rest : List Byte) :
    hit key (needle key ++ (before ++ ascii ':' :: (after ++ ascii '"' :: rest))) = some (ascii '"' :: rest) := by
  have starts (text : List Byte) : (needle key).isPrefixOf (needle key ++ text) = true :=
    List.isPrefixOf_iff_prefix.mpr (List.prefix_append _ text)
  rw [hit, if_pos (starts _), List.drop_left, colonValue, skipWs_blank blank, skipWs_solid (by decide)]
  dsimp only
  rw [if_pos rfl, skipWs_blank blank', skipWs_solid (by decide)]

theorem bpJsonGetFit_written {key head before after : List Byte} (short : key.length ≤ 61) (blank : Blank before)
    (blank' : Blank after) (s rest : List Byte) {json : List Byte}
    (text : json = head ++ (needle key ++ (before ++ ascii ':' :: (after ++ (quotedString s ++ rest)))))
    (first : ∀ i < head.length, hit key (json.drop i) = none) {outLen : Nat} (room : 0 < outLen) :
    bpJsonGetFit json key outLen =
      if s.length < outLen then (1, s.map readBack) else (-1, (s.map readBack).take (outLen - 1)) := by
  have quoted : quotedString s ++ rest = ascii '"' :: (s.flatMap escaped ++ ascii '"' :: rest) := by simp [quotedString]
  rw [quoted] at text
  have fits : ¬64 ≤ (needle key).length := by
    rw [needle, List.length_append, List.length_cons, List.length_singleton]
    omega
  have found : findKey json key = some (ascii '"' :: (s.flatMap escaped ++ ascii '"' :: rest)) := by
    have searched : findNeedle (needle key) json = some (ascii '"' :: (s.flatMap escaped ++ ascii '"' :: rest)) := by
      rw [text] at first ⊢
      rw [findNeedle_skip first]
      have here := @hit_member key before after blank blank' (s.flatMap escaped ++ ascii '"' :: rest)
      rw [needle, List.cons_append, List.cons_append] at here ⊢
      have step := findNeedle_cons key (ascii '"') (key ++ [ascii '"'] ++
        (before ++ ascii ':' :: (after ++ ascii '"' :: (s.flatMap escaped ++ ascii '"' :: rest))))
      rw [here] at step
      exact step
    rw [← searched]
    exact if_neg fits
  obtain ⟨copied, cut⟩ := copyTo_quoted s (outLen - 1) rest
  rw [bpJsonGetFit, found]
  dsimp only
  rw [if_pos rfl, copied, cut]
  by_cases whole : s.length < outLen
  · have enough : ¬outLen - 1 < s.length := by omega
    rw [if_pos whole, if_neg (by simpa using enough), List.take_of_length_le (by rw [List.length_map]; omega)]
  · have short : outLen - 1 < s.length := by omega
    rw [if_neg whole, if_pos (decide_eq_true short)]

theorem escaped_ne_zero {c : Byte} (some : c ≠ 0) : ∀ d ∈ escaped c, d ≠ 0 := by
  have digit {value : Nat} (small : value < 16) : hexDigit value ≠ 0 := by
    revert value
    decide
  unfold escaped
  split_ifs
  all_goals try decide
  · intro d member
    rcases List.mem_append.mp member with named | numbered
    · exact (show ∀ d ∈ cstr "\\u00", d ≠ 0 by decide) d named
    · rcases List.mem_pair.mp numbered with rfl | rfl
      · exact digit (by omega)
      · exact digit (by omega)
  · exact List.forall_mem_singleton.mpr some

theorem quotedString_ne_zero {s : List Byte} (fine : ∀ c ∈ s, c ≠ 0) : ∀ d ∈ quotedString s, d ≠ 0 := by
  intro d member
  rcases List.mem_append.mp member with inside | last
  · rcases List.mem_cons.mp inside with rfl | inside
    · decide
    · obtain ⟨c, there, written⟩ := List.mem_flatMap.mp inside
      exact escaped_ne_zero (fine c there) d written
  · obtain rfl := List.mem_singleton.mp last
    decide

theorem blank_ne_zero {pad : List Byte} (blank : Blank pad) : ∀ c ∈ pad, c ≠ 0 := by
  rintro c member rfl
  exact absurd (blank 0 member) (by decide)

theorem cString_written {e : Emit} {text : List Byte} (begins : text <+: e.written) (fine : ∀ c ∈ text, c ≠ 0) :
    ∃ rest, e.cString = text ++ rest := by
  obtain ⟨rest, same⟩ := begins.trans (List.take_prefix _ _)
  refine ⟨rest.takeWhile fun c => c ≠ 0, ?_⟩
  rw [cString, ← same]
  exact List.takeWhile_append_of_pos fun c member => decide_eq_true (fine c member)

/-- What is emitted as a string under a key is read back, and an emitter that gave up touches nothing. -/
theorem emitted_read_back :
    (∀ (buf : List Byte) (earlier later : List Call) (s key head before after : List Byte) (outLen : Nat),
      (∀ c ∈ s, c ≠ 0) → (∀ c ∈ key, c ≠ 0) → (∀ c ∈ head, c ≠ 0) → Blank before → Blank after →
      key.length ≤ 61 → 0 < outLen →
      ((init buf).run earlier).written = head ++ (needle key ++ (before ++ ascii ':' :: after)) →
      (((init buf).run earlier).bpEmitJstr s).ok = true →
      (∀ i < head.length, hit key (((((init buf).run earlier).bpEmitJstr s).run later).cString.drop i) = none) →
      bpJsonGetFit ((((init buf).run earlier).bpEmitJstr s).run later).cString key outLen =
        if s.length < outLen then (1, s.map readBack) else (-1, (s.map readBack).take (outLen - 1))) ∧
    ∀ buf ≠ [], ∀ calls,
      Ended ((init buf).run calls) buf.length ∧
      (((init buf).run calls).ok = false → ∀ more, ((init buf).run calls).run more = (init buf).run calls) ∧
      ∀ call, (((init buf).run calls).step call).ok = true ↔ ((init buf).run calls).ok = true ∧
        ∃ bytes, call.bytes = some bytes ∧ ((init buf).run calls).len + bytes.length < buf.length := by
  constructor
  · intro buf earlier later s key head before after outLen s_fine key_fine head_fine blank blank' short room
      written ok first
    have some : buf ≠ [] := by
      rintro rfl
      have stopped : (init []).run earlier = init [] := run_stopped rfl earlier
      rw [stopped] at ok
      exact Bool.noConfusion ((congrArg Emit.ok (step_stopped rfl (.jstr s))).symm.trans ok)
    have ended := run_ended (init_ended some) earlier
    obtain ⟨going, -⟩ := (step_ok ended (.jstr s)).mp ok
    obtain ⟨behind, appends⟩ := bpEmitJstr_appends ended going s
    have text : (((init buf).run earlier).bpEmitJstr s).written =
        head ++ (needle key ++ (before ++ ascii ':' :: after)) ++ quotedString s := by
      cases appends with
      | fits _ _ text => rw [text, written]
      | full _ stopped _ => exact Bool.noConfusion (stopped.symm.trans ok)
    have fine : ∀ c ∈ head ++ (needle key ++ (before ++ ascii ':' :: after)) ++ quotedString s, c ≠ 0 := by
      simp only [needle, List.forall_mem_append, List.forall_mem_cons]
      refine ⟨⟨head_fine, ⟨⟨by decide, key_fine⟩, ?_⟩, blank_ne_zero blank, by decide, blank_ne_zero blank'⟩,
        quotedString_ne_zero s_fine⟩
      decide
    obtain ⟨rest, json⟩ := cString_written (text ▸ run_written behind later) fine
    refine bpJsonGetFit_written short blank blank' s rest ?_ first room
    rw [json]
    simp
  · intro buf some calls
    have ended := run_ended (init_ended some) calls
    exact ⟨ended, fun stopped more => run_stopped stopped more, fun call => step_ok ended call⟩

/-- A control character is read back as a question mark. -/
theorem control_not_read_back :
    (((init (List.replicate 32 0)).run [.raw (cstr "\x7b\"k\":"), .jstr [1], .raw (cstr "\x7d")]).ok = true ∧
      ((init (List.replicate 32 0)).run [.raw (cstr "\x7b\"k\":"), .jstr [1], .raw (cstr "\x7d")]).cString =
        cstr "\x7b\"k\":\"\\u0001\"\x7d") ∧
    bpJsonGetFit
      ((init (List.replicate 32 0)).run [.raw (cstr "\x7b\"k\":"), .jstr [1], .raw (cstr "\x7d")]).cString
      (cstr "k") 8 = (1, [ascii '?']) ∧ ascii '?' ≠ 1 := by
  have text : ((init (List.replicate 32 0)).run [.raw (cstr "\x7b\"k\":"), .jstr [1], .raw (cstr "\x7d")]).cString =
      cstr "\x7b\"k\":\"\\u0001\"\x7d" := by decide
  refine ⟨⟨by decide, text⟩, ?_, by decide⟩
  rw [text]
  decide

end BenchPod.Json
