import BenchPod.Library.Word

/-!
# Reading a field of a JSON line

The flat reader of `bp_json.c`: a key is found anywhere in the line, and its value is copied into a
buffer that may be too small for it.  A C string is the list of its bytes before the terminator.
-/

namespace BenchPod
namespace Json

/-- A character of a C string. -/
def ascii (c : Char) : Byte := BitVec.ofNat 8 c.toNat

/-- A C string constant. -/
def cstr (text : String) : List Byte := text.toList.map ascii

/-- The characters `skip_ws` passes over. -/
def isWs (c : Byte) : Bool := c == ascii ' ' || c == ascii '\t' || c == ascii '\n' || c == ascii '\r'

def skipWs (p : List Byte) : List Byte := p.dropWhile isWs

/-- The scan of `find_key` for a quoted key that is followed by a colon. -/
def findNeedle (needle : List Byte) : List Byte → Option (List Byte)
  | [] => none
  | c :: rest =>
    if needle.isPrefixOf (c :: rest) then
      match skipWs ((c :: rest).drop needle.length) with
      | q :: value => if q = ascii ':' then some (skipWs value) else findNeedle needle rest
      | [] => findNeedle needle rest
    else findNeedle needle rest

/-- `find_key`: the text from the key's value on. -/
def findKey (json key : List Byte) : Option (List Byte) :=
  let needle := ascii '"' :: key ++ [ascii '"']
  if 64 ≤ needle.length then none else findNeedle needle json

def isHexDigit (c : Byte) : Bool :=
  (ascii '0' ≤ c && c ≤ ascii '9') || (ascii 'a' ≤ c && c ≤ ascii 'f') || (ascii 'A' ≤ c && c ≤ ascii 'F')

/-- At most `left` hexadecimal digits passed over. -/
def skipHex : Nat → List Byte → List Byte
  | left + 1, c :: rest => if isHexDigit c then skipHex left rest else c :: rest
  | _, rest => rest

/-- `unescape`: the character an escape stands for, and what follows it. -/
def unescape (c : Byte) (rest : List Byte) : Byte × List Byte :=
  if c = ascii 'n' then (ascii '\n', rest)
  else if c = ascii 'r' then (ascii '\r', rest)
  else if c = ascii 't' then (ascii '\t', rest)
  else if c = ascii 'b' then (8, rest)
  else if c = ascii 'f' then (12, rest)
  else if c = ascii 'u' then (ascii '?', skipHex 4 rest)
  else (c, rest)

/-- A string value, as far as `left` characters fit. -/
def copyString : Nat → List Byte → List Byte
  | 0, _ => []
  | _ + 1, [] => []
  | left + 1, c :: rest =>
    if c = ascii '"' then []
    else if c = ascii '\\' then
      match rest with
      | [] => [c]
      | e :: rest => (unescape e rest).1 :: copyString left (unescape e rest).2
    else c :: copyString left rest

/-- The characters that end a bare value. -/
def endsBare (c : Byte) : Bool := c == ascii ',' || c == ascii '}' || isWs c

/-- `bp_json_get` with a buffer of `outLen` bytes; `none` when it returns false, with an empty
buffer. -/
def bpJsonGet (json key : List Byte) (outLen : Nat) : Option (List Byte) :=
  match findKey json key with
  | none => none
  | some p =>
    match p with
    | [] => none
    | c :: rest =>
      if c = ascii '"' then some (copyString (outLen - 1) rest)
      else
        let out := (p.takeWhile fun c => !endsBare c).take (outLen - 1)
        if out = [] then none else some out

theorem copyString_grows {left longer : Nat} {text : List Byte} (le : left ≤ longer)
    (short : (copyString left text).length < left) : copyString longer text = copyString left text := by
  induction left generalizing longer text with
  | zero => exact absurd short (Nat.not_lt_zero _)
  | succ left ih =>
    obtain ⟨longer, rfl⟩ : ∃ more, longer = more + 1 := ⟨longer - 1, by omega⟩
    have le : left ≤ longer := by omega
    cases text with
    | nil => rfl
    | cons c rest =>
      unfold copyString at short ⊢
      by_cases quote : c = ascii '"'
      · rw [if_pos quote, if_pos quote]
      · rw [if_neg quote] at short
        rw [if_neg quote, if_neg quote]
        by_cases escape : c = ascii '\\'
        · rw [if_pos escape] at short
          rw [if_pos escape, if_pos escape]
          cases rest with
          | nil => rfl
          | cons e rest => exact congrArg _ (ih le (by simpa using short))
        · rw [if_neg escape] at short
          rw [if_neg escape, if_neg escape]
          exact congrArg _ (ih le (by simpa using short))

theorem bpJsonGet_isSome {json key : List Byte} {outLen other : Nat} (room : 2 ≤ outLen)
    (otherRoom : 2 ≤ other) : (bpJsonGet json key outLen).isSome = (bpJsonGet json key other).isSome := by
  unfold bpJsonGet
  cases findKey json key with
  | none => rfl
  | some p =>
    cases p with
    | nil => rfl
    | cons c rest =>
      by_cases quote : c = ascii '"'
      · simp only [quote, if_true, Option.isSome_some]
      · have left : outLen - 1 ≠ 0 := by omega
        have right : other - 1 ≠ 0 := by omega
        simp only [quote, if_false, List.take_eq_nil_iff, left, right, false_or]
        split <;> rfl

theorem bpJsonGet_grows {json key value : List Byte} {outLen longer : Nat} (le : outLen ≤ longer)
    (got : bpJsonGet json key outLen = some value) (short : value.length < outLen - 1) :
    bpJsonGet json key longer = some value := by
  unfold bpJsonGet at got ⊢
  cases found : findKey json key with
  | none => simp [found] at got
  | some p =>
    rw [found] at got
    cases p with
    | nil => cases got
    | cons c rest =>
      dsimp only at got ⊢
      by_cases quote : c = ascii '"'
      · rw [if_pos quote] at got ⊢
        cases got
        rw [copyString_grows (by omega) short]
      · rw [if_neg quote] at got ⊢
        by_cases empty : ((c :: rest).takeWhile fun c => !endsBare c).take (outLen - 1) = []
        · rw [if_pos empty] at got
          cases got
        · rw [if_neg empty] at got
          cases got
          have whole : ((c :: rest).takeWhile fun c => !endsBare c).length ≤ outLen - 1 := by
            rw [List.length_take] at short
            omega
          rw [List.take_of_length_le whole] at empty ⊢
          rw [List.take_of_length_le (by omega), if_neg empty]
/-- A number followed by another field. -/
example : bpJsonGet (cstr "\x7b\"cmd\":\"dac_out\", \"volts\": 2.5,\"path\":1\x7d") (cstr "volts") 24 =
    some (cstr "2.5") := by decide

end Json
end BenchPod

/-!
## Numerals in fields

`strtol` and `strtoul` with base ten, and the objects and flags that `bp_json.c` reads.
-/

namespace BenchPod
namespace Json

/-- The characters `isspace` passes over. -/
def isSpace (c : Byte) : Bool := isWs c || c == 11 || c == 12

def isDigit (c : Byte) : Bool := ascii '0' ≤ c && c ≤ ascii '9'

/-- The value of a run of digits. -/
def digitsValue (digits : List Byte) : Nat := digits.foldl (fun value c => 10 * value + (c - ascii '0').toNat) 0

/-- A leading sign: whether it is a minus, and what follows it. -/
def takeSign : List Byte → Bool × List Byte
  | [] => (false, [])
  | c :: rest =>
    if c = ascii '-' then (true, rest)
    else if c = ascii '+' then (false, rest)
    else (false, c :: rest)

/-- The sign and the digits of a decimal integer, and what follows them; `none` without a digit. -/
def scanInteger (text : List Byte) : Option (Bool × List Byte × List Byte) :=
  let signed := takeSign (text.dropWhile isSpace)
  let digits := signed.2.takeWhile isDigit
  if digits = [] then none else some (signed.1, digits, signed.2.dropWhile isDigit)

/-- `strtol` with base ten: the value, held to the range of a 32-bit `long`, and the end pointer. -/
def strtol (text : List Byte) : Int × List Byte :=
  match scanInteger text with
  | none => (0, text)
  | some (negative, digits, rest) =>
    let value : Int := digitsValue digits
    (max (-2147483648) (min 2147483647 (if negative then -value else value)), rest)

/-- `strtoul` with base ten on a 32-bit `unsigned long`: out of range is `ULONG_MAX`, and a minus
negates in the unsigned type. -/
def strtoul (text : List Byte) : Word :=
  match scanInteger text with
  | none => 0
  | some (negative, digits, _) =>
    if 4294967295 < digitsValue digits then 0xFFFFFFFF
    else if negative then -BitVec.ofNat 32 (digitsValue digits)
    else BitVec.ofNat 32 (digitsValue digits)

/-- The value of a digit in any base up to sixteen. -/
def hexValue (c : Byte) : Option Nat :=
  if isDigit c then some (c - ascii '0').toNat
  else if ascii 'a' ≤ c && c ≤ ascii 'f' then some (10 + (c - ascii 'a').toNat)
  else if ascii 'A' ≤ c && c ≤ ascii 'F' then some (10 + (c - ascii 'A').toNat)
  else none

/-- The value of the digits of a base that a text starts with. -/
def baseValue (base : Nat) : Nat → List Byte → Nat
  | value, [] => value
  | value, c :: rest =>
    match hexValue c with
    | some digit => if digit < base then baseValue base (base * value + digit) rest else value
    | none => value

/-- `strtol` with base zero: hexadecimal after `0x`, octal after `0`. -/
def strtol0 (text : List Byte) : Int :=
  let signed := takeSign (text.dropWhile isSpace)
  let value : Int :=
    match signed.2 with
    | c :: x :: h :: rest =>
      if c = ascii '0' ∧ (x = ascii 'x' ∨ x = ascii 'X') ∧ (hexValue h).isSome then
        baseValue 16 0 (h :: rest)
      else if c = ascii '0' then baseValue 8 0 (c :: x :: h :: rest)
      else baseValue 10 0 (c :: x :: h :: rest)
    | c :: rest => if c = ascii '0' then baseValue 8 0 (c :: rest) else baseValue 10 0 (c :: rest)
    | [] => 0
  max (-2147483648) (min 2147483647 (if signed.1 then -value else value))

/-- The digits behind the sign of a numeral whose first characters say the base. -/
def prefixedValue : List Byte → Nat
  | c :: x :: h :: rest =>
    if c = ascii '0' ∧ (x = ascii 'x' ∨ x = ascii 'X') ∧ (hexValue h).isSome then
      baseValue 16 0 (h :: rest)
    else if c = ascii '0' then baseValue 8 0 (c :: x :: h :: rest)
    else baseValue 10 0 (c :: x :: h :: rest)
  | c :: rest => if c = ascii '0' then baseValue 8 0 (c :: rest) else baseValue 10 0 (c :: rest)
  | [] => 0

/-- `strtoul` with base zero on a 32-bit `unsigned long`. -/
def strtoul0 (text : List Byte) : Word :=
  let signed := takeSign (text.dropWhile isSpace)
  let value := prefixedValue signed.2
  if 4294967295 < value then 0xFFFFFFFF
  else if signed.1 then -BitVec.ofNat 32 value else BitVec.ofNat 32 value

/-- The scan of `json_object_at` to the brace that closes the object, with room for `left` more
characters and the terminator. -/
def objectScan : Nat → Nat → Bool → Bool → List Byte → Option (List Byte)
  | _, _, _, _, [] => none
  | 0, _, _, _, _ :: _ => none
  | left + 1, depth, inStr, esc, c :: rest =>
    if esc then (objectScan left depth inStr false rest).map (c :: ·)
    else if inStr then
      if c = ascii '\\' then (objectScan left depth true true rest).map (c :: ·)
      else (objectScan left depth (c ≠ ascii '"') false rest).map (c :: ·)
    else if c = ascii '"' then (objectScan left depth true false rest).map (c :: ·)
    else if c = ascii '\x7b' then (objectScan left (depth + 1) false false rest).map (c :: ·)
    else if c = ascii '\x7d' then
      if depth = 1 then some [c] else (objectScan left (depth - 1) false false rest).map (c :: ·)
    else (objectScan left depth false false rest).map (c :: ·)

/-- `bp_json_object` with a buffer of `cap` bytes. -/
def bpJsonObject (json key : List Byte) (cap : Nat) : Option (List Byte) :=
  match findKey json key with
  | some (c :: rest) =>
    if c = ascii '\x7b' then objectScan (cap - 1) 0 false false (c :: rest) else none
  | _ => none

end Json
end BenchPod
