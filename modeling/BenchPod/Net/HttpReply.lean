import Mathlib.Data.List.TakeWhile
import BenchPod.Json.Top
import BenchPod.Library.Search

/-!
# The replies of the server during the login

The challenge and the upgrade are answered in HTTP, which is read by searches over the bytes that came so far.  What
a reply says is defined by its status line and its header lines; the searches find that where the text they look for
is nowhere else.
-/

namespace BenchPod.Cloud

open Json Search

/-- `'\r'` and `'\n'` -/
def cr : Byte := 0x0d
def lf : Byte := 0x0a

/-- A text begins with these characters. -/
def begins (text : List Byte) (bytes : List Byte) : Bool := bytes.take text.length = text

/-- `cl_http_headers_end`; `none` where the code says zero. -/
def headersEnd (buf : List Byte) : Option Nat :=
  (search (begins [cr, lf, cr, lf]) buf).map fun tail => buf.length - tail.length + 4

/-- What `cl_status_is_101` looks for. -/
def reads101 (tail : List Byte) : Bool :=
  begins [ascii '1', ascii '0', ascii '1', ascii ' '] tail || begins [ascii '1', ascii '0', ascii '1', cr] tail

/-- `cl_status_is_101`. -/
def statusIs101 (buf : List Byte) : Bool := (search reads101 buf).isSome

/-- `cl_http_status`. -/
def httpStatus (buf : List Byte) : Nat :=
  match buf.dropWhile (· ≠ ascii ' ') with
  | _ :: a :: b :: c :: _ =>
    if isDigit a ∧ isDigit b ∧ isDigit c then
      100 * (a - ascii '0').toNat + 10 * (b - ascii '0').toNat + (c - ascii '0').toNat
    else 0
  | _ => 0

/-- A capital letter as a small one. -/
def toLower (c : Byte) : Byte := if ascii 'A' ≤ c ∧ c ≤ ascii 'Z' then c + 32 else c

/-- What `cl_content_length` looks for: the key, in any case, with something behind it. -/
def named (tail : List Byte) : Bool := (tail.take 15).map toLower = cstr "content-length:" ∧ 15 < tail.length

/-- The digits behind the key. -/
def valueDigits (tail : List Byte) : List Byte := ((tail.drop 15).dropWhile isBlank).takeWhile isDigit

/-- `cl_content_length`, in a `long` of 32 bits. -/
def contentLength (buf : List Byte) : Word :=
  match search named buf with
  | none => -1
  | some tail =>
    if valueDigits tail = [] then -1
    else (valueDigits tail).foldl (fun v digit => v * 10 + (digit - ascii '0').setWidth 32) 0

/-! ## What a reply says -/

/-- The first line. -/
def statusLine (reply : List Byte) : List Byte :=
  match search (begins [cr, lf]) reply with
  | none => reply
  | some tail => reply.take (reply.length - tail.length)

/-- The first header line with the name `Content-Length` has this number. -/
def Declares (reply : List Byte) (length : Nat) : Prop :=
  ∃ front line, reply = front ++ cr :: lf :: line ∧ named line = true ∧ valueDigits line ≠ [] ∧
    digitsValue (valueDigits line) = length ∧
    ∀ before other, reply = before ++ cr :: lf :: other → before.length < front.length → named other = false

/-- The first `content-length:` of the reply begins a header line, and its number has 31 bits. -/
def Plain (reply : List Byte) : Prop :=
  ∀ tail ∈ search named reply, (∃ front, reply = front ++ cr :: lf :: tail) ∧ digitsValue (valueDigits tail) < 2 ^ 31

/-! ## The searches find it -/

theorem begins_append {text front : List Byte} (rest : List Byte) (long : text.length ≤ front.length) :
    begins text (front ++ rest) = begins text front := by
  rw [begins, begins, List.take_append_of_le_length long]

theorem begins_length {text bytes : List Byte} (same : begins text bytes = true) : text.length ≤ bytes.length := by
  have taken := congrArg List.length (of_decide_eq_true same)
  rw [List.length_take] at taken
  omega

theorem begins_cons {text bytes : List Byte} (same : begins text bytes = true) : ∃ rest, bytes = text ++ rest := by
  refine ⟨bytes.drop text.length, ?_⟩
  have taken : bytes.take text.length = text := of_decide_eq_true same
  calc bytes = bytes.take text.length ++ bytes.drop text.length := (List.take_append_drop ..).symm
    _ = text ++ bytes.drop text.length := by rw [taken]

theorem headersEnd_append {buf : List Byte} {e : Nat} (found : headersEnd buf = some e) (more : List Byte) :
    e ≤ buf.length ∧ headersEnd (buf ++ more) = some e := by
  obtain ⟨tail, searched, rfl⟩ := Option.map_eq_some_iff.mp found
  obtain ⟨front, rfl, there, -⟩ := search_some searched
  have long : 4 ≤ tail.length := begins_length there
  have later := search_append (fun _ rest long => begins_append rest long) (fun _ same => begins_length same) searched
    more
  refine ⟨?_, ?_⟩
  · rw [List.length_append]
    omega
  · rw [headersEnd, later, Option.map_some]
    refine congrArg some ?_
    simp only [List.length_append]
    omega

theorem statusLine_rest (reply : List Byte) :
    ∃ rest, reply = statusLine reply ++ rest ∧ (rest = [] ∨ ∃ more, rest = cr :: lf :: more) := by
  rw [statusLine]
  cases found : search (begins [cr, lf]) reply with
  | none => exact ⟨[], (List.append_nil _).symm, .inl rfl⟩
  | some tail =>
    obtain ⟨front, rfl, there, -⟩ := search_some found
    obtain ⟨more, rfl⟩ := begins_cons there
    refine ⟨cr :: lf :: more, ?_, .inr ⟨more, rfl⟩⟩
    dsimp only
    rw [List.length_append, Nat.add_sub_cancel, List.take_left]
    rfl

theorem httpStatus_line {reply : List Byte} (blank : ascii ' ' ∈ statusLine reply) :
    httpStatus reply = httpStatus (statusLine reply) := by
  obtain ⟨rest, cut, ends⟩ := statusLine_rest reply
  generalize statusLine reply = line at blank cut
  subst cut
  have some : line.dropWhile (· ≠ ascii ' ') ≠ [] := by
    intro none
    have every := List.dropWhile_eq_nil_iff.mp none _ blank
    exact of_decide_eq_true every rfl
  have dropped : (line ++ rest).dropWhile (· ≠ ascii ' ') = line.dropWhile (· ≠ ascii ' ') ++ rest := by
    rw [List.dropWhile_append, if_neg]
    rw [List.isEmpty_iff]
    exact some
  rw [httpStatus, httpStatus, dropped]
  have noDigit : isDigit cr = false := rfl
  rcases ends with rfl | ⟨more, rfl⟩
  · rw [List.append_nil]
  · generalize line.dropWhile (· ≠ ascii ' ') = code at some ⊢
    -- a code that the line cuts off has the end of the line among its digits
    rcases code with _ | ⟨x, _ | ⟨a, _ | ⟨b, _ | ⟨c, others⟩⟩⟩⟩
    · exact absurd rfl some
    · cases more with
      | nil => rfl
      | cons y more => exact if_neg fun digits => Bool.noConfusion (noDigit.symm.trans digits.1)
    · exact if_neg fun digits => Bool.noConfusion (noDigit.symm.trans digits.2.1)
    · exact if_neg fun digits => Bool.noConfusion (noDigit.symm.trans digits.2.2)
    · rfl

theorem value_toNat (digits : List Byte) (v : Word) (n : Nat) (same : v.toNat = n % 2 ^ 32) :
    (digits.foldl (fun v digit => v * 10 + (digit - ascii '0').setWidth 32) v).toNat =
      digits.foldl (fun v digit => 10 * v + (digit - ascii '0').toNat) n % 2 ^ 32 := by
  induction digits generalizing v n with
  | nil => exact same
  | cons digit digits ih =>
    refine ih _ _ ?_
    have small := (digit - ascii '0').isLt
    have ten : (10 : Word).toNat = 10 := rfl
    change (v * 10 + (digit - ascii '0').setWidth 32).toNat = (10 * n + (digit - ascii '0').toNat) % 2 ^ 32
    rw [BitVec.toNat_add, BitVec.toNat_mul, same, BitVec.toNat_setWidth, ten]
    omega

theorem contentLength_declares {reply : List Byte} (plain : Plain reply)
    (positive : 0 ≤ (contentLength reply).toInt) : Declares reply (contentLength reply).toNat := by
  rw [contentLength] at positive ⊢
  cases found : search named reply with
  | none =>
    rw [found] at positive
    exact absurd positive (show ¬0 ≤ (-1 : Word).toInt by decide)
  | some tail =>
    rw [found] at positive
    dsimp only at positive ⊢
    obtain ⟨⟨front, cut⟩, small⟩ := plain tail found
    obtain ⟨before, cut', there, first⟩ := search_some found
    split at positive
    · exact absurd positive (show ¬0 ≤ (-1 : Word).toInt by decide)
    · rename_i some
      rw [if_neg some]
      refine ⟨front, tail, cut, there, some, ?_, ?_⟩
      · rw [value_toNat _ 0 0 rfl]
        exact (Nat.mod_eq_of_lt (Nat.lt_trans small (by decide))).symm
      · intro earlier other cutOther less
        have length : before.length = front.length + 2 := by
          have both := congrArg List.length (cut'.symm.trans cut)
          simp only [List.length_append, List.length_cons] at both
          omega
        refine first (earlier ++ [cr, lf]) other ?_ ?_
        · rw [cutOther, List.append_assoc]
          rfl
        · rw [List.length_append, length]
          exact Nat.add_lt_add_right less 2

end BenchPod.Cloud
