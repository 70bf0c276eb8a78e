import BenchPod.Library.Fields
import BenchPod.Library.Word

/-!
# spi_stream

A header and a source go out of an SPI master under one chip select, in transfers of at most so many bytes.
The header shares the first transfer with the source; a read or a transfer that fails ends it all.
-/

namespace BenchPod.SpiStream

open Fields

/-- A call of the transport. -/
inductive Event
  | cs (asserted : Bool)
  | read (off n : Nat) (ok : Bool)
  | xfer (tx : List Byte) (ok : Bool)
  | progress (done : Nat)
  deriving DecidableEq

/-- `spi_stream_io_t`: which of its functions there are, and what `read` and `xfer` answer after what was
called before. -/
structure Io where
  cs : Bool
  xfer : Bool
  read : Bool
  progress : Bool
  maxXfer : Nat
  readOk : List Event → Bool
  xferOk : List Event → Bool
  source : Nat → Byte

/-- What spi_stream_run returns. -/
inductive Rc
  | ok | eIo | eRead | eArgs
  deriving DecidableEq

def spiStreamHeadMax : Nat := 64

/-- Bytes of the source. -/
def Io.bytes (io : Io) (off n : Nat) : List Byte := (List.range' off n).map io.source

/-- `n` of a pass: the source bytes that it takes. -/
def chunk (io : Io) (len done fill : Nat) : Nat :=
  if len - done < io.maxXfer - fill then len - done else io.maxXfer - fill

/-- The calls, with the read of a pass that takes source bytes. -/
def called (io : Io) (log : List Event) (done n : Nat) : List Event :=
  if n ≠ 0 then log ++ [.read done n (io.readOk log)] else log

/-- The calls, with the progress that is reported where somebody listens. -/
def noted (io : Io) (log : List Event) (done : Nat) : List Event :=
  if io.progress then log ++ [.progress done] else log

/-- The buffer with the bytes of a read in it. -/
def loaded (io : Io) (buf : List Byte) (done fill n : Nat) : List Byte := put buf (fill, io.bytes done n)

/-- The bytes of the transfer of a pass. -/
def sending (io : Io) (buf : List Byte) (done fill n : Nat) : List Byte := (loaded io buf done fill n).take (fill + n)

/-- The loop of spi_stream_run: what it ends with, the source bytes done, and the calls. -/
def streamLoop (io : Io) (len : Nat) (log : List Event) (buf : List Byte) (done fill : Nat)
    (space : fill < io.maxXfer) : Rc × Nat × List Event :=
  if more : fill ≠ 0 ∨ done < len then
    if chunk io len done fill ≠ 0 ∧ io.readOk log = false then
      (.eRead, done, called io log done (chunk io len done fill))
    else if io.xferOk (called io log done (chunk io len done fill)) = false then
      (.eIo, done, called io log done (chunk io len done fill) ++
        [.xfer (sending io buf done fill (chunk io len done fill)) false])
    else
      streamLoop io len
        (noted io
          (called io log done (chunk io len done fill) ++
            [.xfer (sending io buf done fill (chunk io len done fill)) true])
          (done + chunk io len done fill))
        (loaded io buf done fill (chunk io len done fill)) (done + chunk io len done fill) 0
        (Nat.zero_lt_of_lt space)
  else (.ok, done, log)
termination_by (len - done) + fill
decreasing_by
  rw [chunk]
  split
  · omega
  · omega

/-- The result of spi_stream_run, and the calls it made. -/
structure Outcome where
  rc : Rc
  sent : Nat
  log : List Event

/-- spi_stream_run over whatever its static buffer holds; a null pointer is none. -/
def spiStreamRun (io : Option Io) (head : Option (List Byte)) (headLen len : Nat) (holdCs : Bool)
    (buf : Vector Byte 4096) : Outcome :=
  match io with
  | none => { rc := .eArgs, sent := 0, log := [] }
  | some io =>
    if io.cs = false ∨ io.xfer = false ∨ (len ≠ 0 ∧ io.read = false) then { rc := .eArgs, sent := 0, log := [] }
    else if admitted : io.maxXfer < spiStreamHeadMax + 1 ∨ 4096 < io.maxXfer ∨ spiStreamHeadMax < headLen then
      { rc := .eArgs, sent := 0, log := [] }
    else if (headLen ≠ 0 ∧ head.isNone) ∨ (headLen = 0 ∧ len = 0) then { rc := .eArgs, sent := 0, log := [] }
    else
      let filled := put buf.toList (0, (head.getD []).take headLen)
      let (rc, done, log) := streamLoop io len [.cs true] filled 0 headLen (by
        rw [spiStreamHeadMax] at admitted
        omega)
      { rc, sent := done, log := if rc ≠ .ok ∨ holdCs = false then log ++ [.cs false] else log }

/-- The bytes of the transfers that succeeded. -/
def delivered : List Event → List Byte
  | [] => []
  | .xfer tx true :: log => tx ++ delivered log
  | _ :: log => delivered log

/-- A call between the two ends of the chip select. -/
def Between (io : Io) : Event → Prop
  | .cs _ => False
  | .xfer tx _ => 1 ≤ tx.length ∧ tx.length ≤ io.maxXfer
  | _ => True

variable {io : Io} {head buf : List Byte} {log : List Event} {len done fill : Nat}

theorem delivered_append (front back : List Event) : delivered (front ++ back) = delivered front ++ delivered back := by
  induction front with
  | nil => rfl
  | cons event front ih =>
    cases event with
    | xfer tx ok =>
      cases ok with
      | true => rw [List.cons_append, delivered, delivered, ih, List.append_assoc]
      | false => exact ih
    | cs asserted => exact ih
    | read off n ok => exact ih
    | progress done => exact ih

theorem bytes_length (io : Io) (off n : Nat) : (io.bytes off n).length = n := by
  rw [Io.bytes, List.length_map, List.length_range']

theorem bytes_append (io : Io) (off n m : Nat) : io.bytes off (n + m) = io.bytes off n ++ io.bytes (off + n) m := by
  rw [Io.bytes, Io.bytes, Io.bytes, ← List.map_append, List.range'_append_1]

/-- What the loop has come to: the header waits in the buffer, or was sent with the first source bytes. -/
structure Ready (io : Io) (head : List Byte) (len : Nat) (log : List Event) (buf : List Byte) (done fill : Nat) :
    Prop where
  size : buf.length = 4096
  done_le : done ≤ len
  waiting : fill ≠ 0 → done = 0 ∧ fill = head.length ∧ buf.take fill = head ∧ delivered log = []
  sent : fill = 0 → delivered log = head ++ io.bytes 0 done

/-- What the loop ends with. -/
structure Ended (io : Io) (head : List Byte) (len : Nat) (log : List Event) (result : Rc × Nat × List Event) :
    Prop where
  calls : ∃ more, result.2.2 = log ++ more ∧ ∀ event ∈ more, Between io event
  done_le : result.2.1 ≤ len
  bytes : delivered result.2.2 = [] ∧ result.2.1 = 0 ∨ delivered result.2.2 = head ++ io.bytes 0 result.2.1
  ok : result.1 = .ok → result.2.1 = len ∧ delivered result.2.2 = head ++ io.bytes 0 len
  args : result.1 ≠ .eArgs

namespace Ready

theorem bytes (ready : Ready io head len log buf done fill) :
    delivered log = [] ∧ done = 0 ∨ delivered log = head ++ io.bytes 0 done := by
  rcases Decidable.em (fill = 0) with empty | waits
  · exact .inr (ready.sent empty)
  · obtain ⟨zero, _, _, nothing⟩ := ready.waiting waits
    exact .inl ⟨nothing, zero⟩

theorem tx (ready : Ready io head len log buf done fill) {n : Nat} (fits : fill + n ≤ 4096) :
    sending io buf done fill n = buf.take fill ++ io.bytes done n := by
  have front : (buf.take fill).length = fill := List.length_take_of_le (by rw [ready.size]; omega)
  have whole : (buf.take fill ++ io.bytes done n).length = fill + n := by rw [List.length_append, front, bytes_length]
  rw [sending, loaded, put, List.take_left' whole]

theorem delivered_tx (ready : Ready io head len log buf done fill) (n : Nat) :
    delivered log ++ (buf.take fill ++ io.bytes done n) = head ++ io.bytes 0 (done + n) := by
  rcases Decidable.em (fill = 0) with rfl | waits
  · rw [ready.sent rfl, List.take_zero, List.nil_append, List.append_assoc, bytes_append, Nat.zero_add]
  · obtain ⟨rfl, _, held, nothing⟩ := ready.waiting waits
    rw [nothing, held, List.nil_append, Nat.zero_add]

end Ready

theorem chunk_le (io : Io) (len done fill : Nat) :
    chunk io len done fill ≤ len - done ∧ chunk io len done fill ≤ io.maxXfer - fill := by
  rw [chunk]
  split
  · omega
  · omega

theorem called_eq (io : Io) (log : List Event) (done n : Nat) :
    ∃ more, called io log done n = log ++ more ∧ delivered more = [] ∧ ∀ event ∈ more, Between io event := by
  rw [called]
  split
  · exact ⟨_, rfl, rfl, fun event member => by rw [List.mem_singleton.mp member]; exact trivial⟩
  · exact ⟨[], (List.append_nil _).symm, rfl, fun event member => absurd member List.not_mem_nil⟩

theorem noted_eq (io : Io) (log : List Event) (done : Nat) :
    ∃ more, noted io log done = log ++ more ∧ delivered more = [] ∧ ∀ event ∈ more, Between io event := by
  rw [noted]
  split
  · exact ⟨_, rfl, rfl, fun event member => by rw [List.mem_singleton.mp member]; exact trivial⟩
  · exact ⟨[], (List.append_nil _).symm, rfl, fun event member => absurd member List.not_mem_nil⟩

theorem Ready.between (ready : Ready io head len log buf done fill) (space : fill < io.maxXfer)
    (small : io.maxXfer ≤ 4096) (more : fill ≠ 0 ∨ done < len) (ok : Bool) :
    Between io (.xfer (sending io buf done fill (chunk io len done fill)) ok) := by
  obtain ⟨_, fits⟩ := chunk_le io len done fill
  have some_byte : 1 ≤ fill + chunk io len done fill := by
    rw [chunk]
    split
    · omega
    · omega
  have front : (buf.take fill).length = fill := List.length_take_of_le (by rw [ready.size]; omega)
  rw [ready.tx (by omega), Between, List.length_append, front, bytes_length]
  omega

theorem streamLoop_ended (io : Io) (len : Nat) (log : List Event) (buf : List Byte) (done fill : Nat)
    (space : fill < io.maxXfer) (small : io.maxXfer ≤ 4096) (ready : Ready io head len log buf done fill) :
    Ended io head len log (streamLoop io len log buf done fill space) := by
  induction log, buf, done, fill, space using streamLoop.induct io len with
  | case1 log buf done fill space more failed =>
    obtain ⟨calls, calls_eq, nothing, between⟩ := called_eq io log done (chunk io len done fill)
    have same : delivered (called io log done (chunk io len done fill)) = delivered log := by
      rw [calls_eq, delivered_append, nothing, List.append_nil]
    rw [streamLoop, dif_pos more, if_pos failed]
    refine ⟨⟨calls, calls_eq, between⟩, ready.done_le, ?_, by rintro ⟨⟩,
      by rintro ⟨⟩⟩
    rw [same]
    exact ready.bytes
  | case2 log buf done fill space more read failed =>
    obtain ⟨calls, calls_eq, nothing, between⟩ := called_eq io log done (chunk io len done fill)
    rw [streamLoop, dif_pos more, if_neg read, if_pos failed]
    refine ⟨⟨calls ++ [_], by rw [calls_eq, List.append_assoc], ?_⟩, ready.done_le, ?_,
      by rintro ⟨⟩, by rintro ⟨⟩⟩
    · intro event member
      rcases List.mem_append.mp member with call | last
      · exact between event call
      · rw [List.mem_singleton.mp last]
        exact ready.between space small more false
    · dsimp only
      have silent (tx : List Byte) : delivered [.xfer tx false] = [] := rfl
      rw [delivered_append, calls_eq, delivered_append, nothing, List.append_nil, silent, List.append_nil]
      exact ready.bytes
  | case3 log buf done fill space more read transferred ih =>
    obtain ⟨calls, calls_eq, nothing, between⟩ := called_eq io log done (chunk io len done fill)
    obtain ⟨few, fits⟩ := chunk_le io len done fill
    have sent : delivered (called io log done (chunk io len done fill) ++
        [.xfer (sending io buf done fill (chunk io len done fill)) true]) =
          head ++ io.bytes 0 (done + chunk io len done fill) := by
      rw [delivered_append, calls_eq, delivered_append, nothing, List.append_nil, delivered, delivered,
        List.append_nil, ready.tx (by omega), ready.delivered_tx]
    rw [streamLoop, dif_pos more, if_neg read, if_neg transferred]
    obtain ⟨notes, notes_eq, silent, notes_between⟩ := noted_eq io (called io log done (chunk io len done fill) ++
        [.xfer (sending io buf done fill (chunk io len done fill)) true])
      (done + chunk io len done fill)
    have later := ih
      { size := by
          rw [loaded, put_length, ready.size]
          rw [Inside, bytes_length, ready.size]
          dsimp only
          omega
        done_le := by
          have := ready.done_le
          omega
        waiting := fun wrong => absurd rfl wrong
        sent := fun _ => by rw [notes_eq, delivered_append, sent, silent, List.append_nil] }
    obtain ⟨⟨rest, rest_eq, rest_between⟩, done_le, bytes, ok, args⟩ := later
    refine ⟨⟨calls ++ [.xfer (sending io buf done fill (chunk io len done fill)) true] ++ notes ++ rest, ?_, ?_⟩,
      done_le, bytes, ok, args⟩
    · rw [rest_eq, notes_eq, calls_eq]
      simp only [List.append_assoc]
    · intro event member
      rw [List.mem_append, List.mem_append, List.mem_append] at member
      rcases member with ((call | transfer) | note) | more_calls
      · exact between event call
      · rw [List.mem_singleton.mp transfer]
        exact ready.between space small more true
      · exact notes_between event note
      · exact rest_between event more_calls
  | case4 log buf done fill space past =>
    rw [not_or, not_not, Nat.not_lt] at past
    have all : done = len := Nat.le_antisymm ready.done_le past.2
    rw [streamLoop, dif_neg (by omega)]
    refine ⟨⟨[], (List.append_nil _).symm, fun event member => absurd member List.not_mem_nil⟩, ready.done_le,
      ready.bytes, fun _ => ⟨all, ?_⟩, by rintro ⟨⟩⟩
    rw [ready.sent past.1, all]

/-- What spi_stream_run takes. -/
def Admitted (io : Io) (headLen len : Nat) : Prop :=
  io.cs = true ∧ io.xfer = true ∧ (len ≠ 0 → io.read = true) ∧ spiStreamHeadMax + 1 ≤ io.maxXfer ∧ io.maxXfer ≤ 4096 ∧
    headLen ≤ spiStreamHeadMax ∧ (headLen ≠ 0 ∨ len ≠ 0)

/-- The arguments are refused, or the loop runs between the two ends of the chip select. -/
theorem spiStreamRun_eq (io : Io) (head : List Byte) (len : Nat) (holdCs : Bool) (buf : Vector Byte 4096) :
    let r := spiStreamRun (some io) (some head) head.length len holdCs buf
    (¬Admitted io head.length len → r = { rc := .eArgs, sent := 0, log := [] }) ∧
      (Admitted io head.length len → ∃ space : head.length < io.maxXfer,
        let ended := streamLoop io len [.cs true] (put buf.toList (0, head)) 0 head.length space
        r =
          { rc := ended.1
            sent := ended.2.1
            log := if ended.1 ≠ .ok ∨ holdCs = false then ended.2.2 ++ [.cs false] else ended.2.2 }) := by
  intro r
  have whole : (Option.getD (some head) []).take head.length = head := List.take_length
  dsimp only [r, spiStreamRun]
  split
  · next missing =>
      refine ⟨fun _ => rfl, fun ⟨cs, xfer, read, _⟩ => ?_⟩
      rw [cs, xfer] at missing
      obtain ⟨some_source, no_read⟩ := missing.resolve_left Bool.noConfusion |>.resolve_left Bool.noConfusion
      rw [read some_source] at no_read
      cases no_read
  next there =>
    split
    · next outside =>
        refine ⟨fun _ => rfl, fun ⟨_, _, _, least, most, short, _⟩ => ?_⟩
        omega
    next inside =>
      split
      · next nothing =>
          refine ⟨fun _ => rfl, fun ⟨_, _, _, _, _, _, something⟩ => ?_⟩
          rcases nothing with ⟨_, null⟩ | empty
          · cases null
          · omega
      · next something =>
          have space : head.length < io.maxXfer := by
            rw [spiStreamHeadMax] at inside
            omega
          refine ⟨fun refused => (refused ?_).elim, fun _ => ⟨space, ?_⟩⟩
          · rw [not_or, not_or, not_and, Bool.not_eq_false, Bool.not_eq_false, Bool.not_eq_false] at there
            refine ⟨there.1, there.2.1, there.2.2, by omega, by omega, by omega, ?_⟩
            rw [not_or] at something
            omega
          · simp only [whole]

/-- A transport of 65 bytes at a time whose third call fails. -/
def sampleIo : Io where
  cs := true
  xfer := true
  read := true
  progress := false
  maxXfer := 65
  readOk log := log.length < 3
  xferOk _ := true
  source off := BitVec.ofNat 8 off

end BenchPod.SpiStream
