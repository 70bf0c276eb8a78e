import BenchPod.LaPipe.Ring
import BenchPod.Library.Forever

/-!
# The raw producer and its packer

`la_psram_capture` turns every sample into two bytes, `la_byte_pack` fills words of six bytes with them, and the top
level puts both in front of the ring.  The producer's own `full` is tied low there: what is lost shows as the ring's
overflow.
-/

namespace BenchPod.LaPipe

/-- The registers of `la_psram_capture` on `n` channels, with the counter that it loads. -/
structure Producer (n : Nat) where
  q1 : BitVec n
  q2 : BitVec n
  divcnt : BitVec 16
  sampsQ : BitVec 32
  writingHi : Bool
  latched : BitVec n
  wrData : Byte
  wrStb : Bool
  busy : Bool
  done : Bool
  overflow : Bool

/-- The ports of the producer at an edge. -/
structure Sampling (n : Nat) where
  rst : Bool := false
  laIn : BitVec n
  start : Bool := false
  hold : Bool := false
  sampleCount : BitVec 24 := 0
  divider : BitVec 16 := 0
  full : Bool := false

namespace Producer

variable {n : Nat} (p : Producer n) (i : Sampling n)

/-- `cnt_one`: the counter of samples reads one. -/
def cntOne : Bool := p.sampsQ.setWidth 24 == 1

/-- `hi_byte`: the channels above the eighth, in a byte. -/
def hiByte : Byte := (p.latched.setWidth 16 >>> 8).setWidth 8

/-- The counter of samples: loaded at the start, stepped with the high byte of each. -/
def countdown : BitVec 32 :=
  if !i.rst && i.start then i.sampleCount.setWidth 32
  else if !i.rst && !i.start && p.busy && !i.hold && p.writingHi then p.sampsQ - 1
  else p.sampsQ

/-- An edge of the clock. -/
def step : Producer n :=
  let quiet := { p with
    q1 := i.laIn
    q2 := p.q1
    sampsQ := p.countdown i
    wrStb := false }
  if i.rst then { quiet with
    divcnt := 0
    writingHi := false
    busy := false
    done := false
    overflow := false }
  else if i.start then { quiet with
    divcnt := i.divider
    writingHi := false
    busy := i.sampleCount != 0
    done := false
    overflow := false }
  else if p.busy && !i.hold then
    if p.writingHi then { quiet with
      wrData := p.hiByte
      wrStb := true
      overflow := p.overflow || i.full
      writingHi := false
      busy := !p.cntOne
      done := p.done || p.cntOne }
    else if p.divcnt == 0 then { quiet with
      divcnt := i.divider
      latched := p.q2
      wrData := p.q2.setWidth 8
      wrStb := true
      overflow := p.overflow || i.full
      writingHi := true }
    else { quiet with divcnt := p.divcnt - 1 }
  else quiet

end Producer

/-- The registers of `la_byte_pack`: the lanes of the first five bytes, and how many are held. -/
structure Packer where
  sh : List Byte
  n : Nat
  lanes : sh.length = 5

/-- The ports of the packer at an edge. -/
structure Packing where
  rst : Bool := false
  inData : Byte
  inStb : Bool := false
  flush : Bool := false

namespace Packer

variable (p : Packer) (i : Packing)

/-- `complete`: the sixth byte comes. -/
def complete : Bool := i.inStb && p.n == 5

/-- `partial`: bytes are held. -/
def partialHeld : Bool := p.n != 0

def wd : Word := p.sh ++ [i.inData]

def wstb : Bool := p.complete i || (i.flush && p.partialHeld && !i.inStb)

def wlen : Nat := if p.complete i then 0 else p.n

/-- An edge of the clock. -/
def step : Packer where
  sh := if !i.rst && i.inStb then p.sh.set p.n i.inData else p.sh
  n := if i.rst then 0
    else if i.inStb then (if p.complete i then 0 else p.n + 1)
    else if i.flush && p.partialHeld then 0
    else p.n
  lanes := by
    split
    · rw [List.length_set, p.lanes]
    · exact p.lanes

theorem step_sh : (p.step i).sh = if !i.rst && i.inStb then p.sh.set p.n i.inData else p.sh := rfl

theorem step_n : (p.step i).n =
    if i.rst then 0
    else if i.inStb then (if p.complete i then 0 else p.n + 1)
    else if i.flush && p.partialHeld then 0
    else p.n := rfl

end Packer

/-- The producer, the packer and the ring. -/
structure Pipe (n : Nat) where
  producer : Producer n
  packer : Packer
  ring : Traced

/-- The ports of the pipeline at an edge: `arm` starts the producer and empties the packer and the ring. -/
structure Edge (n : Nat) where
  rst : Bool := false
  arm : Bool := false
  laIn : BitVec n
  hold : Bool := false
  sampleCount : BitVec 24 := 0
  divider : BitVec 16 := 0
  outFull : Bool := false

namespace Pipe

variable {n : Nat} (s : Pipe n) (i : Edge n)

/-- What the producer sees. -/
def sampling : Sampling n where
  rst := i.rst
  laIn := i.laIn
  start := i.arm
  hold := i.hold
  sampleCount := i.sampleCount
  divider := i.divider

/-- What the packer sees. -/
def packing : Packing where
  rst := i.rst || i.arm
  inData := s.producer.wrData
  inStb := s.producer.wrStb
  flush := s.producer.done

/-- What the ring sees of a raw capture: it is not held, and the length of the tail is the packer's. -/
def offer : Offer where
  rst := i.rst || i.arm
  clrOvf := i.arm
  inWord := s.packer.wd (s.packing i)
  inStb := s.packer.wstb (s.packing i)
  inLen := s.packer.wlen (s.packing i)
  outFull := i.outFull

/-- `la_done`: the tail is out of the packer as well. -/
def laDone : Bool := s.producer.done && !s.packer.partialHeld

/-- An edge of the clock. -/
def step (w : Widths) : Pipe n where
  producer := s.producer.step (sampling i)
  packer := s.packer.step (s.packing i)
  ring := s.ring.step w (s.offer i)

end Pipe

/-- The pipeline edge after edge: what it hands to the writer. -/
def pipe (n : Nat) (w : Widths) : Emitter (Pipe n) (Edge n) Byte :=
  ⟨fun s i => s.step i w, fun s i => s.ring.ring.sent (s.offer i)⟩

end BenchPod.LaPipe
