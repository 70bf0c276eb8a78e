import BenchPod.Library.Emitter
import BenchPod.Library.RingMemory
import BenchPod.Library.Word

/-!
# The ring of words between the logic analyser and the PSRAM writer

`spram_ring48` stores words of six bytes in a memory with one port and sends them byte by byte.  While `hold_out` is up
it reads nothing, and from `2 ^ preAw` words on every word that is written drops the oldest.
-/

namespace BenchPod.LaPipe

/-- The address widths of the memory and of the window before the trigger. -/
structure Widths where
  aw : Nat
  preAw : Nat
  deriving DecidableEq

/-- A word of six bytes, the first one first. -/
abbrev Word := List Byte

/-- The registers of `spram_ring48`, as its reset leaves those that it resets. -/
structure Ring where
  wrPtr : Nat := 0
  rdPtr : Nat := 0
  inP : Word := []
  inPV : Bool := false
  rd1 : Bool := false
  nxt : Word := []
  nxtV : Bool := false
  outW : Word := []
  outV : Bool := false
  outI : Nat := 0
  tailLen : Nat := 0
  overflow : Bool := false
  sram : Nat → Word := fun _ => []
  sramDout : Word := []

/-- The ports of the ring at an edge. -/
structure Offer where
  rst : Bool := false
  clrOvf : Bool := false
  holdOut : Bool := false
  inWord : Word := []
  inStb : Bool := false
  inLen : Nat := 0
  outFull : Bool := false

namespace Ring

variable (w : Widths) (r : Ring) (i : Offer)

/-- `s_full`: the pointers differ in the wrap bit alone. -/
def sFull : Bool := r.wrPtr == (r.rdPtr + 2 ^ w.aw) % 2 ^ (w.aw + 1)

def sEmpty : Bool := r.wrPtr == r.rdPtr

def fill : Nat := (r.wrPtr + 2 ^ (w.aw + 1) - r.rdPtr) % 2 ^ (w.aw + 1)

def preDrop : Bool := i.holdOut && r.fill w / 2 ^ w.preAw != 0

def doWrite : Bool := r.inPV && !r.sFull w

def doRead : Bool := !i.holdOut && !r.doWrite w && !r.sEmpty && !r.nxtV && !r.rd1

/-- `in_rdy`: the word offered in this clock is taken. -/
def inRdy : Bool := !r.inPV || r.doWrite w

def outStb : Bool := r.outV && !i.outFull

def isTail : Bool := r.tailLen != 0 && r.sEmpty && !r.inPV && !r.rd1 && !r.nxtV

def outLast : Bool := r.outStb i && r.outI == (if r.isTail then r.tailLen - 1 else 5)

def empty : Bool := r.sEmpty && !r.inPV && !r.rd1 && !r.nxtV && !r.outV

/-- An edge of the clock. -/
def step : Ring :=
  if i.rst then { r with
    wrPtr := 0, rdPtr := 0, inPV := false, rd1 := false, nxtV := false, outV := false, outI := 0, overflow := false,
    tailLen := 0 }
  else
    let loads := (!r.outV || r.outLast i) && r.nxtV
    let takes := i.inStb && r.inRdy w
    { wrPtr := if r.doWrite w then (r.wrPtr + 1) % 2 ^ (w.aw + 1) else r.wrPtr
      rdPtr := if r.doRead w i || (r.doWrite w && r.preDrop w i) then (r.rdPtr + 1) % 2 ^ (w.aw + 1) else r.rdPtr
      rd1 := r.doRead w i
      inP := if takes then i.inWord else r.inP
      inPV := takes || (r.inPV && !r.doWrite w)
      tailLen := if takes then i.inLen else r.tailLen
      overflow := (r.overflow && !i.clrOvf) || (i.inStb && !r.inRdy w)
      outI := if r.outStb i then (if r.outLast i then 0 else (r.outI + 1) % 8) else r.outI
      outW := if loads then r.nxt else if r.outStb i then r.outW.drop 1 ++ [0] else r.outW
      outV := loads || (r.outV && !r.outLast i)
      nxt := if r.rd1 then r.sramDout else r.nxt
      nxtV := r.rd1 || (r.nxtV && !loads)
      sram := if r.doWrite w then Function.update r.sram (r.wrPtr % 2 ^ w.aw) r.inP else r.sram
      sramDout := if r.doWrite w then r.sramDout else r.sram (r.rdPtr % 2 ^ w.aw) }

/-- The byte that is sent. -/
def sent : Option Byte := if r.outStb i then some (r.outW.headD 0) else none

end Ring

/-- What happened since the reset: the words offered and those taken, those that left the memory, with whether they were
read or dropped, and the bytes sent. -/
structure Log where
  offered : List Word := []
  taken : List Word := []
  left : List (Word × Bool) := []
  sent : List Byte := []

/-- The ring with its log. -/
structure Traced where
  ring : Ring := {}
  log : Log := {}

/-- An edge of the clock. -/
def Traced.step (w : Widths) (t : Traced) (i : Offer) : Traced where
  ring := t.ring.step w i
  log :=
    if i.rst then {}
    else
      { offered := t.log.offered ++ if i.inStb then [i.inWord] else []
        taken := t.log.taken ++ if i.inStb && t.ring.inRdy w then [i.inWord] else []
        left := t.log.left ++
          if t.ring.doRead w i || (t.ring.doWrite w && t.ring.preDrop w i) then
            [(t.ring.sram (t.ring.rdPtr % 2 ^ w.aw), t.ring.doRead w i)]
          else []
        sent := t.log.sent ++ (t.ring.sent i).toList }

/-- The ring edge after edge. -/
def ring (w : Widths) : Emitter Traced Offer Byte := ⟨Traced.step w, fun t i => t.ring.sent i⟩

/-- What the producers offer: whole words, and at most one shorter tail, the last word before the next reset. -/
def Offers (t : Traced) (i : Offer) : Prop :=
  i.rst = false → i.inStb = true → i.inWord.length = 6 ∧ i.inLen ≤ 5 ∧ t.ring.tailLen = 0

end BenchPod.LaPipe
