import BenchPod.Library.Word
import Mathlib.Data.List.GetD
import Mathlib.Data.Nat.NthRoot.Defs

/-!
# The secure hash standard, for byte strings

SHA-256 as FIPS 180-4 has it: the words of a block, the message schedule, 64 rounds, and a padding that ends
in the length.  HMAC as RFC 2104 has it, over any hash function.
-/

namespace BenchPod.Sha256

/-- The working variables, and a hash value. -/
structure State where
  a : Word
  b : Word
  c : Word
  d : Word
  e : Word
  f : Word
  g : Word
  h : Word
  deriving DecidableEq

def ch (x y z : Word) : Word := (x &&& y) ^^^ (~~~x &&& z)

def maj (x y z : Word) : Word := (x &&& y) ^^^ (x &&& z) ^^^ (y &&& z)

/-- Σ₀, Σ₁, σ₀ and σ₁. -/
def bigSigma0 (x : Word) : Word := x.rotateRight 2 ^^^ x.rotateRight 13 ^^^ x.rotateRight 22

def bigSigma1 (x : Word) : Word := x.rotateRight 6 ^^^ x.rotateRight 11 ^^^ x.rotateRight 25

def smallSigma0 (x : Word) : Word := x.rotateRight 7 ^^^ x.rotateRight 18 ^^^ x >>> 3

def smallSigma1 (x : Word) : Word := x.rotateRight 17 ^^^ x.rotateRight 19 ^^^ x >>> 10

/-- The first 64 prime numbers. -/
def primes : List Nat := (List.range 312).filter fun p => 2 ≤ p ∧ ∀ d < p, d ∣ p → d = 1

/-- The first 32 bits of the fractional part of a root. -/
def rootFraction (root p : Nat) : Word := BitVec.ofNat 32 (Nat.nthRoot root (p * 2 ^ (32 * root)))

/-- The constants of the rounds: from the cube roots of the first 64 primes. -/
def k (t : Nat) : Word := rootFraction 3 (primes.getD t 0)

/-- The initial hash value: from the square roots of the first eight primes. -/
def initial : State where
  a := rootFraction 2 (primes.getD 0 0)
  b := rootFraction 2 (primes.getD 1 0)
  c := rootFraction 2 (primes.getD 2 0)
  d := rootFraction 2 (primes.getD 3 0)
  e := rootFraction 2 (primes.getD 4 0)
  f := rootFraction 2 (primes.getD 5 0)
  g := rootFraction 2 (primes.getD 6 0)
  h := rootFraction 2 (primes.getD 7 0)

/-- Word `t` of a block. -/
def blockWord (block : List Byte) (t : Nat) : Word := Endian.getBe32 ((block.drop (4 * t)).take 4)

/-- The message schedule. -/
def schedule (block : List Byte) (t : Nat) : Word :=
  if t < 16 then blockWord block t
  else
    smallSigma1 (schedule block (t - 2)) + schedule block (t - 7) + smallSigma0 (schedule block (t - 15)) +
      schedule block (t - 16)
termination_by t

/-- One round. -/
def round (w : Nat → Word) (s : State) (t : Nat) : State :=
  let t₁ := s.h + bigSigma1 s.e + ch s.e s.f s.g + k t + w t
  let t₂ := bigSigma0 s.a + maj s.a s.b s.c
  { a := t₁ + t₂, b := s.a, c := s.b, d := s.c, e := s.d + t₁, f := s.e, g := s.f, h := s.g }

/-- The next hash value. -/
def compress (s : State) (block : List Byte) : State :=
  let last := (List.range 64).foldl (round (schedule block)) s
  { a := s.a + last.a, b := s.b + last.b, c := s.c + last.c, d := s.d + last.d, e := s.e + last.e
    f := s.f + last.f, g := s.g + last.g, h := s.h + last.h }

/-- The hash value after the first blocks of a message. -/
def blocks (message : List Byte) (count : Nat) : State :=
  (List.range count).foldl (fun s i => compress s ((message.drop (64 * i)).take 64)) initial

/-- The zero bytes of the padding: the fewest that leave eight bytes to the end of a block. -/
def zeros (length : Nat) : Nat := (119 - length % 64) % 64

/-- A message with its padding: a one bit, zeros, and its length in bits. -/
def pad (message : List Byte) : List Byte :=
  message ++ 0x80 :: List.replicate (zeros message.length) 0 ++ Endian.beBytes 8 (8 * message.length)

/-- The bytes of a hash value. -/
def digest (s : State) : List Byte :=
  Endian.be32 s.a ++ Endian.be32 s.b ++ Endian.be32 s.c ++ Endian.be32 s.d ++ Endian.be32 s.e ++ Endian.be32 s.f ++
    Endian.be32 s.g ++ Endian.be32 s.h

/-- SHA-256. -/
def hash (message : List Byte) : List Byte := digest (blocks (pad message) ((pad message).length / 64))

/-- A key filled to the block of a hash function, hashed first where it is longer. -/
def blockKey (hash : List Byte → List Byte) (block : Nat) (key : List Byte) : List Byte :=
  let short := if block < key.length then hash key else key
  short ++ List.replicate (block - short.length) 0

/-- HMAC over a hash function. -/
def hmac (hash : List Byte → List Byte) (block : Nat) (key text : List Byte) : List Byte :=
  let key := blockKey hash block key
  hash (key.map (· ^^^ 0x5C) ++ hash (key.map (· ^^^ 0x36) ++ text))

variable {message more : List Byte} {count : Nat}

theorem zeros_lt (length : Nat) : zeros length < 64 := Nat.mod_lt _ (by decide)

theorem length_zeros (length : Nat) : (length + 1 + zeros length) % 64 = 56 := by
  rw [zeros]
  omega

theorem digest_length (s : State) : (digest s).length = 32 := by
  simp only [digest, List.length_append, Endian.be32_length]

theorem hash_length (message : List Byte) : (hash message).length = 32 := digest_length _

theorem blocks_append (more : List Byte) (within : 64 * count ≤ message.length) :
    blocks (message ++ more) count = blocks message count := by
  rw [blocks, blocks]
  apply List.foldl_ext
  intro s i member
  rw [List.mem_range] at member
  rw [List.drop_append_of_le_length (by omega), List.take_append_of_le_length]
  rw [List.length_drop]
  omega

theorem blocks_succ (message : List Byte) (count : Nat) :
    blocks message (count + 1) = compress (blocks message count) ((message.drop (64 * count)).take 64) := by
  rw [blocks, List.range_succ, List.foldl_append]
  rfl

end BenchPod.Sha256
