import BenchPod.Library.Emitter
import BenchPod.Library.Nor
import BenchPod.Library.StrideLoop

/-!
# Blob slots in the configuration flash

The slots of `blob_store.c`, the header that commits one, and the operations that `w25q_program` and
`erase_range` give the chip.
-/

namespace BenchPod
namespace Blob

open Endian

def w25qSector : Nat := 4096

def w25qBlock : Nat := 65536

def w25qPage : Nat := 256

/-- An entry of `k_slots`: header sector and data. -/
structure Slot where
  name : String
  base : Nat
  size : Nat

/-- `k_slots`, in the order of `blob_id_t`. -/
def kSlots : List Slot :=
  [⟨"gw0", 0x100000, 0x040000⟩, ⟨"gw1", 0x140000, 0x040000⟩, ⟨"esp", 0x200000, 0x400000⟩,
    ⟨"fw", 0x600000, 0x100000⟩, ⟨"ca", 0x180000, 0x010000⟩, ⟨"proxy", 0x190000, 0x002000⟩,
    ⟨"bridge", 0x700000, 0x100000⟩]

def blobSlotCount : Nat := 7

/-- `BLOB_COUNT`, the release blobs. -/
def blobCount : Nat := 3

/-- The slot of an id; one without bytes for an id that names none. -/
def slotAt (id : Nat) : Slot := kSlots.getD id ⟨"?", 0, 0⟩

def blobSlotBase (id : Nat) : Nat := (slotAt id).base

def blobHdrSize : Nat := 0x1000

def blobHdrMagic : Word := 0x4C425042

def blobHdrVersion : Half := 1

def blobCommitOff : Nat := 0x80

def blobCommitMagic : Word := 0x544D4F43

def blobExtraOff : Nat := 0x100

def blobExtraMax : Nat := 0x100

def blobSlotCapacity (id : Nat) : Nat := (slotAt id).size - blobHdrSize

/-- First address of a slot's data. -/
def blobData (id : Nat) : Nat := blobSlotBase id + blobHdrSize

/-- `slot_ok`, on a chip of `capacity` bytes. -/
def slotOk (capacity id : Nat) : Bool :=
  id < blobSlotCount && (id < blobCount || blobSlotBase id + (slotAt id).size ≤ capacity)

/-- A SHA-256. -/
abbrev Digest := Vector Byte 32

/-- `blob_hdr_t` without its constant fields, and what `blob_info_t` keeps of it. -/
structure BlobInfo where
  len : Nat
  version : Word
  sha256 : List Byte
  deriving DecidableEq

/-- The header `blob_store_write_ext` programs. -/
def BlobInfo.header (info : BlobInfo) (id : Nat) : List Byte :=
  le32 blobHdrMagic ++ le16 blobHdrVersion ++ leBytes 2 id ++ leBytes 4 info.len ++ le32 info.version ++
    info.sha256 ++ List.replicate 16 0

/-- `load_slot`, its reads gone through: the header of a slot with a commit word. -/
def loadSlot (byte : Nat → Byte) (id : Nat) : Option BlobInfo :=
  let base := blobSlotBase id
  let len := leNat (Nor.bytes byte (base + 8) 4)
  if rd32 (Nor.bytes byte base 4) ≠ blobHdrMagic ∨ rd16 (Nor.bytes byte (base + 4) 2) ≠ blobHdrVersion ∨
      leNat (Nor.bytes byte (base + 6) 2) ≠ id ∨
      rd32 (Nor.bytes byte (base + blobCommitOff) 4) ≠ blobCommitMagic ∨ len = 0 ∨
      blobSlotCapacity id < len then
    none
  else some ⟨len, rd32 (Nor.bytes byte (base + 12) 4), Nor.bytes byte (base + 16) 32⟩

/-- `w25q_program`: one operation for each page the range touches. -/
def w25qProgram (addr : Nat) (data : List Byte) : List NorOp :=
  if data = [] then []
  else
    let n := min data.length (w25qPage - addr % w25qPage)
    .program addr (data.take n) :: w25qProgram (addr + n) (data.drop n)
termination_by data.length
decreasing_by
  rename_i some_left
  have left := List.length_pos_iff.mpr some_left
  have room := Nat.mod_lt addr (show 0 < w25qPage by decide)
  simp only [List.length_drop]
  omega

/-- The loop of `erase_range`: a block where one fits, a sector otherwise. -/
def eraseLoop (stop addr : Nat) : List NorOp :=
  if addr < stop then
    if addr % w25qBlock = 0 ∧ w25qBlock ≤ stop - addr then
      .erase addr w25qBlock :: eraseLoop stop (addr + w25qBlock)
    else .erase addr w25qSector :: eraseLoop stop (addr + w25qSector)
  else []
termination_by stop - addr
decreasing_by
  all_goals
    simp only [w25qBlock, w25qSector]
    omega

/-- `erase_range`.  Both ends are multiples of a sector below `2 ^ 32`, so that the sums of the loop
do not wrap. -/
def eraseRange (addr len : Nat) : List NorOp :=
  eraseLoop ((addr + len + w25qSector - 1) % 2 ^ 32 / w25qSector * w25qSector)
    (addr / w25qSector * w25qSector)

/-- What the erase loop gives the chip, between two multiples of a sector. -/
structure Erases (ops : List NorOp) (start stop : Nat) : Prop where
  erases : ∀ op ∈ ops, ∃ off size, op = .erase off size
  sized : ∀ op ∈ ops, (op.size = w25qSector ∨ op.size = w25qBlock) ∧ op.size ∣ op.off
  inside : NorOp.Inside ops start stop
  covers : ∀ x, start ≤ x → x < stop → ∃ op ∈ ops, op.Covers x

theorem Erases.cons {ops : List NorOp} {addr size stop : Nat} (rest : Erases ops (addr + size) stop)
    (sized : size = w25qSector ∨ size = w25qBlock) (aligned : size ∣ addr) (fits : addr + size ≤ stop) :
    Erases (.erase addr size :: ops) addr stop where
  erases := by
    intro op member
    obtain rfl | later := List.mem_cons.mp member
    · exact ⟨addr, size, rfl⟩
    · exact rest.erases op later
  sized := by
    intro op member
    obtain rfl | later := List.mem_cons.mp member
    · exact ⟨sized, aligned⟩
    · exact rest.sized op later
  inside := by
    intro op member
    obtain rfl | later := List.mem_cons.mp member
    · exact ⟨Nat.le_refl _, fits⟩
    · obtain ⟨above, below⟩ := rest.inside op later
      exact ⟨by omega, below⟩
  covers := by
    intro x above below
    by_cases now : x < addr + size
    · exact ⟨_, List.mem_cons_self .., above, now⟩
    · obtain ⟨op, member, covers⟩ := rest.covers x (by omega) below
      exact ⟨op, List.mem_cons_of_mem _ member, covers⟩

theorem eraseLoop_erases (stop addr : Nat) (stops : w25qSector ∣ stop) (starts : w25qSector ∣ addr) :
    Erases (eraseLoop stop addr) addr stop := by
  induction addr using eraseLoop.induct stop with
  | case1 addr below block ih =>
    rw [eraseLoop, if_pos below, if_pos block]
    obtain ⟨aligned, fits⟩ := block
    refine (ih (Nat.dvd_add starts (by decide))).cons (.inr rfl) (Nat.dvd_of_mod_eq_zero aligned) ?_
    omega
  | case2 addr below small ih =>
    rw [eraseLoop, if_pos below, if_neg small]
    refine (ih (Nat.dvd_add starts (Nat.dvd_refl _))).cons (.inl rfl) starts ?_
    obtain ⟨k, rfl⟩ := stops
    obtain ⟨m, rfl⟩ := starts
    simp only [w25qSector] at below ⊢
    omega
  | case3 addr above =>
    rw [eraseLoop, if_neg above]
    refine ⟨by simp, by simp, ?_, ?_⟩
    · intro op member
      simp at member
    · intro x low high
      omega

end Blob
end BenchPod

/-!
## The blob store

`blob_store_load`, `blob_store_write_ext` and `blob_store_clear` over a chip whose erases and page
programs may fail or lose the power.  `hash` stands for the SHA-256 of mbedtls.
-/

namespace BenchPod
namespace Blob

open Endian

/-- What `blob_store_write_ext` is given. -/
structure Request where
  len : Nat
  version : Word
  sha256 : Digest
  /-- `src`: the page at an offset, or a failure. -/
  src : Nat → Option (Nat → Byte)
  extra : List Byte := []

/-- How the chip behaves during one call. -/
structure Weather where
  ops : List NorFault := []
  /-- The read-back for the hash goes through. -/
  hashRead : Bool := true
  /-- The reads of `load_slot` go through. -/
  headerRead : Bool := true

/-- The chip's contents, and `s_info` and `s_capacity`. -/
structure BlobStore where
  byte : Nat → Byte
  info : Nat → Option BlobInfo := fun _ => none
  capacity : Nat := 0

/-- A blob as a write was asked to store it. -/
structure Contents where
  version : Word
  sha256 : Digest
  data : List Byte

/-- What the index says about a blob. -/
def Contents.info (blob : Contents) : BlobInfo := ⟨blob.data.length, blob.version, blob.sha256.toList⟩

namespace Request

variable (r : Request)

/-- The byte that `src` delivers for a position. -/
def content (i : Nat) : Byte := (r.src (i / w25qPage * w25qPage)).getD (fun _ => 0) (i % w25qPage)

/-- The blob a request asks for. -/
def blob : Contents := ⟨r.version, r.sha256, (List.range r.len).map r.content⟩

/-- The checks at the top of `blob_store_write_ext`. -/
def accepted (capacity id : Nat) : Bool :=
  slotOk capacity id && r.len ≠ 0 && r.len ≤ blobSlotCapacity id && r.extra.length ≤ blobExtraMax

/-- The page loop of `blob_store_write_ext`, over the offsets still to come. -/
def programPages (data : Nat) (chip : Nor) : List Nat → Nor × NorStatus
  | [] => (chip, .done)
  | off :: offs =>
    match r.src off with
    | none => (chip, .failed)
    | some page =>
      let n := min (r.len - off) w25qPage
      Nor.andThen (chip.attempts (w25qProgram (data + off) (Nor.bytes page 0 n))) fun chip =>
        programPages data chip offs

variable (hash : List Byte → Digest)

/-- The read-back of the data against the digest. -/
def hashesBack (read : Bool) (data : Nat) (chip : Nor) : Nor × NorStatus :=
  (chip, if read ∧ hash (Nor.bytes chip.byte data r.len) = r.sha256 then .done else .failed)

/-- `blob_store_write_ext` up to the header: everything before the commit word. -/
def staged (id : Nat) (read : Bool) (chip : Nor) : Nor × NorStatus :=
  let base := blobSlotBase id
  let data := blobData id
  Nor.andThen (chip.attempts (eraseRange base (blobHdrSize + r.len))) fun chip =>
    Nor.andThen (r.programPages data chip (strides r.len w25qPage)) fun chip =>
      Nor.andThen (r.hashesBack hash read data chip) fun chip =>
        Nor.andThen (chip.attempts (w25qProgram (base + blobExtraOff) r.extra)) fun chip =>
          chip.attempts (w25qProgram base (r.blob.info.header id))

/-- The operations that program the commit word. -/
def commitWord (id : Nat) : List NorOp := w25qProgram (blobSlotBase id + blobCommitOff) (le32 blobCommitMagic)

/-- All operations of a write. -/
def written (id : Nat) (read : Bool) (chip : Nor) : Nor × NorStatus :=
  Nor.andThen (r.staged hash id read chip) fun chip => chip.attempts (commitWord id)

end Request

namespace BlobStore

variable (s : BlobStore) (hash : List Byte → Digest)

/-- `blob_store_load`.  `capacity` is 0 when no chip answers. -/
def blobStoreLoad (capacity : Nat) (reads : Nat → Bool) : BlobStore × Bool :=
  if capacity < 0x600000 then ({ byte := s.byte }, false)
  else
    ({ byte := s.byte
       info := fun id => if slotOk capacity id && reads id then loadSlot s.byte id else none
       capacity := capacity }, true)

/-- The end of a write or a clear of a slot; a lost power takes the cache with it. -/
def settle (id : Nat) (read : Bool) : Nor × NorStatus → BlobStore
  | (chip, .lost) => { byte := chip.byte }
  | (chip, .failed) => { s with byte := chip.byte, info := Function.update s.info id none }
  | (chip, .done) =>
    { s with
      byte := chip.byte
      info := Function.update s.info id (if read then loadSlot chip.byte id else none) }

/-- `blob_store_write_ext`; `true` when it returns 0. -/
def blobStoreWriteExt (id : Nat) (r : Request) (w : Weather) : BlobStore × Bool :=
  if r.accepted s.capacity id then
    let wrote := r.written hash id w.hashRead ⟨s.byte, w.ops⟩
    let s := s.settle id w.headerRead wrote
    (s, wrote.2 = .done && (s.info id).isSome)
  else (s, false)

def blobStoreClear (id : Nat) (w : Weather) : BlobStore × Bool :=
  if slotOk s.capacity id then
    let cleared := Nor.attempts ⟨s.byte, w.ops⟩ [.erase (blobSlotBase id) w25qSector]
    let s := s.settle id w.headerRead cleared
    (s, cleared.2 = .done && (s.info id).isNone)
  else (s, false)

end BlobStore

/-- The calls of the store, and a loss of power between them. -/
inductive Event
  | load (capacity : Nat) (reads : Nat → Bool)
  | write (id : Nat) (r : Request) (w : Weather)
  | clear (id : Nat) (w : Weather)
  | off

namespace BlobStore

variable (s : BlobStore) (hash : List Byte → Digest)

def step : Event → BlobStore
  | .load capacity reads => (s.blobStoreLoad capacity reads).1
  | .write id r w => (s.blobStoreWriteExt hash id r w).1
  | .clear id w => (s.blobStoreClear id w).1
  | .off => { byte := s.byte }

/-- The commit of an event: a write that came to its commit word and left it whole. -/
def commit : Event → Option (Nat × Contents)
  | .write id r w =>
    let chip : Nor := ⟨s.byte, w.ops⟩
    if r.accepted s.capacity id ∧ (r.staged hash id w.hashRead chip).2 = .done ∧
        rd32 (Nor.bytes (r.written hash id w.hashRead chip).1.byte (blobSlotBase id + blobCommitOff) 4) =
          blobCommitMagic then
      some (id, r.blob)
    else none
  | _ => none

end BlobStore

/-- The store and its commits. -/
def store (hash : List Byte → Digest) : Emitter BlobStore Event (Nat × Contents) :=
  ⟨fun s event => s.step hash event, fun s event => s.commit hash event⟩

/-- The blob committed last to each slot. -/
def latest (last : Nat → Option Contents) (commits : List (Nat × Contents)) : Nat → Option Contents :=
  commits.foldl (fun last commit => Function.update last commit.1 (some commit.2)) last

end Blob
end BenchPod
