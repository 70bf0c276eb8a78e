import Mathlib.Data.Vector.Basic
import BenchPod.Library.Crc
import BenchPod.Library.StrideLoop

/-!
# Rewriting the flash in place

The commit reads the staged image twice: a pre-pass compares every sector with its recorded check
before the first erase, and the main pass reads each sector once more on its way into the flash.
The staging memory may answer every read differently.
-/

namespace BenchPod.Commit

/-- `FLASH_SECTOR_BYTES`. -/
def sectorBytes : Nat := 0x2000

/-- `OTA_RD_BURST`. -/
def readBurst : Nat := 128

/-- `OTA_READ_TRIES`. -/
def readTries : Nat := 3

/-- `OTA_SECTOR_TRIES`. -/
def sectorTries : Nat := 3

/-- `OTA_MAX_SECTORS`. -/
def maxSectors : Nat := 128

/-- `FLASH_BASE_ADDR`. -/
def flashBase : Word := 0x08000000

/-- `OTA_PSRAM_BASE`. -/
def psramBase : Word := 0

/-- The sector buffer. -/
abbrev Sector := Vector Byte sectorBytes

/-- The words of a byte row, as the core reads them. -/
def leWords : List Byte → List Word
  | b0 :: b1 :: b2 :: b3 :: bytes => BitVec.ofNat 32 (Endian.leNat [b0, b1, b2, b3]) :: leWords bytes
  | _ => []

/-- The polynomial of the check unit. -/
def crcPoly : Word := 0x04C11DB7

def ramCrc32 (buf : Sector) : Word := Crc.digest crcPoly 0xFFFFFFFF (leWords buf.toList)

/-- Which of the two readings of the image. -/
inductive Pass
  | pre
  | main
  deriving DecidableEq

/-- The memory parts, as they behave in one commit. -/
structure Chips where
  /-- The byte a burst delivers: the pass, the sector, the try and the offset within the sector. -/
  staged : Pass → Nat → Nat → Nat → Byte
  /-- The error flags after an erase and after a program: the sector and the try. -/
  eraseErrors : Nat → Nat → Word
  programErrors : Nat → Nat → Word
  /-- A word read back: the sector, the try and the index. -/
  readBack : Nat → Nat → Nat → Word

/-- What the commit does to the memory parts. -/
inductive Access
  | read (pass : Pass) (addr : Word) (buf : Sector)
  | erase (flashAbs : Word)
  | program (flashAbs : Word) (buf : Sector)

/-- An erase or a program. -/
def Access.Rewrites : Access → Prop
  | .read _ _ _ => False
  | .erase _ => True
  | .program _ _ => True

/-- The sector buffer and what was done so far. -/
structure Ram where
  buf : Sector
  trace : List Access := []

def base (s : Nat) : Word := BitVec.ofNat 32 s <<< 13

def len (total : Word) (s : Nat) : Word :=
  if BitVec.ofNat 32 sectorBytes < total - base s then BitVec.ofNat 32 sectorBytes else total - base s

/-- The tail past the image, filled. -/
def fillTail (len : Nat) (buf : Sector) : Sector := Vector.ofFn fun i => if len ≤ i.val then 0xFF else buf[i.val]

variable (chips : Chips)

/-- `ram_psram_read_burst`: `n` bytes into the buffer at `off`. -/
def readBurstAt (pass : Pass) (s t len : Nat) (buf : Sector) (off : Nat) : Sector :=
  let n := if readBurst < len - off then readBurst else len - off
  Vector.ofFn fun i =>
    if off ≤ i.val ∧ i.val < off + n then chips.staged pass s t i.val else buf[i.val]

/-- One try of `ram_read_checked`. -/
def readTry (pass : Pass) (s t len : Nat) (buf : Sector) : Sector :=
  (strides len readBurst).foldl (readBurstAt chips pass s t len) (fillTail len buf)

/-- `ram_read_checked`, with `left` tries to go. -/
def readCheckedLoop (pass : Pass) (s : Nat) (len crc : Word) : Nat → Ram → Ram × Int
  | 0, ram => (ram, -1)
  | left + 1, ram =>
    let buf := readTry chips pass s (readTries - (left + 1)) len.toNat ram.buf
    let ram := { buf, trace := ram.trace ++ [.read pass (psramBase + base s) buf] }
    if ramCrc32 buf = crc then (ram, 0) else readCheckedLoop pass s len crc left ram

def ramReadChecked (pass : Pass) (s : Nat) (len crc : Word) (ram : Ram) : Ram × Int :=
  readCheckedLoop chips pass s len crc readTries ram

/-- `ram_flash_sector`, with `left` tries to go. -/
def flashSectorLoop (s : Nat) : Nat → Ram → Ram × Int
  | 0, ram => (ram, -1)
  | left + 1, ram =>
    let t := sectorTries - (left + 1)
    let err := chips.eraseErrors s t ||| chips.programErrors s t
    let after := { ram with
      trace := ram.trace ++ [.erase (flashBase + base s), .program (flashBase + base s) ram.buf] }
    if err ≠ 0 then flashSectorLoop s left after
    else if (List.range (sectorBytes / 4)).map (chips.readBack s t) = leWords ram.buf.toList then
      (after, 0)
    else flashSectorLoop s left after

def ramFlashSector (s : Nat) (ram : Ram) : Ram × Int := flashSectorLoop chips s sectorTries ram

variable (total : Word) (sectorCrc : Nat → Word)

/-- The pre-pass over the sectors. -/
def prePass : List Nat → Ram → Ram × Int
  | [], ram => (ram, 0)
  | s :: sectors, ram =>
    let (ram, rc) := ramReadChecked chips .pre s (len total s) (sectorCrc s) ram
    if rc ≠ 0 then (ram, -1) else prePass sectors ram

/-- One sector of the main pass; neither result is looked at. -/
def mainSector (ram : Ram) (s : Nat) : Ram :=
  let ram := (ramReadChecked chips .main s (len total s) (sectorCrc s) ram).1
  (ramFlashSector chips s ram).1

/-- `ram_commit_all`: what it returns, or `none` when it ends in the reset. -/
def ramCommitAll (nsectors : Nat) (ram : Ram) : Ram × Option Int :=
  let (ram, rc) := prePass chips total sectorCrc (List.range nsectors) ram
  if rc ≠ 0 then (ram, some (-1))
  else ((List.range nsectors).foldl (mainSector chips total sectorCrc) ram, none)

/-- What a try of a read leaves in the buffer. -/
def held (pass : Pass) (s t len : Nat) : Sector :=
  Vector.ofFn fun i => if i.val < len then chips.staged pass s t i.val else 0xFF

/-- The try `t` of a reading of the sector delivers what its check was recorded for. -/
def Matches (pass : Pass) (s t : Nat) : Prop := ramCrc32 (held chips pass s t (len total s).toNat) = sectorCrc s

/-- Nothing is erased or programmed before the pre-pass matched every recorded check, and a sector is
only programmed with what its own check was recorded for. -/
structure Verified (nsectors : Nat) (trace : List Access) : Prop where
  checked : ∀ before access after, trace = before ++ access :: after → access.Rewrites →
    ∀ s < nsectors, ∃ buf, .read .pre (psramBase + base s) buf ∈ before ∧ ramCrc32 buf = sectorCrc s
  programmed : ∀ s < nsectors, ∀ buf, .program (flashBase + base s) buf ∈ trace → ramCrc32 buf = sectorCrc s

theorem readTry_eq (pass : Pass) (s t len : Nat) (buf : Sector) :
    readTry chips pass s t len buf = held chips pass s t len := by
  let closed (pos : Nat) : Sector := Vector.ofFn fun i =>
    if i.val < pos then chips.staged pass s t i.val else (fillTail len buf)[i.val]
  have start : closed 0 = fillTail len buf := by
    apply Vector.ext
    intro i within
    simp [closed, fillTail]
  have looped : (strides len readBurst).foldl (readBurstAt chips pass s t len) (closed 0) = closed len := by
    apply foldl_strides (by decide)
    intro pos below _
    apply Vector.ext
    intro i within
    simp only [closed, readBurstAt, Vector.getElem_ofFn]
    grind
  rw [readTry, ← start, looped, held]
  apply Vector.ext
  intro i within
  simp only [closed, Vector.getElem_ofFn, fillTail]
  split
  · rfl
  · rw [if_pos (by omega)]

theorem readCheckedLoop_trace (pass : Pass) (s : Nat) (len crc : Word) (left : Nat) (ram : Ram) :
    ∃ reads, (readCheckedLoop chips pass s len crc left ram).1.trace = ram.trace ++ reads ∧
      (∀ access ∈ reads, ¬ access.Rewrites) ∧
      ((readCheckedLoop chips pass s len crc left ram).2 = 0 →
        .read pass (psramBase + base s) (readCheckedLoop chips pass s len crc left ram).1.buf ∈ reads) := by
  induction left generalizing ram with
  | zero => exact ⟨[], by simp [readCheckedLoop], by simp, by simp [readCheckedLoop]⟩
  | succ left ih =>
    rw [readCheckedLoop]
    split
    · exact ⟨[_], rfl, by simp [Access.Rewrites], fun _ => List.mem_singleton.mpr rfl⟩
    · obtain ⟨reads, grown, harmless, last⟩ := ih _
      refine ⟨_ :: reads, by rw [grown, List.append_assoc, List.singleton_append], ?_, ?_⟩
      · intro access member
        cases member with
        | head => exact id
        | tail _ member => exact harmless access member
      · intro matched
        exact List.mem_cons_of_mem _ (last matched)

theorem readCheckedLoop_outcome (pass : Pass) (s : Nat) (len crc : Word) {left : Nat}
    (positive : 0 < left) (ram : Ram) :
    ((readCheckedLoop chips pass s len crc left ram).2 = 0 ∧
      ramCrc32 (readCheckedLoop chips pass s len crc left ram).1.buf = crc ∧
      ∃ k < left, ramCrc32 (held chips pass s (readTries - (k + 1)) len.toNat) = crc) ∨
    ((readCheckedLoop chips pass s len crc left ram).2 = -1 ∧
      ramCrc32 (readCheckedLoop chips pass s len crc left ram).1.buf ≠ crc ∧
      ∀ k < left, ramCrc32 (held chips pass s (readTries - (k + 1)) len.toNat) ≠ crc) := by
  induction left generalizing ram with
  | zero => cases positive
  | succ left ih =>
    rw [readCheckedLoop, readTry_eq]
    split
    · rename_i matched
      exact .inl ⟨rfl, matched, left, Nat.lt_succ_self left, matched⟩
    · rename_i failed
      cases left with
      | zero =>
        refine .inr ⟨rfl, failed, ?_⟩
        intro k within
        obtain rfl : k = 0 := by omega
        exact failed
      | succ left =>
        obtain ⟨rc, buf, k, within, matched⟩ | ⟨rc, buf, none⟩ := ih (Nat.succ_pos left) _
        · exact .inl ⟨rc, buf, k, by omega, matched⟩
        · refine .inr ⟨rc, buf, ?_⟩
          intro k within
          by_cases last : k = left + 1
          · rw [last]
            exact failed
          · exact none k (by omega)

theorem ramReadChecked_outcome (pass : Pass) (s : Nat) (ram : Ram) :
    let after := ramReadChecked chips pass s (len total s) (sectorCrc s) ram
    (after.2 = 0 ↔ ∃ t < readTries, Matches chips total sectorCrc pass s t) ∧
      (ramCrc32 after.1.buf = sectorCrc s ↔ ∃ t < readTries, Matches chips total sectorCrc pass s t) := by
  have tries := readCheckedLoop_outcome chips pass s (len total s) (sectorCrc s) (by decide : 0 < readTries) ram
  obtain ⟨rc, buf, k, within, matched⟩ | ⟨rc, buf, none⟩ := tries
  · have found : ∃ t < readTries, Matches chips total sectorCrc pass s t :=
      ⟨readTries - (k + 1), by omega, matched⟩
    exact ⟨⟨fun _ => found, fun _ => rc⟩, ⟨fun _ => found, fun _ => buf⟩⟩
  · have unmatched : ¬ ∃ t < readTries, Matches chips total sectorCrc pass s t := by
      rintro ⟨t, within, matched⟩
      apply none (readTries - (t + 1)) (by omega)
      rw [show readTries - (readTries - (t + 1) + 1) = t by omega]
      exact matched
    refine ⟨⟨fun passed => ?_, fun found => (unmatched found).elim⟩,
      ⟨fun passed => (buf passed).elim, fun found => (unmatched found).elim⟩⟩
    rw [ramReadChecked, rc] at passed
    cases passed

theorem flashSectorLoop_trace (s left : Nat) (ram : Ram) :
    ∃ acts, (flashSectorLoop chips s left ram).1 = { ram with trace := ram.trace ++ acts } ∧
      (∀ access ∈ acts, access = .erase (flashBase + base s) ∨ access = .program (flashBase + base s) ram.buf) ∧
      (0 < left → .program (flashBase + base s) ram.buf ∈ acts) := by
  induction left generalizing ram with
  | zero => exact ⟨[], by simp [flashSectorLoop], by simp, by simp⟩
  | succ left ih =>
    have retried : ∃ acts, (flashSectorLoop chips s left { ram with
        trace := ram.trace ++ [.erase (flashBase + base s), .program (flashBase + base s) ram.buf] }).1 =
            { ram with trace := ram.trace ++ acts } ∧
          (∀ access ∈ acts, access = .erase (flashBase + base s) ∨ access = .program (flashBase + base s) ram.buf) ∧
          (0 < left + 1 → .program (flashBase + base s) ram.buf ∈ acts) := by
      obtain ⟨acts, grown, own, _⟩ := ih { ram with
        trace := ram.trace ++ [.erase (flashBase + base s), .program (flashBase + base s) ram.buf] }
      refine ⟨[.erase (flashBase + base s), .program (flashBase + base s) ram.buf] ++ acts, ?_, ?_, ?_⟩
      · rw [grown, List.append_assoc]
      · intro access member
        rcases List.mem_append.mp member with first | later
        · simpa using first
        · exact own access later
      · simp
    rw [flashSectorLoop]
    split
    · exact retried
    · split
      · refine ⟨[_, _], rfl, ?_, ?_⟩
        · simp
        · simp
      · exact retried

theorem mainSector_trace (ram : Ram) (s : Nat) :
    ∃ acts, (mainSector chips total sectorCrc ram s).trace = ram.trace ++ acts ∧
      (∀ flashAbs buf, .program flashAbs buf ∈ acts → flashAbs = flashBase + base s ∧
        (ramCrc32 buf = sectorCrc s ↔ ∃ t < readTries, Matches chips total sectorCrc .main s t)) ∧
      ∃ buf, .program (flashBase + base s) buf ∈ acts := by
  obtain ⟨reads, read, harmless, _⟩ := readCheckedLoop_trace chips .main s (len total s) (sectorCrc s) readTries ram
  have outcome := (ramReadChecked_outcome chips total sectorCrc .main s ram).2
  obtain ⟨acts, flashed, own, programmed⟩ := flashSectorLoop_trace chips s sectorTries
    (ramReadChecked chips .main s (len total s) (sectorCrc s) ram).1
  refine ⟨reads ++ acts, ?_, ?_, _, List.mem_append_right reads (programmed (by decide))⟩
  · rw [mainSector, ramFlashSector, flashed, ramReadChecked, read, List.append_assoc]
  · intro flashAbs buf member
    rcases List.mem_append.mp member with early | late
    · exact (harmless _ early trivial).elim
    · rcases own _ late with other | same
      · cases other
      · cases same
        exact ⟨rfl, outcome⟩

theorem mainPass_trace (sectors : List Nat) (ram : Ram) :
    ∃ acts, (sectors.foldl (mainSector chips total sectorCrc) ram).trace = ram.trace ++ acts ∧
      (∀ flashAbs buf, .program flashAbs buf ∈ acts → ∃ s ∈ sectors, flashAbs = flashBase + base s ∧
        (ramCrc32 buf = sectorCrc s ↔ ∃ t < readTries, Matches chips total sectorCrc .main s t)) ∧
      ∀ s ∈ sectors, ∃ buf, .program (flashBase + base s) buf ∈ acts ∧
        (ramCrc32 buf = sectorCrc s ↔ ∃ t < readTries, Matches chips total sectorCrc .main s t) := by
  induction sectors generalizing ram with
  | nil => exact ⟨[], by simp, by simp, by simp⟩
  | cons s sectors ih =>
    obtain ⟨first, grown, own, buf, programmed⟩ := mainSector_trace chips total sectorCrc ram s
    obtain ⟨rest, grown', own', programmed'⟩ := ih (mainSector chips total sectorCrc ram s)
    refine ⟨first ++ rest, ?_, ?_, ?_⟩
    · rw [List.foldl_cons, grown', grown, List.append_assoc]
    · intro flashAbs buf member
      rcases List.mem_append.mp member with early | late
      · exact ⟨s, List.mem_cons_self, own flashAbs buf early⟩
      · obtain ⟨s', listed, fits⟩ := own' flashAbs buf late
        exact ⟨s', List.mem_cons_of_mem s listed, fits⟩
    · intro s' listed
      cases listed with
      | head => exact ⟨buf, List.mem_append_left rest programmed, (own _ buf programmed).2⟩
      | tail _ listed =>
        obtain ⟨buf', member, fits⟩ := programmed' s' listed
        exact ⟨buf', List.mem_append_right first member, fits⟩

/-- The pre-pass only reads; when it succeeds it has read a match of every sector, and it fails
exactly when no try of some sector matches. -/
theorem prePass_trace (sectors : List Nat) (ram : Ram) :
    ∃ reads, (prePass chips total sectorCrc sectors ram).1.trace = ram.trace ++ reads ∧
      (∀ access ∈ reads, ¬ access.Rewrites) ∧
      (((prePass chips total sectorCrc sectors ram).2 = 0 ∧
          (∀ s ∈ sectors, ∃ t < readTries, Matches chips total sectorCrc .pre s t) ∧
          ∀ s ∈ sectors, ∃ buf, .read .pre (psramBase + base s) buf ∈ reads ∧
            ramCrc32 buf = sectorCrc s) ∨
        ((prePass chips total sectorCrc sectors ram).2 ≠ 0 ∧
          ∃ s ∈ sectors, ∀ t < readTries, ¬ Matches chips total sectorCrc .pre s t)) := by
  induction sectors generalizing ram with
  | nil => exact ⟨[], by simp [prePass], by simp, .inl ⟨rfl, by simp, by simp⟩⟩
  | cons s sectors ih =>
    obtain ⟨first, grown, harmless, last⟩ := readCheckedLoop_trace chips .pre s
      (len total s) (sectorCrc s) readTries ram
    obtain ⟨passes, holds⟩ := ramReadChecked_outcome chips total sectorCrc .pre s ram
    rw [prePass]
    dsimp only
    split
    · rename_i failed
      have refused : (-1 : Int) ≠ 0 := by decide
      refine ⟨first, grown, harmless, .inr ⟨refused, s, List.mem_cons_self, ?_⟩⟩
      intro t within matched
      exact failed (passes.mpr ⟨t, within, matched⟩)
    · rename_i passed
      rw [not_not] at passed
      obtain ⟨rest, grown', harmless', outcome⟩ := ih (ramReadChecked chips .pre s (len total s) (sectorCrc s) ram).1
      refine ⟨first ++ rest, ?_, ?_, ?_⟩
      · rw [grown', ramReadChecked, grown, List.append_assoc]
      · intro access member
        exact (List.mem_append.mp member).elim (harmless access) (harmless' access)
      · obtain ⟨rc, all, found⟩ | ⟨rc, s', listed, unmatched⟩ := outcome
        · refine .inl ⟨rc, List.forall_mem_cons.mpr ⟨passes.mp passed, all⟩,
            List.forall_mem_cons.mpr ⟨⟨_, List.mem_append_left rest (last passed), ?_⟩, ?_⟩⟩
          · exact holds.mpr (passes.mp passed)
          · intro s' listed
            obtain ⟨buf, member, fits⟩ := found s' listed
            exact ⟨buf, List.mem_append_right first member, fits⟩
        · exact .inr ⟨rc, s', List.mem_cons_of_mem s listed, unmatched⟩

variable {chips total sectorCrc}

theorem flashAddr_injective {s s' : Nat} (within : s < maxSectors) (within' : s' < maxSectors)
    (same : flashBase + base s = flashBase + base s') : s = s' := by
  have bases : base s = base s' := by simpa using same
  have numbers := congrArg BitVec.toNat bases
  simp only [base, BitVec.toNat_shiftLeft, BitVec.toNat_ofNat, Nat.shiftLeft_eq] at numbers
  simp only [maxSectors] at within within'
  omega

theorem before_main {reads acts before after : List Access} {access : Access}
    (harmless : ∀ access ∈ reads, ¬ access.Rewrites) (split : reads ++ acts = before ++ access :: after)
    (rewrites : access.Rewrites) : ∃ front, before = reads ++ front := by
  obtain ⟨front, whole, _⟩ | ⟨middle, cut, tail⟩ := List.append_eq_append_iff.mp split
  · exact ⟨front, whole⟩
  · cases middle with
    | nil => exact ⟨[], by simpa using cut.symm⟩
    | cons head middle =>
      simp only [List.cons_append, List.cons.injEq] at tail
      refine (harmless access ?_ rewrites).elim
      rw [cut, tail.1]
      simp

theorem ramCommitAll_passed {nsectors : Nat} {ram : Ram}
    (rc : (prePass chips total sectorCrc (List.range nsectors) ram).2 = 0) :
    (ramCommitAll chips total sectorCrc nsectors ram).1 =
      (List.range nsectors).foldl (mainSector chips total sectorCrc)
        (prePass chips total sectorCrc (List.range nsectors) ram).1 := by
  simp [ramCommitAll, rc]

theorem ramCommitAll_refused {nsectors : Nat} {ram : Ram}
    (rc : (prePass chips total sectorCrc (List.range nsectors) ram).2 ≠ 0) :
    (ramCommitAll chips total sectorCrc nsectors ram).1 =
      (prePass chips total sectorCrc (List.range nsectors) ram).1 := by
  simp [ramCommitAll, rc]

theorem matches_of_verified {nsectors : Nat} {buf : Sector}
    (matched : ∀ s < nsectors, ∃ t < readTries, Matches chips total sectorCrc .pre s t)
    (verified : Verified sectorCrc nsectors (ramCommitAll chips total sectorCrc nsectors { buf }).1.trace) :
    ∀ s < nsectors, ∃ t < readTries, Matches chips total sectorCrc .main s t := by
  intro s below
  obtain ⟨reads, _, _, outcome⟩ := prePass_trace chips total sectorCrc (List.range nsectors) { buf }
  obtain ⟨rc, _, _⟩ | ⟨_, s', listed, unmatched⟩ := outcome
  · obtain ⟨acts, grown, _, programmed⟩ := mainPass_trace chips total sectorCrc (List.range nsectors)
      (prePass chips total sectorCrc (List.range nsectors) { buf }).1
    obtain ⟨buf', member, fits⟩ := programmed s (List.mem_range.mpr below)
    apply fits.mp (verified.programmed s below buf' _)
    rw [ramCommitAll_passed rc, grown]
    exact List.mem_append_right _ member
  · obtain ⟨t, tried, found⟩ := matched s' (List.mem_range.mp listed)
    exact (unmatched t tried found).elim

/-- A staging memory that delivers another first byte to the main pass. -/
def flippedChips : Chips where
  staged pass _ _ i := if pass = .main ∧ i = 0 then 1 else 0
  eraseErrors _ _ := 0
  programErrors _ _ := 0
  readBack _ _ _ := 0

/-- The checks recorded for an image of zeros. -/
def zeroCrc (total : Word) (s : Nat) : Word := ramCrc32 (held flippedChips .pre s 0 (len total s).toNat)

/-- The sector buffer as it comes up. -/
def clearBuf : Sector := Vector.replicate sectorBytes 0

theorem zeroCrc_matches (total : Word) (s : Nat) : Matches flippedChips total (zeroCrc total) .pre s 0 := by
  rw [Matches, zeroCrc]

theorem leWords_sector (buf : Sector) :
    leWords buf.toList =
      BitVec.ofNat 32 (Endian.leNat ((List.range 4).map fun i => buf.toList.getD i 0)) ::
        leWords (buf.toList.drop 4) := by
  have long : buf.toList.length = sectorBytes := buf.size_toArray
  match shape : buf.toList, long with
  | b0 :: b1 :: b2 :: b3 :: bytes, _ => rfl

theorem flipped_getD (pass : Pass) (t : Nat) {i : Nat} (front : i < 16) :
    (held flippedChips pass 0 t 16).toList.getD i 0 = if pass = .main ∧ i = 0 then 1 else 0 := by
  have within : i < sectorBytes := Nat.lt_trans front (by decide)
  rw [List.getD_eq_getElem?_getD]
  simp [held, flippedChips, front, within]

theorem flipped_front (pass : Pass) (t : Nat) :
    (List.range 4).map (fun i => (held flippedChips pass 0 t 16).toList.getD i 0) =
      (List.range 4).map fun i => if pass = .main ∧ i = 0 then 1 else 0 := by
  apply List.map_congr_left
  intro i member
  have below := List.mem_range.mp member
  exact flipped_getD pass t (by omega)

theorem flipped_drop (t : Nat) :
    (held flippedChips .main 0 t 16).toList.drop 4 = (held flippedChips .pre 0 0 16).toList.drop 4 := by
  apply List.ext_getElem
  · simp
  · intro i _ _
    simp [held, flippedChips]

theorem flipped_differs (t : Nat) :
    ramCrc32 (held flippedChips .main 0 t 16) ≠ ramCrc32 (held flippedChips .pre 0 0 16) := by
  rw [ramCrc32, ramCrc32, leWords_sector, leWords_sector (held flippedChips .pre 0 0 16), flipped_drop]
  apply Crc.digest_ne (by decide)
  rw [flipped_front, flipped_front]
  decide

end BenchPod.Commit
