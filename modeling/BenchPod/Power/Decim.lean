import BenchPod.Library.Averages
import BenchPod.Library.Word

/-!
# The decimator of a power profile

Samples are averaged in bins.  When the store is full, neighbouring entries are averaged in pairs and the bin
doubles, while the bin that is being filled goes on to the doubled size.  Bin by bin the store does one thing:
it makes room if it has to and takes the average of the bin.
-/

namespace BenchPod
namespace Power

/-- A current in microamperes (`int32_t`) and a voltage in millivolts with their time; a sample, and an entry
of the store. -/
structure Reading where
  tUs : Word
  ua : Word
  mv : Half
  deriving DecidableEq

/-- `pp_decim_t`; the store holds the kept entries, as many as `n` says.  The sum of the currents has 64 bits, more
than the samples of a profile can fill, the sum of the voltages has 32. -/
structure Decim where
  cap : Nat
  kept : List Reading
  bin : Nat
  accN : Nat
  accT : Word
  accUa : Int
  accMv : Nat
  deriving DecidableEq

def divRound (sum : Int) (n : Nat) : Word :=
  BitVec.ofInt 32 (if 0 ≤ sum then Int.tdiv (sum + (n / 2 : Nat)) n else Int.tdiv (sum - (n / 2 : Nat)) n)

/-- Neighbours are put together in pairs, an odd last one is dropped. -/
def pairUp {α : Type} (f : α → α → α) : List α → List α
  | a :: b :: rest => f a b :: pairUp f rest
  | _ => []

/-- The average of two entries in `decim_merge`. -/
def mergeEntries (a b : Reading) : Reading where
  tUs := a.tUs
  ua := divRound (a.ua.toInt + b.ua.toInt) 2
  mv := BitVec.ofNat 16 ((a.mv.toNat + b.mv.toNat + 1) / 2)

namespace Decim

/-- `pp_decim_init`. -/
def init (keep : Nat) : Decim where
  cap := if 2 ≤ keep then keep - keep % 2 else keep
  kept := []
  bin := if keep = 1 then 2 ^ 32 - 1 else 1
  accN := 0
  accT := 0
  accUa := 0
  accMv := 0

/-- `decim_push`. -/
def push (d : Decim) : Decim :=
  { d with
    kept := d.kept ++ [⟨d.accT, divRound d.accUa d.accN, BitVec.ofNat 16 ((d.accMv + d.accN / 2) % 2 ^ 32 / d.accN)⟩]
    accN := 0
    accUa := 0
    accMv := 0 }

/-- `decim_merge`. -/
def merge (d : Decim) : Decim := { d with kept := pairUp mergeEntries d.kept, bin := d.bin * 2 % 2 ^ 32 }

/-- A sample goes into the bin that is being filled. -/
def take (d : Decim) (x : Reading) : Decim :=
  { d with
    accT := if d.accN = 0 then x.tUs else d.accT
    accUa := d.accUa + x.ua.toInt
    accMv := (d.accMv + x.mv.toNat) % 2 ^ 32
    accN := (d.accN + 1) % 2 ^ 32 }

/-- `pp_decim_add`. -/
def add (d : Decim) (x : Reading) : Decim :=
  if d.cap = 0 then d
  else
    let d := d.take x
    if d.accN < d.bin then d
    else if d.kept.length = d.cap then d.merge
    else d.push

/-- `pp_decim_finish`. -/
def finish (d : Decim) : Decim :=
  if d.cap = 0 ∨ d.accN = 0 then d
  else (if d.kept.length = d.cap then d.merge else d).push

/-- Samples added one after the other. -/
def addAll (d : Decim) (xs : List Reading) : Decim := xs.foldl add d

theorem addAll_append (d : Decim) (xs ys : List Reading) : d.addAll (xs ++ ys) = (d.addAll xs).addAll ys :=
  List.foldl_append

end Decim

/-! ## Bin by bin -/

/-- The sum of the currents. -/
def sumUa (xs : List Reading) : Int := (xs.map fun x => x.ua.toInt).sum

/-- The sum of the voltages. -/
def sumMv (xs : List Reading) : Nat := (xs.map fun x => x.mv.toNat).sum

theorem sumUa_append (xs ys : List Reading) : sumUa (xs ++ ys) = sumUa xs + sumUa ys := by
  rw [sumUa, List.map_append, List.sum_append]
  rfl

theorem sumMv_append (xs ys : List Reading) : sumMv (xs ++ ys) = sumMv xs + sumMv ys := by
  rw [sumMv, List.map_append, List.sum_append]
  rfl

/-- The entry that is made of a bin. -/
def entryOf (first : Reading) (xs : List Reading) : Reading :=
  ⟨first.tUs, divRound (sumUa (first :: xs)) (xs.length + 1),
    BitVec.ofNat 16 ((sumMv (first :: xs) + (xs.length + 1) / 2) % 2 ^ 32 / (xs.length + 1))⟩

namespace Decim

/-- Room for an entry: the store is halved when it is full. -/
def room (d : Decim) : Decim := if d.kept.length = d.cap then d.merge else d

/-- The samples that go into the next entry. -/
def next (d : Decim) : Nat := if d.kept.length = d.cap then 2 * d.bin else d.bin

/-- A bin goes into the store. -/
def shelve (d : Decim) (first : Reading) (xs : List Reading) : Decim :=
  { d.room with
    kept := d.room.kept ++ [entryOf first xs]
    accN := 0
    accT := first.tUs
    accUa := 0
    accMv := 0 }

/-- The samples that were taken into the bin that is being filled. -/
structure Holds (d : Decim) (part : List Reading) : Prop where
  count : d.accN = part.length
  ua : d.accUa = sumUa part
  mv : d.accMv = sumMv part % 2 ^ 32
  time : ∀ first ∈ part.head?, d.accT = first.tUs

theorem Holds.take {d : Decim} {part : List Reading} (holds : d.Holds part) {x : Reading}
    (fits : part.length + 1 < 2 ^ 32) : (d.take x).Holds (part ++ [x]) where
  count := by
    rw [List.length_append, List.length_singleton, ← holds.count]
    exact Nat.mod_eq_of_lt (holds.count ▸ fits)
  ua := by
    rw [sumUa_append, ← holds.ua]
    change d.accUa + x.ua.toInt = d.accUa + (x.ua.toInt + 0)
    rw [Int.add_zero]
  mv := by
    rw [sumMv_append]
    change (d.accMv + x.mv.toNat) % 2 ^ 32 = (sumMv part + (x.mv.toNat + 0)) % 2 ^ 32
    rw [holds.mv, Nat.add_zero, Nat.mod_add_mod]
  time := by
    intro first begins
    change (if d.accN = 0 then x.tUs else d.accT) = first.tUs
    cases part with
    | nil =>
      obtain rfl : x = first := Option.some.inj begins
      exact if_pos holds.count
    | cons head tail =>
      obtain rfl : head = first := Option.some.inj begins
      have some : d.accN ≠ 0 := by
        rw [holds.count]
        exact Nat.succ_ne_zero _
      rw [if_neg some, holds.time head rfl]

theorem Holds.push {d : Decim} {first : Reading} {xs : List Reading} (holds : d.Holds (first :: xs)) :
    d.push = { d with
      kept := d.kept ++ [entryOf first xs]
      accN := 0
      accT := first.tUs
      accUa := 0
      accMv := 0 } := by
  have time := holds.time first rfl
  have count : d.accN = xs.length + 1 := holds.count
  rw [Decim.push, entryOf, holds.ua, holds.mv, count, time, Nat.mod_add_mod]

/-- Nothing was stored in between. -/
structure Stays (d e : Decim) : Prop where
  cap : e.cap = d.cap
  bin : e.bin = d.bin
  kept : e.kept = d.kept

theorem Holds.fill {d : Decim} {part : List Reading} (holds : d.Holds part) (some : d.cap ≠ 0)
    (bound : d.bin < 2 ^ 32) {xs : List Reading} (short : part.length + xs.length < d.bin) :
    (d.addAll xs).Holds (part ++ xs) ∧ d.Stays (d.addAll xs) := by
  induction xs generalizing d part with
  | nil => exact ⟨(List.append_nil part).symm ▸ holds, rfl, rfl, rfl⟩
  | cons x xs ih =>
    rw [List.length_cons] at short
    have taken := @Holds.take d part holds x (by omega)
    have length : (part ++ [x]).length = part.length + 1 := List.length_append
    have inside : (d.take x).accN < (d.take x).bin := by
      rw [taken.count, length]
      change part.length + 1 < d.bin
      omega
    have added : d.add x = d.take x := by
      rw [add, if_neg some]
      exact if_pos inside
    obtain ⟨later, stays⟩ := ih taken some bound (by
      change (part ++ [x]).length + xs.length < d.bin
      omega)
    have whole : d.addAll (x :: xs) = (d.take x).addAll xs := congrArg (addAll · xs) added
    rw [List.append_assoc, ← whole] at later
    rw [← whole] at stays
    exact ⟨later, stays.cap, stays.bin, stays.kept⟩

theorem Holds.fillUp {d : Decim} {part : List Reading} (holds : d.Holds part) (some : d.cap ≠ 0)
    (bound : d.bin < 2 ^ 32) {xs : List Reading} (more : xs ≠ []) (full : part.length + xs.length = d.bin) :
    ∃ e : Decim, e.Holds (part ++ xs) ∧ d.Stays e ∧ d.addAll xs = if d.kept.length = d.cap then e.merge else e.push := by
  obtain ⟨xs, x, rfl⟩ : ∃ most x, xs = most ++ [x] := ⟨_, _, (List.dropLast_concat_getLast more).symm⟩
  rw [List.length_append, List.length_singleton] at full
  obtain ⟨filled, stays⟩ := @Holds.fill d part holds some bound xs (by omega)
  have length : (part ++ xs).length = part.length + xs.length := List.length_append
  have taken := @Holds.take _ _ filled x (by omega)
  have reached : ¬((d.addAll xs).take x).accN < ((d.addAll xs).take x).bin := by
    rw [taken.count, List.length_append, List.length_singleton]
    change ¬(part ++ xs).length + 1 < (d.addAll xs).bin
    rw [stays.bin]
    omega
  refine ⟨(d.addAll xs).take x, ?_, ⟨stays.cap, stays.bin, stays.kept⟩, ?_⟩
  · rw [← List.append_assoc]
    exact taken
  · have last : d.addAll (xs ++ [x]) = (d.addAll xs).add x := addAll_append d xs [x]
    have kept : ((d.addAll xs).take x).kept = d.kept := stays.kept
    have cap : ((d.addAll xs).take x).cap = d.cap := stays.cap
    rw [last, add, if_neg (stays.cap ▸ some)]
    dsimp only
    rw [if_neg reached, kept, cap]

theorem Holds.merge {d : Decim} {part : List Reading} (holds : d.Holds part) : d.merge.Holds part :=
  ⟨holds.count, holds.ua, holds.mv, holds.time⟩

theorem pairUp_length {α : Type} (f : α → α → α) (xs : List α) : (pairUp f xs).length = xs.length / 2 := by
  induction xs using pairUp.induct with
  | case1 a b rest ih =>
    rw [pairUp, List.length_cons, ih, List.length_cons, List.length_cons]
    omega
  | case2 xs short =>
    rcases xs with _ | ⟨a, _ | ⟨b, rest⟩⟩
    · simp only [pairUp, List.length_nil, Nat.zero_div]
    · simp only [pairUp, List.length_nil, List.length_singleton, Nat.reduceDiv]
    · exact absurd rfl (short a b rest)

theorem Holds.shelve {d e : Decim} {first : Reading} {xs : List Reading} (holds : e.Holds (first :: xs))
    (stays : d.Stays e) :
    (if d.kept.length = d.cap then e.merge else e).push = d.shelve first xs := by
  rw [Decim.shelve, room]
  split
  · rw [holds.merge.push, Decim.merge, Decim.merge, stays.cap, stays.bin, stays.kept]
  · rw [holds.push, stays.cap, stays.bin, stays.kept]

/-- What the samples of a bin do, one after the other. -/
theorem addAll_bin {d : Decim} (empty : d.Holds []) (some : d.cap ≠ 0) (bound : d.bin * 2 < 2 ^ 32)
    (positive : 0 < d.bin) {first : Reading} {xs : List Reading} (whole : xs.length + 1 = d.next) :
    d.addAll (first :: xs) = d.shelve first xs := by
  rw [next] at whole
  by_cases full : d.kept.length = d.cap
  · rw [if_pos full] at whole
    have cut : first :: xs = (first :: xs).take d.bin ++ (first :: xs).drop d.bin := (List.take_append_drop ..).symm
    have front : ((first :: xs).take d.bin).length = d.bin := List.length_take_of_le (by rw [List.length_cons]; omega)
    have back : ((first :: xs).drop d.bin).length = d.bin := by
      rw [List.length_drop, List.length_cons]
      omega
    obtain ⟨e, held, stays, reached⟩ := @Holds.fillUp d [] empty some (by omega) _
      (List.ne_nil_of_length_pos (by omega)) ((Nat.zero_add _).trans front)
    rw [if_pos full] at reached
    have doubled : e.merge.bin = d.bin * 2 := by
      change e.bin * 2 % 2 ^ 32 = d.bin * 2
      rw [stays.bin]
      exact Nat.mod_eq_of_lt bound
    obtain ⟨e', held', stays', reached'⟩ := @Holds.fillUp e.merge _ held.merge (stays.cap ▸ some)
      (by rw [doubled]; exact bound) _ (List.ne_nil_of_length_pos (by omega : 0 < ((first :: xs).drop d.bin).length))
      (by rw [List.nil_append, front, back, doubled]; omega)
    have free : e.merge.kept.length ≠ e.merge.cap := by
      change (pairUp mergeEntries e.kept).length ≠ e.cap
      rw [pairUp_length, stays.kept, stays.cap, full]
      omega
    rw [if_neg free] at reached'
    rw [List.nil_append, ← cut] at held'
    rw [cut, addAll_append, reached, reached', held'.push, Decim.shelve, room, if_pos full, stays'.cap, stays'.bin,
      stays'.kept, Decim.merge, Decim.merge, stays.cap, stays.bin, stays.kept]
  · rw [if_neg full] at whole
    obtain ⟨e, held, stays, reached⟩ := @Holds.fillUp d [] empty some (by omega) (first :: xs) (List.cons_ne_nil _ _)
      (by rw [List.length_nil, List.length_cons]; omega)
    rw [if_neg full] at reached
    have stored := held.shelve stays
    rw [if_neg full] at stored
    rw [reached, stored]

/-- What the samples of a last bin do that is not full, and the end of the profile. -/
theorem finish_bin {d : Decim} (empty : d.Holds []) (some : d.cap ≠ 0) (bound : d.bin * 2 < 2 ^ 32)
    (positive : 0 < d.bin) {first : Reading} {xs : List Reading} (part : xs.length + 1 < d.next) :
    (d.addAll (first :: xs)).finish = d.shelve first xs := by
  have stop {e : Decim} (held : e.Holds (first :: xs)) (cap : e.cap ≠ 0) :
      e.finish = (if e.kept.length = e.cap then e.merge else e).push := by
    have taken : e.accN ≠ 0 := by
      rw [held.count]
      exact Nat.succ_ne_zero _
    rw [finish, if_neg fun either => either.elim cap taken]
  rw [next] at part
  by_cases short : xs.length + 1 < d.bin
  · obtain ⟨held, stays⟩ := @Holds.fill d [] empty some (by omega) (first :: xs)
      (by rw [List.length_nil, List.length_cons]; omega)
    have stored := held.shelve stays
    rw [stop held (stays.cap ▸ some), stays.kept, stays.cap, stored]
  · have full : d.kept.length = d.cap := by
      by_contra free
      rw [if_neg free] at part
      exact short part
    rw [if_pos full] at part
    have cut : first :: xs = (first :: xs).take d.bin ++ (first :: xs).drop d.bin := (List.take_append_drop ..).symm
    have front : ((first :: xs).take d.bin).length = d.bin := List.length_take_of_le (by rw [List.length_cons]; omega)
    have back : ((first :: xs).drop d.bin).length < d.bin := by
      rw [List.length_drop, List.length_cons]
      omega
    obtain ⟨e, held, stays, reached⟩ := @Holds.fillUp d [] empty some (by omega) _
      (List.ne_nil_of_length_pos (by omega)) ((Nat.zero_add _).trans front)
    rw [if_pos full] at reached
    have doubled : e.merge.bin = d.bin * 2 := by
      change e.bin * 2 % 2 ^ 32 = d.bin * 2
      rw [stays.bin]
      exact Nat.mod_eq_of_lt bound
    obtain ⟨held', stays'⟩ := @Holds.fill e.merge _ held.merge (stays.cap ▸ some) (by rw [doubled]; exact bound)
      ((first :: xs).drop d.bin) (by rw [List.nil_append, front, doubled]; omega)
    have free : e.merge.kept.length ≠ e.merge.cap := by
      change (pairUp mergeEntries e.kept).length ≠ e.cap
      rw [pairUp_length, stays.kept, stays.cap, full]
      omega
    rw [List.nil_append, ← cut] at held'
    rw [cut, addAll_append, reached, stop held' (stays'.cap ▸ stays.cap ▸ some), stays'.kept, stays'.cap, if_neg free,
      held'.push, Decim.shelve, room, if_pos full, stays'.cap, stays'.bin, stays'.kept, Decim.merge, Decim.merge,
      stays.cap, stays.bin, stays.kept]

end Decim
end Power
end BenchPod

/-!
## The bins behind the entries of the store

Every entry of the store is written with the samples it was made of and with the multiples of `2 ^ 32` that were
lost from the sum of its voltages.  An entry that is pushed is off by half a unit at most, and every time two
entries are put together by half a unit more.
-/

namespace BenchPod
namespace Power

open Averages

theorem sumUa_low (xs : List Reading) : -(2 ^ 31 * (xs.length : Int)) ≤ sumUa xs := by
  induction xs with
  | nil => exact Int.le_refl 0
  | cons x xs ih =>
    have low := BitVec.le_toInt x.ua
    change _ ≤ x.ua.toInt + sumUa xs
    rw [List.length_cons]
    omega

theorem sumUa_high (xs : List Reading) : sumUa xs ≤ (2 ^ 31 - 1) * (xs.length : Int) := by
  induction xs with
  | nil => exact Int.le_refl 0
  | cons x xs ih =>
    have high := @BitVec.toInt_lt 32 x.ua
    change x.ua.toInt + sumUa xs ≤ _
    rw [List.length_cons]
    omega

theorem sumMv_high (xs : List Reading) : sumMv xs ≤ (2 ^ 16 - 1) * xs.length := by
  induction xs with
  | nil => exact Nat.le_refl 0
  | cons x xs ih =>
    have high := x.mv.isLt
    change x.mv.toNat + sumMv xs ≤ _
    rw [List.length_cons]
    omega

theorem divRound_within {sum : Int} {n : Nat} (some : 0 < n) (low : -(2 ^ 31 * (n : Int)) ≤ sum)
    (high : sum ≤ (2 ^ 31 - 1) * (n : Int)) : Within 1 (divRound sum n).toInt sum n := by
  have fits {v : Int} (low : -2 ^ 31 ≤ v) (high : v < 2 ^ 31) : (BitVec.ofInt 32 v).toInt = v :=
    BitVec.toInt_ofInt_eq_self (Nat.succ_pos _) low high
  rw [divRound]
  split
  · rename_i positive
    obtain ⟨s, rfl⟩ := Int.eq_ofNat_of_zero_le positive
    have small : (s + n / 2) / n < 2 ^ 31 := (Nat.div_lt_iff_lt_mul some).mpr (by omega)
    have near := @Within.rounded n (s + n / 2) some
    rw [Int.natCast_add, Int.add_sub_cancel] at near
    rw [Rounding.tdiv_up]
    generalize (s + n / 2) / n = q at small near ⊢
    rw [fits (by omega) (by omega)]
    exact near
  · rename_i negative
    obtain ⟨s, rfl⟩ : ∃ s : Nat, sum = -(s : Int) := ⟨sum.natAbs, by omega⟩
    have small : (s + n / 2) / n < 2 ^ 31 + 1 := (Nat.div_lt_iff_lt_mul some).mpr (by omega)
    have near := @Within.rounded n (s + n / 2) some
    rw [Int.natCast_add, Int.add_sub_cancel] at near
    rw [show -(s : Int) - (n / 2 : Nat) = -((s : Int) + (n / 2 : Nat)) by omega, Int.neg_tdiv, Rounding.tdiv_up]
    generalize (s + n / 2) / n = q at small near ⊢
    rw [fits (by omega) (by omega)]
    exact near.neg

/-- An entry with the samples of its bin, and how often the sum of their voltages wrapped. -/
structure Row where
  entry : Reading
  first : Reading
  rest : List Reading
  lost : Nat

namespace Row

/-- The samples of the bin. -/
def group (r : Row) : List Reading := r.first :: r.rest

/-- How often the sum of the voltages wraps when a bin is averaged. -/
def wraps (bin : List Reading) : Nat := (sumMv bin + bin.length / 2) / 2 ^ 32

/-- A bin goes into the store. -/
def ofBin (first : Reading) (rest : List Reading) : Row := ⟨entryOf first rest, first, rest, wraps (first :: rest)⟩

/-- Two neighbours are put together. -/
def join (a b : Row) : Row := ⟨mergeEntries a.entry b.entry, a.first, a.rest ++ b.group, a.lost + b.lost⟩

theorem join_group (a b : Row) : (a.join b).group = a.group ++ b.group := rfl

/-- The entry is the average of its bin but for so many halves of a unit and for what was lost. -/
structure Near (halves : Nat) (r : Row) : Prop where
  time : r.entry.tUs = r.first.tUs
  ua : Within halves r.entry.ua.toInt (sumUa r.group) r.group.length
  mv : Within halves r.entry.mv.toNat (sumMv r.group - 2 ^ 32 * (r.lost : Int)) r.group.length

theorem Near.mono {halves more : Nat} {r : Row} (near : r.Near halves) (le : halves ≤ more) : r.Near more :=
  ⟨near.time, near.ua.mono le, near.mv.mono le⟩

theorem ofBin_near (first : Reading) (rest : List Reading) : (ofBin first rest).Near 1 where
  time := rfl
  ua := divRound_within (Nat.succ_pos _) (sumUa_low (first :: rest)) (sumUa_high (first :: rest))
  mv := by
    change Within 1 ((BitVec.ofNat 16 ((sumMv (first :: rest) + (rest.length + 1) / 2) % 2 ^ 32 /
      (rest.length + 1))).toNat : Int) (sumMv (first :: rest) - 2 ^ 32 *
      (((sumMv (first :: rest) + (rest.length + 1) / 2) / 2 ^ 32 : Nat) : Int)) (rest.length + 1)
    have high : sumMv (first :: rest) ≤ (2 ^ 16 - 1) * (rest.length + 1) := sumMv_high _
    generalize sumMv (first :: rest) = s at high ⊢
    have parts := Nat.div_add_mod (s + (rest.length + 1) / 2) (2 ^ 32)
    have less := Nat.mod_le (s + (rest.length + 1) / 2) (2 ^ 32)
    generalize (s + (rest.length + 1) / 2) % 2 ^ 32 = t at parts less ⊢
    generalize (s + (rest.length + 1) / 2) / 2 ^ 32 = l at parts ⊢
    have small : t / (rest.length + 1) < 2 ^ 16 := (Nat.div_lt_iff_lt_mul (Nat.succ_pos _)).mpr (by omega)
    have near := @Within.rounded (rest.length + 1) t (Nat.succ_pos _)
    rw [BitVec.toNat_ofNat, Nat.mod_eq_of_lt small,
      show (s : Int) - 2 ^ 32 * (l : Int) = (t : Int) - ((rest.length + 1) / 2 : Nat) by omega]
    exact near

theorem ofBin_exact (first : Reading) : (ofBin first []).Near 0 :=
  ⟨rfl, (ofBin_near first []).ua.exact, (ofBin_near first []).mv.exact⟩

theorem Near.join {halves : Nat} {a b : Row} (left : a.Near halves) (right : b.Near halves)
    (same : a.group.length = b.group.length) : (a.join b).Near (halves + 1) where
  time := left.time
  ua := by
    have lowLeft := BitVec.le_toInt a.entry.ua
    have lowRight := BitVec.le_toInt b.entry.ua
    have highLeft := @BitVec.toInt_lt 32 a.entry.ua
    have highRight := @BitVec.toInt_lt 32 b.entry.ua
    obtain ⟨low, high⟩ := @divRound_within (a.entry.ua.toInt + b.entry.ua.toInt) 2 Nat.two_pos (by omega) (by omega)
    have joined := left.ua.join (same ▸ right.ua)
      (u := (divRound (a.entry.ua.toInt + b.entry.ua.toInt) 2).toInt) (by omega) (by omega)
    rw [join_group, sumUa_append, List.length_append, ← same]
    exact joined
  mv := by
    have highLeft := a.entry.mv.isLt
    have highRight := b.entry.mv.isLt
    have value : (a.join b).entry.mv.toNat = (a.entry.mv.toNat + b.entry.mv.toNat + 1) / 2 := by
      change (BitVec.ofNat 16 _).toNat = _
      rw [BitVec.toNat_ofNat, Nat.mod_eq_of_lt (by omega)]
    have joined := left.mv.join (same ▸ right.mv) (u := ((a.join b).entry.mv.toNat : Int)) (by omega) (by omega)
    have sums : (sumMv (a.join b).group : Int) - 2 ^ 32 * ((a.join b).lost : Int) =
        sumMv a.group - 2 ^ 32 * (a.lost : Int) + (sumMv b.group - 2 ^ 32 * (b.lost : Int)) := by
      rw [join_group, sumMv_append]
      change ((sumMv a.group + sumMv b.group : Nat) : Int) - 2 ^ 32 * ((a.lost + b.lost : Nat) : Int) = _
      push_cast
      ring
    rw [sums, join_group, List.length_append, ← same]
    exact joined

end Row
end Power
end BenchPod
