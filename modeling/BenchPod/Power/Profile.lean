import Mathlib.Data.Nat.Log
import Mathlib.Algebra.BigOperators.Group.List.Basic
import BenchPod.Power.Decim

/-!
# The averages of a power profile

The stored bins of a profile follow from the number of its samples alone.  The kept entries are averages of equally
many samples each, the last one of what is left, and they are true averages when the sum of the voltages does not
wrap in any stored bin.
-/

namespace BenchPod.Power

open Averages

/-! ## Pairs -/

theorem pairUp_map {α β : Type} {f : β → β → β} {g : α → α → α} {h : α → β}
    (commutes : ∀ a b, f (h a) (h b) = h (g a b)) (xs : List α) : pairUp f (xs.map h) = (pairUp g xs).map h := by
  induction xs using pairUp.induct with
  | case1 a b rest ih =>
    change f (h a) (h b) :: pairUp f (rest.map h) = h (g a b) :: (pairUp g rest).map h
    rw [ih, commutes]
  | case2 xs short =>
    rcases xs with _ | ⟨a, _ | ⟨b, rest⟩⟩
    · simp only [pairUp, List.map_nil]
    · simp only [pairUp, List.map_nil, List.map_cons]
    · exact absurd rfl (short a b rest)

theorem pairUp_forall {α : Type} {f : α → α → α} {p q : α → Prop} (keeps : ∀ a b, p a → p b → q (f a b))
    {xs : List α} (each : ∀ x ∈ xs, p x) : ∀ x ∈ pairUp f xs, q x := by
  induction xs using pairUp.induct with
  | case1 a b rest ih =>
    intro x member
    change x ∈ f a b :: pairUp f rest at member
    rcases List.mem_cons.mp member with rfl | later
    · exact keeps a b (each a List.mem_cons_self) (each b (List.mem_cons_of_mem _ List.mem_cons_self))
    · exact ih (fun y inside => each y (List.mem_cons_of_mem _ (List.mem_cons_of_mem _ inside))) x later
  | case2 xs short =>
    rcases xs with _ | ⟨a, _ | ⟨b, rest⟩⟩
    · simp only [pairUp, List.not_mem_nil, false_imp_iff, implies_true]
    · simp only [pairUp, List.not_mem_nil, false_imp_iff, implies_true]
    · exact absurd rfl (short a b rest)

theorem pairUp_group {rows : List Row} (even : 2 ∣ rows.length) :
    (pairUp Row.join rows).flatMap Row.group = rows.flatMap Row.group := by
  induction rows using pairUp.induct with
  | case1 a b rest ih =>
    rw [List.length_cons, List.length_cons] at even
    change (a.join b).group ++ (pairUp Row.join rest).flatMap Row.group = a.group ++ (b.group ++ rest.flatMap Row.group)
    rw [ih (by omega), Row.join_group, List.append_assoc]
  | case2 rows short =>
    rcases rows with _ | ⟨a, _ | ⟨b, rest⟩⟩
    · simp only [pairUp]
    · exact absurd even (show ¬2 ∣ 1 by decide)
    · exact absurd rfl (short a b rest)

/-- How often the voltages wrapped in all rows. -/
def lostOf (rows : List Row) : Nat := (rows.map Row.lost).sum

theorem lostOf_append (rows more : List Row) : lostOf (rows ++ more) = lostOf rows + lostOf more := by
  rw [lostOf, List.map_append, List.sum_append]
  rfl

theorem pairUp_lost {rows : List Row} (even : 2 ∣ rows.length) : lostOf (pairUp Row.join rows) = lostOf rows := by
  induction rows using pairUp.induct with
  | case1 a b rest ih =>
    rw [List.length_cons, List.length_cons] at even
    change a.lost + b.lost + lostOf (pairUp Row.join rest) = a.lost + (b.lost + lostOf rest)
    rw [ih (by omega), Nat.add_assoc]
  | case2 rows short =>
    rcases rows with _ | ⟨a, _ | ⟨b, rest⟩⟩
    · simp only [pairUp]
    · exact absurd even (show ¬2 ∣ 1 by decide)
    · exact absurd rfl (short a b rest)

/-! ## The run -/

/-- The bins that go into the store, from the number `n` of entries and the size of a bin before them: a full store
is halved and the bin goes on to the doubled size. -/
def storedBins (cap : Nat) : Nat → Nat → Nat → List Reading → List (List Reading)
  | 0, _, _, _ => []
  | fuel + 1, n, bin, xs =>
    if xs = [] then []
    else if n = cap then xs.take (2 * bin) :: storedBins cap fuel (cap / 2 + 1) (2 * bin) (xs.drop (2 * bin))
    else xs.take bin :: storedBins cap fuel (n + 1) bin (xs.drop bin)

/-- How often the voltages wrap in all bins. -/
def wrapsOf (bins : List (List Reading)) : Nat := (bins.map Row.wraps).sum

theorem storedBins_nil (cap fuel n bin : Nat) : storedBins cap fuel n bin [] = [] := by
  cases fuel with
  | zero => rfl
  | succ fuel => exact if_pos rfl

theorem sumMv_replicate (n : Nat) (x : Reading) : sumMv (List.replicate n x) = n * x.mv.toNat := by
  rw [sumMv, List.map_replicate, List.sum_replicate]
  rfl

namespace Decim

/-- The rows behind a store, and the samples they are made of. -/
structure Covers (d : Decim) (rows : List Row) (halves : Nat) (xs : List Reading) : Prop where
  kept : d.kept = rows.map Row.entry
  near : ∀ r ∈ rows, r.Near halves
  whole : rows.flatMap Row.group = xs
  full : ∀ r ∈ rows.dropLast, r.group.length = d.bin
  last : ∀ r ∈ rows, r.group.length ≤ d.bin

/-- Between two bins every row is full, and a bin has the size that the number of merges gives. -/
structure Between (d : Decim) (rows : List Row) (level : Nat) (xs : List Reading) : Prop where
  empty : d.Holds []
  some : 0 < d.cap
  even : 2 ∣ d.cap
  kept : d.kept = rows.map Row.entry
  near : ∀ r ∈ rows, r.Near level
  whole : rows.flatMap Row.group = xs
  bin : d.bin = 2 ^ level
  full : ∀ r ∈ rows, r.group.length = d.bin
  few : rows.length ≤ d.cap
  grown : d.bin = 1 ∨ d.bin ≤ xs.length

namespace Between

variable {d : Decim} {rows : List Row} {level : Nat} {xs : List Reading}

theorem kept_length (between : d.Between rows level xs) : d.kept.length = rows.length := by
  rw [between.kept, List.length_map]

theorem length (between : d.Between rows level xs) : xs.length = rows.length * d.bin := by
  rw [← between.whole, List.length_flatMap, List.map_congr_left between.full, List.map_const', List.sum_replicate]
  rfl

theorem bound (between : d.Between rows level xs) (few : xs.length ≤ 600000) : d.bin ≤ 600000 := by
  rcases between.grown with one | many
  · omega
  · omega

theorem ofBin_near {level : Nat} {first : Reading} {rest : List Reading} (inside : rest.length + 1 ≤ 2 ^ level) :
    (Row.ofBin first rest).Near level := by
  cases level with
  | zero =>
    obtain rfl : rest = [] := List.eq_nil_of_length_eq_zero (by omega)
    exact Row.ofBin_exact first
  | succ level => exact (Row.ofBin_near first rest).mono (Nat.le_add_left 1 level)

/-- A full store is halved without a loss. -/
theorem room (between : d.Between rows level xs) (few : xs.length ≤ 600000) :
    ∃ rows' level', d.room.Between rows' level' xs ∧ lostOf rows' = lostOf rows ∧ d.room.bin = d.next ∧
      rows'.length = if rows.length = d.cap then d.cap / 2 else rows.length := by
  have bound := between.bound few
  rw [Decim.room, next, between.kept_length]
  by_cases full : rows.length = d.cap
  · have doubled : d.merge.bin = 2 * d.bin := by
      change d.bin * 2 % 2 ^ 32 = 2 * d.bin
      omega
    have even : 2 ∣ rows.length := full ▸ between.even
    have length : (pairUp Row.join rows).length = d.cap / 2 := full ▸ pairUp_length Row.join rows
    have both : ∀ r ∈ pairUp Row.join rows, r.Near (level + 1) ∧ r.group.length = 2 * d.bin := by
      refine @pairUp_forall Row Row.join (fun r => r.Near level ∧ r.group.length = d.bin) _ ?_ _ ?_
      · rintro a b ⟨left, leftFull⟩ ⟨right, rightFull⟩
        refine ⟨left.join right (leftFull.trans rightFull.symm), ?_⟩
        rw [Row.join_group, List.length_append, leftFull, rightFull, Nat.two_mul]
      · exact fun r member => ⟨between.near r member, between.full r member⟩
    have counted := between.length
    have twice : 2 * d.bin ≤ rows.length * d.bin := Nat.mul_le_mul_right _ (Nat.le_of_dvd (full ▸ between.some) even)
    rw [if_pos full, if_pos full, if_pos full]
    refine ⟨pairUp Row.join rows, level + 1, ?_, pairUp_lost even, doubled, length⟩
    exact {
      empty := between.empty.merge
      some := between.some
      even := between.even
      kept := (congrArg (pairUp mergeEntries) between.kept).trans (pairUp_map (fun _ _ => rfl) rows)
      near := fun r member => (both r member).1
      whole := (pairUp_group even).trans between.whole
      bin := by rw [doubled, between.bin, Nat.pow_succ, Nat.mul_comm]
      full := fun r member => (both r member).2.trans doubled.symm
      few := by
        rw [length]
        exact Nat.div_le_self _ _
      grown := .inr (by omega) }
  · rw [if_neg full, if_neg full, if_neg full]
    exact ⟨rows, level, between, rfl, rfl, rfl⟩

theorem stored (between : d.Between rows level xs) (free : rows.length < d.cap) {first : Reading} {rest : List Reading}
    (size : rest.length + 1 = d.bin) {e : Decim}
    (pushed : e = { d with
      kept := d.kept ++ [entryOf first rest], accN := 0, accT := first.tUs, accUa := 0, accMv := 0 }) :
    e.Between (rows ++ [Row.ofBin first rest]) level (xs ++ first :: rest) := by
  subst pushed
  have last : (Row.ofBin first rest).group.length = d.bin := size
  exact {
    empty := ⟨rfl, rfl, rfl, nofun⟩
    some := between.some
    even := between.even
    kept := by
      rw [List.map_append, ← between.kept]
      rfl
    near := List.forall_mem_append.mpr ⟨between.near, List.forall_mem_singleton.mpr (ofBin_near (by
      rw [← between.bin]
      exact size.le))⟩
    whole := by
      rw [List.flatMap_append, between.whole, List.flatMap_singleton]
      rfl
    bin := between.bin
    full := List.forall_mem_append.mpr ⟨between.full, List.forall_mem_singleton.mpr last⟩
    few := by
      rw [List.length_append]
      exact free
    grown := .inr (by
      rw [List.length_append, List.length_cons, size]
      exact Nat.le_add_left _ _) }

theorem closed (between : d.Between rows level xs) {first : Reading} {rest : List Reading}
    (size : rest.length + 1 ≤ d.bin) {e : Decim}
    (pushed : e = { d with
      kept := d.kept ++ [entryOf first rest], accN := 0, accT := first.tUs, accUa := 0, accMv := 0 }) :
    e.Covers (rows ++ [Row.ofBin first rest]) level (xs ++ first :: rest) := by
  subst pushed
  have last : (Row.ofBin first rest).group.length ≤ d.bin := size
  exact {
    kept := by
      rw [List.map_append, ← between.kept]
      rfl
    near := List.forall_mem_append.mpr ⟨between.near, List.forall_mem_singleton.mpr (ofBin_near (by
      rw [← between.bin]
      exact size))⟩
    whole := by
      rw [List.flatMap_append, between.whole, List.flatMap_singleton]
      rfl
    full := by
      rw [List.dropLast_concat]
      exact between.full
    last := List.forall_mem_append.mpr
      ⟨fun r member => (between.full r member).le, List.forall_mem_singleton.mpr last⟩ }

theorem idle (between : d.Between rows level xs) : (d.addAll []).finish = d := if_pos (.inr between.empty.count)

theorem finished {fuel : Nat} (between : d.Between rows level xs) (few : xs.length + 0 ≤ 600000) :
    ∃ rows' level', (d.addAll []).finish.Covers rows' level' (xs ++ []) ∧
      (d.addAll []).finish.bin = 2 ^ level' ∧ 2 ^ level' ≤ 600000 ∧
      lostOf rows' = lostOf rows + wrapsOf (storedBins d.cap fuel rows.length d.bin []) := by
  rw [between.idle, List.append_nil, storedBins_nil]
  refine ⟨rows, level, ?_, between.bin, between.bin ▸ between.bound few, rfl⟩
  exact {
    kept := between.kept
    near := between.near
    whole := between.whole
    full := fun r member => between.full r (List.dropLast_subset _ member)
    last := fun r member => (between.full r member).le }

/-- The rows when all the bins of a profile are stored. -/
theorem run {fuel : Nat} (between : d.Between rows level xs) {more : List Reading}
    (few : xs.length + more.length ≤ 600000) (enough : more.length ≤ fuel) :
    ∃ rows' level', (d.addAll more).finish.Covers rows' level' (xs ++ more) ∧
      (d.addAll more).finish.bin = 2 ^ level' ∧ 2 ^ level' ≤ 600000 ∧
      lostOf rows' = lostOf rows + wrapsOf (storedBins d.cap fuel rows.length d.bin more) := by
  induction fuel generalizing d rows level xs more with
  | zero =>
    obtain rfl : more = [] := List.eq_nil_of_length_eq_zero (Nat.le_zero.mp enough)
    exact between.finished few
  | succ fuel ih =>
    cases more with
    | nil => exact between.finished few
    | cons first rest =>
      rw [List.length_cons] at few enough
      obtain ⟨halved, level', roomy, kept, size, count⟩ := between.room (by omega)
      have free : halved.length < d.cap := by
        have some := between.some
        have bound := between.few
        rw [count]
        split
        · omega
        · omega
      have capacity : d.room.cap = d.cap := by
        rw [Decim.room]
        split
        · rfl
        · rfl
      have bins : wrapsOf (storedBins d.cap (fuel + 1) rows.length d.bin (first :: rest)) =
          Row.wraps ((first :: rest).take d.next) +
            wrapsOf (storedBins d.cap fuel (halved.length + 1) d.next ((first :: rest).drop d.next)) := by
        rw [storedBins, if_neg (List.cons_ne_nil _ _), next, between.kept_length, count]
        split
        · rfl
        · rfl
      have positive : 0 < d.bin := by
        rw [between.bin]
        exact Nat.two_pow_pos _
      have bound : d.bin * 2 < 2 ^ 32 := by
        have small := between.bound (by omega : xs.length ≤ 600000)
        omega
      have nonzero : d.cap ≠ 0 := Nat.pos_iff_ne_zero.mp between.some
      rw [bins, ← Nat.add_assoc, ← kept, ← size]
      rcases Nat.lt_or_ge (rest.length + 1) d.next with short | whole
      · -- what is left does not fill a bin
        have all : (first :: rest).length ≤ d.room.bin := size ▸ short.le
        rw [finish_bin between.empty nonzero bound positive short, List.take_of_length_le all,
          List.drop_eq_nil_of_le all, storedBins_nil]
        refine ⟨_, level', roomy.closed all rfl, roomy.bin, roomy.bin ▸ roomy.bound (by omega), ?_⟩
        rw [lostOf_append]
        rfl
      · obtain ⟨n, sized⟩ : ∃ n, d.room.bin = n + 1 :=
          ⟨d.room.bin - 1, (Nat.sub_one_add_one (by rw [roomy.bin]; exact (Nat.two_pow_pos _).ne')).symm⟩
        have length : (rest.take n).length = n := List.length_take_of_le (by omega)
        have cut : first :: rest = (first :: rest.take n) ++ rest.drop n := by
          rw [List.cons_append, List.take_append_drop]
        have filled := @addAll_bin d between.empty nonzero bound positive first (rest.take n)
          (by rw [length, ← size, sized])
        have stored : (d.shelve first (rest.take n)).Between _ level' _ :=
          roomy.stored (capacity.symm ▸ free) (by rw [length, sized]) rfl
        obtain ⟨last, level'', covers, grown, small, total⟩ := @ih (d.shelve first (rest.take n)) _ _ _ stored
          (rest.drop n) (by rw [List.length_append, List.length_cons, length, List.length_drop]; omega)
          (by rw [List.length_drop]; omega)
        have samples : (d.addAll (first :: rest)).finish =
            ((d.shelve first (rest.take n)).addAll (rest.drop n)).finish := by
          rw [cut, addAll_append, filled]
        refine ⟨last, level'', ?_, ?_, small, ?_⟩
        · rw [samples, cut, ← List.append_assoc]
          exact covers
        · rw [samples]
          exact grown
        · rw [sized, List.take_succ_cons, List.drop_succ_cons, total, lostOf_append, List.length_append]
          change _ + _ + wrapsOf (storedBins d.room.cap _ _ d.room.bin _) = _
          rw [capacity, sized]
          rfl

end Between
end Decim

/-! ## Averages -/

/-- The samples behind the `i`-th entry when every entry is made of so many. -/
def cut (bin : Nat) (xs : List Reading) (i : Nat) : List Reading := (xs.drop (i * bin)).take bin

/-- An entry has the time of the first of its samples, and their average within so many units. -/
structure IsAverage (units : Nat) (e : Reading) (bin : List Reading) : Prop where
  time : bin.head?.map Reading.tUs = some e.tUs
  ua : |(e.ua.toInt : ℚ) - sumUa bin / bin.length| ≤ units
  mv : |(e.mv.toNat : ℚ) - sumMv bin / bin.length| ≤ units

/-- The kept entries are averages of all samples in their order, every one but the last of `bin` samples. -/
structure TrueAverages (units : Nat) (xs : List Reading) (d : Decim) : Prop where
  covered : (List.range d.kept.length).flatMap (cut d.bin xs) = xs
  whole : ∀ i, i + 1 < d.kept.length → (cut d.bin xs i).length = d.bin
  average : ∀ i e, d.kept[i]? = some e → IsAverage units e (cut d.bin xs i)

/-- One unit for every merge; the one average over a whole profile is rounded once. -/
def units (keep : Nat) (d : Decim) : Nat := if keep = 1 then 1 else Nat.log 2 d.bin

namespace Row

theorem Near.average_iff {halves units : Nat} {r : Row} (near : r.Near halves) (fine : halves ≤ 2 * units)
    (small : (r.group.length : Int) * (halves + (2 * units : Nat)) < 2 ^ 32) :
    IsAverage units r.entry r.group ↔ r.lost = 0 := by
  have some : 0 < r.group.length := Nat.succ_pos _
  constructor
  · intro average
    by_contra lost
    have voltage : Within (2 * units) r.entry.mv.toNat (sumMv r.group) r.group.length :=
      (Within.near_iff some).mpr average.mv
    have far : (sumMv r.group - 2 ^ 32 * (r.lost : Int)) + r.group.length * (halves + (2 * units : Nat)) <
        sumMv r.group := by omega
    exact near.mv.apart far voltage
  · intro none
    have voltage := near.mv
    rw [none] at voltage
    have exact : (sumMv r.group : Int) - 2 ^ 32 * ((0 : Nat) : Int) = (sumMv r.group : Nat) := by omega
    rw [exact] at voltage
    exact ⟨congrArg Option.some near.time.symm, (Within.near_iff some).mp (near.ua.mono fine),
      (Within.near_iff some).mp (voltage.mono fine)⟩

end Row

namespace Decim
namespace Covers

variable {d : Decim} {rows : List Row} {halves : Nat} {xs : List Reading}

theorem cuts {bin : Nat} (full : ∀ r ∈ rows.dropLast, r.group.length = bin)
    (last : ∀ r ∈ rows, r.group.length ≤ bin) :
    (List.range rows.length).map (cut bin (rows.flatMap Row.group)) = rows.map Row.group := by
  induction rows with
  | nil => rfl
  | cons r rows ih =>
    rw [List.length_cons, List.range_succ_eq_map, List.map_cons, List.map_map, List.map_cons, List.flatMap_cons]
    cases rows with
    | nil =>
      have short : r.group.length ≤ bin := last r List.mem_cons_self
      rw [cut, Nat.zero_mul, List.flatMap_nil, List.append_nil, List.drop_zero, List.take_of_length_le short]
      rfl
    | cons s rows =>
      have size : r.group.length = bin := full r List.mem_cons_self
      have rest := ih (fun q member => full q (List.mem_cons_of_mem _ member))
        fun q member => last q (List.mem_cons_of_mem _ member)
      have first : cut bin (r.group ++ (s :: rows).flatMap Row.group) 0 = r.group := by
        rw [cut, Nat.zero_mul, List.drop_zero, List.take_left' size]
      have shifted : cut bin (r.group ++ (s :: rows).flatMap Row.group) ∘ Nat.succ =
          cut bin ((s :: rows).flatMap Row.group) := by
        funext i
        change cut bin _ (i + 1) = cut bin _ i
        rw [cut, cut, Nat.succ_mul, Nat.add_comm, ← size, List.drop_length_add_append]
      rw [first, shifted, rest]

theorem cut_group (covers : d.Covers rows halves xs) :
    (List.range d.kept.length).map (cut d.bin xs) = rows.map Row.group := by
  rw [covers.kept, List.length_map, ← covers.whole]
  exact cuts covers.full covers.last

theorem cut_row (covers : d.Covers rows halves xs) {i : Nat} {r : Row} (found : rows[i]? = some r) :
    cut d.bin xs i = r.group := by
  have inside : i < d.kept.length := by
    rw [covers.kept, List.length_map]
    exact (List.getElem?_eq_some_iff.mp found).1
  have same := congrArg (·[i]?) covers.cut_group
  rw [List.getElem?_map, List.getElem?_map, found, List.getElem?_range inside] at same
  exact Option.some.inj same

theorem average_iff {units : Nat} (covers : d.Covers rows halves xs) (fine : halves ≤ 2 * units)
    (few : xs.length ≤ 600000) (small : units ≤ 20) : TrueAverages units xs d ↔ lostOf rows = 0 := by
  have each {r : Row} (member : r ∈ rows) : IsAverage units r.entry r.group ↔ r.lost = 0 := by
    refine (covers.near r member).average_iff fine ?_
    have within : r.group.length ≤ 600000 := by
      have part : r.group.length ≤ (rows.flatMap Row.group).length :=
        (List.sublist_flatten_of_mem (List.mem_map_of_mem member)).length_le
      exact part.trans (covers.whole ▸ few)
    have product : r.group.length * (halves + 2 * units) ≤ 600000 * 80 := Nat.mul_le_mul within (by omega)
    exact_mod_cast (by omega : r.group.length * (halves + 2 * units) < 2 ^ 32)
  have none : lostOf rows = 0 ↔ ∀ r ∈ rows, r.lost = 0 := by
    rw [lostOf, List.sum_eq_zero_iff_forall_eq_nat, List.forall_mem_map]
  rw [none]
  constructor
  · intro averages r member
    obtain ⟨i, inside, found⟩ := List.mem_iff_getElem.mp member
    have row : rows[i]? = some r := List.getElem?_eq_some_iff.mpr ⟨inside, found⟩
    have entry : d.kept[i]? = some r.entry := by rw [covers.kept, List.getElem?_map, row]; rfl
    exact (each member).mp (covers.cut_row row ▸ averages.average i _ entry)
  · intro kept
    constructor
    · rw [List.flatMap_def, covers.cut_group, ← covers.whole]
      rfl
    · intro i inside
      rw [covers.kept, List.length_map] at inside
      have front : rows.dropLast[i]? = some rows[i] := by
        rw [List.getElem?_dropLast, if_pos (by omega), List.getElem?_eq_getElem]
      rw [covers.cut_row (List.getElem?_eq_getElem (Nat.lt_of_succ_lt inside))]
      exact covers.full _ (List.mem_of_getElem? front)
    · intro i e entry
      rw [covers.kept, List.getElem?_map] at entry
      obtain ⟨r, row, rfl⟩ := Option.map_eq_some_iff.mp entry
      have member : r ∈ rows := List.mem_of_getElem? row
      rw [covers.cut_row row]
      exact (each member).mpr (kept r member)

end Covers

/-! ## A whole profile -/

/-- The bins of a profile that keeps so many entries. -/
def bins (keep : Nat) (xs : List Reading) : List (List Reading) :=
  storedBins (init keep).cap xs.length 0 (init keep).bin xs

theorem bins_one {xs : List Reading} (few : xs.length ≤ 600000) (some : xs ≠ []) : bins 1 xs = [xs] := by
  obtain ⟨n, length⟩ := Nat.exists_eq_succ_of_ne_zero fun none => some (List.eq_nil_of_length_eq_zero none)
  have all : xs.length ≤ (init 1).bin := by
    change xs.length ≤ 2 ^ 32 - 1
    omega
  rw [bins, length, storedBins, if_neg some, if_neg (show 0 ≠ (init 1).cap by decide), List.take_of_length_le all,
    List.drop_eq_nil_of_le all, storedBins_nil]

theorem one {xs : List Reading} (few : xs.length ≤ 600000) :
    ∃ rows, ((init 1).addAll xs).finish.Covers rows 1 xs ∧ lostOf rows = wrapsOf (bins 1 xs) := by
  cases xs with
  | nil => exact ⟨[], ⟨rfl, List.forall_mem_nil _, rfl, List.forall_mem_nil _, List.forall_mem_nil _⟩, rfl⟩
  | cons first rest =>
    rw [List.length_cons] at few
    have empty : (init 1).Holds [] := ⟨rfl, rfl, rfl, fun _ none => absurd none (Option.not_mem_none _)⟩
    obtain ⟨held, stays⟩ := @Holds.fill (init 1) [] empty (by decide) (by decide) (first :: rest) (by
      change 0 + (rest.length + 1) < 2 ^ 32 - 1
      omega)
    have taken : ((init 1).addAll (first :: rest)).accN ≠ 0 := by
      rw [held.count]
      exact Nat.succ_ne_zero _
    have shelved : ((init 1).addAll (first :: rest)).finish = (init 1).shelve first rest := by
      rw [← held.shelve stays, finish, if_neg fun either => either.elim (stays.cap ▸ Nat.one_ne_zero) taken,
        stays.kept, stays.cap]
    rw [shelved, @bins_one (first :: rest) few (List.cons_ne_nil _ _)]
    refine ⟨[Row.ofBin first rest], ?_, rfl⟩
    exact {
      kept := rfl
      near := List.forall_mem_singleton.mpr (Row.ofBin_near first rest)
      whole := List.append_nil _
      full := List.forall_mem_nil _
      last := List.forall_mem_singleton.mpr (by
        change rest.length + 1 ≤ 2 ^ 32 - 1
        omega) }

theorem begins {keep : Nat} (several : 2 ≤ keep) : (init keep).Between [] 0 [] := by
  have cap : (init keep).cap = keep - keep % 2 := if_pos several
  have bin : (init keep).bin = 1 := if_neg (by omega)
  exact {
    empty := ⟨rfl, rfl, rfl, nofun⟩
    some := by omega
    even := by omega
    kept := rfl
    near := nofun
    whole := rfl
    bin := bin
    full := nofun
    few := Nat.zero_le _
    grown := .inl bin }

theorem average_iff_wraps {keep : Nat} (some : 1 ≤ keep) {xs : List Reading} (few : xs.length ≤ 600000) :
    TrueAverages (units keep ((init keep).addAll xs).finish) xs ((init keep).addAll xs).finish ↔
      ∀ bin ∈ bins keep xs, sumMv bin + bin.length / 2 < 2 ^ 32 := by
  have fits : wrapsOf (bins keep xs) = 0 ↔ ∀ bin ∈ bins keep xs, sumMv bin + bin.length / 2 < 2 ^ 32 := by
    rw [wrapsOf, List.sum_eq_zero_iff_forall_eq_nat, List.forall_mem_map]
    refine forall₂_congr fun bin _ => ?_
    rw [Row.wraps, Nat.div_eq_zero_iff_lt (Nat.two_pow_pos 32)]
  rw [← fits, units]
  rcases Nat.eq_or_lt_of_le some with rfl | several
  · obtain ⟨rows, covers, lost⟩ := one few
    rw [if_pos rfl, ← lost]
    exact covers.average_iff (show 1 ≤ 2 * 1 by decide) few (show 1 ≤ 20 by decide)
  · obtain ⟨rows, level, covers, bin, small, total⟩ := @Between.run _ _ _ _ xs.length (begins several) xs (by
      rw [List.length_nil]
      omega) (Nat.le_refl _)
    have bound : level < 20 := (Nat.pow_lt_pow_iff_right Nat.one_lt_two).mp (by omega : 2 ^ level < 2 ^ 20)
    have lost : lostOf rows = wrapsOf (bins keep xs) := total.trans (Nat.zero_add _)
    rw [if_neg (by omega), bin, Nat.log_pow Nat.one_lt_two, ← lost]
    exact covers.average_iff (by omega) few (by omega)

/-- For every profile the kept entries are true averages exactly when in no stored bin the sum of the voltages and
half the number of samples reach `2 ^ 32`; the samples are at most those of 600 s with a period of 1 ms. -/
theorem averages_iff (keep : Nat) (some : 1 ≤ keep) (_most : keep ≤ 4096) (xs : List Reading)
    (few : xs.length ≤ 600000) :
    TrueAverages (units keep ((init keep).addAll xs).finish) xs ((init keep).addAll xs).finish ↔
      ∀ bin ∈ bins keep xs, sumMv bin + bin.length / 2 < 2 ^ 32 :=
  average_iff_wraps some few

/-- Six odd samples kept in four entries. -/
theorem averages_iff_six :
    TrueAverages (units 5 ((init 5).addAll ((List.range 6).map fun i => ⟨BitVec.ofNat 32 i, 3, 5001⟩)).finish)
      ((List.range 6).map fun i => ⟨BitVec.ofNat 32 i, 3, 5001⟩)
      ((init 5).addAll ((List.range 6).map fun i => ⟨BitVec.ofNat 32 i, 3, 5001⟩)).finish :=
  (averages_iff 5 (by decide) (by decide) _ (by decide)).mpr (by decide)

/-- Two hundred thousand samples at 24 V (400 s at 500 Hz), averaged into one entry. -/
theorem one_average_wraps :
    ¬TrueAverages (units 1 ((init 1).addAll (List.replicate 200000 ⟨0, 0, 24000⟩)).finish)
      (List.replicate 200000 ⟨0, 0, 24000⟩) ((init 1).addAll (List.replicate 200000 ⟨0, 0, 24000⟩)).finish := by
  have few : (List.replicate 200000 (⟨0, 0, 24000⟩ : Reading)).length ≤ 600000 := by
    rw [List.length_replicate]
    decide
  intro averages
  have fits := (average_iff_wraps Nat.one_pos few).mp averages
  rw [bins_one few (List.ne_nil_of_length_eq_add_one List.length_replicate)] at fits
  have sum := fits _ (List.mem_singleton_self _)
  rw [sumMv_replicate, List.length_replicate] at sum
  have voltage : (⟨0, 0, 24000⟩ : Reading).mv.toNat = 24000 := rfl
  rw [voltage] at sum
  omega

end Decim
end BenchPod.Power
