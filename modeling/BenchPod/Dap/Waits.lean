import BenchPod.Dap.Process
import BenchPod.Dap.Serial

/-!
# What the WAIT retries of a batch can take

The gateware's queue stops at a WAIT, and the batch queues the rest again.  Its count of WAITs starts anew
behind every operation that is completed, so that each operation can have them all.  A read that takes the
queue's last byte reports a pointer of 0: a WAIT there sends the whole queue again.
-/

namespace BenchPod.Dap

/-- The bytes of a queue. -/
def bytes (ops : List Op) : Nat := (ops.map Op.size).sum

/-- A read fills the queue to its last byte. -/
def Fills (queue : List Op) : Prop := bytes queue = swdqBytesMax ∧ queue.getLast?.any Op.read = true

instance (queue : List Op) : Decidable (Fills queue) := by
  rw [Fills]
  infer_instance

/-- The most transfers that a WAIT takes and leaves the batch at the operation it was at. -/
def stall (ops : List Op) : Nat :=
  let queue := ops.take (chunk ops 0 0 0)
  if Fills queue then queue.length else 1

/-- What the WAITs of operations behind the first of a batch can take. -/
def later (waitRetry : Nat) : List Op → Nat
  | [] => 0
  | op :: ops => min waitRetry 1 + (waitRetry - 1) * stall (op :: ops) + later waitRetry ops

/-- What the WAITs of a batch can take, when its first operation has had some. -/
def due (waitRetry waits : Nat) : List Op → Nat
  | [] => 0
  | op :: ops => (waitRetry - waits) * stall (op :: ops) + later waitRetry ops

/-- The answers that take it all, with which of them are WAIT. -/
def stalls (waitRetry waits : Nat) : List Op → List Bool
  | [] => []
  | op :: ops =>
    (List.replicate (waitRetry - waits) (List.replicate (stall (op :: ops) - 1) false ++ [true])).flatten ++
      false :: if ops.isEmpty then [] else true :: stalls waitRetry 1 ops

/-- A target that answers some transfers WAIT, and all others OK. -/
def timed (waitsAt : Nat → Bool) : Target :=
  ⟨fun seen _ => ⟨if waitsAt seen.length then 2 else 1, 0, true⟩, fun _ _ => false⟩

/-- The answers from a transfer on. -/
def Scripted (waitsAt : Nat → Bool) : Nat → List Bool → Prop
  | _, [] => True
  | n, wait :: script => waitsAt n = wait ∧ Scripted waitsAt (n + 1) script

instance decidableScripted (waitsAt : Nat → Bool) :
    ∀ n script, Decidable (Scripted waitsAt n script)
  | _, [] => isTrue trivial
  | n, wait :: script =>
    have := decidableScripted waitsAt (n + 1) script
    inferInstanceAs (Decidable (waitsAt n = wait ∧ Scripted waitsAt (n + 1) script))

variable {t : Target} {seen : List Wire} {taken offset : Nat} {reads : List Word} {ops front back : List Op}
  {op : Op} {waitRetry waits fuel done n : Nat} {rdata : List Word} {waitsAt : Nat → Bool}
  {script : List Bool}

/-! ## Bytes and queues -/

@[simp]
theorem bytes_cons (op : Op) (ops : List Op) : bytes (op :: ops) = op.size + bytes ops := List.sum_cons

theorem bytes_append (front back : List Op) : bytes (front ++ back) = bytes front + bytes back := by
  rw [bytes, List.map_append, List.sum_append]
  rfl

theorem bytes_le (ops : List Op) : bytes ops ≤ 5 * ops.length := by
  induction ops with
  | nil => exact Nat.le_refl 0
  | cons op ops ih =>
    have size_le := op.size_le
    rw [bytes_cons, List.length_cons]
    omega

theorem chunk_fits {qlen nops nrd : Nat} (fits : qlen ≤ swdqBytesMax) (few : nops + ops.length ≤ recMax)
    (reads_le : nrd ≤ nops) :
    ∃ count ≤ ops.length, chunk ops qlen nops nrd = nops + count ∧
      qlen + bytes (ops.take count) ≤ swdqBytesMax ∧
      (count < ops.length → swdqBytesMax < qlen + bytes (ops.take (count + 1))) := by
  induction ops generalizing qlen nops nrd with
  | nil => exact ⟨0, Nat.le_refl 0, rfl, fits, fun less => absurd less (Nat.lt_irrefl 0)⟩
  | cons op ops ih =>
    rw [List.length_cons, recMax] at few
    have unread : decide (swdqReadsMax ≤ nrd) = false := decide_eq_false (by rw [swdqReadsMax]; omega)
    rw [chunk, if_pos (by omega), unread, Bool.and_false, Bool.or_false]
    by_cases past : swdqBytesMax < qlen + op.size
    · rw [if_pos (decide_eq_true past)]
      refine ⟨0, Nat.zero_le _, rfl, fits, fun _ => ?_⟩
      rw [List.take_succ_cons, bytes_cons]
      omega
    · rw [if_neg (by simpa using past)]
      have read_le := op.read.toNat_le
      obtain ⟨count, le, eq, inside, tight⟩ :=
        @ih (qlen + op.size) (nops + 1) (nrd + op.read.toNat) (by omega) (by rw [recMax]; omega) (by omega)
      refine ⟨count + 1, Nat.succ_le_succ le, by omega, ?_, fun less => ?_⟩
      · rw [List.take_succ_cons, bytes_cons]
        omega
      · have tight := tight (Nat.lt_of_succ_lt_succ less)
        rw [List.take_succ_cons, bytes_cons]
        omega

theorem opsBefore_front : opsBefore (offset + bytes front + 1) (front ++ op :: back) offset = front.length := by
  induction front generalizing offset with
  | nil => exact if_pos (Nat.le_refl _)
  | cons first front ih =>
    have positive := first.size_pos
    have near : ¬ offset + bytes (first :: front) + 1 ≤ offset + 1 := by
      rw [bytes_cons]
      omega
    rw [List.cons_append, opsBefore, if_neg near, bytes_cons, ← Nat.add_assoc, ih]
    rfl

theorem queueRun_taken :
    (queueRun t seen taken reads ops).stopped = false ∧
        (queueRun t seen taken reads ops).seen = seen ++ ops.map .transfer ∨
      ∃ front op back, ops = front ++ op :: back ∧
        (queueRun t seen taken reads ops).stopped = true ∧
        (queueRun t seen taken reads ops).seen = seen ++ (front ++ [op]).map .transfer ∧
        (queueRun t seen taken reads ops).taken = taken + bytes front + 1 := by
  induction ops generalizing seen taken reads with
  | nil => exact .inl ⟨rfl, (List.append_nil _).symm⟩
  | cons op ops ih =>
    have goes (run : QueueRun) (size : Nat) (size_eq : op.size = size)
        (rest : run.stopped = false ∧ run.seen = (seen ++ [.transfer op]) ++ ops.map .transfer ∨
          ∃ front last back, ops = front ++ last :: back ∧ run.stopped = true ∧
            run.seen = (seen ++ [.transfer op]) ++ (front ++ [last]).map .transfer ∧
            run.taken = taken + size + bytes front + 1) :
        run.stopped = false ∧ run.seen = seen ++ (op :: ops).map .transfer ∨
          ∃ front last back, op :: ops = front ++ last :: back ∧ run.stopped = true ∧
            run.seen = seen ++ (front ++ [last]).map .transfer ∧
            run.taken = taken + bytes front + 1 := by
      obtain ⟨through, seen_eq⟩ | ⟨front, last, back, rfl, stopped, seen_eq, taken_eq⟩ := rest
      · exact .inl ⟨through, by rw [seen_eq, List.append_assoc]; rfl⟩
      · refine .inr ⟨op :: front, last, back, rfl, stopped, ?_, ?_⟩
        · rw [seen_eq, List.append_assoc]
          rfl
        · rw [taken_eq, bytes_cons, size_eq]
          omega
    simp only [queueRun]
    split
    · exact .inr ⟨[], op, ops, rfl, rfl, rfl, rfl⟩
    · split
      · next read =>
          split
          · exact goes _ 1 (if_pos read) ih
          · exact .inr ⟨[], op, ops, rfl, rfl, rfl, rfl⟩
      · next write => exact goes _ 5 (if_neg write) ih

/-! ## The bill -/

theorem stall_pos (ops : List Op) : 0 < stall ops := by
  rw [stall]
  split
  · next fills =>
      apply List.length_pos_of_ne_nil
      intro empty
      rw [empty] at fills
      cases fills.2
  · exact Nat.one_pos

theorem stop_front (fits : bytes (front ++ op :: back) ≤ swdqBytesMax) :
    opsBefore ((bytes front + 1) % 512) (front ++ op :: back) 0 =
      if bytes front + 1 = swdqBytesMax then 0 else front.length := by
  have op_pos := op.size_pos
  rw [bytes_append, bytes_cons, swdqBytesMax] at fits
  split
  · next last =>
      rw [last]
      cases front with
      | nil => exact if_pos (Nat.zero_le _)
      | cons first front => exact if_pos (Nat.zero_le _)
  · next inside =>
      have before := @opsBefore_front 0 front back op
      rw [Nat.zero_add] at before
      rw [swdqBytesMax] at inside
      rw [Nat.mod_eq_of_lt (by omega), before]

theorem stop_stalls (split : ops.take (chunk ops 0 0 0) = front ++ op :: back)
    (fits : bytes (front ++ op :: back) ≤ swdqBytesMax)
    (stays : opsBefore ((bytes front + 1) % 512) (front ++ op :: back) 0 = 0) :
    front.length + 1 ≤ stall ops := by
  have op_pos := op.size_pos
  rw [stop_front fits] at stays
  rw [bytes_append, bytes_cons] at fits
  split at stays
  · next last =>
      -- the request has taken the last byte: it is a read, and nothing is behind it
      have back_eq : back = [] := by
        cases back with
        | nil => rfl
        | cons next back =>
          have next_pos := next.size_pos
          rw [bytes_cons] at fits
          omega
      subst back_eq
      have one : op.size = 1 := by omega
      have read : op.read = true := by
        by_contra write
        rw [Op.size, if_neg write] at one
        omega
      have fills : Fills (front ++ [op]) := by
        refine ⟨?_, ?_⟩
        · rw [bytes_append, bytes_cons, one]
          exact last
        · rw [List.getLast?_append]
          exact read
      rw [stall, split]
      simp only [if_pos fills]
      exact Nat.le_of_eq (by rw [List.length_append, List.length_singleton])
  · rw [stays]
    exact stall_pos ops

theorem later_drop (count : Nat) : later waitRetry (ops.drop count) ≤ later waitRetry ops := by
  induction ops generalizing count with
  | nil => exact Nat.le_of_eq (congrArg _ List.drop_nil)
  | cons op ops ih =>
    cases count with
    | zero => exact Nat.le_refl _
    | succ count =>
      have rest := ih count
      rw [List.drop_succ_cons, later]
      omega

theorem later_wait (positive : 0 < waitRetry) (some : ops ≠ []) : later waitRetry ops = 1 + due waitRetry 1 ops := by
  cases ops with
  | nil => exact absurd rfl some
  | cons op ops => rw [later, due, Nat.min_eq_right positive, Nat.add_assoc]

theorem due_wait (less : waits < waitRetry) (some : ops ≠ []) :
    due waitRetry waits ops = stall ops + due waitRetry (waits + 1) ops := by
  cases ops with
  | nil => exact absurd rfl some
  | cons op ops =>
    have one_more : waitRetry - waits = waitRetry - (waits + 1) + 1 := by omega
    rw [due, due, one_more, Nat.succ_mul]
    omega

theorem later_le_due (count : Nat) : later waitRetry (ops.drop (count + 1)) ≤ due waitRetry waits ops := by
  cases ops with
  | nil => exact Nat.le_refl 0
  | cons op ops =>
    have rest : later waitRetry (ops.drop count) ≤ later waitRetry ops := later_drop count
    rw [List.drop_succ_cons, due]
    omega

theorem due_behind (few : ops.length ≤ recMax) (some : ops ≠ []) :
    due waitRetry 0 (ops.drop (chunk ops 0 0 0)) ≤ due waitRetry waits ops := by
  obtain ⟨count, le, eq, -, tight⟩ := @chunk_fits ops 0 0 0 (Nat.zero_le _) (by omega) (Nat.le_refl 0)
  have positive := chunk_pos some
  rw [Nat.zero_add] at eq
  rw [eq] at positive ⊢
  obtain ⟨before, rfl⟩ : ∃ before, count = before + 1 := ⟨count - 1, by omega⟩
  have least : later waitRetry (ops.drop (before + 1)) ≤ due waitRetry waits ops := later_le_due before
  cases rest : ops.drop (before + 1) with
  | nil => exact Nat.zero_le _
  | cons op behind =>
    have length_eq : ops.length - (before + 1) = behind.length + 1 := by rw [← List.length_drop, rest, List.length_cons]
    have tight := tight (by omega)
    have sum := bytes_le (ops.take (before + 1 + 1))
    rw [List.length_take] at sum
    have single : stall (op :: behind) = 1 := by
      rw [stall]
      apply if_neg
      rintro ⟨full, -⟩
      have whole := bytes_le ((op :: behind).take (chunk (op :: behind) 0 0 0))
      rw [List.length_take, List.length_cons, full] at whole
      rw [swdqBytesMax] at tight whole
      rw [recMax] at few
      omega
    rw [rest, later, single] at least
    rw [due, single]
    omega

/-- A batch takes no more than its operations and what their WAITs can take. -/
theorem batchLoop_due (few : ops.length ≤ recMax) (waits_le : waits ≤ waitRetry) :
    ∃ sent : List Op,
      (batchLoop t waitRetry fuel seen waits done rdata ops).seen = seen ++ sent.map .transfer ∧
      sent.length ≤ ops.length + due waitRetry waits ops := by
  induction fuel generalizing seen waits done rdata ops with
  | zero => exact ⟨[], (List.append_nil _).symm, Nat.zero_le _⟩
  | succ fuel ih =>
    by_cases empty : ops = []
    · subst empty
      exact ⟨[], (List.append_nil _).symm, Nat.le_refl 0⟩
    · obtain ⟨count, le, eq, inside, -⟩ :=
        @chunk_fits ops 0 0 0 (Nat.zero_le _) (by omega) (Nat.le_refl 0)
      have positive := chunk_pos empty
      have behind : due waitRetry 0 (ops.drop (chunk ops 0 0 0)) ≤ due waitRetry waits ops := due_behind few empty
      rw [Nat.zero_add] at eq inside
      rw [eq] at positive behind
      have queue_length : (ops.take count).length = count := by rw [List.length_take, Nat.min_eq_left le]
      have again (sent : List Op) (seen' : List Wire) (now waits' done' : Nat) (rdata' : List Word)
          (seen_eq : seen' = seen ++ sent.map .transfer) (waits_le : waits' ≤ waitRetry)
          (paid : sent.length + (ops.drop now).length + due waitRetry waits' (ops.drop now) ≤
            ops.length + due waitRetry waits ops) :
          ∃ sent : List Op, (batchLoop t waitRetry fuel seen' waits' done' rdata' (ops.drop now)).seen =
              seen ++ sent.map .transfer ∧
            sent.length ≤ ops.length + due waitRetry waits ops := by
        have fewer : (ops.drop now).length ≤ recMax := by
          rw [List.length_drop]
          omega
        obtain ⟨rest, rest_eq, rest_le⟩ := @ih seen' (ops.drop now) waits' done' rdata' fewer waits_le
        refine ⟨sent ++ rest, ?_, ?_⟩
        · rw [rest_eq, seen_eq, List.append_assoc, List.map_append]
        · rw [List.length_append]
          omega
      rw [batchLoop, if_neg empty, eq]
      extract_lets nops queue run now perr rdata' waits'
      have outcome : run.stopped = false ∧ run.seen = seen ++ queue.map .transfer ∨
          ∃ front op back, queue = front ++ op :: back ∧ run.stopped = true ∧
            run.seen = seen ++ (front ++ [op]).map .transfer ∧ run.taken = 0 + bytes front + 1 :=
        queueRun_taken
      obtain ⟨through, seen_eq⟩ | ⟨front, op, back, split, stopped, seen_eq, taken_eq⟩ := outcome
      · have now_eq : now = nops := if_neg (Bool.eq_false_iff.mp through)
        have waits_eq : waits' = 0 := if_pos (by rw [now_eq]; exact positive)
        rw [if_pos now_eq, now_eq, waits_eq]
        refine again queue run.seen nops 0 _ _ seen_eq (Nat.zero_le _) ?_
        have left : (ops.drop nops).length = ops.length - nops := List.length_drop
        have queue_eq : queue.length = nops := queue_length
        have behind : due waitRetry 0 (ops.drop nops) ≤ due waitRetry waits ops := behind
        have le : nops ≤ ops.length := le
        omega
      · have fits : bytes (front ++ op :: back) ≤ swdqBytesMax := by
          rw [← split]
          exact inside
        have now_eq : now = opsBefore ((bytes front + 1) % 512) (front ++ op :: back) 0 := by
          have taken_eq : run.consumed = (bytes front + 1) % 512 := by rw [QueueRun.consumed, taken_eq, Nat.zero_add]
          rw [← taken_eq, ← split]
          exact if_pos stopped
        have sent_length : (front ++ [op]).length = front.length + 1 := by
          rw [List.length_append, List.length_singleton]
        have front_less : front.length < count := by
          rw [← queue_length]
          have split : ops.take count = front ++ op :: back := split
          rw [split, List.length_append, List.length_cons]
          omega
        have now_le : now ≤ front.length := by
          rw [now_eq, stop_front fits]
          split <;> omega
        have ends : ∃ sent : List Op, run.seen = seen ++ sent.map .transfer ∧
            sent.length ≤ ops.length + due waitRetry waits ops := by
          refine ⟨_, seen_eq, ?_⟩
          omega
        have early : ¬ now = nops := by
          have nops_eq : nops = count := rfl
          omega
        rw [if_neg early]
        split
        · exact ends
        · split
          · next retry =>
              refine again _ run.seen now (waits' + 1) _ _ seen_eq retry.2 ?_
              have left : (ops.drop now).length = ops.length - now := List.length_drop
              cases now_case : now with
              | zero =>
                -- the batch is where it was
                have waits_eq : waits' = waits := if_neg (by omega)
                have taken : front.length + 1 ≤ stall ops := by
                  refine stop_stalls ?_ fits (now_eq.symm.trans now_case)
                  rw [eq]
                  exact split
                have waited : due waitRetry waits ops = stall ops + due waitRetry (waits + 1) ops := by
                  refine due_wait ?_ empty
                  rw [← waits_eq]
                  exact retry.2
                rw [waits_eq, List.drop_zero]
                omega
              | succ before =>
                -- the operation that stopped is at the head, and its first WAIT is spent
                have waits_eq : waits' = 0 := if_pos (by omega)
                have some : ops.drop (before + 1) ≠ [] := by
                  intro empty
                  rw [List.drop_eq_nil_iff] at empty
                  omega
                have first : later waitRetry (ops.drop (before + 1)) =
                    1 + due waitRetry 1 (ops.drop (before + 1)) :=
                  later_wait (Nat.zero_lt_of_lt retry.2) some
                have least : later waitRetry (ops.drop (before + 1)) ≤ due waitRetry waits ops := later_le_due before
                have whole : front.length = before + 1 := by
                  rw [now_case, stop_front fits] at now_eq
                  split at now_eq
                  · cases now_eq
                  · exact now_eq.symm
                rw [waits_eq, List.length_drop, Nat.zero_add]
                omega
          · exact ends

/-! ## The answers that take it all -/

theorem scripted_append {front : List Bool} :
    Scripted waitsAt n (front ++ script) ↔ Scripted waitsAt n front ∧ Scripted waitsAt (n + front.length) script := by
  induction front generalizing n with
  | nil => exact ⟨fun scripted => ⟨trivial, scripted⟩, fun both => both.2⟩
  | cons wait front ih =>
    rw [List.cons_append, Scripted, Scripted, ih, List.length_cons, and_assoc, Nat.add_right_comm, Nat.add_assoc]

theorem scripted_congr {waitsAt' : Nat → Bool} (same : ∀ i, n ≤ i → waitsAt i = waitsAt' i)
    (scripted : Scripted waitsAt n script) : Scripted waitsAt' n script := by
  induction script generalizing n with
  | nil => trivial
  | cons wait script ih =>
    obtain ⟨now, rest⟩ := scripted
    exact ⟨(same n (Nat.le_refl n)).symm.trans now, ih (fun i le => same i (Nat.le_of_succ_le le)) rest⟩

theorem scripted_exists (n : Nat) (script : List Bool) : ∃ waitsAt, Scripted waitsAt n script := by
  induction script generalizing n with
  | nil => exact ⟨fun _ => false, trivial⟩
  | cons wait script ih =>
    obtain ⟨waitsAt, scripted⟩ := ih (n + 1)
    refine ⟨fun i => if i = n then wait else waitsAt i, if_pos rfl, scripted_congr (fun i le => ?_) scripted⟩
    exact (if_neg (by omega)).symm

theorem queueRun_waits (scripted : Scripted waitsAt seen.length (List.replicate front.length false ++ [true])) :
    ∃ reads', queueRun (timed waitsAt) seen taken reads (front ++ op :: back) =
      ⟨seen ++ (front ++ [op]).map .transfer, taken + bytes front + 1, true, 2, false, reads'⟩ := by
  induction front generalizing seen taken reads with
  | nil =>
    obtain ⟨now, -⟩ := scripted
    refine ⟨reads, ?_⟩
    rw [List.nil_append, queueRun]
    simp only [timed, now, if_true]
    exact if_pos (by decide)
  | cons first front ih =>
    rw [List.length_cons, List.replicate_succ, List.cons_append] at scripted
    obtain ⟨now, rest⟩ := scripted
    have rest : Scripted waitsAt (seen ++ [Wire.transfer first]).length
        (List.replicate front.length false ++ [true]) := by
      rw [List.length_append]
      exact rest
    have sum : taken + bytes (first :: front) + 1 = taken + first.size + bytes front + 1 := by
      rw [bytes_cons]
      omega
    rw [List.cons_append, queueRun, sum]
    simp only [timed, now, Bool.false_eq_true, if_false, ne_eq, not_true_eq_false, if_true]
    split
    · next read =>
        obtain ⟨reads', eq⟩ := @ih (seen ++ [.transfer first]) (taken + 1) (reads ++ [0]) rest
        refine ⟨reads', eq.trans ?_⟩
        rw [Op.size, if_pos read, List.append_assoc]
        rfl
    · next write =>
        obtain ⟨reads', eq⟩ := @ih (seen ++ [.transfer first]) (taken + 5) reads rest
        refine ⟨reads', eq.trans ?_⟩
        rw [Op.size, if_neg write, List.append_assoc]
        rfl

theorem queueRun_last (seen : List Wire) (op : Op) (ok : waitsAt seen.length = false) :
    ∃ reads, queueRun (timed waitsAt) seen 0 [] [op] =
      ⟨seen ++ [op].map .transfer, 0 + op.size, false, 1, false, reads⟩ := by
  simp only [queueRun, timed, ok, Bool.false_eq_true, if_false, ne_eq, not_true_eq_false, if_true]
  split
  · next read =>
      rw [Op.size, if_pos read]
      exact ⟨_, rfl⟩
  · next write =>
      rw [Op.size, if_neg write]
      exact ⟨_, rfl⟩

theorem batchLoop_retry {seen' : List Wire}
    (run_eq : queueRun t seen 0 [] (ops.take (chunk ops 0 0 0)) = ⟨seen', taken, true, 2, false, reads⟩)
    (now_eq : opsBefore (taken % 512) (ops.take (chunk ops 0 0 0)) 0 = n) (less : n < chunk ops 0 0 0)
    (patient : (if 0 < n then 0 else waits) < waitRetry) :
    ∃ rdata', batchLoop t waitRetry (fuel + 1) seen waits done rdata ops =
      batchLoop t waitRetry fuel seen' ((if 0 < n then 0 else waits) + 1) (done + n) rdata' (ops.drop n) := by
  have some : ops ≠ [] := by
    rintro rfl
    exact absurd less (Nat.not_lt_zero n)
  rw [batchLoop, if_neg some]
  extract_lets nops queue run now perr rdata' waits'
  have run_eq : run = ⟨seen', taken, true, 2, false, reads⟩ := run_eq
  have now_is : now = n := by
    simp only [now, run_eq, if_true, QueueRun.consumed]
    exact now_eq
  have even : perr = false := by simp only [perr, run_eq, Bool.false_and]
  have early : ¬ now = nops := by
    rw [now_is]
    exact Nat.ne_of_lt less
  refine ⟨rdata', ?_⟩
  have again : run.ack = 2 ∧ waits' < waitRetry := by
    refine ⟨by rw [run_eq], ?_⟩
    simp only [waits', now_is]
    exact patient
  rw [if_neg early, even, if_neg Bool.false_ne_true, if_pos again, run_eq]
  simp only [waits', now_is]

theorem batchLoop_through {seen' : List Wire} {ack : BitVec 3}
    (run_eq : queueRun t seen 0 [] (ops.take (chunk ops 0 0 0)) = ⟨seen', taken, false, ack, false, reads⟩)
    (positive : 0 < chunk ops 0 0 0) :
    ∃ rdata', batchLoop t waitRetry (fuel + 1) seen waits done rdata ops =
      batchLoop t waitRetry fuel seen' 0 (done + chunk ops 0 0 0) rdata' (ops.drop (chunk ops 0 0 0)) := by
  have some : ops ≠ [] := by
    rintro rfl
    exact absurd positive (Nat.not_lt_zero 0)
  rw [batchLoop, if_neg some]
  extract_lets nops queue run now perr rdata' waits'
  have run_eq : run = ⟨seen', taken, false, ack, false, reads⟩ := run_eq
  have now_eq : now = nops := by
    simp only [now, run_eq]
    rfl
  have anew : waits' = 0 := if_pos (by rw [now_eq]; exact positive)
  refine ⟨rdata', ?_⟩
  rw [if_pos now_eq, now_eq, anew, run_eq]

theorem batchLoop_nil :
    batchLoop t waitRetry fuel seen waits done rdata [] = ⟨seen, done, rdata, if fuel = 0 then ackNone else ackOk⟩ := by
  cases fuel with
  | zero => rfl
  | succ fuel => rfl

theorem stall_split (some : ops ≠ []) (few : ops.length ≤ recMax) :
    ∃ front op back, ops.take (chunk ops 0 0 0) = front ++ op :: back ∧ front.length = stall ops - 1 ∧
      opsBefore ((bytes front + 1) % 512) (front ++ op :: back) 0 = 0 := by
  obtain ⟨count, le, eq, fits, -⟩ := @chunk_fits ops 0 0 0 (Nat.zero_le _) (by omega) (Nat.le_refl 0)
  have positive := chunk_pos some
  rw [Nat.zero_add] at eq fits
  rw [stall, eq]
  rw [eq] at positive
  split
  · next fills =>
      obtain ⟨full, last⟩ := fills
      obtain empty | ⟨front, op, split⟩ := List.eq_nil_or_concat' (ops.take count)
      · rw [empty] at last
        cases last
      · rw [split] at last full fits ⊢
        rw [List.getLast?_append] at last
        have read : op.read = true := last
        have sum := full
        rw [bytes_append, bytes_cons, Op.size, if_pos read] at sum
        refine ⟨front, op, [], rfl, ?_, ?_⟩
        · rw [List.length_append]
          rfl
        · rw [stop_front fits]
          exact if_pos sum
  · obtain ⟨op, ops, rfl⟩ := List.exists_cons_of_ne_nil some
    obtain ⟨before, rfl⟩ : ∃ before, count = before + 1 := ⟨count - 1, by omega⟩
    refine ⟨[], op, ops.take before, rfl, rfl, ?_⟩
    rw [List.take_succ_cons] at fits
    have stops : opsBefore ((bytes [] + 1) % 512) ([] ++ op :: ops.take before) 0 = 0 := by
      rw [stop_front fits]
      exact ite_self 0
    exact stops

theorem stalls_length (positive : 0 < waitRetry) :
    (stalls waitRetry waits ops).length = ops.length + due waitRetry waits ops := by
  induction ops generalizing waits with
  | nil => rfl
  | cons op ops ih =>
    have stall_pos := stall_pos (op :: ops)
    have one : (List.replicate (stall (op :: ops) - 1) false ++ [true]).length = stall (op :: ops) := by
      rw [List.length_append, List.length_replicate, List.length_singleton]
      omega
    rw [stalls, due, List.length_append, List.length_flatten, List.map_replicate, one, List.sum_replicate_nat,
      List.length_cons, List.length_cons]
    cases ops with
    | nil =>
      rw [List.isEmpty_nil, if_pos rfl, later]
      exact Nat.add_comm ..
    | cons next ops =>
      rw [List.isEmpty_cons, if_neg Bool.false_ne_true, List.length_cons, ih,
        later_wait positive (List.cons_ne_nil next ops)]
      omega

theorem stalls_wait (less : waits < waitRetry) (some : ops ≠ []) :
    stalls waitRetry waits ops =
      (List.replicate (stall ops - 1) false ++ [true]) ++ stalls waitRetry (waits + 1) ops := by
  obtain ⟨op, ops, rfl⟩ := List.exists_cons_of_ne_nil some
  have one_more : waitRetry - waits = waitRetry - (waits + 1) + 1 := by omega
  rw [stalls, stalls, one_more, List.replicate_succ, List.flatten_cons, List.append_assoc]

theorem stalls_go (op next : Op) (ops : List Op) :
    stalls waitRetry waitRetry (op :: next :: ops) =
      (List.replicate [op].length false ++ [true]) ++ stalls waitRetry 1 (next :: ops) := by
  rw [stalls, Nat.sub_self]
  rfl

theorem rounds_wait (less : waits < waitRetry) : rounds waitRetry (waits + 1) ops + 1 = rounds waitRetry waits ops := by
  rw [rounds, rounds]
  omega

theorem rounds_go (positive : 0 < waitRetry) (op : Op) (ops : List Op) :
    rounds waitRetry 1 ops < rounds waitRetry waits (op :: ops) := by
  rw [rounds, rounds, List.length_cons, Nat.succ_mul]
  omega

theorem chunk_two (op next : Op) (ops : List Op) (few : (op :: next :: ops).length ≤ recMax) :
    1 < chunk (op :: next :: ops) 0 0 0 := by
  obtain ⟨count, le, eq, -, tight⟩ := @chunk_fits (op :: next :: ops) 0 0 0 (Nat.zero_le _) (by omega) (Nat.le_refl 0)
  rw [eq]
  by_contra least
  have tight := tight (by rw [List.length_cons, List.length_cons]; omega)
  have sum := bytes_le ((op :: next :: ops).take (count + 1))
  rw [List.length_take] at sum
  rw [swdqBytesMax] at tight
  omega

/-- The answers that take it all are given to the last, and all operations are completed. -/
theorem batchLoop_stalls (positive : 0 < waitRetry) (few : ops.length ≤ recMax) (waits_le : waits ≤ waitRetry)
    (enough : rounds waitRetry waits ops < fuel)
    (scripted : Scripted waitsAt seen.length (stalls waitRetry waits ops)) :
    (batchLoop (timed waitsAt) waitRetry fuel seen waits done rdata ops).seen.length =
        seen.length + (stalls waitRetry waits ops).length ∧
      (batchLoop (timed waitsAt) waitRetry fuel seen waits done rdata ops).done = done + ops.length := by
  induction fuel generalizing seen waits done rdata ops with
  | zero => exact absurd enough (Nat.not_lt_zero _)
  | succ fuel ih =>
    cases ops with
    | nil => exact ⟨rfl, rfl⟩
    | cons op ops =>
      have some : op :: ops ≠ [] := List.cons_ne_nil op ops
      by_cases less : waits < waitRetry
      · -- one more WAIT
        obtain ⟨front, last, back, split, front_length, stays⟩ := stall_split some few
        have stall_pos := stall_pos (op :: ops)
        rw [stalls_wait less some, ← front_length] at scripted ⊢
        obtain ⟨now, rest⟩ := scripted_append.mp scripted
        obtain ⟨reads, run_eq⟩ := @queueRun_waits seen 0 [] front back last waitsAt now
        rw [Nat.zero_add, ← split] at run_eq
        rw [← split] at stays
        have same : (if 0 < 0 then 0 else waits) = waits := rfl
        obtain ⟨rdata', loop_eq⟩ := @batchLoop_retry (timed waitsAt) seen _ reads (op :: ops) waitRetry waits
          fuel done 0 rdata _ run_eq stays (chunk_pos some) (same.symm ▸ less)
        have length_eq : (seen ++ (front ++ [last]).map Wire.transfer).length =
            seen.length + (List.replicate front.length false ++ [true]).length := by
          rw [List.length_append, List.length_map, List.length_append, List.length_append,
            List.length_replicate, List.length_singleton, List.length_singleton]
        rw [← length_eq] at rest
        rw [same, List.drop_zero] at loop_eq
        have fewer := @rounds_wait (op :: ops) waitRetry waits less
        obtain ⟨seen_eq, done_eq⟩ := @ih _ (op :: ops) (waits + 1) (done + 0) rdata' few less (by omega) rest
        rw [loop_eq, seen_eq, done_eq, length_eq]
        generalize List.replicate front.length false ++ [true] = wait
        rw [List.length_append, Nat.add_assoc]
        exact ⟨rfl, rfl⟩
      · have spent : waits = waitRetry := by omega
        subst spent
        cases ops with
        | nil =>
          obtain ⟨now, -⟩ : waitsAt seen.length = false ∧ True := by
            rw [stalls, Nat.sub_self] at scripted
            exact scripted
          have one : chunk [op] 0 0 0 = 1 := by
            obtain ⟨count, le, eq⟩ := chunk_count [op] 0 0 0
            have positive := chunk_pos some
            rw [List.length_singleton] at le
            omega
          obtain ⟨reads, run_eq⟩ := queueRun_last seen op now
          have whole : [op].take (chunk [op] 0 0 0) = [op] := by
            rw [one]
            rfl
          rw [← whole] at run_eq
          obtain ⟨rdata', loop_eq⟩ := @batchLoop_through (timed waitsAt) seen _ reads [op] waits waits
            fuel done rdata _ _ run_eq (chunk_pos some)
          have nothing : [op].drop (chunk [op] 0 0 0) = [] := by
            rw [one]
            rfl
          rw [loop_eq, nothing, batchLoop_nil, one, stalls, Nat.sub_self, List.length_append]
          exact ⟨rfl, rfl⟩
        | cons next ops =>
          -- the operation is completed, and the next has its first WAIT
          obtain ⟨back, split⟩ : ∃ back,
              (op :: next :: ops).take (chunk (op :: next :: ops) 0 0 0) = [op] ++ next :: back := by
            have two := chunk_two op next ops few
            obtain ⟨count, eq⟩ := Nat.exists_eq_add_of_le two
            refine ⟨ops.take count, ?_⟩
            rw [eq, Nat.add_comm]
            rfl
          rw [stalls_go] at scripted ⊢
          obtain ⟨now, rest⟩ := scripted_append.mp scripted
          obtain ⟨reads, run_eq⟩ := @queueRun_waits seen 0 [] [op] back next waitsAt now
          have fits : bytes ([op] ++ next :: back) ≤ swdqBytesMax := by
            obtain ⟨count, -, eq, fits, -⟩ :=
              @chunk_fits (op :: next :: ops) 0 0 0 (Nat.zero_le _) (by omega) (Nat.le_refl 0)
            rw [Nat.zero_add] at eq fits
            rw [← split, eq]
            exact fits
          have first : opsBefore ((bytes [op] + 1) % 512) ([op] ++ next :: back) 0 = 1 := by
            rw [stop_front fits, if_neg]
            · rfl
            · have size_le := bytes_le [op]
              rw [List.length_singleton] at size_le
              rw [swdqBytesMax]
              omega
          rw [Nat.zero_add, ← split] at run_eq
          rw [← split] at first
          obtain ⟨rdata', loop_eq⟩ := @batchLoop_retry (timed waitsAt) seen _ reads (op :: next :: ops)
            waits waits fuel done 1 rdata _ run_eq first (chunk_two op next ops few) positive
          have length_eq : (seen ++ ([op] ++ [next]).map Wire.transfer).length =
              seen.length + (List.replicate [op].length false ++ [true]).length := by
            rw [List.length_append]
            rfl
          rw [← length_eq] at rest
          have fewer := @rounds_go waits waits positive op (next :: ops)
          have few' : (next :: ops).length ≤ recMax := Nat.le_of_succ_le few
          obtain ⟨seen_eq, done_eq⟩ := @ih _ (next :: ops) 1 (done + 1) rdata' few' positive (by omega) rest
          have loop_eq : batchLoop (timed waitsAt) waits (fuel + 1) seen waits done rdata (op :: next :: ops) =
            batchLoop (timed waitsAt) waits fuel (seen ++ ([op] ++ [next]).map Wire.transfer) 1 (done + 1)
              rdata' (next :: ops) := loop_eq
          rw [loop_eq, seen_eq, done_eq, length_eq]
          generalize List.replicate [op].length false ++ [true] = wait
          rw [List.length_append, Nat.add_assoc, Nat.add_assoc, Nat.add_comm 1]
          exact ⟨rfl, rfl⟩

end BenchPod.Dap
