import BenchPod.SwdEngine.Edge

/-!
# Bytes on the SPI wires

What the engine has clocked so far follows from the bytes fed: whole bytes between two of them, and within
one its first bits, with the answer's bits coming into the shift register behind them.
-/

namespace BenchPod.SwdEngine

open Bits Engine

variable {half taken idx : Nat} {cpol : Bool} {fed : List Byte} {pulses front done : List Pulse} {last : Pulse}
variable {byte : Byte} {e : Engine} {i : Input}

/-- An SPI master with a queue in which `taken` of the bytes `fed` have been started. -/
structure Queue (half : Nat) (cpol : Bool) (fed : List Byte) (taken : Nat) (e : Engine) : Prop where
  mode : e.IsSpi
  half : e.half = half
  cpol : e.cpol = cpol
  unit : e.endIdx = 7
  going : e.qstop = false
  filled : Filled fed e.tmem e.fptr
  behind : taken ≤ fed.length
  head : e.qptr = taken % depth

/-- The first `taken` bytes have been clocked and their answers stored. -/
structure Clocked (fed : List Byte) (taken : Nat) (pulses : List Pulse) (e : Engine) : Prop where
  heard : pulses.map Pulse.mosi = (fed.take taken).flatMap lsbFirst
  answered : pulses.map Pulse.miso = (List.range taken).flatMap fun place => lsbFirst (e.rmem place)
  stored : e.wptr = taken % depth

/-- `byte` is being shifted, with the pulses `done` of it behind. -/
structure Shifting (half : Nat) (cpol : Bool) (fed : List Byte) (taken : Nat) (byte : Byte)
    (front done : List Pulse) (e : Engine) : Prop where
  queue : Queue half cpol fed (taken + 1) e
  clocked : Clocked fed taken front e
  running : e.qst = .run
  level : e.swclkLvl = e.ph
  shown : fed[taken]? = some byte
  inside : e.idx < 8
  length : done.length = e.idx
  heard : done.map Pulse.mosi = (lsbFirst byte).take e.idx
  shift : lsbFirst e.sh = (lsbFirst byte).drop e.idx ++ done.map Pulse.miso
  count : e.hcnt < half

/-- How the pulses of a feed follow the bytes fed. -/
inductive Follows (half : Nat) (cpol : Bool) (fed : List Byte) (pulses : List Pulse) (e : Engine) : Prop
  | between (taken : Nat) (queue : Queue half cpol fed taken e) (clocked : Clocked fed taken pulses e)
      (idle : e.qst = .idle) (level : e.swclkLvl = cpol)
      (primed : e.qready = true → fed[taken]? = some e.tRd)
      (early : taken = 0 → fed.length ≤ 1 + e.qready.toNat)
  | low (taken : Nat) (byte : Byte) (front done : List Pulse) (split : pulses = front ++ done)
      (shifting : Shifting half cpol fed taken byte front done e) (low : e.ph = false)
  | high (taken : Nat) (byte : Byte) (front done : List Pulse) (last : Pulse)
      (split : pulses = front ++ (done ++ [last]))
      (shifting : Shifting half cpol fed taken byte front done e) (high : e.ph = true)
      (risen : (lsbFirst byte)[e.idx]? = some last.mosi)
      (sampled : e.dioS0 = last.miso) (settled : e.hcnt + 1 < half → e.dioS1 = last.miso)

theorem Queue.fetch (queue : Queue half cpol fed taken e) (room : (fed ++ i.fed.toList).length ≤ depth) :
    Queue half cpol (fed ++ i.fed.toList) taken (e.fetch i) := by
  refine ⟨⟨queue.mode.armed, queue.mode.spi⟩, queue.half, queue.cpol, queue.unit, queue.going, queue.filled.fetch room, ?_,
    queue.head⟩
  have behind := queue.behind
  rw [List.length_append]
  omega

theorem Queue.taken_lt (queue : Queue half cpol fed taken e) (ready : (e.qptr != e.fptr) = true) :
    taken < fed.length := by
  have behind := queue.behind
  refine Nat.lt_of_le_of_ne behind fun same => ?_
  rw [queue.head, queue.filled.tail, same] at ready
  simp at ready

theorem Queue.primed (queue : Queue half cpol fed taken e) (ready : (e.fetch i).qready = true) :
    (fed ++ i.fed.toList)[taken]? = some (e.fetch i).tRd := by
  have more : taken < fed.length := queue.taken_lt ready
  have fits : taken % depth = taken := Nat.mod_eq_of_lt (Nat.lt_of_lt_of_le more queue.filled.short)
  rw [List.getElem?_append_left more, queue.filled.held taken more]
  simp only [Engine.fetch, queue.head, fits]

theorem Clocked.fetch (clocked : Clocked fed taken pulses e) (behind : taken ≤ fed.length) :
    Clocked (fed ++ i.fed.toList) taken pulses (e.fetch i) := by
  refine ⟨?_, clocked.answered, clocked.stored⟩
  rw [List.take_append_of_le_length behind, clocked.heard]

theorem Shifting.fetch (shifting : Shifting half cpol fed taken byte front done e)
    (room : (fed ++ i.fed.toList).length ≤ depth) :
    Shifting half cpol (fed ++ i.fed.toList) taken byte front done (e.fetch i) := by
  have queue := shifting.queue
  refine ⟨queue.fetch room, shifting.clocked.fetch (Nat.le_of_succ_le queue.behind), shifting.running, shifting.level, ?_,
    shifting.inside, shifting.length, shifting.heard, shifting.shift, shifting.count⟩
  rw [List.getElem?_append_left (Nat.lt_of_succ_le queue.behind), shifting.shown]

theorem Shifting.timed (shifting : Shifting half cpol fed taken byte front done e) {ph : Bool} {count : Nat}
    (less : count < half) :
    Shifting half cpol fed taken byte front done { e with swclkLvl := ph, ph := ph, hcnt := count } :=
  ⟨⟨⟨shifting.queue.mode.armed, shifting.queue.mode.spi⟩, shifting.queue.half, shifting.queue.cpol, shifting.queue.unit,
    shifting.queue.going, shifting.queue.filled, shifting.queue.behind, shifting.queue.head⟩,
    ⟨shifting.clocked.heard, shifting.clocked.answered, shifting.clocked.stored⟩,
    shifting.running, rfl, shifting.shown, shifting.inside, shifting.length, shifting.heard, shifting.shift, less⟩

theorem emit_low (after : (e.tick i).swclkLvl = false) : wire.emit e i = none := by
  simp only [wire, clkVal, after, Bool.and_false, Bool.false_eq_true, if_false]

theorem emit_high (before : e.swclkLvl = true) : wire.emit e i = none := by
  simp only [wire, clkVal, before, Bool.not_true, Bool.false_and, Bool.false_eq_true, if_false]

theorem emit_same (same : (e.tick i).swclkLvl = e.swclkLvl) : wire.emit e i = none := by
  cases level : e.swclkLvl with
  | false => exact emit_low (same.trans level)
  | true => exact emit_high level

theorem Queue.reload (queue : Queue half cpol fed taken e) (least : 2 ≤ half) (most : half ≤ 63) :
    e.reload = half - 1 := by
  rw [Engine.reload, queue.half]
  omega

theorem Follows.wait (queue : Queue half cpol fed taken e) (clocked : Clocked fed taken pulses e)
    (idle : e.qst = .idle) (level : e.swclkLvl = cpol) (early : taken = 0 → fed.length ≤ 1 + e.qready.toNat)
    (empty : e.qready = false) (plain : i.Plain) (room : (fed ++ i.fed.toList).length ≤ depth) :
    Follows half cpol (fed ++ i.fed.toList) (pulses ++ (wire.emit e i).toList) (e.tick i) := by
  have after := queue.mode.tick_wait plain idle empty
  rw [emit_same ((congrArg Engine.swclkLvl after).trans rfl), Option.toList_none, List.append_nil, after]
  refine .between taken (queue.fetch room) (clocked.fetch queue.behind) idle level queue.primed ?_
  intro none
  have few := early none
  have behind := queue.behind
  simp only [empty, Bool.toNat_false, Nat.add_zero] at few
  have arrives : i.feedStb.toNat ≤ 1 := Bool.toNat_le i.feedStb
  rw [List.length_append, Input.length_fed]
  obtain one | zero : fed.length = 1 ∨ fed.length = 0 := by omega
  · have ready : (e.fetch i).qready = true := by
      simp only [Engine.fetch, queue.head, queue.filled.tail, none, one]
      rfl
    rw [ready, Bool.toNat_true]
    omega
  · omega

theorem Follows.start (queue : Queue half cpol fed taken e) (clocked : Clocked fed taken pulses e)
    (idle : e.qst = .idle) (primed : e.qready = true → fed[taken]? = some e.tRd) (ready : e.qready = true)
    (least : 2 ≤ half) (most : half ≤ 63) (plain : i.Plain) (room : (fed ++ i.fed.toList).length ≤ depth) :
    Follows half cpol (fed ++ i.fed.toList) (pulses ++ (wire.emit e i).toList) (e.tick i) := by
  have after := tick_start queue.mode.run plain idle ready queue.going
  have shown := primed ready
  obtain ⟨more, -⟩ := List.getElem?_eq_some_iff.mp shown
  rw [emit_low (congrArg Engine.swclkLvl after), Option.toList_none, List.append_nil, after]
  have fetched := queue.fetch room
  have reload := queue.reload least most
  refine .low taken e.tRd pulses [] (List.append_nil _).symm
    ⟨⟨⟨fetched.mode.armed, fetched.mode.spi⟩, fetched.half, fetched.cpol, fetched.unit, fetched.going, fetched.filled, ?_,
      ?_⟩,
      ⟨(clocked.fetch queue.behind).heard, clocked.answered, clocked.stored⟩,
      rfl, rfl, ?_, (by decide : 0 < 8), rfl, rfl, (List.append_nil _).symm, ?_⟩ rfl
  · rw [List.length_append]
    omega
  · simp only [Engine.start, queue.head, Nat.mod_add_mod]
  · rw [List.getElem?_append_left more, shown]
  · simp only [Engine.start, reload]
    omega

theorem Follows.count (shifting : Shifting half cpol fed taken byte front done e) (left : e.hcnt ≠ 0)
    (plain : i.Plain) (room : (fed ++ i.fed.toList).length ≤ depth) :
    wire.emit e i = none ∧ e.tick i = { e.fetch i with hcnt := e.hcnt - 1 } ∧
      Shifting half cpol (fed ++ i.fed.toList) taken byte front done (e.tick i) := by
  have after := tick_count shifting.queue.mode.run plain shifting.running left
  refine ⟨emit_same ((congrArg Engine.swclkLvl after).trans rfl), after, ?_⟩
  have less : e.hcnt - 1 < half := Nat.lt_of_le_of_lt (Nat.sub_le _ _) shifting.count
  have timed := @Shifting.timed _ _ _ _ _ _ _ _ (shifting.fetch room) e.ph _ less
  have level : (e.fetch i).swclkLvl = e.ph := shifting.level
  rw [after]
  convert timed using 1
  simp only [Engine.fetch] at level ⊢
  rw [level]

theorem Follows.rise (shifting : Shifting half cpol fed taken byte front done e) (low : e.ph = false)
    (passed : e.hcnt = 0) (least : 2 ≤ half) (most : half ≤ 63) (plain : i.Plain)
    (room : (fed ++ i.fed.toList).length ≤ depth) :
    Follows half cpol (fed ++ i.fed.toList) ((front ++ done) ++ (wire.emit e i).toList) (e.tick i) := by
  have after := shifting.queue.mode.tick_rise plain shifting.running passed low
  have reload := shifting.queue.reload least most
  have emits : wire.emit e i = some ⟨e.sh.getLsbD 0, i.dioIn⟩ := by
    have before : e.swclkLvl = false := shifting.level.trans low
    simp only [wire, clkVal, before, after, dioVal, qActive, shifting.queue.mode.spi, Bool.not_true, Bool.and_false,
      Bool.false_and, Bool.false_eq_true, if_false, if_true, Bool.not_false, Bool.and_self]
  have risen : (lsbFirst byte)[e.idx]? = some (e.sh.getLsbD 0) := by
    have first : (lsbFirst e.sh)[0]? = some (e.sh.getLsbD 0) := rfl
    rw [shifting.shift, List.getElem?_append_left, List.getElem?_drop, Nat.add_zero] at first
    · exact first
    · rw [List.length_drop, length_lsbFirst]
      exact Nat.sub_pos_of_lt shifting.inside
  rw [emits, after, Option.toList_some, List.append_assoc]
  have less : e.reload < half := by omega
  exact .high taken byte front done _ rfl ((shifting.fetch room).timed less) rfl risen rfl
    fun early => absurd early (by simp only [reload]; omega)

theorem drop_of_getElem? {bits : List Bool} {bit : Bool} (here : bits[idx]? = some bit) :
    bits.drop idx = bit :: bits.drop (idx + 1) := by
  obtain ⟨inside, rfl⟩ := List.getElem?_eq_some_iff.mp here
  exact List.drop_eq_getElem_cons inside

theorem Shifting.shifted (shifting : Shifting half cpol fed taken byte front done e)
    (risen : (lsbFirst byte)[e.idx]? = some last.mosi) :
    lsbFirst (shiftIn last.miso e.sh) = (lsbFirst byte).drop (e.idx + 1) ++ (done ++ [last]).map Pulse.miso := by
  rw [lsbFirst_shiftIn, shifting.shift, drop_of_getElem? risen, List.cons_append, List.tail_cons, List.map_append,
    List.append_assoc]
  rfl

theorem Shifting.heard_next (shifting : Shifting half cpol fed taken byte front done e)
    (risen : (lsbFirst byte)[e.idx]? = some last.mosi) :
    (done ++ [last]).map Pulse.mosi = (lsbFirst byte).take (e.idx + 1) := by
  rw [List.map_append, shifting.heard, List.take_add_one, risen]
  rfl

theorem Follows.shift (shifting : Shifting half cpol fed taken byte front done e) (high : e.ph = true)
    (passed : e.hcnt = 0) (risen : (lsbFirst byte)[e.idx]? = some last.mosi) (settled : e.dioS1 = last.miso)
    (inside : e.idx < 7) (least : 2 ≤ half) (most : half ≤ 63) (plain : i.Plain)
    (room : (fed ++ i.fed.toList).length ≤ depth) :
    Follows half cpol (fed ++ i.fed.toList) ((front ++ (done ++ [last])) ++ (wire.emit e i).toList) (e.tick i) := by
  have after := shifting.queue.mode.tick_shift plain shifting.running passed high inside shifting.queue.unit
  have fetched := shifting.fetch room
  have reload := shifting.queue.reload least most
  rw [emit_low (congrArg Engine.swclkLvl after), Option.toList_none, List.append_nil, after]
  refine .low taken byte front (done ++ [last]) rfl
    ⟨⟨⟨fetched.queue.mode.armed, fetched.queue.mode.spi⟩, fetched.queue.half, fetched.queue.cpol, fetched.queue.unit,
      fetched.queue.going, fetched.queue.filled, fetched.queue.behind, fetched.queue.head⟩,
      ⟨fetched.clocked.heard, fetched.clocked.answered, fetched.clocked.stored⟩,
      fetched.running, rfl, fetched.shown, ?_, ?_, shifting.heard_next risen, ?_, ?_⟩ rfl
  · exact Nat.succ_lt_succ inside
  · rw [List.length_append, shifting.length, List.length_singleton]
  · rw [settled]
    exact shifting.shifted risen
  · simp only [reload]
    omega

theorem Follows.store (shifting : Shifting half cpol fed taken byte front done e) (high : e.ph = true)
    (passed : e.hcnt = 0) (risen : (lsbFirst byte)[e.idx]? = some last.mosi) (settled : e.dioS1 = last.miso)
    (inside : e.idx = 7) (plain : i.Plain) (room : (fed ++ i.fed.toList).length ≤ depth) :
    Follows half cpol (fed ++ i.fed.toList) ((front ++ (done ++ [last])) ++ (wire.emit e i).toList) (e.tick i) := by
  have after := shifting.queue.mode.tick_store plain shifting.running passed high inside shifting.queue.unit
  have fetched := shifting.fetch room
  have clocked := shifting.clocked
  have below : taken < depth := Nat.lt_of_lt_of_le shifting.queue.behind shifting.queue.filled.short
  have place : e.wptr = taken := shifting.clocked.stored.trans (Nat.mod_eq_of_lt below)
  have stored : lsbFirst (shiftIn last.miso e.sh) = (done ++ [last]).map Pulse.miso := by
    rw [shifting.shifted risen, inside]
    rfl
  have heard : (done ++ [last]).map Pulse.mosi = lsbFirst byte := by
    rw [shifting.heard_next risen, inside]
    rfl
  rw [emit_high (shifting.level.trans high), Option.toList_none, List.append_nil, after]
  refine .between (taken + 1)
    ⟨⟨fetched.queue.mode.armed, fetched.queue.mode.spi⟩, fetched.queue.half, fetched.queue.cpol, fetched.queue.unit,
      fetched.queue.going, fetched.queue.filled, fetched.queue.behind, fetched.queue.head⟩
    ⟨?_, ?_, ?_⟩ rfl shifting.queue.cpol shifting.queue.primed fun none => absurd none (Nat.succ_ne_zero taken)
  · rw [List.take_add_one, fetched.shown, List.map_append, heard, fetched.clocked.heard, Option.toList_some,
      List.flatMap_append, List.flatMap_singleton]
  · rw [List.range_succ, List.flatMap_append, List.flatMap_singleton, List.map_append, clocked.answered, place, settled]
    simp only [Function.update_self, stored]
    congr 1
    apply List.flatMap_congr
    intro older member
    rw [Function.update_of_ne (Nat.ne_of_lt (List.mem_range.mp member))]
  · simp only [shifting.clocked.stored, Nat.mod_add_mod]

theorem Follows.step (follows : Follows half cpol fed pulses e) (least : 2 ≤ half) (most : half ≤ 63)
    (plain : i.Plain) (holds : Holds e i) (room : (fed ++ i.fed.toList).length ≤ depth) :
    Follows half cpol (fed ++ i.fed.toList) (pulses ++ (wire.emit e i).toList) (e.tick i) := by
  cases follows with
  | between taken queue clocked idle level primed early =>
    obtain ready | empty := Bool.eq_false_or_eq_true e.qready
    · exact .start queue clocked idle primed ready least most plain room
    · exact .wait queue clocked idle level early empty plain room
  | low taken byte front done split shifting low =>
    subst split
    obtain passed | left := Nat.eq_zero_or_pos e.hcnt
    · exact .rise shifting low passed least most plain room
    · obtain ⟨silent, after, next⟩ := Follows.count shifting (Nat.ne_of_gt left) plain room
      rw [silent, Option.toList_none, List.append_nil]
      exact .low taken byte front done rfl next (by rw [after]; exact low)
  | high taken byte front done last split shifting high risen sampled settled =>
    subst split
    obtain passed | left := Nat.eq_zero_or_pos e.hcnt
    · have taken : e.dioS1 = last.miso := settled (by omega)
      obtain inside | last := Nat.lt_or_eq_of_le (Nat.le_of_lt_succ shifting.inside)
      · exact .shift shifting high passed risen taken inside least most plain room
      · exact .store shifting high passed risen taken last plain room
    · obtain ⟨silent, after, next⟩ := Follows.count shifting (Nat.ne_of_gt left) plain room
      have kept : i.dioIn = last.miso := (holds shifting.running (shifting.level.trans high)).trans sampled
      rw [silent, Option.toList_none, List.append_nil]
      refine .high taken byte front done last rfl next ?_ ?_ ?_ ?_ <;> rw [after]
      · exact high
      · exact risen
      · exact kept
      · exact fun _ => sampled

theorem Follows.run {ticks : List Input} (follows : Follows half cpol fed pulses e) (least : 2 ≤ half)
    (most : half ≤ 63) (plain : ∀ i ∈ ticks, i.Plain) (holds : wire.Along Holds e ticks)
    (room : (fed ++ ticks.filterMap Input.fed).length ≤ depth) :
    Follows half cpol (fed ++ ticks.filterMap Input.fed) (pulses ++ wire.emitted e ticks) (wire.run e ticks) := by
  induction ticks generalizing fed pulses e with
  | nil =>
    simp only [List.filterMap_nil, Emitter.emitted, List.append_nil]
    exact follows
  | cons i ticks ih =>
    rw [fed_cons, ← List.append_assoc] at room ⊢
    have first : (fed ++ i.fed.toList).length ≤ depth := by
      rw [List.length_append] at room
      omega
    have step := follows.step least most (plain i List.mem_cons_self) holds.1 first
    have rest := ih step (fun i member => plain i (List.mem_cons_of_mem _ member)) holds.2 room
    rw [Emitter.emitted, ← List.append_assoc]
    exact rest

end BenchPod.SwdEngine
