import BenchPod.SwdEngine.Cycle

/-!
# The engine and its cycles

Edge by edge the engine goes through whole SWCLK cycles: low with the bit on SWDIO, high with it taken.  What
every cycle keeps therefore holds of the engine at every edge, whatever the times at which bytes arrive.
-/

namespace BenchPod.SwdEngine

open Engine

variable {half idle : Nat} {queue fed : List Byte} {log : List Clock} {c : Core} {e : Engine} {i : Input}

/-- The engine on the SWD wires: each rising edge of SWCLK is a cycle. -/
def swdWire : Emitter Engine Input Clock where
  step := Engine.tick
  emit e i :=
    if !e.clkVal && (e.tick i).clkVal then some (if e.dioOe then .drive e.dioVal else .read i.dioIn) else none

/-- Within a transfer the target changes SWDIO only while SWCLK is high; `dio_s0` is SWDIO an edge before. -/
def Answers (e : Engine) (i : Input) : Prop := e.qst = .run → e.clkVal = false → i.dioIn = e.dioS0

/-- What the target shows in a cycle fits the registers the sequencer has in it. -/
def Suits (Fits : Core → Bool → Prop) (e : Engine) (i : Input) : Prop :=
  ∀ c, Shows c e → e.qst = .run → e.clkVal = false → Fits c i.dioIn

/-- The target keeps to its half of the clock, and shows only what fits. -/
def Obeys (Fits : Core → Bool → Prop) (e : Engine) (i : Input) : Prop := Answers e i ∧ Suits Fits e i

/-- The settings of the queue and the bytes that have come. -/
structure Link (half idle : Nat) (queue fed : List Byte) (e : Engine) : Prop where
  mode : e.IsSwd
  half : e.half = half
  cpol : e.cpol = true
  unit : e.endIdx = 45 + idle
  filled : Filled fed e.tmem e.fptr
  sent : fed <+: queue

/-- The byte the engine has read is the next of the queue. -/
def Primed (fed : List Byte) (c : Core) (e : Engine) : Prop := e.qready = true → fed[c.taken]? = some e.tRd

/-- Where the engine stands in the cycles that `Kept` tells of. -/
inductive Stands (half : Nat) (queue fed : List Byte) (Fits : Core → Bool → Prop) (Kept : List Clock → Core → Prop)
    (log : List Clock) (e : Engine) : Prop
  | idle (c : Core) (kept : Kept log c) (shows : Shows c e) (rest : c.running = false)
      (behind : c.taken ≤ fed.length) (primed : Primed fed c e)
      (early : c.taken = 0 → fed.length ≤ 1 + e.qready.toNat ∧ c.qstop = false)
  | low (c : Core) (kept : Kept log c) (goes : c.Goes queue) (shows : Shows (c.enter queue) e)
      (going : c.qstop = false) (behind : (c.enter queue).taken ≤ fed.length) (some : 0 < (c.enter queue).taken)
      (low : e.ph = false) (level : e.swclkLvl = false) (count : e.hcnt < half)
      (settled : e.hcnt + 1 < half → e.dioS1 = e.dioS0)
  | high (c : Core) (bit : Bool) (before : List Clock) (split : log = before ++ [(c.enter queue).clock bit])
      (fits : Fits (c.enter queue) bit) (kept : Kept before c) (goes : c.Goes queue) (shows : Shows ((c.enter queue).rise bit) e)
      (going : c.qstop = false) (behind : (c.enter queue).taken ≤ fed.length) (some : 0 < (c.enter queue).taken)
      (high : e.ph = true) (level : e.swclkLvl = true) (count : e.hcnt < half) (primed : Primed fed (c.enter queue) e)

theorem Link.of_outer (link : Link half idle queue fed e) {after : Engine} (same : after.outer = e.outer) :
    Link half idle queue fed after := by
  have armed := congrArg Outer.armed same
  have spi := congrArg Outer.spi same
  have qmode := congrArg Outer.qmode same
  have half := congrArg Outer.half same
  have cpol := congrArg Outer.cpol same
  have unit := congrArg Outer.endIdx same
  have tmem := congrArg Outer.tmem same
  have fptr := congrArg Outer.fptr same
  simp only [outer] at armed spi qmode half cpol unit tmem fptr
  refine ⟨⟨armed.trans link.mode.armed, spi.trans link.mode.spi, qmode.trans link.mode.qmode⟩, half.trans link.half,
    cpol.trans link.cpol, unit.trans link.unit, ?_, link.sent⟩
  rw [tmem, fptr]
  exact link.filled

theorem Link.fetch (link : Link half idle queue fed e) (short : queue.length ≤ depth)
    (sent : fed ++ i.fed.toList <+: queue) : Link half idle queue (fed ++ i.fed.toList) (e.fetch i) :=
  ⟨⟨link.mode.armed, link.mode.spi, link.mode.qmode⟩, link.half, link.cpol, link.unit,
    link.filled.fetch (Nat.le_trans sent.length_le short), sent⟩

theorem Link.primed (link : Link half idle queue fed e) (taken : e.qptr = c.taken % depth)
    (behind : c.taken ≤ fed.length) (ready : (e.qptr != e.fptr) = true) :
    (fed ++ i.fed.toList)[c.taken]? = some (e.tmem e.qptr) := by
  have more : c.taken < fed.length := by
    refine Nat.lt_of_le_of_ne behind fun same => ?_
    rw [taken, link.filled.tail, same] at ready
    simp at ready
  have fits : c.taken % depth = c.taken := Nat.mod_eq_of_lt (Nat.lt_of_lt_of_le more link.filled.short)
  rw [List.getElem?_append_left more, link.filled.held c.taken more, taken, fits]

theorem Link.reload (link : Link half idle queue fed e) (least : 2 ≤ half) (most : half ≤ 63) : e.reload = half - 1 := by
  rw [Engine.reload, link.half]
  omega

theorem primed_of_outer {after : Engine} (same : after.outer = (e.fetch i).outer) (link : Link half idle queue fed e)
    (taken : e.qptr = c.taken % depth) (behind : c.taken ≤ fed.length) : Primed (fed ++ i.fed.toList) c after := by
  intro ready
  have flag := congrArg Outer.qready same
  have byte := congrArg Outer.tRd same
  simp only [outer, Engine.fetch] at flag byte
  rw [byte]
  exact link.primed taken behind (flag.symm.trans ready)

theorem getD_of_fed {place : Nat} {byte : Byte} (sent : fed <+: queue) (here : fed[place]? = some byte) :
    queue.getD place 0 = byte := by
  obtain ⟨later, rfl⟩ := sent
  obtain ⟨inside, -⟩ := List.getElem?_eq_some_iff.mp here
  rw [List.getD_eq_getElem?_getD, List.getElem?_append_left inside, here]
  rfl

theorem Core.fall_byte (byte other : Byte) {endIdx : Nat} (none : c.byteIn = false) :
    c.fall byte endIdx = c.fall other endIdx := by
  simp only [Core.fall, none, Bool.false_eq_true, if_false]

theorem swd_emit_low (after : (e.tick i).swclkLvl = false) : swdWire.emit e i = none := by
  simp only [swdWire, clkVal, after, Bool.and_false, Bool.false_eq_true, if_false]

theorem swd_emit_high (before : e.swclkLvl = true) : swdWire.emit e i = none := by
  simp only [swdWire, clkVal, before, Bool.not_true, Bool.false_and, Bool.false_eq_true, if_false]

theorem swd_emit_same (same : (e.tick i).swclkLvl = e.swclkLvl) : swdWire.emit e i = none := by
  cases level : e.swclkLvl with
  | false => exact swd_emit_low (same.trans level)
  | true => exact swd_emit_high level

theorem Engine.Shows.clock (shows : Shows c e) (mode : e.IsSwd) (running : c.running = true) :
    (if e.dioOe then Clock.drive e.dioVal else .read i.dioIn) = c.clock i.dioIn := by
  have rest : (e.qst == .idle) = !c.running := by
    rw [shows.running, running]
    rfl
  simp only [dioOe, dioVal, mode.qActive, if_true, qOe, qOut, qIdleCyc, rest, shows.idx, shows.isrd, shows.par, shows.sh,
    Core.clock]

variable {Fits : Core → Bool → Prop} {Kept : List Clock → Core → Prop}

/-- Every cycle with a bit that fits keeps `Kept`. -/
def Keeps (queue : List Byte) (endIdx : Nat) (Fits : Core → Bool → Prop) (Kept : List Clock → Core → Prop) : Prop :=
  ∀ log c bit, Kept log c → c.Goes queue → Fits (c.enter queue) bit →
    Kept (log ++ [(c.enter queue).clock bit]) (c.beat queue endIdx bit)

theorem Stands.wait (kept : Kept log c) (shows : Shows c e) (rest : c.running = false) (behind : c.taken ≤ fed.length)
    (early : c.taken = 0 → fed.length ≤ 1 + e.qready.toNat ∧ c.qstop = false)
    (held : (!e.qstop && e.qready) = false) (link : Link half idle queue fed e) (plain : i.Plain) :
    Stands half queue (fed ++ i.fed.toList) Fits Kept (log ++ (swdWire.emit e i).toList) (e.tick i) := by
  have resting : e.qst = .idle := by rw [shows.running, rest, if_neg Bool.false_ne_true]
  have after := tick_wait link.mode.run plain resting held
  rw [swd_emit_same ((congrArg Engine.swclkLvl after).trans rfl), Option.toList_none, List.append_nil, after]
  have longer : fed.length ≤ (fed ++ i.fed.toList).length := by rw [List.length_append]; exact Nat.le_add_right _ _
  refine .idle c kept shows.fetch rest (Nat.le_trans behind longer) (primed_of_outer rfl link shows.taken behind) ?_
  intro none
  obtain ⟨few, going⟩ := early none
  refine ⟨?_, going⟩
  have empty : e.qready = false := by simpa only [shows.qstop, going, Bool.not_false, Bool.true_and] using held
  have arrives : i.feedStb.toNat ≤ 1 := Bool.toNat_le i.feedStb
  simp only [empty, Bool.toNat_false, Nat.add_zero] at few
  rw [List.length_append, Input.length_fed]
  obtain one | zero : fed.length = 1 ∨ fed.length = 0 := by omega
  · have ready : (e.fetch i).qready = true := by
      simp only [Engine.fetch, shows.taken, link.filled.tail, none, one]
      rfl
    rw [ready, Bool.toNat_true]
    omega
  · omega

theorem Stands.start (kept : Kept log c) (shows : Shows c e) (rest : c.running = false) (primed : Primed fed c e)
    (going : e.qstop = false) (ready : e.qready = true) (link : Link half idle queue fed e) (least : 2 ≤ half)
    (most : half ≤ 63) (plain : i.Plain) :
    Stands half queue (fed ++ i.fed.toList) Fits Kept (log ++ (swdWire.emit e i).toList) (e.tick i) := by
  have resting : e.qst = .idle := by rw [shows.running, rest, if_neg Bool.false_ne_true]
  have after := tick_start link.mode.run plain resting ready going
  have shown := primed ready
  obtain ⟨more, -⟩ := List.getElem?_eq_some_iff.mp shown
  have reload := link.reload least most
  have entered : c.enter queue = c.start e.tRd := by
    rw [Core.enter, rest, if_neg Bool.false_ne_true, getD_of_fed link.sent shown]
  have longer : fed.length ≤ (fed ++ i.fed.toList).length := by rw [List.length_append]; exact Nat.le_add_right _ _
  have stopped : c.qstop = false := shows.qstop.symm.trans going
  rw [swd_emit_low (congrArg Engine.swclkLvl after), Option.toList_none, List.append_nil, after]
  refine .low c kept (.inr ⟨stopped, Nat.lt_of_lt_of_le more link.sent.length_le⟩) (entered ▸ shows.start) stopped ?_ ?_ rfl
    rfl ?_ ?_
  · rw [entered]
    exact Nat.le_trans more longer
  · rw [entered]
    exact Nat.succ_pos _
  · simp only [Engine.start, reload]
    omega
  · intro soon
    simp only [Engine.start, reload] at soon
    omega

theorem length_fed_le (i : Input) : fed.length ≤ (fed ++ i.fed.toList).length := by
  rw [List.length_append]
  exact Nat.le_add_right _ _

theorem Stands.rise (kept : Kept log c) (goes : c.Goes queue) (shows : Shows (c.enter queue) e)
    (going : c.qstop = false) (behind : (c.enter queue).taken ≤ fed.length) (some : 0 < (c.enter queue).taken)
    (low : e.ph = false) (level : e.swclkLvl = false) (settled : e.dioS1 = e.dioS0) (passed : e.hcnt = 0)
    (obeys : Obeys Fits e i) (link : Link half idle queue fed e) (least : 2 ≤ half) (most : half ≤ 63)
    (plain : i.Plain) :
    Stands half queue (fed ++ i.fed.toList) Fits Kept (log ++ (swdWire.emit e i).toList) (e.tick i) := by
  have running : e.qst = .run := by rw [shows.running, c.running_enter queue, if_pos rfl]
  have after := tick_rise link.mode.run plain running passed low
  have bit : e.dioS1 = i.dioIn := settled.trans (obeys.1 running level).symm
  have reload := link.reload least most
  have emits : swdWire.emit e i = Option.some ((c.enter queue).clock i.dioIn) := by
    have rises : (e.tick i).swclkLvl = true := congrArg Engine.swclkLvl after
    simp only [swdWire, clkVal, level, rises, Bool.not_false, Bool.and_self, if_true]
    rw [shows.clock link.mode (c.running_enter queue)]
  rw [emits, Option.toList_some, after]
  have risen := shows.rise (i := i) link.mode.spi
  rw [bit] at risen
  refine .high c i.dioIn log rfl (obeys.2 _ shows running level) kept goes risen going (Nat.le_trans behind (length_fed_le i)) some rfl rfl ?_
    (primed_of_outer outer_rise link shows.taken behind)
  simp only [Engine.rise, reload]
  omega

/-- The falling edge: the cycle is over. -/
theorem Stands.fall {bit : Bool} (keeps : Keeps queue e.endIdx Fits Kept) (kept : Kept log c) (goes : c.Goes queue)
    (fits : Fits (c.enter queue) bit) (shows : Shows ((c.enter queue).rise bit) e) (going : c.qstop = false)
    (behind : (c.enter queue).taken ≤ fed.length) (some : 0 < (c.enter queue).taken) (high : e.ph = true)
    (level : e.swclkLvl = true) (primed : Primed fed (c.enter queue) e) (passed : e.hcnt = 0)
    (moves : (e.qByteIn && !e.qready) = false) (link : Link half idle queue fed e) (least : 2 ≤ half) (most : half ≤ 63)
    (plain : i.Plain) :
    Stands half queue (fed ++ i.fed.toList) Fits Kept
      ((log ++ [(c.enter queue).clock bit]) ++ (swdWire.emit e i).toList) (e.tick i) := by
  have running : e.qst = .run := by rw [shows.running, Core.running_rise, c.running_enter queue, if_pos rfl]
  have after := tick_fall link.mode.run plain running passed high moves
  have reload := link.reload least most
  have byteIn : e.qByteIn = (c.enter queue).byteIn := shows.byteIn link.mode.spi
  have head : (c.enter queue).byteIn = true → fed[(c.enter queue).taken]? = Option.some e.tRd := by
    intro taking
    rw [byteIn, taking, Bool.true_and] at moves
    exact primed (by simpa using moves)
  have fallen : Shows (c.beat queue e.endIdx bit) (e.fall (e.fetch i)) := by
    have next := shows.fall (i := i) link.mode.spi (c.running_enter queue)
    cases taking : (c.enter queue).byteIn with
    | false =>
      rw [Core.beat, Core.fall_byte _ e.tRd (by exact taking)]
      exact next
    | true =>
      rw [Core.beat, getD_of_fed link.sent (head taking)]
      exact next
  have taken : (c.beat queue e.endIdx bit).taken ≤ fed.length ∧ 0 < (c.beat queue e.endIdx bit).taken := by
    cases taking : (c.enter queue).byteIn with
    | false =>
      simp only [Core.beat, Core.fall, Core.byteIn_rise, Core.taken_rise, taking, Bool.false_eq_true, if_false]
      exact ⟨behind, some⟩
    | true =>
      obtain ⟨more, -⟩ := List.getElem?_eq_some_iff.mp (head taking)
      simp only [Core.beat, Core.fall, Core.byteIn_rise, Core.taken_rise, taking, if_true]
      exact ⟨more, Nat.succ_pos _⟩
  have far := Nat.le_trans taken.1 (length_fed_le i)
  have outer : (e.fall (e.fetch i)).outer = (e.fetch i).outer := outer_fall link.mode.spi
  have kept_on := keeps log c bit kept goes fits
  rw [swd_emit_high level, Option.toList_none, List.append_nil, after]
  cases left : (c.beat queue e.endIdx bit).running with
  | false =>
    have last : (c.enter queue).idx = e.endIdx := Decidable.not_not.mp (of_decide_eq_false left)
    have none : (c.enter queue).byteIn = false := by
      have unit := link.unit
      have far : ¬((c.enter queue).idx = 12 ∨ (c.enter queue).idx = 20 ∨ (c.enter queue).idx = 28 ∨
          (c.enter queue).idx = 36) := by omega
      simp only [Core.byteIn, far, decide_false, Bool.and_false]
    have same : (c.beat queue e.endIdx bit).taken = (c.enter queue).taken := by
      simp only [Core.beat, Core.fall, Core.byteIn_rise, Core.taken_rise, none, Bool.false_eq_true, if_false]
    refine .idle _ kept_on fallen left far ?_ fun none => absurd none (Nat.ne_of_gt taken.2)
    intro ready
    have next : Primed (fed ++ i.fed.toList) (c.enter queue) _ := primed_of_outer outer link shows.taken behind
    rw [same]
    exact next ready
  | true =>
    have stays := Core.enter_running left queue
    have stopped : (c.beat queue e.endIdx bit).qstop = false := by
      have inside : (c.enter queue).idx ≠ e.endIdx := of_decide_eq_true left
      have entered : (c.enter queue).qstop = false := by
        rw [Core.enter]
        split <;> exact going
      simp only [Core.beat, Core.fall, Core.idx_rise, inside, decide_false, Bool.false_and, Bool.or_false]
      exact entered
    have inside : e.idx ≠ e.endIdx := by
      rw [shows.idx]
      exact of_decide_eq_true left
    refine .low _ kept_on (.inl left) (by rw [stays]; exact fallen) stopped (by rw [stays]; exact far)
      (by rw [stays]; exact taken.2) ?_ ?_ ?_ ?_ <;> rw [fall_eq link.mode.spi]
    · exact if_neg inside
    · simp only [reload]
      omega
    · intro soon
      simp only [reload] at soon
      omega

/-- One edge. -/
theorem Stands.step (stands : Stands half queue fed Fits Kept log e) (keeps : Keeps queue (45 + idle) Fits Kept)
    (link : Link half idle queue fed e) (least : 2 ≤ half) (most : half ≤ 63) (plain : i.Plain)
    (obeys : Obeys Fits e i) :
    Stands half queue (fed ++ i.fed.toList) Fits Kept (log ++ (swdWire.emit e i).toList) (e.tick i) := by
  have longer := @length_fed_le fed i
  cases stands with
  | idle c kept shows rest behind primed early =>
    cases held : !e.qstop && e.qready with
    | false => exact .wait kept shows rest behind early held link plain
    | true =>
      rw [Bool.and_eq_true, Bool.not_eq_true'] at held
      exact .start kept shows rest primed held.1 held.2 link least most plain
  | low c kept goes shows going behind some low level count settled =>
    obtain passed | left := Nat.eq_zero_or_pos e.hcnt
    · exact .rise kept goes shows going behind some low level (settled (by omega)) passed obeys link least most plain
    · have running : e.qst = .run := by rw [shows.running, c.running_enter queue, if_pos rfl]
      have after := tick_count link.mode.run plain running (Nat.ne_of_gt left)
      rw [swd_emit_same ((congrArg Engine.swclkLvl after).trans rfl), Option.toList_none, List.append_nil, after]
      refine .low c kept goes (shows.fetch.count _) going (Nat.le_trans behind longer) some low level ?_ fun _ => ?_
      · exact Nat.lt_of_le_of_lt (Nat.sub_le _ _) count
      · exact (obeys.1 running level).symm
  | high c bit before split fits kept goes shows going behind some high level count primed =>
    subst split
    have running : e.qst = .run := by rw [shows.running, Core.running_rise, c.running_enter queue, if_pos rfl]
    obtain passed | left := Nat.eq_zero_or_pos e.hcnt
    · cases moves : e.qByteIn && !e.qready with
      | false =>
        exact .fall (link.unit ▸ keeps) kept goes fits shows going behind some high level primed passed moves link least most
          plain
      | true =>
        have after := tick_stall link.mode.run plain running passed high moves
        rw [swd_emit_high level, Option.toList_none, List.append_nil, after]
        exact .high c bit before rfl fits kept goes shows.fetch going (Nat.le_trans behind longer) some high level count
          (primed_of_outer rfl link shows.taken behind)
    · have after := tick_count link.mode.run plain running (Nat.ne_of_gt left)
      rw [swd_emit_high level, Option.toList_none, List.append_nil, after]
      refine .high c bit before rfl fits kept goes (shows.fetch.count _) going (Nat.le_trans behind longer) some high level ?_
        (primed_of_outer rfl link shows.taken behind)
      exact Nat.lt_of_le_of_lt (Nat.sub_le _ _) count

theorem outer_tick (mode : e.IsSwd) (plain : i.Plain) : (e.tick i).outer = (e.fetch i).outer := by
  cases resting : e.qst with
  | idle =>
    cases held : !e.qstop && e.qready with
    | false => rw [tick_wait mode.run plain resting held]
    | true =>
      rw [Bool.and_eq_true, Bool.not_eq_true'] at held
      rw [tick_start mode.run plain resting held.2 held.1, outer_start]
  | run =>
    obtain passed | left := Nat.eq_zero_or_pos e.hcnt
    · obtain high | low := Bool.eq_false_or_eq_true e.ph
      · cases moves : e.qByteIn && !e.qready with
        | false => rw [tick_fall mode.run plain resting passed high moves, outer_fall mode.spi]
        | true => rw [tick_stall mode.run plain resting passed high moves]
      · rw [tick_rise mode.run plain resting passed low, outer_rise]
    · rw [tick_count mode.run plain resting (Nat.ne_of_gt left)]
      rfl

theorem Link.tick (link : Link half idle queue fed e) (short : queue.length ≤ depth)
    (sent : fed ++ i.fed.toList <+: queue) (plain : i.Plain) :
    Link half idle queue (fed ++ i.fed.toList) (e.tick i) :=
  (link.fetch short sent).of_outer (outer_tick link.mode plain)

theorem Stands.run {ticks : List Input} (stands : Stands half queue fed Fits Kept log e)
    (keeps : Keeps queue (45 + idle) Fits Kept) (link : Link half idle queue fed e) (short : queue.length ≤ depth)
    (least : 2 ≤ half) (most : half ≤ 63) (plain : ∀ i ∈ ticks, i.Plain) (obeys : swdWire.Along (Obeys Fits) e ticks)
    (sent : fed ++ ticks.filterMap Input.fed <+: queue) :
    Stands half queue (fed ++ ticks.filterMap Input.fed) Fits Kept (log ++ swdWire.emitted e ticks) (swdWire.run e ticks) ∧
      Link half idle queue (fed ++ ticks.filterMap Input.fed) (swdWire.run e ticks) := by
  induction ticks generalizing fed log e with
  | nil =>
    simp only [List.filterMap_nil, Emitter.emitted, List.append_nil]
    exact ⟨stands, link⟩
  | cons i ticks ih =>
    rw [fed_cons, ← List.append_assoc] at sent ⊢
    have first : fed ++ i.fed.toList <+: queue := List.prefix_append _ _ |>.trans sent
    have now := plain i List.mem_cons_self
    have step := stands.step keeps link least most now obeys.1
    have rest := ih step (link.tick short first now) (fun later member => plain later (List.mem_cons_of_mem i member))
      obeys.2 sent
    rw [Emitter.emitted, ← List.append_assoc]
    exact rest

end BenchPod.SwdEngine
