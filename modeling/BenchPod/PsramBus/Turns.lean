import BenchPod.PsramBus.Sharing

/-!
# The masters take turns

The arbiter remembers who went last, and a master that keeps asking keeps the grant it has been given.
-/

namespace BenchPod.PsramBus

variable {mem : BitVec 24 → Byte} {b : Bus} {i : BusInput}

/-- Both masters want a burst. -/
def BothAsk (b : Bus) (_ : BusInput) : Prop := rdReq b.rd = true ∧ b.wr.req = true

/-- The bus as the master of the last burst leaves it to the other one. -/
def Turn : Begins → Bus → Prop
  | .rd, b =>
    b.wr.busy = false ∧
      (b.arb.own = .rd ∧ (rdBusy b.rd = true ∨ b.arb.started = true) ∨
        b.arb.own = .none ∧ b.arb.lastRd = true ∨ b.arb.own = .wr ∧ b.arb.started = false)
  | .wr, b =>
    rdBusy b.rd = false ∧
      (b.arb.own = .wr ∧ (b.wr.busy = true ∨ b.arb.started = true) ∨
        b.arb.own = .none ∧ b.arb.lastRd = false ∨ b.arb.own = .rd ∧ b.arb.started = false)

theorem not_reset (asks : rdReq b.rd = true) : b.rd.ownSync1 = false := by
  simp only [rdReq, DacPsram.Fsm.wantBurst, Bool.and_eq_true, Bool.not_eq_true'] at asks
  exact asks.2.2

theorem own_held (steady : b.rd.ownSync1 = false) :
    (b.arb.own = .rd → rdBusy b.rd = true → (b.cycle i mem).arb.own = .rd) ∧
      (b.arb.own = .wr → b.wr.busy = true → (b.cycle i mem).arb.own = .wr) := by
  constructor
  · intro own busy
    simp [Bus.cycle, Arbiter.tick, Bus.asks, steady, own, busy]
  · intro own busy
    simp [Bus.cycle, Arbiter.tick, Bus.asks, steady, own, busy]

theorem other_hidden : (rdBusy b.rd = true → b.wrGnt = false) ∧ (b.wr.busy = true → b.rdGnt = false) := by
  constructor <;> intro busy <;> simp [Bus.wrGnt, Arbiter.wrGnt, Bus.rdGnt, Arbiter.rdGnt, Bus.asks, busy]

theorem begins_cases (value : Begins) (emitted : (sharing mem).emit b i = some value) :
    value = .rd ∧ rdBusy b.rd = false ∧ rdBusy (b.cycle i mem).rd = true ∨
      value = .wr ∧ b.wr.busy = false ∧ (b.cycle i mem).wr.busy = true := by
  simp only [sharing] at emitted
  split at emitted
  · next reads =>
      left
      simp only [Bool.and_eq_true, Bool.not_eq_true'] at reads
      exact ⟨(Option.some.inj emitted).symm, reads⟩
  · split at emitted
    · next writes =>
        right
        simp only [Bool.and_eq_true, Bool.not_eq_true'] at writes
        exact ⟨(Option.some.inj emitted).symm, writes⟩
    · exact nomatch emitted

theorem Turn.passes {last value : Begins} (turn : Turn last b) (emitted : (sharing mem).emit b i = some value) :
    last ≠ value := by
  obtain ⟨rfl, idle, busy⟩ | ⟨rfl, idle, busy⟩ := begins_cases value emitted
  · rintro rfl
    obtain ⟨own, -, kept, -⟩ := rd_begins idle busy
    obtain ⟨-, ⟨-, begun⟩ | ⟨other, -⟩ | ⟨other, -⟩⟩ := turn
    · have started : b.arb.started = true := begun.resolve_left (by rw [idle]; nofun)
      simp [Arbiter.relRd, Bus.asks, own, started, idle] at kept
    · exact nomatch own.symm.trans other
    · exact nomatch own.symm.trans other
  · rintro rfl
    obtain ⟨own, -, kept, -⟩ := wr_begins idle busy
    obtain ⟨-, ⟨-, begun⟩ | ⟨other, -⟩ | ⟨other, -⟩⟩ := turn
    · have started : b.arb.started = true := begun.resolve_left (by rw [idle]; nofun)
      simp [Arbiter.relWr, Bus.asks, own, started, idle] at kept
    · exact nomatch own.symm.trans other
    · exact nomatch own.symm.trans other

theorem begins_turn {value : Begins} (shared : Shared b) (both : BothAsk b i)
    (emitted : (sharing mem).emit b i = some value) : Turn value (b.cycle i mem) := by
  have steady := not_reset both.1
  obtain ⟨rfl, idle, busy⟩ | ⟨rfl, idle, busy⟩ := begins_cases value emitted
  · obtain ⟨own, -, kept, -⟩ := rd_begins idle busy
    have apart := (@Shared.apart_step mem b i shared).2.2
    refine ⟨Bool.eq_false_iff.mpr fun writes => apart ⟨busy, writes⟩, .inl ⟨?_, .inl busy⟩⟩
    simp only [Arbiter.relRd, Bus.asks, own, idle] at kept
    simp [Bus.cycle, Arbiter.tick, Bus.asks, steady, own, idle, both.1, show b.arb.started = false by simpa using kept]
  · obtain ⟨own, -, kept, -⟩ := wr_begins idle busy
    have apart := (@Shared.apart_step mem b i shared).2.2
    refine ⟨Bool.eq_false_iff.mpr fun reads => apart ⟨reads, busy⟩, .inl ⟨?_, .inl busy⟩⟩
    simp only [Arbiter.relWr, Bus.asks, own, idle] at kept
    simp [Bus.cycle, Arbiter.tick, Bus.asks, steady, own, idle, both.2, show b.arb.started = false by simpa using kept]

/-- Where no burst starts the turn stays. -/
theorem Turn.stays {last : Begins} (turn : Turn last b) (both : BothAsk b i)
    (quiet : (sharing mem).emit b i = none) : Turn last (b.cycle i mem) := by
  have steady := not_reset both.1
  simp only [sharing] at quiet
  split at quiet
  · exact nomatch quiet
  split at quiet
  · exact nomatch quiet
  next noReads noWrites =>
    simp only [Bool.and_eq_true, Bool.not_eq_true', not_and, Bool.not_eq_true] at noReads noWrites
    have arb : (b.cycle i mem).arb = b.arb.tick b.asks false := congrArg (b.arb.tick b.asks) steady
    cases last with
    | rd =>
      obtain ⟨idle, cases⟩ := turn
      refine ⟨noWrites idle, ?_⟩
      rw [arb]
      obtain ⟨own, begun⟩ | ⟨own, lastRd⟩ | ⟨own, fresh⟩ := cases
      · cases busy : rdBusy b.rd with
        | true => simp [Arbiter.tick, Bus.asks, own, busy]
        | false =>
          have started : b.arb.started = true := begun.resolve_left (by rw [busy]; nofun)
          simp [Arbiter.tick, Bus.asks, own, busy, started]
      · simp [Arbiter.tick, Arbiter.pick, Bus.asks, own, lastRd, both.1, both.2]
      · simp [Arbiter.tick, Bus.asks, own, fresh, idle, both.2]
    | wr =>
      obtain ⟨idle, cases⟩ := turn
      refine ⟨noReads idle, ?_⟩
      rw [arb]
      obtain ⟨own, begun⟩ | ⟨own, lastRd⟩ | ⟨own, fresh⟩ := cases
      · cases busy : b.wr.busy with
        | true => simp [Arbiter.tick, Bus.asks, own, busy]
        | false =>
          have started : b.arb.started = true := begun.resolve_left (by rw [busy]; nofun)
          simp [Arbiter.tick, Bus.asks, own, busy, started]
      · simp [Arbiter.tick, Arbiter.pick, Bus.asks, own, lastRd, both.1, both.2]
      · simp [Arbiter.tick, Bus.asks, own, fresh, idle, both.1]

variable {inputs : List BusInput}

theorem Turn.alternate {last : Begins} (turn : Turn last b) (shared : Shared b)
    (both : (sharing mem).Along BothAsk b inputs) : (last :: (sharing mem).emitted b inputs).IsChain (· ≠ ·) := by
  induction inputs generalizing b last with
  | nil => exact .singleton last
  | cons i inputs ih =>
    obtain ⟨now, later⟩ := both
    rw [Emitter.emitted]
    cases emitted : (sharing mem).emit b i with
    | none => exact ih (turn.stays now emitted) shared.cycle later
    | some value => exact .cons_cons (turn.passes emitted) (ih (begins_turn shared now emitted) shared.cycle later)

theorem alternate (shared : Shared b) (both : (sharing mem).Along BothAsk b inputs) :
    ((sharing mem).emitted b inputs).IsChain (· ≠ ·) := by
  induction inputs generalizing b with
  | nil => exact .nil
  | cons i inputs ih =>
    obtain ⟨now, later⟩ := both
    rw [Emitter.emitted]
    cases emitted : (sharing mem).emit b i with
    | none => exact ih shared.cycle later
    | some value => exact (begins_turn shared now emitted).alternate shared.cycle later

theorem Shared.reached (inputs : List BusInput) : Shared ((sharing mem).run {} inputs) :=
  (Emitter.along_true _ _ _).invariant _ Shared (fun shared _ => shared.cycle) Shared.first

/-- In every run the two masters are never inside a burst together, and never both hold chip select low: after a
cycle in which one does, a whole cycle goes by in which the other does not.  The owner keeps the bus while it is
busy unless `bus_own` resets the arbiter, and then the other one still gets no grant before the owner is done.
While both keep asking, the bursts alternate. -/
theorem bus_shared (mem : BitVec 24 → Byte) (inputs : List BusInput) :
    let b := (sharing mem).run {} inputs
    ¬(rdBusy b.rd = true ∧ b.wr.busy = true) ∧
      (∀ i, ¬(rdActive mem b i = true ∧ wrActive b i = true)) ∧
      (∀ i j, (rdActive mem b i = true → wrActive (b.cycle i mem) j = false) ∧
        (wrActive b i = true → rdActive mem (b.cycle i mem) j = false)) ∧
      (b.rd.ownSync1 = false → ∀ i, (b.arb.own = .rd → rdBusy b.rd = true → (b.cycle i mem).arb.own = .rd) ∧
        (b.arb.own = .wr → b.wr.busy = true → (b.cycle i mem).arb.own = .wr)) ∧
      ((rdBusy b.rd = true → b.wrGnt = false) ∧ (b.wr.busy = true → b.rdGnt = false)) ∧
      ∀ window, (sharing mem).Along BothAsk b window → ((sharing mem).emitted b window).IsChain (· ≠ ·) := by
  intro b
  have shared : Shared b := Shared.reached inputs
  refine ⟨shared.apart, ?_, ?_, fun steady _ => own_held steady, other_hidden, fun _ both => alternate shared both⟩
  · rintro i ⟨reads, writes⟩
    exact (@Shared.apart_step mem b i shared).2.2 ⟨shared.rd_active reads, shared.wr_active writes⟩
  · intro i j
    have next : Shared (b.cycle i mem) := shared.cycle
    obtain ⟨quietWr, quietRd, -⟩ := @Shared.apart_step mem (b.cycle i mem) j next
    constructor
    · intro active
      have quiet := quietWr (shared.rd_active active)
      exact Bool.eq_false_iff.mpr fun writes => Bool.false_ne_true (quiet.symm.trans (next.wr_active writes))
    · intro active
      have quiet := quietRd (shared.wr_active active)
      exact Bool.eq_false_iff.mpr fun reads => Bool.false_ne_true (quiet.symm.trans (next.rd_active reads))

/-- The STM32 takes the bus while the reader's burst goes on: the arbiter lets go of it. -/
theorem grant_withdrawn :
    let b := (sharing fun _ => 0).run {} (List.replicate 7 { run := true, len := 16 } ++
      List.replicate 3 { run := true, len := 16, own := true })
    b.arb.own = .rd ∧ rdBusy b.rd = true ∧
      (b.cycle { run := true, len := 16, own := true } fun _ => 0).arb.own = .none ∧
      rdBusy (b.cycle { run := true, len := 16, own := true } fun _ => 0).rd = true := by
  decide +kernel

end BenchPod.PsramBus
