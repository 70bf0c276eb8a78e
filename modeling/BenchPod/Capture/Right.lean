import BenchPod.Capture.Tape

/-!
# How the tape moves

What captures, uploads and other writers do to the tape, and why a replay still plays the right trace
when none of them spoils a trace that is kept.
-/

namespace BenchPod.Capture

namespace Tape

variable {p : Tape} {t : Traces}

theorem taken_ne_zero : p.taken ≠ 0 := by
  unfold taken
  split
  · decide
  · assumption

theorem holds_of_eq {gen : Word} (same : p.poolGen = gen) (some_gen : gen ≠ 0) : p.holds gen = true := by
  have other : ¬gen = 0#32 := some_gen
  simp [holds, same, other]

theorem holds_of_ne {gen : Word} (other : p.poolGen ≠ gen) : p.holds gen = false := by
  simp [holds, Ne.symm other]

theorem fresh_iff : p.fresh = true ↔ p.taken ≠ p.jsonTraceGen ∧ p.taken ≠ p.scpiTraceGen := by
  simp [fresh]

theorem jsonHeld_iff : p.jsonHeld = true ↔ p.replayInPsram = false ∧ p.replayLen ≠ 0 ∧ p.holds p.jsonTraceGen = true := by
  simp [jsonHeld, and_assoc]

theorem scpiHeld_iff : p.scpiHeld = true ↔ p.scpiReplayBytes ≠ 0 ∧ p.holds p.scpiTraceGen = true := by
  simp [scpiHeld]

/-- A JSON capture into the pool starts. -/
def capturing (p : Tape) (cap : V2cap) : Tape :=
  { p with v2cap := some cap, replayLen := cap.samples, poolGen := p.taken, jsonTraceGen := p.taken }

/-- Bytes written into the pool. -/
def poured (p : Tape) (offset : Nat) (data : List Byte) : Tape :=
  { p with pool := p.pool.write offset data }

/-- A chunk of a JSON upload in the pool. -/
def loaded (p : Tape) (offset : Nat) (data : List Byte) : Tape :=
  { p.poured offset data with
    poolGen := p.taken, jsonTraceGen := p.taken, replayLen := (offset + data.length) / 2 }

end Tape

namespace Right

variable {p : Tape} {t : Traces}

theorem dropped (right : Right p t) (idle : p.v2cap = none) : Right { p with replayLen := 0 } t where
  ram := by
    intro _ held
    exact absurd (Tape.jsonHeld_iff.mp held).2.1 (by simp)
  psram := fun _ none_left => absurd rfl none_left
  v2cap := by simp [idle]
  apart := right.apart
  scpi := right.scpi
  upload uploads := ⟨rfl, (right.upload uploads).2⟩

theorem cleared (right : Right p t) : Right { p with loadBin := {} } t where
  ram := right.ram
  psram := right.psram
  v2cap := right.v2cap
  apart := right.apart
  scpi := right.scpi
  upload uploads := by simp at uploads

theorem scratch (right : Right p t) (data : List Byte) : Right (p.poured adcPoolTraceBytes data) t where
  ram idle held := by
    obtain ⟨length, stored⟩ := right.ram idle held
    exact ⟨length, stored.write (.inr (Nat.le_trans (by omega) (show 0 + signalBufSize ≤ adcPoolTraceBytes by
      decide)))⟩
  psram := right.psram
  v2cap := right.v2cap
  apart := right.apart
  scpi held := by
    obtain ⟨length, stored⟩ := right.scpi held
    exact ⟨length, stored.write (.inr (Nat.le_trans (by omega) (show 0 + signalBufSize ≤ adcPoolTraceBytes by
      decide)))⟩
  upload uploads := by
    obtain ⟨empty, ram, have_bytes, within, stored⟩ := right.upload uploads
    refine ⟨empty, ram, have_bytes, within, ?_⟩
    change if p.loadBin.psram then _ else _ at stored
    change if p.loadBin.psram then _ else _
    split
    · rwa [if_pos ‹_›] at stored
    · rw [if_neg ‹_›] at stored
      exact ⟨stored.1.write (.inr (Nat.le_trans (by omega)
        (show 0 + signalBufSize ≤ adcPoolTraceBytes by decide))), stored.2⟩

theorem capturing (ram : p.replayInPsram = false) (fresh : p.fresh = true)
    (idle : p.loadBin.conn = none) (cap : V2cap) : Right (p.capturing cap) t := by
  obtain ⟨-, other⟩ := Tape.fresh_iff.mp fresh
  have lost : (p.capturing cap).holds p.scpiTraceGen = false := Tape.holds_of_ne other
  refine ⟨?_, ?_, ?_, fun _ => lost, ?_, ?_⟩
  · intro busy
    cases busy
  · intro psram
    rw [Tape.capturing, ram] at psram
    cases psram
  · intro other same
    cases same
    exact ⟨ram, rfl, Tape.holds_of_eq rfl Tape.taken_ne_zero⟩
  · intro held
    exact absurd ((Tape.scpiHeld_iff.mp held).2.symm.trans lost) (by decide)
  · intro uploads
    rw [Tape.capturing, idle] at uploads
    cases uploads

theorem captured (right : Right p t) {cap : V2cap} (busy : p.v2cap = some cap)
    (quiet : p.loadBin.conn = none) {data : List Byte} (length : data.length = 2 * cap.samples) :
    Right { p with v2cap := none, pool := p.pool.write 0 data } { t with json := data } := by
  obtain ⟨ram, samples, held⟩ := right.v2cap cap busy
  refine ⟨?_, ?_, by simp, right.apart, ?_, ?_⟩
  · intro _ _
    have stored : Stored (p.pool.write 0 data) 0 data signalBufSize := stored_write
    refine ⟨?_, stored⟩
    rw [length, Nat.mul_div_cancel_left _ (by decide)]
    exact samples
  · intro psram
    exact absurd (ram.symm.trans psram) (by decide)
  · intro playable
    exact absurd ((right.apart held).symm.trans (Tape.scpiHeld_iff.mp playable).2) (by decide)
  · intro uploads
    change p.loadBin.conn.isSome = true at uploads
    rw [quiet] at uploads
    cases uploads

theorem poured (right : Right p t) (json : p.jsonHeld = false) (scpi : p.scpiHeld = false)
    (idle : p.v2cap = none) (quiet : p.loadBin.conn = none) (offset : Nat) (data : List Byte) :
    Right (p.poured offset data) t where
  ram _ held := absurd (json.symm.trans held) (by decide)
  psram := right.psram
  v2cap cap busy := by
    rw [Tape.poured, idle] at busy
    cases busy
  apart := right.apart
  scpi held := absurd (scpi.symm.trans held) (by decide)
  upload uploads := by
    rw [Tape.poured, quiet] at uploads
    cases uploads

theorem poured_nil (offset : Nat) : p.poured offset [] = p := by
  rw [Tape.poured, Mem.write_nil]

theorem loaded (right : Right p t) (ram : p.replayInPsram = false) (fresh : p.fresh = true)
    (idle : p.v2cap = none) (quiet : p.loadBin.conn = none) {offset : Nat} {data : List Byte}
    (continues : offset = 0 ∨ p.jsonHeld = true ∧ offset ≤ t.json.length) :
    Right (p.loaded offset data) { t with json := t.json.take offset ++ data } := by
  obtain ⟨-, other⟩ := Tape.fresh_iff.mp fresh
  have lost : (p.loaded offset data).holds p.scpiTraceGen = false := Tape.holds_of_ne other
  refine ⟨?_, ?_, ?_, fun _ => lost, ?_, ?_⟩
  · intro _ _
    obtain rfl | ⟨held, inside⟩ := continues
    · rw [List.take_zero, List.nil_append]
      have stored : Stored (p.pool.write 0 data) 0 data signalBufSize := stored_write
      exact ⟨by simp [Tape.loaded], stored⟩
    · obtain ⟨-, stored⟩ := right.ram idle held
      refine ⟨by simp [Tape.loaded, Nat.min_eq_left inside], ?_⟩
      have written := stored.write_on inside data
      rwa [Nat.zero_add] at written
  · intro psram
    change p.replayInPsram = true at psram
    rw [ram] at psram
    cases psram
  · intro cap busy
    change cap ∈ p.v2cap at busy
    rw [idle] at busy
    cases busy
  · intro held
    exact absurd ((Tape.scpiHeld_iff.mp held).2.symm.trans lost) (by decide)
  · intro uploads
    change p.loadBin.conn.isSome = true at uploads
    rw [quiet] at uploads
    cases uploads

theorem begun (idle : p.v2cap = none) (fresh : p.fresh = true) {upload : LoadBin}
    (ram : upload.psram = false) (empty : upload.haveBytes = 0) :
    Right { p with poolGen := p.taken, jsonTraceGen := p.taken, loadBin := upload, replayLen := 0,
                   replayInPsram := false } { t with upload := [] } := by
  obtain ⟨-, other⟩ := Tape.fresh_iff.mp fresh
  refine ⟨?_, ?_, ?_, fun _ => Tape.holds_of_ne other, ?_, ?_⟩
  · intro _ held
    exact absurd (Tape.jsonHeld_iff.mp held).2.1 (by simp)
  · intro psram
    cases psram
  · simp [idle]
  · intro held
    exact absurd ((Tape.scpiHeld_iff.mp held).2.symm.trans (Tape.holds_of_ne other)) (by decide)
  · intro _
    refine ⟨rfl, rfl, empty, by simp [empty], ?_⟩
    rw [if_neg (by simp [ram])]
    exact ⟨stored_nil, Tape.holds_of_eq rfl Tape.taken_ne_zero⟩

theorem begunPsram (right : Right p t) (idle : p.v2cap = none) {upload : LoadBin} {base : Nat}
    (psram : upload.psram = true) (empty : upload.haveBytes = 0) :
    Right { p with loadBin := upload, replayLen := 0, replayInPsram := false, dacBase := base }
      { t with upload := [] } := by
  refine ⟨?_, ?_, ?_, right.apart, right.scpi, ?_⟩
  · intro _ held
    exact absurd (Tape.jsonHeld_iff.mp held).2.1 (by simp)
  · intro psram
    cases psram
  · simp [idle]
  · intro _
    refine ⟨rfl, rfl, empty, by simp [empty], ?_⟩
    rw [if_pos psram]
    exact stored_nil

/-- Bytes of an upload arrive. -/
theorem received (right : Right p t) (idle : p.v2cap = none) (uploads : p.loadBin.conn.isSome = true)
    (data : List Byte) {upload : LoadBin}
    (total : upload.total = p.loadBin.total) (psram : upload.psram = p.loadBin.psram)
    (have_bytes : upload.haveBytes = p.loadBin.haveBytes + (p.loadBin.taken data).length) :
    Right
      { p with
        pool := if p.loadBin.psram then p.pool else p.pool.write p.loadBin.haveBytes (p.loadBin.taken data)
        psram := if p.loadBin.psram then
            p.psram.write (p.dacBase + p.loadBin.haveBytes) (p.loadBin.taken data) else p.psram
        loadBin := upload }
      { t with upload := t.upload ++ p.loadBin.taken data } := by
  obtain ⟨empty, ram, had, within, stored⟩ := right.upload uploads
  have taken : (p.loadBin.taken data).length ≤ p.loadBin.total - p.loadBin.haveBytes := List.length_take_le _ _
  have dead : p.jsonHeld = false := by simp [Tape.jsonHeld, empty]
  refine ⟨?_, ?_, ?_, right.apart, ?_, ?_⟩
  · intro _ held
    exact absurd (dead.symm.trans held) (by decide)
  · intro psram
    change p.replayInPsram = true at psram
    rw [ram] at psram
    cases psram
  · simp [idle]
  · intro held
    change p.scpiHeld = true at held
    by_cases deep : p.loadBin.psram = true
    · rw [if_pos deep]
      exact right.scpi held
    · rw [if_neg deep] at stored
      have lost := right.apart stored.2
      exact absurd ((Tape.scpiHeld_iff.mp held).2.symm.trans lost) (by decide)
  · intro _
    refine ⟨empty, ram, ?_, ?_, ?_⟩
    · change upload.haveBytes = _
      rw [have_bytes, had, List.length_append]
    · change upload.haveBytes ≤ upload.total
      omega
    · change if upload.psram then _ else _
      rw [psram, had]
      by_cases deep : p.loadBin.psram = true
      · simp only [if_pos deep] at stored ⊢
        have written := (stored.all (t.upload ++ p.loadBin.taken data).length).write_on (Nat.le_refl _)
          (p.loadBin.taken data)
        rwa [List.take_length] at written
      · simp only [if_neg deep] at stored ⊢
        have written := stored.1.write_on (Nat.le_refl _) (p.loadBin.taken data)
        rw [List.take_length, Nat.zero_add] at written
        exact ⟨written, stored.2⟩

theorem uploaded (right : Right p t) (idle : p.v2cap = none) (uploads : p.loadBin.conn.isSome = true)
    (whole : p.loadBin.total ≤ p.loadBin.haveBytes) :
    Right { p with replayLen := p.loadBin.total / 2, replayInPsram := p.loadBin.psram, loadBin := {} }
      { t with json := t.upload } := by
  obtain ⟨-, -, had, within, stored⟩ := right.upload uploads
  have total : p.loadBin.total = t.upload.length := by omega
  refine ⟨?_, ?_, ?_, right.apart, right.scpi, ?_⟩
  · intro _ held
    have ram : p.loadBin.psram = false := (Tape.jsonHeld_iff.mp held).1
    rw [if_neg (by simp [ram])] at stored
    exact ⟨congrArg (· / 2) total, stored.1⟩
  · intro psram _
    change p.loadBin.psram = true at psram
    rw [if_pos psram] at stored
    refine ⟨congrArg (· / 2) total, stored.mono ?_⟩
    change 2 * (p.loadBin.total / 2) ≤ _
    omega
  · simp [idle]
  · intro uploads
    cases uploads

theorem scpiCaptured (right : Right p t) (fresh : p.fresh = true) (idle : p.v2cap = none)
    (quiet : p.loadBin.conn = none) {data scpi : List Byte} {points : Nat}
    (kept : points ≠ 0 → points = scpi.length ∧ scpi <+: data) :
    Right
      { p with
        poolGen := p.taken, scpiTraceGen := p.taken, pool := p.pool.write 0 data, scpiReplayBytes := points }
      { t with scpi } := by
  obtain ⟨other, -⟩ := Tape.fresh_iff.mp fresh
  refine ⟨?_, right.psram, ?_, ?_, ?_, ?_⟩
  · intro _ held
    exact absurd ((Tape.jsonHeld_iff.mp held).2.2.symm.trans (Tape.holds_of_ne other)) (by decide)
  · simp [idle]
  · intro held
    exact absurd (held.symm.trans (Tape.holds_of_ne other)) (by decide)
  · intro held
    obtain ⟨length, tail, rfl⟩ := kept (Tape.scpiHeld_iff.mp held).1
    refine ⟨length, ?_⟩
    intro i _ b found
    have listed : (scpi ++ tail)[i]? = some b := by
      rw [List.getElem?_append_left (List.getElem?_eq_some_iff.mp found).1, found]
    exact @Mem.write_inside p.pool 0 (scpi ++ tail) i b listed
  · intro uploads
    change p.loadBin.conn.isSome = true at uploads
    rw [quiet] at uploads
    cases uploads

theorem scpiLoaded (right : Right p t) (idle : p.v2cap = none) (quiet : p.loadBin.conn = none)
    (mine : p.holds p.scpiTraceGen = true) {offset : Nat} {data : List Byte}
    (continues : offset = 0 ∨ p.scpiHeld = true ∧ offset ≤ t.scpi.length) :
    Right { p.poured offset data with scpiReplayBytes := offset + data.length }
      { t with scpi := t.scpi.take offset ++ data } := by
  have lost : p.holds p.jsonTraceGen = false := by
    cases held : p.holds p.jsonTraceGen with
    | false => rfl
    | true => exact absurd (mine.symm.trans (right.apart held)) (by decide)
  refine ⟨?_, right.psram, ?_, right.apart, ?_, ?_⟩
  · intro _ held
    exact absurd ((Tape.jsonHeld_iff.mp held).2.2.symm.trans lost) (by decide)
  · simp [Tape.poured, idle]
  · intro _
    obtain rfl | ⟨held, inside⟩ := continues
    · rw [List.take_zero, List.nil_append, Nat.zero_add]
      have stored : Stored (p.pool.write 0 data) 0 data signalBufSize := stored_write
      exact ⟨rfl, stored⟩
    · obtain ⟨-, stored⟩ := right.scpi held
      have written := stored.write_on inside data
      rw [Nat.zero_add] at written
      exact ⟨by simp [Nat.min_eq_left inside], written⟩
  · intro uploads
    change p.loadBin.conn.isSome = true at uploads
    rw [quiet] at uploads
    cases uploads

theorem scpiTook (right : Right p t) (fresh : p.fresh = true) (idle : p.v2cap = none)
    (quiet : p.loadBin.conn = none) (empty : p.scpiReplayBytes = 0) :
    Right { p with poolGen := p.taken, scpiTraceGen := p.taken } t := by
  obtain ⟨other, -⟩ := Tape.fresh_iff.mp fresh
  refine ⟨?_, right.psram, ?_, ?_, ?_, ?_⟩
  · intro _ held
    exact absurd ((Tape.jsonHeld_iff.mp held).2.2.symm.trans (Tape.holds_of_ne other)) (by decide)
  · simp [idle]
  · intro held
    exact absurd (held.symm.trans (Tape.holds_of_ne other)) (by decide)
  · intro held
    exact absurd empty (Tape.scpiHeld_iff.mp held).1
  · intro uploads
    change p.loadBin.conn.isSome = true at uploads
    rw [quiet] at uploads
    cases uploads

theorem psramWritten (right : Right p t) {start : Nat} {data : List Byte}
    (away : p.psramLive = 0 ∨ start + data.length ≤ p.dacBase ∨ p.dacBase + p.psramLive ≤ start) :
    Right { p with psram := p.psram.write start data } t := by
  refine ⟨right.ram, ?_, right.v2cap, right.apart, right.scpi, ?_⟩
  · intro psram some_left
    obtain ⟨length, stored⟩ := right.psram psram some_left
    have live : p.psramLive = 2 * p.replayLen := by
      have idle : ¬(p.loadBin.conn.isSome && p.loadBin.psram) = true := by
        intro uploads
        obtain ⟨empty, -⟩ := right.upload (Bool.and_eq_true _ _ ▸ uploads).1
        exact some_left empty
      rw [Tape.psramLive, if_neg idle, if_pos psram]
    change p.replayLen ≠ 0 at some_left
    exact ⟨length, stored.write (by omega)⟩
  · intro uploads
    obtain ⟨empty, ram, had, within, stored⟩ := right.upload uploads
    refine ⟨empty, ram, had, within, ?_⟩
    change if p.loadBin.psram then _ else _ at stored
    change if p.loadBin.psram then _ else _
    split
    · rename_i deep
      rw [if_pos deep] at stored
      change p.loadBin.conn.isSome = true at uploads
      have live : p.psramLive = p.loadBin.haveBytes := if_pos (by simp [deep, uploads])
      by_cases none_yet : t.upload = []
      · rw [none_yet]
        exact stored_nil
      · have some_yet := List.length_pos_iff.mpr none_yet
        exact stored.write (by omega)
    · rename_i shallow
      rwa [if_neg shallow] at stored

end Right
end BenchPod.Capture
