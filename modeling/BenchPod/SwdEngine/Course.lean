import BenchPod.SwdEngine.Transfer

/-!
# The course of a transfer

Between two cycles of a transfer the registers hold what is still to be sent and what has been taken so far.
-/

namespace BenchPod.SwdEngine

open Bits

variable {idle : Nat} {o : Op} {base c : Core} {queue : List Byte} {got : List Clock} {bit : Bool}

namespace Core

theorem clock_request (inside : c.idx < 8) (running : c.running = true) : c.clock bit = .drive (c.sh.getLsbD 0) := by
  simp [clock, inside, running, show ¬46 ≤ c.idx by omega, show c.idx ≠ 45 by omega]

theorem clock_read (running : c.running = true) (from_ : 8 ≤ c.idx) (upto : c.idx ≤ 45)
    (released : c.isrd = true ∨ c.idx ≤ 12) : c.clock bit = .read bit := by
  have inside : ¬(c.isrd = false ∧ 13 ≤ c.idx) := by
    rintro ⟨write, late⟩
    obtain read | early := released
    · exact absurd (write.symm.trans read) Bool.false_ne_true
    · omega
  simp [clock, running, inside, show ¬c.idx < 8 by omega, show ¬46 ≤ c.idx by omega]

theorem clock_write (running : c.running = true) (write : c.isrd = false) (from_ : 13 ≤ c.idx) (upto : c.idx ≤ 45) :
    c.clock bit = .drive (if c.idx = 45 then c.par else c.sh.getLsbD 0) := by
  simp [clock, running, write, from_, show ¬46 ≤ c.idx by omega]

theorem clock_idle (from_ : 46 ≤ c.idx) : c.clock bit = .drive false := by
  simp [clock, from_]

end Core

/-- What stands all through a transfer that is not refused. -/
structure Common (o : Op) (c : Core) (taken : Nat) : Prop where
  running : c.running = true
  read : c.isrd = o.read
  fail : c.fail = false
  perr : c.perr = false
  going : c.qstop = false
  taken : c.taken = taken

/-- The bytes of the reply buffer so far. -/
def Core.bytes (c : Core) : List Byte := (List.range c.stored).map c.rmem

/-- The cycles up to the ACK. -/
def headClocks (o : Op) (trn : Bool) : List Clock := (packetBits o.req).map .drive ++ [.read trn]

/-- The ACK's cycles when it is OK. -/
def okClocks : List Clock := (ackBits 0b001#3).map .read

/-- The end of a transfer answered with `r`. -/
structure Final (o : Op) (r : Reply) (base c : Core) : Prop where
  ack : c.ack = r.ack
  taken : c.taken = base.taken + if r.ack = 0b001#3 then o.bytes.length else 1
  bytes : c.bytes = base.bytes ++ if o.read = true ∧ r.ack = 0b001#3 then Endian.le32 r.data else []
  perr : c.perr = (o.read && r.ack == 0b001#3 && r.parity != oddParity (wordBits r.data))
  fail : c.fail = (r.ack != 0b001#3)
  isrd : c.isrd = (o.read || r.ack != 0b001#3)

/-- The registers after the cycles `got` of a transfer that began over `base`. -/
inductive Course (idle : Nat) (o : Op) (base : Core) : List Clock → Core → Prop
  | request {c : Core} (k : Nat) (inside : k < 8) (place : c.idx = k) (common : Common o c (base.taken + 1))
      (bytes : c.bytes = base.bytes) (par : c.par = false)
      (shift : lsbFirst c.sh = (packetBits o.req).drop k ++ List.replicate k false) :
      Course idle o base (((packetBits o.req).take k).map .drive) c
  | turn {c : Core} (place : c.idx = 8) (common : Common o c (base.taken + 1)) (bytes : c.bytes = base.bytes)
      (par : c.par = false) : Course idle o base ((packetBits o.req).map .drive) c
  | ack {c : Core} (trn : Bool) (bits : List Bool) (few : bits.length < 3) (place : c.idx = 9 + bits.length)
      (common : Common o c (base.taken + 1)) (bytes : c.bytes = base.bytes) (par : c.par = false)
      (held : (ackBits c.ack).drop (3 - bits.length) = bits) :
      Course idle o base (headClocks o trn ++ bits.map .read) c
  | data {c : Core} (trn : Bool) (bits : List Bool) (few : bits.length < 32) (read : o.read = true)
      (place : c.idx = 12 + bits.length) (common : Common o c (base.taken + 1)) (ack : c.ack = 0b001#3)
      (par : c.par = oddParity bits) (old : List Bool) (eight : old.length = 8)
      (shift : lsbFirst c.sh = (old ++ bits).drop bits.length) (new : List Byte) (bytes : c.bytes = base.bytes ++ new)
      (whole : new.length = bits.length / 8) (same : new.flatMap lsbFirst = bits.take (8 * new.length)) :
      Course idle o base (headClocks o trn ++ okClocks ++ bits.map .read) c
  | check {c : Core} (trn : Bool) (word : Word) (read : o.read = true) (place : c.idx = 44)
      (common : Common o c (base.taken + 1)) (ack : c.ack = 0b001#3) (par : c.par = oddParity (wordBits word))
      (bytes : c.bytes = base.bytes ++ Endian.le32 word) :
      Course idle o base (headClocks o trn ++ okClocks ++ (wordBits word).map .read) c
  | byte {c : Core} (trn : Bool) (write : o.read = false) (place : c.idx = 12) (common : Common o c (base.taken + 1))
      (ack : c.ack = 0b001#3) (par : c.par = false) (bytes : c.bytes = base.bytes) :
      Course idle o base (headClocks o trn ++ okClocks) c
  | write {c : Core} (trn turn : Bool) (n : Nat) (few : n < 32) (write : o.read = false) (place : c.idx = 13 + n)
      (common : Common o c (base.taken + 2 + n / 8)) (ack : c.ack = 0b001#3)
      (par : c.par = oddParity ((wordBits o.data).take n))
      (shift : (lsbFirst c.sh).take (8 - n % 8) = ((wordBits o.data).drop n).take (8 - n % 8))
      (bytes : c.bytes = base.bytes) :
      Course idle o base (headClocks o trn ++ okClocks ++ .read turn :: ((wordBits o.data).take n).map .drive) c
  | last {got : List Clock} {c : Core} (r : Reply) (place : c.idx = 45) (running : c.running = true)
      (going : c.qstop = false) (final : Final o r base c)
      (ends : ∀ bit, ∃ turn, got ++ [c.clock bit] = bodyClocks o { r with turn := turn }) : Course idle o base got c
  | idle {c : Core} (r : Reply) (k : Nat) (fewer : k < idle) (place : c.idx = 46 + k) (running : c.running = true)
      (going : c.qstop = false) (final : Final o r base c) :
      Course idle o base (bodyClocks o r ++ List.replicate k (.drive false)) c

/-- The transfer is over and the sequencer rests. -/
structure Over (idle : Nat) (o : Op) (r : Reply) (base : Core) (got : List Clock) (c : Core) : Prop where
  final : Final o r base c
  clocks : got = transferClocks idle o r
  rest : c.running = false
  stops : c.qstop = !r.ok o

/-- What a write still has to take lies in the queue. -/
def Behind (queue : List Byte) (o : Op) (base : Core) : Prop :=
  o.read = false → ∀ m < 4, queue.getD (base.taken + 1 + m) 0 = (Endian.le32 o.data).getD m 0

variable {taken : Nat}

theorem Common.moved (common : Common o c taken) {after : Core} (running : after.running = c.running)
    (read : after.isrd = c.isrd) (fail : after.fail = c.fail) (perr : after.perr = c.perr)
    (going : after.qstop = c.qstop) (same : after.taken = c.taken) : Common o after taken :=
  ⟨running.trans common.running, read.trans common.read, fail.trans common.fail, perr.trans common.perr,
    going.trans common.going, same.trans common.taken⟩

theorem drive_next {bits : List Bool} {k : Nat} (inside : k < bits.length) (here : bit = bits[k]) :
    (bits.take k).map Clock.drive ++ [.drive bit] = (bits.take (k + 1)).map .drive := by
  rw [List.take_add_one, List.map_append, List.getElem?_eq_getElem inside, here]
  rfl

theorem Course.step_request {k : Nat} (inside : k < 8) (place : c.idx = k) (common : Common o c (base.taken + 1))
    (bytes : c.bytes = base.bytes) (par : c.par = false)
    (shift : lsbFirst c.sh = (packetBits o.req).drop k ++ List.replicate k false) :
    Course idle o base (((packetBits o.req).take k).map .drive ++ [c.clock bit]) (c.beat queue (45 + idle) bit) := by
  subst place
  have beat := @Core.beat_request c queue (45 + idle) bit common.running common.going inside (Nat.le_add_right _ _)
  have first : c.sh.getLsbD 0 = (packetBits o.req)[c.idx] := by
    have head : (lsbFirst c.sh)[0]? = some (c.sh.getLsbD 0) := rfl
    rw [shift, List.getElem?_append_left, List.getElem?_drop, Nat.add_zero, List.getElem?_eq_getElem inside] at head
    · exact (Option.some.inj head).symm
    · rw [List.length_drop]
      exact Nat.sub_pos_of_lt inside
  rw [Core.clock_request inside common.running, drive_next inside first, beat]
  have shifted : lsbFirst (shiftIn false c.sh) =
      (packetBits o.req).drop (c.idx + 1) ++ List.replicate (c.idx + 1) false := by
    rw [lsbFirst_shiftIn, shift, List.drop_eq_getElem_cons inside, List.cons_append, List.tail_cons, List.append_assoc,
      ← List.replicate_succ']
  obtain more | full : c.idx + 1 < 8 ∨ c.idx + 1 = 8 := by omega
  · exact .request (c.idx + 1) more rfl (common.moved rfl rfl rfl rfl rfl rfl) bytes par shifted
  · rw [full]
    exact .turn rfl (common.moved rfl rfl rfl rfl rfl rfl) bytes par

theorem Course.step_turn (place : c.idx = 8) (common : Common o c (base.taken + 1)) (bytes : c.bytes = base.bytes)
    (par : c.par = false) :
    Course idle o base ((packetBits o.req).map .drive ++ [c.clock bit]) (c.beat queue (45 + idle) bit) := by
  have beat := @Core.beat_turn c queue (45 + idle) bit common.running common.going place (Nat.le_add_right _ _)
  rw [Core.clock_read common.running (by omega) (by omega) (.inr (by omega)), beat]
  have next := @Course.ack idle o base { c with idx := 9 } bit [] (by decide) rfl
    (common.moved rfl rfl rfl rfl rfl rfl) bytes par rfl
  rw [List.map_nil, List.append_nil] at next
  exact next

theorem drop_ackBits (ack : BitVec 3) {bits : List Bool} (few : bits.length < 3)
    (held : (ackBits ack).drop (3 - bits.length) = bits) :
    (ackBits (BitVec.ofBool bit ++ ack.extractLsb' 1 2)).drop (3 - (bits.length + 1)) = bits ++ [bit] := by
  have drops : 3 - bits.length = (3 - (bits.length + 1)) + 1 := by omega
  rw [ackBits_shift, List.drop_append_of_le_length (by rw [List.length_tail]; exact Nat.sub_le_sub_left (Nat.succ_pos _) 3)]
  rw [drops, ← List.drop_tail] at held
  rw [held]

theorem Course.step_ack {trn : Bool} {bits : List Bool} (few : bits.length < 3) (place : c.idx = 9 + bits.length)
    (common : Common o c (base.taken + 1)) (bytes : c.bytes = base.bytes) (par : c.par = false)
    (held : (ackBits c.ack).drop (3 - bits.length) = bits) :
    Course idle o base (headClocks o trn ++ bits.map .read ++ [c.clock bit]) (c.beat queue (45 + idle) bit) := by
  have read : c.clock bit = .read bit := Core.clock_read common.running (by omega) (by omega) (.inr (by omega))
  have shifted := @drop_ackBits bit c.ack bits few held
  have cycles : headClocks o trn ++ bits.map Clock.read ++ [.read bit] = headClocks o trn ++ (bits ++ [bit]).map .read := by
    rw [List.append_assoc, List.map_append]
    rfl
  rw [read, cycles]
  obtain more | full : bits.length < 2 ∨ bits.length = 2 := by omega
  · have beat := @Core.beat_ack c queue (45 + idle) bit common.running common.going (by omega) (Nat.le_add_right _ _)
    have longer : (bits ++ [bit]).length = bits.length + 1 := by rw [List.length_append]; rfl
    rw [beat]
    refine .ack trn (bits ++ [bit]) (by omega) ?_ (common.moved rfl rfl rfl rfl rfl rfl) bytes par ?_
    · simp only [place, longer, Nat.add_assoc]
    · rw [longer]
      exact shifted
  · rw [full, List.drop_zero] at shifted
    have beat := @Core.beat_acked c queue (45 + idle) bit common.running common.going (by omega) (Nat.le_add_right _ _) _ rfl
    generalize BitVec.ofBool bit ++ c.ack.extractLsb' 1 2 = ack at beat shifted
    rw [beat, ← shifted]
    by_cases ok : ack = 0b001#3
    · subst ok
      have moved : Common o { c with ack := 0b001#3, isrd := c.isrd || false, fail := c.fail || false, idx := 12 }
          (base.taken + 1) :=
        common.moved rfl (Bool.or_false _) (Bool.or_false _) rfl rfl rfl
      cases read : o.read with
      | true =>
        have next := @Course.data idle o base _ trn [] (by decide) read rfl moved rfl par (lsbFirst c.sh) rfl rfl []
          (bytes.trans (List.append_nil _).symm) rfl rfl
        rw [List.map_nil, List.append_nil] at next
        exact next
      | false => exact .byte trn read rfl moved rfl par bytes
    · have refused : (ack != 0b001#3) = true := bne_iff_ne.mpr ok
      have wrong : (ack == 0b001#3) = false := beq_eq_false_iff_ne.mpr ok
      rw [refused, Bool.or_true, Bool.or_true, if_neg ok]
      refine .last ⟨trn, ack, false, 0, false⟩ rfl common.running common.going
        ⟨rfl, ?_, ?_, ?_, refused.symm, ?_⟩ fun turn => ⟨turn, ?_⟩
      · simp only [ok, if_false]
        exact common.taken
      · simp only [ok, and_false, if_false, List.append_nil]
        exact bytes
      · simp only [wrong, Bool.and_false, Bool.false_and]
        exact common.perr
      · simp only [refused, Bool.or_true]
      · rw [Core.clock_read]
        · simp only [bodyClocks, ok, if_false, headClocks, List.append_assoc, List.cons_append, List.nil_append]
        · exact common.running
        · exact (by decide : 8 ≤ 45)
        · exact Nat.le_refl 45
        · exact .inl rfl

theorem oddParity_append (bits : List Bool) (bit : Bool) : oddParity (bits ++ [bit]) = (oddParity bits ^^ bit) := by
  rw [oddParity, List.foldl_append]
  rfl

theorem Core.bytes_update {c after : Core} {byte : Byte} (count : after.stored = c.stored + 1)
    (room : c.stored < depth) (held : after.rmem = Function.update c.rmem (c.stored % depth) byte) :
    after.bytes = c.bytes ++ [byte] := by
  rw [Core.bytes, count, List.range_succ, List.map_append, held, Nat.mod_eq_of_lt room, List.map_singleton,
    Function.update_self]
  congr 1
  apply List.map_congr_left
  intro place inside
  exact Function.update_of_ne (Nat.ne_of_lt (List.mem_range.mp inside)) ..

theorem le32_of_bits {new : List Byte} {bits : List Bool} (four : new.length = 4) (same : new.flatMap lsbFirst = bits) :
    ∃ word, Endian.le32 word = new ∧ wordBits word = bits := by
  have whole : Endian.le32 (Endian.rd32 new) = new := by
    have fits := Endian.leNat_lt new
    rw [four] at fits
    have value : (Endian.rd32 new).toNat = Endian.leNat new := by
      rw [Endian.rd32, BitVec.toNat_ofNat]
      exact Nat.mod_eq_of_lt fits
    rw [Endian.le32, value, ← four, Endian.leBytes_leNat]
  exact ⟨Endian.rd32 new, whole, by rw [wordBits_le32, whole, same]⟩

theorem byte_of_bits {old bits : List Bool} {sh : Byte} (eight : old.length = 8)
    (shift : lsbFirst sh = (old ++ bits).drop bits.length) :
    lsbFirst (shiftIn bit sh) = (old ++ (bits ++ [bit])).drop (bits ++ [bit]).length := by
  have inside : bits.length < (old ++ bits).length := by rw [List.length_append, eight]; omega
  rw [lsbFirst_shiftIn, shift, List.tail_drop, ← List.append_assoc]
  have longer : (bits ++ [bit]).length = bits.length + 1 := List.length_append
  rw [longer, List.drop_append_of_le_length inside]

theorem Core.length_bytes (c : Core) : c.bytes.length = c.stored := by
  rw [Core.bytes, List.length_map, List.length_range]

theorem flatMap_complete {old bits : List Bool} {sh : Byte} {new : List Byte} (eight : old.length = 8)
    (shift : lsbFirst sh = (old ++ bits).drop bits.length) (whole : 8 * (new.length + 1) = bits.length + 1)
    (same : new.flatMap lsbFirst = bits.take (8 * new.length)) :
    (new ++ [shiftIn bit sh]).flatMap lsbFirst = bits ++ [bit] := by
  have longer : (bits ++ [bit]).length = old.length + 8 * new.length := by
    rw [List.length_append, eight, List.length_singleton]
    omega
  have earlier : bits.take (8 * new.length) = (bits ++ [bit]).take (8 * new.length) :=
    (List.take_append_of_le_length (by omega)).symm
  rw [List.flatMap_append, List.flatMap_singleton, same, byte_of_bits eight shift, longer, List.drop_length_add_append,
    earlier, List.take_append_drop]

theorem Course.step_data (room : base.stored + 4 ≤ depth) {trn : Bool} {bits : List Bool} (few : bits.length < 32)
    (read : o.read = true) (place : c.idx = 12 + bits.length) (common : Common o c (base.taken + 1))
    (ack : c.ack = 0b001#3) (par : c.par = oddParity bits) {old : List Bool} (eight : old.length = 8)
    (shift : lsbFirst c.sh = (old ++ bits).drop bits.length) {new : List Byte} (bytes : c.bytes = base.bytes ++ new)
    (whole : new.length = bits.length / 8) (same : new.flatMap lsbFirst = bits.take (8 * new.length)) :
    Course idle o base (headClocks o trn ++ okClocks ++ bits.map .read ++ [c.clock bit])
      (c.beat queue (45 + idle) bit) := by
  have isrd : c.isrd = true := common.read.trans read
  have cycles : headClocks o trn ++ okClocks ++ bits.map Clock.read ++ [.read bit] =
      headClocks o trn ++ okClocks ++ (bits ++ [bit]).map .read := by
    rw [List.append_assoc, List.map_append]
    rfl
  have longer : (bits ++ [bit]).length = bits.length + 1 := List.length_append
  have stored : c.stored = base.stored + new.length := by
    rw [← c.length_bytes, bytes, List.length_append, Core.length_bytes]
  have next : c.idx + 1 = 12 + (bits ++ [bit]).length := by rw [longer, place, Nat.add_assoc]
  rw [Core.clock_read common.running (by omega) (by omega) (.inl isrd), cycles,
    Core.beat_read common.running common.going isrd (by omega) (by omega) (Nat.le_add_right _ _), par,
    ← oddParity_append, next]
  have shifted := @byte_of_bits bit old bits c.sh eight shift
  by_cases full : bits.length % 8 = 7
  · have eighth : c.idx % 8 = 3 := by omega
    have complete := @flatMap_complete bit old bits c.sh new eight shift (by omega) same
    have count : (new ++ [shiftIn bit c.sh]).length = (bits.length + 1) / 8 := by
      rw [List.length_append, whole, List.length_singleton]
      omega
    have grown {after : Core} (stored_ : after.stored = c.stored + 1)
        (held : after.rmem = Function.update c.rmem (c.stored % depth) (shiftIn bit c.sh)) :
        after.bytes = base.bytes ++ (new ++ [shiftIn bit c.sh]) := by
      rw [Core.bytes_update stored_ (by omega) held, bytes, List.append_assoc]
    simp only [eighth, if_true]
    obtain more | last : bits.length + 1 < 32 ∨ bits.length + 1 = 32 := by omega
    · refine .data trn (bits ++ [bit]) (by omega) read rfl (common.moved rfl rfl rfl rfl rfl rfl) ack rfl old eight shifted
        (new ++ [shiftIn bit c.sh]) (grown rfl rfl) (count.trans (by rw [longer])) ?_
      · rw [complete, List.take_of_length_le]
        rw [count, longer]
        omega
    · obtain ⟨word, words, value⟩ := le32_of_bits (count.trans (by omega)) complete
      rw [← value]
      refine .check trn word read ?_ (common.moved rfl rfl rfl rfl rfl rfl) ack rfl ?_
      · rw [value, longer, last]
      · rw [words]
        exact grown rfl rfl
  · have early : ¬c.idx % 8 = 3 := by omega
    simp only [early, if_false]
    refine .data trn (bits ++ [bit]) (by omega) read rfl (common.moved rfl rfl rfl rfl rfl rfl) ack rfl old eight shifted new
      bytes (by rw [longer, whole]; omega) ?_
    rw [same, List.take_append_of_le_length (by omega)]

theorem length_bytes_read (read : o.read = true) : o.bytes.length = 1 := by
  rw [Op.bytes, read, if_pos rfl, List.length_singleton]

theorem length_bytes_write (write : o.read = false) : o.bytes.length = 5 := by
  rw [Op.bytes, write, if_neg Bool.false_ne_true, List.length_cons, Endian.le32_length]

theorem Course.step_check {trn : Bool} {word : Word} (read : o.read = true) (place : c.idx = 44)
    (common : Common o c (base.taken + 1)) (ack : c.ack = 0b001#3) (par : c.par = oddParity (wordBits word))
    (bytes : c.bytes = base.bytes ++ Endian.le32 word) :
    Course idle o base (headClocks o trn ++ okClocks ++ (wordBits word).map .read ++ [c.clock bit])
      (c.beat queue (45 + idle) bit) := by
  have isrd : c.isrd = true := common.read.trans read
  rw [Core.clock_read common.running (by omega) (by omega) (.inl isrd),
    Core.beat_check common.running common.going isrd place (Nat.le_add_right _ _)]
  refine .last ⟨trn, 0b001#3, false, word, bit⟩ rfl common.running common.going
    ⟨ack, ?_, ?_, ?_, common.fail, ?_⟩ fun turn => ⟨turn, ?_⟩
  · simp only [if_true, length_bytes_read read]
    exact common.taken
  · simp only [read, and_self, if_true]
    exact bytes
  · simp only [read, par, beq_self_eq_true, Bool.and_self, Bool.true_and]
    cases oddParity (wordBits word) <;> cases bit <;> rfl
  · simp only [isrd, read, Bool.true_or]
  · rw [Core.clock_read]
    · simp only [bodyClocks, read, if_true, headClocks, okClocks, List.append_assoc, List.cons_append, List.nil_append]
    · exact common.running
    · exact (by decide : 8 ≤ 45)
    · exact Nat.le_refl 45
    · exact .inl isrd

theorem take_drop_wordBits (word : Word) {m : Nat} (inside : m < 4) :
    ((wordBits word).drop (8 * m)).take 8 = lsbFirst ((Endian.le32 word).getD m 0) := by
  have four : (Endian.le32 word).length = 4 := Endian.le32_length word
  rw [wordBits_le32]
  match Endian.le32 word, four with
  | [zero, one, two, three], _ =>
    obtain rfl | rfl | rfl | rfl : m = 0 ∨ m = 1 ∨ m = 2 ∨ m = 3 := by omega
    all_goals rfl

theorem Course.step_byte (behind : Behind queue o base) {trn : Bool} (write : o.read = false) (place : c.idx = 12)
    (common : Common o c (base.taken + 1)) (ack : c.ack = 0b001#3) (par : c.par = false) (bytes : c.bytes = base.bytes) :
    Course idle o base (headClocks o trn ++ okClocks ++ [c.clock bit]) (c.beat queue (45 + idle) bit) := by
  have isrd : c.isrd = false := common.read.trans write
  have byteIn : c.byteIn = true := by simp [Core.byteIn, isrd, place]
  have head : queue.getD c.taken 0 = (Endian.le32 o.data).getD 0 0 := by
    rw [common.taken]
    exact behind write 0 (by decide)
  rw [Core.clock_read common.running (by omega) (by omega) (.inr (by omega)),
    Core.beat_byte common.running common.going isrd byteIn (Nat.le_add_right _ _), head, if_pos place, place]
  refine .write trn bit 0 (by decide) write rfl
    ⟨common.running, common.read, common.fail, common.perr, common.going, ?_⟩ ack par ?_ bytes
  · simp only [common.taken]
  · exact congrArg (List.take 8) (take_drop_wordBits o.data (by decide : 0 < 4)).symm |>.trans (by rw [List.take_take]; rfl)

theorem head_of_shift {bits : List Bool} {sh : Byte} {n : Nat} (inside : n < bits.length)
    (shift : (lsbFirst sh).take (8 - n % 8) = (bits.drop n).take (8 - n % 8)) : sh.getLsbD 0 = bits[n] := by
  have some : 0 < 8 - n % 8 := by omega
  have head := congrArg (fun list => list[0]?) shift
  simp only [List.getElem?_take_of_lt some, List.getElem?_drop, Nat.add_zero, List.getElem?_eq_getElem inside] at head
  exact Option.some.inj head

theorem tail_of_shift {bits : List Bool} {sh : Byte} {n : Nat} (within : n % 8 < 7)
    (shift : (lsbFirst sh).take (8 - n % 8) = (bits.drop n).take (8 - n % 8)) :
    (lsbFirst (shiftIn false sh)).take (8 - (n + 1) % 8) = (bits.drop (n + 1)).take (8 - (n + 1) % 8) := by
  have shorter : 8 - (n + 1) % 8 = 8 - n % 8 - 1 := by omega
  have short : 8 - n % 8 - 1 ≤ (lsbFirst sh).tail.length := by
    rw [List.length_tail, length_lsbFirst]
    omega
  rw [lsbFirst_shiftIn, shorter, List.take_append_of_le_length short, ← List.drop_one, ← List.drop_take, shift,
    List.drop_take, List.drop_drop]

theorem write_next {trn turn : Bool} {n : Nat} (inside : n < 32) (here : bit = (wordBits o.data)[n]) :
    headClocks o trn ++ okClocks ++ .read turn :: ((wordBits o.data).take n).map .drive ++ [.drive bit] =
      headClocks o trn ++ okClocks ++ .read turn :: ((wordBits o.data).take (n + 1)).map .drive := by
  rw [List.append_assoc, List.cons_append, drive_next inside here]

theorem Course.step_write (behind : Behind queue o base) {trn turn : Bool} {n : Nat} (few : n < 32)
    (write : o.read = false) (place : c.idx = 13 + n) (common : Common o c (base.taken + 2 + n / 8))
    (ack : c.ack = 0b001#3) (par : c.par = oddParity ((wordBits o.data).take n))
    (shift : (lsbFirst c.sh).take (8 - n % 8) = ((wordBits o.data).drop n).take (8 - n % 8))
    (bytes : c.bytes = base.bytes) :
    Course idle o base
      (headClocks o trn ++ okClocks ++ .read turn :: ((wordBits o.data).take n).map .drive ++ [c.clock bit])
      (c.beat queue (45 + idle) bit) := by
  have isrd : c.isrd = false := common.read.trans write
  have head := head_of_shift few shift
  have parity : (c.par ^^ c.sh.getLsbD 0) = oddParity ((wordBits o.data).take (n + 1)) := by
    rw [par, head, ← oddParity_append, List.take_add_one, List.getElem?_eq_getElem few]
    rfl
  have next : c.idx + 1 = 13 + (n + 1) := by rw [place, Nat.add_assoc]
  rw [Core.clock_write common.running isrd (by omega) (by omega), if_neg (by omega), write_next few head]
  by_cases full : n % 8 = 7
  · obtain last | more : n = 31 ∨ n < 31 := by omega
    · subst last
      have none : c.byteIn = false := by simp [Core.byteIn, place]
      rw [Core.beat_write common.running common.going isrd none (by omega) (by omega) (Nat.le_add_right _ _), parity, next]
      refine .last ⟨trn, 0b001#3, turn, 0, false⟩ rfl common.running common.going
        ⟨ack, ?_, ?_, ?_, common.fail, ?_⟩ fun bit => ⟨turn, ?_⟩
      · simp only [if_true, length_bytes_write write]
        exact common.taken
      · simp only [write, Bool.false_eq_true, false_and, if_false, List.append_nil]
        exact bytes
      · simp only [write, Bool.false_and]
        exact common.perr
      · simp only [isrd, write, bne_self_eq_false, Bool.or_self]
      · rw [Core.clock_write]
        · simp only [bodyClocks, write, Bool.false_eq_true, if_true, if_false, headClocks, okClocks, List.append_assoc,
            List.cons_append, List.nil_append]
          rw [List.take_of_length_le (Nat.le_refl 32 : (wordBits o.data).length ≤ 31 + 1)]
        · exact common.running
        · exact isrd
        · exact (by decide : 13 ≤ 45)
        · exact Nat.le_refl 45
    · have byteIn : c.byteIn = true := by
        simp only [Core.byteIn, isrd, Bool.not_false, Bool.true_and, decide_eq_true_eq]
        omega
      have byte : queue.getD c.taken 0 = (Endian.le32 o.data).getD (n / 8 + 1) 0 := by
        rw [common.taken, ← behind write (n / 8 + 1) (by omega)]
        congr 1
        omega
      rw [Core.beat_byte common.running common.going isrd byteIn (Nat.le_add_right _ _), byte, if_neg (by omega), parity,
        next]
      refine .write trn turn (n + 1) (by omega) write rfl
        ⟨common.running, common.read, common.fail, common.perr, common.going, ?_⟩ ack rfl ?_ bytes
      · simp only [common.taken]
        omega
      · have start : 8 * (n / 8 + 1) = n + 1 := by omega
        have whole : 8 - (n + 1) % 8 = 8 := by omega
        simp only [whole]
        rw [← start, take_drop_wordBits o.data (by omega)]
        rfl
  · have none : c.byteIn = false := by
      simp only [Core.byteIn, isrd, Bool.not_false, Bool.true_and, decide_eq_false_iff_not]
      omega
    rw [Core.beat_write common.running common.going isrd none (by omega) (by omega) (Nat.le_add_right _ _), parity, next]
    refine .write trn turn (n + 1) (by omega) write rfl
      ⟨common.running, common.read, common.fail, common.perr, common.going, ?_⟩ ack rfl (tail_of_shift (by omega) shift)
      bytes
    simp only [common.taken]
    omega

theorem Final.stops {r : Reply} (final : Final o r base c) : (c.fail || (c.isrd && c.perr)) = !r.ok o := by
  rw [final.fail, final.isrd, final.perr, Reply.ok]
  cases o.read <;> cases accepted : r.ack == 0b001#3 <;> cases same : r.parity == oddParity (wordBits r.data) <;>
    simp only [bne, accepted, same] <;> rfl

theorem Course.step_tail {r : Reply} {k : Nat} (within : k ≤ idle) (short : idle ≤ 31) (place : c.idx = 45 + k)
    (running : c.running = true) (going : c.qstop = false) (final : Final o r base c) :
    (k < idle → ∀ body, body = bodyClocks o r ++ List.replicate k (.drive false) →
      Course idle o base body (c.beat queue (45 + idle) bit)) ∧
    (k = idle → Over idle o r base (transferClocks idle o r) (c.beat queue (45 + idle) bit)) := by
  have beat := @Core.beat_tail c queue (45 + idle) bit running (by omega) (by omega)
  rw [beat]
  constructor
  · rintro fewer body rfl
    have inside : c.idx ≠ 45 + idle := by omega
    refine .idle r k fewer ?_ (decide_eq_true inside) ?_ ⟨final.ack, final.taken, final.bytes, final.perr, final.fail, final.isrd⟩
    · simp only [place]
      omega
    · simp only [inside, decide_false, Bool.false_and, Bool.or_false]
      exact going
  · intro full
    have passed : c.idx = 45 + idle := by omega
    refine ⟨⟨final.ack, final.taken, final.bytes, final.perr, final.fail, final.isrd⟩, rfl, ?_, ?_⟩
    · simp only [passed, ne_eq, not_true_eq_false, decide_false]
    · simp only [passed, decide_true, Bool.true_and, going, Bool.false_or]
      exact final.stops

theorem Final.turned {r : Reply} (final : Final o r base c) (turn : Bool) : Final o { r with turn := turn } base c :=
  ⟨final.ack, final.taken, final.bytes, final.perr, final.fail, final.isrd⟩

/-- One cycle of a transfer. -/
theorem Course.step (behind : Behind queue o base) (room : o.read = true → base.stored + 4 ≤ depth) (short : idle ≤ 31)
    (course : Course idle o base got c) :
    Course idle o base (got ++ [c.clock bit]) (c.beat queue (45 + idle) bit) ∨
      ∃ r, Over idle o r base (got ++ [c.clock bit]) (c.beat queue (45 + idle) bit) := by
  cases course with
  | request k inside place common bytes par shift => exact .inl (.step_request inside place common bytes par shift)
  | turn place common bytes par => exact .inl (.step_turn place common bytes par)
  | ack trn bits few place common bytes par held => exact .inl (.step_ack few place common bytes par held)
  | data trn bits few read place common ack par old eight shift new bytes whole same =>
    exact .inl (.step_data (room read) few read place common ack par eight shift bytes whole same)
  | check trn word read place common ack par bytes => exact .inl (.step_check read place common ack par bytes)
  | byte trn write place common ack par bytes => exact .inl (.step_byte behind write place common ack par bytes)
  | write trn turn n few write place common ack par shift bytes =>
    exact .inl (.step_write behind few write place common ack par shift bytes)
  | last r place running going final ends =>
    obtain ⟨turn, body⟩ := ends bit
    have tail := @Course.step_tail idle o base c queue bit _ 0 (Nat.zero_le idle) short place running going
      (final.turned turn)
    rw [body]
    obtain none | some := Nat.eq_zero_or_pos idle
    · right
      refine ⟨{ r with turn := turn }, ?_⟩
      have passed := tail.2 none.symm
      have same : transferClocks idle o { r with turn := turn } = bodyClocks o { r with turn := turn } := by
        rw [transferClocks, none, List.replicate_zero, List.append_nil]
      rw [← same]
      exact passed
    · exact .inl (tail.1 some _ (List.append_nil _).symm)
  | idle r k fewer place running going final =>
    have cycles : bodyClocks o r ++ List.replicate k (.drive false) ++ [c.clock bit] =
        bodyClocks o r ++ List.replicate (k + 1) (.drive false) := by
      rw [Core.clock_idle (by omega), List.append_assoc, ← List.replicate_succ']
    have tail := @Course.step_tail idle o base c queue bit r (k + 1) fewer short (by omega) running going final
    rw [cycles]
    obtain more | full := Nat.lt_or_eq_of_le fewer
    · exact .inl (tail.1 more _ rfl)
    · right
      refine ⟨r, ?_⟩
      have passed := tail.2 full
      rw [transferClocks, ← full] at passed
      rw [← full]
      exact passed

end BenchPod.SwdEngine
