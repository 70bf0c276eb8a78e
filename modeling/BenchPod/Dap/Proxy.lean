import BenchPod.Dap.Process
import BenchPod.Library.Segments

/-!
# The framed DAP stream

A connection in DAP mode sends packets behind a two-byte length.  They are put together in one buffer
across segments and handed to the packet processor; an empty frame, or one that is too long, ends the
mode.
-/

namespace BenchPod.Dap

/-- What a connection's DAP mode meets: whether room for a response comes in time, and a packet run. -/
structure Peer (P : Type*) where
  /-- `dap_wait_send_room`. -/
  room : P → P × Bool
  /-- `dap_process`, and sending the response. -/
  run : P → List Byte → P

/-- What `dap_proxy_receive` works on. -/
structure Proxy (P : Type*) where
  pod : P
  /-- The first `dap_rx_have` bytes of `dap_rx`. -/
  rx : List Byte := []
  /-- `dap_dead_conn` is this connection. -/
  dead : Bool := false
  /-- It leaves DAP mode. -/
  left : Bool := false

/-- The length of a frame, of the buffer's first two bytes. -/
def frameLen (rx : List Byte) : Nat := 2 + ((rx.getD 0 0).toNat + 256 * (rx.getD 1 0).toNat)

/-- The size of `dap_rx`. -/
def rxSize : Nat := 2 + packetSize

/-- A frame that is not whole yet. -/
def Partial (rx : List Byte) : Prop := rx.length < 2 ∨ frameLen rx ≤ rxSize ∧ rx.length < frameLen rx

instance (rx : List Byte) : Decidable (Partial rx) := inferInstanceAs (Decidable (_ ∨ _ ∧ _))

namespace Proxy

variable {P : Type*} (p : Peer P)

/-- The loop of `dap_proxy_receive`, for at most so many frames. -/
def frames : Nat → Proxy P → List Byte → Pass (Proxy P) Byte (List Byte)
  | 0, d, buf => ⟨d, [], buf⟩
  | n + 1, d, buf =>
    let header := d.rx ++ buf.take (2 - d.rx.length)
    let buf := buf.drop (2 - d.rx.length)
    if header.length < 2 then ⟨{ d with rx := header }, [], buf⟩
    else if rxSize < frameLen header then ⟨{ d with rx := [], left := true }, [], buf⟩
    else
      let frame := header ++ buf.take (frameLen header - header.length)
      let buf := buf.drop (frameLen header - header.length)
      if frame.length < frameLen header then ⟨{ d with rx := frame }, [], buf⟩
      else if frameLen header = 2 then ⟨{ d with rx := [], left := true }, [], buf⟩
      else
        let room := p.room d.pod
        if room.2 = false then ⟨{ d with pod := room.1, rx := [], dead := true }, [], []⟩
        else
          let packet := frame.drop 2
          let later := frames n { d with pod := p.run room.1 packet, rx := [] } buf
          ⟨later.state, packet :: later.out, later.rest⟩

/-- `dap_proxy_receive`. -/
def receive (d : Proxy P) (buf : List Byte) : Pass (Proxy P) Byte (List Byte) :=
  if d.dead then ⟨d, [], []⟩ else frames p (buf.length + 1) d buf

/-- A whole packet: it is run if there is room for its response. -/
def answer (d : Proxy P) (packet : List Byte) : Proxy P × Option (List Byte) :=
  let room := p.room d.pod
  if room.2 = false then ({ d with pod := room.1, rx := [], dead := true }, none)
  else ({ d with pod := p.run room.1 packet, rx := [] }, some packet)

/-- What becomes of the buffer when it has grown. -/
def settle (d : Proxy P) : Proxy P × Option (List Byte) :=
  if d.rx.length < 2 then (d, none)
  else if rxSize < frameLen d.rx then ({ d with rx := [], left := true }, none)
  else if d.rx.length < frameLen d.rx then (d, none)
  else if frameLen d.rx = 2 then ({ d with rx := [], left := true }, none)
  else answer p d (d.rx.drop 2)

/-- One byte of the stream. -/
def feed (d : Proxy P) (byte : Byte) : Proxy P × Option (List Byte) :=
  if d.dead then (d, none) else settle p { d with rx := d.rx ++ [byte] }

/-- Bytes fed one by one to a connection that is in DAP mode until then. -/
inductive Fed : Proxy P → List Byte → List (List Byte) → Proxy P → Prop
  | nil {d : Proxy P} : Fed d [] [] d
  | cons {d after : Proxy P} {b : Byte} {bytes : List Byte} {out : List (List Byte)}
      (stays : d.left = false) (rest : Fed (feed p d b).1 bytes out after) :
      Fed d (b :: bytes) ((feed p d b).2.toList ++ out) after

variable {p} {d after last : Proxy P} {bytes more : List Byte} {out out' : List (List Byte)}

theorem Fed.trans (first : Fed p d bytes out after) (second : Fed p after more out' last) :
    Fed p d (bytes ++ more) (out ++ out') last := by
  induction first with
  | nil => exact second
  | cons stays _ ih =>
    rw [List.cons_append, List.append_assoc]
    exact .cons stays (ih second)

theorem settle_waits (part : Partial d.rx) : settle p d = (d, none) := by
  unfold settle
  obtain short | ⟨fits, short⟩ := part
  · rw [if_pos short]
  · by_cases header : d.rx.length < 2
    · rw [if_pos header]
    · rw [if_neg header, if_neg (Nat.not_lt.mpr fits), if_pos short]

theorem frameLen_append {rx : List Byte} (whole : 2 ≤ rx.length) (more : List Byte) :
    frameLen (rx ++ more) = frameLen rx := by
  rcases rx with _ | ⟨low, _ | ⟨high, rx⟩⟩
  · cases whole
  · exact absurd whole (Nat.not_succ_le_self 1)
  · rfl

theorem open_front {rx : List Byte} (part : Partial (rx ++ more)) : Partial rx := by
  by_cases short : rx.length < 2
  · exact .inl short
  · rw [Partial, frameLen_append (Nat.le_of_not_lt short), List.length_append] at part
    obtain header | ⟨fits, waits⟩ := part
    · exact .inl (by omega)
    · exact .inr ⟨fits, by omega⟩

theorem settle_open : Partial (settle p d).1.rx := by
  unfold settle
  split_ifs with short long waits
  · exact .inl short
  · exact .inl Nat.zero_lt_two
  · exact .inr ⟨Nat.le_of_not_lt long, waits⟩
  · exact .inl Nat.zero_lt_two
  · unfold answer
    dsimp only
    split
    · exact .inl Nat.zero_lt_two
    · exact .inl Nat.zero_lt_two

theorem feed_open (part : Partial d.rx) (byte : Byte) : Partial (feed p d byte).1.rx := by
  unfold feed
  split
  · exact part
  · exact settle_open

theorem Fed.open (alive : d.dead = false) (stays : d.left = false) (part : Partial (d.rx ++ bytes)) :
    Fed p d bytes [] { d with rx := d.rx ++ bytes } := by
  induction bytes generalizing d with
  | nil =>
    rw [List.append_nil]
    exact .nil
  | cons byte bytes ih =>
    have split : d.rx ++ byte :: bytes = d.rx ++ [byte] ++ bytes := by simp
    rw [split] at part ⊢
    have fed : feed p d byte = ({ d with rx := d.rx ++ [byte] }, none) := by
      rw [feed, alive, if_neg Bool.false_ne_true, settle_waits (open_front part)]
    have first := Fed.cons stays (b := byte) (p := p)
      (by rw [fed]; exact ih (d := { d with rx := d.rx ++ [byte] }) alive stays part)
    rwa [fed] at first

theorem Fed.closed (alive : d.dead = false) (stays : d.left = false) (some : bytes ≠ [])
    (part : ∀ front, front.length < bytes.length → Partial (d.rx ++ front)) :
    Fed p d bytes (settle p { d with rx := d.rx ++ bytes }).2.toList (settle p { d with rx := d.rx ++ bytes }).1 := by
  obtain ⟨front, byte, rfl⟩ := (List.eq_nil_or_concat' bytes).resolve_left some
  have opened : Fed p d front [] { d with rx := d.rx ++ front } := .open alive stays (part front (by simp))
  have last : feed p { d with rx := d.rx ++ front } byte = settle p { d with rx := d.rx ++ (front ++ [byte]) } := by
    simp only [feed, alive, if_neg Bool.false_ne_true, List.append_assoc]
  have closes := Fed.cons (p := p) (d := { d with rx := d.rx ++ front }) (b := byte) stays .nil
  rw [last, List.append_nil] at closes
  exact opened.trans closes

theorem settle_left {rx : List Byte} (whole : 2 ≤ rx.length)
    (bad : rxSize < frameLen rx ∨ frameLen rx = 2) :
    settle p { d with rx } = ({ d with rx := [], left := true }, none) := by
  rw [settle, if_neg (Nat.not_lt.mpr whole)]
  obtain long | empty := bad
  · rw [if_pos long]
  · have fits : ¬ rxSize < frameLen rx := by
      rw [empty]
      exact Nat.not_lt.mpr (Nat.le_add_right ..)
    rw [if_neg fits, if_neg (by dsimp only; omega), if_pos empty]

theorem Fed.header (alive : d.dead = false) (stays : d.left = false) (part : Partial d.rx) (buf : List Byte)
    (whole : 2 ≤ (d.rx ++ buf.take (2 - d.rx.length)).length) :
    Fed p d (buf.take (2 - d.rx.length)) (settle p { d with rx := d.rx ++ buf.take (2 - d.rx.length) }).2.toList
      (settle p { d with rx := d.rx ++ buf.take (2 - d.rx.length) }).1 := by
  rw [List.length_append, List.length_take] at whole
  by_cases short : d.rx.length < 2
  · refine .closed alive stays ?_ ?_
    · rw [Ne, ← List.length_eq_zero_iff, List.length_take]
      omega
    · intro front less
      rw [List.length_take] at less
      exact .inl (by rw [List.length_append]; omega)
  · have none : 2 - d.rx.length = 0 := by omega
    rw [none, List.take_zero, List.append_nil, settle_waits (d := { d with rx := d.rx }) part]
    exact .nil

theorem header_opens (part : Partial d.rx) (buf : List Byte)
    (fits : frameLen (d.rx ++ buf.take (2 - d.rx.length)) ≤ rxSize)
    (some : frameLen (d.rx ++ buf.take (2 - d.rx.length)) ≠ 2) :
    Partial (d.rx ++ buf.take (2 - d.rx.length)) := by
  by_cases short : d.rx.length < 2
  · have least : 2 ≤ frameLen (d.rx ++ buf.take (2 - d.rx.length)) := Nat.le_add_right ..
    refine .inr ⟨fits, ?_⟩
    have length : (d.rx ++ buf.take (2 - d.rx.length)).length ≤ 2 := by
      rw [List.length_append, List.length_take]
      omega
    omega
  · rwa [show 2 - d.rx.length = 0 by omega, List.take_zero, List.append_nil]

theorem Fed.dropped (dead : d.dead = true) (stays : d.left = false) (bytes : List Byte) : Fed p d bytes [] d := by
  have drops : ∀ byte, feed p d byte = (d, none) := fun byte => by rw [feed, dead, if_pos rfl]
  induction bytes with
  | nil => exact .nil
  | cons byte bytes ih =>
    have first := Fed.cons (p := p) (b := byte) stays (by rw [drops]; exact ih)
    rwa [drops] at first

theorem settle_whole {rx : List Byte} (fits : frameLen rx ≤ rxSize) (whole : rx.length = frameLen rx)
    (some : frameLen rx ≠ 2) :
    settle p { d with rx } = answer p d (rx.drop 2) := by
  have least : 2 ≤ frameLen rx := Nat.le_add_right ..
  simp only [settle]
  rw [if_neg (by omega), if_neg (Nat.not_lt.mpr fits), if_neg (by omega), if_neg some]
  rfl

theorem Fed.payload {rx : List Byte} (alive : d.dead = false) (stays : d.left = false) (whole : 2 ≤ rx.length)
    (fits : frameLen rx ≤ rxSize) (waits : rx.length < frameLen rx) (buf : List Byte)
    (fills : frameLen rx ≤ (rx ++ buf.take (frameLen rx - rx.length)).length) :
    Fed p { d with rx } (buf.take (frameLen rx - rx.length))
      (settle p { d with rx := rx ++ buf.take (frameLen rx - rx.length) }).2.toList
      (settle p { d with rx := rx ++ buf.take (frameLen rx - rx.length) }).1 := by
  rw [List.length_append, List.length_take] at fills
  refine .closed (d := { d with rx }) alive stays ?_ ?_
  · rw [Ne, ← List.length_eq_zero_iff, List.length_take]
    omega
  · intro front less
    rw [List.length_take] at less
    refine .inr ?_
    dsimp only
    rw [frameLen_append whole, List.length_append]
    exact ⟨fits, by omega⟩

theorem Fed.frame {head tail : List Byte} (alive : d.dead = false) (stays : d.left = false)
    (whole : 2 ≤ (d.rx ++ head).length) (fits : frameLen (d.rx ++ head) ≤ rxSize)
    (some : frameLen (d.rx ++ head) ≠ 2)
    (opened : frameLen (d.rx ++ head) ≠ 2 → frameLen (d.rx ++ head) ≤ rxSize → Partial (d.rx ++ head))
    (header : Fed p d head (settle p { d with rx := d.rx ++ head }).2.toList (settle p { d with rx := d.rx ++ head }).1)
    (fills : frameLen (d.rx ++ head) ≤
      (d.rx ++ head ++ tail.take (frameLen (d.rx ++ head) - (d.rx ++ head).length)).length) :
    Fed p d (head ++ tail.take (frameLen (d.rx ++ head) - (d.rx ++ head).length)) (answer p d ((d.rx ++ head ++
        tail.take (frameLen (d.rx ++ head) - (d.rx ++ head).length)).drop 2)).2.toList
      (answer p d ((d.rx ++ head ++ tail.take (frameLen (d.rx ++ head) - (d.rx ++ head).length)).drop 2)).1 := by
  have waits : (d.rx ++ head).length < frameLen (d.rx ++ head) :=
    (opened some fits).elim (fun less => absurd less (Nat.not_lt.mpr whole)) And.right
  have framed := Fed.payload (p := p) alive stays whole fits waits tail fills
  generalize taken : tail.take (frameLen (d.rx ++ head) - (d.rx ++ head).length) = payload at framed fills ⊢
  have length : (d.rx ++ head ++ payload).length = frameLen (d.rx ++ head) := by
    rw [← taken, List.length_append, List.length_take] at fills ⊢
    omega
  have same : frameLen (d.rx ++ head ++ payload) = frameLen (d.rx ++ head) := frameLen_append whole _
  rw [settle_whole (by rw [same]; exact fits) (by rw [same]; exact length) (by rw [same]; exact some)] at framed
  rw [settle_waits (d := { d with rx := d.rx ++ head }) (opened some fits)] at header
  exact header.trans framed

/-- The pass over the buffer is what its bytes do one by one, and ends in a frame that is open unless the
mode was left or the connection is dead. -/
theorem frames_fed {n : Nat} {buf : List Byte} (enough : buf.length < n) (alive : d.dead = false)
    (stays : d.left = false) (part : Partial d.rx) :
    (∃ front, buf = front ++ (frames p n d buf).rest ∧
      Fed p d front (frames p n d buf).out (frames p n d buf).state) ∧
      Partial (frames p n d buf).state.rx ∧
      ((frames p n d buf).state.left = false → (frames p n d buf).rest = []) := by
  induction n generalizing d buf with
  | zero => exact absurd enough (Nat.not_lt_zero _)
  | succ n ih =>
    have split : buf = buf.take (2 - d.rx.length) ++ buf.drop (2 - d.rx.length) := (List.take_append_drop ..).symm
    have fedHeader := Fed.header (p := p) alive stays part buf
    rw [frames]
    generalize taken : buf.take (2 - d.rx.length) = head at split fedHeader ⊢
    generalize rest : buf.drop (2 - d.rx.length) = tail at split ⊢
    have opened : frameLen (d.rx ++ head) ≠ 2 → frameLen (d.rx ++ head) ≤ rxSize → Partial (d.rx ++ head) := by
      rw [← taken]
      exact fun some fits => header_opens part buf fits some
    dsimp only
    split_ifs with short long waits empty dead
    · have all : tail = [] := by
        rw [← rest]
        rw [← taken, List.length_append, List.length_take] at short
        exact List.drop_of_length_le (by omega)
      rw [all, List.append_nil] at split
      subst split
      exact ⟨⟨buf, by rw [all, List.append_nil], .open alive stays (.inl short)⟩, .inl short, fun _ => all⟩
    · have fed := fedHeader (Nat.le_of_not_lt short)
      rw [settle_left (Nat.le_of_not_lt short) (.inl long)] at fed
      exact ⟨⟨head, split, fed⟩, .inl (Nat.zero_lt_two), fun stays => absurd stays (by simp)⟩
    · have whole := Nat.le_of_not_lt short
      have fits := Nat.le_of_not_lt long
      have more : frameLen (d.rx ++ head) ≠ 2 := by
        intro two
        rw [two, List.length_append] at waits
        omega
      have fed := fedHeader whole
      rw [settle_waits (d := { d with rx := d.rx ++ head }) (opened more fits)] at fed
      have all : tail.length ≤ frameLen (d.rx ++ head) - (d.rx ++ head).length := by
        rw [List.length_append, List.length_take] at waits
        omega
      rw [List.take_of_length_le all] at waits ⊢
      rw [List.drop_of_length_le all]
      have part' : Partial (d.rx ++ head ++ tail) := .inr (by rw [frameLen_append whole]; exact ⟨fits, waits⟩)
      refine ⟨⟨buf, (List.append_nil buf).symm, ?_⟩, part', fun _ => rfl⟩
      rw [split]
      exact fed.trans (.open (d := { d with rx := d.rx ++ head }) alive stays part')
    · have whole := Nat.le_of_not_lt short
      have fed := fedHeader whole
      rw [settle_left whole (.inr empty)] at fed
      rw [empty, show 2 - (d.rx ++ head).length = 0 by omega, List.drop_zero]
      exact ⟨⟨head, split, fed⟩, .inl (Nat.zero_lt_two), fun stays => absurd stays (by simp)⟩
    · have framed := Fed.frame alive stays (Nat.le_of_not_lt short) (Nat.le_of_not_lt long) empty opened
        (fedHeader (Nat.le_of_not_lt short)) (Nat.le_of_not_lt waits)
      rw [answer, if_pos dead] at framed
      refine ⟨⟨buf, (List.append_nil buf).symm, ?_⟩, .inl Nat.zero_lt_two, fun _ => rfl⟩
      rw [split, ← List.take_append_drop (frameLen (d.rx ++ head) - (d.rx ++ head).length) tail, ← List.append_assoc]
      exact framed.trans (.dropped (d := { d with pod := (p.room d.pod).1, rx := [], dead := true }) rfl stays _)
    · have framed := Fed.frame alive stays (Nat.le_of_not_lt short) (Nat.le_of_not_lt long) empty opened
        (fedHeader (Nat.le_of_not_lt short)) (Nat.le_of_not_lt waits)
      rw [answer, if_neg dead] at framed
      have shorter : (tail.drop (frameLen (d.rx ++ head) - (d.rx ++ head).length)).length < n := by
        have waited : (d.rx ++ head).length < frameLen (d.rx ++ head) :=
          (opened empty (Nat.le_of_not_lt long)).elim (fun less => absurd less short) And.right
        have length := congrArg List.length split
        have fills := Nat.le_of_not_lt waits
        rw [List.length_append] at length
        rw [List.length_append, List.length_take] at fills
        rw [List.length_drop]
        omega
      obtain ⟨⟨front, rest, later⟩, part', all⟩ :=
        ih shorter (d := { d with
          pod := p.run (p.room d.pod).1 ((d.rx ++ head ++
            tail.take (frameLen (d.rx ++ head) - (d.rx ++ head).length)).drop 2)
          rx := [] }) alive stays (.inl Nat.zero_lt_two)
      refine ⟨⟨_, ?_, framed.trans later⟩, part', all⟩
      rw [List.append_assoc, List.append_assoc, ← rest, List.take_append_drop, split]

theorem receive_fed (stays : d.left = false) (part : Partial d.rx) (buf : List Byte) :
    (∃ front, buf = front ++ (receive p d buf).rest ∧
      Fed p d front (receive p d buf).out (receive p d buf).state) ∧
      Partial (receive p d buf).state.rx ∧
      ((receive p d buf).state.left = false → (receive p d buf).rest = []) := by
  unfold receive
  cases alive : d.dead with
  | true => exact ⟨⟨buf, (List.append_nil buf).symm, .dropped alive stays buf⟩, part, fun _ => rfl⟩
  | false => exact frames_fed (Nat.lt_succ_self _) alive stays part

theorem receive_takes (stays : d.left = false) (part : Partial d.rx) (byte : Byte) (buf : List Byte) :
    (receive p d (byte :: buf)).rest.length ≤ buf.length := by
  obtain ⟨⟨front, split, fed⟩, -, all⟩ := receive_fed (p := p) stays part (byte :: buf)
  generalize receive p d (byte :: buf) = now at split fed all ⊢
  rcases front with _ | ⟨first, front⟩
  · have same : now.state = d := by
      generalize now.out = out at fed
      cases fed
      rfl
    rw [all (by rw [same]; exact stays)]
    exact Nat.zero_le _
  · have tails : buf = front ++ now.rest := (List.cons_eq_cons.mp split).2
    rw [tails, List.length_append]
    exact Nat.le_add_left ..

end Proxy
end BenchPod.Dap
