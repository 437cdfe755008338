import CodeBridge.Proofs.Wire.Header

/-!
# Frames in a row

A `Packet` is a frame in any of the forms in which it may be sent.  Reading one takes its bytes
and no others, whatever its body is:

* `next_packet`      one packet at the front of a stream;
* `next_partial`     a packet of which not all has come is waited for;
* `readAll_frames`   bytes that are read as one frame each, in a row;
* `readAll_packets`  a stream of packets gives one outcome each and then its end.

So the outcome of a packet is a matter of its own body.
-/

namespace CodeBridge.Frame

/-! ## packets -/

/-- A frame as it may be sent: lines of which `length` is the last one to name the length and
gives that of the body, a blank line, and the body. -/
structure Packet where
  before : List Line
  length : Line
  after : List Line
  blank : Line
  body : Bytes
  shown : ∀ l ∈ before ++ after, ¬ Blank l.text
  /-- a length that is given in vain is well formed all the same -/
  earlier : ∀ l ∈ before, (∃ n, Gives l.text n) ∨ ∀ value, ¬ Names l.text value
  gives : Gives length.text body.length
  later : ∀ l ∈ after, ∀ value, ¬ Names l.text value
  closing : Blank blank.text
  fits : body.length ≤ maxBody

namespace Packet

def header (p : Packet) : Bytes :=
  p.before.flatMap Line.bytes ++ p.length.bytes ++ p.after.flatMap Line.bytes ++ p.blank.bytes

def bytes (p : Packet) : Bytes := p.header ++ p.body

end Packet

/-! ## the header -/

theorem readHeader_before (ended : Bool) (lines : List Line) (length : Option Nat)
    (started : Bool) (rest : Bytes) (hshown : ∀ l ∈ lines, ¬ Blank l.text)
    (h : ∀ l ∈ lines, (∃ n, Gives l.text n) ∨ ∀ value, ¬ Names l.text value) :
    ∃ length' started', readHeader ended [] length started (lines.flatMap Line.bytes ++ rest) =
      readHeader ended [] length' started' rest := by
  induction lines generalizing length started with
  | nil => exact ⟨length, started, rfl⟩
  | cons l lines ih =>
    have ih := fun length => ih length true (fun m hm => hshown m (List.mem_cons_of_mem l hm))
      fun m hm => h m (List.mem_cons_of_mem l hm)
    rw [List.flatMap_cons, List.append_assoc, readHeader_line]
    rcases h l List.mem_cons_self with ⟨n, hgives⟩ | hother
    · rw [judgeLine_gives l hgives]
      exact ih (some n)
    · rw [judgeLine_other l (hshown l List.mem_cons_self) hother]
      exact ih length

theorem readHeader_after (ended : Bool) (lines : List Line) (length : Option Nat)
    (rest : Bytes) (hshown : ∀ l ∈ lines, ¬ Blank l.text)
    (h : ∀ l ∈ lines, ∀ value, ¬ Names l.text value) :
    readHeader ended [] length true (lines.flatMap Line.bytes ++ rest) =
      readHeader ended [] length true rest := by
  induction lines with
  | nil => rfl
  | cons l lines ih =>
    rw [List.flatMap_cons, List.append_assoc, readHeader_line,
      judgeLine_other l (hshown l List.mem_cons_self) (h l List.mem_cons_self)]
    exact ih (fun m hm => hshown m (List.mem_cons_of_mem l hm))
      fun m hm => h m (List.mem_cons_of_mem l hm)

theorem readHeader_packet (ended : Bool) (p : Packet) (rest : Bytes) :
    readHeader ended [] none false (p.header ++ rest) = .done p.body.length rest := by
  have hbefore : ∀ l ∈ p.before, ¬ Blank l.text := fun l hl =>
    p.shown l (List.mem_append_left p.after hl)
  have hafter : ∀ l ∈ p.after, ¬ Blank l.text := fun l hl =>
    p.shown l (List.mem_append_right p.before hl)
  unfold Packet.header
  rw [List.append_assoc, List.append_assoc, List.append_assoc]
  obtain ⟨length, started, e⟩ := readHeader_before ended p.before none false
    (p.length.bytes ++ (p.after.flatMap Line.bytes ++ (p.blank.bytes ++ rest))) hbefore p.earlier
  rw [e, readHeader_line, judgeLine_gives p.length p.gives]
  show readHeader ended [] (some p.body.length) true
    (p.after.flatMap Line.bytes ++ (p.blank.bytes ++ rest)) = _
  rw [readHeader_after ended p.after _ _ hafter p.later, readHeader_line,
    judgeLine_blank p.blank p.closing]

/-! ## one packet -/

/-- **A packet at the front of a stream gives the outcome of its body, and what follows it is
left.** -/
theorem next_packet (ended : Bool) (p : Packet) (rest : Bytes) :
    next ended (p.bytes ++ rest) = some (ofBody p.body, rest) := by
  have hfits : ¬ p.body.length > maxBody := Nat.not_lt.mpr p.fits
  have hcome : p.body.length ≤ (p.body ++ rest).length := by
    rw [List.length_append]
    exact Nat.le_add_right _ _
  unfold next Packet.bytes
  rw [List.append_assoc, readHeader_packet]
  show (if p.body.length > maxBody then _ else _) = _
  rw [if_neg hfits, if_pos hcome, List.take_left, List.drop_left]

/-- A header that is read before the end is known is read the same when more has come. -/
theorem readHeader_append (ended : Bool) (input more line : Bytes) (length : Option Nat)
    (started : Bool) :
    readHeader false line length started input = .waiting ∨
      (∃ n rest, readHeader false line length started input = .done n rest ∧
        readHeader ended line length started (input ++ more) = .done n (rest ++ more)) ∨
      ∃ fault, readHeader false line length started input = .fault fault ∧
        readHeader ended line length started (input ++ more) = .fault fault := by
  induction input generalizing line length started with
  | nil => exact .inl rfl
  | cons b input ih =>
    rw [List.cons_append, readHeader, readHeader]
    by_cases hb : b = newline
    · rw [if_pos hb, if_pos hb]
      cases judgeLine (b :: line).reverse length with
      | more length => exact ih [] length true
      | done n => exact .inr (.inl ⟨n, input, rfl, rfl⟩)
      | fault fault => exact .inr (.inr ⟨fault, rfl, rfl⟩)
    · rw [if_neg hb, if_neg hb]
      exact ih (b :: line) length true

theorem next_partial (p : Packet) (come missing : Bytes) (h : p.bytes = come ++ missing)
    (hmissing : missing ≠ []) : next false come = none := by
  have hwhole : readHeader false [] none false (come ++ missing) = .done p.body.length p.body := by
    rw [← h]
    exact readHeader_packet false p p.body
  unfold next
  rcases readHeader_append false come missing [] none false with
    hcome | ⟨n, rest, hcome, hdone⟩ | ⟨fault, _, hfault⟩
  · rw [hcome]
  · rw [hwhole] at hdone
    obtain ⟨rfl, hbody⟩ := Header.done.inj hdone
    have hlength : p.body.length = rest.length + missing.length := by
      rw [← List.length_append, ← hbody]
    have hpos : 0 < missing.length := List.length_pos_iff.mpr hmissing
    have hfits := p.fits
    rw [hcome]
    show (if p.body.length > maxBody then _ else _) = _
    rw [if_neg (by omega), if_neg (by omega)]
    rfl
  · rw [hwhole] at hfault
    cases hfault

/-! ## frames in a row -/

/-- Neither a value nor a body that is not JSON ends the reading. -/
theorem ofBody_continues (body : Bytes) : (ofBody body).continues = true := by
  unfold ofBody
  cases Json.parse body <;> rfl

/-- The bytes are one frame with this outcome, whatever follows them. -/
structure IsFrame (bytes : Bytes) (outcome : Outcome) : Prop where
  next_eq : ∀ rest, next true (bytes ++ rest) = some (outcome, rest)
  continues : outcome.continues = true

theorem Packet.isFrame (p : Packet) : IsFrame p.bytes (ofBody p.body) :=
  ⟨next_packet true p, ofBody_continues p.body⟩

theorem IsFrame.pos {bytes : Bytes} {outcome : Outcome} (h : IsFrame bytes outcome) :
    0 < bytes.length := by
  refine List.length_pos_iff.mpr fun e => ?_
  have hnext := h.next_eq []
  have hcontinues := h.continues
  rw [e, List.append_nil] at hnext
  obtain rfl : Outcome.finished = outcome := (Prod.mk.inj (Option.some.inj hnext)).1
  exact Bool.false_ne_true hcontinues

section

variable {α : Type} {bytes : α → Bytes} {outcome : α → Outcome}

theorem length_le_frames (xs : List α) (h : ∀ x ∈ xs, IsFrame (bytes x) (outcome x)) :
    xs.length ≤ (xs.flatMap bytes).length := by
  induction xs with
  | nil => exact Nat.le_refl 0
  | cons x xs ih =>
    have hpos := (h x List.mem_cons_self).pos
    have hle := ih fun y hy => h y (List.mem_cons_of_mem x hy)
    rw [List.flatMap_cons, List.length_append, List.length_cons]
    omega

theorem readUpTo_frames (xs : List α) (h : ∀ x ∈ xs, IsFrame (bytes x) (outcome x))
    (fuel : Nat) (rest : Bytes) :
    readUpTo (xs.length + fuel) (xs.flatMap bytes ++ rest) =
      xs.map outcome ++ readUpTo fuel rest := by
  induction xs with
  | nil => rw [List.length_nil, Nat.zero_add]; rfl
  | cons x xs ih =>
    have hx := h x List.mem_cons_self
    have hfuel : (x :: xs).length + fuel = (xs.length + fuel) + 1 := by
      rw [List.length_cons]
      omega
    rw [hfuel, List.flatMap_cons, List.append_assoc, readUpTo, hx.next_eq]
    show (if (outcome x).continues = true then _ else _) = _
    rw [if_pos hx.continues, ih fun y hy => h y (List.mem_cons_of_mem x hy)]
    rfl

theorem readAll_frames (xs : List α) (h : ∀ x ∈ xs, IsFrame (bytes x) (outcome x)) :
    readAll (xs.flatMap bytes) = xs.map outcome ++ [.finished] := by
  obtain ⟨spare, hspare⟩ := Nat.le.dest (length_le_frames xs h)
  have hrun := readUpTo_frames xs h (spare + 1) []
  rw [List.append_nil, ← Nat.add_assoc, hspare] at hrun
  exact hrun

end

/-- **A stream of packets gives one outcome for each, in order, and then ends cleanly.**  The
outcome of a packet is the value in its body, or the fault that the body is not JSON, after which
reading goes on. -/
theorem readAll_packets (packets : List Packet) :
    readAll (packets.flatMap Packet.bytes) =
      packets.map (fun p =>
        match Json.parse p.body with
        | .ok value => .frame value
        | .error fault => .fault (.badBody fault)) ++ [.finished] :=
  readAll_frames packets fun p _ => p.isFrame

end CodeBridge.Frame
