import CodeBridge.Proofs.Text.Decoding
import CodeBridge.Proofs.Wire.Alignment

/-!
# The grammar of a stream of frames

What a stream says is written down by itself, in relations between what is left of it before and
after a part, and the reader is shown to follow them.  A line ends with its line feed, or where the
stream ends.

* `Field`, `Closing`, `Bad`   what a line can be, and it is one of them (`line_cases`);
* `Fields`, `Headed`          lines of a header, the last length that they give, and the blank line;
* `Complete`                  one frame: a header, and as many bytes as it says;
* `Broken`                    why there is no frame, and what fault that is;
* `complete_or_broken`        a stream that has not ended starts with a frame or is broken;
* `Frames`                    frames in a row;
* `Reading`                   reading again and again, until nothing more can be read;
* `readAll_grammar`           reading ends, cleanly if the stream is frames in a row, and otherwise
                              with the fault of what stands behind the last frame.
-/

namespace CodeBridge.Frame

/-! ## lines -/

/-- A line at the front of a stream, `rest` being what follows it. -/
def IsLine (line rest : Bytes) : Prop :=
  (∃ front, newline ∉ front ∧ line = front ++ [newline]) ∨
    (line ≠ [] ∧ newline ∉ line ∧ rest = [])

theorem IsLine.ne_nil {line rest : Bytes} (h : IsLine line rest) : line ≠ [] := by
  rcases h with ⟨front, _, rfl⟩ | ⟨hne, _⟩
  · exact List.append_ne_nil_of_right_ne_nil front (List.cons_ne_nil _ _)
  · exact hne

theorem exists_line {input : Bytes} (h : input ≠ []) :
    ∃ line rest, IsLine line rest ∧ input = line ++ rest := by
  by_cases hmem : newline ∈ input
  · obtain ⟨front, rest, rfl, hfront⟩ := List.eq_append_cons_of_mem hmem
    exact ⟨front ++ [newline], rest, .inl ⟨front, hfront, rfl⟩, by simp⟩
  · exact ⟨input, [], .inr ⟨h, hmem, rfl⟩, (List.append_nil input).symm⟩

/-- A line that a header goes on after, and the length that it gives, if it names one. -/
inductive Field : Bytes → Option Nat → Prop where
  | gives {text : List Char} {n : Nat} (h : Gives text n) : Field (Utf8.encode text) (some n)
  | other {text : List Char} (hshown : ¬ Blank text) (h : ∀ value, ¬ Names text value) :
    Field (Utf8.encode text) none

/-- A line that ends a header. -/
def Closing (line : Bytes) : Prop := ∃ text, Blank text ∧ line = Utf8.encode text

/-- A line that no header may have: it is not UTF-8, or what it gives as the length is no number
below 2⁶⁴. -/
inductive Bad : Bytes → Fault → Prop where
  | text {line : Bytes} {fault : Utf8.Error} (h : Utf8.decode line = .error fault) :
    Bad line (.text fault)
  | length {text value : List Char} (hnames : Names text value)
      (h : ∀ n < 2 ^ 64, ¬ Numeral value n) :
    Bad (Utf8.encode text) (.badLength (String.ofList (trim value)))

theorem eq_numeral_of_parseLength? {text : List Char} {n : Nat} (h : parseLength? text = some n) :
    ∃ digits, (text = digits ∨ text = '+' :: digits) ∧ digits ≠ [] ∧
      (∀ c ∈ digits, c.isDigit = true) ∧ Nat.ofDigitChars 10 digits 0 = n ∧ n < 2 ^ 64 := by
  have hsign : text = (if text.head? = some '+' then text.tail else text) ∨
      text = '+' :: (if text.head? = some '+' then text.tail else text) := by
    split
    next hplus =>
      obtain ⟨digits, rfl⟩ := List.head?_eq_some_iff.mp hplus
      exact .inr rfl
    next => exact .inl rfl
  unfold parseLength? at h
  generalize (if text.head? = some '+' then text.tail else text) = digits at h hsign
  simp only [foldl_digits] at h
  split at h
  · cases h
  next hdigits =>
    obtain ⟨hne, hall⟩ := not_or.mp (mt (Bool.or_eq_true _ _).mpr hdigits)
    split at h
    next hlt =>
      obtain rfl := Option.some.inj h
      refine ⟨digits, hsign, mt List.isEmpty_iff.mpr hne, List.all_eq_true.mp ?_, rfl, hlt⟩
      simpa using hall
    next => cases h

theorem parseLength?_trim_eq_some {value : List Char} {n : Nat} :
    parseLength? (trim value) = some n ↔ Numeral value n ∧ n < 2 ^ 64 := by
  refine ⟨fun h => ?_, fun ⟨hnumeral, hlt⟩ => parseLength?_numeral hnumeral hlt⟩
  obtain ⟨before, after, hbefore, hafter, e⟩ := exists_around value
  obtain ⟨digits, hsign, hne, hdigits, hn, hlt⟩ := eq_numeral_of_parseLength? h
  refine ⟨⟨before, digits, after, hbefore, hafter, ?_, hne, hdigits, hn⟩, hlt⟩
  rcases hsign with hsign | hsign
  · exact .inl (hsign ▸ e)
  · exact .inr (hsign ▸ e)

theorem line_cases (line : Bytes) :
    (∃ given, Field line given) ∨ Closing line ∨ ∃ fault, Bad line fault := by
  cases hd : Utf8.decode line with
  | error fault => exact .inr (.inr ⟨_, .text hd⟩)
  | ok text =>
    obtain rfl := Utf8.decode_eq_ok_iff.mp hd
    by_cases hblank : Blank text
    · exact .inr (.inl ⟨text, hblank, rfl⟩)
    · by_cases hnames : ∃ value, Names text value
      · obtain ⟨value, hnames⟩ := hnames
        cases hn : parseLength? (trim value) with
        | some n =>
          obtain ⟨hnumeral, hlt⟩ := parseLength?_trim_eq_some.mp hn
          exact .inl ⟨some n, .gives ⟨value, hnames, hnumeral, hlt⟩⟩
        | none =>
          refine .inr (.inr ⟨_, .length hnames fun n hlt hnumeral => ?_⟩)
          rw [parseLength?_numeral hnumeral hlt] at hn
          cases hn
      · exact .inl ⟨none, .other hblank fun value h => hnames ⟨value, h⟩⟩

theorem judgeLine_field {line : Bytes} {given : Option Nat} (h : Field line given)
    (length : Option Nat) : judgeLine line length = .more (given.or length) := by
  cases h with
  | gives h =>
    obtain ⟨value, hnames, hnumeral, hlt⟩ := h
    rw [judgeLine_encode, if_neg (not_blank_of_names hnames), lengthValue?_of_names hnames]
    simp only [parseLength?_numeral hnumeral hlt, Option.some_or]
  | other hshown h =>
    rw [judgeLine_encode, if_neg hshown, lengthValue?_of_not_names h, Option.none_or]

theorem judgeLine_closing {line : Bytes} (h : Closing line) (length : Option Nat) :
    judgeLine line length =
      match length with
      | some n => .done n
      | none => .fault .noLength := by
  obtain ⟨text, hblank, rfl⟩ := h
  exact (judgeLine_encode text length).trans (if_pos hblank)

theorem judgeLine_bad {line : Bytes} {fault : Fault} (h : Bad line fault)
    (length : Option Nat) : judgeLine line length = .fault fault := by
  cases h with
  | text h =>
    unfold judgeLine
    rw [h]
  | length hnames h =>
    have hnone : parseLength? (trim _) = none :=
      Option.eq_none_iff_forall_ne_some.mpr fun n hn => by
        obtain ⟨hnumeral, hlt⟩ := parseLength?_trim_eq_some.mp hn
        exact h n hlt hnumeral
    rw [judgeLine_encode, if_neg (not_blank_of_names hnames), lengthValue?_of_names hnames]
    simp only [hnone]

/-! ## headers -/

theorem readHeader_unended (front : Bytes) (h : newline ∉ front) (line : Bytes)
    (hne : line.reverse ++ front ≠ []) (length : Option Nat) (started : Bool) :
    readHeader true line length started front =
      match judgeLine (line.reverse ++ front) length with
      | .more _ => .fault .cutHeader
      | .done n => .done n []
      | .fault fault => .fault fault := by
  induction front generalizing line started with
  | nil =>
    have hline : line.isEmpty = false := by
      rw [List.isEmpty_eq_false_iff]
      rintro rfl
      exact hne rfl
    rw [readHeader, List.append_nil]
    exact (if_neg Bool.false_ne_true).trans (if_neg (Bool.eq_false_iff.mp hline))
  | cons b front ih =>
    have hb : b ≠ newline := fun e => h (e ▸ List.mem_cons_self)
    rw [readHeader, if_neg hb, ih (fun hm => h (List.mem_cons_of_mem b hm)) (b :: line) (by simp)]
    simp

theorem readHeader_isLine {line rest : Bytes} (h : IsLine line rest) (length : Option Nat)
    (started : Bool) :
    readHeader true [] length started (line ++ rest) =
      match judgeLine line length with
      | .more length => readHeader true [] length true rest
      | .done n => .done n rest
      | .fault fault => .fault fault := by
  rcases h with ⟨front, hfront, rfl⟩ | ⟨hne, hline, rfl⟩
  · rw [List.append_assoc, List.singleton_append, readHeader_bytes true front hfront]
    rfl
  · rw [List.append_nil, readHeader_unended line hline [] hne]
    rfl

/-- Lines that a header goes on after, at the front of a stream.  `before` and `after` are the last
lengths given before and after them, and `rest` is what follows them. -/
inductive Fields : (before : Option Nat) → (input : Bytes) → (after : Option Nat) →
    (rest : Bytes) → Prop where
  | nil (length : Option Nat) (input : Bytes) : Fields length input length input
  | cons {before given after : Option Nat} {line more rest : Bytes} (hline : IsLine line more)
      (hfield : Field line given) (h : Fields (given.or before) more after rest) :
    Fields before (line ++ more) after rest

theorem Fields.exists_taken {before after : Option Nat} {input rest : Bytes}
    (h : Fields before input after rest) : ∃ taken, input = taken ++ rest := by
  induction h with
  | nil _ input => exact ⟨[], rfl⟩
  | @cons _ _ _ line _ _ _ _ _ ih =>
    obtain ⟨taken, rfl⟩ := ih
    exact ⟨line ++ taken, (List.append_assoc line taken _).symm⟩

/-- The lines of a header lead to a blank line, to a bad one, or to the end of the stream. -/
theorem exists_fields (before : Option Nat) (input : Bytes) :
    ∃ after rest, Fields before input after rest ∧
      (rest = [] ∨ ∃ line more, rest = line ++ more ∧ IsLine line more ∧
        (Closing line ∨ ∃ fault, Bad line fault)) := by
  induction hn : input.length using Nat.strongRecOn generalizing before input with
  | ind n ih =>
    by_cases hne : input = []
    · exact ⟨before, input, .nil before input, .inl hne⟩
    · obtain ⟨line, more, hline, rfl⟩ := exists_line hne
      have hpos := List.length_pos_iff.mpr hline.ne_nil
      rw [List.length_append] at hn
      rcases line_cases line with ⟨given, hfield⟩ | hstop
      · obtain ⟨after, rest, hfields, hrest⟩ := ih more.length (by omega) (given.or before) more rfl
        exact ⟨after, rest, .cons hline hfield hfields, hrest⟩
      · exact ⟨before, _, .nil before _, .inr ⟨line, more, rfl, hline, hstop⟩⟩

/-- Lines of a header are passed over, and with one of them the header has started. -/
theorem readHeader_fields {before after : Option Nat} {input rest : Bytes}
    (h : Fields before input after rest) (started : Bool) :
    ∃ started', (started = true ∨ input ≠ rest → started' = true) ∧
      readHeader true [] before started input = readHeader true [] after started' rest := by
  induction h generalizing started with
  | nil => exact ⟨started, fun h => h.resolve_right fun hne => hne rfl, rfl⟩
  | cons hline hfield _ ih =>
    obtain ⟨started', hstarted, e⟩ := ih true
    refine ⟨started', fun _ => hstarted (.inl rfl), ?_⟩
    rw [readHeader_isLine hline, judgeLine_field hfield]
    exact e

/-- A header and its blank line at the front of a stream, `length` being the last length given. -/
def Headed (input : Bytes) (length : Option Nat) (rest : Bytes) : Prop :=
  ∃ line, Closing line ∧ IsLine line rest ∧ Fields none input length (line ++ rest)

theorem readHeader_headed {input rest : Bytes} {length : Option Nat}
    (h : Headed input length rest) :
    readHeader true [] none false input =
      match length with
      | some n => .done n rest
      | none => .fault .noLength := by
  obtain ⟨line, hclosing, hline, hfields⟩ := h
  obtain ⟨started, _, e⟩ := readHeader_fields hfields false
  rw [e, readHeader_isLine hline, judgeLine_closing hclosing]
  cases length <;> rfl

theorem Headed.exists_taken {input rest : Bytes} {length : Option Nat}
    (h : Headed input length rest) : ∃ taken, taken ≠ [] ∧ input = taken ++ rest := by
  obtain ⟨line, _, hline, hfields⟩ := h
  obtain ⟨taken, rfl⟩ := hfields.exists_taken
  exact ⟨taken ++ line, List.append_ne_nil_of_right_ne_nil taken hline.ne_nil,
    (List.append_assoc taken line rest).symm⟩

/-! ## one frame -/

/-- A frame at the front of a stream, `rest` being what follows it. -/
structure Complete (input body rest : Bytes) : Prop where
  headed : Headed input (some body.length) (body ++ rest)
  fits : body.length ≤ maxBody

/-- There is no frame at the front of a stream although it has not ended, with the fault that this
is. -/
inductive Broken (input : Bytes) : Fault → Prop where
  | line {length : Option Nat} {line rest : Bytes} {fault : Fault}
      (h : Fields none input length (line ++ rest)) (hline : IsLine line rest)
      (hbad : Bad line fault) : Broken input fault
  | cutHeader {length : Option Nat} (h : Fields none input length []) (hne : input ≠ []) :
    Broken input .cutHeader
  | noLength {rest : Bytes} (h : Headed input none rest) : Broken input .noLength
  | tooLarge {n : Nat} {rest : Bytes} (h : Headed input (some n) rest) (hlarge : maxBody < n) :
    Broken input (.tooLarge n)
  | cutBody {n : Nat} {rest : Bytes} (h : Headed input (some n) rest) (hfits : n ≤ maxBody)
      (hcut : rest.length < n) : Broken input .cutBody

theorem complete_or_broken {input : Bytes} (hne : input ≠ []) :
    (∃ body rest, Complete input body rest) ∨ ∃ fault, Broken input fault := by
  obtain ⟨length, _, hfields, rfl | ⟨line, rest, rfl, hline, hclosing | ⟨fault, hbad⟩⟩⟩ :=
    exists_fields none input
  · exact .inr ⟨_, .cutHeader hfields hne⟩
  · have hheaded : Headed input length rest := ⟨line, hclosing, hline, hfields⟩
    cases length with
    | none => exact .inr ⟨_, .noLength hheaded⟩
    | some n =>
      rcases Nat.lt_or_ge maxBody n with hlarge | hfits
      · exact .inr ⟨_, .tooLarge hheaded hlarge⟩
      · rcases Nat.lt_or_ge rest.length n with hcut | hcome
        · exact .inr ⟨_, .cutBody hheaded hfits hcut⟩
        · have hlength : (rest.take n).length = n := List.length_take_of_le hcome
          refine .inl ⟨rest.take n, rest.drop n, ?_, hlength.trans_le hfits⟩
          rw [hlength, List.take_append_drop]
          exact hheaded
  · exact .inr ⟨fault, .line hfields hline hbad⟩

theorem Complete.next_eq {input body rest : Bytes} (h : Complete input body rest) :
    next true input = some (ofBody body, rest) := by
  have hfits : ¬ body.length > maxBody := Nat.not_lt.mpr h.fits
  have hcome : body.length ≤ (body ++ rest).length := by
    rw [List.length_append]
    exact Nat.le_add_right _ _
  unfold next
  rw [readHeader_headed h.headed]
  show (if body.length > maxBody then _ else _) = _
  rw [if_neg hfits, if_pos hcome, List.take_left, List.drop_left]

theorem Complete.exists_taken {input body rest : Bytes} (h : Complete input body rest) :
    ∃ taken, taken ≠ [] ∧ input = taken ++ rest := by
  obtain ⟨header, hne, rfl⟩ := h.headed.exists_taken
  exact ⟨header ++ body, List.append_ne_nil_of_left_ne_nil hne body,
    (List.append_assoc header body rest).symm⟩

theorem Broken.next_eq {input : Bytes} {fault : Fault} (h : Broken input fault) :
    ∃ rest, next true input = some (.fault fault, rest) := by
  unfold next
  cases h with
  | line h hline hbad =>
    obtain ⟨started, _, e⟩ := readHeader_fields h false
    rw [e, readHeader_isLine hline, judgeLine_bad hbad]
    exact ⟨[], rfl⟩
  | cutHeader h hne =>
    obtain ⟨started, hstarted, e⟩ := readHeader_fields h false
    rw [e, hstarted (.inr hne)]
    exact ⟨[], rfl⟩
  | noLength h =>
    rw [readHeader_headed h]
    exact ⟨[], rfl⟩
  | @tooLarge n rest h hlarge =>
    rw [readHeader_headed h]
    exact ⟨rest, if_pos hlarge⟩
  | @cutBody n rest h hfits hcut =>
    rw [readHeader_headed h]
    refine ⟨[], ?_⟩
    show (if n > maxBody then _ else _) = _
    rw [if_neg (Nat.not_lt.mpr hfits), if_neg (Nat.not_le.mpr hcut), if_pos rfl]

/-- After such a fault nobody knows where the next frame starts. -/
theorem Broken.unrecoverable {input : Bytes} {fault : Fault} (h : Broken input fault) :
    fault.recoverable = false := by
  cases h with
  | line _ _ hbad => cases hbad <;> rfl
  | _ => rfl

theorem complete_of_continues {input rest : Bytes} {outcome : Outcome}
    (h : next true input = some (outcome, rest)) (hcontinues : outcome.continues = true) :
    ∃ body, Complete input body rest := by
  by_cases hne : input = []
  · subst hne
    obtain ⟨rfl, _⟩ := Prod.mk.inj (Option.some.inj h)
    cases hcontinues
  · rcases complete_or_broken hne with ⟨body, rest', hcomplete⟩ | ⟨fault, hbroken⟩
    · rw [hcomplete.next_eq] at h
      obtain ⟨rfl, rfl⟩ := Prod.mk.inj (Option.some.inj h)
      exact ⟨body, hcomplete⟩
    · obtain ⟨rest', e⟩ := hbroken.next_eq
      rw [e] at h
      obtain ⟨rfl, _⟩ := Prod.mk.inj (Option.some.inj h)
      exact absurd (hbroken.unrecoverable.symm.trans hcontinues) Bool.false_ne_true

/-! ## frames in a row -/

/-- Frames at the front of a stream, one after the other, and their bodies. -/
inductive Frames : (input : Bytes) → (bodies : List Bytes) → (rest : Bytes) → Prop where
  | nil (input : Bytes) : Frames input [] input
  | cons {input body more rest : Bytes} {bodies : List Bytes} (h : Complete input body more)
      (hmore : Frames more bodies rest) : Frames input (body :: bodies) rest

/-- Frames lead to the end of the stream or to where it is broken. -/
theorem exists_frames (input : Bytes) :
    ∃ bodies rest, Frames input bodies rest ∧ (rest = [] ∨ ∃ fault, Broken rest fault) := by
  induction hn : input.length using Nat.strongRecOn generalizing input with
  | ind n ih =>
    by_cases hne : input = []
    · exact ⟨[], input, .nil input, .inl hne⟩
    · rcases complete_or_broken hne with ⟨body, more, hcomplete⟩ | hbroken
      · obtain ⟨taken, htaken, e⟩ := hcomplete.exists_taken
        have hpos := List.length_pos_iff.mpr htaken
        rw [e, List.length_append] at hn
        obtain ⟨bodies, rest, hframes, hrest⟩ := ih more.length (by omega) more rfl
        exact ⟨body :: bodies, rest, .cons hcomplete hframes, hrest⟩
      · exact ⟨[], input, .nil input, .inr hbroken⟩

/-- Reading a stream again and again, until an outcome after which it does not go on. -/
inductive Reading : Bytes → List Outcome → Prop where
  | last {input rest : Bytes} {outcome : Outcome} (h : next true input = some (outcome, rest))
      (hlast : outcome.continues = false) : Reading input [outcome]
  | more {input rest : Bytes} {outcome : Outcome} {outcomes : List Outcome}
      (h : next true input = some (outcome, rest)) (hcontinues : outcome.continues = true)
      (hmore : Reading rest outcomes) : Reading input (outcome :: outcomes)

theorem Reading.unique {input : Bytes} {outcomes outcomes' : List Outcome}
    (h : Reading input outcomes) (h' : Reading input outcomes') : outcomes = outcomes' := by
  induction h generalizing outcomes' with
  | last h hlast =>
    cases h' with
    | last h' _ =>
      rw [h] at h'
      rw [(Prod.mk.inj (Option.some.inj h')).1]
    | more h' hcontinues _ =>
      rw [h] at h'
      obtain ⟨rfl, _⟩ := Prod.mk.inj (Option.some.inj h')
      exact absurd (hlast.symm.trans hcontinues) Bool.false_ne_true
  | more h hcontinues _ ih =>
    cases h' with
    | last h' hlast =>
      rw [h] at h'
      obtain ⟨rfl, _⟩ := Prod.mk.inj (Option.some.inj h')
      exact absurd (hlast.symm.trans hcontinues) Bool.false_ne_true
    | more h' _ hmore =>
      rw [h] at h'
      obtain ⟨rfl, rfl⟩ := Prod.mk.inj (Option.some.inj h')
      rw [ih hmore]

theorem Frames.reading {input rest : Bytes} {bodies : List Bytes} {outcomes : List Outcome}
    (h : Frames input bodies rest) (hrest : Reading rest outcomes) :
    Reading input (bodies.map ofBody ++ outcomes) := by
  induction h with
  | nil _ => exact hrest
  | cons h _ ih => exact .more h.next_eq (ofBody_continues _) (ih hrest)

theorem reading_nil : Reading [] [.finished] := .last rfl rfl

theorem Broken.reading {input : Bytes} {fault : Fault} (h : Broken input fault) :
    Reading input [.fault fault] := by
  obtain ⟨_, e⟩ := h.next_eq
  exact .last e h.unrecoverable

/-- Fuel of one more than the bytes is enough, since every frame takes a byte. -/
theorem reading_readUpTo (fuel : Nat) (input : Bytes) (h : input.length < fuel) :
    Reading input (readUpTo fuel input) := by
  induction fuel generalizing input with
  | zero => exact absurd h (Nat.not_lt_zero _)
  | succ fuel ih =>
    by_cases hne : input = []
    · subst hne
      exact reading_nil
    · rcases complete_or_broken hne with ⟨body, rest, hcomplete⟩ | ⟨fault, hbroken⟩
      · have hcontinues := ofBody_continues body
        obtain ⟨taken, htaken, e⟩ := hcomplete.exists_taken
        have hpos := List.length_pos_iff.mpr htaken
        have hshorter : rest.length < fuel := by
          rw [e, List.length_append] at h
          omega
        rw [readUpTo, hcomplete.next_eq]
        show Reading input (if (ofBody body).continues = true then _ else _)
        rw [if_pos hcontinues]
        exact .more hcomplete.next_eq hcontinues (ih rest hshorter)
      · obtain ⟨rest, e⟩ := hbroken.next_eq
        rw [readUpTo, e]
        show Reading input (if fault.recoverable = true then _ else _)
        rw [if_neg (Bool.eq_false_iff.mp hbroken.unrecoverable)]
        exact hbroken.reading

theorem reading_readAll (input : Bytes) : Reading input (readAll input) :=
  reading_readUpTo _ input (Nat.lt_succ_self _)

theorem getLast?_readAll {input rest : Bytes} {bodies : List Bytes} {outcome : Outcome}
    (h : Frames input bodies rest) (hlast : Reading rest [outcome]) :
    (readAll input).getLast? = some outcome := by
  rw [(reading_readAll input).unique (h.reading hlast), List.getLast?_concat]

/-- **Reading a stream again and again ends, each outcome before the last one having taken a byte.
The last outcome is the clean end if and only if the stream is frames in a row, and a fault if and
only if that is what the stream is broken with behind frames in a row.**  There is no other last
outcome, and no frame is looked for after such a fault. -/
theorem readAll_grammar (input : Bytes) :
    (∀ outcomes, Reading input outcomes ↔ outcomes = readAll input) ∧
    (∀ outcome rest, next true input = some (outcome, rest) → outcome.continues = true →
      ∃ taken, taken ≠ [] ∧ input = taken ++ rest) ∧
    ((readAll input).getLast? = some .finished ↔ ∃ bodies, Frames input bodies []) ∧
    (∀ fault, (readAll input).getLast? = some (.fault fault) ↔
      ∃ bodies rest, Frames input bodies rest ∧ Broken rest fault) ∧
    ((readAll input).getLast? = some .finished ∨
      ∃ fault, fault.recoverable = false ∧ (readAll input).getLast? = some (.fault fault)) := by
  obtain ⟨bodies, rest, hframes, hrest⟩ := exists_frames input
  have hlast : ((readAll input).getLast? = some .finished ∧ rest = []) ∨
      ∃ fault, Broken rest fault ∧ (readAll input).getLast? = some (.fault fault) := by
    rcases hrest with rfl | ⟨fault, hbroken⟩
    · exact .inl ⟨getLast?_readAll hframes reading_nil, rfl⟩
    · exact .inr ⟨fault, hbroken, getLast?_readAll hframes hbroken.reading⟩
  refine ⟨fun outcomes => ⟨fun h => h.unique (reading_readAll input), ?_⟩, ?_, ⟨?_, ?_⟩,
    fun fault => ⟨?_, ?_⟩, ?_⟩
  · rintro rfl
    exact reading_readAll input
  · intro outcome rest h hcontinues
    obtain ⟨body, hcomplete⟩ := complete_of_continues h hcontinues
    exact hcomplete.exists_taken
  · intro h
    rcases hlast with ⟨_, rfl⟩ | ⟨fault, _, hfault⟩
    · exact ⟨bodies, hframes⟩
    · rw [h] at hfault
      cases hfault
  · rintro ⟨bodies, hframes⟩
    exact getLast?_readAll hframes reading_nil
  · intro h
    rcases hlast with ⟨hfinished, _⟩ | ⟨fault', hbroken, hfault⟩
    · rw [h] at hfinished
      cases hfinished
    · rw [h] at hfault
      obtain rfl := Outcome.fault.inj (Option.some.inj hfault)
      exact ⟨bodies, rest, hframes, hbroken⟩
  · rintro ⟨bodies, rest, hframes, hbroken⟩
    exact getLast?_readAll hframes hbroken.reading
  · rcases hlast with ⟨hfinished, _⟩ | ⟨fault, hbroken, hfault⟩
    · exact .inl hfinished
    · exact .inr ⟨fault, hbroken.unrecoverable, hfault⟩

end CodeBridge.Frame
