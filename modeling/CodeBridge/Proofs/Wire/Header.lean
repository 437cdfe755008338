import CodeBridge.Proofs.Text.Encoding
import CodeBridge.Proofs.Text.Trimming
import CodeBridge.Wire.Frame

/-!
# Header lines

What a header line says is read off its text alone, whatever letter case and spacing it has:

* `Names`    the text names the length, and what stands behind the colon;
* `Numeral`  a value is the numeral of a number;
* `Gives`    the text gives a number as the length.

`judgeLine` reads lines in just this way (`judgeLine_gives`, `judgeLine_other`,
`judgeLine_blank`), and `readHeader` goes from line to line (`readHeader_line`).
-/

namespace CodeBridge.Frame

/-! ## lines and their bytes -/

inductive LineEnd where
  | lf
  | crlf
  deriving DecidableEq, Repr

def LineEnd.text : LineEnd → List Char
  | .lf => ['\n']
  | .crlf => ['\r', '\n']

/-- One line of text and how it ends. -/
structure Line where
  text : List Char
  ending : LineEnd
  oneLine : '\n' ∉ text
  deriving DecidableEq, Repr

def Line.bytes (l : Line) : Bytes := Utf8.encode (l.text ++ l.ending.text)

theorem LineEnd.blank (e : LineEnd) : Blank e.text := by cases e <;> decide

/-- A byte of a text is a line end only where the text has one. -/
theorem newline_not_mem_encode {cs : List Char} (h : '\n' ∉ cs) : newline ∉ Utf8.encode cs :=
  fun hb => h (Utf8.mem_of_byte_mem (c := '\n') (by decide) hb)

theorem Line.exists_bytes (l : Line) : ∃ front, newline ∉ front ∧ l.bytes = front ++ [newline] := by
  have hlast : Utf8.encode ['\n'] = [newline] := by decide
  unfold Line.bytes
  cases l.ending with
  | lf => exact ⟨Utf8.encode l.text, newline_not_mem_encode l.oneLine, by
      rw [LineEnd.text, Utf8.encode_append, hlast]⟩
  | crlf =>
    refine ⟨Utf8.encode (l.text ++ ['\r']), newline_not_mem_encode fun h => ?_, ?_⟩
    · rcases List.mem_append.mp h with h | h
      · exact l.oneLine h
      · exact absurd h (by decide)
    · rw [← hlast, ← Utf8.encode_append, List.append_assoc]
      rfl

/-! ## what a line says -/

/-- The text names the length before its first colon, and `value` follows the colon. -/
def Names (text value : List Char) : Prop :=
  ∃ before name between, Blank before ∧ name.map Char.toLower = lengthName ∧ Blank between ∧
    text = before ++ name ++ between ++ ':' :: value

/-- Decimal digits of `n`, perhaps after a plus sign, with white space around them. -/
def Numeral (value : List Char) (n : Nat) : Prop :=
  ∃ before digits after, Blank before ∧ Blank after ∧
    (value = before ++ digits ++ after ∨ value = before ++ ('+' :: digits) ++ after) ∧
    digits ≠ [] ∧ (∀ c ∈ digits, c.isDigit = true) ∧ Nat.ofDigitChars 10 digits 0 = n

/-- The text gives `n` as the length, as a number below 2⁶⁴. -/
def Gives (text : List Char) (n : Nat) : Prop :=
  ∃ value, Names text value ∧ Numeral value n ∧ n < 2 ^ 64

/-! ## the name -/

theorem colon_not_mem_blank {cs : List Char} (h : Blank cs) : ':' ∉ cs :=
  fun hc => absurd (h ':' hc) (by decide)

theorem not_blank_of_names {text value : List Char} (h : Names text value) : ¬ Blank text := by
  intro hblank
  obtain ⟨before, name, between, _, _, _, rfl⟩ := h
  exact colon_not_mem_blank hblank (List.mem_append_right _ List.mem_cons_self)

theorem isBlank_bounds {c : Char} (h : isBlank c = true) :
    c.toNat ≤ 13 ∨ c.toNat = 32 ∨ 0x85 ≤ c.toNat := by
  simp only [isBlank, Bool.or_eq_true, Bool.and_eq_true, beq_iff_eq, decide_eq_true_eq] at h
  omega

theorem toLower_blank {c : Char} (h : isBlank c = true) : c.toLower = c := by
  have hb := isBlank_bounds h
  refine dif_neg fun hc => ?_
  have h1 : 65 ≤ c.toNat := hc.1
  have h2 : c.toNat ≤ 90 := hc.2
  omega

section

variable {name : List Char} (h : name.map Char.toLower = lengthName)
include h

theorem toLower_mem_name {c : Char} (hc : c ∈ name) : c.toLower ∈ lengthName :=
  h ▸ List.mem_map_of_mem hc

theorem colon_not_mem_name : ':' ∉ name :=
  fun hc => absurd (toLower_mem_name h hc) (by decide)

theorem name_not_blank {c : Char} (hc : c ∈ name) : isBlank c = false := by
  refine Bool.eq_false_iff.mpr fun hb => ?_
  have hmem := toLower_mem_name h hc
  rw [toLower_blank hb] at hmem
  have hnone : ¬ lengthName.any isBlank = true := by decide
  exact hnone (List.any_eq_true.mpr ⟨c, hmem, hb⟩)

end

theorem tight_of_forall {cs : List Char} (h : ∀ c ∈ cs, isBlank c = false) : Tight cs :=
  ⟨fun c hc => h c (List.mem_of_mem_head? hc), fun c hc => h c (List.mem_of_mem_getLast? hc)⟩

/-! ## the value behind the colon -/

theorem lengthValue?_split (front value : List Char) (h : ':' ∉ front) :
    lengthValue? (front ++ ':' :: value) =
      if (trim front).map Char.toLower = lengthName then some (trim value) else none := by
  have hpos : ∀ c ∈ front, decide (c ≠ ':') = true := fun c hc =>
    decide_eq_true fun e => h (e ▸ hc)
  have htake : (front ++ ':' :: value).takeWhile (· ≠ ':') = front := by
    rw [List.takeWhile_append_of_pos hpos, List.takeWhile_cons_of_neg (by decide),
      List.append_nil]
  have hdrop : (front ++ ':' :: value).dropWhile (· ≠ ':') = ':' :: value := by
    rw [List.dropWhile_append_of_pos hpos, List.dropWhile_cons_of_neg (by decide)]
  have hmem : (front ++ ':' :: value).contains ':' = true :=
    List.contains_iff_mem.mpr (List.mem_append_right front List.mem_cons_self)
  unfold lengthValue?
  simp only [htake, hdrop, hmem, Bool.true_and, decide_eq_true_eq, List.tail_cons]

theorem lengthValue?_no_colon {text : List Char} (h : ':' ∉ text) : lengthValue? text = none := by
  have hmem : text.contains ':' = false := by
    rw [← Bool.not_eq_true, List.contains_iff_mem]
    exact h
  unfold lengthValue?
  rw [hmem]
  rfl

theorem lengthValue?_trim (text : List Char) : lengthValue? (trim text) = lengthValue? text := by
  obtain ⟨a, b, ha, hb, e⟩ := exists_around text
  by_cases hmem : ':' ∈ trim text
  · obtain ⟨front, value, hsplit, hfront⟩ := List.eq_append_cons_of_mem hmem
    have hafront : ':' ∉ a ++ front := fun hc =>
      (List.mem_append.mp hc).elim (colon_not_mem_blank ha) hfront
    have htext : text = (a ++ front) ++ ':' :: (value ++ b) := by
      rw [e, hsplit]
      simp only [List.append_assoc, List.cons_append]
    rw [htext, lengthValue?_split _ _ hafront, trim_blank_append ha, trim_append_blank _ hb,
      ← htext, hsplit, lengthValue?_split _ _ hfront]
  · have htext : ':' ∉ text := fun hc => by
      rw [e] at hc
      rcases List.mem_append.mp hc with hc | hc
      · exact (List.mem_append.mp hc).elim (colon_not_mem_blank ha) hmem
      · exact colon_not_mem_blank hb hc
    rw [lengthValue?_no_colon hmem, lengthValue?_no_colon htext]

theorem lengthValue?_of_names {text value : List Char} (h : Names text value) :
    lengthValue? text = some (trim value) := by
  obtain ⟨before, name, between, hbefore, hname, hbetween, rfl⟩ := h
  have hfront : ':' ∉ before ++ name ++ between := fun hc => by
    rcases List.mem_append.mp hc with hc | hc
    · exact (List.mem_append.mp hc).elim (colon_not_mem_blank hbefore) (colon_not_mem_name hname)
    · exact colon_not_mem_blank hbetween hc
  have htight : Tight name := tight_of_forall fun c => name_not_blank hname
  rw [lengthValue?_split _ _ hfront, trim_between hbefore htight hbetween, if_pos hname]

theorem names_of_lengthValue? {text found : List Char} (h : lengthValue? text = some found) :
    ∃ value, Names text value := by
  by_cases hmem : ':' ∈ text
  · obtain ⟨front, value, rfl, hfront⟩ := List.eq_append_cons_of_mem hmem
    rw [lengthValue?_split _ _ hfront] at h
    split at h
    next hname =>
      obtain ⟨a, b, ha, hb, e⟩ := exists_around front
      exact ⟨value, a, trim front, b, ha, hname, hb, by rw [← e]⟩
    next => cases h
  · rw [lengthValue?_no_colon hmem] at h
    cases h

theorem lengthValue?_of_not_names {text : List Char} (h : ∀ value, ¬ Names text value) :
    lengthValue? text = none :=
  Option.eq_none_iff_forall_ne_some.mpr fun _ hfound =>
    (names_of_lengthValue? hfound).elim h

/-! ## the number -/

theorem isDigit_not_blank {c : Char} (h : c.isDigit = true) : isBlank c = false := by
  refine Bool.eq_false_iff.mpr fun hb => ?_
  have hbounds := isBlank_bounds hb
  simp only [Char.isDigit, Bool.and_eq_true, decide_eq_true_eq] at h
  have h1 : 48 ≤ c.toNat := h.1
  have h2 : c.toNat ≤ 57 := h.2
  omega

theorem foldl_digits (cs : List Char) (n : Nat) :
    cs.foldl (fun n c => n * 10 + (c.toNat - 48)) n = Nat.ofDigitChars 10 cs n := by
  induction cs generalizing n with
  | nil => rw [Nat.ofDigitChars_nil]; rfl
  | cons c cs ih => rw [List.foldl_cons, ih, Nat.ofDigitChars_cons, Nat.mul_comm]; rfl

theorem parseLength?_digits {digits : List Char} (hne : digits ≠ [])
    (hdigits : ∀ c ∈ digits, c.isDigit = true) (hlt : Nat.ofDigitChars 10 digits 0 < 2 ^ 64) :
    parseLength? digits = some (Nat.ofDigitChars 10 digits 0) ∧
      parseLength? ('+' :: digits) = some (Nat.ofDigitChars 10 digits 0) := by
  have hplus : digits.head? ≠ some '+' := fun hc =>
    absurd (hdigits '+' (List.mem_of_mem_head? hc)) (by decide)
  have hempty : digits.isEmpty = false := List.isEmpty_eq_false_iff.mpr hne
  have hall : digits.all Char.isDigit = true := List.all_eq_true.mpr hdigits
  constructor
  · unfold parseLength?
    simp only [if_neg hplus, hempty, hall, foldl_digits, if_pos hlt]
    rfl
  · unfold parseLength?
    simp only [List.head?_cons, if_true, List.tail_cons, hempty, hall, foldl_digits, if_pos hlt]
    rfl

theorem parseLength?_numeral {value : List Char} {n : Nat} (h : Numeral value n)
    (hlt : n < 2 ^ 64) : parseLength? (trim value) = some n := by
  obtain ⟨before, digits, after, hbefore, hafter, hvalue, hne, hdigits, rfl⟩ := h
  have hblank : ∀ c ∈ digits, isBlank c = false := fun c hc => isDigit_not_blank (hdigits c hc)
  obtain ⟨hplain, hplus⟩ := parseLength?_digits hne hdigits hlt
  rcases hvalue with rfl | rfl
  · rw [trim_between hbefore (tight_of_forall hblank) hafter, hplain]
  · have htight : Tight ('+' :: digits) := tight_of_forall fun c hc => by
      rcases List.mem_cons.mp hc with rfl | hc
      · decide
      · exact hblank c hc
    rw [trim_between hbefore htight hafter, hplus]

/-! ## judging a line -/

theorem judgeLine_encode (text : List Char) (length : Option Nat) :
    judgeLine (Utf8.encode text) length =
      if Blank text then
        match length with
        | some n => .done n
        | none => .fault .noLength
      else
        match lengthValue? text with
        | none => .more length
        | some value =>
          match parseLength? value with
          | some n => .more (some n)
          | none => .fault (.badLength (String.ofList value)) := by
  have hempty : (trim text).isEmpty = true ↔ Blank text := by
    rw [List.isEmpty_iff, trim_eq_nil_iff]
  unfold judgeLine
  simp only [Utf8.decode_encode, lengthValue?_trim]
  by_cases hblank : Blank text
  · exact (if_pos (hempty.mpr hblank)).trans (if_pos hblank).symm
  · exact (if_neg (mt hempty.mp hblank)).trans (if_neg hblank).symm

theorem judgeLine_blank (l : Line) (h : Blank l.text) (n : Nat) :
    judgeLine l.bytes (some n) = .done n := by
  rw [Line.bytes, judgeLine_encode, if_pos (h.append l.ending.blank)]

theorem judgeLine_shown (l : Line) (h : ¬ Blank l.text) (length : Option Nat) :
    judgeLine l.bytes length =
      match lengthValue? l.text with
      | none => .more length
      | some value =>
        match parseLength? value with
        | some n => .more (some n)
        | none => .fault (.badLength (String.ofList value)) := by
  have hshown : ¬ Blank (l.text ++ l.ending.text) := fun hblank =>
    h fun c hc => hblank c (List.mem_append_left _ hc)
  have hsame : lengthValue? (l.text ++ l.ending.text) = lengthValue? l.text := by
    rw [← lengthValue?_trim, trim_append_blank _ l.ending.blank, lengthValue?_trim]
  rw [Line.bytes, judgeLine_encode, if_neg hshown, hsame]

theorem judgeLine_other (l : Line) (hshown : ¬ Blank l.text) (h : ∀ value, ¬ Names l.text value)
    (length : Option Nat) : judgeLine l.bytes length = .more length := by
  rw [judgeLine_shown l hshown, lengthValue?_of_not_names h]

/-- A line that gives a length sets it, whatever was given before. -/
theorem judgeLine_gives (l : Line) {n : Nat} (h : Gives l.text n) (length : Option Nat) :
    judgeLine l.bytes length = .more (some n) := by
  obtain ⟨value, hnames, hnumeral, hlt⟩ := h
  have hfound := lengthValue?_of_names hnames
  rw [judgeLine_shown l (not_blank_of_names hnames), hfound]
  simp only [parseLength?_numeral hnumeral hlt]

/-! ## from line to line -/

theorem readHeader_bytes (ended : Bool) (front : Bytes) (h : newline ∉ front) (line : Bytes)
    (length : Option Nat) (started : Bool) (rest : Bytes) :
    readHeader ended line length started (front ++ newline :: rest) =
      match judgeLine (line.reverse ++ front ++ [newline]) length with
      | .more length => readHeader ended [] length true rest
      | .done n => .done n rest
      | .fault fault => .fault fault := by
  induction front generalizing line started with
  | nil =>
    have hline : line.reverse ++ [] ++ [newline] = (newline :: line).reverse := by
      rw [List.append_nil, List.reverse_cons]
    rw [List.nil_append, hline, readHeader]
    exact if_pos rfl
  | cons b front ih =>
    have hb : b ≠ newline := fun e => h (e ▸ List.mem_cons_self)
    rw [List.cons_append, readHeader, if_neg hb,
      ih (fun hm => h (List.mem_cons_of_mem b hm)), List.reverse_cons, List.append_assoc,
      List.append_assoc, List.append_assoc]
    rfl

theorem readHeader_line (ended : Bool) (l : Line) (length : Option Nat) (started : Bool)
    (rest : Bytes) :
    readHeader ended [] length started (l.bytes ++ rest) =
      match judgeLine l.bytes length with
      | .more length => readHeader ended [] length true rest
      | .done n => .done n rest
      | .fault fault => .fault fault := by
  obtain ⟨front, hfront, e⟩ := l.exists_bytes
  rw [e, List.append_assoc, List.singleton_append, readHeader_bytes ended front hfront,
    List.reverse_nil, List.nil_append]

end CodeBridge.Frame
