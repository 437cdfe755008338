import CodeBridge.Json.Parser
import CodeBridge.Json.Printer
import CodeBridge.Proofs.Text.Encoding

/-!
# Written scalars are read back

`Reads` says of a reader that it takes just the bytes that were written and returns what was
written, whatever stands before them.  It holds

* of integers (`reads_int`), where what follows does not continue the number (`Ends`);
* of texts (`reads_text`): every character is written so that it is read back (`reads_char`), as
  itself or as an escape, and the closing quote is the only bare quote.
-/

namespace CodeBridge.Json

/-- Reading takes the bytes `written`, gives `x` and stops before `rest`. -/
def Reads {α : Type} (read : Cursor → Except Fault (α × Cursor)) (written : Bytes) (x : α)
    (rest : Bytes) : Prop :=
  ∀ i, ∃ j, read ⟨written ++ rest, i⟩ = .ok (x, ⟨rest, j⟩)

/-! ## integers -/

/-- What follows does not continue a number. -/
def Ends (rest : Bytes) : Prop :=
  ∀ b ∈ rest.head?, isDigit b = false ∧ b ≠ 0x2E ∧ b ≠ 0x65 ∧ b ≠ 0x45

theorem ends_nil : Ends [] := fun _ h => nomatch h

theorem ends_cons {b : UInt8} (rest : Bytes)
    (h : isDigit b = false ∧ b ≠ 0x2E ∧ b ≠ 0x65 ∧ b ≠ 0x45) : Ends (b :: rest) :=
  fun _ hc => Option.some.inj hc ▸ h

theorem isDigit_bounds {c : Char} (h : c.isDigit = true) : 48 ≤ c.toNat ∧ c.toNat ≤ 57 := by
  simp only [Char.isDigit, Bool.and_eq_true, decide_eq_true_eq] at h
  exact h

theorem isDigit_byte {c : Char} (h : c.isDigit = true) : isDigit (Utf8.byte c) = true := by
  have hb := isDigit_bounds h
  exact (Utf8.between_byte c.toNat (by omega) 0x30 0x39).mpr hb

theorem digitValue_byte {c : Char} (h : c.isDigit = true) :
    digitValue (Utf8.byte c) = c.toNat - '0'.toNat := by
  have hb := isDigit_bounds h
  unfold digitValue Utf8.byte
  rw [Utf8.toNat_byte c.toNat (by omega)]
  rfl

theorem le_ofDigitChars (ds : List Char) (value : Nat) : value ≤ Nat.ofDigitChars 10 ds value := by
  induction ds generalizing value with
  | nil => exact Nat.le_of_eq Nat.ofDigitChars_nil.symm
  | cons d ds ih =>
    have h := ih (10 * value + (d.toNat - '0'.toNat))
    rw [Nat.ofDigitChars_cons]
    omega

theorem takeDigits_written (limit : Nat) (ds : List Char) (rest : Bytes) (value count : Nat)
    (hdigits : ∀ c ∈ ds, c.isDigit = true) (hle : Nat.ofDigitChars 10 ds value ≤ limit)
    (hrest : ∀ b ∈ rest.head?, isDigit b = false) :
    takeDigits limit (ds.map Utf8.byte ++ rest) value count =
      (Nat.ofDigitChars 10 ds value, count + ds.length, rest) := by
  induction ds generalizing value count with
  | nil =>
    rw [Nat.ofDigitChars_nil]
    cases rest with
    | nil => rfl
    | cons b rest =>
      rw [List.map_nil, List.nil_append, takeDigits, hrest b rfl, Bool.false_and]
      rfl
  | cons d ds ih =>
    have hd : d.isDigit = true := hdigits d List.mem_cons_self
    have hvalue : value * 10 + digitValue (Utf8.byte d) = 10 * value + (d.toNat - '0'.toNat) := by
      rw [digitValue_byte hd, Nat.mul_comm]
    rw [Nat.ofDigitChars_cons] at hle ⊢
    have hstep := Nat.le_trans (le_ofDigitChars ds _) hle
    rw [List.map_cons, List.cons_append, takeDigits, isDigit_byte hd, hvalue, Bool.true_and,
      decide_eq_true hstep, if_pos rfl,
      ih _ _ (fun c hc => hdigits c (List.mem_cons_of_mem d hc)) hle, List.length_cons]
    congr 2
    omega

theorem digits_written (limit : Nat) (ds : List Char) (rest : Bytes) (i : Nat)
    (hdigits : ∀ c ∈ ds, c.isDigit = true) (hle : Nat.ofDigitChars 10 ds 0 ≤ limit)
    (hrest : ∀ b ∈ rest.head?, isDigit b = false) :
    (⟨ds.map Utf8.byte ++ rest, i⟩ : Cursor).digits limit 0 =
      (Nat.ofDigitChars 10 ds 0, 0 + ds.length, ⟨rest, i + (0 + ds.length)⟩) := by
  unfold Cursor.digits
  rw [takeDigits_written limit ds rest 0 0 hdigits hle hrest]

theorem exists_digits (n : Nat) (h : 0 < n) :
    ∃ d ds, Nat.toDigits 10 n = d :: ds ∧ d ≠ '0' := by
  induction n using Nat.strongRecOn with
  | ind n ih =>
    rcases Nat.lt_or_ge n 10 with hlt | hge
    · have hall : ∀ m < 10, 0 < m → Nat.digitChar m ≠ '0' := by decide
      exact ⟨n.digitChar, [], Nat.toDigits_of_lt_base hlt, hall n hlt h⟩
    · obtain ⟨d, ds, e, hd⟩ := ih (n / 10) (by omega) (by omega)
      refine ⟨d, ds ++ [Nat.digitChar (n % 10)], ?_, hd⟩
      rw [Nat.toDigits_of_base_le (by decide) hge, e, List.cons_append]

theorem isDigit_toDigits (n : Nat) : ∀ c ∈ Nat.toDigits 10 n, c.isDigit = true :=
  fun _ hc => Nat.isDigit_of_mem_toDigits (by decide) (by decide) hc

theorem nextIsDigit_ends {rest : Bytes} (h : Ends rest) (i : Nat) :
    nextIsDigit ⟨rest, i⟩ = false := by
  cases rest with
  | nil => rfl
  | cons b rest => exact (h b rfl).1

theorem finishInteger_ends (isNeg : Bool) (n : Nat) {rest : Bytes} (h : Ends rest) (i : Nat) :
    finishInteger isNeg n ⟨rest, i⟩ = .ok (wholeNumber isNeg n, ⟨rest, i⟩) := by
  cases rest with
  | nil => rfl
  | cons b rest =>
    obtain ⟨_, hpoint, he, hE⟩ := h b rfl
    have hp : nextIsPoint ⟨b :: rest, i⟩ = false := decide_eq_false hpoint
    have hx : nextIsExponent ⟨b :: rest, i⟩ = false := by
      unfold nextIsExponent
      simp only [decide_eq_false he, decide_eq_false hE, Bool.or_self]
    unfold finishInteger
    rw [hp, hx]
    rfl

theorem reads_unsigned (isNeg : Bool) (n : Nat) (hn : n ≤ maxWord) {rest : Bytes}
    (h : Ends rest) :
    Reads (readUnsigned isNeg) ((Nat.toDigits 10 n).map Utf8.byte) (wholeNumber isNeg n) rest := by
  intro i
  rcases Nat.eq_zero_or_pos n with rfl | hpos
  · refine ⟨i + 1, ?_⟩
    show (if nextIsDigit ⟨rest, i + 1⟩ = true then _ else finishInteger isNeg 0 ⟨rest, i + 1⟩) = _
    rw [nextIsDigit_ends h, finishInteger_ends isNeg 0 h]
    rfl
  · obtain ⟨d, ds, e, hd⟩ := exists_digits n hpos
    have hdigits := isDigit_toDigits n
    have hvalue : Nat.ofDigitChars 10 (d :: ds) 0 = n := e ▸ Nat.ofDigitChars_ten_toDigits
    rw [e] at hdigits ⊢
    have hd' : d.isDigit = true := hdigits d List.mem_cons_self
    have hbounds := isDigit_bounds hd'
    have hzero : ¬ Utf8.byte d = 0x30 := fun hc => hd <| Char.toNat_inj.mp <|
      (Utf8.byte_eq d.toNat (by omega) 0x30).mp hc
    have htake := digits_written maxWord (d :: ds) rest i hdigits (by rw [hvalue]; exact hn)
      fun b hb => (h b hb).1
    rw [hvalue] at htake
    refine ⟨i + (0 + (d :: ds).length), ?_⟩
    rw [List.map_cons, List.cons_append] at htake ⊢
    simp only [readUnsigned, if_neg hzero, if_pos (isDigit_byte hd'), htake, nextIsDigit_ends h,
      finishInteger_ends isNeg n h]
    rfl

theorem wholeNumber_natAbs (i : Int) (h : InWord i) :
    wholeNumber (decide (i < 0)) i.natAbs = .int i h := by
  have hvalue : (if decide (i < 0) = true then -(i.natAbs : Int) else i.natAbs) = i := by
    by_cases hneg : i < 0
    · rw [if_pos (decide_eq_true hneg)]
      omega
    · rw [if_neg (by rw [decide_eq_false hneg]; exact Bool.false_ne_true)]
      omega
  have hzero : ¬ (decide (i < 0) && i.natAbs = 0) = true := by
    rw [Bool.and_eq_true, decide_eq_true_eq, decide_eq_true_eq]
    omega
  unfold wholeNumber
  simp only [hvalue]
  rw [if_neg hzero, dif_pos h]

theorem readNumber_digit {b : UInt8} (h : isDigit b = true) (bs : Bytes) (i : Nat) :
    readNumber ⟨b :: bs, i⟩ = (readUnsigned false ⟨b :: bs, i⟩).map fun (n, c) => (.num n, c) := by
  unfold readNumber
  split
  next heq =>
    rw [(List.cons.inj heq).1] at h
    exact absurd h (by decide)
  next => rfl

theorem encode_digits (n : Nat) : Utf8.encode (digits n) = (Nat.toDigits 10 n).map Utf8.byte :=
  Utf8.encode_ascii _ fun c hc => by
    have := isDigit_bounds (isDigit_toDigits n c hc)
    omega

theorem exists_digit (n : Nat) : ∃ b bs, Utf8.encode (digits n) = b :: bs ∧ isDigit b = true := by
  rw [encode_digits]
  cases e : Nat.toDigits 10 n with
  | nil => exact absurd e Nat.toDigits_ne_nil
  | cons d ds =>
    have hd : d.isDigit = true := isDigit_toDigits n d (e ▸ List.mem_cons_self)
    exact ⟨Utf8.byte d, ds.map Utf8.byte, rfl, isDigit_byte hd⟩

theorem reads_int (i : Int) (h : InWord i) {rest : Bytes} (hrest : Ends rest) :
    Reads readNumber (Utf8.encode (renderInt i)) (.num (.int i h)) rest := by
  have hle : i.natAbs ≤ maxWord := by
    obtain ⟨h1, h2⟩ := h
    unfold maxWord
    omega
  have hwhole := wholeNumber_natAbs i h
  intro k
  by_cases hneg : i < 0
  · rw [decide_eq_true hneg] at hwhole
    obtain ⟨j, hj⟩ := reads_unsigned true i.natAbs hle hrest (k + 1)
    refine ⟨j, ?_⟩
    rw [renderInt, if_pos hneg, Utf8.encode_cons, encode_digits]
    show (readUnsigned true ⟨(Nat.toDigits 10 i.natAbs).map Utf8.byte ++ rest, k + 1⟩).map _ = _
    rw [hj, hwhole]
    rfl
  · rw [decide_eq_false hneg] at hwhole
    obtain ⟨j, hj⟩ := reads_unsigned false i.natAbs hle hrest k
    obtain ⟨b, bs, e, hb⟩ := exists_digit i.natAbs
    refine ⟨j, ?_⟩
    rw [← encode_digits, e, List.cons_append] at hj
    rw [renderInt, if_neg hneg, e, List.cons_append, readNumber_digit hb, hj, hwhole]
    rfl

/-! ## characters of a text -/

/-- Inside a text the bytes `written` stand for the bytes `meant`, and reading goes on after
them. -/
def StandsFor (written meant : Bytes) : Prop :=
  ∃ steps ≤ written.length, ∀ fuel i tail, ∃ j,
    readTextBytes (steps + fuel) ⟨written ++ tail, i⟩ =
      (readTextBytes fuel ⟨tail, j⟩).map fun r => (meant ++ r.1, r.2)

theorem standsFor_nil : StandsFor [] [] := by
  refine ⟨0, Nat.le_refl 0, fun fuel i tail => ⟨i, ?_⟩⟩
  rw [Nat.zero_add, List.nil_append]
  cases readTextBytes fuel ⟨tail, i⟩ <;> rfl

theorem StandsFor.append {written meant written' meant' : Bytes} (h : StandsFor written meant)
    (h' : StandsFor written' meant') : StandsFor (written ++ written') (meant ++ meant') := by
  obtain ⟨m, hm, hread⟩ := h
  obtain ⟨m', hm', hread'⟩ := h'
  refine ⟨m + m', by rw [List.length_append]; omega, fun fuel i tail => ?_⟩
  obtain ⟨j, hj⟩ := hread (m' + fuel) i (written' ++ tail)
  obtain ⟨j', hj'⟩ := hread' fuel j tail
  refine ⟨j', ?_⟩
  rw [Nat.add_assoc, List.append_assoc, hj, hj']
  cases readTextBytes fuel ⟨tail, j'⟩ with
  | error fault => rfl
  | ok r => simp only [Except.map, List.append_assoc]

/-- A byte that is neither a quote nor a backslash nor a control character stands for itself. -/
theorem standsFor_byte (b : UInt8) (hquote : b ≠ 0x22) (hback : b ≠ 0x5C) (hcontrol : ¬ b < 0x20) :
    StandsFor [b] [b] := by
  refine ⟨1, Nat.le_refl 1, fun fuel i tail => ⟨i + 1, ?_⟩⟩
  rw [Nat.add_comm 1 fuel, List.singleton_append]
  simp only [readTextBytes, if_neg hquote, if_neg hback, if_neg hcontrol]
  show (readTextBytes fuel ⟨tail, i + 1⟩ >>= _) = _
  cases readTextBytes fuel ⟨tail, i + 1⟩ <;> rfl

theorem standsFor_high (bs : Bytes) (h : ∀ b ∈ bs, 0x80 ≤ b) : StandsFor bs bs := by
  induction bs with
  | nil => exact standsFor_nil
  | cons b bs ih =>
    have hb : 0x80 ≤ b := h b List.mem_cons_self
    have hne (c : UInt8) (hc : ¬ 0x80 ≤ c) : b ≠ c := fun e => hc (e ▸ hb)
    have hone : StandsFor [b] [b] :=
      standsFor_byte b (hne _ (by decide)) (hne _ (by decide)) fun hlt =>
        absurd (UInt8.lt_of_le_of_lt hb hlt) (by decide)
    exact hone.append (ih fun c hc => h c (List.mem_cons_of_mem b hc))

/-- What an escape reads as is what it stands for, behind a backslash. -/
theorem standsFor_escape (written meant : Bytes) (h : ∀ tail, Reads readEscape written meant tail) :
    StandsFor (0x5C :: written) meant := by
  refine ⟨1, by rw [List.length_cons]; omega, fun fuel i tail => ?_⟩
  obtain ⟨j, hj⟩ := h tail (i + 1)
  refine ⟨j, ?_⟩
  rw [Nat.add_comm 1 fuel, List.cons_append]
  show (readEscape ⟨written ++ tail, i + 1⟩ >>= _) = _
  rw [hj]
  show (readTextBytes fuel ⟨tail, j⟩ >>= _) = _
  cases readTextBytes fuel ⟨tail, j⟩ <;> rfl

/-- The escape by code of a control character. -/
theorem reads_control (n : Nat) (h : n < 0x20) (tail : Bytes) :
    Reads readEscape
      [0x75, 0x30, 0x30, Utf8.byte (hexDigit (n / 16)), Utf8.byte (hexDigit (n % 16))]
      (Utf8.encode [Char.ofNat n]) tail := by
  have hhex : ∀ m < 16, hexValue (Utf8.byte (hexDigit m)) = some m := by decide
  have hvalue : ((0 * 16 + 0) * 16 + n / 16) * 16 + n % 16 = n := by omega
  have htrailing : isTrailing n = false := by
    rw [isTrailing, decide_eq_false (by omega), Bool.false_and]
  have hleading : isLeading n = false := by
    rw [isLeading, decide_eq_false (by omega), Bool.false_and]
  intro i
  have hfour : readHex ⟨0x30 :: 0x30 :: Utf8.byte (hexDigit (n / 16)) ::
      Utf8.byte (hexDigit (n % 16)) :: tail, i + 1⟩ = .ok (n, ⟨tail, i + 1 + 4⟩) := by
    have hzero : hexValue 0x30 = some 0 := by decide
    have hskip : (⟨0x30 :: 0x30 :: Utf8.byte (hexDigit (n / 16)) ::
        Utf8.byte (hexDigit (n % 16)) :: tail, i + 1⟩ : Cursor).skipMany 4 = ⟨tail, i + 1 + 4⟩ := by
      simp [Cursor.skipMany]
    simp only [readHex, hzero, hhex (n / 16) (by omega), hhex (n % 16) (by omega), hvalue, hskip]
  refine ⟨i + 1 + 4, ?_⟩
  show readUnicode ⟨0x30 :: 0x30 :: Utf8.byte (hexDigit (n / 16)) ::
    Utf8.byte (hexDigit (n % 16)) :: tail, i + 1⟩ = _
  rw [readUnicode, hfour]
  show (if isTrailing n = true then _ else if isLeading n = true then _ else _) = _
  rw [htrailing, hleading]
  rfl

theorem encode_one (c : Char) : Utf8.encode [c] = String.utf8EncodeChar c := by
  rw [Utf8.encode_cons, Utf8.encode_nil, List.append_nil]

theorem reads_char (c : Char) : StandsFor (Utf8.encode (escape c)) (String.utf8EncodeChar c) := by
  unfold escape
  split
  next h => subst h; exact standsFor_escape [0x22] [0x22] fun _ i => ⟨i + 1, rfl⟩
  split
  next h => subst h; exact standsFor_escape [0x5C] [0x5C] fun _ i => ⟨i + 1, rfl⟩
  split
  next h => subst h; exact standsFor_escape [0x6E] [0x0A] fun _ i => ⟨i + 1, rfl⟩
  split
  next h => subst h; exact standsFor_escape [0x72] [0x0D] fun _ i => ⟨i + 1, rfl⟩
  split
  next h => subst h; exact standsFor_escape [0x74] [0x09] fun _ i => ⟨i + 1, rfl⟩
  split
  next h => subst h; exact standsFor_escape [0x62] [0x08] fun _ i => ⟨i + 1, rfl⟩
  split
  next h => subst h; exact standsFor_escape [0x66] [0x0C] fun _ i => ⟨i + 1, rfl⟩
  split
  next hcontrol =>
    have hhex : ∀ m < 16, (hexDigit m).toNat ≤ 0x7F := by decide
    have hbytes : Utf8.encode ['\\', 'u', '0', '0', hexDigit (c.toNat / 16), hexDigit (c.toNat % 16)] =
        0x5C :: [0x75, 0x30, 0x30, Utf8.byte (hexDigit (c.toNat / 16)),
          Utf8.byte (hexDigit (c.toNat % 16))] := by
      rw [Utf8.encode_ascii _ fun d hd => ?_]
      · rfl
      · have h1 := hhex (c.toNat / 16) (by omega)
        have h2 := hhex (c.toNat % 16) (by omega)
        simp only [List.mem_cons, List.not_mem_nil, or_false] at hd
        rcases hd with rfl | rfl | rfl | rfl | rfl | rfl
        · decide
        · decide
        · decide
        · decide
        · exact h1
        · exact h2
    have hread := reads_control c.toNat hcontrol
    rw [Char.ofNat_toNat, encode_one] at hread
    rw [hbytes]
    exact standsFor_escape _ _ hread
  next hquote hback _ _ _ _ _ hcontrol =>
    rw [encode_one]
    rcases Nat.lt_or_ge 0x7F c.toNat with hhigh | hlow
    · exact standsFor_high _ (Utf8.high_of_mem c hhigh)
    · have hne (d : Char) (hd : c ≠ d) (b : UInt8) (hb : b.toNat = d.toNat) :
          UInt8.ofNat c.toNat ≠ b := fun e =>
        hd (Char.toNat_inj.mp (((Utf8.byte_eq c.toNat (by omega) b).mp e).trans hb))
      rw [Utf8.encodeChar_one c hlow]
      exact standsFor_byte _ (hne '"' hquote 0x22 rfl) (hne '\\' hback 0x5C rfl) fun hlt =>
        hcontrol ((Utf8.lt_byte c.toNat (by omega) 0x20).mp hlt)

theorem reads_chars (cs : List Char) :
    StandsFor (Utf8.encode (cs.flatMap escape)) (Utf8.encode cs) := by
  induction cs with
  | nil => exact standsFor_nil
  | cons c cs ih =>
    rw [List.flatMap_cons, Utf8.encode_append, Utf8.encode_cons]
    exact (reads_char c).append ih

/-! ## texts -/

theorem encode_quoted (cs : List Char) :
    Utf8.encode (quoted cs) = 0x22 :: (Utf8.encode (cs.flatMap escape) ++ [0x22]) := by
  rw [quoted, Utf8.encode_cons, Utf8.encode_append]
  rfl

theorem reads_text (s : String) (rest : Bytes) :
    Reads readText (Utf8.encode (s.toList.flatMap escape) ++ [0x22]) s rest := by
  intro i
  obtain ⟨steps, hsteps, hread⟩ := reads_chars s.toList
  generalize Utf8.encode (s.toList.flatMap escape) = written at hsteps hread ⊢
  rw [List.append_assoc, List.singleton_append]
  obtain ⟨fuel, hfuel⟩ : ∃ fuel, (written ++ 0x22 :: rest).length + 1 = steps + (fuel + 1) := by
    refine ⟨(written ++ 0x22 :: rest).length - steps, ?_⟩
    rw [List.length_append, List.length_cons]
    omega
  obtain ⟨j, hj⟩ := hread (fuel + 1) i (0x22 :: rest)
  have hquote : readTextBytes (fuel + 1) ⟨0x22 :: rest, j⟩ = .ok ([], ⟨0x22 :: rest, j⟩) := rfl
  have hutf8 : Utf8.text? (Utf8.encode s.toList) = some s := Utf8.text?_ofString s
  rw [hquote, Except.map, List.append_nil] at hj
  refine ⟨j + 1, ?_⟩
  rw [readText, hfuel, hj]
  dsimp only [bind, Except.bind]
  rw [hutf8]
  rfl

end CodeBridge.Json
