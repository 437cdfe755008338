import CodeBridge.Proofs.Text.Encoding

/-!
# What is read as UTF-8 was written so

The bytes of a character read so far (`Pending.bytes`) are the start of one (`Pending.Held`), and
what a byte makes of them is said by `feed_cases`: they are a character now, or still the start of
one, or nothing that any text contains.

* `encode_char1` to `encode_char4`   a character that is made of bytes is written as those bytes;
* `encode_of_decode`                 bytes that read as a text are the bytes of that text;
* `decode_eq_ok_iff`                 so a text is read from its own bytes and from no others.
-/

namespace CodeBridge.Utf8

/-! ## characters made of bytes -/

theorem toNat_ofNat {n : Nat} (h : n < 0xD800 ∨ 0xDFFF < n ∧ n < 0x110000) :
    (Char.ofNat n).toNat = n := by
  unfold Char.ofNat
  rw [dif_pos h]
  rfl

theorem between_iff (low high b : UInt8) :
    (low ≤ b && b ≤ high) = true ↔ low.toNat ≤ b.toNat ∧ b.toNat ≤ high.toNat := by
  simp [UInt8.le_iff_toNat_le]

theorem continuation_low {b : UInt8} (h : isContinuation b = true) (n : Nat)
    (hn : n % 64 = low b) : continuation n = b := by
  have hb : 0x80 ≤ b.toNat ∧ b.toNat ≤ 0xBF := (between_iff 0x80 0xBF b).mp h
  unfold low at hn
  refine (byte_eq _ ?_ b).mpr ?_ <;> omega

theorem low_lt (b : UInt8) : low b < 64 := Nat.mod_lt _ (by decide)

theorem encode_char1 {a : UInt8} (h : a < 0x80) :
    String.utf8EncodeChar (Char.ofNat a.toNat) = [a] := by
  have ha : a.toNat < 0x80 := UInt8.lt_iff_toNat_lt.mp h
  have hc : (Char.ofNat a.toNat).toNat = a.toNat := toNat_ofNat (by omega)
  rw [encodeChar_one _ (by omega), hc, UInt8.ofNat_toNat]

theorem encode_char2 {a b : UInt8} (ha : 0xC2 ≤ a) (ha' : a < 0xE0)
    (hb : isContinuation b = true) : String.utf8EncodeChar (char2 a b) = [a, b] := by
  have h1 : 0xC2 ≤ a.toNat := UInt8.le_iff_toNat_le.mp ha
  have h2 : a.toNat < 0xE0 := UInt8.lt_iff_toNat_lt.mp ha'
  have hlow := low_lt b
  have hc : (char2 a b).toNat = a.toNat % 32 * 64 + low b := toNat_ofNat (by omega)
  rw [encodeChar_two _ (by omega) (by omega), hc, continuation_low hb _ (by omega),
    (byte_eq _ (by omega) a).mpr (by omega)]

/-- A second byte is a continuation byte that keeps the character within its bounds. -/
theorem bounds_of_secondOk {a b : UInt8} (h : secondOk a b = true) :
    isContinuation b = true ∧ (a.toNat = 0xE0 → 32 ≤ low b) ∧ (a.toNat = 0xED → low b < 32) ∧
      (a.toNat = 0xF0 → 16 ≤ low b) ∧ (a.toNat = 0xF4 → low b < 16) := by
  unfold secondOk at h
  unfold isContinuation at h ⊢
  unfold low
  simp only [← UInt8.toNat_inj, between_iff, UInt8.reduceToNat] at h ⊢
  -- whichever lead byte it follows, its bounds are bounds on its number
  (repeat' split at h) <;> simp only [between_iff, UInt8.reduceToNat] at h <;> omega

theorem encode_char3 {a b c : UInt8} (ha : ¬ a < 0xE0) (ha' : a < 0xF0)
    (hb : secondOk a b = true) (hc : isContinuation c = true) :
    String.utf8EncodeChar (char3 a b c) = [a, b, c] := by
  have h1 : ¬ a.toNat < 0xE0 := fun h => ha (UInt8.lt_iff_toNat_lt.mpr h)
  have h2 : a.toNat < 0xF0 := UInt8.lt_iff_toNat_lt.mp ha'
  obtain ⟨hb', he0, hed, _, _⟩ := bounds_of_secondOk hb
  have hlow := low_lt b
  have hlow' := low_lt c
  have hn : (char3 a b c).toNat = (a.toNat % 16 * 64 + low b) * 64 + low c :=
    toNat_ofNat (by omega)
  rw [encodeChar_three _ (by omega) (by omega), hn, continuation_low hb' _ (by omega),
    continuation_low hc _ (by omega), (byte_eq _ (by omega) a).mpr (by omega)]

theorem encode_char4 {a b c d : UInt8} (ha : ¬ a < 0xF0) (ha' : a ≤ 0xF4)
    (hb : secondOk a b = true) (hc : isContinuation c = true) (hd : isContinuation d = true) :
    String.utf8EncodeChar (char4 a b c d) = [a, b, c, d] := by
  have h1 : ¬ a.toNat < 0xF0 := fun h => ha (UInt8.lt_iff_toNat_lt.mpr h)
  have h2 : a.toNat ≤ 0xF4 := UInt8.le_iff_toNat_le.mp ha'
  obtain ⟨hb', _, _, hf0, hf4⟩ := bounds_of_secondOk hb
  have hlow := low_lt b
  have hlow' := low_lt c
  have hlow'' := low_lt d
  have hn : (char4 a b c d).toNat = ((a.toNat % 8 * 64 + low b) * 64 + low c) * 64 + low d :=
    toNat_ofNat (by omega)
  rw [encodeChar_four _ (by omega), hn, continuation_low hb' _ (by omega),
    continuation_low hc _ (by omega), continuation_low hd _ (by omega),
    (byte_eq _ (by omega) a).mpr (by omega)]

/-! ## bytes read so far -/

def Pending.bytes : Pending → Bytes
  | .idle => []
  | .one a => [a]
  | .two a b => [a, b]
  | .three a b c => [a, b, c]

/-- The bytes are the start of a character and not the whole of it. -/
def Pending.Held : Pending → Prop
  | .idle => True
  | .one a => 0xC2 ≤ a ∧ a ≤ 0xF4
  | .two a b => ¬ a < 0xE0 ∧ a ≤ 0xF4 ∧ secondOk a b = true
  | .three a b c => ¬ a < 0xF0 ∧ a ≤ 0xF4 ∧ secondOk a b = true ∧ isContinuation c = true

inductive Fed (p : Pending) (b : UInt8) : List Piece × Pending → Prop where
  | char (c : Char) (h : String.utf8EncodeChar c = p.bytes ++ [b]) : Fed p b ([.char c], .idle)
  | more (p' : Pending) (held : p'.Held) (h : p'.bytes = p.bytes ++ [b]) : Fed p b ([], p')
  | fault (n : Nat) (ps : List Piece) (p' : Pending) : Fed p b (.invalid n :: ps, p')

theorem fed_lead (b : UInt8) : Fed .idle b (lead b) := by
  unfold lead
  split
  next h => exact .char _ (encode_char1 h)
  split
  next h =>
    have hb : 0xC2 ≤ b ∧ b ≤ 0xF4 := by simpa using h
    exact .more (.one b) hb rfl
  · exact .fault 1 [] .idle

theorem feed_cases (p : Pending) (held : p.Held) (b : UInt8) : Fed p b (feed p b) := by
  cases p with
  | idle => exact fed_lead b
  | one a =>
    obtain ⟨hlow, hhigh⟩ := held
    rw [feed]
    split
    next ha =>
      split
      next hb => exact .char _ (encode_char2 hlow ha hb)
      next => exact .fault 1 _ _
    next ha =>
      split
      next hb => exact .more (.two a b) ⟨ha, hhigh, hb⟩ rfl
      next => exact .fault 1 _ _
  | two a b' =>
    obtain ⟨hlow, hhigh, hsecond⟩ := held
    rw [feed]
    split
    next hb =>
      split
      next ha => exact .char _ (encode_char3 hlow ha hsecond hb)
      next ha => exact .more (.three a b' b) ⟨ha, hhigh, hsecond, hb⟩ rfl
    next => exact .fault 2 _ _
  | three a b' c =>
    obtain ⟨hlow, hhigh, hsecond, hthird⟩ := held
    rw [feed]
    split
    next hb => exact .char _ (encode_char4 hlow hhigh hsecond hthird hb)
    next => exact .fault 3 _ _

/-! ## texts -/

theorem encode_of_collect {bs : Bytes} {p : Pending} (held : p.Held) {index : Nat}
    {cs : List Char} (h : collect index (scanFrom p bs) = .ok cs) :
    encode cs = p.bytes ++ bs := by
  induction bs generalizing p index cs with
  | nil =>
    cases p with
    | idle =>
      obtain rfl := Except.ok.inj h
      rfl
    | one | two | three => cases h
  | cons b bs ih =>
    rw [scanFrom_cons] at h
    have hfed := feed_cases p held b
    generalize feed p b = fed at h hfed
    cases hfed with
    | char c hc =>
      rw [List.singleton_append, collect] at h
      cases hrest : collect (index + c.utf8Size) (scanFrom .idle bs) with
      | error fault => rw [hrest] at h; cases h
      | ok rest =>
        rw [hrest] at h
        obtain rfl : c :: rest = cs := Except.ok.inj h
        rw [encode_cons, hc, ih (p := .idle) trivial hrest, List.append_assoc]
        rfl
    | more p' held' hp =>
      rw [ih held' h, hp, List.append_assoc]
      rfl
    | fault n ps p' => cases h

theorem encode_of_decode {bs : Bytes} {cs : List Char} (h : decode bs = .ok cs) :
    encode cs = bs := encode_of_collect (p := .idle) trivial h

/-- **A text is read from its own bytes and from no others.** -/
theorem decode_eq_ok_iff {bs : Bytes} {cs : List Char} : decode bs = .ok cs ↔ bs = encode cs :=
  ⟨fun h => (encode_of_decode h).symm, fun h => h ▸ decode_encode cs⟩

theorem text?_eq_some (bs : Bytes) (s : String) : text? bs = some s ↔ bs = encode s.toList := by
  rw [← decode_eq_ok_iff]
  unfold text?
  cases decode bs with
  | error fault => exact ⟨nofun, nofun⟩
  | ok cs =>
    rw [Option.some.injEq, Except.ok.injEq]
    exact ⟨fun h => h ▸ String.toList_ofList.symm, fun h => h ▸ String.ofList_toList⟩

end CodeBridge.Utf8
