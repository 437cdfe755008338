import CodeBridge.Text.Utf8

/-!
# What is written in UTF-8 is read back

`feed` goes through the bytes of one character and comes out idle, so a scan cuts encoded text
into just its characters:

* `scan_encode`     the pieces of encoded text;
* `decode_encode`   encoded text is well formed, and reads as what was written;
* `encode_ascii`    characters below U+0080 are their own bytes;
* `high_of_mem`     a character from U+0080 on has no byte below 0x80;
* `mem_of_byte_mem` so a byte such as a line end is that character and nothing else.
-/

namespace CodeBridge.Utf8

/-! ## bytes as numbers -/

theorem toNat_byte (n : Nat) (h : n < 256) : (UInt8.ofNat n).toNat = n := by
  rw [UInt8.toNat_ofNat']
  omega

theorem lt_byte (n : Nat) (h : n < 256) (bound : UInt8) :
    UInt8.ofNat n < bound ↔ n < bound.toNat := by
  rw [UInt8.lt_iff_toNat_lt, toNat_byte n h]

theorem byte_eq (n : Nat) (h : n < 256) (b : UInt8) : UInt8.ofNat n = b ↔ n = b.toNat := by
  rw [← UInt8.toNat_inj, toNat_byte n h]

theorem between_byte (n : Nat) (h : n < 256) (low high : UInt8) :
    (low ≤ UInt8.ofNat n && UInt8.ofNat n ≤ high) = true ↔ low.toNat ≤ n ∧ n ≤ high.toNat := by
  rw [Bool.and_eq_true, decide_eq_true_eq, decide_eq_true_eq, UInt8.le_iff_toNat_le,
    UInt8.le_iff_toNat_le, toNat_byte n h]

/-! ## lead bytes and continuation bytes -/

theorem lead_ascii (n : Nat) (h : n < 0x80) :
    lead (UInt8.ofNat n) = ([.char (Char.ofNat n)], .idle) := by
  unfold lead
  rw [if_pos ((lt_byte n (by omega) 0x80).mpr h), toNat_byte n (by omega)]

theorem lead_longer (n : Nat) (hl : 0xC2 ≤ n) (hu : n ≤ 0xF4) :
    lead (UInt8.ofNat n) = ([], .one (UInt8.ofNat n)) := by
  have h : ¬ n < 0x80 := by omega
  unfold lead
  rw [if_neg fun hb => h ((lt_byte n (by omega) 0x80).mp hb),
    if_pos ((between_byte n (by omega) 0xC2 0xF4).mpr ⟨hl, hu⟩)]

def continuation (n : Nat) : UInt8 := UInt8.ofNat (n % 64 + 0x80)

theorem isContinuation_continuation (n : Nat) : isContinuation (continuation n) = true := by
  have h : n % 64 < 64 := Nat.mod_lt n (by decide)
  exact (between_byte (n % 64 + 0x80) (by omega) 0x80 0xBF).mpr
    ⟨Nat.le_add_left 0x80 (n % 64), by show n % 64 + 0x80 ≤ 0xBF; omega⟩

theorem low_continuation (n : Nat) : low (continuation n) = n % 64 := by
  unfold low continuation
  rw [toNat_byte (n % 64 + 0x80) (by omega)]
  omega

/-- The bounds on a second byte are bounds on the six bits in it. -/
theorem secondOk_continuation (a n : Nat) (ha : a < 256) (h0 : a = 0xE0 → 32 ≤ n % 64)
    (hd : a = 0xED → n % 64 < 32) (hf : a = 0xF0 → 16 ≤ n % 64) (h4 : a = 0xF4 → n % 64 < 16) :
    secondOk (UInt8.ofNat a) (continuation n) = true := by
  have hb : n % 64 + 0x80 < 256 := by omega
  unfold secondOk
  simp only [byte_eq a ha]
  split
  next e =>
    have := h0 e
    exact (between_byte _ hb 0xA0 0xBF).mpr ⟨by show 160 ≤ _; omega, by show _ ≤ 191; omega⟩
  split
  next e =>
    have := hd e
    exact (between_byte _ hb 0x80 0x9F).mpr ⟨by show 128 ≤ _; omega, by show _ ≤ 159; omega⟩
  split
  next e =>
    have := hf e
    exact (between_byte _ hb 0x90 0xBF).mpr ⟨by show 144 ≤ _; omega, by show _ ≤ 191; omega⟩
  split
  next e =>
    have := h4 e
    exact (between_byte _ hb 0x80 0x8F).mpr ⟨by show 128 ≤ _; omega, by show _ ≤ 143; omega⟩
  · exact isContinuation_continuation n

/-! ## one character -/

theorem toNat_valid (c : Char) : c.toNat < 0xD800 ∨ 0xDFFF < c.toNat ∧ c.toNat < 0x110000 := c.valid

theorem encodeChar_one (c : Char) (h : c.toNat ≤ 0x7F) :
    String.utf8EncodeChar c = [UInt8.ofNat c.toNat] := if_pos h

theorem encodeChar_two (c : Char) (hl : 0x7F < c.toNat) (h : c.toNat ≤ 0x7FF) :
    String.utf8EncodeChar c =
      [UInt8.ofNat (c.toNat / 64 % 0x20 + 0xC0), continuation c.toNat] :=
  (if_neg (Nat.not_le.mpr hl)).trans (if_pos h)

theorem encodeChar_three (c : Char) (hl : 0x7FF < c.toNat) (h : c.toNat ≤ 0xFFFF) :
    String.utf8EncodeChar c =
      [UInt8.ofNat (c.toNat / 4096 % 0x10 + 0xE0), continuation (c.toNat / 64),
        continuation c.toNat] :=
  (if_neg (by show ¬ c.toNat ≤ 0x7F; omega)).trans ((if_neg (Nat.not_le.mpr hl)).trans (if_pos h))

theorem encodeChar_four (c : Char) (hl : 0xFFFF < c.toNat) :
    String.utf8EncodeChar c =
      [UInt8.ofNat (c.toNat / 262144 % 0x08 + 0xF0), continuation (c.toNat / 4096),
        continuation (c.toNat / 64), continuation c.toNat] :=
  (if_neg (by show ¬ c.toNat ≤ 0x7F; omega)).trans
    ((if_neg (by show ¬ c.toNat ≤ 0x7FF; omega)).trans (if_neg (Nat.not_le.mpr hl)))

theorem scanFrom_cons (p : Pending) (b : UInt8) (bs : Bytes) :
    scanFrom p (b :: bs) = (feed p b).1 ++ scanFrom (feed p b).2 bs := rfl

theorem feed_idle (b : UInt8) : feed .idle b = lead b := rfl

theorem scanFrom_one (c : Char) (rest : Bytes) (h : c.toNat ≤ 0x7F) :
    scanFrom .idle (String.utf8EncodeChar c ++ rest) = .char c :: scanFrom .idle rest := by
  rw [encodeChar_one c h, List.singleton_append, scanFrom_cons, feed_idle, lead_ascii c.toNat (by omega),
    Char.ofNat_toNat]
  rfl

theorem scanFrom_two (c : Char) (rest : Bytes) (hl : 0x7F < c.toNat) (h : c.toNat ≤ 0x7FF) :
    scanFrom .idle (String.utf8EncodeChar c ++ rest) = .char c :: scanFrom .idle rest := by
  have hc := encodeChar_two c hl h
  generalize ha : c.toNat / 64 % 0x20 + 0xC0 = a at hc
  have hlead : UInt8.ofNat a < 0xE0 := (lt_byte a (by omega) 0xE0).mpr (by show a < 224; omega)
  have hchar : char2 (UInt8.ofNat a) (continuation c.toNat) = c := by
    have e : a % 32 * 64 + c.toNat % 64 = c.toNat := by omega
    unfold char2
    rw [low_continuation, toNat_byte a (by omega), e, Char.ofNat_toNat]
  have hlast : feed (.one (UInt8.ofNat a)) (continuation c.toNat) = ([.char c], .idle) := by
    rw [feed, if_pos hlead, if_pos (isContinuation_continuation _), hchar]
  rw [hc, List.cons_append, scanFrom_cons, feed_idle, lead_longer a (by omega) (by omega),
    List.singleton_append, scanFrom_cons, hlast]
  rfl

theorem scanFrom_three (c : Char) (rest : Bytes) (hl : 0x7FF < c.toNat) (h : c.toNat ≤ 0xFFFF) :
    scanFrom .idle (String.utf8EncodeChar c ++ rest) = .char c :: scanFrom .idle rest := by
  have hc := encodeChar_three c hl h
  have hv := toNat_valid c
  generalize ha : c.toNat / 4096 % 0x10 + 0xE0 = a at hc
  have hlead : ¬ UInt8.ofNat a < 0xE0 := fun hlt => by
    have : a < 224 := (lt_byte a (by omega) 0xE0).mp hlt
    omega
  have hthree : UInt8.ofNat a < 0xF0 := (lt_byte a (by omega) 0xF0).mpr (by show a < 240; omega)
  have hsecond : secondOk (UInt8.ofNat a) (continuation (c.toNat / 64)) = true :=
    secondOk_continuation a _ (by omega) (by omega) (by omega) (by omega) (by omega)
  have hchar : char3 (UInt8.ofNat a) (continuation (c.toNat / 64)) (continuation c.toNat) = c := by
    have e : (a % 16 * 64 + c.toNat / 64 % 64) * 64 + c.toNat % 64 = c.toNat := by omega
    unfold char3
    rw [low_continuation, low_continuation, toNat_byte a (by omega), e, Char.ofNat_toNat]
  have hnext : feed (.one (UInt8.ofNat a)) (continuation (c.toNat / 64)) =
      ([], .two (UInt8.ofNat a) (continuation (c.toNat / 64))) := by
    rw [feed, if_neg hlead, if_pos hsecond]
  have hlast : feed (.two (UInt8.ofNat a) (continuation (c.toNat / 64))) (continuation c.toNat) =
      ([.char c], .idle) := by
    rw [feed, if_pos (isContinuation_continuation _), if_pos hthree, hchar]
  rw [hc, List.cons_append, scanFrom_cons, feed_idle, lead_longer a (by omega) (by omega),
    List.cons_append, scanFrom_cons, hnext, List.singleton_append, scanFrom_cons, hlast]
  rfl

theorem scanFrom_four (c : Char) (rest : Bytes) (hl : 0xFFFF < c.toNat) :
    scanFrom .idle (String.utf8EncodeChar c ++ rest) = .char c :: scanFrom .idle rest := by
  have hc := encodeChar_four c hl
  have hv := toNat_valid c
  generalize ha : c.toNat / 262144 % 0x08 + 0xF0 = a at hc
  have hlead : ¬ UInt8.ofNat a < 0xE0 := fun hlt => by
    have : a < 224 := (lt_byte a (by omega) 0xE0).mp hlt
    omega
  have hfour : ¬ UInt8.ofNat a < 0xF0 := fun hlt => by
    have : a < 240 := (lt_byte a (by omega) 0xF0).mp hlt
    omega
  have hsecond : secondOk (UInt8.ofNat a) (continuation (c.toNat / 4096)) = true :=
    secondOk_continuation a _ (by omega) (by omega) (by omega) (by omega) (by omega)
  have hchar : char4 (UInt8.ofNat a) (continuation (c.toNat / 4096)) (continuation (c.toNat / 64))
      (continuation c.toNat) = c := by
    have e : ((a % 8 * 64 + c.toNat / 4096 % 64) * 64 + c.toNat / 64 % 64) * 64 + c.toNat % 64 =
        c.toNat := by omega
    unfold char4
    rw [low_continuation, low_continuation, low_continuation, toNat_byte a (by omega), e,
      Char.ofNat_toNat]
  have hnext : feed (.one (UInt8.ofNat a)) (continuation (c.toNat / 4096)) =
      ([], .two (UInt8.ofNat a) (continuation (c.toNat / 4096))) := by
    rw [feed, if_neg hlead, if_pos hsecond]
  have hthird : feed (.two (UInt8.ofNat a) (continuation (c.toNat / 4096)))
      (continuation (c.toNat / 64)) =
      ([], .three (UInt8.ofNat a) (continuation (c.toNat / 4096)) (continuation (c.toNat / 64))) := by
    rw [feed, if_pos (isContinuation_continuation _), if_neg hfour]
  have hlast : feed (.three (UInt8.ofNat a) (continuation (c.toNat / 4096))
      (continuation (c.toNat / 64))) (continuation c.toNat) = ([.char c], .idle) := by
    rw [feed, if_pos (isContinuation_continuation _), hchar]
  rw [hc, List.cons_append, scanFrom_cons, feed_idle, lead_longer a (by omega) (by omega),
    List.cons_append, scanFrom_cons, hnext, List.cons_append, scanFrom_cons, hthird,
    List.singleton_append, scanFrom_cons, hlast]
  rfl

/-- The bytes of a character are one piece, whatever follows. -/
theorem scanFrom_char (c : Char) (rest : Bytes) :
    scanFrom .idle (String.utf8EncodeChar c ++ rest) = .char c :: scanFrom .idle rest := by
  rcases Nat.lt_or_ge 0xFFFF c.toNat with h4 | h4
  · exact scanFrom_four c rest h4
  rcases Nat.lt_or_ge 0x7FF c.toNat with h3 | h3
  · exact scanFrom_three c rest h3 h4
  rcases Nat.lt_or_ge 0x7F c.toNat with h2 | h2
  · exact scanFrom_two c rest h2 h3
  · exact scanFrom_one c rest h2

/-! ## texts -/

theorem scan_encode (cs : List Char) : scan (encode cs) = cs.map Piece.char := by
  unfold scan
  induction cs with
  | nil => rfl
  | cons c cs ih => rw [encode_cons, scanFrom_char, ih, List.map_cons]

theorem collect_chars (cs : List Char) (index : Nat) :
    collect index (cs.map Piece.char) = .ok cs := by
  induction cs generalizing index with
  | nil => rfl
  | cons c cs ih => rw [List.map_cons, collect, ih]; rfl

/-- **Encoded text reads as the characters that were written.** -/
theorem decode_encode (cs : List Char) : decode (encode cs) = .ok cs := by
  unfold decode
  rw [scan_encode, collect_chars]

theorem encode_inj {a b : List Char} (h : encode a = encode b) : a = b :=
  Except.ok.inj ((decode_encode a).symm.trans (h ▸ decode_encode b))

theorem text?_ofString (s : String) : text? (ofString s) = some s := by
  unfold text? ofString
  rw [decode_encode]
  exact congrArg some String.ofList_toList

/-! ## bytes that stand for themselves -/

def byte (c : Char) : UInt8 := UInt8.ofNat c.toNat

theorem encode_ascii (cs : List Char) (h : ∀ c ∈ cs, c.toNat ≤ 0x7F) : encode cs = cs.map byte := by
  induction cs with
  | nil => rfl
  | cons c cs ih =>
    rw [encode_cons, encodeChar_one c (h c List.mem_cons_self), ih fun d hd => h d (List.mem_cons_of_mem c hd)]
    rfl

theorem high_of_mem (c : Char) (h : 0x7F < c.toNat) (b : UInt8) (hb : b ∈ String.utf8EncodeChar c) :
    0x80 ≤ b := by
  have high (n : Nat) (hl : 0x80 ≤ n) (hu : n < 256) : (0x80 : UInt8) ≤ UInt8.ofNat n := by
    rw [UInt8.le_iff_toNat_le, toNat_byte n hu]
    exact hl
  have more (n : Nat) : 0x80 ≤ continuation n := high _ (by omega) (by omega)
  have hv := toNat_valid c
  rcases Nat.lt_or_ge 0xFFFF c.toNat with h4 | h4
  · rw [encodeChar_four c h4] at hb
    simp only [List.mem_cons, List.not_mem_nil, or_false] at hb
    obtain rfl | rfl | rfl | rfl := hb
    · exact high _ (by omega) (by omega)
    all_goals exact more _
  rcases Nat.lt_or_ge 0x7FF c.toNat with h3 | h3
  · rw [encodeChar_three c h3 h4] at hb
    simp only [List.mem_cons, List.not_mem_nil, or_false] at hb
    obtain rfl | rfl | rfl := hb
    · exact high _ (by omega) (by omega)
    all_goals exact more _
  · rw [encodeChar_two c h h3] at hb
    simp only [List.mem_cons, List.not_mem_nil, or_false] at hb
    obtain rfl | rfl := hb
    · exact high _ (by omega) (by omega)
    · exact more _

/-- The byte of a character below U+0080 is in a text only where that character is. -/
theorem mem_of_byte_mem {c : Char} (h : c.toNat ≤ 0x7F) {cs : List Char} (hb : byte c ∈ encode cs) :
    c ∈ cs := by
  obtain ⟨d, hd, hb⟩ := List.mem_flatMap.mp hb
  rcases Nat.lt_or_ge 0x7F d.toNat with hhigh | hlow
  · have hle : (0x80 : UInt8) ≤ byte c := high_of_mem d hhigh _ hb
    have hge : 128 ≤ (byte c).toNat := UInt8.le_iff_toNat_le.mp hle
    rw [byte, toNat_byte c.toNat (by omega)] at hge
    omega
  · rw [encodeChar_one d hlow, List.mem_singleton] at hb
    have hn : d.toNat = c.toNat :=
      ((byte_eq d.toNat (by omega) _).mp hb.symm).trans (toNat_byte c.toNat (by omega))
    rwa [← Char.toNat_inj.mp hn]

end CodeBridge.Utf8
