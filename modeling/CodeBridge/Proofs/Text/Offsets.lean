import CodeBridge.Edit.Apply
import CodeBridge.Proofs.Text.Columns
import CodeBridge.Proofs.Text.Encoding

/-!
# Bytes and units of one line

A line is written in bytes (UTF-8) and in code units (UTF-16), and an offset that counts units has
to be turned into one that counts bytes.  A character is never cut in two: neither between its
bytes nor between the two halves of a pair.

* `Utf8.Boundary`, `Utf16.Splits`   where bytes may be cut, and where units may not;
* `Addresses line n b`   the first `b` bytes of the line are a text of `n` units;
* `cut?_eq_none_iff`     the offsets at which a line cannot be cut;
* `byteOffset?_addresses`   `byteOffset?` finds the one address that there is, addresses grow with
                         the offset, and what comes later in the line does not matter to them.
-/

namespace CodeBridge

/-! ## bytes -/

namespace Utf8

/-- No character is cut in two after `b` bytes: what comes next does not continue one, or nothing
comes next. -/
def Boundary (bs : Bytes) (b : Nat) : Prop :=
  b = bs.length ∨ ∃ x, bs[b]? = some x ∧ isContinuation x = false

theorem length_encode (cs : List Char) : (encode cs).length = byteSize cs := by
  induction cs with
  | nil => rfl
  | cons c cs ih => rw [encode_cons, List.length_append, ih, String.length_utf8EncodeChar]; rfl

theorem isContinuation_lead (n : Nat) (h : n < 0x80 ∨ 0xC0 ≤ n ∧ n < 256) :
    isContinuation (UInt8.ofNat n) = false := by
  rw [Bool.eq_false_iff]
  intro hc
  have hb : 128 ≤ n ∧ n ≤ 191 := (between_byte n (by omega) 0x80 0xBF).mp hc
  omega

/-- The first byte of a character continues none, all others do. -/
theorem encodeChar_shape (c : Char) : ∃ x xs, String.utf8EncodeChar c = x :: xs ∧
    isContinuation x = false ∧ ∀ y ∈ xs, isContinuation y = true := by
  have more (n : Nat) := isContinuation_continuation n
  have hv := toNat_valid c
  rcases Nat.lt_or_ge 0xFFFF c.toNat with h4 | h4
  · exact ⟨_, _, encodeChar_four c h4, isContinuation_lead _ (by omega), by simp [more]⟩
  rcases Nat.lt_or_ge 0x7FF c.toNat with h3 | h3
  · exact ⟨_, _, encodeChar_three c h3 h4, isContinuation_lead _ (by omega), by simp [more]⟩
  rcases Nat.lt_or_ge 0x7F c.toNat with h2 | h2
  · exact ⟨_, _, encodeChar_two c h2 h3, isContinuation_lead _ (by omega), by simp [more]⟩
  · exact ⟨_, _, encodeChar_one c h2, isContinuation_lead _ (by omega), nofun⟩

theorem boundary_length_append (a b : List Char) :
    Boundary (encode (a ++ b)) (encode a).length := by
  cases b with
  | nil => exact .inl (by rw [List.append_nil])
  | cons c b =>
    obtain ⟨x, xs, hx, hlead, -⟩ := encodeChar_shape c
    refine .inr ⟨x, ?_, hlead⟩
    rw [encode_append, encode_cons, hx, List.getElem?_append_right (Nat.le_refl _), Nat.sub_self]
    rfl

/-- A text may be cut just behind each of its characters. -/
theorem boundary_iff (cs : List Char) (b : Nat) :
    Boundary (encode cs) b ↔ ∃ front back, front ++ back = cs ∧ (encode front).length = b := by
  constructor
  · intro h
    induction cs generalizing b with
    | nil =>
      have hb : b = 0 := by
        rcases h with h | ⟨x, hx, -⟩
        · exact h
        · cases hx
      exact ⟨[], [], rfl, hb.symm⟩
    | cons c cs ih =>
      obtain ⟨x, xs, hx, -, hxs⟩ := encodeChar_shape c
      rw [encode_cons, hx] at h
      rcases Nat.eq_zero_or_pos b with rfl | hpos
      · exact ⟨[], c :: cs, rfl, rfl⟩
      -- a place inside the character would be in front of one of its later bytes
      have hlen : xs.length < b := by
        refine Nat.lt_of_not_le fun hle => ?_
        obtain ⟨k, rfl⟩ : ∃ k, b = k + 1 := ⟨b - 1, by omega⟩
        rcases h with h | ⟨y, hy, hlead⟩
        · rw [List.length_append, List.length_cons] at h
          omega
        · rw [List.cons_append, List.getElem?_cons_succ, List.getElem?_append_left (by omega)] at hy
          rw [hxs y (List.mem_of_getElem? hy)] at hlead
          cases hlead
      have hrest : Boundary (encode cs) (b - (x :: xs).length) := by
        rcases h with h | ⟨y, hy, hlead⟩
        · rw [List.length_append] at h
          exact .inl (by omega)
        · rw [List.getElem?_append_right hlen] at hy
          exact .inr ⟨y, hy, hlead⟩
      obtain ⟨front, back, rfl, hfront⟩ := ih _ hrest
      refine ⟨c :: front, back, rfl, ?_⟩
      rw [encode_cons, List.length_append, hx, hfront]
      exact Nat.add_sub_cancel' hlen
  · rintro ⟨front, back, rfl, rfl⟩
    exact boundary_length_append front back

end Utf8

/-! ## units -/

namespace Utf16

/-- The code units of a character: one, or the two halves of a pair. -/
def encodeChar (c : Char) : List UInt16 :=
  if c.toNat < 0x10000 then [UInt16.ofNat c.toNat]
  else
    [UInt16.ofNat (0xD800 + (c.toNat - 0x10000) / 0x400),
      UInt16.ofNat (0xDC00 + (c.toNat - 0x10000) % 0x400)]

def encode (cs : List Char) : List UInt16 := cs.flatMap encodeChar

def isHigh (u : UInt16) : Bool := 0xD800 ≤ u && u ≤ 0xDBFF

def isLow (u : UInt16) : Bool := 0xDC00 ≤ u && u ≤ 0xDFFF

/-- Between the units before the place `n` and those after it a pair is torn apart. -/
def Splits (us : List UInt16) (n : Nat) : Prop :=
  ∃ front high low back, us = front ++ high :: low :: back ∧ front.length + 1 = n ∧
    isHigh high = true ∧ isLow low = true

theorem encode_cons (c : Char) (cs : List Char) : encode (c :: cs) = encodeChar c ++ encode cs :=
  rfl

theorem encode_append (a b : List Char) : encode (a ++ b) = encode a ++ encode b :=
  List.flatMap_append

theorem length_encodeChar (c : Char) : (encodeChar c).length = unitsOf c := by
  unfold encodeChar unitsOf
  split <;> rfl

theorem length_encode (cs : List Char) : (encode cs).length = units cs := by
  induction cs with
  | nil => rfl
  | cons c cs ih => rw [encode_cons, List.length_append, ih, length_encodeChar]; rfl

theorem between_unit (n : Nat) (h : n < 65536) (low high : UInt16) :
    (low ≤ UInt16.ofNat n && UInt16.ofNat n ≤ high) = true ↔ low.toNat ≤ n ∧ n ≤ high.toNat := by
  have e : (UInt16.ofNat n).toNat = n := by rw [UInt16.toNat_ofNat']; omega
  rw [Bool.and_eq_true, decide_eq_true_eq, decide_eq_true_eq, UInt16.le_iff_toNat_le,
    UInt16.le_iff_toNat_le, e]

theorem encodeChar_pair {c : Char} (h : unitsOf c = 2) :
    ∃ high low, encodeChar c = [high, low] ∧ isHigh high = true ∧ isLow low = true := by
  have hc : ¬ c.toNat < 0x10000 := fun hlt => by
    unfold unitsOf at h
    rw [if_pos hlt] at h
    cases h
  have hv := Utf8.toNat_valid c
  refine ⟨_, _, if_neg hc, (between_unit _ (by omega) 0xD800 0xDBFF).mpr ?_,
    (between_unit _ (by omega) 0xDC00 0xDFFF).mpr ?_⟩
  · show 55296 ≤ _ ∧ _ ≤ 56319
    omega
  · show 56320 ≤ _ ∧ _ ≤ 57343
    omega

/-- No character starts with the second half of a pair. -/
theorem not_isLow_head {c : Char} {u : UInt16} {us : List UInt16} (h : encodeChar c = u :: us) :
    isLow u = false := by
  have hv := Utf8.toNat_valid c
  have apart (n : Nat) (hn : n < 0xDC00 ∨ 0xDFFF < n ∧ n < 65536) :
      isLow (UInt16.ofNat n) = false := by
    rw [Bool.eq_false_iff]
    intro hl
    have hb : 56320 ≤ n ∧ n ≤ 57343 := (between_unit n (by omega) 0xDC00 0xDFFF).mp hl
    omega
  unfold encodeChar at h
  split at h
  · obtain ⟨rfl, -⟩ := List.cons.inj h
    exact apart _ (by omega)
  · obtain ⟨rfl, -⟩ := List.cons.inj h
    exact apart _ (by omega)

/-- A text that is cut between two characters tears no pair apart. -/
theorem not_splits (a b : List Char) : ¬ Splits (encode (a ++ b)) (units a) := by
  rintro ⟨front, high, low, back, hus, hlen, -, hlow⟩
  have hus' : encode a ++ encode b = (front ++ [high]) ++ low :: back := by
    rw [← encode_append, hus, List.append_assoc]
    rfl
  have hlength : (encode a).length = (front ++ [high]).length := by
    rw [length_encode, List.length_append, ← hlen]
    rfl
  have hb : encode b = low :: back := (List.append_inj hus' hlength).2
  cases b with
  | nil => cases hb
  | cons c b =>
    obtain ⟨u, us, hc⟩ : ∃ u us, encodeChar c = u :: us :=
      List.exists_cons_of_length_pos (by rw [length_encodeChar]; exact unitsOf_pos c)
    rw [encode_cons, hc] at hb
    obtain ⟨rfl, -⟩ := List.cons.inj hb
    rw [not_isLow_head hc] at hlow
    cases hlow

end Utf16

/-! ## cuts -/

/-- A line that cannot be cut at an offset ends before it, or has a character of two units there. -/
theorem exists_pair_of_cut?_eq_none {n : Nat} {cs : List Char} (h : cut? n cs = none)
    (hle : n ≤ units cs) :
    ∃ front c back, cs = front ++ c :: back ∧ unitsOf c = 2 ∧ units front + 1 = n := by
  fun_induction cut? n cs with
  | case1 cs => cases h
  | case2 n => exact absurd hle (Nat.not_succ_le_zero n)
  | case3 n c cs hc ih =>
    obtain ⟨front, d, back, rfl, hd, hn⟩ :=
      ih (Option.map_eq_none_iff.mp h) (by rw [units_cons] at hle; omega)
    exact ⟨c :: front, d, back, rfl, hd, by rw [units_cons]; omega⟩
  | case4 n c cs hc =>
    have htwo : unitsOf c = 2 ∧ n = 0 := by
      have hmost : unitsOf c ≤ 2 := by
        unfold unitsOf
        split <;> omega
      omega
    exact ⟨[], c, cs, rfl, htwo.1, by rw [htwo.2]; rfl⟩

/-- **The offsets at which a line cannot be cut** lie past its end or inside a pair. -/
theorem cut?_eq_none_iff (n : Nat) (cs : List Char) :
    cut? n cs = none ↔ (Utf16.encode cs).length < n ∨ Utf16.Splits (Utf16.encode cs) n := by
  rw [Utf16.length_encode]
  constructor
  · intro h
    rcases Nat.lt_or_ge (units cs) n with hlt | hle
    · exact .inl hlt
    · obtain ⟨front, c, back, rfl, hc, rfl⟩ := exists_pair_of_cut?_eq_none h hle
      obtain ⟨high, low, hpair, hhigh, hlow⟩ := Utf16.encodeChar_pair hc
      refine .inr ⟨Utf16.encode front, high, low, Utf16.encode back, ?_, ?_, hhigh, hlow⟩
      · rw [Utf16.encode_append, Utf16.encode_cons, hpair]
        rfl
      · rw [Utf16.length_encode]
  · intro h
    refine Option.eq_none_iff_forall_ne_some.mpr fun (front, back) hcut => ?_
    obtain ⟨rfl, rfl⟩ := append_eq_of_cut? n cs front back hcut
    rcases h with hlt | hsplits
    · rw [units_append] at hlt
      omega
    · exact Utf16.not_splits front back hsplits

/-! ## addresses -/

/-- `b` bytes into the line is `n` units into it: no character is cut there, and what the bytes
before it say has `n` units. -/
structure Addresses (line : List Char) (n b : Nat) : Prop where
  boundary : Utf8.Boundary (Utf8.encode line) b
  units : ∃ front, Utf8.encode front = (Utf8.encode line).take b ∧
    (Utf16.encode front).length = n

theorem byteOffset?_eq_some (line : List Char) (n b : Nat) :
    byteOffset? line n = some b ↔
      ∃ front back, front ++ back = line ∧ units front = n ∧ (Utf8.encode front).length = b := by
  unfold byteOffset?
  rw [Option.map_eq_some_iff]
  constructor
  · rintro ⟨⟨front, back⟩, hcut, rfl⟩
    obtain ⟨hline, hunits⟩ := append_eq_of_cut? n line front back hcut
    exact ⟨front, back, hline, hunits, Utf8.length_encode front⟩
  · rintro ⟨front, back, hline, hunits, rfl⟩
    exact ⟨(front, back), (cut?_eq_some_iff n line front back).mpr ⟨hline, hunits⟩,
      (Utf8.length_encode front).symm⟩

theorem addresses_iff (line : List Char) (n b : Nat) :
    Addresses line n b ↔
      ∃ front back, front ++ back = line ∧ units front = n ∧ (Utf8.encode front).length = b := by
  constructor
  · rintro ⟨hboundary, front', hfront', hunits⟩
    obtain ⟨front, back, rfl, rfl⟩ := (Utf8.boundary_iff line b).mp hboundary
    have hsame : front' = front := Utf8.encode_inj (by
      rw [hfront', Utf8.encode_append, List.take_left])
    subst hsame
    exact ⟨front', back, rfl, Utf16.length_encode front' ▸ hunits, rfl⟩
  · rintro ⟨front, back, rfl, rfl, rfl⟩
    refine ⟨Utf8.boundary_length_append front back, front, ?_, Utf16.length_encode front⟩
    rw [Utf8.encode_append, List.take_left]

theorem byteSize_lt_of_units_lt {a b c d : List Char} (h : a ++ b = c ++ d)
    (hu : units a < units c) : (Utf8.encode a).length < (Utf8.encode c).length := by
  have hlen := length_lt_of_units_lt a b c d h hu
  rcases List.append_eq_append_iff.mp h with ⟨x, rfl, -⟩ | ⟨x, rfl, -⟩
  · rw [Utf8.encode_append, List.length_append]
    refine Nat.lt_add_of_pos_right ?_
    cases x with
    | nil => simp at hlen
    | cons y x =>
      obtain ⟨z, zs, hz, -, -⟩ := Utf8.encodeChar_shape y
      rw [Utf8.encode_cons, hz]
      exact Nat.succ_pos _
  · rw [List.length_append] at hlen
    omega

/-- **A line is cut where its byte offset is**, and an offset without one is out of bounds. -/
theorem cutAt_byteOffset? (line : List Char) (p : Position) :
    match byteOffset? line p.character.toNat with
    | some b => ∃ front back, cutAt line p = .ok (front, back) ∧ front ++ back = line ∧
        Utf8.encode front = (Utf8.encode line).take b
    | none => cutAt line p = .error (.characterOutOfBounds p.line p.character) := by
  unfold byteOffset? cutAt
  cases hcut : cut? p.character.toNat line with
  | none => rfl
  | some parts =>
    obtain ⟨front, back⟩ := parts
    obtain ⟨rfl, -⟩ := append_eq_of_cut? _ line front back hcut
    refine ⟨front, back, rfl, rfl, ?_⟩
    dsimp only
    rw [Utf8.encode_append, ← Utf8.length_encode, List.take_left]

/-- **An offset in units leads to the one address that it has**, and to none only past the end of
the line or between the halves of a pair.  A greater offset leads further, and what is appended to
the line changes no address. -/
theorem byteOffset?_addresses (line : List Char) (n : Nat) :
    (∀ b, byteOffset? line n = some b ↔ Addresses line n b) ∧
    (∀ b b', Addresses line n b → Addresses line n b' → b = b') ∧
    (byteOffset? line n = none ↔
      (Utf16.encode line).length < n ∨ Utf16.Splits (Utf16.encode line) n) ∧
    (∀ m b b', n < m → byteOffset? line n = some b → byteOffset? line m = some b' → b < b') ∧
    ∀ b more, byteOffset? line n = some b → byteOffset? (line ++ more) n = some b := by
  have hiff (b : Nat) : byteOffset? line n = some b ↔ Addresses line n b := by
    rw [byteOffset?_eq_some, addresses_iff]
  refine ⟨hiff, fun b b' hb hb' => ?_, ?_, fun m b b' hlt hb hb' => ?_, fun b more hb => ?_⟩
  · exact Option.some.inj (((hiff b).mpr hb).symm.trans ((hiff b').mpr hb'))
  · unfold byteOffset?
    rw [Option.map_eq_none_iff, cut?_eq_none_iff]
  · obtain ⟨front, back, hline, rfl, rfl⟩ := (byteOffset?_eq_some line n b).mp hb
    obtain ⟨front', back', hline', rfl, rfl⟩ := (byteOffset?_eq_some line m b').mp hb'
    exact byteSize_lt_of_units_lt (hline.trans hline'.symm) hlt
  · obtain ⟨front, back, rfl, hunits, hbytes⟩ := (byteOffset?_eq_some line n b).mp hb
    exact (byteOffset?_eq_some _ n b).mpr
      ⟨front, back ++ more, (List.append_assoc front back more).symm, hunits, hbytes⟩

/-- Behind a pair there is an address, in the middle of it there is none. -/
theorem byteOffset?_around_pair :
    byteOffset? ['é', '😀', 'x'] 3 = some 6 ∧ Addresses ['é', '😀', 'x'] 3 6 ∧
      Utf16.Splits (Utf16.encode ['é', '😀', 'x']) 2 ∧
      byteOffset? ['é', '😀', 'x', 'y'] 3 = some 6 := by
  have hoffset : byteOffset? ['é', '😀', 'x'] 3 = some 6 := by decide
  have hthree := byteOffset?_addresses ['é', '😀', 'x'] 3
  have htwo := byteOffset?_addresses ['é', '😀', 'x'] 2
  refine ⟨hoffset, (hthree.1 6).mp hoffset, ?_, hthree.2.2.2.2 6 ['y'] hoffset⟩
  exact (htwo.2.2.1.mp (by decide)).resolve_left (by decide)

end CodeBridge
