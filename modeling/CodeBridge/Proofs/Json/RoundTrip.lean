import CodeBridge.Proofs.Json.Scalars
import CodeBridge.Proofs.Json.Values

/-!
# Written values are read back

The compact text of a value without doubles, nested no deeper than the reader goes, is read as
that value:

* `reads_moreItems`, `reads_moreMembers`   the inside of an array or object, part by part;
* `reads_value`                            a value, with anything behind it that does not continue
                                           a number;
* `parse_bytes`                            a value alone.
-/

namespace CodeBridge.Json

/-! ## where values start -/

theorem skipSpace_cons {b : UInt8} (h : isSpace b = false) (bs : Bytes) (i : Nat) :
    (⟨b :: bs, i⟩ : Cursor).skipSpace = ⟨b :: bs, i⟩ := by
  unfold Cursor.skipSpace
  rw [skipSpaceFrom, h]
  rfl

theorem bytes_str (s : String) :
    bytes (.str s) = 0x22 :: (Utf8.encode (s.toList.flatMap escape) ++ [0x22]) :=
  encode_quoted s.toList

theorem bytes_arr (items : List Json) :
    bytes (.arr items) = 0x5B :: (Utf8.encode (renderItems items) ++ [0x5D]) := by
  rw [bytes, render, Utf8.encode_cons, Utf8.encode_append]
  rfl

theorem bytes_obj (members : List (String × Json)) :
    bytes (.obj members) = 0x7B :: (Utf8.encode (renderMembers members) ++ [0x7D]) := by
  rw [bytes, render, Utf8.encode_cons, Utf8.encode_append]
  rfl

theorem exists_first_int (i : Int) :
    ∃ b bs, Utf8.encode (renderInt i) = b :: bs ∧ (b = 0x2D ∨ isDigit b = true) := by
  unfold renderInt
  split
  · rw [Utf8.encode_cons]
    exact ⟨0x2D, _, rfl, .inl rfl⟩
  · obtain ⟨b, bs, e, hb⟩ := exists_digit i.natAbs
    exact ⟨b, bs, e, .inr hb⟩

theorem not_space_of_isDigit {b : UInt8} (h : isDigit b = true) :
    isSpace b = false ∧ b ≠ 0x5D ∧ b ≠ 0x6E ∧ b ≠ 0x74 ∧ b ≠ 0x66 := by
  have hne (c : UInt8) (hc : isDigit c = false) : b ≠ c := fun e => by
    rw [e, hc] at h
    exact Bool.false_ne_true h
  refine ⟨?_, hne _ (by decide), hne _ (by decide), hne _ (by decide), hne _ (by decide)⟩
  simp only [isSpace, decide_eq_false (hne 0x20 (by decide)), decide_eq_false (hne 0x0A (by decide)),
    decide_eq_false (hne 0x09 (by decide)), decide_eq_false (hne 0x0D (by decide)), Bool.or_self]

/-- A value starts with a byte that neither is white space nor closes an array. -/
theorem exists_first (v : Json) (h : Whole v) :
    ∃ b bs, bytes v = b :: bs ∧ isSpace b = false ∧ b ≠ 0x5D := by
  cases v with
  | null => exact ⟨0x6E, _, rfl, by decide, by decide⟩
  | bool b => cases b <;> exact ⟨_, _, rfl, by decide, by decide⟩
  | num n =>
    cases n with
    | float x => exact absurd h id
    | int i _ =>
      obtain ⟨b, bs, e, hb⟩ := exists_first_int i
      refine ⟨b, bs, e, ?_⟩
      rcases hb with rfl | hb
      · decide
      · exact ⟨(not_space_of_isDigit hb).1, (not_space_of_isDigit hb).2.1⟩
  | str s => exact ⟨0x22, _, bytes_str s, by decide, by decide⟩
  | arr items => exact ⟨0x5B, _, bytes_arr items, by decide, by decide⟩
  | obj members => exact ⟨0x7B, _, bytes_obj members, by decide, by decide⟩

section

variable {read : Cursor → Except Fault (Json × Cursor)}

/-- What is wanted of a part of a value. -/
def ReadsPart (read : Cursor → Except Fault (Json × Cursor)) (v : Json) : Prop :=
  Whole v ∧ ∀ rest, Ends rest → Reads read (bytes v) v rest

/-! ## inside an array -/

theorem readItems_first {b : UInt8} {bs : Bytes} {i fuel : Nat} {x : Json} {xs : List Json}
    {c c' : Cursor} (hspace : isSpace b = false) (hclose : b ≠ 0x5D)
    (hx : read ⟨b :: bs, i⟩ = .ok (x, c)) (hxs : readItems read fuel false c = .ok (xs, c')) :
    readItems read (fuel + 1) true ⟨b :: bs, i⟩ = .ok (x :: xs, c') := by
  simp only [readItems, skipSpace_cons hspace, if_neg hclose, if_true, hx]
  show (readItems read fuel false c >>= _) = _
  rw [hxs]
  rfl

theorem readItems_comma {b : UInt8} {bs : Bytes} {i fuel : Nat} {x : Json} {xs : List Json}
    {c c' : Cursor} (hspace : isSpace b = false) (hclose : b ≠ 0x5D)
    (hx : read ⟨b :: bs, i + 1⟩ = .ok (x, c)) (hxs : readItems read fuel false c = .ok (xs, c')) :
    readItems read (fuel + 1) false ⟨0x2C :: b :: bs, i⟩ = .ok (x :: xs, c') := by
  have hcomma : (⟨0x2C :: b :: bs, i⟩ : Cursor).skipSpace = ⟨0x2C :: b :: bs, i⟩ :=
    skipSpace_cons (by decide) _ i
  have hnext : (⟨0x2C :: b :: bs, i⟩ : Cursor).skip.skipSpace = ⟨b :: bs, i + 1⟩ :=
    skipSpace_cons hspace bs (i + 1)
  simp only [readItems, hcomma, hnext, if_neg hclose, hx]
  show (readItems read fuel false c >>= _) = _
  rw [hxs]
  rfl

theorem ends_moreItems (items : List Json) (rest : Bytes) :
    Ends (Utf8.encode (renderMoreItems items) ++ 0x5D :: rest) := by
  cases items with
  | nil => exact ends_cons rest (by decide)
  | cons x xs =>
    rw [renderMoreItems, Utf8.encode_cons, List.append_assoc]
    exact ends_cons _ (by decide)

/-- Items behind another one, up to the bracket that closes the array. -/
theorem reads_moreItems (items : List Json) (h : ∀ x ∈ items, ReadsPart read x) (fuel : Nat)
    (rest : Bytes) (i : Nat) :
    ∃ j, readItems read (items.length + 1 + fuel) false
      ⟨Utf8.encode (renderMoreItems items) ++ 0x5D :: rest, i⟩ = .ok (items, ⟨rest, j⟩) := by
  induction items generalizing i with
  | nil =>
    rw [List.length_nil, Nat.zero_add, Nat.add_comm 1 fuel]
    exact ⟨i + 1, rfl⟩
  | cons x xs ih =>
    obtain ⟨hwhole, hread⟩ := h x List.mem_cons_self
    obtain ⟨b, bs, hfirst, hspace, hclose⟩ := exists_first x hwhole
    obtain ⟨j, hj⟩ := hread _ (ends_moreItems xs rest) (i + 1)
    obtain ⟨k, hk⟩ := ih (fun y hy => h y (List.mem_cons_of_mem x hy)) j
    have hfuel : (x :: xs).length + 1 + fuel = (xs.length + 1 + fuel) + 1 := by
      rw [List.length_cons]
      omega
    have hwritten : Utf8.encode (renderMoreItems (x :: xs)) ++ 0x5D :: rest =
        0x2C :: (bytes x ++ (Utf8.encode (renderMoreItems xs) ++ 0x5D :: rest)) := by
      rw [renderMoreItems, Utf8.encode_cons, Utf8.encode_append, List.append_assoc,
        List.append_assoc]
      rfl
    rw [hfuel, hwritten]
    rw [hfirst, List.cons_append] at hj ⊢
    exact ⟨k, readItems_comma hspace hclose hj hk⟩

theorem reads_items (items : List Json) (h : ∀ x ∈ items, ReadsPart read x) (fuel : Nat)
    (rest : Bytes) (i : Nat) :
    ∃ j, readItems read (items.length + 1 + fuel) true
      ⟨Utf8.encode (renderItems items) ++ 0x5D :: rest, i⟩ = .ok (items, ⟨rest, j⟩) := by
  cases items with
  | nil =>
    rw [List.length_nil, Nat.zero_add, Nat.add_comm 1 fuel]
    exact ⟨i + 1, rfl⟩
  | cons x xs =>
    obtain ⟨hwhole, hread⟩ := h x List.mem_cons_self
    obtain ⟨b, bs, hfirst, hspace, hclose⟩ := exists_first x hwhole
    obtain ⟨j, hj⟩ := hread _ (ends_moreItems xs rest) i
    obtain ⟨k, hk⟩ :=
      reads_moreItems xs (fun y hy => h y (List.mem_cons_of_mem x hy)) fuel rest j
    have hfuel : (x :: xs).length + 1 + fuel = (xs.length + 1 + fuel) + 1 := by
      rw [List.length_cons]
      omega
    have hwritten : Utf8.encode (renderItems (x :: xs)) ++ 0x5D :: rest =
        bytes x ++ (Utf8.encode (renderMoreItems xs) ++ 0x5D :: rest) := by
      rw [renderItems, Utf8.encode_append, List.append_assoc]
      rfl
    rw [hfuel, hwritten]
    rw [hfirst, List.cons_append] at hj ⊢
    exact ⟨k, readItems_first hspace hclose hj hk⟩

/-! ## inside an object -/

/-- What is written of a member behind its opening quote. -/
def memberBytes (m : String × Json) : Bytes :=
  Utf8.encode (m.1.toList.flatMap escape) ++ [0x22] ++ 0x3A :: bytes m.2

theorem encode_member (m : String × Json) :
    Utf8.encode (renderMember m) = 0x22 :: memberBytes m := by
  obtain ⟨key, v⟩ := m
  rw [renderMember, Utf8.encode_append, encode_quoted, Utf8.encode_cons]
  rfl

theorem reads_member (m : String × Json) (h : ReadsPart read m.2) {rest : Bytes}
    (hrest : Ends rest) : Reads (readMember read) (0x22 :: memberBytes m) m rest := by
  obtain ⟨key, v⟩ := m
  intro i
  obtain ⟨j, hj⟩ := reads_text key (0x3A :: (bytes v ++ rest)) (i + 1)
  obtain ⟨k, hk⟩ := h.2 rest hrest (j + 1)
  have hskip : (⟨0x22 :: memberBytes (key, v) ++ rest, i⟩ : Cursor).skip =
      ⟨Utf8.encode (key.toList.flatMap escape) ++ [0x22] ++ 0x3A :: (bytes v ++ rest), i + 1⟩ := by
    rw [memberBytes, List.cons_append, List.append_assoc _ _ rest]
    rfl
  refine ⟨k, ?_⟩
  rw [readMember, hskip, hj]
  show (read ⟨bytes v ++ rest, j + 1⟩ >>= _) = _
  rw [hk]
  rfl

theorem readMembers_first {bs : Bytes} {i fuel : Nat} {m : String × Json}
    {ms : List (String × Json)} {c c' : Cursor} (hm : readMember read ⟨0x22 :: bs, i⟩ = .ok (m, c))
    (hms : readMembers read fuel false c = .ok (ms, c')) :
    readMembers read (fuel + 1) true ⟨0x22 :: bs, i⟩ = .ok (m :: ms, c') := by
  have hquote : (⟨0x22 :: bs, i⟩ : Cursor).skipSpace = ⟨0x22 :: bs, i⟩ :=
    skipSpace_cons (by decide) bs i
  have hclose : ¬ (0x22 : UInt8) = 0x7D := by decide
  simp only [readMembers, hquote, if_neg hclose, if_true, hm]
  show (readMembers read fuel false c >>= _) = _
  rw [hms]
  rfl

theorem readMembers_comma {bs : Bytes} {i fuel : Nat} {m : String × Json}
    {ms : List (String × Json)} {c c' : Cursor}
    (hm : readMember read ⟨0x22 :: bs, i + 1⟩ = .ok (m, c))
    (hms : readMembers read fuel false c = .ok (ms, c')) :
    readMembers read (fuel + 1) false ⟨0x2C :: 0x22 :: bs, i⟩ = .ok (m :: ms, c') := by
  have hcomma : (⟨0x2C :: 0x22 :: bs, i⟩ : Cursor).skipSpace = ⟨0x2C :: 0x22 :: bs, i⟩ :=
    skipSpace_cons (by decide) _ i
  have hnext : (⟨0x2C :: 0x22 :: bs, i⟩ : Cursor).skip.skipSpace = ⟨0x22 :: bs, i + 1⟩ :=
    skipSpace_cons (by decide) bs (i + 1)
  simp only [readMembers, hcomma, hnext, hm]
  show (readMembers read fuel false c >>= _) = _
  rw [hms]
  rfl

theorem ends_moreMembers (members : List (String × Json)) (rest : Bytes) :
    Ends (Utf8.encode (renderMoreMembers members) ++ 0x7D :: rest) := by
  cases members with
  | nil => exact ends_cons rest (by decide)
  | cons m ms =>
    rw [renderMoreMembers, Utf8.encode_cons, List.append_assoc]
    exact ends_cons _ (by decide)

/-- Members behind another one, up to the brace that closes the object. -/
theorem reads_moreMembers (members : List (String × Json))
    (h : ∀ m ∈ members, ReadsPart read m.2) (fuel : Nat) (rest : Bytes) (i : Nat) :
    ∃ j, readMembers read (members.length + 1 + fuel) false
      ⟨Utf8.encode (renderMoreMembers members) ++ 0x7D :: rest, i⟩ = .ok (members, ⟨rest, j⟩) := by
  induction members generalizing i with
  | nil =>
    rw [List.length_nil, Nat.zero_add, Nat.add_comm 1 fuel]
    exact ⟨i + 1, rfl⟩
  | cons m ms ih =>
    obtain ⟨j, hj⟩ := reads_member m (h m List.mem_cons_self) (ends_moreMembers ms rest) (i + 1)
    obtain ⟨k, hk⟩ := ih (fun n hn => h n (List.mem_cons_of_mem m hn)) j
    have hfuel : (m :: ms).length + 1 + fuel = (ms.length + 1 + fuel) + 1 := by
      rw [List.length_cons]
      omega
    have hwritten : Utf8.encode (renderMoreMembers (m :: ms)) ++ 0x7D :: rest =
        0x2C :: 0x22 :: (memberBytes m ++ (Utf8.encode (renderMoreMembers ms) ++ 0x7D :: rest)) := by
      rw [renderMoreMembers, Utf8.encode_cons, Utf8.encode_append, encode_member,
        List.append_assoc, List.append_assoc]
      rfl
    rw [hfuel, hwritten]
    exact ⟨k, readMembers_comma hj hk⟩

theorem reads_members (members : List (String × Json))
    (h : ∀ m ∈ members, ReadsPart read m.2) (fuel : Nat) (rest : Bytes) (i : Nat) :
    ∃ j, readMembers read (members.length + 1 + fuel) true
      ⟨Utf8.encode (renderMembers members) ++ 0x7D :: rest, i⟩ = .ok (members, ⟨rest, j⟩) := by
  cases members with
  | nil =>
    rw [List.length_nil, Nat.zero_add, Nat.add_comm 1 fuel]
    exact ⟨i + 1, rfl⟩
  | cons m ms =>
    obtain ⟨j, hj⟩ := reads_member m (h m List.mem_cons_self) (ends_moreMembers ms rest) i
    obtain ⟨k, hk⟩ :=
      reads_moreMembers ms (fun n hn => h n (List.mem_cons_of_mem m hn)) fuel rest j
    have hfuel : (m :: ms).length + 1 + fuel = (ms.length + 1 + fuel) + 1 := by
      rw [List.length_cons]
      omega
    have hwritten : Utf8.encode (renderMembers (m :: ms)) ++ 0x7D :: rest =
        0x22 :: memberBytes m ++ (Utf8.encode (renderMoreMembers ms) ++ 0x7D :: rest) := by
      rw [renderMembers, Utf8.encode_append, encode_member, List.append_assoc]
    rw [hfuel, hwritten]
    exact ⟨k, readMembers_first hj hk⟩

end

/-! ## values -/

theorem length_le_items (items : List Json) (h : ∀ x ∈ items, Whole x) :
    items.length ≤ (Utf8.encode (renderItems items)).length := by
  have hmore (xs : List Json) : xs.length ≤ (Utf8.encode (renderMoreItems xs)).length := by
    induction xs with
    | nil => exact Nat.le_refl 0
    | cons x xs ih =>
      rw [renderMoreItems, Utf8.encode_cons, Utf8.encode_append, List.length_append,
        List.length_append, List.length_cons]
      have hcomma : (String.utf8EncodeChar ',').length = 1 := rfl
      omega
  cases items with
  | nil => exact Nat.le_refl 0
  | cons x xs =>
    obtain ⟨b, bs, e, _⟩ := exists_first x (h x List.mem_cons_self)
    have hxs := hmore xs
    have hx : (Utf8.encode (render x)).length = bs.length + 1 := congrArg List.length e
    rw [renderItems, Utf8.encode_append, List.length_append, List.length_cons]
    omega

theorem length_le_members (members : List (String × Json)) :
    members.length ≤ (Utf8.encode (renderMembers members)).length := by
  have hmore (ms : List (String × Json)) :
      ms.length ≤ (Utf8.encode (renderMoreMembers ms)).length := by
    induction ms with
    | nil => exact Nat.le_refl 0
    | cons m ms ih =>
      rw [renderMoreMembers, Utf8.encode_cons, Utf8.encode_append, List.length_append,
        List.length_append, List.length_cons]
      have hcomma : (String.utf8EncodeChar ',').length = 1 := rfl
      omega
  cases members with
  | nil => exact Nat.le_refl 0
  | cons m ms =>
    have hms := hmore ms
    rw [renderMembers, Utf8.encode_append, encode_member, List.length_append, List.length_cons,
      List.length_cons]
    omega

theorem readValue_quote (levels : Nat) (bs : Bytes) (i : Nat) :
    readValue (levels + 1) ⟨0x22 :: bs, i⟩ =
      (readText ⟨bs, i + 1⟩).map fun (s, c) => (.str s, c) := by
  have hspace : (⟨0x22 :: bs, i⟩ : Cursor).skipSpace = ⟨0x22 :: bs, i⟩ :=
    skipSpace_cons (by decide) bs i
  simp only [readValue, hspace]
  rw [if_neg (by decide), if_neg (by decide), if_neg (by decide), if_neg (by decide),
    if_pos trivial]
  rfl

theorem readValue_bracket (levels : Nat) (h : levels ≠ 0) (bs : Bytes) (i : Nat) :
    readValue (levels + 1) ⟨0x5B :: bs, i⟩ =
      (readItems (readValue levels) ((0x5B :: bs).length + 1) true ⟨bs, i + 1⟩).map
        fun (xs, c) => (.arr xs, c) := by
  have hspace : (⟨0x5B :: bs, i⟩ : Cursor).skipSpace = ⟨0x5B :: bs, i⟩ :=
    skipSpace_cons (by decide) bs i
  simp only [readValue, hspace]
  rw [if_neg (by decide), if_neg (by decide), if_neg (by decide), if_neg (by decide),
    if_neg (by decide), if_pos trivial, if_neg h]
  rfl

theorem readValue_brace (levels : Nat) (h : levels ≠ 0) (bs : Bytes) (i : Nat) :
    readValue (levels + 1) ⟨0x7B :: bs, i⟩ =
      (readMembers (readValue levels) ((0x7B :: bs).length + 1) true ⟨bs, i + 1⟩).map
        fun (ms, c) => (ofMembers ms, c) := by
  have hspace : (⟨0x7B :: bs, i⟩ : Cursor).skipSpace = ⟨0x7B :: bs, i⟩ :=
    skipSpace_cons (by decide) bs i
  simp only [readValue, hspace]
  rw [if_neg (by decide), if_neg (by decide), if_neg (by decide), if_neg (by decide),
    if_neg (by decide), if_neg (by decide), if_pos trivial, if_neg h]
  rfl
/-- A value is read back by a reader with more levels than it has. -/
def ReadsBack (v : Json) : Prop :=
  Canonical v → Whole v → ∀ levels, depth v < levels → ReadsPart (readValue levels) v

theorem readsBack_int (i : Int) (h : InWord i) : ReadsBack (.num (.int i h)) := by
  intro _ hwhole levels hdepth
  obtain ⟨levels, rfl⟩ : ∃ n, levels = n + 1 := ⟨levels - 1, by omega⟩
  refine ⟨hwhole, fun rest hrest k => ?_⟩
  obtain ⟨b, bs, e, hb⟩ := exists_first_int i
  obtain ⟨j, hj⟩ := reads_int i h hrest k
  refine ⟨j, ?_⟩
  have hbytes : bytes (.num (.int i h)) = Utf8.encode (renderInt i) := rfl
  have hnumber : (b = 0x2D || isDigit b) = true := by
    rw [Bool.or_eq_true, decide_eq_true_eq]
    exact hb
  have hfirst : isSpace b = false ∧ b ≠ 0x6E ∧ b ≠ 0x74 ∧ b ≠ 0x66 := by
    rcases hb with rfl | hb
    · decide
    · exact ⟨(not_space_of_isDigit hb).1, (not_space_of_isDigit hb).2.2⟩
  obtain ⟨hspace, hnull, htrue, hfalse⟩ := hfirst
  rw [e, List.cons_append] at hj
  rw [hbytes, e, List.cons_append]
  simp only [readValue, skipSpace_cons hspace, if_neg hnull, if_neg htrue, if_neg hfalse,
    if_pos hnumber, hj]

theorem readsBack_str (s : String) : ReadsBack (.str s) := by
  intro _ hwhole levels hdepth
  obtain ⟨levels, rfl⟩ : ∃ n, levels = n + 1 := ⟨levels - 1, by omega⟩
  refine ⟨hwhole, fun rest _ k => ?_⟩
  obtain ⟨j, hj⟩ := reads_text s rest (k + 1)
  refine ⟨j, ?_⟩
  rw [bytes_str, List.cons_append, readValue_quote, hj]
  rfl

theorem readsBack_arr (items : List Json) (ih : ∀ x ∈ items, ReadsBack x) :
    ReadsBack (.arr items) := by
  intro hcanonical hwhole levels hdepth
  obtain ⟨levels, rfl⟩ : ∃ n, levels = n + 1 := ⟨levels - 1, by omega⟩
  have hcanonical := (canonicalItems_iff items).mp hcanonical
  have hitems := (wholeItems_iff items).mp hwhole
  obtain ⟨hlevels, hdepth⟩ := (depthItems_lt_iff items levels).mp (Nat.lt_of_succ_lt_succ hdepth)
  have hparts : ∀ x ∈ items, ReadsPart (readValue levels) x := fun x hx =>
    ih x hx (hcanonical x hx) (hitems x hx) levels (hdepth x hx)
  refine ⟨hwhole, fun rest _ k => ?_⟩
  have hwritten : bytes (.arr items) ++ rest =
      0x5B :: (Utf8.encode (renderItems items) ++ 0x5D :: rest) := by
    rw [bytes_arr, List.cons_append, List.append_assoc]
    rfl
  have hle := length_le_items items hitems
  obtain ⟨fuel, hfuel⟩ : ∃ fuel, (bytes (.arr items) ++ rest).length + 1 =
      items.length + 1 + fuel := by
    refine ⟨(bytes (.arr items) ++ rest).length - items.length, ?_⟩
    rw [hwritten, List.length_cons, List.length_append]
    omega
  obtain ⟨j, hj⟩ := reads_items items hparts fuel rest (k + 1)
  rw [← hfuel] at hj
  refine ⟨j, ?_⟩
  rw [hwritten] at hj ⊢
  rw [readValue_bracket levels (Nat.pos_iff_ne_zero.mp hlevels), hj]
  rfl

theorem readsBack_obj (members : List (String × Json)) (ih : ∀ m ∈ members, ReadsBack m.2) :
    ReadsBack (.obj members) := by
  intro hcanonical hwhole levels hdepth
  obtain ⟨levels, rfl⟩ : ∃ n, levels = n + 1 := ⟨levels - 1, by omega⟩
  obtain ⟨hkeys, hcanonical⟩ := hcanonical
  have hcanonical := (canonicalMembers_iff members).mp hcanonical
  have hmembers := (wholeMembers_iff members).mp hwhole
  obtain ⟨hlevels, hdepth⟩ :=
    (depthMembers_lt_iff members levels).mp (Nat.lt_of_succ_lt_succ hdepth)
  have hparts : ∀ m ∈ members, ReadsPart (readValue levels) m.2 := fun m hm =>
    ih m hm (hcanonical m hm) (hmembers m hm) levels (hdepth m hm)
  refine ⟨hwhole, fun rest _ k => ?_⟩
  have hwritten : bytes (.obj members) ++ rest =
      0x7B :: (Utf8.encode (renderMembers members) ++ 0x7D :: rest) := by
    rw [bytes_obj, List.cons_append, List.append_assoc]
    rfl
  have hle := length_le_members members
  obtain ⟨fuel, hfuel⟩ : ∃ fuel, (bytes (.obj members) ++ rest).length + 1 =
      members.length + 1 + fuel := by
    refine ⟨(bytes (.obj members) ++ rest).length - members.length, ?_⟩
    rw [hwritten, List.length_cons, List.length_append]
    omega
  obtain ⟨j, hj⟩ := reads_members members hparts fuel rest (k + 1)
  rw [← hfuel] at hj
  refine ⟨j, ?_⟩
  rw [hwritten] at hj ⊢
  rw [readValue_brace levels (Nat.pos_iff_ne_zero.mp hlevels), hj]
  show Except.ok (ofMembers members, _) = _
  rw [ofMembers, Members.ofList_eq members hkeys]

theorem inductive_readsBack : Inductive ReadsBack where
  null := fun _ hwhole levels hdepth => by
    obtain ⟨levels, rfl⟩ : ∃ n, levels = n + 1 := ⟨levels - 1, by omega⟩
    exact ⟨hwhole, fun rest _ k => ⟨k + 4, rfl⟩⟩
  bool := fun b _ hwhole levels hdepth => by
    obtain ⟨levels, rfl⟩ : ∃ n, levels = n + 1 := ⟨levels - 1, by omega⟩
    cases b with
    | true => exact ⟨hwhole, fun rest _ k => ⟨k + 4, rfl⟩⟩
    | false => exact ⟨hwhole, fun rest _ k => ⟨k + 5, rfl⟩⟩
  num := fun n => by
    cases n with
    | int i h => exact readsBack_int i h
    | float x => exact fun _ hwhole => absurd hwhole id
  str := readsBack_str
  arr := readsBack_arr
  obj := readsBack_obj

/-- **What is written of a value is read as that value**, up to what follows it. -/
theorem reads_value (v : Json) (hcanonical : Canonical v) (hwhole : Whole v) (levels : Nat)
    (hdepth : depth v < levels) {rest : Bytes} (hrest : Ends rest) :
    Reads (readValue levels) (bytes v) v rest :=
  (byParts inductive_readsBack v hcanonical hwhole levels hdepth).2 rest hrest

theorem parse_bytes (v : Json) (hcanonical : Canonical v) (hwhole : Whole v)
    (hdepth : depth v < maxDepth) : parse (bytes v) = .ok v := by
  obtain ⟨j, hj⟩ := reads_value v hcanonical hwhole maxDepth hdepth ends_nil 0
  rw [List.append_nil] at hj
  rw [parse, readAll, hj]
  rfl

end CodeBridge.Json
