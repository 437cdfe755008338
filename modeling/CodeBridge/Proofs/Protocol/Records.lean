import Mathlib.Data.List.Forall2
import Mathlib.Data.List.TakeDrop
import CodeBridge.Json.Decode
import CodeBridge.Proofs.Except

/-!
# What readings accept

A record is given by an object or by an array.  Seen as fields under their names (`fields?`) the two
are one, and a reading of a record is known from what it takes for each field:

* `required_eq_ok`, `field?_eq_ok_some`, `nullable?_eq_ok`   the parts of a reading;
* `next_eq_ok`, `finish_eq_ok`   the same for the items of an array;
* `readRecord_eq_ok`, `readPair_eq_ok`   a reading of a record is one of its fields;
* `rowFields?`, `readRow_eq_ok`     the same where an array may end before the last fields;
* `FirstOf`, `readUnion_eq_ok`      a union is read in the first of its shapes that fits;
* `readList_eq_ok`, `readMap_eq_ok`   a list is read item by item, a map entry by entry;
* `readUInt32_eq_ok`, `readString_eq_ok`   scalars have one spelling.
-/

namespace CodeBridge

namespace Json

variable {α β γ : Type}

/-! ## scalars -/

theorem readInt_eq_ok {low high i : Int} {expected : String} {v : Json} :
    readInt low high expected v = .ok i ↔ (low ≤ i ∧ i ≤ high) ∧ ∃ h, v = .num (.int i h) := by
  unfold readInt
  split
  next value hw =>
    by_cases hrange : low ≤ value ∧ value ≤ high
    · rw [if_pos (by simpa using hrange)]
      constructor
      · rintro ⟨⟩
        exact ⟨hrange, hw, rfl⟩
      · rintro ⟨-, -, ⟨⟩⟩
        rfl
    · rw [if_neg (by simpa using hrange)]
      refine iff_of_false nofun ?_
      rintro ⟨h, -, ⟨⟩⟩
      exact hrange h
  next v hv =>
    refine iff_of_false nofun ?_
    rintro ⟨-, hw, rfl⟩
    exact hv i hw rfl

theorem readUInt32_eq_ok {v : Json} {n : UInt32} : readUInt32 v = .ok n ↔ v = .ofUInt32 n := by
  have hn := n.toNat_lt
  unfold readUInt32
  simp only [map_eq_ok_iff, readInt_eq_ok]
  constructor
  · rintro ⟨i, ⟨hi, hw, rfl⟩, rfl⟩
    have hback : ((UInt32.ofNat i.toNat).toNat : Int) = i := by
      rw [UInt32.toNat_ofNat_of_lt' (by rw [UInt32.size]; omega)]
      omega
    simp only [ofUInt32, hback]
  · rintro rfl
    exact ⟨n.toNat, ⟨by omega, inWord_uint32 n, rfl⟩, UInt32.ofNat_toNat⟩

theorem readUInt64_eq_ok {v : Json} {n : UInt64} : readUInt64 v = .ok n ↔ v = .ofUInt64 n := by
  have hn := n.toNat_lt
  unfold readUInt64
  simp only [map_eq_ok_iff, readInt_eq_ok]
  constructor
  · rintro ⟨i, ⟨hi, hw, rfl⟩, rfl⟩
    have hback : ((UInt64.ofNat i.toNat).toNat : Int) = i := by
      rw [UInt64.toNat_ofNat_of_lt' (by rw [UInt64.size]; omega)]
      omega
    simp only [ofUInt64, hback]
  · rintro rfl
    exact ⟨n.toNat, ⟨by omega, inWord_uint64 n, rfl⟩, UInt64.ofNat_toNat⟩

theorem readInt32_eq_ok {v : Json} {n : Int32} : readInt32 v = .ok n ↔ v = .ofInt32 n := by
  have hlow := n.le_toInt
  have hhigh := n.toInt_lt
  unfold readInt32
  simp only [map_eq_ok_iff, readInt_eq_ok]
  constructor
  · rintro ⟨i, ⟨hi, hw, rfl⟩, rfl⟩
    have hback : (Int32.ofInt i).toInt = i :=
      Int32.toInt_ofInt_of_le (by omega) (by omega)
    simp only [ofInt32, hback]
  · rintro rfl
    exact ⟨n.toInt, ⟨by omega, inWord_int32 n, rfl⟩, Int32.ofInt_toInt n⟩

theorem readString_eq_ok {v : Json} {s : String} : readString v = .ok s ↔ v = .str s := by
  cases v <;> simp [readString, readTextAs, mismatch]

/-! ## members of an object -/

theorem required_eq_ok {key : String} {x : Option α} {a : α} :
    required key x = .ok a ↔ x = some a := by
  cases x <;> simp [required]

theorem field?_eq_ok_some {ms : Members} {key : String} {read : Json → Decoded α} {a : α} :
    ms.field? key read = .ok (some a) ↔ ∃ v, ms.get? key = some v ∧ read v = .ok a := by
  unfold Members.field?
  cases ms.get? key with
  | none => simp
  | some v => simp [map_eq_ok_iff]

theorem field?_any (ms : Members) (key : String) : ms.field? key readAny = .ok (ms.get? key) := by
  unfold Members.field?
  cases ms.get? key <;> rfl

/-- What may be missing or null is read as nothing, and as a value otherwise. -/
inductive Nullable (P : Json → α → Prop) : Option Json → Option α → Prop where
  | missing : Nullable P none none
  | null : Nullable P (some .null) none
  | value {v : Json} {a : α} : v ≠ .null → P v a → Nullable P (some v) (some a)

theorem readOption_eq_ok {read : Json → Decoded α} {v : Json} {x : Option α} :
    readOption read v = .ok x ↔ Nullable (fun v a => read v = .ok a) (some v) x := by
  by_cases hv : v = .null
  · subst hv
    constructor
    · rintro ⟨⟩
      exact .null
    · rintro (_ | _ | ⟨h, _⟩)
      · rfl
      · exact absurd rfl h
  · have hread : readOption read v = (read v).map some := by
      unfold readOption
      split
      · exact absurd rfl hv
      · rfl
    rw [hread, map_eq_ok_iff]
    constructor
    · rintro ⟨a, ha, rfl⟩
      exact .value hv ha
    · rintro (_ | _ | ⟨_, ha⟩)
      · exact absurd rfl hv
      · exact ⟨_, ha, rfl⟩

theorem nullable?_eq_ok {ms : Members} {key : String} {read : Json → Decoded α} {x : Option α} :
    ms.nullable? key read = .ok x ↔ Nullable (fun v a => read v = .ok a) (ms.get? key) x := by
  unfold Members.nullable? Members.field?
  rw [map_eq_ok_iff]
  cases ms.get? key with
  | none =>
    constructor
    · rintro ⟨_, ⟨⟩, rfl⟩
      exact .missing
    · rintro ⟨⟩
      exact ⟨none, rfl, rfl⟩
  | some v =>
    rw [← readOption_eq_ok]
    simp only [map_eq_ok_iff]
    constructor
    · rintro ⟨_, ⟨a, ha, rfl⟩, rfl⟩
      exact ha
    · exact fun h => ⟨some x, ⟨x, h, rfl⟩, rfl⟩

/-! ## items of an array -/

theorem next_eq_ok {r r' : Row} {expected : String} {read : Json → Decoded α} {a : α} :
    r.next expected read = .ok (a, r') ↔
      ∃ v rest, r.rest = v :: rest ∧ read v = .ok a ∧ r' = ⟨r.taken + 1, rest⟩ := by
  unfold Row.next
  cases r.rest with
  | nil => simp
  | cons v rest =>
    simp only [map_eq_ok_iff]
    constructor
    · rintro ⟨b, hb, ⟨⟩⟩
      exact ⟨v, rest, rfl, hb, rfl⟩
    · rintro ⟨_, _, ⟨⟩, ha, rfl⟩
      exact ⟨a, ha, rfl⟩

theorem finish_eq_ok {r : Row} {a b : α} : r.finish a = .ok b ↔ a = b ∧ r.rest = [] := by
  unfold Row.finish
  cases r.rest <;> simp

/-! ## records -/

/-- The fields of a record: the members of an object, or the items of an array, one for each name. -/
def fields? (names : List String) : Json → Option Members
  | .obj ms => some ms
  | .arr items => if items.length = names.length then some (names.zip items) else none
  | _ => none

theorem readRecord_arr_eq_ok {name : String} {ofMembers : Members → Decoded α}
    {ofRow : Row → Decoded (α × Row)} {items : List Json} {a : α} :
    readRecord name ofMembers ofRow (.arr items) = .ok a ↔
      ∃ r, ofRow ⟨0, items⟩ = .ok (a, r) ∧ r.rest = [] := by
  unfold readRecord
  rw [bind_eq_ok_iff]
  constructor
  · rintro ⟨⟨b, r⟩, h, hf⟩
    obtain ⟨rfl, hr⟩ := finish_eq_ok.mp hf
    exact ⟨r, h, hr⟩
  · rintro ⟨r, h, hr⟩
    exact ⟨(a, r), h, finish_eq_ok.mpr ⟨rfl, hr⟩⟩

/-- A reading that takes from an array what it takes from an object takes the fields of a record. -/
theorem readRecord_eq_ok {name : String} {ofMembers : Members → Decoded α}
    {ofRow : Row → Decoded (α × Row)} (names : List String)
    (hrow : ∀ items a, (∃ r, ofRow ⟨0, items⟩ = .ok (a, r) ∧ r.rest = []) ↔
      items.length = names.length ∧ ofMembers (names.zip items) = .ok a) {v : Json} {a : α} :
    readRecord name ofMembers ofRow v = .ok a ↔
      ∃ ms, v.fields? names = some ms ∧ ofMembers ms = .ok a := by
  cases v with
  | obj ms => exact ⟨fun h => ⟨ms, rfl, h⟩, fun ⟨_, h, ha⟩ => Option.some.inj h ▸ ha⟩
  | arr items =>
    rw [readRecord_arr_eq_ok, hrow]
    by_cases hl : items.length = names.length
    · have hfields : fields? names (.arr items) = some (names.zip items) := if_pos hl
      rw [hfields]
      exact ⟨fun ⟨_, ha⟩ => ⟨_, rfl, ha⟩, fun ⟨_, hm, ha⟩ => ⟨hl, Option.some.inj hm ▸ ha⟩⟩
    · have hfields : fields? names (.arr items) = none := if_neg hl
      rw [hfields]
      exact iff_of_false (fun ⟨h, _⟩ => hl h) nofun
  | null | bool _ | num _ | str _ => exact iff_of_false nofun nofun

theorem readPair_eq_ok {name expected : String} {k₁ k₂ : String} (hk : k₁ ≠ k₂)
    {read₁ : Json → Decoded β} {read₂ : Json → Decoded γ} {make : β → γ → α} {v : Json} {a : α} :
    readRecord name
        (fun ms => do
          let y ← ms.field? k₂ read₂
          let x ← ms.field? k₁ read₁
          let x ← required k₁ x
          let y ← required k₂ y
          return make x y)
        (fun r => do
          let (x, r) ← r.next expected read₁
          let (y, r) ← r.next expected read₂
          return (make x y, r)) v = .ok a ↔
      ∃ ms, v.fields? [k₁, k₂] = some ms ∧
        ∃ x y, (∃ u, ms.get? k₁ = some u ∧ read₁ u = .ok x) ∧
          (∃ u, ms.get? k₂ = some u ∧ read₂ u = .ok y) ∧ make x y = a := by
  have hmembers : ∀ ms : Members, ∀ a, (do
      let y ← ms.field? k₂ read₂
      let x ← ms.field? k₁ read₁
      let x ← required k₁ x
      let y ← required k₂ y
      return make x y : Decoded α) = .ok a ↔
      ∃ x y, (∃ u, ms.get? k₁ = some u ∧ read₁ u = .ok x) ∧
        (∃ u, ms.get? k₂ = some u ∧ read₂ u = .ok y) ∧ make x y = a := fun ms a => by
    simp only [bind_eq_ok_iff, required_eq_ok, pure_eq_ok_iff]
    constructor
    · rintro ⟨_, hy, _, hx, x, rfl, y, rfl, rfl⟩
      exact ⟨x, y, field?_eq_ok_some.mp hx, field?_eq_ok_some.mp hy, rfl⟩
    · rintro ⟨x, y, hx, hy, rfl⟩
      exact ⟨_, field?_eq_ok_some.mpr hy, _, field?_eq_ok_some.mpr hx, x, rfl, y, rfl, rfl⟩
  rw [readRecord_eq_ok [k₁, k₂]]
  · simp only [hmembers]
  · intro items a
    simp only [hmembers, bind_eq_ok_iff, pure_eq_ok_iff, Prod.exists, next_eq_ok]
    constructor
    · rintro ⟨r, ⟨x, _, ⟨u, _, rfl, hx, rfl⟩, y, _, ⟨w, rest, rfl, hy, rfl⟩, ⟨⟩⟩, rfl⟩
      exact ⟨rfl, x, y, ⟨u, by simp [Members.get?], hx⟩, ⟨w, by simp [Members.get?, hk], hy⟩, rfl⟩
    · rintro ⟨hl, x, y, ⟨u, hu, hx⟩, ⟨w, hw, hy⟩, rfl⟩
      obtain ⟨u', w', rfl⟩ := List.length_eq_two.mp hl
      obtain rfl : u' = u := by simpa [Members.get?] using hu
      obtain rfl : w' = w := by simpa [Members.get?, hk] using hw
      exact ⟨_, ⟨x, _, ⟨_, _, rfl, hx, rfl⟩, y, _, ⟨_, _, rfl, hy, rfl⟩, rfl⟩, rfl⟩

/-! ## records whose last fields may be left out -/

namespace Members

theorem get?_zip_cons (key name : String) (names : List String) (items : List Json) :
    get? key (List.zip (name :: names) items) =
      if name = key then items.head? else get? key (names.zip items.tail) := by
  cases items with
  | nil => simp [get?]
  | cons v items => rfl

end Members

theorem next_eq_ok_iff {r r' : Row} {expected : String} {read : Json → Decoded α} {a : α} :
    r.next expected read = .ok (a, r') ↔
      (∃ v, r.rest.head? = some v ∧ read v = .ok a) ∧ r' = ⟨r.taken + 1, r.rest.tail⟩ := by
  rw [next_eq_ok]
  cases r.rest <;> simp

/-- An item that may be left out is read as nothing when the array ends before it. -/
theorem nextOr_eq_ok_iff {r r' : Row} {read : Json → Decoded α} {x : Option α} :
    r.nextOr none (readOption read) = .ok (x, r') ↔
      Nullable (fun v a => read v = .ok a) r.rest.head? x ∧ r' = ⟨r.taken + 1, r.rest.tail⟩ := by
  obtain ⟨taken, rest⟩ := r
  cases rest with
  | nil =>
    constructor
    · rintro ⟨⟩
      exact ⟨.missing, rfl⟩
    · rintro ⟨⟨⟩, rfl⟩
      rfl
  | cons v rest =>
    simp only [Row.nextOr, map_eq_ok_iff, readOption_eq_ok, List.head?_cons, List.tail_cons]
    constructor
    · rintro ⟨y, hy, ⟨⟩⟩
      exact ⟨hy, rfl⟩
    · rintro ⟨hx, rfl⟩
      exact ⟨x, hx, rfl⟩

theorem iterate_tail_eq_nil_iff (n : Nat) {items : List Json} :
    List.tail^[n] items = [] ↔ items.length ≤ n := by
  rw [List.tail_iterate, List.drop_eq_nil_iff]

/-- The fields of a record whose last ones may be left out of an array. -/
def rowFields? (names : List String) : Json → Option Members
  | .obj ms => some ms
  | .arr items => if items.length ≤ names.length then some (names.zip items) else none
  | _ => none

/-- A reading that takes from an array, which may end early, what it takes from an object takes the
fields of a record. -/
theorem readRow_eq_ok {name : String} {ofMembers : Members → Decoded α}
    {ofRow : Row → Decoded (α × Row)} {FieldsRead : Members → α → Prop} (names : List String)
    (hmembers : ∀ ms a, ofMembers ms = .ok a ↔ FieldsRead ms a)
    (hrow : ∀ items a, (∃ r, ofRow ⟨0, items⟩ = .ok (a, r) ∧ r.rest = []) ↔
      items.length ≤ names.length ∧ FieldsRead (names.zip items) a) {v : Json} {a : α} :
    readRecord name ofMembers ofRow v = .ok a ↔
      ∃ ms, v.rowFields? names = some ms ∧ FieldsRead ms a := by
  cases v with
  | obj ms =>
    refine (hmembers ms a).trans ?_
    exact ⟨fun h => ⟨ms, rfl, h⟩, fun ⟨_, h, ha⟩ => Option.some.inj h ▸ ha⟩
  | arr items =>
    rw [readRecord_arr_eq_ok, hrow]
    by_cases hl : items.length ≤ names.length
    · have hfields : rowFields? names (.arr items) = some (names.zip items) := if_pos hl
      rw [hfields]
      exact ⟨fun ⟨_, ha⟩ => ⟨_, rfl, ha⟩, fun ⟨_, hm, ha⟩ => ⟨hl, Option.some.inj hm ▸ ha⟩⟩
    · have hfields : rowFields? names (.arr items) = none := if_neg hl
      rw [hfields]
      exact iff_of_false (fun ⟨h, _⟩ => hl h) nofun
  | null | bool _ | num _ | str _ => exact iff_of_false nofun nofun

/-! ## lists and unions -/

theorem mapM_eq_ok {read : β → Decoded α} {items : List β} {as : List α} :
    items.mapM read = .ok as ↔ List.Forall₂ (fun v a => read v = .ok a) items as := by
  induction items generalizing as with
  | nil =>
    rw [List.mapM_nil, pure_eq_ok_iff, List.forall₂_nil_left_iff]
    exact eq_comm
  | cons v items ih =>
    simp only [List.mapM_cons, bind_eq_ok_iff, pure_eq_ok_iff, ih, List.forall₂_cons_left_iff]
    constructor
    · rintro ⟨a, ha, as, has, rfl⟩
      exact ⟨a, as, ha, has, rfl⟩
    · rintro ⟨a, as, ha, has, rfl⟩
      exact ⟨a, ha, as, has, rfl⟩

theorem readList_eq_ok {read : Json → Decoded α} {v : Json} {as : List α} :
    readList read v = .ok as ↔
      ∃ items, v = .arr items ∧ List.Forall₂ (fun v a => read v = .ok a) items as := by
  cases v with
  | arr items => simpa [readList] using mapM_eq_ok
  | null | bool _ | num _ | str _ | obj _ => simp [readList, mismatch]

theorem readMap_eq_ok {read : Json → Decoded α} {v : Json} {entries : List (String × α)} :
    readMap read v = .ok entries ↔
      ∃ ms, v = .obj ms ∧ List.Forall₂ (fun m e => m.1 = e.1 ∧ read m.2 = .ok e.2) ms entries := by
  cases v with
  | obj ms =>
    have hentry : ∀ (m : String × Json) (e : String × α),
        (read m.2).map (fun a => (m.1, a)) = .ok e ↔ m.1 = e.1 ∧ read m.2 = .ok e.2 := by
      rintro ⟨key, v⟩ ⟨name, a⟩
      simp only [map_eq_ok_iff, Prod.mk.injEq]
      constructor
      · rintro ⟨b, hb, rfl, rfl⟩
        exact ⟨rfl, hb⟩
      · rintro ⟨rfl, ha⟩
        exact ⟨a, ha, rfl, rfl⟩
    refine mapM_eq_ok.trans ?_
    simp only [hentry, obj.injEq, exists_eq_left']
  | null | bool _ | num _ | str _ | arr _ => simp [readMap, mismatch]

/-- What a value says in the first of two shapes that it can have. -/
inductive FirstOf (P Q : Json → α → Prop) (v : Json) (a : α) : Prop where
  | first (h : P v a) : FirstOf P Q v a
  | second (hno : ∀ b, ¬ P v b) (h : Q v a) : FirstOf P Q v a

theorem exists_firstOf_iff {P Q : Json → α → Prop} {v : Json} :
    (∃ a, FirstOf P Q v a) ↔ (∃ a, P v a) ∨ ∃ a, Q v a := by
  constructor
  · rintro ⟨a, h | ⟨-, h⟩⟩
    · exact .inl ⟨a, h⟩
    · exact .inr ⟨a, h⟩
  · rintro (⟨a, h⟩ | ⟨a, h⟩)
    · exact ⟨a, .first h⟩
    · by_cases hfirst : ∃ b, P v b
      · exact hfirst.imp fun _ => .first
      · exact ⟨a, .second (not_exists.mp hfirst) h⟩

theorem readUnion_eq_ok {union : String} {first second : Json → Decoded α} {v : Json} {a : α} :
    readUnion union [first, second] v = .ok a ↔
      FirstOf (fun v a => first v = .ok a) (fun v a => second v = .ok a) v a := by
  unfold readUnion
  rw [List.findSome?_cons]
  cases hfirst : first v with
  | ok b =>
    simp only [Except.toOption]
    constructor
    · rintro ⟨⟩
      exact .first hfirst
    · rintro (h | ⟨hno, -⟩)
      · rw [← hfirst, h]
      · exact absurd hfirst (hno b)
  | error e =>
    simp only [Except.toOption, List.findSome?_cons, List.findSome?_nil]
    have hno : ∀ b, ¬ first v = .ok b := fun b h => by cases hfirst.symm.trans h
    cases hsecond : second v with
    | ok b =>
      constructor
      · rintro ⟨⟩
        exact .second hno hsecond
      · rintro (h | ⟨-, h⟩)
        · exact absurd h (hno a)
        · rw [← hsecond, h]
    | error e' =>
      constructor
      · rintro ⟨⟩
      · rintro (h | ⟨-, h⟩)
        · exact absurd h (hno a)
        · cases hsecond.symm.trans h

end Json

end CodeBridge
