import CodeBridge.Proofs.Protocol.Findings
import CodeBridge.Proofs.Protocol.Written
import CodeBridge.Protocol.Reply

/-!
# Replies that give places

A reply is nothing, one item or a list of items (`Json.entries`), and a place is given by itself or
by a link to it (`Location.Reads`, `Location.LinkReads`).

* `readOneOrMany_eq_ok`, `readOneOrMany_append`   a reply is read entry by entry, in order;
* `Location.ofJson_eq_ok`, `Location.ofLink_eq_ok`   what a place and a link say;
* `readLocations_entries`   one place for each entry, the first of the two shapes that fits.
-/

namespace CodeBridge

variable {α : Type}

/-! ## one item or many -/

/-- What a reply consists of: nothing, one value, or the items of a list. -/
def Json.entries : Json → List Json
  | .null => []
  | .arr items => items
  | v => [v]

theorem Json.entries_single {v : Json} (hnull : v ≠ .null) (harr : ∀ items, v ≠ .arr items) :
    v.entries = [v] := by
  unfold entries
  split
  · exact absurd rfl hnull
  · exact absurd rfl (harr _)
  · rfl

theorem readOneOrMany_entries (read : Json → Decoded α) (v : Json) :
    readOneOrMany read v = v.entries.mapM read := by
  cases v with
  | null => rfl
  | arr items => rfl
  | bool _ | num _ | str _ | obj _ =>
    show (read _).map _ = List.mapM read [_]
    rw [List.mapM_cons]
    cases read _ <;> rfl

theorem readOneOrMany_eq_ok {read : Json → Decoded α} {v : Json} {as : List α} :
    readOneOrMany read v = .ok as ↔ List.Forall₂ (fun u a => read u = .ok a) v.entries as := by
  rw [readOneOrMany_entries, Json.mapM_eq_ok]

theorem exists_forall₂_iff {β γ : Type} {R : β → γ → Prop} {as : List β} :
    (∃ bs, List.Forall₂ R as bs) ↔ ∀ a ∈ as, ∃ b, R a b := by
  induction as with
  | nil => exact iff_of_true ⟨[], .nil⟩ nofun
  | cons a as ih =>
    rw [List.forall_mem_cons, ← ih]
    constructor
    · rintro ⟨_, _ | ⟨hb, hbs⟩⟩
      exact ⟨⟨_, hb⟩, _, hbs⟩
    · rintro ⟨⟨b, hb⟩, bs, hbs⟩
      exact ⟨b :: bs, .cons hb hbs⟩

theorem exists_error_iff {x : Decoded α} : (∃ e, x = .error e) ↔ ¬ ∃ a, x = .ok a := by
  cases x <;> simp

/-! ### lists read part by part -/

section

variable (read : Json → Decoded α) (xs ys : List Json)

theorem readOneOrMany_append :
    readOneOrMany read (.arr (xs ++ ys)) = (do
      let as ← readOneOrMany read (.arr xs)
      let bs ← readOneOrMany read (.arr ys)
      return as ++ bs) :=
  List.mapM_append

variable {read xs ys}

theorem readOneOrMany_append_ok {as bs : List α} (has : readOneOrMany read (.arr xs) = .ok as)
    (hbs : readOneOrMany read (.arr ys) = .ok bs) :
    readOneOrMany read (.arr (xs ++ ys)) = .ok (as ++ bs) := by
  rw [readOneOrMany_append, has, hbs]
  rfl

theorem readOneOrMany_append_error :
    (∃ e, readOneOrMany read (.arr (xs ++ ys)) = .error e) ↔
      (∃ e, readOneOrMany read (.arr xs) = .error e) ∨
        ∃ e, readOneOrMany read (.arr ys) = .error e := by
  rw [readOneOrMany_append]
  cases readOneOrMany read (.arr xs) with
  | error e => exact iff_of_true ⟨e, rfl⟩ (.inl ⟨e, rfl⟩)
  | ok as =>
    cases readOneOrMany read (.arr ys) with
    | error e => exact iff_of_true ⟨e, rfl⟩ (.inr ⟨e, rfl⟩)
    | ok bs => exact iff_of_false nofun (by rintro (⟨_, ⟨⟩⟩ | ⟨_, ⟨⟩⟩))

theorem readOneOrMany_congr {u w : Json} (h : read u = read w) :
    readOneOrMany read (.arr (xs ++ u :: ys)) = readOneOrMany read (.arr (xs ++ w :: ys)) := by
  show List.mapM read _ = List.mapM read _
  rw [List.mapM_append, List.mapM_append, List.mapM_cons, List.mapM_cons, h]

end

/-! ## places and links -/

namespace Location

/-- The place that a value says with the document under one name and the range under another. -/
def Under (uri range : String) (v : Json) (l : Location) : Prop :=
  ∃ ms, v.fields? [uri, range] = some ms ∧ ms.get? uri = some (.str l.uri) ∧
    ∃ u, ms.get? range = some u ∧ Range.Reads u l.range

def Reads : Json → Location → Prop := Under "uri" "range"

/-- The place that a link says: where the name of its target stands. -/
def LinkReads : Json → Location → Prop := Under "targetUri" "targetSelectionRange"

theorem readUnder_eq_ok {name expected uri range : String} (hk : uri ≠ range) {v : Json}
    {l : Location} :
    Json.readRecord name
        (fun ms => do
          let r ← ms.field? range Range.ofJson
          let u ← ms.field? uri Json.readString
          let u ← Json.required uri u
          let r ← Json.required range r
          return Location.mk u r)
        (fun r => do
          let (u, r) ← r.next expected Json.readString
          let (range, r) ← r.next expected Range.ofJson
          return (Location.mk u range, r)) v = .ok l ↔ Under uri range v l := by
  refine (Json.readPair_eq_ok hk).trans ?_
  simp only [Json.readString_eq_ok, Range.ofJson_eq_ok]
  constructor
  · rintro ⟨ms, hms, _, _, ⟨_, huri, rfl⟩, hrange, rfl⟩
    exact ⟨ms, hms, huri, hrange⟩
  · rintro ⟨ms, hms, huri, hrange⟩
    exact ⟨ms, hms, _, _, ⟨_, huri, rfl⟩, hrange, rfl⟩

theorem ofJson_eq_ok {v : Json} {l : Location} : ofJson v = .ok l ↔ Reads v l :=
  readUnder_eq_ok (by decide)

theorem ofLink_eq_ok {v : Json} {l : Location} : ofLink v = .ok l ↔ LinkReads v l :=
  readUnder_eq_ok (by decide)

end Location

theorem readAnyLocation_eq_ok {v : Json} {l : Location} :
    readAnyLocation v = .ok l ↔ Json.FirstOf Location.Reads Location.LinkReads v l := by
  refine Json.readUnion_eq_ok.trans ?_
  simp only [Location.ofJson_eq_ok, Location.ofLink_eq_ok]

/-- What a link says of the whole range of its target does not matter. -/
theorem readAnyLocation_targetRange (u : Json) (ms : Json.Members) :
    readAnyLocation (.obj (Json.Members.insert "targetRange" u ms)) =
      readAnyLocation (.obj ms) := by
  have hplace : Location.ofJson (.obj (Json.Members.insert "targetRange" u ms)) =
      Location.ofJson (.obj ms) := by
    show Location.ofMembers _ = Location.ofMembers _
    simp [Location.ofMembers, Json.Members.field?_insert_ne]
  have hlink : Location.ofLink (.obj (Json.Members.insert "targetRange" u ms)) =
      Location.ofLink (.obj ms) := by
    show Location.ofLinkMembers _ = Location.ofLinkMembers _
    simp [Location.ofLinkMembers, Json.Members.field?_insert_ne]
  simp only [readAnyLocation, Json.readUnion, List.findSome?_cons, List.findSome?_nil,
    hplace, hlink]

theorem readLocations_eq_ok {v : Json} {ls : List Location} :
    readLocations v = .ok ls ↔
      List.Forall₂ (Json.FirstOf Location.Reads Location.LinkReads) v.entries ls := by
  refine readOneOrMany_eq_ok.trans ?_
  simp only [readAnyLocation_eq_ok]

/-! ## all places of a reply -/

/-- **A reply gives one place for each of its entries, in order: what the entry says as a place, or
else where the name of its target stands, if it says that as a link.  An entry that is neither
spoils the reply.  So a value that is no list is read as the list of it alone, and a list is read
as its parts are.** -/
theorem readLocations_entries :
    readLocations .null = .ok [] ∧
    (∀ v, v ≠ .null → (∀ items, v ≠ .arr items) → readLocations v = readLocations (.arr [v])) ∧
    (∀ xs ys as bs, readLocations (.arr xs) = .ok as → readLocations (.arr ys) = .ok bs →
      readLocations (.arr (xs ++ ys)) = .ok (as ++ bs)) ∧
    (∀ xs ys, (∃ e, readLocations (.arr (xs ++ ys)) = .error e) ↔
      (∃ e, readLocations (.arr xs) = .error e) ∨ ∃ e, readLocations (.arr ys) = .error e) ∧
    (∀ v ls, readLocations v = .ok ls ↔
      List.Forall₂ (Json.FirstOf Location.Reads Location.LinkReads) v.entries ls) ∧
    (∀ v ls, readLocations v = .ok ls → ls.length = v.entries.length) ∧
    (∀ v, (∃ e, readLocations v = .error e) ↔
      ∃ u ∈ v.entries, ∀ l, ¬ Location.Reads u l ∧ ¬ Location.LinkReads u l) ∧
    ∀ xs ys u ms, readLocations (.arr (xs ++ .obj (Json.Members.insert "targetRange" u ms) :: ys)) =
      readLocations (.arr (xs ++ .obj ms :: ys)) := by
  refine ⟨rfl, fun v hnull harr => ?_, fun xs ys as bs has hbs => ?_, fun xs ys => ?_,
    fun v ls => readLocations_eq_ok, fun v ls h => ?_, fun v => ?_, fun xs ys u ms => ?_⟩
  · have hone := readOneOrMany_entries readAnyLocation v
    rw [Json.entries_single hnull harr] at hone
    exact hone
  · exact readOneOrMany_append_ok has hbs
  · exact readOneOrMany_append_error
  · exact (readLocations_eq_ok.mp h).length_eq.symm
  · rw [exists_error_iff]
    simp only [readLocations_eq_ok, exists_forall₂_iff, Json.exists_firstOf_iff, not_forall,
      exists_prop, not_or, not_exists, ← forall_and]
  · exact readOneOrMany_congr (readAnyLocation_targetRange u ms)

def linkToName : Json :=
  .obj [("targetRange", Range.toJson ⟨⟨10, 0⟩, ⟨14, 1⟩⟩),
    ("targetSelectionRange", Range.toJson ⟨⟨11, 2⟩, ⟨11, 8⟩⟩), ("targetUri", .str "file:///c.go")]

/-- A place as an array of its fields, its positions written likewise. -/
def placeInRow : Json :=
  .arr [.str "file:///d.go", .arr [.arr [.ofNat 1, .ofNat 2], .arr [.ofNat 3, .ofNat 4]]]

theorem readLocations_linkAndRow :
    readLocations linkToName = readLocations (.arr [linkToName]) ∧
      readLocations (.arr [linkToName]) = .ok [⟨"file:///c.go", ⟨⟨11, 2⟩, ⟨11, 8⟩⟩⟩] ∧
      readLocations (.arr [placeInRow]) = .ok [⟨"file:///d.go", ⟨⟨1, 2⟩, ⟨3, 4⟩⟩⟩] ∧
      readLocations (.arr ([linkToName] ++ [placeInRow])) =
        .ok [⟨"file:///c.go", ⟨⟨11, 2⟩, ⟨11, 8⟩⟩⟩, ⟨"file:///d.go", ⟨⟨1, 2⟩, ⟨3, 4⟩⟩⟩] := by
  have hlink : readLocations (.arr [linkToName]) = .ok [⟨"file:///c.go", ⟨⟨11, 2⟩, ⟨11, 8⟩⟩⟩] := rfl
  have hrow : readLocations (.arr [placeInRow]) = .ok [⟨"file:///d.go", ⟨⟨1, 2⟩, ⟨3, 4⟩⟩⟩] := rfl
  exact ⟨readLocations_entries.2.1 linkToName nofun nofun, hlink, hrow,
    readLocations_entries.2.2.1 _ _ _ _ hlink hrow⟩

/-- By itself the array is a list of two entries, and neither is a place. -/
example : ∃ e, readLocations placeInRow = .error e := ⟨_, rfl⟩

end CodeBridge
