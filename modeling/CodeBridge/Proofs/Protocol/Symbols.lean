import Mathlib.Tactic.MkIffOfInductiveProp
import CodeBridge.Proofs.Protocol.Places
import CodeBridge.Proofs.Protocol.Rereading

/-!
# Replies that give symbols

An outline comes as a tree or as a list of symbols with their places, and a search gives such a list
too, where a place may be no more than its document.

* `SymbolInformation.readSymbol_eq_ok`   what a symbol with its place says;
* `DocumentSymbol.ofJson_eq_ok`          what a node says, with all nodes below it;
* `readOutline_eq_ok`, `readOutline_forest`   a tree before a list, and nothing lost;
* `Location.Given`, `Location.RangeLost`      the place that is given, the range that is not read;
* `readWorkspaceSymbols_given`           one symbol for each entry, and whether its place is given.
-/

namespace CodeBridge

/-! ## kinds -/

def SymbolKind.Reads (v : Json) (k : SymbolKind) : Prop :=
  ∃ n, v = .ofUInt32 n ∧ ofCode n = k

theorem SymbolKind.ofJson_eq_ok {v : Json} {k : SymbolKind} : ofJson v = .ok k ↔ Reads v k := by
  unfold ofJson
  simp only [map_eq_ok_iff, Json.readUInt32_eq_ok]
  rfl

/-! ## symbols by place -/

namespace SymbolInformation

def fieldNames : List String := ["name", "kind", "location", "containerName"]

/-- The symbol that the fields of a record say, when `Place` is what its place says. -/
@[mk_iff]
structure FieldsRead (Place : Json → Location → Prop) (ms : Json.Members)
    (s : SymbolInformation) : Prop where
  name : ms.get? "name" = some (.str s.name)
  kind : ∃ u, ms.get? "kind" = some u ∧ SymbolKind.Reads u s.kind
  location : ∃ u, ms.get? "location" = some u ∧ Place u s.location
  containerName : Json.Nullable (fun v t => v = .str t) (ms.get? "containerName") s.containerName

def ReadsAt (Place : Json → Location → Prop) (v : Json) (s : SymbolInformation) : Prop :=
  ∃ ms, v.rowFields? fieldNames = some ms ∧ FieldsRead Place ms s

section

variable {name expected : String} {readPlace : Json → Decoded Location}

theorem readMembers_eq_ok {ms : Json.Members} {s : SymbolInformation} :
    (do
      let containerName ← ms.nullable? "containerName" Json.readString
      let kind ← ms.field? "kind" SymbolKind.ofJson
      let location ← ms.field? "location" readPlace
      let name ← ms.field? "name" Json.readString
      let name ← Json.required "name" name
      let kind ← Json.required "kind" kind
      let location ← Json.required "location" location
      return SymbolInformation.mk name kind location containerName : Decoded SymbolInformation) =
        .ok s ↔ FieldsRead (fun v l => readPlace v = .ok l) ms s := by
  simp only [bind_eq_ok_iff, Json.required_eq_ok, pure_eq_ok_iff, Json.nullable?_eq_ok,
    Json.readString_eq_ok]
  constructor
  · rintro ⟨_, hcontainer, _, hkind, _, hplace, _, hname, _, rfl, _, rfl, _, rfl, rfl⟩
    simp only [Json.field?_eq_ok_some, Json.readString_eq_ok, SymbolKind.ofJson_eq_ok]
      at hname hkind hplace
    obtain ⟨_, hname, rfl⟩ := hname
    exact ⟨hname, hkind, hplace, hcontainer⟩
  · rintro ⟨hname, hkind, hplace, hcontainer⟩
    refine ⟨_, hcontainer, some s.kind, ?_, some s.location, ?_, some s.name, ?_, _, rfl, _, rfl, _,
      rfl, rfl⟩
    · simpa only [Json.field?_eq_ok_some, SymbolKind.ofJson_eq_ok] using hkind
    · simpa only [Json.field?_eq_ok_some] using hplace
    · simpa only [Json.field?_eq_ok_some, Json.readString_eq_ok, exists_eq_right] using hname

theorem readSymbol_eq_ok {v : Json} {s : SymbolInformation} :
    Json.readRecord name
        (fun ms => do
          let containerName ← ms.nullable? "containerName" Json.readString
          let kind ← ms.field? "kind" SymbolKind.ofJson
          let location ← ms.field? "location" readPlace
          let name ← ms.field? "name" Json.readString
          let name ← Json.required "name" name
          let kind ← Json.required "kind" kind
          let location ← Json.required "location" location
          return SymbolInformation.mk name kind location containerName)
        (fun r => do
          let (name, r) ← r.next expected Json.readString
          let (kind, r) ← r.next expected SymbolKind.ofJson
          let (location, r) ← r.next expected readPlace
          let (containerName, r) ← r.nextOr none (Json.readOption Json.readString)
          return (SymbolInformation.mk name kind location containerName, r)) v = .ok s ↔
      ReadsAt (fun v l => readPlace v = .ok l) v s := by
  refine Json.readRow_eq_ok fieldNames (fun _ _ => readMembers_eq_ok) fun items s => ?_
  simp only [bind_eq_ok_iff, pure_eq_ok_iff, Prod.exists, Json.next_eq_ok_iff,
    Json.nextOr_eq_ok_iff, Json.readString_eq_ok, SymbolKind.ofJson_eq_ok, fieldsRead_iff,
    fieldNames, Json.Members.get?_zip_cons, String.reduceEq, reduceIte]
  constructor
  · rintro ⟨r, ⟨name, _, ⟨⟨_, hname, rfl⟩, rfl⟩, kind, _, ⟨hkind, rfl⟩, place, _, ⟨hplace, rfl⟩,
      container, _, ⟨hcontainer, rfl⟩, ⟨⟩⟩, hr⟩
    exact ⟨(Json.iterate_tail_eq_nil_iff 4).mp hr, hname, hkind, hplace, hcontainer⟩
  · rintro ⟨hl, hname, hkind, hplace, hcontainer⟩
    refine ⟨_, ⟨_, _, ⟨⟨_, hname, rfl⟩, rfl⟩, _, _, ⟨hkind, rfl⟩, _, _, ⟨hplace, rfl⟩, _, _,
      ⟨hcontainer, rfl⟩, rfl⟩, (Json.iterate_tail_eq_nil_iff 4).mpr hl⟩

end

def Reads : Json → SymbolInformation → Prop := ReadsAt Location.Reads

theorem ofJson_eq_ok {v : Json} {s : SymbolInformation} : ofJson v = .ok s ↔ Reads v s := by
  refine readSymbol_eq_ok.trans ?_
  simp only [Location.ofJson_eq_ok]
  rfl

end SymbolInformation

/-! ## nodes of an outline -/

theorem Json.mem_parts_of_field {names : List String} {v u : Json} {ms : Json.Members}
    {key : String} (hms : v.rowFields? names = some ms) (hu : ms.get? key = some u) :
    u ∈ v.parts := by
  cases v with
  | obj members =>
    obtain rfl := Option.some.inj hms
    exact mem_parts_of_get? hu
  | arr items =>
    obtain ⟨-, ⟨⟩⟩ := Option.ite_none_right_eq_some.mp hms
    obtain ⟨⟨k, w⟩, hw, rfl⟩ := List.mem_map.mp (mem_parts_of_get? hu)
    exact (List.of_mem_zip hw).2
  | null | bool _ | num _ | str _ => cases hms

theorem forall₂_of_mem {α β : Type} {R S : α → β → Prop} {as : List α} {bs : List β}
    (h : List.Forall₂ R as bs) (himp : ∀ a ∈ as, ∀ b, R a b → S a b) : List.Forall₂ S as bs :=
  ((List.forall₂_and_left as bs).mpr ⟨himp, h⟩).imp fun _ b hab => hab.1 b hab.2

/-- What a list says that may be missing. -/
inductive Json.Listed {α : Type} (P : Json → α → Prop) : Option Json → List α → Prop where
  | missing : Listed P none []
  | items {items : List Json} {as : List α} (h : List.Forall₂ P items as) :
    Listed P (some (.arr items)) as

theorem Json.Listed.congr {α : Type} {P Q : Json → α → Prop} {part : Option Json} {as : List α}
    (h : ∀ items, part = some (.arr items) → ∀ u ∈ items, ∀ a, P u a ↔ Q u a) :
    Listed P part as ↔ Listed Q part as := by
  constructor
  · rintro (_ | hitems)
    · exact .missing
    · exact .items (forall₂_of_mem hitems fun u hu a ha => (h _ rfl u hu a).mp ha)
  · rintro (_ | hitems)
    · exact .missing
    · exact .items (forall₂_of_mem hitems fun u hu a ha => (h _ rfl u hu a).mpr ha)

theorem Json.readListed_eq_ok {α : Type} {read : Json → Decoded α} {part : Option Json}
    {as : List α} :
    (part.map (readList read)).getD (.ok []) = .ok as ↔
      Listed (fun v a => read v = .ok a) part as := by
  cases part with
  | none =>
    constructor
    · rintro ⟨⟩
      exact .missing
    · rintro ⟨⟩
      rfl
  | some v =>
    refine readList_eq_ok.trans ?_
    constructor
    · rintro ⟨items, rfl, h⟩
      exact .items h
    · rintro ⟨⟩
      exact ⟨_, rfl, ‹_›⟩

namespace DocumentSymbol

def fieldNames : List String :=
  ["name", "detail", "kind", "range", "selectionRange", "children"]

/-- What the fields of a record say of a node, apart from its children. -/
@[mk_iff]
structure HeadRead (ms : Json.Members) (s : DocumentSymbol) : Prop where
  name : ms.get? "name" = some (.str s.name)
  detail : Json.Nullable (fun v t => v = .str t) (ms.get? "detail") s.detail
  kind : ∃ u, ms.get? "kind" = some u ∧ SymbolKind.Reads u s.kind
  range : ∃ u, ms.get? "range" = some u ∧ Range.Reads u s.range
  selectionRange : ∃ u, ms.get? "selectionRange" = some u ∧ Range.Reads u s.selectionRange

/-- The node that a value says, with all nodes below it. -/
inductive Reads : Json → DocumentSymbol → Prop where
  | node {v : Json} {ms : Json.Members} {s : DocumentSymbol}
    (fields : v.rowFields? fieldNames = some ms) (head : HeadRead ms s)
    (children : Json.Listed Reads (ms.get? "children") s.children) : Reads v s

theorem ofMembers_eq_ok {children : Option (Decoded (List DocumentSymbol))} {ms : Json.Members}
    {s : DocumentSymbol} :
    ofMembers children ms = .ok s ↔ HeadRead ms s ∧ children.getD (.ok []) = .ok s.children := by
  unfold ofMembers
  simp only [bind_eq_ok_iff, Json.required_eq_ok, pure_eq_ok_iff, Json.nullable?_eq_ok,
    Json.readString_eq_ok]
  constructor
  · rintro ⟨_, hchildren, _, hdetail, _, hkind, _, hname, _, hrange, _, hselection, _, rfl, _, rfl,
      _, rfl, _, rfl, rfl⟩
    simp only [Json.field?_eq_ok_some, Json.readString_eq_ok, SymbolKind.ofJson_eq_ok,
      Range.ofJson_eq_ok] at hname hkind hrange hselection
    obtain ⟨_, hname, rfl⟩ := hname
    exact ⟨⟨hname, hdetail, hkind, hrange, hselection⟩, hchildren⟩
  · rintro ⟨⟨hname, hdetail, hkind, hrange, hselection⟩, hchildren⟩
    obtain ⟨name, detail, kind, range, selectionRange, nodes⟩ := s
    refine ⟨_, hchildren, _, hdetail, some kind, ?_, some name, ?_, some range, ?_,
      some selectionRange, ?_, _, rfl, _, rfl, _, rfl, _, rfl, rfl⟩
    · simpa only [Json.field?_eq_ok_some, SymbolKind.ofJson_eq_ok] using hkind
    · simpa only [Json.field?_eq_ok_some, Json.readString_eq_ok, exists_eq_right] using hname
    · simpa only [Json.field?_eq_ok_some, Range.ofJson_eq_ok] using hrange
    · simpa only [Json.field?_eq_ok_some, Range.ofJson_eq_ok] using hselection

theorem ofItems_eq_ok {children : Option (Decoded (List DocumentSymbol))} {items : List Json}
    {s : DocumentSymbol} :
    ofItems children items = .ok s ↔ items.length ≤ fieldNames.length ∧
      HeadRead (fieldNames.zip items) s ∧ children.getD (.ok []) = .ok s.children := by
  unfold ofItems
  simp only [bind_eq_ok_iff, Prod.exists, Json.next_eq_ok_iff, Json.nextOr_eq_ok_iff,
    Json.finish_eq_ok, Json.readString_eq_ok, SymbolKind.ofJson_eq_ok, Range.ofJson_eq_ok,
    headRead_iff, fieldNames, Json.Members.get?_zip_cons, String.reduceEq, reduceIte]
  constructor
  · rintro ⟨name, _, ⟨⟨_, hname, rfl⟩, rfl⟩, detail, _, ⟨hdetail, rfl⟩, kind, _, ⟨hkind, rfl⟩,
      range, _, ⟨hrange, rfl⟩, selection, _, ⟨hselection, rfl⟩, nodes, hchildren, rfl, hr⟩
    exact ⟨(Json.iterate_tail_eq_nil_iff 6).mp hr, ⟨hname, hdetail, hkind, hrange, hselection⟩,
      hchildren⟩
  · rintro ⟨hl, ⟨hname, hdetail, hkind, hrange, hselection⟩, hchildren⟩
    obtain ⟨name, detail, kind, range, selectionRange, nodes⟩ := s
    exact ⟨_, _, ⟨⟨_, hname, rfl⟩, rfl⟩, _, _, ⟨hdetail, rfl⟩, _, _, ⟨hkind, rfl⟩, _, _,
      ⟨hrange, rfl⟩, _, _, ⟨hselection, rfl⟩, _, hchildren, rfl,
      (Json.iterate_tail_eq_nil_iff 6).mpr hl⟩

/-- The children stand in the sixth place. -/
theorem get?_children (items : List Json) :
    Json.Members.get? "children" (fieldNames.zip items) = items[5]? := by
  simp only [fieldNames, Json.Members.get?_zip_cons, String.reduceEq, reduceIte]
  rw [← List.head?_drop, ← List.tail_iterate]
  rfl

theorem ofJson_eq_ok_fields {v : Json} {s : DocumentSymbol} :
    ofJson v = .ok s ↔ ∃ ms, v.rowFields? fieldNames = some ms ∧ HeadRead ms s ∧
      Json.Listed (fun u c => ofJson u = .ok c) (ms.get? "children") s.children := by
  cases v with
  | obj ms =>
    rw [ofJson, membersChildren_eq, ofMembers_eq_ok, Json.readListed_eq_ok]
    constructor
    · exact fun h => ⟨ms, rfl, h⟩
    · rintro ⟨_, hms, h⟩
      obtain rfl := Option.some.inj hms
      exact h
  | arr items =>
    rw [ofJson, itemsChildren_eq, ofItems_eq_ok, Json.readListed_eq_ok, ← get?_children]
    constructor
    · rintro ⟨hl, h⟩
      exact ⟨_, if_pos hl, h⟩
    · rintro ⟨ms, hms, h⟩
      obtain ⟨hl, ⟨⟩⟩ := Option.ite_none_right_eq_some.mp hms
      exact ⟨hl, h⟩
  | null | bool _ | num _ | str _ =>
    constructor
    · rintro ⟨⟩
    · rintro ⟨_, ⟨⟩, _⟩

theorem reads_iff {v : Json} {s : DocumentSymbol} :
    Reads v s ↔ ∃ ms, v.rowFields? fieldNames = some ms ∧ HeadRead ms s ∧
      Json.Listed Reads (ms.get? "children") s.children :=
  ⟨fun ⟨fields, head, children⟩ => ⟨_, fields, head, children⟩,
    fun ⟨_, fields, head, children⟩ => ⟨fields, head, children⟩⟩

/-- A node and all nodes below it are read as the value says them. -/
theorem ofJson_eq_ok {v : Json} : ∀ {s : DocumentSymbol}, ofJson v = .ok s ↔ Reads v s := by
  induction v using Json.induction_inner with
  | h v ih =>
    intro s
    rw [ofJson_eq_ok_fields, reads_iff]
    refine exists_congr fun ms => and_congr_right fun hms => and_congr_right fun _ => ?_
    exact Json.Listed.congr fun items hitems u hu c =>
      ih (.arr items) (Json.mem_parts_of_field hms hitems) u hu

end DocumentSymbol

/-! ## outlines -/

theorem readTree_eq_ok {items : List Json} {nodes : List DocumentSymbol} :
    Json.readList DocumentSymbol.ofJson (.arr items) = .ok nodes ↔
      List.Forall₂ DocumentSymbol.Reads items nodes := by
  refine Json.mapM_eq_ok.trans ?_
  simp only [DocumentSymbol.ofJson_eq_ok]

theorem readFlat_eq_ok {items : List Json} {symbols : List SymbolInformation} :
    Json.readList SymbolInformation.ofJson (.arr items) = .ok symbols ↔
      List.Forall₂ SymbolInformation.Reads items symbols := by
  refine Json.mapM_eq_ok.trans ?_
  simp only [SymbolInformation.ofJson_eq_ok]

/-- The outline that a reply says: the nodes of a tree, or else symbols by their places. -/
inductive OutlineReads : Json → List DocumentSymbol → Prop where
  | nothing : OutlineReads .null []
  | tree {items : List Json} {nodes : List DocumentSymbol}
    (h : List.Forall₂ DocumentSymbol.Reads items nodes) : OutlineReads (.arr items) nodes
  | flat {items : List Json} {symbols : List SymbolInformation}
    (hno : ∀ nodes, ¬ List.Forall₂ DocumentSymbol.Reads items nodes)
    (h : List.Forall₂ SymbolInformation.Reads items symbols) :
    OutlineReads (.arr items) (symbols.map (·.toNode))

section

variable {items : List Json} {nodes : List DocumentSymbol}

theorem readOutline_tree (h : List.Forall₂ DocumentSymbol.Reads items nodes) :
    readOutline (.arr items) = .ok nodes := by
  have htree := readTree_eq_ok.mpr h
  simp only [readOutline, readOrElse, htree]

theorem readOutline_no_tree (hno : ∀ nodes, ¬ List.Forall₂ DocumentSymbol.Reads items nodes) :
    readOutline (.arr items) =
      (Json.readList SymbolInformation.ofJson (.arr items)).map fun symbols =>
        symbols.map (·.toNode) := by
  cases htree : Json.readList DocumentSymbol.ofJson (.arr items) with
  | ok tree => exact absurd (readTree_eq_ok.mp htree) (hno tree)
  | error e => simp only [readOutline, readOrElse, htree]

end

theorem readOutline_eq_ok {v : Json} {nodes : List DocumentSymbol} :
    readOutline v = .ok nodes ↔ OutlineReads v nodes := by
  constructor
  · intro hread
    cases v with
    | null =>
      obtain rfl := Except.ok.inj hread
      exact .nothing
    | arr items =>
      by_cases htree : ∃ tree, List.Forall₂ DocumentSymbol.Reads items tree
      · obtain ⟨tree, htree⟩ := htree
        obtain rfl := Except.ok.inj ((readOutline_tree htree).symm.trans hread)
        exact .tree htree
      · have hno := not_exists.mp htree
        rw [readOutline_no_tree hno, map_eq_ok_iff] at hread
        obtain ⟨symbols, hsymbols, rfl⟩ := hread
        exact .flat hno (readFlat_eq_ok.mp hsymbols)
    | bool _ | num _ | str _ | obj _ => cases hread
  · rintro (_ | htree | ⟨hno, hflat⟩)
    · rfl
    · exact readOutline_tree htree
    · rw [readOutline_no_tree hno, readFlat_eq_ok.mpr hflat]
      rfl

theorem OutlineReads.reread {v : Json} {nodes : List DocumentSymbol} (h : OutlineReads v nodes) :
    ∀ s ∈ nodes, DocumentSymbol.ofJson s.toJson = .ok s := by
  cases h with
  | nothing => exact nofun
  | tree h =>
    intro s hs
    obtain ⟨u, -, hu⟩ := Json.exists_of_mem_forall₂ h hs
    exact DocumentSymbol.stable u s (DocumentSymbol.ofJson_eq_ok.mpr hu)
  | flat hno h =>
    intro s hs
    obtain ⟨t, ht, rfl⟩ := List.mem_map.mp hs
    obtain ⟨u, -, hu⟩ := Json.exists_of_mem_forall₂ h ht
    have hkind := SymbolInformation.proper_of_ofJson (SymbolInformation.ofJson_eq_ok.mpr hu)
    exact DocumentSymbol.ofJson_toJson hkind nofun

theorem OutlineReads.length_eq {items : List Json} {nodes : List DocumentSymbol}
    (h : OutlineReads (.arr items) nodes) : nodes.length = items.length := by
  cases h with
  | tree h => exact h.length_eq.symm
  | flat hno h => rw [List.length_map, h.length_eq]

/-- A reply can be read if it is nothing, or a list that is a tree or a list of symbols. -/
theorem exists_outlineReads_iff {v : Json} :
    (∃ nodes, OutlineReads v nodes) ↔ v = .null ∨ ∃ items, v = .arr items ∧
      ((∀ u ∈ items, ∃ s, DocumentSymbol.Reads u s) ∨
        ∀ u ∈ items, ∃ s, SymbolInformation.Reads u s) := by
  simp only [← exists_forall₂_iff]
  constructor
  · rintro ⟨_, _ | htree | ⟨-, hflat⟩⟩
    · exact .inl rfl
    · exact .inr ⟨_, rfl, .inl ⟨_, htree⟩⟩
    · exact .inr ⟨_, rfl, .inr ⟨_, hflat⟩⟩
  · rintro (rfl | ⟨items, rfl, ⟨nodes, htree⟩ | ⟨symbols, hflat⟩⟩)
    · exact ⟨[], .nothing⟩
    · exact ⟨nodes, .tree htree⟩
    · by_cases htree : ∃ tree, List.Forall₂ DocumentSymbol.Reads items tree
      · exact htree.imp fun _ => .tree
      · exact ⟨_, .flat (not_exists.mp htree) hflat⟩

/-- **Nothing of an outline is lost.  A reply can be read if it is nothing, a list of nodes or a
list of symbols by their places, and it gives one node for each of its items, in order: the tree
that the items say, node for node, or else, if some node anywhere in it cannot be read, a node
without children for each symbol.  What was read is read back from what is written for it.** -/
theorem readOutline_forest :
    (∀ v, (∃ nodes, readOutline v = .ok nodes) ↔ v = .null ∨ ∃ items, v = .arr items ∧
      ((∀ u ∈ items, ∃ s, DocumentSymbol.Reads u s) ∨
        ∀ u ∈ items, ∃ s, SymbolInformation.Reads u s)) ∧
    readOutline .null = .ok [] ∧
    (∀ items nodes, List.Forall₂ DocumentSymbol.Reads items nodes →
      readOutline (.arr items) = .ok nodes) ∧
    (∀ items symbols, (¬ ∀ u ∈ items, ∃ s, DocumentSymbol.Reads u s) →
      List.Forall₂ SymbolInformation.Reads items symbols →
        readOutline (.arr items) = .ok (symbols.map fun s =>
          ⟨s.name, s.containerName, s.kind, s.location.range, s.location.range, []⟩)) ∧
    (∀ items nodes, readOutline (.arr items) = .ok nodes → nodes.length = items.length) ∧
    ∀ v nodes, readOutline v = .ok nodes →
      readOutline (.arr (nodes.map DocumentSymbol.toJson)) = .ok nodes := by
  refine ⟨fun v => ?_, rfl, fun items nodes => readOutline_tree, fun items symbols hno h => ?_,
    fun items nodes h => (readOutline_eq_ok.mp h).length_eq, fun v nodes h => ?_⟩
  · simp only [readOutline_eq_ok, exists_outlineReads_iff]
  · rw [← exists_forall₂_iff, not_exists] at hno
    exact readOutline_eq_ok.mpr (.flat hno h)
  · have hback := Json.readList_written (readOutline_eq_ok.mp h).reread
    exact readOutline_tree (readTree_eq_ok.mp hback)

/-- A symbol that is given in both ways at once, with a node two levels below it. -/
def inBothShapes (inner : Json) : Json :=
  let range := Range.toJson ⟨⟨3, 0⟩, ⟨9, 1⟩⟩
  .obj [("children", .arr [.obj [("children", .arr [inner]), ("kind", .ofNat 8),
      ("name", .str "Addr"), ("range", range), ("selectionRange", range)]]),
    ("containerName", .str "net"), ("kind", .ofNat 23),
    ("location", Location.toJson ⟨"file:///a.go", ⟨⟨4, 2⟩, ⟨4, 8⟩⟩⟩), ("name", .str "Server"),
    ("range", range), ("selectionRange", range)]

/-- One fault deep inside, a node without a name, and the symbols are read by their places. -/
theorem readOutline_faultInside :
    let items := [inBothShapes (.obj [("kind", .ofNat 8)])]
    let symbols : List SymbolInformation :=
      [⟨"Server", .struct, ⟨"file:///a.go", ⟨⟨4, 2⟩, ⟨4, 8⟩⟩⟩, some "net"⟩]
    let nodes : List DocumentSymbol :=
      [⟨"Server", some "net", .struct, ⟨⟨4, 2⟩, ⟨4, 8⟩⟩, ⟨⟨4, 2⟩, ⟨4, 8⟩⟩, []⟩]
    (¬ ∀ u ∈ items, ∃ s, DocumentSymbol.Reads u s) ∧
      List.Forall₂ SymbolInformation.Reads items symbols ∧
      readOutline (.arr items) = .ok nodes ∧
      readOutline (.arr (nodes.map DocumentSymbol.toJson)) = .ok nodes := by
  intro items symbols nodes
  have hno : ¬ ∀ u ∈ items, ∃ s, DocumentSymbol.Reads u s := fun h => by
    obtain ⟨s, hs⟩ := h _ List.mem_cons_self
    have herror : DocumentSymbol.ofJson (inBothShapes (.obj [("kind", .ofNat 8)])) =
        .error (.missing "name") := rfl
    cases herror.symm.trans (DocumentSymbol.ofJson_eq_ok.mpr hs)
  have hflat : List.Forall₂ SymbolInformation.Reads items symbols :=
    .cons (SymbolInformation.ofJson_eq_ok.mp rfl) .nil
  have hread := readOutline_forest.2.2.2.1 items symbols hno hflat
  exact ⟨hno, hflat, hread, readOutline_forest.2.2.2.2.2 _ nodes hread⟩

/-- Without the fault it is a tree. -/
example :
    let inner := Json.obj [("kind", .ofNat 8), ("name", .str "host"),
      ("range", Range.toJson .origin), ("selectionRange", Range.toJson .origin)]
    (readOutline (.arr [inBothShapes inner])).map (·.map fun s =>
      (s.name, s.children.map fun c => (c.name, c.children.map (·.name)))) =
        .ok [("Server", [("Addr", ["host"])])] := rfl

/-! ## symbols by a search -/

namespace Location

/-- The place that a value says which only tells the document. -/
def UriReads (v : Json) (l : Location) : Prop :=
  ∃ ms : Json.Members, v = .obj ms ∧ ms.get? "uri" = some (.str l.uri) ∧ l.range = .origin

theorem ofUriOnly_eq_ok {v : Json} {l : Location} : ofUriOnly v = .ok l ↔ UriReads v l := by
  unfold ofUriOnly Json.readObject
  cases v with
  | obj ms =>
    simp only [bind_eq_ok_iff, Json.required_eq_ok, pure_eq_ok_iff]
    constructor
    · rintro ⟨_, huri, uri, rfl, rfl⟩
      obtain ⟨_, huri, hstr⟩ := Json.field?_eq_ok_some.mp huri
      obtain rfl := Json.readString_eq_ok.mp hstr
      exact ⟨ms, rfl, huri, rfl⟩
    · rintro ⟨_, ⟨⟩, huri, hrange⟩
      refine ⟨some l.uri, Json.field?_eq_ok_some.mpr ⟨_, huri, rfl⟩, l.uri, rfl, ?_⟩
      rw [← hrange]
  | null | bool _ | num _ | str _ | arr _ =>
    exact iff_of_false nofun (by rintro ⟨_, ⟨⟩, -⟩)

/-- The place that is given: as it is said, or the start of a document of which no range is told. -/
inductive Given : Json → Location → Prop where
  | full {v : Json} {l : Location} (h : Reads v l) : Given v l
  | bare {ms : Json.Members} {uri : String} (huri : ms.get? "uri" = some (.str uri))
    (hrange : ms.get? "range" = none) : Given (.obj ms) ⟨uri, .origin⟩

/-- A document is told and a range with it, but the range cannot be read. -/
def RangeLost (v : Json) : Prop :=
  ∃ (ms : Json.Members) (uri : String) (w : Json), v = .obj ms ∧
    ms.get? "uri" = some (.str uri) ∧ ms.get? "range" = some w ∧ ∀ r, ¬ Range.Reads w r

variable {v : Json} {l : Location}

theorem Given.firstOf (h : Given v l) : Json.FirstOf Reads UriReads v l := by
  cases h with
  | full h => exact .first h
  | bare huri hrange =>
    refine .second (fun _ hreads => ?_) ⟨_, rfl, huri, rfl⟩
    obtain ⟨_, ⟨⟩, -, u, hu, -⟩ := hreads
    rw [hrange] at hu
    cases hu

theorem Given.not_rangeLost (h : Given v l) : ¬ RangeLost v := by
  rintro ⟨ms, uri, w, rfl, -, hw, hno⟩
  cases h with
  | full h =>
    obtain ⟨_, ⟨⟩, -, u, hu, hrange⟩ := h
    obtain rfl := Option.some.inj (hw.symm.trans hu)
    exact hno _ hrange
  | bare _ hrange => cases hw.symm.trans hrange

/-- What is read is what is given, unless a range was lost. -/
theorem given_of_firstOf (h : Json.FirstOf Reads UriReads v l) (hkept : ¬ RangeLost v) :
    Given v l := by
  obtain h | ⟨hno, ms, rfl, huri, hrange⟩ := h
  · exact .full h
  · obtain ⟨uri, range⟩ := l
    obtain rfl : range = .origin := hrange
    cases hw : ms.get? "range" with
    | none => exact .bare huri hw
    | some w =>
      refine absurd ⟨ms, uri, w, rfl, huri, hw, fun r hr => ?_⟩ hkept
      exact hno ⟨uri, r⟩ ⟨ms, rfl, huri, w, hw, hr⟩

end Location

namespace SymbolInformation

variable {P Q : Json → Location → Prop} {entry : Json} {s : SymbolInformation}

/-- The range that comes with the place of a symbol cannot be read. -/
def RangeLost (entry : Json) : Prop :=
  ∃ ms u, entry.rowFields? fieldNames = some ms ∧ ms.get? "location" = some u ∧
    Location.RangeLost u

theorem ReadsAt.imp (h : ReadsAt P entry s)
    (himp : ∀ ms u, entry.rowFields? fieldNames = some ms → ms.get? "location" = some u →
      ∀ l, P u l → Q u l) : ReadsAt Q entry s := by
  obtain ⟨ms, hms, hname, hkind, ⟨u, hu, hplace⟩, hcontainer⟩ := h
  exact ⟨ms, hms, hname, hkind, ⟨u, hu, himp ms u hms hu _ hplace⟩, hcontainer⟩

theorem ReadsAt.not_rangeLost (h : ReadsAt Location.Given entry s) : ¬ RangeLost entry := by
  rintro ⟨ms, u, hms, hu, hlost⟩
  obtain ⟨ms', hms', -, -, ⟨u', hu', hgiven⟩, -⟩ := h
  obtain rfl := Option.some.inj (hms.symm.trans hms')
  obtain rfl := Option.some.inj (hu.symm.trans hu')
  exact hgiven.not_rangeLost hlost

theorem readsAt_given (h : ReadsAt (Json.FirstOf Location.Reads Location.UriReads) entry s)
    (hkept : ¬ RangeLost entry) : ReadsAt Location.Given entry s :=
  h.imp fun ms u hms hu _ hplace =>
    Location.given_of_firstOf hplace fun hlost => hkept ⟨ms, u, hms, hu, hlost⟩

end SymbolInformation

theorem readSymbolLocation_eq_ok {v : Json} {l : Location} :
    readSymbolLocation v = .ok l ↔ Json.FirstOf Location.Reads Location.UriReads v l := by
  refine Json.readUnion_eq_ok.trans ?_
  simp only [Location.ofJson_eq_ok, Location.ofUriOnly_eq_ok]

theorem readWorkspaceSymbols_eq_ok {v : Json} {symbols : List SymbolInformation} :
    readWorkspaceSymbols v = .ok symbols ↔
      List.Forall₂ (SymbolInformation.ReadsAt (Json.FirstOf Location.Reads Location.UriReads))
        v.entries symbols := by
  refine readOneOrMany_eq_ok.trans (iff_of_eq ?_)
  congr 1
  funext u s
  refine propext (SymbolInformation.readSymbol_eq_ok.trans ?_)
  simp only [readSymbolLocation_eq_ok]

/-- **A search gives one symbol for each entry of the reply, in order, and its place is the first
that the entry can be read as: a document and a range in it, or a document only, which then stands
for its start.  As long as no range comes with a place and cannot be read, no place is made up:
every range is the one that is given, and only a place without any range stands for the start of
its document.  A reply in which such a range is lost has a place that was not given.** -/
theorem readWorkspaceSymbols_given (v : Json) (symbols : List SymbolInformation) :
    (readWorkspaceSymbols v = .ok symbols ↔
      List.Forall₂ (SymbolInformation.ReadsAt (Json.FirstOf Location.Reads Location.UriReads))
        v.entries symbols) ∧
    ((∀ entry ∈ v.entries, ¬ SymbolInformation.RangeLost entry) →
      (readWorkspaceSymbols v = .ok symbols ↔
        List.Forall₂ (SymbolInformation.ReadsAt Location.Given) v.entries symbols)) ∧
    ((∃ entry ∈ v.entries, SymbolInformation.RangeLost entry) →
      ¬ List.Forall₂ (SymbolInformation.ReadsAt Location.Given) v.entries symbols) := by
  refine ⟨readWorkspaceSymbols_eq_ok, fun hkept => ?_, fun hlost hgiven => ?_⟩
  · rw [readWorkspaceSymbols_eq_ok]
    constructor
    · exact fun h => forall₂_of_mem h fun entry he s hs =>
        SymbolInformation.readsAt_given hs (hkept entry he)
    · exact fun h => h.imp fun entry s hs => hs.imp fun _ _ _ _ _ hplace => hplace.firstOf
  · obtain ⟨entry, he, hlost⟩ := hlost
    obtain ⟨s, hs⟩ := exists_forall₂_iff.mp ⟨symbols, hgiven⟩ entry he
    exact hs.not_rangeLost hlost

def foundSymbol (place : Json) : Json :=
  .obj [("kind", .ofNat 12), ("location", place), ("name", .str "Handler")]

theorem readWorkspaceSymbols_bareAndFull :
    let v : Json := .arr [foundSymbol (.obj [("uri", .str "file:///l.go")]),
      foundSymbol (.arr [.str "file:///h.go", Range.toJson ⟨⟨9, 4⟩, ⟨9, 8⟩⟩])]
    let symbols : List SymbolInformation :=
      [⟨"Handler", .function, ⟨"file:///l.go", .origin⟩, none⟩,
        ⟨"Handler", .function, ⟨"file:///h.go", ⟨⟨9, 4⟩, ⟨9, 8⟩⟩⟩, none⟩]
    readWorkspaceSymbols v = .ok symbols ∧
      (∀ entry ∈ v.entries, ¬ SymbolInformation.RangeLost entry) ∧
      List.Forall₂ (SymbolInformation.ReadsAt Location.Given) v.entries symbols := by
  intro v symbols
  have hread : readWorkspaceSymbols v = .ok symbols := rfl
  have hkept : ∀ entry ∈ v.entries, ¬ SymbolInformation.RangeLost entry := by
    rintro entry he ⟨ms, u, hms, hu, place, uri, w, rfl, -, hw, -⟩
    obtain rfl | rfl := List.mem_pair.mp he
    · obtain rfl := Option.some.inj hms
      obtain rfl := Json.obj.inj (Option.some.inj hu)
      cases hw
    · obtain rfl := Option.some.inj hms
      cases Option.some.inj hu
  exact ⟨hread, hkept, ((readWorkspaceSymbols_given v symbols).2.1 hkept).mp hread⟩

def cutOff : Json :=
  .obj [("range", .obj [("start", Position.toJson ⟨9, 4⟩)]), ("uri", .str "file:///h.go")]

/-- The start of the document is made up for a range that is cut off. -/
theorem readWorkspaceSymbols_cutOff :
    ¬ ∀ (v : Json) (symbols : List SymbolInformation), readWorkspaceSymbols v = .ok symbols →
      List.Forall₂ (SymbolInformation.ReadsAt Location.Given) v.entries symbols := by
  intro hall
  have hread : readWorkspaceSymbols (.arr [foundSymbol cutOff]) =
      .ok [⟨"Handler", .function, ⟨"file:///h.go", .origin⟩, none⟩] := rfl
  obtain _ | ⟨hgiven, -⟩ := hall _ _ hread
  have hno : ∀ r, ¬ Range.Reads (.obj [("start", Position.toJson ⟨9, 4⟩)]) r := fun r hr => by
    have hmissing : Range.ofJson (.obj [("start", Position.toJson ⟨9, 4⟩)]) =
        .error (.missing "end") := rfl
    cases hmissing.symm.trans (Range.ofJson_eq_ok.mpr hr)
  exact hgiven.not_rangeLost ⟨_, _, rfl, rfl, _, _, _, rfl, rfl, rfl, hno⟩

end CodeBridge
