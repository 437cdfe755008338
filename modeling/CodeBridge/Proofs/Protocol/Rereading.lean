import CodeBridge.Proofs.Json.Values
import CodeBridge.Proofs.Protocol.Written
import CodeBridge.Protocol.Action
import CodeBridge.Protocol.Symbol

/-!
# Data of the protocol that are read, written and read again

* `Position`, `Range`, `Location`, the edits and the actions are read back from what is written for
  them, whatever they are (`ofJson_toJson`);
* a symbol is read back if its kind is the one that its number stands for (`SymbolKind.Proper`), and
  a kind that was read is (`SymbolKind.proper_of_ofJson`);
* an outline is read back node by node, from the leaves up (`DocumentSymbol.stable`);
* `protocol_stable` has all of them, and the fields that may be missing.
-/

namespace CodeBridge

/-! ## places -/

theorem Position.ofJson_toJson (p : Position) : ofJson p.toJson = .ok p :=
  Json.readPair_written (by decide) (Json.readUInt32_ofUInt32 _) (Json.readUInt32_ofUInt32 _)

theorem Range.ofJson_toJson (r : Range) : ofJson r.toJson = .ok r :=
  Json.readPair_written (by decide) r.start.ofJson_toJson r.stop.ofJson_toJson

theorem Location.ofJson_toJson (l : Location) : ofJson l.toJson = .ok l :=
  Json.readPair_written (by decide) (Json.readString_str _) l.range.ofJson_toJson

/-! ## edits -/

theorem TextEdit.ofJson_toJson (e : TextEdit) : ofJson e.toJson = .ok e :=
  Json.readPair_written (by decide) e.range.ofJson_toJson (Json.readString_str _)

theorem VersionedTextDocumentIdentifier.ofJson_toJson (d : VersionedTextDocumentIdentifier) :
    ofJson d.toJson = .ok d := by
  show ofMembers _ = .ok d
  simp only [ofMembers, bind_eq_ok_iff]
  refine ⟨some d.uri, Json.field?_eq_ok_some.mpr ⟨.str d.uri, ?_, rfl⟩,
    d.version, Json.nullable?_written_null Json.readInt32_ofInt32 nofun ?_, d.uri, rfl, rfl⟩
  all_goals simp

theorem TextDocumentEdit.ofJson_toJson (e : TextDocumentEdit) : ofJson e.toJson = .ok e :=
  Json.readPair_written (by decide) e.textDocument.ofJson_toJson
    (Json.readList_written fun edit _ => edit.ofJson_toJson)

namespace WorkspaceEdit

theorem readChanges_written (changes : List (String × List TextEdit)) :
    readChanges (.obj (changes.map fun (uri, edits) => (uri, .arr (edits.map TextEdit.toJson)))) =
      .ok changes := by
  have hedits : ∀ edits : List TextEdit,
      Json.readList TextEdit.ofJson (.arr (edits.map TextEdit.toJson)) = .ok edits := fun edits =>
    Json.readList_written fun edit _ => edit.ofJson_toJson
  exact Json.readMap_written hedits changes

theorem ofJson_toJson (e : WorkspaceEdit) : ofJson e.toJson = .ok e := by
  have hdocuments : ∀ documents : List TextDocumentEdit,
      Json.readList TextDocumentEdit.ofJson (.arr (documents.map TextDocumentEdit.toJson)) =
        .ok documents := fun documents =>
    Json.readList_written fun document _ => document.ofJson_toJson
  show ofMembers _ = .ok e
  simp only [ofMembers, bind_eq_ok_iff]
  refine ⟨e.changes, Json.nullable?_written readChanges_written nofun ?_,
    e.documentChanges, Json.nullable?_written hdocuments nofun ?_, rfl⟩
  all_goals simp

end WorkspaceEdit

/-! ## actions -/

theorem Command.ofJson_toJson (c : Command) : ofJson c.toJson = .ok c := by
  have harguments : ∀ arguments : List Json,
      Json.readList Json.readAny (.arr arguments) = .ok arguments := fun arguments => by
    have hany : ∀ v ∈ arguments, Json.readAny (id v) = .ok v := fun _ _ => rfl
    have hread := Json.readList_written hany
    rw [List.map_id] at hread
    exact hread
  show ofMembers _ = .ok c
  simp only [ofMembers, bind_eq_ok_iff]
  refine ⟨c.arguments, Json.nullable?_written harguments nofun ?_,
    some c.command, Json.field?_eq_ok_some.mpr ⟨.str c.command, ?_, rfl⟩,
    some c.title, Json.field?_eq_ok_some.mpr ⟨.str c.title, ?_, rfl⟩, c.title, rfl, c.command, rfl,
    rfl⟩
  all_goals simp

theorem CodeAction.ofJson_toJson (a : CodeAction) : ofJson a.toJson = .ok a := by
  show ofMembers _ = .ok a
  simp only [ofMembers, bind_eq_ok_iff]
  refine ⟨a.command, Json.nullable?_written Command.ofJson_toJson nofun ?_,
    a.edit, Json.nullable?_written WorkspaceEdit.ofJson_toJson nofun ?_,
    a.kind, Json.nullable?_written Json.readString_str nofun ?_,
    some a.title, Json.field?_eq_ok_some.mpr ⟨.str a.title, ?_, rfl⟩, a.title, rfl, rfl⟩
  all_goals simp

/-! ## kinds of symbols -/

namespace SymbolKind

theorem code_ofCode (n : UInt32) : (ofCode n).code = n := by
  unfold ofCode
  split
  all_goals first
    | rfl
    | next h => exact UInt32.toNat_inj.mp h.symm

/-- A kind that its number stands for, so that no number of the table is kept as unknown. -/
def Proper (k : SymbolKind) : Prop := ofCode k.code = k

theorem ofJson_ofUInt32 (n : UInt32) : ofJson (.ofUInt32 n) = .ok (ofCode n) := by
  unfold ofJson
  rw [Json.readUInt32_ofUInt32]
  rfl

theorem Proper.ofJson_toJson {k : SymbolKind} (h : k.Proper) : ofJson k.toJson = .ok k := by
  rw [toJson, ofJson_ofUInt32, h]

theorem proper_of_ofJson {v : Json} {k : SymbolKind} (h : ofJson v = .ok k) : k.Proper := by
  obtain ⟨n, _, rfl⟩ := map_eq_ok_iff.mp h
  exact congrArg ofCode (code_ofCode n)

end SymbolKind

/-! ## symbols by place -/

namespace SymbolInformation

theorem ofJson_toJson {s : SymbolInformation} (h : s.kind.Proper) : ofJson s.toJson = .ok s := by
  show ofMembers _ = .ok s
  simp only [ofMembers, bind_eq_ok_iff]
  refine ⟨s.containerName, Json.nullable?_written Json.readString_str nofun ?_,
    some s.kind, Json.field?_eq_ok_some.mpr ⟨s.kind.toJson, ?_, h.ofJson_toJson⟩,
    some s.location, Json.field?_eq_ok_some.mpr ⟨s.location.toJson, ?_, s.location.ofJson_toJson⟩,
    some s.name, Json.field?_eq_ok_some.mpr ⟨.str s.name, ?_, rfl⟩,
    s.name, rfl, s.kind, rfl, s.location, rfl, rfl⟩
  all_goals simp

theorem proper_of_ofJson {v : Json} {s : SymbolInformation} (h : ofJson v = .ok s) :
    s.kind.Proper := by
  cases v with
  | obj ms =>
    have h : ofMembers ms = .ok s := h
    simp only [ofMembers, bind_eq_ok_iff, Json.required_eq_ok, pure_eq_ok_iff] at h
    obtain ⟨_, _, _, hkind, _, _, _, _, _, _, kind, rfl, _, _, rfl⟩ := h
    obtain ⟨u, _, hkind⟩ := Json.field?_eq_ok_some.mp hkind
    exact SymbolKind.proper_of_ofJson hkind
  | arr items =>
    have hrow : (ofRow ⟨0, items⟩ >>= fun (s, r) => r.finish s) = .ok s := h
    simp only [ofRow, bind_eq_ok_iff, Prod.exists, pure_eq_ok_iff, Json.next_eq_ok,
      Json.finish_eq_ok] at hrow
    obtain ⟨_, _, ⟨_, _, _, kind, _, ⟨_, _, _, hkind, _⟩, _, _, _, _, _, _, hmade⟩, rfl, _⟩ := hrow
    obtain ⟨rfl, _⟩ := Prod.mk.inj hmade
    exact SymbolKind.proper_of_ofJson hkind
  | null | bool _ | num _ | str _ => cases h

end SymbolInformation

/-! ## outlines -/

namespace DocumentSymbol

theorem toJsonList_eq (nodes : List DocumentSymbol) : toJsonList nodes = nodes.map toJson := by
  induction nodes with
  | nil => rfl
  | cons node nodes ih => rw [toJsonList, ih, List.map_cons]

theorem ofJsonList_eq (items : List Json) : ofJsonList items = items.mapM ofJson := by
  induction items with
  | nil => rfl
  | cons v items ih =>
    rw [ofJsonList, ih, List.mapM_cons]

theorem readChildren_eq (v : Json) : readChildren v = Json.readList ofJson v := by
  cases v with
  | arr items => exact ofJsonList_eq items
  | _ => rfl

theorem membersChildren_eq (ms : Json.Members) :
    membersChildren ms = (Json.Members.get? "children" ms).map (Json.readList ofJson) := by
  induction ms with
  | nil => rfl
  | cons m ms ih =>
    obtain ⟨key, v⟩ := m
    show (memberChildren (key, v)).orElse (fun _ => membersChildren ms) =
      (if key = "children" then some v else Json.Members.get? "children" ms).map
        (Json.readList ofJson)
    unfold memberChildren
    by_cases hkey : key = "children"
    · rw [if_pos hkey, if_pos hkey, readChildren_eq]
      rfl
    · rw [if_neg hkey, if_neg hkey, ih]
      rfl

theorem itemsChildren_eq : (items : List Json) →
    itemsChildren items = (items[5]?).map (Json.readList ofJson)
  | [] | [_] | [_, _] | [_, _, _] | [_, _, _, _] | [_, _, _, _, _] => rfl
  | _ :: _ :: _ :: _ :: _ :: v :: _ => congrArg some (readChildren_eq v)

/-! ### a node whose children are read back -/

theorem ofJson_toJson {s : DocumentSymbol} (hkind : s.kind.Proper)
    (hchildren : ∀ child ∈ s.children, ofJson child.toJson = .ok child) :
    ofJson s.toJson = .ok s := by
  obtain ⟨name, detail, kind, range, selectionRange, children⟩ := s
  rw [toJson, ofJson, membersChildren_eq, toJsonList_eq]
  simp only [ofMembers, bind_eq_ok_iff]
  refine ⟨children, ?_, detail, Json.nullable?_written Json.readString_str nofun ?_,
    some kind, Json.field?_eq_ok_some.mpr ⟨kind.toJson, ?_, hkind.ofJson_toJson⟩,
    some name, Json.field?_eq_ok_some.mpr ⟨.str name, ?_, rfl⟩,
    some range, Json.field?_eq_ok_some.mpr ⟨range.toJson, ?_, range.ofJson_toJson⟩,
    some selectionRange,
    Json.field?_eq_ok_some.mpr ⟨selectionRange.toJson, ?_, selectionRange.ofJson_toJson⟩,
    name, rfl, kind, rfl, range, rfl, selectionRange, rfl, rfl⟩
  · simp only [Json.Members.get?, List.cons_append, if_true, Option.map_some, Option.getD_some]
    exact Json.readList_written hchildren
  all_goals simp

/-! ### what a node is read from -/

theorem parts_of_ofMembers {children : Option (Decoded (List DocumentSymbol))} {ms : Json.Members}
    {s : DocumentSymbol} (h : ofMembers children ms = .ok s) :
    s.kind.Proper ∧ children.getD (.ok []) = .ok s.children := by
  simp only [ofMembers, bind_eq_ok_iff, Json.required_eq_ok, pure_eq_ok_iff] at h
  obtain ⟨_, hchildren, _, _, _, hkind, _, _, _, _, _, _, _, _, kind, rfl, _, _, _, _, rfl⟩ := h
  obtain ⟨_, _, hkind⟩ := Json.field?_eq_ok_some.mp hkind
  exact ⟨SymbolKind.proper_of_ofJson hkind, hchildren⟩

theorem parts_of_ofItems {children : Option (Decoded (List DocumentSymbol))} {items : List Json}
    {s : DocumentSymbol} (h : ofItems children items = .ok s) :
    s.kind.Proper ∧ children.getD (.ok []) = .ok s.children := by
  simp only [ofItems, bind_eq_ok_iff, Prod.exists, Json.next_eq_ok, Json.finish_eq_ok] at h
  obtain ⟨_, _, _, _, _, _, kind, _, ⟨_, _, _, hkind, _⟩, h⟩ := h
  obtain ⟨_, _, _, _, _, _, _, hchildren, rfl, _⟩ := h
  exact ⟨SymbolKind.proper_of_ofJson hkind, hchildren⟩

/-- The children of a node are read from the items of a list, if a value for them is there. -/
theorem exists_of_mem_children {part : Option Json} {children : List DocumentSymbol}
    (h : (part.map (Json.readList ofJson)).getD (.ok []) = .ok children) {child : DocumentSymbol}
    (hchild : child ∈ children) :
    ∃ items, part = some (.arr items) ∧ ∃ u ∈ items, ofJson u = .ok child := by
  cases part with
  | none =>
    obtain rfl := Except.ok.inj h
    cases hchild
  | some v =>
    obtain ⟨items, rfl, hread⟩ := Json.readList_eq_ok.mp h
    exact ⟨items, rfl, Json.exists_of_mem_forall₂ hread hchild⟩

/-- A value that a node is read from has a proper kind and, two levels further in, the values that
the children of the node are read from. -/
theorem parts_of_ofJson {v : Json} {s : DocumentSymbol} (h : ofJson v = .ok s) :
    s.kind.Proper ∧ ∀ child ∈ s.children,
      ∃ u ∈ v.parts, ∃ w ∈ u.parts, ofJson w = .ok child := by
  cases v with
  | obj ms =>
    rw [ofJson, membersChildren_eq] at h
    obtain ⟨hkind, hchildren⟩ := parts_of_ofMembers h
    refine ⟨hkind, fun child hchild => ?_⟩
    obtain ⟨items, hpart, w, hw, hread⟩ := exists_of_mem_children hchildren hchild
    exact ⟨.arr items, Json.mem_parts_of_get? hpart, w, hw, hread⟩
  | arr items =>
    rw [ofJson, itemsChildren_eq] at h
    obtain ⟨hkind, hchildren⟩ := parts_of_ofItems h
    refine ⟨hkind, fun child hchild => ?_⟩
    obtain ⟨items', hpart, w, hw, hread⟩ := exists_of_mem_children hchildren hchild
    exact ⟨.arr items', List.mem_of_getElem? hpart, w, hw, hread⟩
  | null | bool _ | num _ | str _ => cases h

def Reread (v : Json) : Prop := ∀ s, ofJson v = .ok s → ofJson s.toJson = .ok s

/-- A node is read back when the nodes inside it are. -/
theorem reread_of_parts {v : Json} (h : ∀ u ∈ v.parts, ∀ w ∈ u.parts, Reread w) : Reread v := by
  intro s hs
  obtain ⟨hkind, hchildren⟩ := parts_of_ofJson hs
  refine ofJson_toJson hkind fun child hchild => ?_
  obtain ⟨u, hu, w, hw, hread⟩ := hchildren child hchild
  exact h u hu w hw child hread

/-- An outline of any depth is read back: the children of a node are two levels inside the value
that it is read from. -/
theorem stable : Json.Stable ofJson toJson :=
  Json.induction_inner fun _ => reread_of_parts

end DocumentSymbol

/-! ## fields that may be missing -/

section

open Json.Members

theorem VersionedTextDocumentIdentifier.optional_version : Json.Optional ofJson "version" 1 := by
  refine .of_record (fun ms h => ?_) fun items h => ?_
  · simp [ofMembers, field?_insert_ne, nullable?_insert_null, h]
  · obtain ⟨uri, rfl⟩ := List.length_eq_one_iff.mp h
    exact Json.next_bind_congr fun _ => rfl

theorem WorkspaceEdit.optional_changes : Json.Optional ofJson "changes" 0 := by
  refine .of_record (fun ms h => ?_) fun items h => ?_
  · simp [ofMembers, nullable?_insert_ne, nullable?_insert_null, h]
  · obtain rfl := List.length_eq_zero_iff.mp h
    rfl

theorem WorkspaceEdit.optional_documentChanges : Json.Optional ofJson "documentChanges" 1 := by
  refine .of_record (fun ms h => ?_) fun items h => ?_
  · simp [ofMembers, nullable?_insert_ne, nullable?_insert_null, h]
  · obtain ⟨changes, rfl⟩ := List.length_eq_one_iff.mp h
    exact Json.nextOr_bind_congr fun _ => rfl

theorem SymbolInformation.optional_containerName : Json.Optional ofJson "containerName" 3 := by
  refine .of_record (fun ms h => ?_) fun items h => ?_
  · simp [ofMembers, field?_insert_ne, nullable?_insert_null, h]
  · obtain ⟨name, kind, location, rfl⟩ := List.length_eq_three.mp h
    exact Json.next_bind_congr fun _ => Json.next_bind_congr fun _ =>
      Json.next_bind_congr fun _ => rfl

theorem Command.optional_arguments : Json.Optional ofJson "arguments" 2 := by
  refine .of_record (fun ms h => ?_) fun items h => ?_
  · simp [ofMembers, field?_insert_ne, nullable?_insert_null, h]
  · obtain ⟨title, command, rfl⟩ := List.length_eq_two.mp h
    exact Json.next_bind_congr fun _ => Json.next_bind_congr fun _ => rfl

theorem CodeAction.optional_kind : Json.Optional ofJson "kind" 1 := by
  refine .of_record (fun ms h => ?_) fun items h => ?_
  · simp [ofMembers, field?_insert_ne, nullable?_insert_ne, nullable?_insert_null, h]
  · obtain ⟨title, rfl⟩ := List.length_eq_one_iff.mp h
    exact Json.next_bind_congr fun _ => rfl

theorem CodeAction.optional_edit : Json.Optional ofJson "edit" 2 := by
  refine .of_record (fun ms h => ?_) fun items h => ?_
  · simp [ofMembers, field?_insert_ne, nullable?_insert_ne, nullable?_insert_null, h]
  · obtain ⟨title, kind, rfl⟩ := List.length_eq_two.mp h
    exact Json.next_bind_congr fun _ => Json.nextOr_bind_congr fun _ => rfl

theorem CodeAction.optional_command : Json.Optional ofJson "command" 3 := by
  refine .of_record (fun ms h => ?_) fun items h => ?_
  · simp [ofMembers, field?_insert_ne, nullable?_insert_ne, nullable?_insert_null, h]
  · obtain ⟨title, kind, edit, rfl⟩ := List.length_eq_three.mp h
    exact Json.next_bind_congr fun _ => Json.nextOr_bind_congr fun _ =>
      Json.nextOr_bind_congr fun _ => rfl

theorem DocumentSymbol.optional_detail : Json.Optional ofJson "detail" 1 where
  member ms h := by
    rw [ofJson, ofJson, membersChildren_eq, membersChildren_eq, get?_insert_ne (by decide)]
    simp [ofMembers, field?_insert_ne, nullable?_insert_null, h]
  item items h := by
    obtain ⟨name, rfl⟩ := List.length_eq_one_iff.mp h
    rw [ofJson, ofJson]
    exact Json.next_bind_congr fun _ => rfl

end

/-! ## the whole format -/

/-- **Whatever is read of the protocol's data is written as a value that is read as the same**,
whichever of the accepted shapes it came in: an object or an array, with optional fields or without
them, an outline of any depth.  Every number is read as a kind of symbol that it is the number of,
and an optional field that is missing is as good as one that is null, whether or not the rest can be
read. -/
theorem protocol_stable :
    Json.Stable Position.ofJson Position.toJson ∧
    Json.Stable Range.ofJson Range.toJson ∧
    Json.Stable Location.ofJson Location.toJson ∧
    Json.Stable TextEdit.ofJson TextEdit.toJson ∧
    Json.Stable VersionedTextDocumentIdentifier.ofJson VersionedTextDocumentIdentifier.toJson ∧
    Json.Stable TextDocumentEdit.ofJson TextDocumentEdit.toJson ∧
    Json.Stable WorkspaceEdit.ofJson WorkspaceEdit.toJson ∧
    Json.Stable SymbolKind.ofJson SymbolKind.toJson ∧
    Json.Stable DocumentSymbol.ofJson DocumentSymbol.toJson ∧
    Json.Stable SymbolInformation.ofJson SymbolInformation.toJson ∧
    Json.Stable Command.ofJson Command.toJson ∧
    Json.Stable CodeAction.ofJson CodeAction.toJson ∧
    (∀ n, SymbolKind.ofJson (.ofUInt32 n) = .ok (SymbolKind.ofCode n) ∧
      (SymbolKind.ofCode n).code = n) ∧
    Json.Optional VersionedTextDocumentIdentifier.ofJson "version" 1 ∧
    Json.Optional WorkspaceEdit.ofJson "changes" 0 ∧
    Json.Optional WorkspaceEdit.ofJson "documentChanges" 1 ∧
    Json.Optional DocumentSymbol.ofJson "detail" 1 ∧
    Json.Optional SymbolInformation.ofJson "containerName" 3 ∧
    Json.Optional Command.ofJson "arguments" 2 ∧
    Json.Optional CodeAction.ofJson "kind" 1 ∧
    Json.Optional CodeAction.ofJson "edit" 2 ∧
    Json.Optional CodeAction.ofJson "command" 3 :=
  ⟨.of_forall Position.ofJson_toJson, .of_forall Range.ofJson_toJson,
    .of_forall Location.ofJson_toJson, .of_forall TextEdit.ofJson_toJson,
    .of_forall VersionedTextDocumentIdentifier.ofJson_toJson,
    .of_forall TextDocumentEdit.ofJson_toJson, .of_forall WorkspaceEdit.ofJson_toJson,
    fun _ _ h => (SymbolKind.proper_of_ofJson h).ofJson_toJson,
    DocumentSymbol.stable,
    fun _ _ h => SymbolInformation.ofJson_toJson (SymbolInformation.proper_of_ofJson h),
    .of_forall Command.ofJson_toJson, .of_forall CodeAction.ofJson_toJson,
    fun n => ⟨SymbolKind.ofJson_ofUInt32 n, SymbolKind.code_ofCode n⟩,
    VersionedTextDocumentIdentifier.optional_version,
    WorkspaceEdit.optional_changes, WorkspaceEdit.optional_documentChanges,
    DocumentSymbol.optional_detail, SymbolInformation.optional_containerName,
    Command.optional_arguments, CodeAction.optional_kind, CodeAction.optional_edit,
    CodeAction.optional_command⟩

/-- What is written need not be what was read: an array without the version becomes an object. -/
example :
    (VersionedTextDocumentIdentifier.ofJson (.arr [.str "file:///a"])).map (·.toJson) =
      .ok (.obj [("uri", .str "file:///a"), ("version", .null)]) := rfl

end CodeBridge
