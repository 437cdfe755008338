import Mathlib.Tactic.MkIffOfInductiveProp
import CodeBridge.Proofs.Protocol.Places

/-!
# Replies that give actions

An action has a title and may have a kind, an edit and a command to run.  Where a reply may give
actions it may also give bare commands, and much of what says the one says the other too.

* `WorkspaceEdit.ofJson_eq_ok`, `Command.ofJson_eq_ok`, `CodeAction.ofJson_eq_ok`   what they say;
* `isOrganizeImports_iff`         the kind for putting imports in order, and the kinds below it;
* `readActionOrCommand_none`, `readActionOrCommand_some`   a command comes before an action;
* `readOrganizeImports_chosen`    the actions of that kind, in the order of their entries.
-/

namespace CodeBridge

/-! ## lists and maps -/

namespace Json

variable {α : Type}

/-- The list that a value says, item by item. -/
def ListReads (P : Json → α → Prop) (v : Json) (as : List α) : Prop :=
  ∃ items, v = .arr items ∧ List.Forall₂ P items as

def MapReads (P : Json → α → Prop) (v : Json) (entries : List (String × α)) : Prop :=
  ∃ ms, v = .obj ms ∧ List.Forall₂ (fun m e => m.1 = e.1 ∧ P m.2 e.2) ms entries

variable {P : Json → α → Prop} {read : Json → Decoded α}
  (hread : ∀ v a, read v = .ok a ↔ P v a)

include hread

theorem readList_eq_ok_listReads {v : Json} {as : List α} :
    readList read v = .ok as ↔ ListReads P v as := by
  refine readList_eq_ok.trans ?_
  simp only [hread]
  rfl

theorem readMap_eq_ok_mapReads {v : Json} {entries : List (String × α)} :
    readMap read v = .ok entries ↔ MapReads P v entries := by
  refine readMap_eq_ok.trans ?_
  simp only [hread]
  rfl

end Json

/-! ## edits -/

/-- The edit that a value says. -/
def TextEdit.Reads (v : Json) (e : TextEdit) : Prop :=
  ∃ ms, v.fields? ["range", "newText"] = some ms ∧
    (∃ u, ms.get? "range" = some u ∧ Range.Reads u e.range) ∧
    ms.get? "newText" = some (.str e.newText)

theorem TextEdit.ofJson_eq_ok {v : Json} {e : TextEdit} : ofJson v = .ok e ↔ Reads v e := by
  refine (Json.readPair_eq_ok (show "range" ≠ "newText" by decide)).trans ?_
  simp only [Json.readString_eq_ok, Range.ofJson_eq_ok]
  constructor
  · rintro ⟨ms, hms, _, _, hrange, ⟨_, htext, rfl⟩, rfl⟩
    exact ⟨ms, hms, hrange, htext⟩
  · rintro ⟨ms, hms, hrange, htext⟩
    exact ⟨ms, hms, _, _, hrange, ⟨_, htext, rfl⟩, rfl⟩

theorem TextEdit.readList_eq_ok {v : Json} {es : List TextEdit} :
    Json.readList ofJson v = .ok es ↔ Json.ListReads Reads v es :=
  Json.readList_eq_ok_listReads fun _ _ => ofJson_eq_ok

namespace VersionedTextDocumentIdentifier

def fieldNames : List String := ["uri", "version"]

@[mk_iff]
structure FieldsRead (ms : Json.Members) (d : VersionedTextDocumentIdentifier) : Prop where
  uri : ms.get? "uri" = some (.str d.uri)
  version : Json.Nullable (fun v n => v = .ofInt32 n) (ms.get? "version") d.version

def Reads (v : Json) (d : VersionedTextDocumentIdentifier) : Prop :=
  ∃ ms, v.rowFields? fieldNames = some ms ∧ FieldsRead ms d

theorem ofMembers_eq_ok {ms : Json.Members} {d : VersionedTextDocumentIdentifier} :
    ofMembers ms = .ok d ↔ FieldsRead ms d := by
  simp only [ofMembers, bind_eq_ok_iff, Json.required_eq_ok, pure_eq_ok_iff, Json.nullable?_eq_ok,
    Json.readInt32_eq_ok]
  constructor
  · rintro ⟨_, huri, _, hversion, uri, rfl, rfl⟩
    obtain ⟨_, huri, hstr⟩ := Json.field?_eq_ok_some.mp huri
    obtain rfl := Json.readString_eq_ok.mp hstr
    exact ⟨huri, hversion⟩
  · rintro ⟨huri, hversion⟩
    exact ⟨some d.uri, Json.field?_eq_ok_some.mpr ⟨_, huri, rfl⟩, _, hversion, _, rfl, rfl⟩

theorem ofJson_eq_ok {v : Json} {d : VersionedTextDocumentIdentifier} :
    ofJson v = .ok d ↔ Reads v d := by
  refine Json.readRow_eq_ok fieldNames (fun _ _ => ofMembers_eq_ok) fun items d => ?_
  simp only [ofRow, bind_eq_ok_iff, pure_eq_ok_iff, Prod.exists, Json.next_eq_ok_iff,
    Json.nextOr_eq_ok_iff, Json.readString_eq_ok, Json.readInt32_eq_ok, fieldsRead_iff,
    fieldNames, Json.Members.get?_zip_cons, String.reduceEq, reduceIte]
  constructor
  · rintro ⟨r, ⟨uri, _, ⟨⟨_, huri, rfl⟩, rfl⟩, version, _, ⟨hversion, rfl⟩, ⟨⟩⟩, hr⟩
    exact ⟨(Json.iterate_tail_eq_nil_iff 2).mp hr, huri, hversion⟩
  · rintro ⟨hl, huri, hversion⟩
    exact ⟨_, ⟨_, _, ⟨⟨_, huri, rfl⟩, rfl⟩, _, _, ⟨hversion, rfl⟩, rfl⟩,
      (Json.iterate_tail_eq_nil_iff 2).mpr hl⟩

end VersionedTextDocumentIdentifier

def TextDocumentEdit.Reads (v : Json) (e : TextDocumentEdit) : Prop :=
  ∃ ms, v.fields? ["textDocument", "edits"] = some ms ∧
    (∃ u, ms.get? "textDocument" = some u ∧
      VersionedTextDocumentIdentifier.Reads u e.textDocument) ∧
    ∃ u, ms.get? "edits" = some u ∧ Json.ListReads TextEdit.Reads u e.edits

theorem TextDocumentEdit.ofJson_eq_ok {v : Json} {e : TextDocumentEdit} :
    ofJson v = .ok e ↔ Reads v e := by
  refine (Json.readPair_eq_ok (show "textDocument" ≠ "edits" by decide)).trans ?_
  simp only [VersionedTextDocumentIdentifier.ofJson_eq_ok, TextEdit.readList_eq_ok]
  constructor
  · rintro ⟨ms, hms, _, _, hdocument, hedits, rfl⟩
    exact ⟨ms, hms, hdocument, hedits⟩
  · rintro ⟨ms, hms, hdocument, hedits⟩
    exact ⟨ms, hms, _, _, hdocument, hedits, rfl⟩

namespace WorkspaceEdit

def fieldNames : List String := ["changes", "documentChanges"]

@[mk_iff]
structure FieldsRead (ms : Json.Members) (e : WorkspaceEdit) : Prop where
  changes : Json.Nullable (Json.MapReads (Json.ListReads TextEdit.Reads)) (ms.get? "changes")
    e.changes
  documentChanges : Json.Nullable (Json.ListReads TextDocumentEdit.Reads)
    (ms.get? "documentChanges") e.documentChanges

def Reads (v : Json) (e : WorkspaceEdit) : Prop :=
  ∃ ms, v.rowFields? fieldNames = some ms ∧ FieldsRead ms e

theorem readChanges_eq_ok {v : Json} {changes : List (String × List TextEdit)} :
    readChanges v = .ok changes ↔ Json.MapReads (Json.ListReads TextEdit.Reads) v changes :=
  Json.readMap_eq_ok_mapReads fun _ _ => TextEdit.readList_eq_ok

theorem readDocumentChanges_eq_ok {v : Json} {es : List TextDocumentEdit} :
    Json.readList TextDocumentEdit.ofJson v = .ok es ↔ Json.ListReads TextDocumentEdit.Reads v es :=
  Json.readList_eq_ok_listReads fun _ _ => TextDocumentEdit.ofJson_eq_ok

theorem ofMembers_eq_ok {ms : Json.Members} {e : WorkspaceEdit} :
    ofMembers ms = .ok e ↔ FieldsRead ms e := by
  simp only [ofMembers, bind_eq_ok_iff, pure_eq_ok_iff, Json.nullable?_eq_ok, readChanges_eq_ok,
    readDocumentChanges_eq_ok]
  constructor
  · rintro ⟨_, hchanges, _, hdocuments, rfl⟩
    exact ⟨hchanges, hdocuments⟩
  · rintro ⟨hchanges, hdocuments⟩
    exact ⟨_, hchanges, _, hdocuments, rfl⟩

theorem ofJson_eq_ok {v : Json} {e : WorkspaceEdit} : ofJson v = .ok e ↔ Reads v e := by
  refine Json.readRow_eq_ok fieldNames (fun _ _ => ofMembers_eq_ok) fun items e => ?_
  simp only [ofRow, bind_eq_ok_iff, pure_eq_ok_iff, Prod.exists, Json.nextOr_eq_ok_iff,
    readChanges_eq_ok, readDocumentChanges_eq_ok, fieldsRead_iff, fieldNames,
    Json.Members.get?_zip_cons, String.reduceEq, reduceIte]
  constructor
  · rintro ⟨r, ⟨changes, _, ⟨hchanges, rfl⟩, documents, _, ⟨hdocuments, rfl⟩, ⟨⟩⟩, hr⟩
    exact ⟨(Json.iterate_tail_eq_nil_iff 2).mp hr, hchanges, hdocuments⟩
  · rintro ⟨hl, hchanges, hdocuments⟩
    exact ⟨_, ⟨_, _, ⟨hchanges, rfl⟩, _, _, ⟨hdocuments, rfl⟩, rfl⟩,
      (Json.iterate_tail_eq_nil_iff 2).mpr hl⟩

end WorkspaceEdit

/-! ## commands and actions -/

theorem Json.readAnyList_eq_ok {v : Json} {items : List Json} :
    readList readAny v = .ok items ↔ v = .arr items := by
  have hany : ∀ v a : Json, readAny v = .ok a ↔ v = a := fun v a => by
    rw [readAny, Except.ok.injEq]
  refine (readList_eq_ok_listReads hany).trans ?_
  simp only [ListReads, List.forall₂_eq_eq_eq, exists_eq_right]

namespace Command

def fieldNames : List String := ["title", "command", "arguments"]

@[mk_iff]
structure FieldsRead (ms : Json.Members) (c : Command) : Prop where
  title : ms.get? "title" = some (.str c.title)
  command : ms.get? "command" = some (.str c.command)
  arguments : Json.Nullable (fun v items => v = .arr items) (ms.get? "arguments") c.arguments

def Reads (v : Json) (c : Command) : Prop :=
  ∃ ms, v.rowFields? fieldNames = some ms ∧ FieldsRead ms c

theorem ofMembers_eq_ok {ms : Json.Members} {c : Command} :
    ofMembers ms = .ok c ↔ FieldsRead ms c := by
  simp only [ofMembers, bind_eq_ok_iff, Json.required_eq_ok, pure_eq_ok_iff, Json.nullable?_eq_ok,
    Json.readAnyList_eq_ok]
  constructor
  · rintro ⟨_, harguments, _, hcommand, _, htitle, _, rfl, _, rfl, rfl⟩
    simp only [Json.field?_eq_ok_some, Json.readString_eq_ok, exists_eq_right] at hcommand htitle
    exact ⟨htitle, hcommand, harguments⟩
  · rintro ⟨htitle, hcommand, harguments⟩
    exact ⟨_, harguments, some c.command, Json.field?_eq_ok_some.mpr ⟨_, hcommand, rfl⟩,
      some c.title, Json.field?_eq_ok_some.mpr ⟨_, htitle, rfl⟩, _, rfl, _, rfl, rfl⟩

theorem ofJson_eq_ok {v : Json} {c : Command} : ofJson v = .ok c ↔ Reads v c := by
  refine Json.readRow_eq_ok fieldNames (fun _ _ => ofMembers_eq_ok) fun items c => ?_
  simp only [ofRow, bind_eq_ok_iff, pure_eq_ok_iff, Prod.exists, Json.next_eq_ok_iff,
    Json.nextOr_eq_ok_iff, Json.readString_eq_ok, Json.readAnyList_eq_ok, fieldsRead_iff,
    fieldNames, Json.Members.get?_zip_cons, String.reduceEq, reduceIte]
  constructor
  · rintro ⟨r, ⟨title, _, ⟨⟨_, htitle, rfl⟩, rfl⟩, command, _, ⟨⟨_, hcommand, rfl⟩, rfl⟩,
      arguments, _, ⟨harguments, rfl⟩, ⟨⟩⟩, hr⟩
    exact ⟨(Json.iterate_tail_eq_nil_iff 3).mp hr, htitle, hcommand, harguments⟩
  · rintro ⟨hl, htitle, hcommand, harguments⟩
    exact ⟨_, ⟨_, _, ⟨⟨_, htitle, rfl⟩, rfl⟩, _, _, ⟨⟨_, hcommand, rfl⟩, rfl⟩, _, _,
      ⟨harguments, rfl⟩, rfl⟩, (Json.iterate_tail_eq_nil_iff 3).mpr hl⟩

end Command

namespace CodeAction

def fieldNames : List String := ["title", "kind", "edit", "command"]

@[mk_iff]
structure FieldsRead (ms : Json.Members) (a : CodeAction) : Prop where
  title : ms.get? "title" = some (.str a.title)
  kind : Json.Nullable (fun v t => v = .str t) (ms.get? "kind") a.kind
  edit : Json.Nullable WorkspaceEdit.Reads (ms.get? "edit") a.edit
  command : Json.Nullable Command.Reads (ms.get? "command") a.command

def Reads (v : Json) (a : CodeAction) : Prop :=
  ∃ ms, v.rowFields? fieldNames = some ms ∧ FieldsRead ms a

theorem ofMembers_eq_ok {ms : Json.Members} {a : CodeAction} :
    ofMembers ms = .ok a ↔ FieldsRead ms a := by
  simp only [ofMembers, bind_eq_ok_iff, Json.required_eq_ok, pure_eq_ok_iff, Json.nullable?_eq_ok,
    Command.ofJson_eq_ok, WorkspaceEdit.ofJson_eq_ok, Json.readString_eq_ok]
  constructor
  · rintro ⟨_, hcommand, _, hedit, _, hkind, _, htitle, _, rfl, rfl⟩
    simp only [Json.field?_eq_ok_some, Json.readString_eq_ok, exists_eq_right] at htitle
    exact ⟨htitle, hkind, hedit, hcommand⟩
  · rintro ⟨htitle, hkind, hedit, hcommand⟩
    exact ⟨_, hcommand, _, hedit, _, hkind, some a.title,
      Json.field?_eq_ok_some.mpr ⟨_, htitle, rfl⟩, _, rfl, rfl⟩

theorem ofJson_eq_ok {v : Json} {a : CodeAction} : ofJson v = .ok a ↔ Reads v a := by
  refine Json.readRow_eq_ok fieldNames (fun _ _ => ofMembers_eq_ok) fun items a => ?_
  simp only [ofRow, bind_eq_ok_iff, pure_eq_ok_iff, Prod.exists, Json.next_eq_ok_iff,
    Json.nextOr_eq_ok_iff, Json.readString_eq_ok, WorkspaceEdit.ofJson_eq_ok,
    Command.ofJson_eq_ok, fieldsRead_iff, fieldNames, Json.Members.get?_zip_cons,
    String.reduceEq, reduceIte]
  constructor
  · rintro ⟨r, ⟨title, _, ⟨⟨_, htitle, rfl⟩, rfl⟩, kind, _, ⟨hkind, rfl⟩, edit, _, ⟨hedit, rfl⟩,
      command, _, ⟨hcommand, rfl⟩, ⟨⟩⟩, hr⟩
    exact ⟨(Json.iterate_tail_eq_nil_iff 4).mp hr, htitle, hkind, hedit, hcommand⟩
  · rintro ⟨hl, htitle, hkind, hedit, hcommand⟩
    exact ⟨_, ⟨_, _, ⟨⟨_, htitle, rfl⟩, rfl⟩, _, _, ⟨hkind, rfl⟩, _, _, ⟨hedit, rfl⟩, _, _,
      ⟨hcommand, rfl⟩, rfl⟩, (Json.iterate_tail_eq_nil_iff 4).mpr hl⟩

end CodeAction

/-! ## the kind -/

/-- The kind of actions that put imports in order, or one below it. -/
def OrganizeImportsKind (kind : String) : Prop :=
  kind = "source.organizeImports" ∨ ∃ rest, kind = "source.organizeImports." ++ rest

/-- Nothing follows the kind, or a dot and then anything. -/
theorem organizeImportsKind_append {tail : String} :
    OrganizeImportsKind (organizeImports ++ tail) ↔
      tail.toList = [] ∨ ∃ rest, tail.toList = '.' :: rest := by
  have hdot : "source.organizeImports.".toList = organizeImports.toList ++ ['.'] := rfl
  have hself : "source.organizeImports" = organizeImports := rfl
  simp only [OrganizeImportsKind, hself, ← String.toList_inj, String.toList_append, hdot,
    List.append_assoc, List.append_cancel_left_eq, List.append_right_eq_self, List.cons_append,
    List.nil_append]
  refine or_congr_right ?_
  constructor
  · rintro ⟨rest, h⟩
    exact ⟨rest.toList, h⟩
  · rintro ⟨rest, h⟩
    exact ⟨String.ofList rest, by rw [h, String.toList_ofList]⟩

theorem isOrganizeImports_iff {kind : String} :
    isOrganizeImports kind = true ↔ OrganizeImportsKind kind := by
  unfold isOrganizeImports
  by_cases hprefix : organizeImports.toList <+: kind.toList
  · obtain ⟨tail, htail⟩ := hprefix
    have hkind : kind = organizeImports ++ String.ofList tail := by
      rw [← String.toList_inj, String.toList_append, String.toList_ofList, htail]
    rw [if_pos (List.isPrefixOf_iff_prefix.mpr ⟨tail, htail⟩), ← htail, List.drop_left, hkind,
      organizeImportsKind_append, String.toList_ofList]
    cases tail with
    | nil => simp
    | cons c tail => simp
  · rw [if_neg fun h => hprefix (List.isPrefixOf_iff_prefix.mp h)]
    refine iff_of_false nofun ?_
    rintro (rfl | ⟨rest, rfl⟩)
    · exact hprefix (List.prefix_refl _)
    · exact hprefix ⟨'.' :: rest.toList, by rw [String.toList_append]; rfl⟩

theorem CodeAction.organizes_iff {a : CodeAction} :
    a.organizes = true ↔ ∃ kind, a.kind = some kind ∧ OrganizeImportsKind kind := by
  unfold organizes
  cases a.kind with
  | none => exact iff_of_false nofun nofun
  | some kind => simpa using isOrganizeImports_iff

/-! ## entries that are chosen -/

/-- What one entry of a reply gives: nothing for a bare command, and otherwise an action. -/
theorem readActionOrCommand_eq_ok {u : Json} {item : Option CodeAction} :
    readActionOrCommand u = .ok item ↔
      Json.FirstOf (fun u item => ∃ c, Command.Reads u c ∧ none = item)
        (fun u item => ∃ a, CodeAction.Reads u a ∧ some a = item) u item := by
  refine Json.readUnion_eq_ok.trans ?_
  simp only [map_eq_ok_iff, Command.ofJson_eq_ok, CodeAction.ofJson_eq_ok]

variable {u : Json} {a : CodeAction}

theorem readActionOrCommand_none :
    readActionOrCommand u = .ok none ↔ ∃ c, Command.Reads u c := by
  rw [readActionOrCommand_eq_ok]
  constructor
  · rintro (⟨c, hcommand, -⟩ | ⟨-, _, -, ⟨⟩⟩)
    exact ⟨c, hcommand⟩
  · exact fun ⟨c, hcommand⟩ => .first ⟨c, hcommand, rfl⟩

theorem readActionOrCommand_some :
    readActionOrCommand u = .ok (some a) ↔ (∀ c, ¬ Command.Reads u c) ∧ CodeAction.Reads u a := by
  rw [readActionOrCommand_eq_ok]
  constructor
  · rintro (⟨_, -, ⟨⟩⟩ | ⟨hno, _, haction, ⟨⟩⟩)
    exact ⟨fun c hc => hno none ⟨c, hc, rfl⟩, haction⟩
  · rintro ⟨hno, haction⟩
    exact .second (fun _ ⟨c, hc, _⟩ => hno c hc) ⟨a, haction, rfl⟩

theorem exists_readActionOrCommand_iff :
    (∃ item, readActionOrCommand u = .ok item) ↔
      (∃ c, Command.Reads u c) ∨ ∃ a, CodeAction.Reads u a := by
  constructor
  · rintro ⟨_ | a, h⟩
    · exact .inl (readActionOrCommand_none.mp h)
    · exact .inr ⟨a, (readActionOrCommand_some.mp h).2⟩
  · intro h
    by_cases hcommand : ∃ c, Command.Reads u c
    · exact ⟨none, readActionOrCommand_none.mpr hcommand⟩
    · obtain ⟨a, haction⟩ := h.resolve_left hcommand
      exact ⟨some a, readActionOrCommand_some.mpr ⟨not_exists.mp hcommand, haction⟩⟩

/-- An entry is chosen that is an action of the kind, and no bare command. -/
def Chosen (u : Json) : Prop :=
  (∀ c, ¬ Command.Reads u c) ∧
    ∃ a, CodeAction.Reads u a ∧ ∃ kind, a.kind = some kind ∧ OrganizeImportsKind kind

theorem chosen_iff :
    Chosen u ↔ ∃ a, readActionOrCommand u = .ok (some a) ∧ a.organizes = true := by
  simp only [Chosen, readActionOrCommand_some, CodeAction.organizes_iff, and_assoc,
    exists_and_left]

theorem chosen_iff_of_read {item : Option CodeAction} (h : readActionOrCommand u = .ok item) :
    Chosen u ↔ item.any CodeAction.organizes = true := by
  rw [chosen_iff, h]
  cases item <;> simp

instance : DecidablePred Chosen := fun u =>
  match h : readActionOrCommand u with
  | .ok item => decidable_of_iff' _ (chosen_iff_of_read h)
  | .error e => isFalse fun hchosen => by
    obtain ⟨a, ha, -⟩ := chosen_iff.mp hchosen
    cases h.symm.trans ha

/-- The actions that are kept are those of the chosen entries. -/
theorem forall₂_chosen {us : List Json} {items : List (Option CodeAction)}
    (h : List.Forall₂ (fun u item => readActionOrCommand u = .ok item) us items) :
    List.Forall₂ CodeAction.Reads (us.filter (Chosen ·))
      ((items.filterMap id).filter CodeAction.organizes) := by
  -- both sides drop or keep their first item together, by what it was read as
  induction h with
  | nil => exact .nil
  | @cons u item us items hu _ ih =>
    have hchosen := chosen_iff_of_read hu
    cases item with
    | none =>
      rw [List.filter_cons_of_neg (by simpa using hchosen)]
      exact ih
    | some a =>
      rw [List.filterMap_cons, id]
      by_cases ha : a.organizes = true
      · rw [List.filter_cons_of_pos ha, List.filter_cons_of_pos (by simpa using hchosen.mpr ha)]
        exact .cons (readActionOrCommand_some.mp hu).2 ih
      · rw [List.filter_cons_of_neg ha, List.filter_cons_of_neg (by simpa using mt hchosen.mp ha)]
        exact ih

theorem readOrganizeImports_eq_ok {v : Json} {as : List CodeAction} :
    readOrganizeImports v = .ok as ↔ ∃ items,
      List.Forall₂ (fun u item => readActionOrCommand u = .ok item) v.entries items ∧
        (items.filterMap id).filter CodeAction.organizes = as := by
  unfold readOrganizeImports
  simp only [map_eq_ok_iff, readOneOrMany_eq_ok]

/-- **A reply of actions can be read if it is nothing, or every entry is a command or else an
action.  The actions that it gives are those of the entries, in their order, that are no bare
command and whose kind is the one for putting imports in order or one below it, each with all that
its entry says.  A kind that goes on otherwise than by a dot is never among them.** -/
theorem readOrganizeImports_chosen :
    (∀ v, (∃ as, readOrganizeImports v = .ok as) ↔ v = .null ∨
      ∀ u ∈ v.entries, (∃ c, Command.Reads u c) ∨ ∃ a, CodeAction.Reads u a) ∧
    (∀ v as, readOrganizeImports v = .ok as →
      List.Forall₂ CodeAction.Reads (v.entries.filter (Chosen ·)) as) ∧
    ∀ v as, readOrganizeImports v = .ok as → ∀ a ∈ as, ∀ (c : Char) (rest : List Char), c ≠ '.' →
      a.kind ≠ some ("source.organizeImports" ++ String.ofList (c :: rest)) := by
  refine ⟨fun v => ?_, fun v as h => ?_, fun v as h a ha c rest hc hkind => ?_⟩
  · have hnull : v = .null → ∀ u ∈ v.entries,
        (∃ c, Command.Reads u c) ∨ ∃ a, CodeAction.Reads u a := by
      rintro rfl
      exact nofun
    rw [or_iff_right_of_imp hnull]
    simp only [← exists_readActionOrCommand_iff, ← exists_forall₂_iff, readOrganizeImports_eq_ok]
    constructor
    · rintro ⟨_, items, hitems, -⟩
      exact ⟨items, hitems⟩
    · rintro ⟨items, hitems⟩
      exact ⟨_, items, hitems, rfl⟩
  · obtain ⟨items, hitems, rfl⟩ := readOrganizeImports_eq_ok.mp h
    exact forall₂_chosen hitems
  · obtain ⟨items, -, rfl⟩ := readOrganizeImports_eq_ok.mp h
    obtain ⟨kind, hsome, hkind'⟩ := CodeAction.organizes_iff.mp (List.mem_filter.mp ha).2
    obtain rfl := Option.some.inj (hsome.symm.trans hkind)
    obtain h | ⟨_, h⟩ := organizeImportsKind_append.mp hkind'
    · simp at h
    · simp [hc] at h

def offer (kind : String) (rest : Json.Members) : Json :=
  .obj (rest ++ [("kind", .str kind), ("title", .str "Imports")])

theorem readOrganizeImports_overlapping :
    let run : Command := ⟨"Sort", "go.imports", some [.null]⟩
    let edit : WorkspaceEdit :=
      { changes := some [("file:///a.go", [⟨⟨⟨2, 0⟩, ⟨3, 0⟩⟩, "\"fmt\"\n"⟩])] }
    let v : Json := .arr
      [offer "source.organizeImports" [("command", .str "go.imports")],
        offer "source.organizeImports" [("edit", edit.toJson)],
        offer "source.organizeImportsX" [("edit", edit.toJson)],
        offer "source.organizeImports.go" [("command", run.toJson)],
        offer "source" [("command", run.toJson)]]
    let as : List CodeAction :=
      [⟨"Imports", some "source.organizeImports", some edit, none⟩,
        ⟨"Imports", some "source.organizeImports.go", none, some run⟩]
    readOrganizeImports v = .ok as ∧
      List.Forall₂ CodeAction.Reads (v.entries.filter (Chosen ·)) as ∧
      ∀ a ∈ as, a.kind ≠ some "source.organizeImportsX" := by
  intro run edit v as
  -- the first entry is of the kind too, but its command is a text, so it is a bare command
  have hread : readOrganizeImports v = .ok as := rfl
  exact ⟨hread, readOrganizeImports_chosen.2.1 v as hread,
    fun a ha => readOrganizeImports_chosen.2.2 v as hread a ha 'X' [] (by decide)⟩

end CodeBridge
