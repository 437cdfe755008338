import CodeBridge.Protocol.Action
import CodeBridge.Protocol.Symbol

/-!
# Results of requests

A method may answer in one of several shapes: one item or a list of them, a tree or a flat list, or
`null` for nothing.  Each reading here takes every shape that is allowed and gives one type:

* `readLocations`         places, from locations or links, one or many;
* `readOutline`           a forest of symbols, a flat list giving childless nodes;
* `readWorkspaceSymbols`  symbols with places, a place without a range starting at the origin;
* `readHover`             one text, whatever pieces it came in;
* `readPrepareRename`     a range, a range with a placeholder, or leave to use the default;
* `readWorkspaceEdit`, `readTextEdits`, `readOrganizeImports`.
-/

namespace CodeBridge

/-- `null`, one item, or a list of items. -/
def readOneOrMany {α : Type} (read : Json → Decoded α) : Json → Decoded (List α)
  | .null => .ok []
  | .arr items => items.mapM read
  | v => (read v).map fun a => [a]

/-- `null` for `absent`. -/
def readOrElse {α : Type} (absent : α) (read : Json → Decoded α) : Json → Decoded α
  | .null => .ok absent
  | v => read v

/-! ## places -/

/-- A link to a place, read as the place its name stands at. -/
def Location.ofLinkMembers (ms : Json.Members) : Decoded Location := do
  let range ← ms.field? "targetSelectionRange" Range.ofJson
  let uri ← ms.field? "targetUri" Json.readString
  let uri ← Json.required "targetUri" uri
  let range ← Json.required "targetSelectionRange" range
  return ⟨uri, range⟩

def Location.ofLink : Json → Decoded Location :=
  Json.readRecord "LocationLink" Location.ofLinkMembers Location.ofRow

/-- A place or a link to one. -/
def readAnyLocation : Json → Decoded Location :=
  Json.readUnion "AnyLocation" [Location.ofJson, Location.ofLink]

def readLocations : Json → Decoded (List Location) := readOneOrMany readAnyLocation

/-! ## symbols -/

/-- A symbol by its place, as a node without children. -/
def SymbolInformation.toNode (s : SymbolInformation) : DocumentSymbol :=
  ⟨s.name, s.containerName, s.kind, s.location.range, s.location.range, []⟩

def readOutline : Json → Decoded (List DocumentSymbol) :=
  readOrElse [] fun v =>
    match Json.readList DocumentSymbol.ofJson v with
    | .ok tree => .ok tree
    | .error _ => (Json.readList SymbolInformation.ofJson v).map fun flat => flat.map (·.toNode)

/-- A document without a range in it. -/
def Location.ofUriOnly : Json → Decoded Location :=
  Json.readObject "UriOnly" fun ms => do
    let uri ← ms.field? "uri" Json.readString
    let uri ← Json.required "uri" uri
    return ⟨uri, .origin⟩

def readSymbolLocation : Json → Decoded Location :=
  Json.readUnion "WorkspaceSymbolLocation" [Location.ofJson, Location.ofUriOnly]

def readWorkspaceSymbolMembers (ms : Json.Members) : Decoded SymbolInformation := do
  let containerName ← ms.nullable? "containerName" Json.readString
  let kind ← ms.field? "kind" SymbolKind.ofJson
  let location ← ms.field? "location" readSymbolLocation
  let name ← ms.field? "name" Json.readString
  let name ← Json.required "name" name
  let kind ← Json.required "kind" kind
  let location ← Json.required "location" location
  return ⟨name, kind, location, containerName⟩

def readWorkspaceSymbolRow (r : Json.Row) : Decoded (SymbolInformation × Json.Row) := do
  let expected := "struct WorkspaceSymbol with 4 elements"
  let (name, r) ← r.next expected Json.readString
  let (kind, r) ← r.next expected SymbolKind.ofJson
  let (location, r) ← r.next expected readSymbolLocation
  let (containerName, r) ← r.nextOr none (Json.readOption Json.readString)
  return (⟨name, kind, location, containerName⟩, r)

def readWorkspaceSymbol : Json → Decoded SymbolInformation :=
  Json.readRecord "WorkspaceSymbol" readWorkspaceSymbolMembers readWorkspaceSymbolRow

def readWorkspaceSymbols : Json → Decoded (List SymbolInformation) :=
  readOneOrMany readWorkspaceSymbol

/-! ## hover -/

structure Hover where
  contents : String
  range : Option Range
  deriving DecidableEq, Repr

/-- Two texts that an object has to give. -/
def readTextPair (first second : String) (ms : Json.Members) : Decoded (String × String) := do
  let a ← ms.field? first Json.readString
  let b ← ms.field? second Json.readString
  let a ← Json.required first a
  let b ← Json.required second b
  return (a, b)

/-- A block of code between fences. -/
def fenced (language value : String) : String := s!"```{language}\n{value}\n```"

def readCodeBlock : Json → Decoded String :=
  Json.readObject "Block" fun ms =>
    (readTextPair "language" "value" ms).map fun (language, value) => fenced language value

/-- A text or a block of code. -/
def readMarked : Json → Decoded String :=
  Json.readUnion "MarkedString" [Json.readString, readCodeBlock]

def readMarkup : Json → Decoded String :=
  Json.readObject "Markup" fun ms => (readTextPair "kind" "value" ms).map (·.2)

def readManyMarked (v : Json) : Decoded String :=
  (Json.readList readMarked v).map ("\n\n".intercalate ·)

def readHoverContents : Json → Decoded String :=
  Json.readUnion "HoverContents" [readMarkup, readMarked, readManyMarked]

namespace Hover

def toJson (h : Hover) : Json :=
  .obj [("contents", .str h.contents), ("range", .ofOption (h.range.map Range.toJson))]

def ofMembers (ms : Json.Members) : Decoded Hover := do
  let contents ← ms.field? "contents" readHoverContents
  let range ← ms.nullable? "range" Range.ofJson
  let contents ← Json.required "contents" contents
  return ⟨contents, range⟩

def ofRow (r : Json.Row) : Decoded (Hover × Json.Row) := do
  let expected := "struct RawHover with 2 elements"
  let (contents, r) ← r.next expected readHoverContents
  let (range, r) ← r.nextOr none (Json.readOption Range.ofJson)
  return (⟨contents, range⟩, r)

def ofJson : Json → Decoded Hover := Json.readRecord "RawHover" ofMembers ofRow

end Hover

def readHover : Json → Decoded (Option Hover) := Json.readOption Hover.ofJson

/-! ## rename -/

/-- What the server says of a place before a rename. -/
structure PrepareRename where
  range : Option Range := none
  placeholder : Option String := none
  /-- the server leaves the choice of the range to its client -/
  defaultBehavior : Bool := false
  deriving DecidableEq, Repr

namespace PrepareRename

def toJson (p : PrepareRename) : Json :=
  .obj [("default_behavior", .bool p.defaultBehavior),
    ("placeholder", .ofOption (p.placeholder.map .str)),
    ("range", .ofOption (p.range.map Range.toJson))]

def ofPlaceholder : Json → Decoded PrepareRename :=
  Json.readObject "WithPlaceholder" fun ms => do
    let range ← ms.field? "range" Range.ofJson
    let placeholder ← ms.field? "placeholder" Json.readString
    let range ← Json.required "range" range
    let placeholder ← Json.required "placeholder" placeholder
    return ⟨some range, some placeholder, false⟩

def ofDefault : Json → Decoded PrepareRename :=
  Json.readObject "Default" fun ms => do
    let behaviour ← ms.field? "defaultBehavior" Json.readBool
    let behaviour ← Json.required "defaultBehavior" behaviour
    return ⟨none, none, behaviour⟩

def ofRange (v : Json) : Decoded PrepareRename :=
  (Range.ofJson v).map fun range => ⟨some range, none, false⟩

def ofJson : Json → Decoded PrepareRename :=
  Json.readUnion "RawPrepareRename" [ofPlaceholder, ofDefault, ofRange]

end PrepareRename

def readPrepareRename : Json → Decoded (Option PrepareRename) := Json.readOption PrepareRename.ofJson

/-! ## edits and actions -/

def readWorkspaceEdit : Json → Decoded WorkspaceEdit := readOrElse ⟨none, none⟩ WorkspaceEdit.ofJson

def readTextEdits : Json → Decoded (List TextEdit) := readOrElse [] (Json.readList TextEdit.ofJson)

/-- the kind of the actions that put imports in order -/
def organizeImports : String := "source.organizeImports"

/-- The kind itself or one below it. -/
def isOrganizeImports (kind : String) : Bool :=
  if organizeImports.toList.isPrefixOf kind.toList then
    match kind.toList.drop organizeImports.toList.length with
    | [] => true
    | c :: _ => c = '.'
  else false

/-- A bare command, or an action; a command is told by its `command` being a text. -/
def readActionOrCommand : Json → Decoded (Option CodeAction) :=
  Json.readUnion "ActionOrCommand"
    [fun v => (Command.ofJson v).map fun _ => none, fun v => (CodeAction.ofJson v).map some]

def CodeAction.organizes (a : CodeAction) : Bool :=
  match a.kind with
  | some kind => isOrganizeImports kind
  | none => false

/-- The actions that put imports in order, in the order given. -/
def readOrganizeImports (v : Json) : Decoded (List CodeAction) :=
  (readOneOrMany readActionOrCommand v).map fun items =>
    (items.filterMap id).filter CodeAction.organizes

end CodeBridge
