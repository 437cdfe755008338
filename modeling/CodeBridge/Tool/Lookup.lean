import CodeBridge.Tool.Document
import CodeBridge.Tool.Outline
import CodeBridge.Text.Pieces

/-!
# Tools that look things up

Places, hover texts, diagnostics and symbols, all counted from one.  A place comes with the line of
text it is on; a place whose URI names no local file is left out.
-/

namespace CodeBridge.Tool

/-! ## places -/

/-- A place with the text of its line. -/
structure FoundPlace where
  file : String
  line : UInt32
  column : UInt32
  preview : String
  deriving DecidableEq, Repr

def FoundPlace.toJson (p : FoundPlace) : Json :=
  .obj [("column", .ofUInt32 p.column), ("file", .str p.file), ("line", .ofUInt32 p.line),
    ("preview", .str p.preview)]

/-- Lines of the files that have been read, nothing for one that cannot be. -/
abbrev Previews := List (Path × Option (List (List Char)))

namespace Previews

def get? (ps : Previews) (path : Path) : Option (Option (List (List Char))) :=
  (ps.find? fun p => decide (p.1.Same path)).map (·.2)

end Previews

/-- The text of a line counted from one, without white space at its ends. -/
def previewOf (lines : Option (List (List Char))) (line : UInt32) : String :=
  if line = 0 then ""
  else
    match lines with
    | none => ""
    | some ls => String.ofList (trim (ls[line.toNat - 1]?.getD []))

def foundPlace (path : Path) (start : UserPosition) (lines : Option (List (List Char))) :
    FoundPlace :=
  ⟨path.display, start.line, start.column, previewOf lines start.line⟩

/-- Places of local files, each file read once. -/
def foundPlaces : List Location → Previews → Routine Host (List FoundPlace)
  | [], _ => .done []
  | l :: ls, previews =>
    match pathOfUri l.uri with
    | .error _ => foundPlaces ls previews
    | .ok path =>
      let start := toUser l.range.start
      match previews.get? path with
      | some lines =>
        (foundPlaces ls previews).bind fun rest => .done (foundPlace path start lines :: rest)
      | none =>
        (readText path).bind fun text =>
          let lines := text.toOption.map fun t => rows t.toList
          (foundPlaces ls ((path, lines) :: previews)).bind fun rest =>
            .done (foundPlace path start lines :: rest)

/-- Ask for places about a position. -/
def places (file : Path) (line column : UInt32) (what : String)
    (question : String → Position → Routine Client (Except ClientError (List Location))) :
    ToolRoutine (List FoundPlace) :=
  andThen (ofExcept (position line column)) fun p =>
    andThen (ask file what fun doc => question doc.uri p) fun (_, locations) =>
      (foundPlaces locations []).bind fun found => .done (.ok found)

def gotoDefinition (file : Path) (line column : UInt32) : ToolRoutine (List FoundPlace) :=
  places file line column "definition request" Client.definition

def findReferences (file : Path) (line column : UInt32) (includeDeclaration : Bool) :
    ToolRoutine (List FoundPlace) :=
  places file line column "references request" fun uri p =>
    Client.references uri p includeDeclaration

def findImplementers (file : Path) (line column : UInt32) : ToolRoutine (List FoundPlace) :=
  places file line column "implementation request" Client.implementation

/-! ## hover -/

/-- The hover text at a position, if there is more to it than white space. -/
def hover (file : Path) (line column : UInt32) : ToolRoutine (Option String) :=
  andThen (ofExcept (position line column)) fun p =>
    andThen (ask file "hover request" fun doc => Client.hover doc.uri p) fun (_, found) =>
      .done (.ok ((found.map (·.contents)).filter fun text => !allBlank text.toList))

/-! ## diagnostics -/

/-- A finding with both ends of its range counted from one. -/
structure FoundProblem where
  severity : Severity
  message : String
  start : UserPosition
  stop : UserPosition
  source : Option String
  code : Option String
  deriving DecidableEq, Repr

namespace FoundProblem

def ofDiagnostic (d : Diagnostic) : FoundProblem :=
  ⟨d.severity, d.message, toUser d.range.start, toUser d.range.stop, d.source, d.code⟩

def toJson (p : FoundProblem) : Json :=
  .obj (Json.Members.optional "code" (p.code.map .str) ++
    [("column", .ofUInt32 p.start.column), ("end_column", .ofUInt32 p.stop.column),
     ("end_line", .ofUInt32 p.stop.line), ("line", .ofUInt32 p.start.line),
     ("message", .str p.message), ("severity", .str p.severity.label)] ++
    Json.Members.optional "source" (p.source.map .str))

end FoundProblem

/-- What was published last about a file, or, with a wait, what is published next. -/
def getDiagnostics (file : Path) (wait : Option UInt64) : ToolRoutine (List FoundProblem) :=
  andThen (openDocument file) fun doc =>
    let lookup : Routine Client (List Diagnostic) :=
      match wait with
      | some ms => Client.awaitDiagnostics doc.uri ms.toNat
      | none => Client.diagnostics doc.uri
    (Host.onClient doc.client lookup).bind fun found =>
      doc.close.bind fun _ => .done (.ok (found.map FoundProblem.ofDiagnostic))

/-! ## symbols -/

/-- The outline of a file. -/
def listDocumentSymbols (file : Path) : ToolRoutine (List SymbolNode) :=
  andThen (ask file "document symbols request" fun doc => Client.documentSymbols doc.uri)
    fun (_, symbols) => .done (.ok (SymbolNode.ofSymbols symbols))

structure FoundSymbol where
  name : String
  kind : SymbolKind
  file : String
  start : UserPosition
  container : Option String
  deriving DecidableEq, Repr

namespace FoundSymbol

/-- A symbol of a local file; an empty container is none. -/
def ofSymbol? (s : SymbolInformation) : Option FoundSymbol :=
  match pathOfUri s.location.uri with
  | .error _ => none
  | .ok path =>
    some ⟨s.name, s.kind, path.display, toUser s.location.range.start,
      s.containerName.filter (· ≠ "")⟩

def toJson (s : FoundSymbol) : Json :=
  .obj ([("column", .ofUInt32 s.start.column)] ++
    Json.Members.optional "container" (s.container.map .str) ++
    [("file", .str s.file), ("kind", .str s.kind.label), ("line", .ofUInt32 s.start.line),
     ("name", .str s.name)])

end FoundSymbol

/-- Symbols of the whole workspace. -/
def searchSymbol (query : String) : ToolRoutine (List FoundSymbol) :=
  let query := trimText query
  if query = "" then .done (.error .blankQuery)
  else
    andThen client fun k =>
      (Host.onClient k (Client.workspaceSymbol query)).bind fun found =>
        .done ((found.mapError (ToolError.request "workspace symbol request")).map
          fun symbols => symbols.filterMap FoundSymbol.ofSymbol?)

end CodeBridge.Tool
