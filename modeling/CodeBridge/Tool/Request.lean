import CodeBridge.File.Path
import CodeBridge.Json.Decode

/-!
# Tool requests

A request names a tool and gives its arguments, in an object under the key `tool`, or in an array
after the name.  Lines and columns count from one.
-/

namespace CodeBridge

inductive ToolRequest where
  | gotoDefinition (file : Path) (line column : UInt32)
  | findReferences (file : Path) (line column : UInt32) (includeDeclaration : Bool)
  | findImplementers (file : Path) (line column : UInt32)
  | hover (file : Path) (line column : UInt32)
  /-- with a wait, in milliseconds, for what the server publishes next -/
  | getDiagnostics (file : Path) (wait : Option UInt64)
  | listDocumentSymbols (file : Path)
  | searchSymbol (query : String)
  | renameSymbol (file : Path) (line column : UInt32) (newName : String)
  | formatCode (file : Path)
  | organizeImports (file : Path)
  deriving DecidableEq, Repr

namespace ToolRequest

/-- the name of the tool -/
def name : ToolRequest → String
  | gotoDefinition .. => "goto_definition"
  | findReferences .. => "find_references"
  | findImplementers .. => "find_implementers"
  | hover .. => "hover"
  | getDiagnostics .. => "get_diagnostics"
  | listDocumentSymbols .. => "list_document_symbols"
  | searchSymbol .. => "search_symbol"
  | renameSymbol .. => "rename_symbol"
  | formatCode .. => "format_code"
  | organizeImports .. => "organize_imports"

/-- all names, in the order in which messages list them -/
def names : List String :=
  ["goto_definition", "find_references", "find_implementers", "hover", "get_diagnostics",
    "list_document_symbols", "search_symbol", "rename_symbol", "format_code", "organize_imports"]

def readFile (v : Json) : Decoded Path := (Json.readTextAs "path string" v).map Path.ofString

/-- Both ways of reading the arguments of one tool. -/
structure Arguments where
  ofMembers : Json.Members → Decoded ToolRequest
  ofRow : Json.Row → Decoded (ToolRequest × Json.Row)

def expected (case : String) (count : Nat) : String :=
  s!"struct variant ToolRequest::{case} with {elements count}"

/-- A file. -/
def fileOnly (case : String) (make : Path → ToolRequest) : Arguments where
  ofMembers ms := do
    let file ← ms.field? "file" readFile
    let file ← Json.required "file" file
    return make file
  ofRow r := do
    let (file, r) ← r.next (expected case 1) readFile
    return (make file, r)

/-- A file, a line and a column. -/
def place (case : String) (make : Path → UInt32 → UInt32 → ToolRequest) : Arguments where
  ofMembers ms := do
    let column ← ms.field? "column" Json.readUInt32
    let file ← ms.field? "file" readFile
    let line ← ms.field? "line" Json.readUInt32
    let file ← Json.required "file" file
    let line ← Json.required "line" line
    let column ← Json.required "column" column
    return make file line column
  ofRow r := do
    let (file, r) ← r.next (expected case 3) readFile
    let (line, r) ← r.next (expected case 3) Json.readUInt32
    let (column, r) ← r.next (expected case 3) Json.readUInt32
    return (make file line column, r)

def referenceArguments : Arguments where
  ofMembers ms := do
    let column ← ms.field? "column" Json.readUInt32
    let file ← ms.field? "file" readFile
    let includeDeclaration ← ms.field? "include_declaration" Json.readBool
    let line ← ms.field? "line" Json.readUInt32
    let file ← Json.required "file" file
    let line ← Json.required "line" line
    let column ← Json.required "column" column
    return findReferences file line column (includeDeclaration.getD false)
  ofRow r := do
    let (file, r) ← r.next (expected "FindReferences" 4) readFile
    let (line, r) ← r.next (expected "FindReferences" 4) Json.readUInt32
    let (column, r) ← r.next (expected "FindReferences" 4) Json.readUInt32
    let (includeDeclaration, r) ← r.nextOr false Json.readBool
    return (findReferences file line column includeDeclaration, r)

def diagnosticArguments : Arguments where
  ofMembers ms := do
    let file ← ms.field? "file" readFile
    let wait ← ms.nullable? "wait_ms" Json.readUInt64
    let file ← Json.required "file" file
    return getDiagnostics file wait
  ofRow r := do
    let (file, r) ← r.next (expected "GetDiagnostics" 2) readFile
    let (wait, r) ← r.nextOr none (Json.readOption Json.readUInt64)
    return (getDiagnostics file wait, r)

def searchArguments : Arguments where
  ofMembers ms := do
    let query ← ms.field? "query" Json.readString
    let query ← Json.required "query" query
    return searchSymbol query
  ofRow r := do
    let (query, r) ← r.next (expected "SearchSymbol" 1) Json.readString
    return (searchSymbol query, r)

def renameArguments : Arguments where
  ofMembers ms := do
    let column ← ms.field? "column" Json.readUInt32
    let file ← ms.field? "file" readFile
    let line ← ms.field? "line" Json.readUInt32
    let newName ← ms.field? "new_name" Json.readString
    let file ← Json.required "file" file
    let line ← Json.required "line" line
    let column ← Json.required "column" column
    let newName ← Json.required "new_name" newName
    return renameSymbol file line column newName
  ofRow r := do
    let (file, r) ← r.next (expected "RenameSymbol" 4) readFile
    let (line, r) ← r.next (expected "RenameSymbol" 4) Json.readUInt32
    let (column, r) ← r.next (expected "RenameSymbol" 4) Json.readUInt32
    let (newName, r) ← r.next (expected "RenameSymbol" 4) Json.readString
    return (renameSymbol file line column newName, r)

/-- The arguments of the tool with this name. -/
def arguments (name : String) : Decoded Arguments :=
  match name with
  | "goto_definition" => .ok (place "GotoDefinition" gotoDefinition)
  | "find_references" => .ok referenceArguments
  | "find_implementers" => .ok (place "FindImplementers" findImplementers)
  | "hover" => .ok (place "Hover" hover)
  | "get_diagnostics" => .ok diagnosticArguments
  | "list_document_symbols" => .ok (fileOnly "ListDocumentSymbols" listDocumentSymbols)
  | "search_symbol" => .ok searchArguments
  | "rename_symbol" => .ok renameArguments
  | "format_code" => .ok (fileOnly "FormatCode" formatCode)
  | "organize_imports" => .ok (fileOnly "OrganizeImports" organizeImports)
  | _ => .error (.unknownCase name names)

def readName : Json → Decoded String := Json.readTextAs "variant identifier"

/-- A tagged record given as an array has nothing left over. -/
def finish (request : ToolRequest) (r : Json.Row) : Decoded ToolRequest :=
  if r.rest.isEmpty then .ok request
  else .error (.surplus (r.taken + r.rest.length) r.taken)

def ofJson : Json → Decoded ToolRequest
  | .obj ms => do
    let name ← Json.Members.field? ms "tool" readName
    let name ← Json.required "tool" name
    let arguments ← arguments name
    arguments.ofMembers ms
  | .arr [] => .error (.missing "tool")
  | .arr (tag :: items) => do
    let name ← readName tag
    let arguments ← arguments name
    let (request, r) ← arguments.ofRow ⟨0, items⟩
    finish request r
  | v => v.mismatch "internally tagged enum ToolRequest"

end ToolRequest

end CodeBridge
