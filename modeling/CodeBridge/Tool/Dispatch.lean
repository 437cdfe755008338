import CodeBridge.Tool.Lookup
import CodeBridge.Tool.Request
import CodeBridge.Tool.Change

/-!
# Running a tool

A request leads to its tool, and the tool's result to the value that answers the request.
-/

namespace CodeBridge.Tool

/-- The value of a result. -/
def mapJson {α : Type} (r : ToolRoutine α) (toJson : α → Json) : ToolRoutine Json :=
  r.bind fun result => .done (result.map toJson)

def listToJson {α : Type} (toJson : α → Json) (xs : List α) : Json := .arr (xs.map toJson)

/-- An outline as a drawing and as nodes. -/
def outlineToJson (nodes : List SymbolNode) : Json :=
  .obj [("symbols", .arr (SymbolNode.toJsonList nodes)), ("tree", .str (SymbolNode.render nodes))]

/-- Run the tool that a request asks for. -/
def dispatch : ToolRequest → ToolRoutine Json
  | .gotoDefinition file line column =>
    mapJson (gotoDefinition file line column) (listToJson FoundPlace.toJson)
  | .findReferences file line column includeDeclaration =>
    mapJson (findReferences file line column includeDeclaration) (listToJson FoundPlace.toJson)
  | .findImplementers file line column =>
    mapJson (findImplementers file line column) (listToJson FoundPlace.toJson)
  | .hover file line column =>
    mapJson (hover file line column) fun text => Json.ofOption (text.map .str)
  | .getDiagnostics file wait =>
    mapJson (getDiagnostics file wait) (listToJson FoundProblem.toJson)
  | .listDocumentSymbols file => mapJson (listDocumentSymbols file) outlineToJson
  | .searchSymbol query => mapJson (searchSymbol query) (listToJson FoundSymbol.toJson)
  | .renameSymbol file line column newName =>
    mapJson (renameSymbol file line column newName) Changed.toJson
  | .formatCode file => mapJson (formatCode file) Changed.toJson
  | .organizeImports file => mapJson (organizeImports file) Changed.toJson

end CodeBridge.Tool
