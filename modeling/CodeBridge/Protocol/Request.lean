import CodeBridge.Protocol.Reply

/-!
# Messages to the server

A message is a request with a number, a notification, or the answer to a request of the server.
`Params` makes the parameters of every method that the client uses.
-/

namespace CodeBridge

/-! ## messages -/

namespace Message

/-- the version of the protocol that every message names -/
def version : String × Json := ("jsonrpc", .str "2.0")

def request (id : UInt64) (method : String) (params : Option Json) : Json :=
  .obj ([("id", .ofUInt64 id), version, ("method", .str method)] ++
    Json.Members.optional "params" params)

def notification (method : String) (params : Option Json) : Json :=
  .obj ([version, ("method", .str method)] ++ Json.Members.optional "params" params)

def answer (id result : Json) : Json := .obj [("id", id), version, ("result", result)]

def refusal (id : Json) (code : Int32) (message : String) : Json :=
  .obj [("error", .obj [("code", .ofInt32 code), ("message", .str message)]), ("id", id), version]

end Message

/-! ## parameters -/

/-- How the formatter is to indent. -/
structure Formatting where
  tabSize : UInt32 := 4
  insertSpaces : Bool := false
  deriving DecidableEq, Repr

namespace Params

def document (uri : String) : String × Json := ("textDocument", .obj [("uri", .str uri)])

def fixed : String × Json := ("dynamicRegistration", .bool false)

/-- what the client can do, as it tells the server -/
def capabilities : Json :=
  .obj [
    ("general", .obj [("positionEncodings", .arr [.str "utf-16"])]),
    ("textDocument", .obj [
      ("codeAction", .obj [
        ("codeActionLiteralSupport", .obj [
          ("codeActionKind", .obj [("valueSet", .arr [.str organizeImports])])]),
        fixed]),
      ("definition", .obj [fixed]),
      ("documentSymbol", .obj [fixed, ("hierarchicalDocumentSymbolSupport", .bool true)]),
      ("formatting", .obj [fixed]),
      ("hover", .obj [("contentFormat", .arr [.str "markdown", .str "plaintext"]), fixed]),
      ("implementation", .obj [fixed]),
      ("publishDiagnostics", .obj [("relatedInformation", .bool false)]),
      ("references", .obj [fixed]),
      ("rename", .obj [fixed, ("prepareSupport", .bool true)]),
      ("synchronization", .obj [("didSave", .bool false), fixed, ("willSave", .bool false),
        ("willSaveWaitUntil", .bool false)])]),
    ("workspace", .obj [
      ("applyEdit", .bool false),
      ("configuration", .bool true),
      ("symbol", .obj [fixed]),
      ("workspaceEdit", .obj [("documentChanges", .bool true)])])]

def handshake (processId : UInt32) (rootUri : String) : Json :=
  .obj [("capabilities", capabilities), ("processId", .ofUInt32 processId),
    ("rootUri", .str rootUri),
    ("workspaceFolders", .arr [.obj [("name", .str "workspace"), ("uri", .str rootUri)]])]

def didOpen (uri languageId : String) (version : Int32) (text : String) : Json :=
  .obj [("textDocument", .obj [("languageId", .str languageId), ("text", .str text),
    ("uri", .str uri), ("version", .ofInt32 version)])]

def ofDocument (uri : String) : Json := .obj [document uri]

def atPosition (uri : String) (position : Position) : Json :=
  .obj [("position", position.toJson), document uri]

def references (uri : String) (position : Position) (includeDeclaration : Bool) : Json :=
  .obj [("context", .obj [("includeDeclaration", .bool includeDeclaration)]),
    ("position", position.toJson), document uri]

def rename (uri : String) (position : Position) (newName : String) : Json :=
  .obj [("newName", .str newName), ("position", position.toJson), document uri]

def formatting (uri : String) (options : Formatting) : Json :=
  .obj [("options", .obj [("insertSpaces", .bool options.insertSpaces),
    ("tabSize", .ofUInt32 options.tabSize)]), document uri]

def organize (uri : String) (range : Range) : Json :=
  .obj [("context", .obj [("diagnostics", .arr []), ("only", .arr [.str organizeImports])]),
    ("range", range.toJson), document uri]

def workspaceSymbol (query : String) : Json := .obj [("query", .str query)]

end Params

end CodeBridge
