import CodeBridge.Protocol.Edit

/-!
# Code actions

A `Command` runs on the server.  A `CodeAction` is an offer to change something: an edit, a
command, or both.
-/

namespace CodeBridge

structure Command where
  title : String
  command : String
  arguments : Option (List Json)
  deriving DecidableEq, Repr

namespace Command

def toJson (c : Command) : Json :=
  .obj (Json.Members.optional "arguments" (c.arguments.map .arr) ++
    [("command", .str c.command), ("title", .str c.title)])

def ofMembers (ms : Json.Members) : Decoded Command := do
  let arguments ← ms.nullable? "arguments" (Json.readList Json.readAny)
  let command ← ms.field? "command" Json.readString
  let title ← ms.field? "title" Json.readString
  let title ← Json.required "title" title
  let command ← Json.required "command" command
  return ⟨title, command, arguments⟩

def ofRow (r : Json.Row) : Decoded (Command × Json.Row) := do
  let expected := "struct Command with 3 elements"
  let (title, r) ← r.next expected Json.readString
  let (command, r) ← r.next expected Json.readString
  let (arguments, r) ← r.nextOr none (Json.readOption (Json.readList Json.readAny))
  return (⟨title, command, arguments⟩, r)

def ofJson : Json → Decoded Command := Json.readRecord "Command" ofMembers ofRow

end Command

structure CodeAction where
  title : String
  kind : Option String
  edit : Option WorkspaceEdit
  command : Option Command
  deriving DecidableEq, Repr

namespace CodeAction

def toJson (a : CodeAction) : Json :=
  .obj (Json.Members.optional "command" (a.command.map Command.toJson) ++
    Json.Members.optional "edit" (a.edit.map WorkspaceEdit.toJson) ++
    Json.Members.optional "kind" (a.kind.map .str) ++
    [("title", .str a.title)])

def ofMembers (ms : Json.Members) : Decoded CodeAction := do
  let command ← ms.nullable? "command" Command.ofJson
  let edit ← ms.nullable? "edit" WorkspaceEdit.ofJson
  let kind ← ms.nullable? "kind" Json.readString
  let title ← ms.field? "title" Json.readString
  let title ← Json.required "title" title
  return ⟨title, kind, edit, command⟩

def ofRow (r : Json.Row) : Decoded (CodeAction × Json.Row) := do
  let expected := "struct CodeAction with 4 elements"
  let (title, r) ← r.next expected Json.readString
  let (kind, r) ← r.nextOr none (Json.readOption Json.readString)
  let (edit, r) ← r.nextOr none (Json.readOption WorkspaceEdit.ofJson)
  let (command, r) ← r.nextOr none (Json.readOption Command.ofJson)
  return (⟨title, kind, edit, command⟩, r)

def ofJson : Json → Decoded CodeAction := Json.readRecord "CodeAction" ofMembers ofRow

end CodeAction

end CodeBridge
