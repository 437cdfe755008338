import CodeBridge.Protocol.Request
import CodeBridge.Settings.Value

/-!
# Settings of the language server

Which program serves a language and how the client treats it.  Every setting has a default, so a
record may leave any of them out.
-/

namespace CodeBridge

namespace Formatting

def ofMembers (ms : Json.Members) : Decoded Formatting := do
  let insertSpaces ← ms.field? "insert_spaces" Json.readBool
  let tabSize ← ms.field? "tab_size" Json.readUInt32
  return ⟨tabSize.getD 4, insertSpaces.getD false⟩

def ofRow (r : Json.Row) : Decoded (Formatting × Json.Row) := do
  let (tabSize, r) ← r.nextOr 4 Json.readUInt32
  let (insertSpaces, r) ← r.nextOr false Json.readBool
  return (⟨tabSize, insertSpaces⟩, r)

def ofJson : Json → Decoded Formatting := Json.readRecord "FormattingConfig" ofMembers ofRow

/-- The same from a settings file. -/
def ofValue : Document.Reading Formatting :=
  .record "FormattingConfig"
    [Document.field "tab_size" .uint32 fun f n => { f with tabSize := n },
      Document.field "insert_spaces" .bool fun f b => { f with insertSpaces := b }]
    ⟨4, false⟩

def toJson (f : Formatting) : Json :=
  .obj [("insert_spaces", .bool f.insertSpaces), ("tab_size", .ofUInt32 f.tabSize)]

end Formatting

structure ServerSettings where
  /-- program to start -/
  command : String := "gopls"
  args : List String := ["serve"]
  /-- language named when a document is opened -/
  languageId : String := "go"
  /-- seconds a request may take -/
  requestTimeout : UInt64 := 30
  /-- seconds the server may take to leave -/
  shutdownTimeout : UInt64 := 2
  formatting : Formatting := {}
  deriving DecidableEq, Repr

namespace ServerSettings

def ofMembers (ms : Json.Members) : Decoded ServerSettings := do
  let args ← ms.field? "args" (Json.readList Json.readString)
  let command ← ms.field? "command" Json.readString
  let formatting ← ms.field? "formatting" Formatting.ofJson
  let languageId ← ms.field? "language_id" Json.readString
  let requestTimeout ← ms.field? "request_timeout_secs" Json.readUInt64
  let shutdownTimeout ← ms.field? "shutdown_timeout_secs" Json.readUInt64
  let absent : ServerSettings := {}
  return {
    command := command.getD absent.command
    args := args.getD absent.args
    languageId := languageId.getD absent.languageId
    requestTimeout := requestTimeout.getD absent.requestTimeout
    shutdownTimeout := shutdownTimeout.getD absent.shutdownTimeout
    formatting := formatting.getD absent.formatting }

def ofRow (r : Json.Row) : Decoded (ServerSettings × Json.Row) := do
  let absent : ServerSettings := {}
  let (command, r) ← r.nextOr absent.command Json.readString
  let (args, r) ← r.nextOr absent.args (Json.readList Json.readString)
  let (languageId, r) ← r.nextOr absent.languageId Json.readString
  let (requestTimeout, r) ← r.nextOr absent.requestTimeout Json.readUInt64
  let (shutdownTimeout, r) ← r.nextOr absent.shutdownTimeout Json.readUInt64
  let (formatting, r) ← r.nextOr absent.formatting Formatting.ofJson
  return (⟨command, args, languageId, requestTimeout, shutdownTimeout, formatting⟩, r)

def ofJson : Json → Decoded ServerSettings := Json.readRecord "LspConfig" ofMembers ofRow

/-- The same from a settings file. -/
def ofValue : Document.Reading ServerSettings :=
  .record "LspConfig"
    [Document.field "command" .text fun s t => { s with command := t },
      Document.field "args" (.list .text) fun s ts => { s with args := ts },
      Document.field "language_id" .text fun s t => { s with languageId := t },
      Document.field "request_timeout_secs" .uint64 fun s n => { s with requestTimeout := n },
      Document.field "shutdown_timeout_secs" .uint64 fun s n => { s with shutdownTimeout := n },
      Document.field "formatting" Formatting.ofValue fun s f => { s with formatting := f }]
    {}

def toJson (s : ServerSettings) : Json :=
  .obj [("args", .arr (s.args.map .str)), ("command", .str s.command),
    ("formatting", s.formatting.toJson), ("language_id", .str s.languageId),
    ("request_timeout_secs", .ofUInt64 s.requestTimeout),
    ("shutdown_timeout_secs", .ofUInt64 s.shutdownTimeout)]

end ServerSettings

end CodeBridge
