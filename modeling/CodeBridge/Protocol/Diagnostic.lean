import CodeBridge.Protocol.Position
import CodeBridge.Json.Printer

/-!
# Diagnostics

A `Diagnostic` is one finding of the server about a range of a document.  A severity that is absent
or outside the table counts as an error; a code is a text, and a number becomes one.
-/

namespace CodeBridge

/-! ## severities -/

inductive Severity where
  | error | warning | information | hint
  deriving DecidableEq, Repr

namespace Severity

def ofCode? (n : UInt64) : Option Severity :=
  match n.toNat with
  | 1 => some .error
  | 2 => some .warning
  | 3 => some .information
  | 4 => some .hint
  | _ => none

def label : Severity → String
  | .error => "error"
  | .warning => "warning"
  | .information => "information"
  | .hint => "hint"

def isError : Severity → Bool
  | .error => true
  | _ => false

end Severity

/-! ## findings -/

structure Diagnostic where
  range : Range
  severity : Severity
  message : String
  code : Option String
  source : Option String
  deriving DecidableEq, Repr

namespace Diagnostic

def toJson (d : Diagnostic) : Json :=
  .obj [("code", .ofOption (d.code.map .str)), ("message", .str d.message),
    ("range", d.range.toJson), ("severity", .str d.severity.label),
    ("source", .ofOption (d.source.map .str))]

/-- The text of a code: a text as it is, a number as it is written, nothing else. -/
def codeText : Json → Option String
  | .str s => some s
  | .num n => some (String.ofList n.render)
  | _ => none

def make (range : Range) (severity : Option UInt64) (code : Option Json) (source : Option String)
    (message : String) : Diagnostic :=
  ⟨range, (severity.bind Severity.ofCode?).getD .error, message, code.bind codeText, source⟩

def ofMembers (ms : Json.Members) : Decoded Diagnostic := do
  let code ← ms.field? "code" Json.readAny
  let message ← ms.field? "message" Json.readString
  let range ← ms.field? "range" Range.ofJson
  let severity ← ms.nullable? "severity" Json.readUInt64
  let source ← ms.nullable? "source" Json.readString
  let range ← Json.required "range" range
  let message ← Json.required "message" message
  return make range severity code source message

def ofRow (r : Json.Row) : Decoded (Diagnostic × Json.Row) := do
  let expected := "struct LspDiagnostic with 5 elements"
  let (range, r) ← r.next expected Range.ofJson
  let (severity, r) ← r.next expected (Json.readOption Json.readUInt64)
  let (code, r) ← r.nextOr Json.null Json.readAny
  let (source, r) ← r.next expected (Json.readOption Json.readString)
  let (message, r) ← r.next expected Json.readString
  return (make range severity (some code) source message, r)

def ofJson : Json → Decoded Diagnostic := Json.readRecord "LspDiagnostic" ofMembers ofRow

end Diagnostic

/-- The findings about one document, as the server publishes them. -/
structure Publication where
  uri : String
  diagnostics : List Diagnostic
  deriving DecidableEq, Repr

namespace Publication

def ofMembers (ms : Json.Members) : Decoded Publication := do
  let diagnostics ← ms.field? "diagnostics" (Json.readList Diagnostic.ofJson)
  let uri ← ms.field? "uri" Json.readString
  let uri ← Json.required "uri" uri
  let diagnostics ← Json.required "diagnostics" diagnostics
  return ⟨uri, diagnostics⟩

def ofRow (r : Json.Row) : Decoded (Publication × Json.Row) := do
  let expected := "struct PublishDiagnosticsParams with 2 elements"
  let (uri, r) ← r.next expected Json.readString
  let (diagnostics, r) ← r.next expected (Json.readList Diagnostic.ofJson)
  return (⟨uri, diagnostics⟩, r)

def ofJson : Json → Decoded Publication := Json.readRecord "PublishDiagnosticsParams" ofMembers ofRow

end Publication

end CodeBridge
