import CodeBridge.Protocol.Position

/-!
# Edits of one or more documents

A `TextEdit` replaces a range of one document.  A `WorkspaceEdit` holds edits of several documents
in one of two encodings, a map by URI or a list of documents; `documents` is the one reading of
both, and the list counts when it is there and not empty.
-/

namespace CodeBridge

structure TextEdit where
  range : Range
  newText : String
  deriving DecidableEq, Repr, Inhabited

namespace TextEdit

def toJson (e : TextEdit) : Json :=
  .obj [("newText", .str e.newText), ("range", e.range.toJson)]

def ofMembers (ms : Json.Members) : Decoded TextEdit := do
  let newText ← ms.field? "newText" Json.readString
  let range ← ms.field? "range" Range.ofJson
  let range ← Json.required "range" range
  let newText ← Json.required "newText" newText
  return ⟨range, newText⟩

def ofRow (r : Json.Row) : Decoded (TextEdit × Json.Row) := do
  let expected := "struct TextEdit with 2 elements"
  let (range, r) ← r.next expected Range.ofJson
  let (newText, r) ← r.next expected Json.readString
  return (⟨range, newText⟩, r)

def ofJson : Json → Decoded TextEdit := Json.readRecord "TextEdit" ofMembers ofRow

end TextEdit

/-- A document and the version of it that the server has seen, if it keeps count. -/
structure VersionedTextDocumentIdentifier where
  uri : String
  version : Option Int32
  deriving DecidableEq, Repr

namespace VersionedTextDocumentIdentifier

def toJson (d : VersionedTextDocumentIdentifier) : Json :=
  .obj [("uri", .str d.uri), ("version", .ofOption (d.version.map .ofInt32))]

def ofMembers (ms : Json.Members) : Decoded VersionedTextDocumentIdentifier := do
  let uri ← ms.field? "uri" Json.readString
  let version ← ms.nullable? "version" Json.readInt32
  let uri ← Json.required "uri" uri
  return ⟨uri, version⟩

def ofRow (r : Json.Row) : Decoded (VersionedTextDocumentIdentifier × Json.Row) := do
  let expected := "struct VersionedTextDocumentIdentifier with 2 elements"
  let (uri, r) ← r.next expected Json.readString
  let (version, r) ← r.nextOr none (Json.readOption Json.readInt32)
  return (⟨uri, version⟩, r)

def ofJson : Json → Decoded VersionedTextDocumentIdentifier :=
  Json.readRecord "VersionedTextDocumentIdentifier" ofMembers ofRow

end VersionedTextDocumentIdentifier

structure TextDocumentEdit where
  textDocument : VersionedTextDocumentIdentifier
  edits : List TextEdit
  deriving DecidableEq, Repr

namespace TextDocumentEdit

def toJson (e : TextDocumentEdit) : Json :=
  .obj [("edits", .arr (e.edits.map TextEdit.toJson)), ("textDocument", e.textDocument.toJson)]

def ofMembers (ms : Json.Members) : Decoded TextDocumentEdit := do
  let edits ← ms.field? "edits" (Json.readList TextEdit.ofJson)
  let textDocument ← ms.field? "textDocument" VersionedTextDocumentIdentifier.ofJson
  let textDocument ← Json.required "textDocument" textDocument
  let edits ← Json.required "edits" edits
  return ⟨textDocument, edits⟩

def ofRow (r : Json.Row) : Decoded (TextDocumentEdit × Json.Row) := do
  let expected := "struct TextDocumentEdit with 2 elements"
  let (textDocument, r) ← r.next expected VersionedTextDocumentIdentifier.ofJson
  let (edits, r) ← r.next expected (Json.readList TextEdit.ofJson)
  return (⟨textDocument, edits⟩, r)

def ofJson : Json → Decoded TextDocumentEdit := Json.readRecord "TextDocumentEdit" ofMembers ofRow

end TextDocumentEdit

/-- Edits of several documents, in either encoding. -/
structure WorkspaceEdit where
  /-- edits by URI, in ascending order of the URIs -/
  changes : Option (List (String × List TextEdit)) := none
  documentChanges : Option (List TextDocumentEdit) := none
  deriving DecidableEq, Repr, Inhabited

namespace WorkspaceEdit

/-- The edits of each document, from the encoding that is in use. -/
def documents (e : WorkspaceEdit) : List (String × List TextEdit) :=
  match e.documentChanges with
  | some (d :: ds) => (d :: ds).map fun d => (d.textDocument.uri, d.edits)
  | _ => e.changes.getD []

/-- no document carries any edit -/
def isEmpty (e : WorkspaceEdit) : Bool := e.documents.all fun (_, edits) => edits.isEmpty

def toJson (e : WorkspaceEdit) : Json :=
  .obj (Json.Members.optional "changes" (e.changes.map fun cs =>
      .obj (cs.map fun (uri, edits) => (uri, .arr (edits.map TextEdit.toJson))))
    ++ Json.Members.optional "documentChanges" (e.documentChanges.map fun ds =>
      .arr (ds.map TextDocumentEdit.toJson)))

def readChanges : Json → Decoded (List (String × List TextEdit)) :=
  Json.readMap (Json.readList TextEdit.ofJson)

def ofMembers (ms : Json.Members) : Decoded WorkspaceEdit := do
  let changes ← ms.nullable? "changes" readChanges
  let documentChanges ← ms.nullable? "documentChanges" (Json.readList TextDocumentEdit.ofJson)
  return ⟨changes, documentChanges⟩

def ofRow (r : Json.Row) : Decoded (WorkspaceEdit × Json.Row) := do
  let (changes, r) ← r.nextOr none (Json.readOption readChanges)
  let (documentChanges, r) ←
    r.nextOr none (Json.readOption (Json.readList TextDocumentEdit.ofJson))
  return (⟨changes, documentChanges⟩, r)

def ofJson : Json → Decoded WorkspaceEdit := Json.readRecord "WorkspaceEdit" ofMembers ofRow

end WorkspaceEdit

end CodeBridge
