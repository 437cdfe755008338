import CodeBridge.Session.Basic
import CodeBridge.Tool.Error

/-!
# The document of a tool call

A tool that is about a file reads it, and holds it open on the server for as long as the call takes.
A failure to let go of it at the end never takes the place of the tool's own result.
-/

namespace CodeBridge

/-- a routine of a tool -/
abbrev ToolRoutine (α : Type) := Routine Host (Except ToolError α)

namespace Tool

/-- Go on only when nothing has failed. -/
def andThen {α β : Type} (r : ToolRoutine α) (next : α → ToolRoutine β) : ToolRoutine β :=
  Client.andThen r next

def ofExcept {α : Type} (e : Except ToolError α) : ToolRoutine α := .done e

/-- The normal path of a file, relative ones being seen from the root of the workspace. -/
def resolve (h : Host) (file : Path) : Except ToolError Path :=
  (normalizePath h.disk.cwd (h.root.join file)).mapError (ToolError.badPath file)

/-- The text of a file, read while others go on. -/
def readText (path : Path) : Routine Host (Except IoError String) := do
  let text ← Routine.read fun h => h.disk.readText path
  Routine.offload
  return text

/-- The client of the session. -/
def client : ToolRoutine Nat :=
  Session.client.bind fun k => .done (k.mapError ToolError.noServer)

/-- A document held open for a tool call. -/
structure OpenDocument where
  client : Nat
  uri : String
  path : Path
  text : String
  deriving DecidableEq, Repr

/-- Hold a file that has been read open on the server. -/
def holdOpen (path : Path) (text : String) (k : Nat) : ToolRoutine OpenDocument :=
  let uri := Uri.ofNames (Path.resolve path.components)
  (Host.onClient k (Client.openDocument uri text)).bind fun held =>
    .done ((held.mapError (ToolError.notOpened path)).map fun _ => ⟨k, uri, path, text⟩)

/-- Read a file and hold it open on the server. -/
def openDocument (file : Path) : ToolRoutine OpenDocument :=
  (Routine.read id).bind fun h =>
    andThen (ofExcept (resolve h file)) fun path =>
      (readText path).bind fun text =>
        andThen (ofExcept (text.mapError (ToolError.unreadable path))) fun text =>
          andThen client fun k => holdOpen path text k

/-- Let go of the document. -/
def OpenDocument.close (doc : OpenDocument) : Routine Host Unit :=
  (Host.onClient doc.client (Client.closeDocument doc.uri)).bind fun _ => .done ()

/-- Ask the server about a file that is held open meanwhile; `what` names the request. -/
def ask {α : Type} (file : Path) (what : String)
    (question : OpenDocument → Routine Client (Except ClientError α)) :
    ToolRoutine (OpenDocument × α) :=
  andThen (openDocument file) fun doc =>
    (Host.onClient doc.client (question doc)).bind fun answer =>
      doc.close.bind fun _ =>
        .done ((answer.mapError (ToolError.request what)).map fun a => (doc, a))

/-- The position that a line and a column counted from one stand for. -/
def position (line column : UInt32) : Except ToolError Position :=
  match toProtocol? line column with
  | some p => .ok p
  | none => .error (.badPosition line column)

end Tool

end CodeBridge
