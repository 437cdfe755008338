import CodeBridge.Stage.Script
import CodeBridge.Tool.Error
import CodeBridge.Tool.Request

/-!
# Steps of a play

A play is a list of steps: what is asked of a client, of the session and of the tools, what the
actor does unasked, and steps made of others.  Every step ends in a report.
-/

namespace CodeBridge

/-- What can be asked of a client. -/
inductive ClientStep where
  | handshake (uri : String)
  | shutdown
  | terminate
  | lifecycle
  | capabilities
  | openDocument (uri text : String)
  | closeDocument (uri : String)
  | isOpen (uri : String)
  | openDocuments
  | definition (uri : String) (position : Position)
  | implementation (uri : String) (position : Position)
  | references (uri : String) (position : Position) (includeDeclaration : Bool)
  | hover (uri : String) (position : Position)
  | prepareRename (uri : String) (position : Position)
  | rename (uri : String) (position : Position) (newName : String)
  | documentSymbols (uri : String)
  | workspaceSymbol (query : String)
  | format (uri : String)
  | organizeActions (uri : String) (range : Range)
  | diagnostics (uri : String)
  | awaitDiagnostics (uri : String) (ms : Nat)
  deriving DecidableEq, Repr

inductive Step where
  | client (step : ClientStep)
  | start
  | isRunning
  | findClient
  | stop
  | info
  | tool (request : Decoded ToolRequest)
  /-- the actor acts unasked -/
  | push (action : Action)
  | sleep (ms : Nat)
  /-- a step that is dropped when it takes longer -/
  | within (ms : Nat) (step : Step)
  /-- steps that are begun in order and go on side by side -/
  | together (steps : List Step)

inductive Report where
  | value (v : Json)
  | fault (fault : ClientError)
  | toolFault (fault : ToolError)
  | badRequest (fault : DecodeError)
  | dropped
  | all (reports : List Report)
  deriving Inhabited

namespace Report

/-- The report of an attempt. -/
def ofExcept {α : Type} (toJson : α → Json) : Except ClientError α → Report
  | .ok a => value (toJson a)
  | .error e => fault e

def done : Report := value .null

end Report

/-- What a step led to. -/
structure Scene where
  report : Report
  /-- messages that the actor has got, in order -/
  received : List Json
  /-- the files after the step -/
  system : FileSystem

end CodeBridge
