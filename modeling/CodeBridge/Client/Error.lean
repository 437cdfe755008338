import CodeBridge.Edit.Files

/-!
# What a client can fail with

A fault that carries another one shows it twice in a chain: in its own message and as a link of its
own.
-/

namespace CodeBridge

inductive ClientError where
  | commandNotFound (command : String)
  | spawn (command : String) (fault : IoError)
  | connectionClosed
  | timeout (method : String) (seconds : UInt64)
  /-- the server refuses a request -/
  | server (method : String) (code : Int64) (message : String)
  | decode (method : String) (fault : DecodeError)
  | notInitialized
  | alreadyInitialized
  | shutDown
  | place (fault : PlaceError)
  | invalidPosition (line column : UInt32)
  /-- the server's process cannot be waited for, or not be killed -/
  | processWait (fault : IoError)
  deriving DecidableEq, Repr

/-- a number of whole seconds as a message shows it -/
def showSeconds (seconds : UInt64) : String := if seconds = 0 then "0ns" else s!"{seconds}s"

/-- The messages of a fault and of what it carries. -/
def PlaceError.chain : PlaceError → List String
  | .noWorkingDirectory path =>
    [(PlaceError.noWorkingDirectory path).message, IoError.notFound.message]
  | .uri fault => [fault.message]

def EditError.chain : EditError → List String
  | .read path fault => [(EditError.read path fault).message, fault.message]
  | .write path fault => [(EditError.write path fault).message, fault.message]
  | .edits fault => [fault.message]
  | .place fault => fault.chain

namespace ClientError

def message : ClientError → String
  | commandNotFound command => s!"language server command not found: {command}"
  | spawn command fault => s!"failed to start language server {command}: {fault.message}"
  | connectionClosed => "connection to language server closed"
  | timeout method seconds => s!"{method} timed out after {showSeconds seconds}"
  | server method code message => s!"{method} failed: {message} (code {code})"
  | decode method fault => s!"failed to decode {method} result: {fault.message}"
  | notInitialized => "client not initialized"
  | alreadyInitialized => "client already initialized"
  | shutDown => "client has been shut down"
  | place fault => fault.message
  | invalidPosition line column =>
    s!"invalid position {line}:{column} (lines and columns start at 1)"
  | processWait fault => s!"failed waiting for language server process: {fault.message}"

def chain : ClientError → List String
  | spawn command fault => [(spawn command fault).message, fault.message]
  | decode method fault => [(decode method fault).message, fault.message]
  | place fault => fault.chain
  | processWait fault => [(processWait fault).message, fault.message]
  | e => [e.message]

/-- The client was used before or after its time. -/
def isLifecycle : ClientError → Bool
  | notInitialized | alreadyInitialized | shutDown => true
  | _ => false

end ClientError

end CodeBridge
