import CodeBridge.Client.Error

/-!
# What a tool can fail with

The text of a fault leads from what the tool was about to the last cause, with colons between.
-/

namespace CodeBridge

inductive ToolError where
  | blankName
  | blankQuery
  | badPosition (line column : UInt32)
  | badPath (file : Path) (fault : PlaceError)
  | unreadable (path : Path) (fault : IoError)
  | noServer (fault : ClientError)
  | notOpened (path : Path) (fault : ClientError)
  /-- a request failed, named as in "hover request" -/
  | request (what : String) (fault : ClientError)
  /-- edits could not be written, named as in "rename edits" -/
  | notApplied (what : String) (fault : EditError)
  /-- an action that only the server could run -/
  | needsCommand (title command : String)
  deriving DecidableEq, Repr

namespace ToolError

/-- The links of the chain, the tool's own first. -/
def chain : ToolError → List String
  | blankName => ["new_name must not be empty"]
  | blankQuery => ["query must not be empty"]
  | badPosition line column => (ClientError.invalidPosition line column).chain
  | badPath file fault => s!"invalid path {file.display}" :: fault.chain
  | unreadable path fault => [s!"failed to read {path.display}", fault.message]
  | noServer fault => "language server is not available" :: fault.chain
  | notOpened path fault =>
    s!"failed to open {path.display} on the language server" :: fault.chain
  | request what fault => s!"{what} failed" :: fault.chain
  | notApplied what fault => s!"failed to apply {what}" :: fault.chain
  | needsCommand title command =>
    [s!"organize imports action '{title}' requires command execution ({command}), " ++
      "which is not supported"]

def message (e : ToolError) : String := ": ".intercalate e.chain

end ToolError

end CodeBridge
