import CodeBridge.Service.Line
import CodeBridge.Tool.Dispatch

/-!
# The service

The service reads requests from its input until the input ends and answers every one; requests run
side by side, so replies come in any order.  A line that is no request is answered with the reason
and does no harm to others; a line that is not UTF-8 ends the service at once.
-/

namespace CodeBridge.Service

/-- The reply to a request. -/
def answer (id : Json) (request : ToolRequest) : Routine Host Reply :=
  (Tool.dispatch request).bind fun result => .done ⟨id, result.mapError ToolError.message⟩

end CodeBridge.Service
