import CodeBridge.Json.Parser
import CodeBridge.Json.Printer
import CodeBridge.Text.Blank
import CodeBridge.Text.Pieces
import CodeBridge.Tool.Request

/-!
# Requests and replies, a line each

A line of the input holds one request as JSON text; a reply is one line of JSON text that repeats
the request's `id`.

* `inputLines`   the bytes of the lines of an input;
* `readLine`     what a line asks for;
* `Reply.line`   the bytes of a reply.
-/

namespace CodeBridge

/-! ## replies -/

structure Reply where
  id : Json
  outcome : Except String Json

namespace Reply

def toJson (r : Reply) : Json :=
  match r.outcome with
  | .ok result => .obj [("id", r.id), ("ok", .bool true), ("result", result)]
  | .error message => .obj [("error", .str message), ("id", r.id), ("ok", .bool false)]

/-- Compact JSON text and a newline. -/
def line (r : Reply) : Bytes := Utf8.encode (r.toJson.render ++ ['\n'])

end Reply

/-! ## requests -/

namespace Service

/-- What a line asks for. -/
inductive Entry where
  /-- nothing but white space -/
  | blank
  /-- no request; the reply says why -/
  | rejected (reply : Reply)
  | accepted (id : Json) (request : ToolRequest)

/-- What a value asks for. -/
def entryOfJson (v : Json) : Entry :=
  let id := (v.get? "id").getD .null
  match ToolRequest.ofJson v with
  | .ok request => .accepted id request
  | .error fault => .rejected ⟨id, .error s!"invalid request: {fault.message}"⟩

/-- What a line of text asks for. -/
def entryOfText (text : List Char) : Entry :=
  if allBlank text then .blank
  else
    match Json.parse (Utf8.encode text) with
    | .ok v => entryOfJson v
    | .error fault => .rejected ⟨.null, .error s!"invalid JSON: {fault.message}"⟩

/-! ## lines -/

def newline : UInt8 := 0x0A

/-- A line without the newline that ends it, and without one carriage return before that. -/
def dropEnd (line : List Char) : List Char :=
  if line.getLast? = some '\n' then dropMark '\r' line.dropLast else line

/-- What a line asks for; its newline is part of what has to be UTF-8. -/
def readLine (line : Bytes) : Except Utf8.Error Entry :=
  (Utf8.decode line).map fun text => entryOfText (dropEnd text)

/-- Every piece but the last with a newline after it; the last one if it is not empty. -/
def closeLines : List Bytes → List Bytes
  | [] => []
  | [last] => if last.isEmpty then [] else [last]
  | l :: m :: ls => (l ++ [newline]) :: closeLines (m :: ls)

/-- The lines of an input, with their newlines. -/
def inputLines (input : Bytes) : List Bytes := closeLines (piecesAt newline input)

end Service

end CodeBridge
