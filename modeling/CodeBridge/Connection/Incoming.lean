import CodeBridge.Protocol.Request

/-!
# What the server sends

A value from the server is the answer to a call, a request of its own, a notification, or nothing
of these; a number that is not null and the presence of a method tell which.
-/

namespace CodeBridge

/-- A refusal of a call by the server. -/
structure Refusal where
  code : Int64
  message : String
  deriving DecidableEq, Repr

namespace Refusal

def ofMembers (ms : Json.Members) : Decoded Refusal := do
  let code ← ms.field? "code" Json.readInt64
  let message ← ms.field? "message" Json.readString
  let code ← Json.required "code" code
  let message ← Json.required "message" message
  return ⟨code, message⟩

def ofRow (r : Json.Row) : Decoded (Refusal × Json.Row) := do
  let expected := "struct ResponseError with 2 elements"
  let (code, r) ← r.next expected Json.readInt64
  let (message, r) ← r.next expected Json.readString
  return (⟨code, message⟩, r)

def ofJson : Json → Decoded Refusal := Json.readRecord "ResponseError" ofMembers ofRow

/-- code of a refusal that cannot be read -/
def internalError : Int64 := -32603

/-- The refusal that a value describes, or one that says why it describes none. -/
def read (v : Json) : Refusal :=
  match ofJson v with
  | .ok refusal => refusal
  | .error fault => ⟨internalError, s!"malformed error object: {fault.message}"⟩

end Refusal

/-- What a call is answered with. -/
inductive Answer where
  | result (value : Json)
  | refused (refusal : Refusal)
  deriving DecidableEq, Repr

/-- A refusal if the body has one, else its result. -/
def Answer.ofBody (body : Json) : Answer :=
  match body.get? "error" with
  | none | some .null => .result ((body.get? "result").getD .null)
  | some fault => .refused (Refusal.read fault)

structure Notification where
  method : String
  params : Option Json
  deriving DecidableEq, Repr

inductive Incoming where
  | answer (id : UInt64) (body : Json)
  | request (id : Json) (method : String) (params : Option Json)
  | notification (content : Notification)
  deriving DecidableEq, Repr

namespace Incoming

def ofJson? (v : Json) : Option Incoming :=
  let id := (v.get? "id").filter (!·.isNull)
  let method := (v.get? "method").bind Json.str?
  let params := v.get? "params"
  match id, method with
  | some id, some method => some (.request id method params)
  | none, some method => some (.notification ⟨method, params⟩)
  | some id, none =>
    if (v.get? "result").isSome || (v.get? "error").isSome then
      id.word?.map fun n => .answer n v
    else none
  | none, none => none

/-- How many items a request for settings asks for. -/
def itemCount (params : Option Json) : Nat :=
  (((params.bind (·.get? "items")).bind Json.arr?).map List.length).getD 0

/-- code of the refusal of an unknown method -/
def methodNotFound : Int32 := -32601

/-- What a request of the server is answered with. -/
def reply (id : Json) (method : String) (params : Option Json) : Json :=
  match method with
  | "workspace/configuration" =>
    Message.answer id (.arr (List.replicate (itemCount params) .null))
  | "client/registerCapability" | "client/unregisterCapability"
  | "window/workDoneProgress/create" => Message.answer id .null
  | _ => Message.refusal id methodNotFound s!"Method not found: {method}"

end Incoming

end CodeBridge
