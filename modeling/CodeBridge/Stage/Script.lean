import CodeBridge.Client.Published
import CodeBridge.Connection.Basic

/-!
# Scripted servers

A script says for every method what the server does with the first message, the second and so on;
the last action it gives is done again for all later messages.  An action is a list of cues.

* `Script.ofJson`    the script that an object describes;
* `Actor`            a server that plays a script;
* `Actor.attend`     what it does with a message: cues that are left to do.
-/

namespace CodeBridge

/-- One thing that a scripted server does. -/
inductive Cue where
  | answer (result : Json)
  | refuse (fault : Json)
  | frame (value : Json)
  | publish (params : Json)
  | raw (bytes : Bytes)
  | delay (ms : Nat)
  /-- send nothing from here on -/
  | hangUp
  /-- read nothing from here on -/
  | closeInput
  deriving DecidableEq, Repr

abbrev Action := List Cue

/-- Methods and their actions. -/
abbrev Script := List (String × List Action)

namespace Cue

/-- The cue that a value describes. -/
def ofJson? : Json → Option Cue
  | .str "hangup" => some .hangUp
  | .str "close_input" => some .closeInput
  | .obj [("reply", v)] => some (.answer v)
  | .obj [("error", v)] => some (.refuse v)
  | .obj [("frame", v)] => some (.frame v)
  | .obj [("publish", v)] => some (.publish v)
  | .obj [("raw", .str text)] => some (.raw (Utf8.ofString text))
  | .obj [("delay_ms", v)] => v.word?.map fun n => .delay n.toNat
  | _ => none

end Cue

def Action.ofJson (v : Json) : Action := (v.arr?.getD []).filterMap Cue.ofJson?

namespace Script

def ofJson : Json → Script
  | .obj members => members.map fun (method, v) => (method, (v.arr?.getD []).map Action.ofJson)
  | _ => []

/-- What an unscripted server says of itself. -/
def greeting : Json :=
  .obj [("capabilities", .obj [("renameProvider", .obj [("prepareProvider", .bool true)])]),
    ("serverInfo", .obj [("name", .str "fake-gopls")])]

/-- What is done with a message that no action is given for. -/
def defaultAction (method : String) : Action :=
  if method = "initialize" then [.answer greeting] else [.answer .null]

/-- The action for a message of a method after `before` others of it. -/
def action (s : Script) (method : String) (before : Nat) : Action :=
  match s.find? fun e => e.1 = method with
  | none => defaultAction method
  | some (_, actions) =>
    match actions[before]? with
    | some a => a
    | none => actions.getLast?.getD (defaultAction method)

end Script

/-! ## frames -/

/-- what stands for the id of the message that is answered -/
def idMark : String := "$id"

mutual

/-- The value with `id` in the place of every mark. -/
def Json.substitute (id : Json) (v : Json) : Json :=
  match v with
  | .str s => if s = idMark then id else .str s
  | .arr items => .arr (Json.substituteItems id items)
  | .obj members => .obj (Json.substituteMembers id members)
  | v => v
termination_by structural v

def Json.substituteItems (id : Json) (vs : List Json) : List Json :=
  match vs with
  | [] => []
  | v :: vs => Json.substitute id v :: Json.substituteItems id vs
termination_by structural vs

def Json.substituteMember (id : Json) (m : String × Json) : String × Json :=
  match m with
  | (k, v) => (k, Json.substitute id v)
termination_by structural m

def Json.substituteMembers (id : Json) (ms : List (String × Json)) : List (String × Json) :=
  match ms with
  | [] => []
  | m :: ms => Json.substituteMember id m :: Json.substituteMembers id ms
termination_by structural ms

end

namespace Cue

/-- What a cue does to the connection of its server; `id` is the id of the message that is
answered, if there is one. -/
def perform (id : Option Json) (cue : Cue) (c : Connection) : Connection :=
  match cue, id with
  | .answer result, some id => c.deliver (Frame.write (Message.answer id result))
  | .refuse fault, some id =>
    c.deliver (Frame.write (.obj [("error", fault), ("id", id), Message.version]))
  | .answer _, none | .refuse _, none | .delay _, _ => c
  | .frame v, id => c.deliver (Frame.write (Json.substitute (Json.ofOption id) v))
  | .publish params, _ =>
    c.deliver (Frame.write (Message.notification Published.method (some params)))
  | .raw bytes, _ => c.deliver bytes
  | .hangUp, _ => c.hangUp
  | .closeInput, _ => c.stopListening

def isDelay : Cue → Bool
  | .delay _ => true
  | _ => false

end Cue

/-! ## actors -/

/-- A server that plays a script. -/
structure Actor where
  script : Script := []
  /-- how many messages of each method there have been -/
  heard : List (String × Nat) := []
  /-- messages that have not been looked at, the last one first -/
  received : List Json := []
  deriving DecidableEq, Repr, Inhabited

namespace Actor

def count (a : Actor) (method : String) : Nat :=
  ((a.heard.find? fun e => e.1 = method).map (·.2)).getD 0

def countOne (a : Actor) (method : String) : Actor :=
  { a with heard :=
      (method, a.count method + 1) :: a.heard.filter fun e => e.1 ≠ method }

/-- A server that reads no more sends nothing either with that action. -/
def effective (action : Action) : Action :=
  if action.contains .closeInput then [.closeInput] else action

/-- Take in a message; gives its id and the cues for it. -/
def attend (a : Actor) (message : Json) : Option Json × Action × Actor :=
  let a := { a with received := message :: a.received }
  match (message.get? "method").bind Json.str? with
  | none => (none, [], a)
  | some method =>
    let action := a.script.action method (a.count method)
    (message.get? "id", effective action, a.countOne method)

end Actor

end CodeBridge
