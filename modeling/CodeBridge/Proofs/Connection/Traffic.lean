import CodeBridge.Connection.Call
import CodeBridge.Proofs.Concurrency.Keeps

/-!
# Traffic on a connection

All that can happen on a connection, one event after another in any order: calls begin, move, run
out of time and are dropped at any place where they stay, and so do notifications and the routines
that close the connection; the reader and the writer take their turns; and the server sends
whatever bytes it likes, stops listening, hangs up or dies.

* `Caller`      a call with its number and how far it is; its `History` is what has been noted of
                the answers that came for it;
* `answered?`   the number and the body of the answer that the reader takes next;
* `Traffic.apply`, `Traffic.run`   what an event does, and what a list of them does.
-/

namespace CodeBridge

open Connection

/-! ## callers -/

/-- An answer that was dispatched. -/
structure Heard where
  body : Json
  /-- the table had an entry for its number -/
  registered : Bool
  deriving DecidableEq, Repr

structure History where
  /-- answers with its number since it began, the first one first -/
  heard : List Heard := []
  /-- those of them that had come when its time was over -/
  late : Option (List Heard) := none
  deriving DecidableEq, Repr

inductive Progress where
  | running (rest : Routine Connection (Except ClientError Json))
  | returned (result : Except ClientError Json)
  | dropped

structure Caller where
  id : UInt64
  method : String
  history : History := {}
  progress : Progress

namespace Caller

def isRunning (k : Caller) : Bool :=
  match k.progress with
  | .running _ => true
  | _ => false

/-- Note an answer, if it is for this caller. -/
def hear (c : Connection) (id : UInt64) (body : Json) (k : Caller) : Caller :=
  if k.id = id then
    { k with history :=
        { k.history with heard := k.history.heard ++ [⟨body, c.pending.contains id⟩] } }
  else k

/-- How far a caller is whose routine is this. -/
def progressOf : Routine Connection (Except ClientError Json) → Progress
  | .done result => .returned result
  | r => .running r

def go (elapsed : Nat) (c : Connection) (k : Caller) : Connection × Caller :=
  match k.progress with
  | .running r =>
    let history := if r.expired elapsed c then { k.history with late := some k.history.heard }
      else k.history
    let (c, r) := r.poll elapsed c
    (c, { k with history := history, progress := progressOf r })
  | _ => (c, k)

def giveUp (c : Connection) (k : Caller) : Connection × Caller :=
  match k.progress with
  | .running r =>
    match r.abandoned c with
    | some c => (c, { k with progress := .dropped })
    | none => (c, k)
  | _ => (c, k)

end Caller

/-! ## traffic -/

structure Traffic where
  connection : Connection
  callers : List Caller := []
  /-- notifications and closings that are under way -/
  others : List (Routine Connection Unit) := []

inductive Event where
  /-- a call enters the table -/
  | begin (method : String) (params : Option Json)
  | go (caller elapsed : Nat)
  | drop (caller : Nat)
  | notify (method : String) (params : Option Json)
  | close (grace : Nat)
  | goOther (other elapsed : Nat)
  | dropOther (other : Nat)
  | read
  | write
  | deliver (bytes : Bytes)
  | hangUp
  | stopListening
  | exited
  | kill

def Connection.answered? (c : Connection) : Option (UInt64 × Json) :=
  if c.withheld.isSome then none
  else
    match Frame.next c.inboundEnded c.inbound with
    | some (.frame v, _) =>
      match Incoming.ofJson? v with
      | some (.answer id body) => some (id, body)
      | _ => none
    | _ => none

namespace Traffic

def onConnection (f : Connection → Connection) (t : Traffic) : Traffic :=
  { t with connection := f t.connection }

/-- A call makes its first move, which is to enter the table. -/
def begin (method : String) (params : Option Json) (t : Traffic) : Traffic :=
  let (c, r) := (call method params).run.poll 0 t.connection
  { t with
    connection := c
    callers := t.callers ++ [⟨t.connection.nextId, method, {}, Caller.progressOf r⟩] }

/-- Something done by the caller with this number in the list. -/
def withCaller (f : Connection → Caller → Connection × Caller) (i : Nat) (t : Traffic) : Traffic :=
  match t.callers[i]? with
  | none => t
  | some k =>
    let (c, k) := f t.connection k
    { t with connection := c, callers := t.callers.set i k }

def addOther {α : Type} (r : Routine Connection α) (t : Traffic) : Traffic :=
  { t with others := t.others ++ [r.bind fun _ => .done ()] }

def goOther (elapsed i : Nat) (t : Traffic) : Traffic :=
  match t.others[i]? with
  | none => t
  | some r =>
    let (c, r) := r.poll elapsed t.connection
    { t with connection := c, others := t.others.set i r }

def dropOther (i : Nat) (t : Traffic) : Traffic :=
  match t.others[i]?.bind (·.abandoned t.connection) with
  | none => t
  | some c => { t with connection := c, others := t.others.set i (.done ()) }

def read (t : Traffic) : Traffic :=
  if t.connection.canRead then
    let callers := match t.connection.answered? with
      | some (id, body) => t.callers.map (·.hear t.connection id body)
      | none => t.callers
    { t with connection := t.connection.readNext.1, callers := callers }
  else t

def write (t : Traffic) : Traffic :=
  if t.connection.canWrite then t.onConnection writeNext else t

def apply (t : Traffic) : Event → Traffic
  | .begin method params => t.begin method params
  | .go caller elapsed => t.withCaller (Caller.go elapsed) caller
  | .drop caller => t.withCaller Caller.giveUp caller
  | .notify method params => t.addOther (Connection.notify method params).run
  | .close grace => t.addOther (Connection.close grace)
  | .goOther other elapsed => t.goOther elapsed other
  | .dropOther other => t.dropOther other
  | .read => t.read
  | .write => t.write
  | .deliver bytes => t.onConnection (Connection.deliver bytes)
  | .hangUp => t.onConnection Connection.hangUp
  | .stopListening => t.onConnection Connection.stopListening
  | .exited => t.onConnection Connection.exited
  | .kill => t.onConnection Connection.kill

def run (t : Traffic) (events : List Event) : Traffic := events.foldl apply t

def begun : List Event → Nat
  | [] => 0
  | .begin .. :: events => begun events + 1
  | _ :: events => begun events

end Traffic

end CodeBridge
