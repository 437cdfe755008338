import CodeBridge.Concurrency.Lock
import CodeBridge.Connection.Incoming
import CodeBridge.File.System
import CodeBridge.Wire.Frame

/-!
# Connections

A connection carries frames to a server and back.  It knows which calls wait for an answer, what is
queued for the server, and which of its two directions still work:

* `register`, `forget`, `settled`   a call enters the table of pending calls and leaves it;
* `admits`      a sender has its turn: there is room for its message and for those before it;
* `enqueue`     queue a message, unless the writer has stopped;
* `writeNext`   what the writer does with the next message;
* `readNext`    what the reader does with the next frame, `dispatch` being what it does with a value;
* `shut`        the connection is dead: no call waits any longer.

What the world does to a connection is `deliver`, `hangUp`, `stopListening` and `exited`.
-/

namespace CodeBridge

/-- What is queued for the writer. -/
inductive Outgoing where
  | message (value : Json)
  /-- stop writing -/
  | stop
  deriving DecidableEq, Repr

structure Connection where
  nextId : UInt64 := 1
  /-- calls that wait for an answer -/
  pending : List UInt64 := []
  /-- answers that their calls have not taken yet -/
  answers : List (UInt64 × Answer) := []
  closed : Bool := false
  /-- the writer is up -/
  writing : Bool := true
  outbox : List Outgoing := []
  /-- who has a message for the writer, in the order of coming -/
  senders : Lock := {}
  /-- bytes written and not yet read by the server -/
  outbound : Bytes := []
  /-- the server reads -/
  listening : Bool := true
  /-- the reader is up -/
  reading : Bool := true
  /-- bytes of the server and not yet read here -/
  inbound : Bytes := []
  /-- a reply to the server for which there is no room yet; the reader stays until there is -/
  withheld : Option (Nat × Json) := none
  /-- the server will send no more -/
  inboundEnded : Bool := false
  /-- seconds a call may take -/
  callLimit : UInt64 := 30
  /-- there is a process that nobody has waited for -/
  unreaped : Bool := false
  /-- that process runs -/
  alive : Bool := false
  killed : Bool := false
  /-- what waiting for the process fails with -/
  waitFault : Option IoError := none
  /-- what killing the process fails with -/
  killFault : Option IoError := none
  deriving DecidableEq, Inhabited

namespace Connection

/-! ## calls -/

/-- A new call enters the table. -/
def register (c : Connection) : UInt64 × Connection :=
  (c.nextId, { c with nextId := c.nextId + 1, pending := c.pending ++ [c.nextId] })

/-- A call leaves for good. -/
def forget (id : UInt64) (c : Connection) : Connection :=
  { c with
    pending := c.pending.filter (· ≠ id)
    answers := c.answers.filter fun a => a.1 ≠ id }

/-- A call has been answered or given up. -/
def settled (id : UInt64) (c : Connection) : Bool := !c.pending.contains id

def answer? (id : UInt64) (c : Connection) : Option Answer :=
  (c.answers.find? fun a => a.1 = id).map (·.2)

/-- Keep an answer for its call, if the call still waits. -/
def complete (id : UInt64) (answer : Answer) (c : Connection) : Connection :=
  if c.pending.contains id then
    { c with pending := c.pending.filter (· ≠ id), answers := c.answers ++ [(id, answer)] }
  else c

def markClosed (c : Connection) : Connection := { c with closed := true }

def dropPending (c : Connection) : Connection := { c with pending := [] }

/-- The connection is dead: no call waits any longer. -/
def shut (c : Connection) : Connection := c.markClosed.dropPending

/-! ## to the server -/

/-- most messages that are queued at a time -/
def capacity : Nat := 64

def joinSenders (c : Connection) : Nat × Connection :=
  let (ticket, senders) := c.senders.join
  (ticket, { c with senders := senders })

def leaveSenders (ticket : Nat) (c : Connection) : Connection :=
  { c with senders := c.senders.leave ticket }

/-- A sender may queue its message, or learn that nobody writes any more. -/
def admits (ticket : Nat) (c : Connection) : Bool :=
  !c.writing || c.senders.ahead ticket + c.outbox.length < capacity

/-- Queue a message; false when the writer has stopped. -/
def enqueue (message : Outgoing) (c : Connection) : Bool × Connection :=
  if c.writing then (true, { c with outbox := c.outbox ++ [message] }) else (false, c)

def canWrite (c : Connection) : Bool := c.writing && !c.outbox.isEmpty

/-- What the writer does with the next message. -/
def writeNext (c : Connection) : Connection :=
  match c.outbox with
  | [] => c
  | .stop :: _ => { c with writing := false, outbox := [] }
  | .message v :: rest =>
    if c.listening then { c with outbox := rest, outbound := c.outbound ++ Frame.write v }
    else { c with writing := false, outbox := [] }.shut

/-! ## from the server -/

/-- Queue the reply that is withheld, if it has its turn. -/
def release (c : Connection) : Connection :=
  match c.withheld with
  | none => c
  | some (ticket, reply) =>
    if c.admits ticket then
      { (c.enqueue (.message reply)).2.leaveSenders ticket with withheld := none }
    else c

/-- Reply to a request of the server. -/
def reply (message : Json) (c : Connection) : Connection :=
  let (ticket, c) := c.joinSenders
  { c with withheld := some (ticket, message) }.release

/-- What comes of a value from the server. -/
def dispatch (v : Json) (c : Connection) : Connection × Option Notification :=
  match Incoming.ofJson? v with
  | none => (c, none)
  | some (.answer id body) => (c.complete id (Answer.ofBody body), none)
  | some (.request id method params) => (c.reply (Incoming.reply id method params), none)
  | some (.notification n) => (c, some n)

def canRead (c : Connection) : Bool :=
  c.reading &&
    match c.withheld with
    | some (ticket, _) => c.admits ticket
    | none => (Frame.next c.inboundEnded c.inbound).isSome

/-- What the reader does with the reply that it withholds, or with the next frame. -/
def readNext (c : Connection) : Connection × Option Notification :=
  if c.withheld.isSome then (c.release, none)
  else
    match Frame.next c.inboundEnded c.inbound with
    | none => (c, none)
    | some (.frame v, rest) => { c with inbound := rest }.dispatch v
    | some (.fault f, rest) =>
      if f.recoverable then ({ c with inbound := rest }, none)
      else ({ c with inbound := [], reading := false }.shut, none)
    | some (.finished, _) => ({ c with inbound := [], reading := false }.shut, none)

/-! ## the world -/

/-- The server sends bytes. -/
def deliver (bs : Bytes) (c : Connection) : Connection :=
  if c.inboundEnded then c else { c with inbound := c.inbound ++ bs }

/-- The server sends no more. -/
def hangUp (c : Connection) : Connection := { c with inboundEnded := true }

/-- The server reads no more. -/
def stopListening (c : Connection) : Connection := { c with listening := false }

/-- The server's process is gone. -/
def exited (c : Connection) : Connection := { c.hangUp.stopListening with alive := false }

/-- The process is killed. -/
def kill (c : Connection) : Connection := { c.exited with killed := true }

end Connection

end CodeBridge
