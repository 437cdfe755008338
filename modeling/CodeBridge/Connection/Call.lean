import CodeBridge.Client.Error
import CodeBridge.Concurrency.Routine
import CodeBridge.Connection.Basic

/-!
# Calls

`call` sends a request and stays until its answer comes, the connection dies or its time is over;
its entry in the table of pending calls goes with it, however it ends.  `notify` sends a message
without an answer.  `close` stops the writer and waits for the process, for some time.
-/

namespace CodeBridge.Connection

/-- milliseconds of a number of seconds -/
def milliseconds (seconds : UInt64) : Nat := seconds.toNat * 1000

/-- Queue a message when it has its turn; false when the writer has stopped. -/
def post (message : Outgoing) : Routine Connection Bool := do
  let ticket ← Routine.act joinSenders
  Routine.ensure (leaveSenders ticket) do
    Routine.until_ (admits ticket)
    Routine.act (enqueue message)

/-- What a call that need not wait any longer ends with. -/
def outcome (id : UInt64) (method : String) (c : Connection) : Except ClientError Json :=
  match c.answer? id with
  | some (.result value) => .ok value
  | some (.refused refusal) => .error (.server method refusal.code refusal.message)
  | none => .error .connectionClosed

/-- Wait for the answer of a request that has been queued. -/
def await (id : UInt64) (method : String) : Routine Connection (Except ClientError Json) := do
  let limit ← Routine.read (·.callLimit)
  if ← Routine.untilWithin (·.settled id) (milliseconds limit) then
    Routine.read (outcome id method)
  else return .error (.timeout method limit)

/-- What a registered call does. -/
def exchange (id : UInt64) (method : String) (params : Option Json) :
    Routine Connection (Except ClientError Json) := do
  if ← Routine.read (·.closed) then return .error .connectionClosed
  if ← post (.message (Message.request id method params)) then await id method
  else return .error .connectionClosed

/-- Send a request and wait for its answer. -/
def call (method : String) (params : Option Json) : Attempt Connection ClientError Json :=
  .ofRoutine do
    let id ← Routine.act register
    Routine.ensure (forget id) (exchange id method params)

/-- Send a notification. -/
def notify (method : String) (params : Option Json) : Attempt Connection ClientError Unit :=
  .ofRoutine do
    if ← Routine.read (·.closed) then return .error .connectionClosed
    if ← post (.message (Message.notification method params)) then return .ok ()
    return .error .connectionClosed

/-- Whoever comes first has to wait for the process. -/
def claimProcess (c : Connection) : Bool × Connection := (c.unreaped, { c with unreaped := false })

/-- Nobody has to wait for the process any longer. -/
def parted (c : Connection) : Bool := !c.alive || c.waitFault.isSome

/-- What waiting for the process comes to. -/
def waited (c : Connection) : Except ClientError Unit :=
  match c.waitFault with
  | none => .ok ()
  | some fault => .error (.processWait fault)

/-- Kill the process, if that can be done. -/
def tryKill (c : Connection) : Except ClientError Unit × Connection :=
  match c.killFault with
  | none => (.ok (), c.kill)
  | some fault => (.error (.processWait fault), c)

/-- Wait for the process, and kill it when it is not gone within `grace` milliseconds or cannot be
waited for. -/
def reap (grace : Nat) : Routine Connection (Except ClientError Unit) := do
  if ← Routine.act claimProcess then
    if ← Routine.untilWithin parted grace then
      match ← Routine.read waited with
      | .ok () => return .ok ()
      | .error fault =>
        let _ ← Routine.act tryKill
        return .error fault
    else Routine.act tryKill
  else return .ok ()

/-- Stop the writer after what is queued, see the process off, and declare the connection dead. -/
def close (grace : Nat) : Routine Connection (Except ClientError Unit) := do
  let _ ← post .stop
  let result ← reap grace
  Routine.change shut
  return result

end CodeBridge.Connection
