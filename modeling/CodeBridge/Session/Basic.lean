import CodeBridge.Client.Basic
import CodeBridge.Session.Launch

/-!
# Sessions

A session looks after the one client of a workspace.  Its slot is idle, holds a running client, or
is stopped for good:

* `start`     fill the slot, starting a program if need be, and make the client ready; when that
              fails the client is left and the slot is idle again;
* `client`    the client in the slot;
* `shutdown`  stop for good.

A `Host` is all that a session and the tools work on: a disk, the clients that there have been, and
the slot.
-/

namespace CodeBridge

inductive Slot where
  | idle
  /-- a client by its number -/
  | running (client : Nat)
  | stopped
  deriving DecidableEq, Repr, Inhabited

structure Host where
  disk : Disk
  environment : Environment := []
  settings : ServerSettings := {}
  /-- directory handed to the server as its root -/
  root : Path
  slot : Slot := .idle
  slotLock : SharedLock := {}
  clients : List Client := []
  /-- what was started for each client, nothing for one connected to a server that was there -/
  programs : List (Option Launch.Program) := []
  processId : UInt32 := 1
  deriving Inhabited

namespace Host

/-! ## clients -/

def clientAt (k : Nat) (h : Host) : Client := h.clients[k]?.getD default

def setClient (k : Nat) (c : Client) (h : Host) : Host := { h with clients := h.clients.set k c }

def onClient {α : Type} (k : Nat) (r : Routine Client α) : Routine Host α :=
  r.zoom (clientAt k) (setClient k)

/-- Add a client over a connection. -/
def addClient (c : Client) (program : Option Launch.Program) (h : Host) : Nat × Host :=
  (h.clients.length,
    { h with clients := h.clients ++ [c], programs := h.programs ++ [program] })

/-- A client of a program that has just been started. -/
def launchedClient (h : Host) : Client :=
  let c := Client.new h.settings h.processId
  { c with connection := { c.connection with unreaped := true, alive := true } }

/-- Start the server's program. -/
def launch (h : Host) : Except ClientError Nat × Host :=
  match Launch.ofSettings h.disk h.environment h.settings with
  | .error fault => (.error fault, h)
  | .ok program =>
    let (k, h) := h.addClient h.launchedClient (some program)
    (.ok k, h)

/-! ## the slot -/

def setSlotLock (l : SharedLock) (h : Host) : Host := { h with slotLock := l }

def setSlot (slot : Slot) (h : Host) : Host := { h with slot := slot }

def reading {α : Type} (body : Routine Host α) : Routine Host α :=
  SharedLock.hold true slotLock setSlotLock body

def writing {α : Type} (body : Routine Host α) : Routine Host α :=
  SharedLock.hold false slotLock setSlotLock body

end Host

namespace Session

/-- Make a client ready and put it into the slot. -/
def bringUp (k : Nat) : Routine Host (Except ClientError Unit) := do
  let h ← Routine.read id
  match uriOfPath h.disk.cwd h.root with
  | .error fault => return .error (.place fault)
  | .ok uri =>
    match ← Host.onClient k (Client.handshake uri) with
    | .ok () =>
      Routine.change (Host.setSlot (.running k))
      return .ok ()
    | .error fault =>
      let _ ← Host.onClient k Client.terminate
      Routine.change (Host.setSlot .idle)
      return .error fault

/-- Start with the slot held. -/
def startHeld : Routine Host (Except ClientError Unit) := do
  match ← Routine.read Host.slot with
  | .stopped => return .error .shutDown
  | .running k =>
    let lifecycle ← Host.onClient k Client.readLifecycle
    if lifecycle = .uninitialized then bringUp k else return .ok ()
  | .idle =>
    match ← Routine.act Host.launch with
    | .error fault => return .error fault
    | .ok k => bringUp k

def start : Routine Host (Except ClientError Unit) := Host.writing startHeld

def clientOfSlot : Slot → Except ClientError Nat
  | .running k => .ok k
  | .idle => .error .notInitialized
  | .stopped => .error .shutDown

/-- The client in the slot. -/
def client : Routine Host (Except ClientError Nat) :=
  Host.reading (Routine.read fun h => clientOfSlot h.slot)

def isRunning : Routine Host Bool :=
  Host.reading (Routine.read fun h => match h.slot with | .running _ => true | _ => false)

/-- Stop the session; gives what was in the slot. -/
def stop : Routine Host Slot :=
  Host.writing (Routine.act fun h => (h.slot, h.setSlot .stopped))

/-- Stop the session and shut its client down. -/
def shutdown : Routine Host (Except ClientError Unit) := do
  match ← stop with
  | .running k =>
    let lifecycle ← Host.onClient k Client.readLifecycle
    if lifecycle = .initialized then Host.onClient k Client.shutdown
    else Host.onClient k Client.terminate
  | _ => return .ok ()

end Session

end CodeBridge
