import Mathlib.Algebra.GroupWithZero.Nat
import CodeBridge.Proofs.Client.Protocol
import CodeBridge.Proofs.Concurrency.Ends
import CodeBridge.Tool.Dispatch

/-!
# A session and its users

All that can happen while any number of callers use one session, the clients that it hands out and
the tools, one event after another in any order: calls begin and move, each client's reader and
writer take their turns, each server sends whatever bytes it likes, stops listening, hangs up or
dies, and others change files.

* `Deed`        what is asked for, `Deed.routine` being what is done then;
* `Call`        a call, how far it is, and its own changes: the host before and after each of them;
* `Office`      the host and the calls; `Office.apply`, `Office.run` are what events do;
* `told`, `held`, `takes`, `drops`, …   what can be seen of a change.
-/

namespace CodeBridge

/-- What a start fails with that comes to no handshake. -/
def ClientError.isSetup : ClientError → Bool
  | .place _ | .commandNotFound _ | .spawn .. => true
  | _ => false

/-- What a tool may fail with before it has opened a document. -/
def ToolError.isEarly : ToolError → Bool
  | .blankName | .blankQuery | .badPosition .. | .badPath .. | .unreadable .. | .noServer ..
  | .notOpened .. => true
  | _ => false

def ToolRequest.opens : ToolRequest → Bool
  | .searchSymbol _ => false
  | _ => true

/-- A tool that ends like this has opened a document. -/
def ToolRequest.hasOpened {α : Type} (request : ToolRequest) : Except ToolError α → Bool
  | .ok _ => request.opens
  | .error fault => request.opens && !fault.isEarly

namespace Office

/-! ## calls -/

inductive Deed where
  | start
  | client
  | isRunning
  | shutdown
  /-- the handshake, directly at a client -/
  | handshake (client : Nat) (rootUri : String)
  /-- a shutdown, directly at a client -/
  | farewell (client : Nat)
  | terminate (client : Nat)
  | tool (request : ToolRequest)
  deriving DecidableEq, Repr

inductive Outcome where
  | plain (result : Except ClientError Unit)
  | client (result : Except ClientError Nat)
  | running (answer : Bool)
  | tool (result : Except ToolError Json)
  deriving DecidableEq

namespace Deed

def routine : Deed → Routine Host Outcome
  | start => Session.start.bind fun result => .done (.plain result)
  | client => Session.client.bind fun result => .done (.client result)
  | isRunning => Session.isRunning.bind fun answer => .done (.running answer)
  | shutdown => Session.shutdown.bind fun result => .done (.plain result)
  | handshake k rootUri =>
    (Host.onClient k (Client.handshake rootUri)).bind fun result => .done (.plain result)
  | farewell k => (Host.onClient k Client.shutdown).bind fun result => .done (.plain result)
  | terminate k => (Host.onClient k Client.terminate).bind fun result => .done (.plain result)
  | tool request => (Tool.dispatch request).bind fun result => .done (.tool result)

def client? : Deed → Option Nat
  | handshake k _ | farewell k | terminate k => some k
  | _ => none

/-- It is to leave the server of a client, and does not go through the session. -/
def leaves (k : Nat) : Deed → Bool
  | farewell other | terminate other => other = k
  | _ => false

def isTool : Deed → Bool
  | tool _ => true
  | _ => false

/-- It has nothing to do at any server: it asks about the session, or comes after the end, or is to
start what has been started. -/
def idles (late again : Bool) : Deed → Bool
  | client | isRunning => true
  | start => late || again
  | shutdown => late
  | _ => false

end Deed

structure Call where
  deed : Deed
  rest : Routine Host Outcome
  /-- the session had been stopped when it began -/
  late : Bool
  /-- a start had come to a good end when it began -/
  again : Bool
  /-- its own changes, the first one first, with the host before and after each -/
  changes : List (Host × Host) := []

namespace Call

def result? (k : Call) : Option Outcome :=
  match k.rest with
  | .done result => some result
  | _ => none

def ended (k : Call) : Bool := k.result?.isSome

def started (k : Call) : Bool := k.deed = .start && k.result? = some (.plain (.ok ()))

def acts (k : Call) : Bool :=
  match k.rest with
  | .step .. => true
  | _ => false

def go (elapsed : Nat) (h : Host) (k : Call) : Host × Call :=
  let (h', rest) := k.rest.poll elapsed h
  (h', { k with rest := rest, changes := k.changes ++ if k.acts then [(h, h')] else [] })

def last? (k : Call) : Option Host := k.changes.getLast?.map (·.2)

end Call

/-! ## what can be seen of a change -/

def told (k : Nat) (change : Host × Host) : List Json :=
  Course.added (change.1.clientAt k) (change.2.clientAt k)

def held (k : Nat) (uri : String) (h : Host) : Nat := ((h.clientAt k).holders uri).getD 0

def takes (k : Nat) (uri : String) (change : Host × Host) : Bool :=
  held k uri change.1 < held k uri change.2

def drops (k : Nat) (uri : String) (change : Host × Host) : Bool :=
  held k uri change.2 < held k uri change.1

def isDocument (m : Json) : Bool :=
  Course.Names m "textDocument/didOpen" || Course.Names m "textDocument/didClose"

/-- How many requests to shut down it has queued for a client. -/
def partings (k : Nat) (change : Host × Host) : Nat :=
  (told k change).countP fun m => Course.Names m "shutdown"

def greets (k : Nat) (change : Host × Host) : Bool :=
  (change.1.clientAt k).lifecycle = .uninitialized &&
    (change.2.clientAt k).lifecycle = .initialized

def adds (k : Nat) (change : Host × Host) : Bool :=
  change.1.clients.length = k && k < change.2.clients.length

/-- The call has found a client in the slot, or has added it. -/
def Call.Finds (c : Nat) (k : Call) : Prop :=
  ∃ change ∈ k.changes, change.1.slot = .running c ∨ adds c change = true

/-- The call has taken hold of a document more often than it has let go of it. -/
def Call.holding (c : Nat) (uri : String) (k : Call) : Bool :=
  k.changes.countP (drops c uri) < k.changes.countP (takes c uri)

/-- It has completed the handshake of a client: it was asked to and has ended well, or it is a start
that has ended well and has sent something to the client's server. -/
def Call.hasGreeted (c : Nat) (k : Call) : Bool :=
  k.result? = some (.plain (.ok ())) &&
    match k.deed with
    | .handshake client _ => client = c
    | .start => k.changes.any fun change => !(told c change).isEmpty
    | _ => false

/-- None of its changes has queued a message for any server. -/
def Call.Silent (k : Call) : Prop := ∀ change ∈ k.changes, ∀ c, told c change = []

/-- None of its changes has added a client. -/
def Call.AddsNone (k : Call) : Prop :=
  ∀ change ∈ k.changes, change.2.clients.length = change.1.clients.length

/-! ## events -/

inductive Event where
  /-- a call begins, unless it is to work on a client that is not there -/
  | begin (deed : Deed)
  | go (call elapsed : Nat)
  /-- something happens at a client that is no move of a call -/
  | around (client : Nat) (event : Course.Event)
  /-- others change files -/
  | files (disk : Disk)

end Office

structure Office where
  host : Host
  calls : List Office.Call := []

namespace Office

def hasStarted (o : Office) : Bool := o.calls.any (·.started)

/-- Something that can be seen of a change, added up over all changes of all calls. -/
def total (f : Host × Host → Nat) (o : Office) : Nat :=
  (o.calls.map fun k => (k.changes.map f).sum).sum

def begin (deed : Deed) (o : Office) : Office :=
  if deed.client?.all (· < o.host.clients.length) then
    { o with calls := o.calls ++ [
        { deed := deed, rest := deed.routine, late := o.host.slot = .stopped, again := o.hasStarted }] }
  else o

def go (i elapsed : Nat) (o : Office) : Office :=
  match o.calls[i]? with
  | none => o
  | some k =>
    let (h, k) := k.go elapsed o.host
    { host := h, calls := o.calls.set i k }

def apply (o : Office) : Event → Office
  | .begin deed => o.begin deed
  | .go call elapsed => o.go call elapsed
  | .around k event => { o with host := o.host.setClient k (event.happen (o.host.clientAt k)) }
  | .files disk => { o with host := { o.host with disk := disk } }

def run (o : Office) (events : List Event) : Office := events.foldl apply o

/-- A host that nobody uses yet: a session that is idle or has been given a client, and clients at
which nobody has left the server or opened a document. -/
structure Fresh (h : Host) : Prop where
  slotLock : h.slotLock.line = []
  slot : ∀ k, h.slot = .running k → k < h.clients.length
  locks : ∀ k, (h.clientAt k).lock.line = []
  docs : ∀ k, (h.clientAt k).openDocs = []
  lifecycle : ∀ k, (h.clientAt k).lifecycle ≠ .shutDown

theorem clientAt_single {host : Host} {c : Client} (h : host.clients = [c]) (k : Nat) :
    host.clientAt k = c ∨ host.clientAt k = default := by
  unfold Host.clientAt
  rw [h]
  cases k with
  | zero => exact .inl rfl
  | succ k => exact .inr rfl

/-- A host with one client, which the session has been given. -/
theorem fresh_single {host : Host} {c : Client} (hclients : host.clients = [c])
    (hslot : host.slot = .running 0) (hslotLock : host.slotLock.line = []) (hlock : c.lock.line = [])
    (hdocs : c.openDocs = []) (hlife : c.lifecycle ≠ .shutDown) : Fresh host where
  slotLock := hslotLock
  slot k hk := by
    rw [← Slot.running.inj (hslot.symm.trans hk), hclients]
    exact Nat.one_pos
  locks k := by
    rcases clientAt_single hclients k with h | h
    · rw [h, hlock]
    · rw [h]
      rfl
  docs k := by
    rcases clientAt_single hclients k with h | h
    · rw [h, hdocs]
    · rw [h]
      rfl
  lifecycle k := by
    rcases clientAt_single hclients k with h | h
    · rw [h]
      exact hlife
    · rw [h]
      decide

def moves (n call : Nat) : List Event := List.replicate n (.go call 0)

end Office

end CodeBridge
