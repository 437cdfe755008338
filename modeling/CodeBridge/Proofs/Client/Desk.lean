import Mathlib.Data.List.Chain
import CodeBridge.Client.Basic
import CodeBridge.Proofs.Concurrency.Keeps
import CodeBridge.Proofs.Connection.Queue
import CodeBridge.Proofs.Service.Server

/-!
# Callers at a client

All that can happen at a client while any number of callers use it, one event after another in any
order: calls begin and move, the reader and the writer take their turns, and the server sends
whatever bytes it likes, stops listening, hangs up or dies.

* `Deed`         what a caller asks for, `Deed.routine` being what is done then;
* `Desk`         the client, what has been written to its server, and the calls of all callers;
* `Desk.apply`, `Desk.run`   what an event does, and what a list of them does;
* `Desk.marks`   the messages sent so far that open a document on the server or close it there;
* `Desk.Held`    somebody has opened a document and has not begun to close it;
* `Desk.Paired`  whoever closes a document has opened it before, once for every time.
-/

namespace CodeBridge

/-! ## calls -/

inductive Deed where
  | openDocument (uri text : String)
  | closeDocument (uri : String)
  | handshake (rootUri : String)
  /-- any request to the server -/
  | request (method : String) (params : Json)
  | shutdown
  | terminate
  deriving DecidableEq, Repr

namespace Deed

def routine : Deed → Routine Client (Except ClientError Unit)
  | openDocument uri text => Client.openDocument uri text
  | closeDocument uri => Client.closeDocument uri
  | handshake rootUri => Client.handshake rootUri
  | request method params => Client.request method params fun _ => .ok ()
  | shutdown => Client.shutdown
  | terminate => Client.terminate.bind fun _ => .done (.ok ())

def opens (uri : String) : Deed → Bool
  | openDocument other _ => other = uri
  | _ => false

def closes (uri : String) : Deed → Bool
  | closeDocument other => other = uri
  | _ => false

def uri? : Deed → Option String
  | openDocument uri _ | closeDocument uri => some uri
  | _ => none

def leaves : Deed → Bool
  | shutdown | terminate => true
  | _ => false

/-- It may change whether the document is open. -/
def concerns (uri : String) (d : Deed) : Bool := d.opens uri || d.closes uri || d.leaves

theorem opens_openDocument {uri text : String} : (openDocument uri text).opens uri = true :=
  decide_eq_true rfl

theorem closes_closeDocument {uri : String} : (closeDocument uri).closes uri = true :=
  decide_eq_true rfl

theorem exists_of_opens {uri : String} {d : Deed} (h : d.opens uri = true) :
    ∃ text, d = .openDocument uri text := by
  cases d with
  | openDocument other text => exact ⟨text, by rw [of_decide_eq_true h]⟩
  | _ => cases h

theorem eq_of_closes {uri : String} {d : Deed} (h : d.closes uri = true) :
    d = .closeDocument uri := by
  cases d with
  | closeDocument other => rw [of_decide_eq_true h]
  | _ => cases h

theorem eq_of_leaves {d : Deed} (h : d.leaves = true) : d = .shutdown ∨ d = .terminate := by
  cases d with
  | shutdown => exact .inl rfl
  | terminate => exact .inr rfl
  | _ => cases h

theorem concerns_of_opens {uri : String} {d : Deed} (h : d.opens uri = true) :
    d.concerns uri = true := by
  unfold concerns
  rw [h, Bool.true_or, Bool.true_or]

theorem concerns_of_closes {uri : String} {d : Deed} (h : d.closes uri = true) :
    d.concerns uri = true := by
  unfold concerns
  rw [h, Bool.or_true, Bool.true_or]

theorem concerns_of_leaves {uri : String} {d : Deed} (h : d.leaves = true) :
    d.concerns uri = true := by
  unfold concerns
  rw [h, Bool.or_true]

end Deed

namespace Desk

structure Call where
  caller : Nat
  deed : Deed
  rest : Routine Client (Except ClientError Unit)
  /-- a move of it has changed the list of open documents -/
  touched : Bool := false

namespace Call

def result? (k : Call) : Option (Except ClientError Unit) :=
  match k.rest with
  | .done result => some result
  | _ => none

def ended (k : Call) : Bool := k.result?.isSome

def succeeded (k : Call) : Bool :=
  match k.result? with
  | some (.ok ()) => true
  | _ => false

def failed (k : Call) : Bool := k.ended && !k.succeeded

def go (elapsed : Nat) (c : Client) (k : Call) : Client × Call :=
  let (c', rest) := k.rest.poll elapsed c
  (c', { k with rest := rest, touched := k.touched || decide (c'.openDocs ≠ c.openDocs) })

end Call

end Desk

/-! ## messages -/

inductive Mark where
  | didOpen
  | didClose
  deriving DecidableEq, Repr

def Mark.ofMethod? (method : String) : Option Mark :=
  if method = "textDocument/didOpen" then some .didOpen
  else if method = "textDocument/didClose" then some .didClose
  else none

/-- What a message does to a document; a request does nothing to any. -/
def mark? (uri : String) (v : Json) : Option Mark :=
  if (v.get? "id").isSome ∨ documentOf? (v.get? "params") ≠ some uri then none
  else ((v.get? "method").bind Json.str?).bind Mark.ofMethod?

def marksIn (uri : String) (messages : List Json) : List Mark := messages.filterMap (mark? uri)

/-- Opened first, then closed and opened by turns. -/
def Alternate (ms : List Mark) : Prop := (Mark.didClose :: ms).IsChain (· ≠ ·)

/-- The last message opened it. -/
def Standing (ms : List Mark) : Prop := ms.getLast? = some .didOpen

/-! ## events -/

structure Desk where
  client : Client
  /-- messages that have been written to the server, the first one first -/
  written : List Json := []
  calls : List Desk.Call := []

namespace Desk

inductive Event where
  | begin (caller : Nat) (deed : Deed)
  | go (call elapsed : Nat)
  | read
  | write
  | deliver (bytes : Bytes)
  | hangUp
  | stopListening
  | exited
  | kill

def begin (caller : Nat) (deed : Deed) (d : Desk) : Desk :=
  { d with calls := d.calls ++ [{ caller := caller, deed := deed, rest := deed.routine }] }

def go (i elapsed : Nat) (d : Desk) : Desk :=
  match d.calls[i]? with
  | none => d
  | some k =>
    let (c, k) := k.go elapsed d.client
    { d with client := c, calls := d.calls.set i k }

def read (d : Desk) : Desk :=
  if d.client.connection.canRead then { d with client := d.client.readNext } else d

def onConnection (f : Connection → Connection) (d : Desk) : Desk :=
  { d with client := d.client.setConnection (f d.client.connection) }

def write (d : Desk) : Desk :=
  if d.client.connection.canWrite then
    { d.onConnection Connection.writeNext with
      written := d.written ++ d.client.connection.passing }
  else d

def apply (d : Desk) : Event → Desk
  | .begin caller deed => d.begin caller deed
  | .go call elapsed => d.go call elapsed
  | .read => d.read
  | .write => d.write
  | .deliver bytes => d.onConnection (Connection.deliver bytes)
  | .hangUp => d.onConnection Connection.hangUp
  | .stopListening => d.onConnection Connection.stopListening
  | .exited => d.onConnection Connection.exited
  | .kill => d.onConnection Connection.kill

def run (d : Desk) (events : List Event) : Desk := events.foldl apply d

/-! ## documents -/

/-- The messages sent so far: they have been written, or they wait for the writer. -/
def sent (d : Desk) : List Json := d.written ++ d.client.connection.queued

def marks (uri : String) (d : Desk) : List Mark := marksIn uri d.sent

def Opened (uri : String) (d : Desk) : Prop := Standing (d.marks uri)

def Listed (uri : String) (d : Desk) : Prop := (d.client.holders uri).isSome = true

def Up (d : Desk) : Prop := d.client.connection.closed = false

/-- No call is under way that may change whether the document is open. -/
def Still (uri : String) (d : Desk) : Prop :=
  ∀ k ∈ d.calls, k.deed.concerns uri = true → k.ended = true

/-- Nobody has begun to leave the server. -/
def Staying (d : Desk) : Prop := ∀ k ∈ d.calls, k.deed.leaves = false

/-! ## holders -/

def opens (caller : Nat) (uri : String) (d : Desk) : Nat :=
  d.calls.countP fun k => k.caller = caller && (k.deed.opens uri && k.succeeded)

def closes (caller : Nat) (uri : String) (d : Desk) : Nat :=
  d.calls.countP fun k => k.caller = caller && k.deed.closes uri

/-- Some caller is between its opening of the document and its closing. -/
def Held (uri : String) (d : Desk) : Prop := ∃ caller, d.closes caller uri < d.opens caller uri

/-- At every moment no caller has begun to close a document more often than it had opened it. -/
def Paired (d : Desk) (events : List Event) : Prop :=
  ∀ n caller uri, (d.run (events.take n)).closes caller uri ≤ (d.run (events.take n)).opens caller uri

/-! ### only callers of calls count -/

theorem held_iff {uri : String} {d : Desk} :
    d.Held uri ↔ ∃ k ∈ d.calls, d.closes k.caller uri < d.opens k.caller uri := by
  constructor
  · rintro ⟨caller, h⟩
    obtain ⟨k, hk, hp⟩ := List.countP_pos_iff.mp (Nat.zero_lt_of_lt h)
    obtain rfl : k.caller = caller := of_decide_eq_true (Bool.and_eq_true_iff.mp hp).1
    exact ⟨k, hk, h⟩
  · rintro ⟨k, -, h⟩
    exact ⟨k.caller, h⟩

theorem closes_le_opens_iff {d : Desk} :
    (∀ caller uri, d.closes caller uri ≤ d.opens caller uri) ↔
      ∀ k ∈ d.calls, ∀ uri ∈ k.deed.uri?, d.closes k.caller uri ≤ d.opens k.caller uri := by
  refine ⟨fun h k _ uri _ => h k.caller uri, fun h caller uri => ?_⟩
  by_contra hlt
  have hpos : 0 < d.closes caller uri := Nat.zero_lt_of_lt (Nat.lt_of_not_le hlt)
  obtain ⟨k, hk, hp⟩ := List.countP_pos_iff.mp hpos
  obtain ⟨hcaller, hcloses⟩ := Bool.and_eq_true_iff.mp hp
  obtain rfl : k.caller = caller := of_decide_eq_true hcaller
  have huri : k.deed.uri? = some uri := by
    rw [Deed.eq_of_closes hcloses]
    rfl
  exact hlt (h k hk uri huri)

theorem paired_iff {d : Desk} {events : List Event} :
    d.Paired events ↔ ∀ n < events.length + 1, ∀ k ∈ (d.run (events.take n)).calls,
      ∀ uri ∈ k.deed.uri?, (d.run (events.take n)).closes k.caller uri ≤
        (d.run (events.take n)).opens k.caller uri := by
  refine ⟨fun h n _ => closes_le_opens_iff.mp (h n), fun h n => ?_⟩
  by_cases hn : n < events.length + 1
  · exact closes_le_opens_iff.mpr (h n hn)
  · have hall : events.take n = events.take events.length := by
      rw [List.take_of_length_le (by omega), List.take_length]
    rw [hall]
    exact closes_le_opens_iff.mpr (h events.length (Nat.lt_succ_self _))

instance (uri : String) (d : Desk) : Decidable (d.Held uri) := decidable_of_iff _ held_iff.symm

instance (d : Desk) (events : List Event) : Decidable (d.Paired events) :=
  decidable_of_iff _ paired_iff.symm

instance (uri : String) (d : Desk) : Decidable (d.Opened uri) :=
  inferInstanceAs (Decidable ((d.marks uri).getLast? = some .didOpen))

instance (uri : String) (d : Desk) : Decidable (d.Still uri) :=
  inferInstanceAs (Decidable (∀ k ∈ d.calls, k.deed.concerns uri = true → k.ended = true))

instance (d : Desk) : Decidable d.Staying :=
  inferInstanceAs (Decidable (∀ k ∈ d.calls, k.deed.leaves = false))

/-! ## what is to be shown -/

structure Fresh (c : Client) : Prop where
  openDocs : c.openDocs = []
  lifecycle : c.lifecycle ≠ .shutDown
  lock : c.lock.line = []
  outbox : c.connection.outbox = []
  outbound : c.connection.outbound = []
  writing : c.connection.closed = false → c.connection.writing = true
  withheld : c.connection.withheld = none

theorem fresh_new (settings : ServerSettings) (processId : UInt32) :
    Fresh (Client.new settings processId) := ⟨rfl, nofun, rfl, rfl, rfl, fun _ => rfl, rfl⟩

/-- The list of documents and what has been sent agree, whatever callers do. -/
structure Documented (d : Desk) : Prop where
  counts : ∀ doc ∈ d.client.openDocs, 1 ≤ doc.2
  alternate : ∀ uri, Alternate (d.marks uri)
  /-- what has been written is what the server was given -/
  bytes : d.client.connection.outbound = d.written.flatMap Frame.write
  /-- at every moment, also in the midst of a call -/
  told : d.Up → ∀ uri, d.Listed uri → d.Opened uri
  listed : d.Up → ∀ uri, d.Still uri → (d.Listed uri ↔ d.Opened uri)
  /-- to fail to open a document is to leave the list alone -/
  refused : ∀ k ∈ d.calls, ∀ uri, k.deed.opens uri = true → k.failed = true → k.touched = false

/-- Documents are open on the server for those who hold them, and for nobody else. -/
structure Sheltered (d : Desk) : Prop where
  held : d.Up → d.Staying → ∀ uri, d.Held uri → d.Opened uri
  free : d.Up → d.Staying → ∀ uri, d.Still uri → ¬ d.Held uri → ¬ d.Opened uri

end Desk

end CodeBridge
