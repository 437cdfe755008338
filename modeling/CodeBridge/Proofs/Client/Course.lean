import CodeBridge.Proofs.Concurrency.Ends
import CodeBridge.Proofs.Connection.Queue
import CodeBridge.Proofs.Connection.Inbound
import CodeBridge.Stage.Play

/-!
# One operation after another

All that can happen at a client whose operations are run one after another: an operation is begun
when none is under way, and while it moves the reader and the writer take their turns, and the
server sends whatever bytes it likes, stops listening, hangs up or dies.

* `Item`         what is noted: operations, the messages that they queue, the values that the reader
                 takes, and the loss of the connection;
* `Course`       the client, the notes, what has been written and the operation under way;
* `Event.happen`, `Event.notes`   what an event does that is no move of the operation;
* `Course.apply`, `Course.run`    what an event does, and what a list of them does.
-/

namespace CodeBridge

def Lifecycle.rank : Lifecycle → Nat
  | uninitialized => 0
  | initialized => 1
  | shutDown => 2

namespace Course

inductive Item where
  | begun (step : ClientStep)
  /-- the operation under way has queued a message -/
  | told (message : Json)
  /-- the reader has taken a value -/
  | heard (value : Json)
  | ended (step : ClientStep) (report : Report)
  /-- the connection went down, and it was not the client that closed it -/
  | lost

namespace Item

def told? : Item → Option Json
  | told m => some m
  | _ => none

/-- It is about an operation. -/
def isOwn : Item → Bool
  | begun _ | told _ | ended .. => true
  | heard _ | lost => false

end Item

/-- The messages that were queued, the first one first. -/
def tolds (items : List Item) : List Json := items.filterMap Item.told?

def loss (c c' : Connection) : List Item :=
  if c.closed = false ∧ c'.closed = true then [.lost] else []

/-- The messages that have come to the queue. -/
def added (c c' : Client) : List Json := c'.connection.queued.drop c.connection.queued.length

inductive Event where
  /-- an operation is begun, if none is under way -/
  | begin (step : ClientStep)
  | go (elapsed : Nat)
  | read
  | write
  | deliver (bytes : Bytes)
  | hangUp
  | stopListening
  | exited
  | kill

namespace Event

def isBegin : Event → Bool
  | begin _ => true
  | _ => false

def isGo : Event → Bool
  | go _ => true
  | _ => false

/-- The client after an event that is no move of an operation. -/
def happen (c : Client) : Event → Client
  | begin _ | go _ => c
  | read => if c.connection.canRead then c.readNext else c
  | write => if c.connection.canWrite then c.setConnection c.connection.writeNext else c
  | deliver bytes => c.setConnection (c.connection.deliver bytes)
  | hangUp => c.setConnection c.connection.hangUp
  | stopListening => c.setConnection c.connection.stopListening
  | exited => c.setConnection c.connection.exited
  | kill => c.setConnection c.connection.kill

def hears (c : Connection) : Event → List Json
  | read => if c.canRead then c.taken?.toList else []
  | _ => []

def writes (c : Connection) : Event → List Json
  | write => if c.canWrite then c.passing else []
  | _ => []

def notes (c : Client) (e : Event) : List Item :=
  (e.hears c.connection).map .heard ++ loss c.connection (e.happen c).connection

end Event

end Course

structure Course where
  client : Client
  items : List Course.Item := []
  /-- messages that have been written to the server, the first one first -/
  written : List Json := []
  current : Option (ClientStep × Routine Client Report) := none
  /-- moves of the operation; staying where it is counts for nothing -/
  moves : Nat := 0

namespace Course

def start (c : Client) : Course := { client := c }

def begin (step : ClientStep) (w : Course) : Course :=
  match w.current with
  | some _ => w
  | none =>
    { w with items := w.items ++ [.begun step], current := some (step, step.routine), moves := 0 }

/-- What is left to do of an operation, and what is noted when that is nothing. -/
def outcome (step : ClientStep) :
    Routine Client Report → Option (ClientStep × Routine Client Report) × List Item
  | .done report => (none, [.ended step report])
  | r => (some (step, r), [])

def go (elapsed : Nat) (w : Course) : Course :=
  match w.current with
  | none => w
  | some (step, r) =>
    let (c, rest) := r.poll elapsed w.client
    let (current, ending) := outcome step rest
    { w with
      client := c
      items := w.items ++ (added w.client c).map .told ++ ending
      current := current
      moves := if r.stays elapsed w.client then w.moves else w.moves + 1 }

def apply (w : Course) : Event → Course
  | .begin step => w.begin step
  | .go elapsed => w.go elapsed
  | e =>
    { w with
      client := e.happen w.client
      items := w.items ++ e.notes w.client
      written := w.written ++ e.writes w.client.connection }

def run (w : Course) (events : List Event) : Course := events.foldl apply w

def idle (w : Course) : Bool := w.current.isNone

def own (w : Course) : List Item := w.items.filter Item.isOwn

/-! ## notes -/

section
variable (a b : List Item) (ms : List Json)

theorem tolds_append : tolds (a ++ b) = tolds a ++ tolds b := List.filterMap_append

theorem tolds_told : tolds (ms.map .told) = ms := by
  unfold tolds
  rw [List.filterMap_map]
  exact List.filterMap_some

theorem tolds_concat (m : Json) : tolds (a ++ [.told m]) = tolds a ++ [m] := tolds_append a _

theorem tolds_eq_nil (h : ∀ i ∈ a, i.isOwn = false) : tolds a = [] := by
  refine List.filterMap_eq_nil_iff.mpr fun i hi => ?_
  cases i with
  | told m => exact absurd (h _ hi) nofun
  | _ => rfl

end

theorem isOwn_notes {c : Client} {e : Event} {i : Item} (h : i ∈ e.notes c) : i.isOwn = false := by
  rcases List.mem_append.mp h with h | h
  · obtain ⟨v, -, rfl⟩ := List.mem_map.mp h
    rfl
  · unfold loss at h
    split at h
    · rw [List.mem_singleton.mp h]
      rfl
    · cases h

theorem tolds_notes (c : Client) (e : Event) : tolds (e.notes c) = [] :=
  tolds_eq_nil _ fun _ => isOwn_notes

/-! ## events -/

theorem apply_around {w : Course} {e : Event} (hb : e.isBegin = false) (hg : e.isGo = false) :
    w.apply e = { w with
      client := e.happen w.client
      items := w.items ++ e.notes w.client
      written := w.written ++ e.writes w.client.connection } := by
  cases e with
  | begin step => cases hb
  | go elapsed => cases hg
  | _ => rfl

end Course

end CodeBridge
