import CodeBridge.Proofs.Connection.Stages
import CodeBridge.Proofs.Connection.Traffic

/-!
# A connection goes down

Traffic on a connection once more, with the end of the connection taken apart.  Who finds that a
connection is dead sets a flag first and clears the table of pending calls then, and all others may
move in between; the reader does so at the end of the stream, the writer when it cannot write, and
everyone who closes the connection after having stopped the writer and seen off the process.

* `Call`       a call, with the number of its moves since it entered the table;
* `Party`       a notification under way, or somebody who declares the connection dead;
* `Collapse`   a connection with its calls and all others, `apply` and `run` being what happens.

`readNext_atEnd`, `writeNext_breaks` and `close_eq` say how the steps come together again.
-/

namespace CodeBridge

open Connection

/-! ## calls -/

structure Call where
  id : UInt64
  method : String
  params : Option Json
  /-- moves since it entered the table; staying where it is counts for nothing -/
  moves : Nat := 0
  progress : Progress

namespace Call

def isRunning (k : Call) : Bool :=
  match k.progress with
  | .running _ => true
  | _ => false

def At (k : Call) (s : Stage) : Prop := k.progress = .running (s.rest k.id k.method k.params)

def stays (elapsed : Nat) (c : Connection) (k : Call) : Bool :=
  match k.progress with
  | .running r => r.stays elapsed c
  | _ => false

def go (elapsed : Nat) (c : Connection) (k : Call) : Connection × Call :=
  match k.progress with
  | .running r =>
    let moves := if r.stays elapsed c then k.moves else k.moves + 1
    let (c, r) := r.poll elapsed c
    (c, { k with moves := moves, progress := Caller.progressOf r })
  | _ => (c, k)

def giveUp (c : Connection) (k : Call) : Connection × Call :=
  match k.progress with
  | .running r =>
    match r.abandoned c with
    | some c => (c, { k with progress := .dropped })
    | none => (c, k)
  | _ => (c, k)

end Call

/-! ## the others -/

inductive Party where
  /-- a notification, or someone who has been dropped -/
  | notice (rest : Routine Connection Unit)
  /-- someone on the way to declare the connection dead, with what there is to do after it -/
  | coming (before after : Routine Connection Unit)
  /-- the flag is set -/
  | flagged (after : Routine Connection Unit)
  /-- the table is cleared, too -/
  | cleared (after : Routine Connection Unit)

namespace Party

def isFlagged : Party → Bool
  | flagged _ | cleared _ => true
  | _ => false

def isCleared : Party → Bool
  | cleared _ => true
  | _ => false

def go (elapsed : Nat) (c : Connection) : Party → Connection × Party
  | notice rest => ((rest.poll elapsed c).1, notice (rest.poll elapsed c).2)
  | coming (.done _) after => (c.markClosed, flagged after)
  | coming before after => ((before.poll elapsed c).1, coming (before.poll elapsed c).2 after)
  | flagged after => (c.dropPending, cleared after)
  | cleared after => ((after.poll elapsed c).1, cleared (after.poll elapsed c).2)

/-- Nobody is dropped between the flag and the table. -/
def giveUp (c : Connection) : Party → Connection × Party
  | notice rest =>
    match rest.abandoned c with
    | some c => (c, notice (.done ()))
    | none => (c, notice rest)
  | coming before after =>
    match before.abandoned c with
    | some c => (c, notice (.done ()))
    | none => (c, coming before after)
  | x => (c, x)

end Party

namespace Connection

/-- The reader is at the end of the stream, or at something after which it cannot go on. -/
def atEnd (c : Connection) : Bool :=
  c.withheld.isNone &&
    match Frame.next c.inboundEnded c.inbound with
    | some (.fault f, _) => !f.recoverable
    | some (.finished, _) => true
    | _ => false

def stopReading (c : Connection) : Connection := { c with inbound := [], reading := false }

/-- The writer has a message that it cannot write. -/
def breaks (c : Connection) : Bool :=
  match c.outbox with
  | .message _ :: _ => !c.listening
  | _ => false

def takeMessage (c : Connection) : Connection := { c with outbox := c.outbox.tail }

def stopWriting (c : Connection) : Connection := { c with writing := false, outbox := [] }

/-- What comes before a connection that is closed is declared dead. -/
def seeOff (grace : Nat) : Routine Connection Unit :=
  (post .stop).bind fun _ => (reap grace).bind fun _ => .done ()

theorem readNext_atEnd {c : Connection} (h : c.atEnd = true) :
    c.readNext.1 = c.stopReading.markClosed.dropPending := by
  obtain ⟨hw, hend⟩ := Bool.and_eq_true_iff.mp h
  unfold readNext
  rw [if_neg (by simp [Option.isNone_iff_eq_none.mp hw])]
  split at hend
  next f rest hf =>
    rw [hf]
    show (if f.recoverable = true then _ else _ : Connection × Option Notification).1 = _
    rw [if_neg (by simpa using hend)]
    rfl
  next rest hf =>
    rw [hf]
    rfl
  · cases hend

theorem writeNext_breaks {c : Connection} (h : c.breaks = true) :
    c.writeNext = c.takeMessage.markClosed.dropPending.stopWriting := by
  unfold breaks at h
  unfold writeNext
  split at h
  next v rest hout =>
    rw [hout]
    show (if c.listening = true then _ else _) = _
    rw [if_neg (by simpa using h)]
    rfl
  · cases h

theorem close_eq (grace : Nat) : (close grace).bind (fun _ => .done ()) =
    (seeOff grace).bind fun _ => Routine.change fun c => c.markClosed.dropPending := by
  have hclose : close grace = (post .stop).bind fun _ => (reap grace).bind fun result =>
      (Routine.change shut).bind fun _ => .done result := rfl
  rw [hclose, seeOff]
  simp only [Routine.bind_assoc]
  rfl

end Connection

/-! ## all together -/

structure Collapse where
  connection : Connection
  calls : List Call := []
  parties : List Party := []
  /-- the writer takes no more messages -/
  writerLeft : Bool := false

namespace Collapse

def start (c : Connection) : Collapse := { connection := c }

def onConnection (f : Connection → Connection) (w : Collapse) : Collapse :=
  { w with connection := f w.connection }

def begin (method : String) (params : Option Json) (w : Collapse) : Collapse :=
  let (c, r) := (call method params).run.poll 0 w.connection
  { w with
    connection := c
    calls := w.calls ++ [⟨w.connection.nextId, method, params, 0, Caller.progressOf r⟩] }

def withCall (f : Connection → Call → Connection × Call) (i : Nat) (w : Collapse) : Collapse :=
  match w.calls[i]? with
  | none => w
  | some k =>
    let (c, k) := f w.connection k
    { w with connection := c, calls := w.calls.set i k }

def withParty (f : Connection → Party → Connection × Party) (i : Nat) (w : Collapse) : Collapse :=
  match w.parties[i]? with
  | none => w
  | some x =>
    let (c, x) := f w.connection x
    { w with connection := c, parties := w.parties.set i x }

def addParty (x : Party) (w : Collapse) : Collapse := { w with parties := w.parties ++ [x] }

/-- The reader takes what is next; at the end it stops and goes to declare the connection dead. -/
def read (w : Collapse) : Collapse :=
  if w.connection.canRead then
    if w.connection.atEnd then (w.onConnection stopReading).addParty (.coming (.done ()) (.done ()))
    else w.onConnection fun c => c.readNext.1
  else w

/-- The writer writes what is next; when it cannot it goes to declare the connection dead, and stops
after that. -/
def write (w : Collapse) : Collapse :=
  if !w.writerLeft && w.connection.canWrite then
    if w.connection.breaks then
      { (w.onConnection takeMessage).addParty (.coming (.done ()) (Routine.change stopWriting)) with
        writerLeft := true }
    else w.onConnection writeNext
  else w

def apply (w : Collapse) : Event → Collapse
  | .begin method params => w.begin method params
  | .go call elapsed => w.withCall (Call.go elapsed) call
  | .drop call => w.withCall Call.giveUp call
  | .notify method params =>
    w.addParty (.notice ((Connection.notify method params).run.bind fun _ => .done ()))
  | .close grace => w.addParty (.coming (seeOff grace) (.done ()))
  | .goOther party elapsed => w.withParty (Party.go elapsed) party
  | .dropOther party => w.withParty Party.giveUp party
  | .read => w.read
  | .write => w.write
  | .deliver bytes => w.onConnection (Connection.deliver bytes)
  | .hangUp => w.onConnection Connection.hangUp
  | .stopListening => w.onConnection Connection.stopListening
  | .exited => w.onConnection Connection.exited
  | .kill => w.onConnection Connection.kill

def run (w : Collapse) (events : List Event) : Collapse := events.foldl apply w

/-- Somebody has declared the connection dead, flag and table. -/
def cleared (w : Collapse) : Bool := w.parties.any Party.isCleared

def Alone (w : Collapse) (i : Nat) : Prop :=
  ∀ (j : Nat) (k k' : Call), w.calls[i]? = some k → w.calls[j]? = some k' → k'.id = k.id → j = i

end Collapse

end CodeBridge
