import CodeBridge.Proofs.Concurrency.Keeps
import CodeBridge.Proofs.Service.Rewriting
import CodeBridge.Service.Basic

/-!
# Two calls served side by side

Everything that can happen while a service answers two requests for rewriting calls: either call
makes a move, the writer passes a message on to the server, and the server sends an answer, in any
order.  A limit never runs out: the server answers in time.

* `Job`              a request, and the call that answers it;
* `Ready`            a session between calls, with its server there;
* `Serving.apply`, `Serving.run`   what an event does, and what a list of them does.
-/

namespace CodeBridge

inductive Side where
  | left
  | right
  deriving DecidableEq, Repr

namespace Side

def other : Side → Side
  | left => right
  | right => left

theorem other_other (x : Side) : x.other.other = x := by
  cases x <;> rfl

theorem other_ne (x : Side) : x.other ≠ x := by
  cases x <;> nofun

theorem eq_or_eq_other (x y : Side) : y = x ∨ y = x.other := by
  cases x <;> cases y <;> simp [other]

/-- A value of each call, with another one for one of them. -/
def set {α : Type} (f : Side → α) (x : Side) (a : α) : Side → α := fun y => if y = x then a else f y

section
variable {α : Type} (f : Side → α) (x : Side) (a : α)

theorem set_self : set f x a x = a := if_pos rfl

theorem set_other : set f x a x.other = f x.other := if_neg x.other_ne

end

end Side

namespace Routine
variable {σ α : Type}

def isDone : Routine σ α → Bool
  | done _ => true
  | _ => false

theorem eq_done_of_isDone {r : Routine σ α} (h : r.isDone = true) : ∃ a, r = done a := by
  cases r with
  | done a => exact ⟨a, rfl⟩
  | step update next => cases h
  | wait ready limit abandon next => cases h
  | pause abandon next => cases h

end Routine

/-! ## jobs -/

structure Job where
  id : Json
  rewriting : Rewriting
  deriving DecidableEq, Repr

namespace Job

def call (j : Job) : Routine Host Reply := Service.answer j.id j.rewriting.request

def About (h : Host) (path : Path) (j : Job) : Prop := Tool.resolve h j.rewriting.file = .ok path

def only (j : Job) : Side → Option Job
  | .left => some j
  | .right => none

def both (job : Side → Job) (x : Side) : Option Job := some (job x)

/-- A call, or one that has nothing to do. -/
def call? : Option Job → Routine Host Reply
  | some j => j.call
  | none => .done ⟨.null, .ok .null⟩

end Job

/-! ## the session -/

namespace Host

def link (k : Nat) (h : Host) : Connection := (h.clientAt k).connection

def setLink (k : Nat) (c : Connection) (h : Host) : Host :=
  h.setClient k ((h.clientAt k).setConnection c)

end Host

/-- No call is under way, and the client is up. -/
structure Ready (k : Nat) (h : Host) : Prop where
  slot : h.slot = .running k
  client : k < h.clients.length
  lifecycle : (h.clientAt k).lifecycle = .initialized
  unlocked : (h.clientAt k).lock.line = []
  docs : (h.clientAt k).openDocs = []
  closed : (h.link k).closed = false
  writing : (h.link k).writing = true
  listening : (h.link k).listening = true
  outbox : (h.link k).outbox = []
  pending : (h.link k).pending = []
  answers : (h.link k).answers = []

/-- The file of a session as a server is asked about it. -/
def Host.site (h : Host) (k : Nat) (answering : Answering) (path : Path) : Site :=
  ⟨answering, (h.clientAt k).settings.formatting, path⟩

/-! ## events -/

structure Serving where
  host : Host
  server : Server := {}
  calls : Side → Routine Host Reply

namespace Serving

inductive Event where
  /-- a call moves, unless its time would be over -/
  | go (side : Side)
  /-- the server hears the next message -/
  | write
  /-- the server sends one of its answers -/
  | tell (index : Nat)
  deriving DecidableEq, Repr

/-- The calls begin, with a server that was given some texts before. -/
def start (h : Host) (texts : List (String × String)) (jobs : Side → Option Job) : Serving :=
  { host := h, server := { texts := texts }, calls := fun x => Job.call? (jobs x) }

def go (x : Side) (s : Serving) : Serving :=
  if (s.calls x).expired 0 s.host then s
  else
    let (h, r) := (s.calls x).poll 0 s.host
    { s with host := h, calls := Side.set s.calls x r }

def write (answering : Answering) (k : Nat) (s : Serving) : Serving :=
  let c := s.host.link k
  match c.outbox with
  | [] => s
  | message :: _ =>
    { s with host := s.host.setLink k c.writeNext, server := s.server.hear answering message }

def tell (k i : Nat) (s : Serving) : Serving :=
  match s.server.replies[i]? with
  | none => s
  | some (id, response) =>
    { s with
      host := s.host.setLink k ((s.host.link k).dispatch (response.toJson id)).1
      server := { s.server with replies := s.server.replies.eraseIdx i } }

def apply (answering : Answering) (k : Nat) (s : Serving) : Event → Serving
  | .go side => s.go side
  | .write => s.write answering k
  | .tell index => s.tell k index

def run (answering : Answering) (k : Nat) (s : Serving) (events : List Event) : Serving :=
  events.foldl (apply answering k) s

def isFinished (s : Serving) : Bool := (s.calls .left).isDone && (s.calls .right).isDone

theorem done_of_isFinished {s : Serving} (h : s.isFinished = true) (x : Side) :
    ∃ reply, s.calls x = .done reply := by
  obtain ⟨hl, hr⟩ := Bool.and_eq_true_iff.mp h
  cases x with
  | left => exact Routine.eq_done_of_isDone hl
  | right => exact Routine.eq_done_of_isDone hr

end Serving

end CodeBridge
