import CodeBridge.Concurrency.Routine

/-!
# Running routines together

A `Pool` runs routines on one state, one at a time and each until it has to stay somewhere, by a
clock that moves only when nobody can go on:

* who can go on again joins the end of the queue, in the order in which the state allowed it;
* the first routine, which owns the run, goes on only when the queue is empty, and before all others
  when its own limit has come;
* work that was handed over comes back when nobody can go on, one piece at a time;
* a routine that is no longer wanted is dropped in its turn, where it stays;
* then the clock moves to the next limit, and of limits at one moment the one set first comes first.

Beside the routines there are reactors: parts of the state that act by themselves whenever they
have something to do.
-/

namespace CodeBridge

/-- A routine that a state asks for. -/
structure Commission (σ : Type) where
  routine : Routine σ Unit
  /-- it is no longer wanted -/
  dropped : σ → Bool := fun _ => false

/-- What a state does besides its routines. -/
structure Machine (σ : Type) where
  /-- how many reactors there are -/
  reactors : σ → Nat
  ready : Nat → σ → Bool
  react : Nat → σ → σ
  /-- routines that the state asks for, taken out of it -/
  spawned : σ → List (Commission σ) × σ

/-- A routine at the place where it stays, or before it has begun. -/
structure Task (σ : Type) where
  id : Nat
  since : Nat
  routine : Routine σ Unit
  dropped : σ → Bool := fun _ => false

namespace Task

variable {σ : Type}

/-- the state allows to go on, or to be dropped -/
def wakes (t : Task σ) (s : σ) : Bool :=
  t.dropped s ||
    match t.routine with
    | .wait ready .. => ready s
    | _ => false

def isPaused (t : Task σ) : Bool :=
  match t.routine with
  | .pause .. => true
  | _ => false

/-- when the routine goes on whatever the state is -/
def deadline? (t : Task σ) : Option Nat :=
  match t.routine with
  | .wait _ (some limit) .. => some (t.since + limit)
  | _ => none

end Task

/-- Who is to go on. -/
inductive Turn where
  | task (id : Nat)
  | reactor (index : Nat)
  deriving DecidableEq, Repr

structure Pool (σ : Type) where
  state : σ
  now : Nat := 0
  queue : List Turn := []
  /-- the routine with number 0 is to go on -/
  rootAwake : Bool := true
  /-- routines that stay somewhere, in the order in which they came there -/
  tasks : List (Task σ)
  nextId : Nat := 1

namespace Pool

variable {σ : Type}

def start (state : σ) (root : Routine σ Unit) : Pool σ :=
  { state := state, tasks := [{ id := 0, since := 0, routine := root }] }

def isDone (p : Pool σ) : Bool := !p.tasks.any (·.id = 0)

def enqueue (p : Pool σ) (turn : Turn) : Pool σ :=
  match turn with
  | .task 0 => { p with rootAwake := true }
  | _ => if p.queue.contains turn then p else { p with queue := p.queue ++ [turn] }

/-- Queue all whom the state allows to go on, except the reactor that is acting. -/
def wakeReady (m : Machine σ) (acting : Option Nat) (p : Pool σ) : Pool σ :=
  let reactors := (List.range (m.reactors p.state)).filter fun i =>
    some i ≠ acting && m.ready i p.state
  let tasks := p.tasks.filter (·.wakes p.state)
  tasks.foldl (fun p t => p.enqueue (.task t.id))
    (reactors.foldl (fun p i => p.enqueue (.reactor i)) p)

/-- Take in the routines that the state asks for. -/
def adopt (m : Machine σ) (p : Pool σ) : Pool σ :=
  let (commissions, state) := m.spawned p.state
  commissions.foldl (fun p c =>
    { p with
      tasks := p.tasks ++ [⟨p.nextId, p.now, c.routine, c.dropped⟩]
      queue := p.queue ++ [.task p.nextId]
      nextId := p.nextId + 1 }) { p with state := state }

/-- One atomic change, and what comes of it. -/
def apply (m : Machine σ) (acting : Option Nat) (update : σ → σ) (p : Pool σ) : Pool σ :=
  ({ p with state := update p.state }.adopt m).wakeReady m acting

/-- Leave a routine where it stays. -/
def keep (t : Task σ) (r : Routine σ Unit) (p : Pool σ) : Pool σ :=
  { p with tasks := p.tasks ++ [{ t with routine := r }] }

/-- Go on with the routine of a task until it has to stay. -/
def run (m : Machine σ) (t : Task σ) : Routine σ Unit → Pool σ → Pool σ
  | .done (), p => p
  | .step update next, p => run m { t with since := p.now } (next p.state) (p.apply m none update)
  | .wait ready limit abandon next, p =>
    if ready p.state then run m { t with since := p.now } (next true (p.now - t.since)) p
    else
      match limit with
      | none => p.keep t (.wait ready limit abandon next)
      | some n =>
        if t.since + n ≤ p.now then
          run m { t with since := p.now } (next false (p.now - t.since)) p
        else p.keep t (.wait ready limit abandon next)
  | .pause abandon next, p => p.keep t (.pause abandon next)

/-- Let a routine go on, or drop it. -/
def runTask (m : Machine σ) (id : Nat) (p : Pool σ) : Pool σ :=
  match p.tasks.find? (·.id = id) with
  | none => p
  | some t =>
    let p := { p with tasks := p.tasks.filter (·.id ≠ id) }
    if t.dropped p.state then p.apply m none t.routine.abandon
    else
      match t.routine with
      | .pause _ next => run m { t with since := p.now } (next ()) p
      | r => run m t r p

/-- Let a reactor act until it has nothing to do. -/
def runReactor (m : Machine σ) (index : Nat) : Nat → Pool σ → Pool σ
  | 0, p => p
  | fuel + 1, p =>
    if m.ready index p.state then runReactor m index fuel (p.apply m (some index) (m.react index))
    else p

/-- most actions of a reactor in one turn -/
def reactorTurn : Nat := 100000

/-- Let the clock move to the next limit. -/
def advance (p : Pool σ) : Option (Pool σ) :=
  let deadlines := p.tasks.filterMap (·.deadline?)
  match deadlines with
  | [] => none
  | d :: ds =>
    let next := ds.foldl min d
    let due := p.tasks.filter fun t => t.deadline? = some next
    some (due.foldl (fun p t => p.enqueue (.task t.id)) { p with now := max p.now next })

/-- One turn; none when nothing is left to do. -/
def turn (m : Machine σ) (p : Pool σ) : Option (Pool σ) :=
  match p.queue with
  | .task id :: rest => some (runTask m id { p with queue := rest })
  | .reactor i :: rest => some (runReactor m i reactorTurn { p with queue := rest })
  | [] =>
    if p.rootAwake then some (runTask m 0 { p with rootAwake := false })
    else
      match p.tasks.find? (·.isPaused) with
      | some t => some (runTask m t.id p)
      | none => p.advance.map fun p =>
        if p.rootAwake then runTask m 0 { p with rootAwake := false } else p

/-- Turns until the first routine is done, at most `fuel` of them. -/
def runFor (m : Machine σ) : Nat → Pool σ → Pool σ
  | 0, p => p
  | fuel + 1, p =>
    if p.isDone then p
    else
      match p.turn m with
      | none => p
      | some p => runFor m fuel p

end Pool

namespace Machine

variable {σ α : Type}

/-- The state after a routine has been run among the reactors of a machine. -/
def run (m : Machine σ) (fuel : Nat) (root : Routine σ Unit) (state : σ) : σ :=
  ((Pool.start state root).runFor m fuel).state

def setFirst (s : σ) (t : σ × Option α) : σ × Option α := (s, t.2)

/-- The machine with room for a result beside its state. -/
def withResult (α : Type) (m : Machine σ) : Machine (σ × Option α) where
  reactors t := m.reactors t.1
  ready i t := m.ready i t.1
  react i t := (m.react i t.1, t.2)
  spawned t :=
    let (commissions, s) := m.spawned t.1
    (commissions.map fun c => ⟨c.routine.zoom Prod.fst setFirst, fun t => c.dropped t.1⟩, (s, t.2))

/-- The result of a routine, none when it does not come to its end, and the state after it. -/
def finish (m : Machine σ) (fuel : Nat) (r : Routine σ α) (state : σ) : Option α × σ :=
  let root : Routine (σ × Option α) Unit :=
    (r.zoom Prod.fst setFirst).bind fun a => Routine.change fun t => (t.1, some a)
  let (s, result) := (m.withResult α).run fuel root (state, none)
  (result, s)

end Machine

end CodeBridge
