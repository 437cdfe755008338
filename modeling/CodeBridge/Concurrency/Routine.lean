/-!
# Routines

A `Routine σ α` is a computation on a shared state `σ` that can be left at certain places while
others go on.  It is a tree of what it does next:

* `step`    one atomic change; what follows may depend on the state before it;
* `wait`    stay until the state allows to go on or a time has passed; what follows learns which,
            and how many milliseconds it took;
* `pause`   hand work over and stay until nobody else can go on.

A routine that is dropped while it stays somewhere is undone by the `abandon` of that place.
`ensure` adds a clean-up to a routine: it is done when the routine ends, however it ends.
-/

namespace CodeBridge

inductive Routine (σ α : Type) where
  | done (result : α)
  | step (update : σ → σ) (next : σ → Routine σ α)
  | wait (ready : σ → Bool) (limit : Option Nat) (abandon : σ → σ)
      (next : Bool → Nat → Routine σ α)
  | pause (abandon : σ → σ) (next : Unit → Routine σ α)

namespace Routine

variable {σ τ α β : Type}

/-! ## one after the other -/

def bind : Routine σ α → (α → Routine σ β) → Routine σ β
  | done a, f => f a
  | step update next, f => step update fun s => (next s).bind f
  | wait ready limit abandon next, f => wait ready limit abandon fun b t => (next b t).bind f
  | pause abandon next, f => pause abandon fun u => (next u).bind f

instance : Monad (Routine σ) where
  pure := done
  bind := bind

theorem bind_done_right (r : Routine σ α) : r.bind done = r := by
  induction r with
  | done a => rfl
  | step update next ih => simp only [bind, ih]
  | wait ready limit abandon next ih => simp only [bind, ih]
  | pause abandon next ih => simp only [bind, ih]

theorem bind_assoc {γ : Type} (r : Routine σ α) (f : α → Routine σ β) (g : β → Routine σ γ) :
    (r.bind f).bind g = r.bind fun a => (f a).bind g := by
  induction r with
  | done a => rfl
  | step update next ih => simp only [bind, ih]
  | wait ready limit abandon next ih => simp only [bind, ih]
  | pause abandon next ih => simp only [bind, ih]

/-! ## on the state -/

/-- One atomic change that also gives a result. -/
def act (f : σ → α × σ) : Routine σ α := step (fun s => (f s).2) fun s => done (f s).1

def read (f : σ → α) : Routine σ α := step id fun s => done (f s)

def change (f : σ → σ) : Routine σ Unit := step f fun _ => done ()

/-- Stay until the state allows to go on. -/
def until_ (ready : σ → Bool) : Routine σ Unit := wait ready none id fun _ _ => done ()

/-- Stay until the state allows to go on; false when `limit` milliseconds pass first. -/
def untilWithin (ready : σ → Bool) (limit : Nat) : Routine σ Bool :=
  wait ready (some limit) id fun b _ => done b

/-- Let `ms` milliseconds pass. -/
def sleep (ms : Nat) : Routine σ Unit := wait (fun _ => false) (some ms) id fun _ _ => done ()

/-- Stay until nobody else can go on. -/
def offload : Routine σ Unit := pause id fun _ => done ()

/-! ## clean-up -/

/-- Undo with `cleanup`, too, when dropped. -/
def undoWith (cleanup : σ → σ) : Routine σ α → Routine σ α
  | done a => done a
  | step update next => step update fun s => undoWith cleanup (next s)
  | wait ready limit abandon next =>
    wait ready limit (fun s => cleanup (abandon s)) fun b t => undoWith cleanup (next b t)
  | pause abandon next => pause (fun s => cleanup (abandon s)) fun u => undoWith cleanup (next u)

/-- Clean up when the routine ends, however it ends. -/
def ensure (cleanup : σ → σ) (r : Routine σ α) : Routine σ α :=
  (r.undoWith cleanup).bind fun a => step cleanup fun _ => done a

/-! ## handed over -/

/-- What the place where a routine stays does when the routine is dropped. -/
def abandon : Routine σ α → σ → σ
  | done _ | step .. => id
  | wait _ _ abandon _ | pause abandon _ => abandon

/-- The state after everything that is left has been done at once. -/
def complete : Routine σ α → σ → σ
  | done _, s => s
  | step update next, s => complete (next s) (update s)
  | wait _ _ _ next, s => complete (next true 0) s
  | pause _ next, s => complete (next ()) s

/-- The same work for another thread: others go on after each of its steps, and when it is dropped
the thread still does what is left. -/
def handedOver : Routine σ α → Routine σ α
  | done a => done a
  | step update next =>
    step update fun s => pause (complete (next s)) fun _ => handedOver (next s)
  | wait ready limit abandon next => wait ready limit abandon fun b t => handedOver (next b t)
  | pause abandon next => pause abandon fun u => handedOver (next u)

/-! ## part of a larger state -/

/-- The same routine on the part of a larger state that `get` finds and `set` puts back. -/
def zoom (get : τ → σ) (set : σ → τ → τ) : Routine σ α → Routine τ α
  | done a => done a
  | step update next => step (fun t => set (update (get t)) t) fun t => zoom get set (next (get t))
  | wait ready limit abandon next =>
    wait (fun t => ready (get t)) limit (fun t => set (abandon (get t)) t) fun b n =>
      zoom get set (next b n)
  | pause abandon next => pause (fun t => set (abandon (get t)) t) fun u => zoom get set (next u)

/-! ## limited time -/

/-- Drop the routine when it is not done within `left` milliseconds.  A wait of its own that runs
out at the same moment is looked at first. -/
def within (left : Nat) : Routine σ α → Routine σ (Option α)
  | done a => done (some a)
  | step update next => step update fun s => within left (next s)
  | wait ready limit abandon next =>
    let dropped : Routine σ (Option α) := step abandon fun _ => done none
    match limit with
    | none =>
      wait ready (some left) abandon fun b t =>
        if b then within (left - t) (next true t) else dropped
    | some own =>
      wait ready (some (min own left)) abandon fun b t =>
        if b then within (left - t) (next true t)
        else if own ≤ left then within (left - t) (next false t)
        else dropped
  | pause abandon next =>
    if left = 0 then step abandon fun _ => done none
    else pause abandon fun u => within left (next u)

end Routine

/-! ## attempts -/

/-- A routine that may end with a fault. -/
abbrev Attempt (σ ε α : Type) := ExceptT ε (Routine σ) α

namespace Attempt

variable {σ τ ε α : Type}

def run (r : Attempt σ ε α) : Routine σ (Except ε α) := ExceptT.run r

def ofRoutine (r : Routine σ (Except ε α)) : Attempt σ ε α := ExceptT.mk r

/-- A routine without faults. -/
def lift (r : Routine σ α) : Attempt σ ε α := ExceptT.lift r

def ofExcept (e : Except ε α) : Attempt σ ε α := ExceptT.mk (.done e)

/-- One atomic change that may fail. -/
def act (f : σ → Except ε α × σ) : Attempt σ ε α := ExceptT.mk (Routine.act f)

end Attempt

end CodeBridge
