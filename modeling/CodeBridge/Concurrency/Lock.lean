import CodeBridge.Concurrency.Routine

/-!
# Locks

A lock is a line of tickets: who comes joins at its end, who is done leaves it.  In a `Lock` the
ticket at the front holds it.  In a `SharedLock` a ticket may be for reading, and all tickets for
reading at the front hold it together.
-/

namespace CodeBridge

structure Lock where
  /-- the next ticket -/
  issued : Nat := 0
  line : List Nat := []
  deriving DecidableEq, Repr, Inhabited

namespace Lock

def join (l : Lock) : Nat × Lock := (l.issued, ⟨l.issued + 1, l.line ++ [l.issued]⟩)

def leave (ticket : Nat) (l : Lock) : Lock := { l with line := l.line.filter (· ≠ ticket) }

def holds (ticket : Nat) (l : Lock) : Bool := l.line.head? = some ticket

/-- How many tickets stand before one. -/
def ahead (ticket : Nat) (l : Lock) : Nat := (l.line.takeWhile (· ≠ ticket)).length

theorem holds_iff (l : Lock) (n : Nat) : l.holds n = true ↔ ∃ line, l.line = n :: line := by
  unfold holds
  rw [decide_eq_true_iff, List.head?_eq_some_iff]

theorem holds_join (l : Lock) (n : Nat) (h : l.holds n = true) : l.join.2.holds n = true := by
  obtain ⟨line, hl⟩ := (holds_iff l n).mp h
  exact (holds_iff _ n).mpr ⟨line ++ [l.issued], congrArg (· ++ [l.issued]) hl⟩

theorem holds_leave (l : Lock) (n ticket : Nat) (hne : n ≠ ticket) (h : l.holds n = true) :
    (l.leave ticket).holds n = true := by
  obtain ⟨line, hl⟩ := (holds_iff l n).mp h
  refine (holds_iff _ n).mpr ⟨line.filter (· ≠ ticket), ?_⟩
  show l.line.filter (· ≠ ticket) = _
  rw [hl]
  exact List.filter_cons_of_pos (decide_eq_true hne)

/-- One ticket holds the lock at a time. -/
theorem holds_unique {l : Lock} {m n : Nat} (hm : l.holds m = true) (hn : l.holds n = true) :
    m = n := by
  obtain ⟨_, e⟩ := (holds_iff l m).mp hm
  obtain ⟨_, e'⟩ := (holds_iff l n).mp hn
  exact (List.cons.inj (e.symm.trans e')).1

/-- Run `body` while holding the lock that `get` and `set` find in the state. -/
def hold {σ α : Type} (get : σ → Lock) (set : Lock → σ → σ) (body : Routine σ α) : Routine σ α :=
  let release (ticket : Nat) (s : σ) : σ := set ((get s).leave ticket) s
  (Routine.act fun s => let (ticket, l) := (get s).join; (ticket, set l s)).bind fun ticket =>
    Routine.ensure (release ticket) <|
      (Routine.until_ fun s => (get s).holds ticket).bind fun _ => body

end Lock

structure SharedLock where
  issued : Nat := 0
  /-- tickets, and whether each is for reading -/
  line : List (Nat × Bool) := []
  deriving DecidableEq, Repr, Inhabited

namespace SharedLock

def join (reading : Bool) (l : SharedLock) : Nat × SharedLock :=
  (l.issued, ⟨l.issued + 1, l.line ++ [(l.issued, reading)]⟩)

def leave (ticket : Nat) (l : SharedLock) : SharedLock :=
  { l with line := l.line.filter fun t => t.1 ≠ ticket }

/-- At the front, or for reading with only others for reading before it. -/
def holds (ticket : Nat) (l : SharedLock) : Bool :=
  l.line.head?.any (·.1 = ticket) || (l.line.takeWhile (·.2)).any (·.1 = ticket)

def hold {σ α : Type} (reading : Bool) (get : σ → SharedLock) (set : SharedLock → σ → σ)
    (body : Routine σ α) : Routine σ α :=
  let release (ticket : Nat) (s : σ) : σ := set ((get s).leave ticket) s
  (Routine.act fun s => let (ticket, l) := (get s).join reading; (ticket, set l s)).bind
    fun ticket =>
      Routine.ensure (release ticket) <|
        (Routine.until_ fun s => (get s).holds ticket).bind fun _ => body

end SharedLock

end CodeBridge
