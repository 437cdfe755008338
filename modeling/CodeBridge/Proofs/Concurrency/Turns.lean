import CodeBridge.Concurrency.Lock
import CodeBridge.Proofs.Concurrency.Kinds

/-!
# Routines that wait for their turn

A shared lock guards something that may be over for good one day.  A routine that has its turn then
does not stay anywhere until it has left the lock; before that day, whoever has the lock for itself
may take its time.

* `Stand`       how a routine stands with the lock;
* `Turn`        what a move may do with the lock;
* `Heeds`       a routine keeps to this, wherever it goes; one that is quick stays for its turn only;
* `Heeds.bind`, `heeds_hold`, …   routines are taken apart.
-/

namespace CodeBridge

inductive Stand where
  | out
  | door (ticket : Nat) (reading : Bool)
  | inside (ticket : Nat) (reading : Bool)
  /-- it has the lock for itself, and it was not over when it got it -/
  | busy (ticket : Nat)
  deriving DecidableEq

namespace Stand

def seat? : Stand → Option (Nat × Bool)
  | out => none
  | door n b | inside n b => some (n, b)
  | busy n => some (n, false)

def served : Stand → Bool
  | inside .. | busy _ => true
  | _ => false

/-- It need not hurry. -/
def idles : Stand → Bool
  | out | busy _ => true
  | _ => false

def isBusy : Stand → Bool
  | busy _ => true
  | _ => false

end Stand

namespace Routine
variable {σ α β : Type}

section
variable (lock : σ → SharedLock) (Over : σ → Prop)

/-- What a move may do with the lock, and how the routine stands before and after it. -/
inductive Turn (s s' : σ) : Stand → Stand → Prop where
  | apart {x : Stand} : lock s' = lock s → (Over s' → Over s) → Turn s s' x x
  /-- who has the lock for itself may make an end -/
  | act {n : Nat} : lock s' = lock s → Turn s s' (.inside n false) (.inside n false)
  | engage {n : Nat} : lock s' = lock s → ¬ Over s → ¬ Over s' →
    Turn s s' (.inside n false) (.busy n)
  | join (b : Bool) : lock s' = ((lock s).join b).2 → (Over s' → Over s) →
    Turn s s' .out (.door (lock s).issued b)
  | leave {x : Stand} {n : Nat} {b : Bool} : x.served = true → x.seat? = some (n, b) →
    lock s' = (lock s).leave n → (Over s' → Over s) → Turn s s' x .out

/-- A routine that stands like this keeps to the turns, and ends in `Q`; if it is `quick`, it is
over already. -/
def Heeds (quick : Prop) (Q : α → Stand → Prop) : Routine σ α → Stand → Prop
  | done a, x => Q a x
  | step update next, x => ∀ s, (quick → Over s) → (x.isBusy = true → ¬ Over s) →
    (Over s → Over (update s)) ∧
      ∃ y, Turn lock Over s (update s) x y ∧ Heeds quick Q (next s) y
  | wait ready limit _ next, x =>
    (∃ n b, x = .door n b ∧ limit = none ∧ (∀ s, ready s = (lock s).holds n) ∧
      ∀ t, Heeds quick Q (next true t) (.inside n b)) ∨
    x.idles = true ∧ ¬ quick ∧ ∀ b t, Heeds quick Q (next b t) x
  | pause _ next, x => x.idles = true ∧ ¬ quick ∧ Heeds quick Q (next ()) x

end

section
variable {lock : σ → SharedLock} {Over : σ → Prop} {quick : Prop} {Q : α → Stand → Prop}
  {x : Stand}

/-! ## taking routines apart -/

theorem Heeds.bind {Q' : β → Stand → Prop} {r : Routine σ α} {f : α → Routine σ β}
    (h : r.Heeds lock Over quick Q x) (hf : ∀ a y, Q a y → (f a).Heeds lock Over quick Q' y) :
    (r.bind f).Heeds lock Over quick Q' x := by
  induction r generalizing x with
  | done a => exact hf a x h
  | step update next ih =>
    intro s hq hb
    obtain ⟨hover, y, hturn, hnext⟩ := h s hq hb
    exact ⟨hover, y, hturn, ih s hnext⟩
  | wait ready limit abandon next ih =>
    rcases h with ⟨n, b, rfl, hlimit, hready, hnext⟩ | ⟨hidles, hq, hnext⟩
    · exact .inl ⟨n, b, rfl, hlimit, hready, fun t => ih true t (hnext t)⟩
    · exact .inr ⟨hidles, hq, fun b t => ih b t (hnext b t)⟩
  | pause abandon next ih => exact ⟨h.1, h.2.1, ih () h.2.2⟩

theorem Heeds.mono {Q' : α → Stand → Prop} {r : Routine σ α}
    (h : r.Heeds lock Over quick Q x) (hQ : ∀ a y, Q a y → Q' a y) :
    r.Heeds lock Over quick Q' x := by
  have hend := h.bind (f := .done) hQ
  rwa [bind_done_right] at hend

theorem Heeds.undoWith {cleanup : σ → σ} {r : Routine σ α} (h : r.Heeds lock Over quick Q x) :
    (r.undoWith cleanup).Heeds lock Over quick Q x := by
  induction r generalizing x with
  | done a => exact h
  | step update next ih =>
    intro s hq hb
    obtain ⟨hover, y, hturn, hnext⟩ := h s hq hb
    exact ⟨hover, y, hturn, ih s hnext⟩
  | wait ready limit abandon next ih =>
    rcases h with ⟨n, b, rfl, hlimit, hready, hnext⟩ | ⟨hidles, hq, hnext⟩
    · exact .inl ⟨n, b, rfl, hlimit, hready, fun t => ih true t (hnext t)⟩
    · exact .inr ⟨hidles, hq, fun b t => ih b t (hnext b t)⟩
  | pause abandon next ih => exact ⟨h.1, h.2.1, ih () h.2.2⟩

theorem heeds_apart {R : σ → σ → Prop} {r : Routine σ α} (h : r.MovesBy R) (hq : ¬ quick)
    (hx : x.idles = true)
    (hR : ∀ s s', R s s' → lock s' = lock s ∧ (Over s' → Over s) ∧
      (x.isBusy = false → Over s → Over s')) :
    r.Heeds lock Over quick (fun _ y => y = x) x := by
  induction r with
  | done a => rfl
  | step update next ih =>
    intro s _ hb
    obtain ⟨hlock, hback, hover⟩ := hR s _ (h s).1
    refine ⟨fun hs => ?_, x, .apart hlock hback, ih s (h s).2⟩
    cases hbusy : x.isBusy with
    | false => exact hover hbusy hs
    | true => exact absurd hs (hb hbusy)
  | wait ready limit abandon next ih => exact .inr ⟨hx, hq, fun b t => ih b t (h.2 b t)⟩
  | pause abandon next ih => exact ⟨hx, hq, ih () h.2⟩

/-- A part that is done while the lock is held comes between coming to the line and leaving it. -/
theorem heeds_hold {reading : Bool} {set : SharedLock → σ → σ} {body : Routine σ α}
    {Q : α → Prop} (hget : ∀ l s, lock (set l s) = l) (hset : ∀ l s, Over (set l s) ↔ Over s)
    (hbody : ∀ n, body.Heeds lock Over quick (fun a y => Q a ∧ y.served = true ∧
      y.seat? = some (n, reading)) (.inside n reading)) :
    (SharedLock.hold reading lock set body).Heeds lock Over quick (fun a y => y = .out ∧ Q a)
      .out := by
  have hjoin : (Routine.act fun s => (((lock s).join reading).1,
      set ((lock s).join reading).2 s)).Heeds lock Over quick
      (fun ticket y => y = .door ticket reading) .out := fun s _ _ =>
    ⟨(hset _ s).mpr, _, .join reading (hget _ s) (hset _ s).mp, rfl⟩
  refine Heeds.bind hjoin fun n y hy => ?_
  subst hy
  refine Heeds.bind (Heeds.undoWith (Heeds.bind (Q := fun _ y => y = .inside n reading)
    (.inl ⟨n, reading, rfl, rfl, fun _ => rfl, fun _ => rfl⟩) fun _ y hy => hy ▸ hbody n))
    fun a y hy => ?_
  obtain ⟨ha, hserved, hseat⟩ := hy
  intro s _ _
  exact ⟨(hset _ s).mpr, .out, .leave hserved hseat (hget _ s) (hset _ s).mp, rfl, ha⟩

end

end Routine

end CodeBridge
