import CodeBridge.Proofs.Client.Published
import CodeBridge.Proofs.Concurrency.Keeps

/-!
# Waiting for findings

A wait for findings about a document goes on move by move, and between any two of its moves others
put down what is published, call all who wait, take tickets and give them back.  To put down what is
published and to call are two events.  The clock moves on only when no call is owed and the wait
cannot go on.

* `Watch`, `Event`   a wait among others, and what may happen next;
* `moments`, `overAt`   when something is published about a document, and when a wait is over;
* `Place`            where a wait can be between two of its moves;
* `Watching`         what is so when it is there: it is not late, its turns suffice, and when the
                     generation has moved while it waits, it has been called or a call is owed;
* `Watching.aside`, `Watching.tick`, `Watching.move`   every event keeps that so, `Nearer` being a
                     move from one place to another;
* `Watching.goes`    a wait never keeps the clock from moving on;
* `await_returns`    when a wait comes to its end, and with what.
-/

namespace CodeBridge

namespace Routine

/-- A routine at its end, or where neither the state nor its limit lets it go on. -/
def rests {σ α : Type} (elapsed : Nat) (s : σ) : Routine σ α → Bool
  | done _ => true
  | wait ready limit _ _ => !ready s && limit.all (elapsed < ·)
  | _ => false

end Routine

namespace Published

structure Watch where
  now : Nat
  known : Published
  /-- those who have put down what was published and are to call -/
  owed : Nat
  /-- tickets that others have taken -/
  theirs : List Nat
  wait : Routine Published (List Diagnostic)
  /-- when the wait came where it is -/
  since : Nat

inductive Event where
  /-- the wait makes its next move -/
  | move
  /-- a notification is taken in, up to the call -/
  | hear (n : Notification)
  /-- all who wait are called -/
  | call
  /-- somebody else takes a ticket -/
  | join
  /-- somebody else gives one back -/
  | leave (ticket : Nat)
  | tick

namespace Event

def isHear : Event → Bool
  | hear _ => true
  | _ => false

def isCall : Event → Bool
  | call => true
  | _ => false

def isTick : Event → Bool
  | tick => true
  | _ => false

end Event

namespace Watch

def rests (w : Watch) : Bool := w.wait.rests (w.now - w.since) w.known

def hear (n : Notification) (w : Watch) : Watch :=
  match publication? n with
  | some q => { w with known := w.known.record q.uri q.diagnostics, owed := w.owed + 1 }
  | none => w

def goTo (w : Watch) (place : Published × Routine Published (List Diagnostic)) : Watch :=
  { w with known := place.1, wait := place.2, since := w.now }

/-- What an event makes of a wait; none when it cannot happen. -/
def step (w : Watch) : Event → Option Watch
  | .move =>
    if w.rests then none else some (w.goTo (w.wait.poll (w.now - w.since) w.known))
  | .hear n => some (w.hear n)
  | .call =>
    if w.owed = 0 then none
    else some { w with known := w.known.callAll, owed := w.owed - 1 }
  | .join =>
    let (ticket, known) := w.known.register
    some { w with known := known, theirs := ticket :: w.theirs }
  | .leave ticket =>
    if ticket ∈ w.theirs then some { w with known := w.known.leave ticket } else none
  | .tick => if w.rests && w.owed = 0 then some { w with now := w.now + 1 } else none

def run (w : Watch) : List Event → Option Watch
  | [] => some w
  | e :: es => (w.step e).bind fun w => w.run es

end Watch

/-! ## when a wait is over -/

def isAbout (u : String) (n : Notification) : Bool :=
  (publication? n).any fun q => sameDocument q.uri u

/-- The moments at which something is published about a document. -/
def moments (u : String) : Nat → List Event → List Nat
  | _, [] => []
  | now, .tick :: es => moments u (now + 1) es
  | now, .hear n :: es => if isAbout u n then now :: moments u now es else moments u now es
  | now, _ :: es => moments u now es

/-- The first moment at which something is published about a document, if it comes before `due`. -/
def overAt (u : String) (due now : Nat) (es : List Event) : Nat := (moments u now es).foldr min due

variable {u : String} {due now : Nat} {es es' : List Event}

theorem isAbout_iff {n : Notification} :
    isAbout u n = true ↔ ∃ q, Publishes n q ∧ sameDocument q.uri u = true := by
  simp only [isAbout, Option.any_eq_true, publication?_eq_some]

theorem moments_append (es es' : List Event) (now : Nat) :
    moments u now (es ++ es') = moments u now es ++ moments u (now + es.countP (·.isTick)) es' := by
  induction es generalizing now with
  | nil => rfl
  | cons e es ih =>
    cases e with
    | tick =>
      show moments u (now + 1) (es ++ es') = moments u (now + 1) es ++ _
      rw [ih, List.countP_cons_of_pos rfl, Nat.add_assoc, Nat.add_comm 1]
    | hear n =>
      show (if isAbout u n then now :: moments u now (es ++ es') else moments u now (es ++ es')) =
        (if isAbout u n then now :: moments u now es else moments u now es) ++ _
      rw [ih, List.countP_cons_of_neg (by simp [Event.isTick])]
      split <;> rfl
    | _ => exact ih now

theorem mem_moments {m : Nat} (h : m ∈ moments u now es) :
    now ≤ m ∧ m ≤ now + es.countP (·.isTick) := by
  induction es generalizing now with
  | nil => cases h
  | cons e es ih =>
    cases e with
    | tick =>
      obtain ⟨hle, hge⟩ : now + 1 ≤ m ∧ m ≤ now + 1 + es.countP (·.isTick) := ih h
      rw [List.countP_cons_of_pos rfl]
      omega
    | hear n =>
      rw [List.countP_cons_of_neg (by simp [Event.isTick])]
      change m ∈ (if isAbout u n then now :: moments u now es else moments u now es) at h
      split at h
      · rcases List.mem_cons.mp h with rfl | h
        · exact ⟨Nat.le_refl _, Nat.le_add_right _ _⟩
        · exact ih h
      · exact ih h
    | _ => exact ih h

theorem le_overAt_iff {m : Nat} :
    m ≤ overAt u due now es ↔ m ≤ due ∧ ∀ n ∈ moments u now es, m ≤ n := by
  unfold overAt
  induction moments u now es with
  | nil => simp
  | cons n ns ih =>
    rw [List.foldr_cons, Nat.le_min, ih, List.forall_mem_cons]
    exact and_left_comm

theorem soon_append (h : now + es.countP (·.isTick) ≤ overAt u due now es) (es' : List Event) :
    now + es.countP (·.isTick) ≤ overAt u due now (es ++ es') := by
  obtain ⟨hdue, hall⟩ := le_overAt_iff.mp h
  refine le_overAt_iff.mpr ⟨hdue, fun m hm => ?_⟩
  rw [moments_append] at hm
  exact (List.mem_append.mp hm).elim (hall m) fun hm => (mem_moments hm).1

/-- When it is over, it is over whatever happens then. -/
theorem overAt_append (h : overAt u due now es = now + es.countP (·.isTick)) (es' : List Event) :
    overAt u due now (es ++ es') = overAt u due now es := by
  refine Nat.le_antisymm (le_overAt_iff.mpr ?_) (h ▸ soon_append (Nat.le_of_eq h.symm) es')
  obtain ⟨hdue, hall⟩ := le_overAt_iff.mp (Nat.le_refl (overAt u due now (es ++ es')))
  refine ⟨hdue, fun m hm => hall m ?_⟩
  rw [moments_append]
  exact List.mem_append_left _ hm

/-! ## where a wait can be -/

theorem generation_record (p : Published) (uri : String) (items : List Diagnostic) :
    (p.record uri items).generation u =
      p.generation u + if sameDocument uri u = true then 1 else 0 := by
  unfold generation
  rw [at_record, apply_ite Findings.generation]
  split <;> rfl

theorem generation_hear (w : Watch) (n : Notification) :
    (w.hear n).known.generation u = w.known.generation u + if isAbout u n then 1 else 0 := by
  unfold Watch.hear isAbout
  cases publication? n with
  | none => rfl
  | some q => exact generation_record w.known q.uri q.diagnostics

/-- To take in a notification is to put down what it publishes, if it does, and then to call. -/
theorem ingest_eq_hear (w : Watch) (n : Notification) : w.known.ingest n =
    if (publication? n).isSome then (w.hear n).known.callAll else (w.hear n).known := by
  unfold ingest Watch.hear
  cases publication? n <;> rfl

/-- Between two moves a wait is about to take a ticket, to look at the generation with it, to go on
when it is called, to give it back, or to read. -/
inductive Place where
  | begins (left turns : Nat)
  | looks (ticket left turns : Nat)
  | waits (ticket left turns : Nat)
  | leaves (ticket : Nat)
  | reads

/-- What is left of a wait at a place; `old` is the generation that it has found at first. -/
def Place.routine (u : String) (old : Nat) : Place → Routine Published (List Diagnostic)
  | begins left turns => (awaitTurns u old turns left).bind fun _ => Routine.read (·.read u)
  | looks ticket left turns =>
    ((Routine.read fun p => p.generation u).bind fun found =>
      if found ≠ old then Routine.change (leave ticket)
      else .wait (isCalled ticket) (some left) (leave ticket) fun called spent =>
        if called then awaitTurns u old turns (left - spent)
        else Routine.change (leave ticket)).bind fun _ => Routine.read (·.read u)
  | waits ticket left turns =>
    .wait (isCalled ticket) (some left) (leave ticket) fun called spent =>
      (if called then awaitTurns u old turns (left - spent)
        else Routine.change (leave ticket)).bind fun _ => Routine.read (·.read u)
  | leaves ticket => (Routine.change (leave ticket)).bind fun _ => Routine.read (·.read u)
  | reads => Routine.read (·.read u)

/-- The wait has a ticket, and nobody else has it. -/
structure Watch.Holds (ticket : Nat) (w : Watch) : Prop where
  issued : ticket < w.known.issued
  own : ticket ∉ w.theirs

/-- The turn that a ticket takes up as long as it has not been called. -/
def Watch.uncalled (ticket : Nat) (w : Watch) : Nat := if isCalled ticket w.known then 0 else 1

/-- What is so at a place after so many calls: when the wait will be over at the latest, that a turn
is left for each call to come, and that a new generation does not go unnoticed. -/
def Place.Fine (u : String) (old turns due calls moment : Nat) (w : Watch) : Place → Prop
  | begins left spare => w.now + left = due ∧ turns ≤ spare + calls
  | looks ticket left spare =>
    w.Holds ticket ∧ w.now + left = due ∧ turns ≤ spare + (calls + w.uncalled ticket)
  | waits ticket left spare =>
    w.Holds ticket ∧ w.since + left = due ∧ turns ≤ spare + (calls + w.uncalled ticket) ∧
      w.since ≤ w.now ∧ (w.known.generation u ≠ old → isCalled ticket w.known = true ∨ 0 < w.owed)
  | leaves ticket => w.Holds ticket ∧ w.now = moment
  | reads => w.now = moment

/-- A wait that began at `start` is at a place after some events. -/
structure Watching (u : String) (turns due : Nat) (start : Watch) (es : List Event) (w : Watch)
    (p : Place) : Prop where
  routine : w.wait = p.routine u (start.known.generation u)
  now : w.now = start.now + es.countP (·.isTick)
  generation : w.known.generation u =
    start.known.generation u + (moments u start.now es).length
  soon : w.now ≤ overAt u due start.now es
  calls : es.countP (·.isCall) + w.owed ≤ start.owed + es.countP (·.isHear)
  tickets : ∀ ticket ∈ w.theirs, ticket < w.known.issued
  fine : p.Fine u (start.known.generation u) turns due (es.countP (·.isCall))
    (overAt u due start.now es) w

/-! ## what others do -/

/-- A wait stays where it is while something else happens; who is called, and who publishes, is
accounted for. -/
structure Aside (u : String) (e : Event) (w w' : Watch) : Prop where
  routine : w'.wait = w.wait
  now : w'.now = w.now
  since : w'.since = w.since
  generation : w'.known.generation u = w.known.generation u + (moments u w.now [e]).length
  calls : [e].countP (·.isCall) + w'.owed ≤ w.owed + [e].countP (·.isHear)
  tickets : ∀ ticket ∈ w'.theirs, ticket < w'.known.issued
  holds : ∀ ticket, w.Holds ticket → w'.Holds ticket
  turns : ∀ ticket, w.Holds ticket →
    w.uncalled ticket ≤ [e].countP (·.isCall) + w'.uncalled ticket
  noticed : ∀ ticket, w.Holds ticket →
    (isCalled ticket w.known = true ∨ 0 < w.owed → isCalled ticket w'.known = true ∨ 0 < w'.owed) ∧
      (w'.known.generation u ≠ w.known.generation u → 0 < w'.owed)

theorem isCalled_iff {ticket : Nat} {p : Published} :
    isCalled ticket p = true ↔ ticket ∉ p.waiting := by
  simp [isCalled]

theorem uncalled_le_one (ticket : Nat) (w : Watch) : w.uncalled ticket ≤ 1 := by
  unfold Watch.uncalled
  split <;> decide

theorem uncalled_mono {ticket : Nat} {w w' : Watch}
    (h : isCalled ticket w'.known = true → isCalled ticket w.known = true) :
    w.uncalled ticket ≤ w'.uncalled ticket := by
  by_cases hcalled : isCalled ticket w'.known = true
  · unfold Watch.uncalled
    rw [if_pos (h hcalled)]
    exact Nat.zero_le _
  · refine Nat.le_trans (uncalled_le_one ticket w) ?_
    exact Nat.le_of_eq (if_neg hcalled).symm

theorem aside_hear (w : Watch) (n : Notification)
    (htickets : ∀ ticket ∈ w.theirs, ticket < w.known.issued) : Aside u (.hear n) w (w.hear n) := by
  have hgeneration : (w.hear n).known.generation u =
      w.known.generation u + (moments u w.now [.hear n]).length := by
    rw [generation_hear]
    unfold moments
    split <;> rfl
  cases hq : publication? n with
  | none =>
    have hsame : w.hear n = w := by
      unfold Watch.hear
      rw [hq]
    rw [hsame] at hgeneration ⊢
    exact ⟨rfl, rfl, rfl, hgeneration, by simp [Event.isCall], htickets, fun _ => id,
      fun _ _ => Nat.le_add_left _ _, fun _ _ => ⟨id, fun hne => absurd rfl hne⟩⟩
  | some q =>
    have hheard : w.hear n =
        { w with known := w.known.record q.uri q.diagnostics, owed := w.owed + 1 } := by
      unfold Watch.hear
      rw [hq]
    rw [hheard] at hgeneration ⊢
    exact ⟨rfl, rfl, rfl, hgeneration, Nat.le_of_eq (Nat.zero_add _), htickets,
      fun _ hk => ⟨hk.issued, hk.own⟩, fun _ _ => Nat.le_add_left _ _,
      fun _ _ => ⟨fun _ => .inr (Nat.succ_pos _), fun _ => Nat.succ_pos _⟩⟩

theorem aside_call (w : Watch) (howed : w.owed ≠ 0)
    (htickets : ∀ ticket ∈ w.theirs, ticket < w.known.issued) :
    Aside u .call w { w with known := w.known.callAll, owed := w.owed - 1 } := by
  have hcalled (ticket : Nat) : isCalled ticket w.known.callAll = true := rfl
  refine ⟨rfl, rfl, rfl, rfl, ?_, htickets, fun _ hk => ⟨hk.issued, hk.own⟩, fun ticket _ => ?_,
    fun ticket _ => ⟨fun _ => .inl (hcalled ticket), fun hne => absurd rfl hne⟩⟩
  · show 1 + (w.owed - 1) ≤ w.owed + 0
    omega
  · exact Nat.le_trans (uncalled_le_one ticket w) (Nat.le_add_right 1 _)

theorem aside_join (w : Watch) (htickets : ∀ ticket ∈ w.theirs, ticket < w.known.issued) :
    Aside u .join w { w with known := w.known.register.2, theirs := w.known.issued :: w.theirs } := by
  have hcalled {ticket : Nat} (hk : w.Holds ticket) (hcalled : isCalled ticket w.known = true) :
      isCalled ticket w.known.register.2 = true := by
    refine isCalled_iff.mpr fun hmem => ?_
    rcases List.mem_append.mp hmem with hmem | hmem
    · exact isCalled_iff.mp hcalled hmem
    · exact absurd (List.mem_singleton.mp hmem) (Nat.ne_of_lt hk.issued)
  refine ⟨rfl, rfl, rfl, rfl, Nat.le_of_eq (Nat.zero_add _), fun ticket hk => ?_, fun ticket hk => ?_,
    fun ticket hk => ?_, fun ticket hk => ⟨Or.imp_left (hcalled hk), fun hne => absurd rfl hne⟩⟩
  · rcases List.mem_cons.mp hk with rfl | hk
    · exact Nat.lt_succ_self _
    · exact Nat.lt_succ_of_lt (htickets ticket hk)
  · refine ⟨Nat.lt_succ_of_lt hk.issued, fun hmem => ?_⟩
    rcases List.mem_cons.mp hmem with heq | hmem
    · exact absurd heq (Nat.ne_of_lt hk.issued)
    · exact hk.own hmem
  · rw [List.countP_cons_of_neg Bool.false_ne_true, List.countP_nil, Nat.zero_add]
    exact uncalled_mono fun hc => isCalled_iff.mpr fun hmem =>
      isCalled_iff.mp hc (List.mem_append_left _ hmem)

/-- Nobody gives back a ticket that is not its own. -/
theorem aside_leave (w : Watch) {other : Nat} (hother : other ∈ w.theirs)
    (htickets : ∀ ticket ∈ w.theirs, ticket < w.known.issued) :
    Aside u (.leave other) w { w with known := w.known.leave other } := by
  have hcalled {ticket : Nat} (hc : isCalled ticket w.known = true) :
      isCalled ticket (w.known.leave other) = true :=
    isCalled_iff.mpr fun hmem => isCalled_iff.mp hc (List.mem_filter.mp hmem).1
  refine ⟨rfl, rfl, rfl, rfl, Nat.le_of_eq (Nat.zero_add _), htickets,
    fun _ hk => ⟨hk.issued, hk.own⟩, fun ticket hk => ?_,
    fun ticket _ => ⟨Or.imp_left hcalled, fun hne => absurd rfl hne⟩⟩
  have hne : ticket ≠ other := fun heq => hk.own (heq ▸ hother)
  rw [List.countP_cons_of_neg Bool.false_ne_true, List.countP_nil, Nat.zero_add]
  exact uncalled_mono fun hc => isCalled_iff.mpr fun hmem =>
    isCalled_iff.mp hc (List.mem_filter.mpr ⟨hmem, decide_eq_true hne⟩)

theorem aside_of_step {e : Event} {w w' : Watch} (h : w.step e = some w') (hmove : e ≠ .move)
    (htick : e ≠ .tick) (htickets : ∀ ticket ∈ w.theirs, ticket < w.known.issued) :
    Aside u e w w' := by
  cases e with
  | move => exact absurd rfl hmove
  | tick => exact absurd rfl htick
  | hear n =>
    obtain rfl := Option.some.inj h
    exact aside_hear w n htickets
  | call =>
    obtain ⟨howed, h⟩ := Option.ite_none_left_eq_some.mp h
    obtain rfl := Option.some.inj h
    exact aside_call w howed htickets
  | join =>
    obtain rfl := Option.some.inj h
    exact aside_join w htickets
  | leave other =>
    obtain ⟨hother, h⟩ := Option.ite_none_right_eq_some.mp h
    obtain rfl := Option.some.inj h
    exact aside_leave w hother htickets

section
variable {old turns : Nat} {start w w' : Watch} {e : Event} {p : Place}

/-- A wait that can only be called, or run out, has not been. -/
theorem waits_of_rests {elapsed : Nat} {s : Published}
    (h : (p.routine u old).rests elapsed s = true) : ∃ ticket left spare,
      p = .waits ticket left spare ∧ isCalled ticket s = false ∧ elapsed < left := by
  cases p with
  | begins left spare => cases spare <;> cases h
  | looks => cases h
  | leaves => cases h
  | reads => cases h
  | waits ticket left spare =>
    obtain ⟨hcalled, hleft⟩ := Bool.and_eq_true_iff.mp h
    exact ⟨ticket, left, spare, rfl, Bool.not_inj hcalled, of_decide_eq_true hleft⟩

theorem Place.Fine.aside {calls moment moment' : Nat} (h : p.Fine u old turns due calls moment w)
    (ha : Aside u e w w') (hover : w.now = moment → w.now = moment') :
    p.Fine u old turns due (calls + [e].countP (·.isCall)) moment' w' := by
  cases p with
  | begins left spare =>
    obtain ⟨hleft, hturns⟩ := h
    exact ⟨ha.now ▸ hleft, by omega⟩
  | looks ticket left spare =>
    obtain ⟨hk, hleft, hturns⟩ := h
    have hmore := ha.turns ticket hk
    exact ⟨ha.holds ticket hk, ha.now ▸ hleft, by omega⟩
  | waits ticket left spare =>
    obtain ⟨hk, hleft, hturns, hsince, hnoticed⟩ := h
    have hmore := ha.turns ticket hk
    obtain ⟨hstill, hnew⟩ := ha.noticed ticket hk
    refine ⟨ha.holds ticket hk, ha.since ▸ hleft, by omega, ha.since ▸ ha.now ▸ hsince,
      fun hne => ?_⟩
    by_cases hmoved : w'.known.generation u = w.known.generation u
    · exact hstill (hnoticed (hmoved ▸ hne))
    · exact .inr (hnew hmoved)
  | leaves ticket => exact ⟨ha.holds ticket h.1, ha.now.trans (hover h.2)⟩
  | reads => exact ha.now.trans (hover h)

namespace Watching

theorem soon' (h : Watching u turns due start es w p) :
    start.now + es.countP (·.isTick) ≤ overAt u due start.now es := h.now ▸ h.soon

theorem aside (h : Watching u turns due start es w p) (ha : Aside u e w w') (htick : e ≠ .tick) :
    Watching u turns due start (es ++ [e]) w' p := by
  have hticks : [e].countP (·.isTick) = 0 := by
    cases e with
    | tick => exact absurd rfl htick
    | _ => rfl
  have hcalls := ha.calls
  have hbefore := h.calls
  refine ⟨ha.routine.trans h.routine, ?_, ?_, ?_, ?_, ha.tickets, ?_⟩
  · rw [List.countP_append, hticks, ha.now]
    exact h.now
  · rw [moments_append, List.length_append, ← Nat.add_assoc, ← h.generation, ← h.now]
    exact ha.generation
  · rw [ha.now, h.now]
    exact soon_append h.soon' [e]
  · rw [List.countP_append, List.countP_append]
    omega
  · rw [List.countP_append]
    refine h.fine.aside ha fun hover => ?_
    rw [overAt_append (hover.symm.trans h.now)]
    exact hover

theorem tick (h : Watching u turns due start es w p) (hstep : w.step .tick = some w') :
    Watching u turns due start (es ++ [.tick]) w' p := by
  obtain ⟨hmay, hstep⟩ := Option.ite_none_right_eq_some.mp hstep
  obtain rfl := Option.some.inj hstep
  obtain ⟨hrests, howed⟩ := Bool.and_eq_true_iff.mp hmay
  have howed : w.owed = 0 := of_decide_eq_true howed
  unfold Watch.rests at hrests
  rw [h.routine] at hrests
  obtain ⟨ticket, left, spare, rfl, hcalled, hleft⟩ := waits_of_rests hrests
  obtain ⟨hk, hdue, hturns, hsince, hnoticed⟩ := h.fine
  have hsame : w.known.generation u = start.known.generation u := by
    refine Decidable.byContradiction fun hne => ?_
    rcases hnoticed hne with hc | ho
    · exact absurd (hcalled.symm.trans hc) Bool.false_ne_true
    · omega
  have hnone : moments u start.now es = [] := by
    have hlength := h.generation
    exact List.length_eq_zero_iff.mp (by omega)
  have hticks : (es ++ [Event.tick]).countP (·.isTick) = es.countP (·.isTick) + 1 :=
    List.countP_append
  have hsilent : moments u start.now (es ++ [.tick]) = [] := by
    rw [moments_append, hnone]
    rfl
  refine ⟨h.routine, ?_, ?_, ?_, ?_, h.tickets, ?_⟩
  · rw [hticks, ← Nat.add_assoc, ← h.now]
  · rw [hsilent]
    exact hsame
  · unfold overAt
    rw [hsilent]
    show w.now + 1 ≤ due
    omega
  · rw [List.countP_append, List.countP_append]
    exact h.calls
  · rw [List.countP_append]
    exact ⟨⟨hk.issued, hk.own⟩, hdue, hturns, Nat.le_succ_of_le hsince, hnoticed⟩

/-- The wait comes to another place; what it does with its ticket is nobody else's business. -/
theorem goTo (h : Watching u turns due start es w p) {known : Published} {next : Place}
    (hsame : known.generation u = w.known.generation u) (hissued : w.known.issued ≤ known.issued)
    (hfine : ∀ w', w' = w.goTo (known, next.routine u (start.known.generation u)) →
      next.Fine u (start.known.generation u) turns due (es.countP (·.isCall))
        (overAt u due start.now es) w') :
    Watching u turns due start (es ++ [.move])
      (w.goTo (known, next.routine u (start.known.generation u))) next := by
  have hmoments : moments u start.now (es ++ [.move]) = moments u start.now es := by
    rw [moments_append]
    exact List.append_nil _
  have hcount (f : Event → Bool) (hf : f .move = false) :
      (es ++ [Event.move]).countP f = es.countP f := by
    rw [List.countP_append, List.countP_cons_of_neg (by rw [hf]; decide)]
    rfl
  have hover : overAt u due start.now (es ++ [.move]) = overAt u due start.now es := by
    unfold overAt
    rw [hmoments]
  refine ⟨rfl, ?_, ?_, ?_, ?_, fun ticket hk => Nat.lt_of_lt_of_le (h.tickets ticket hk) hissued, ?_⟩
  · rw [hcount _ rfl]
    exact h.now
  · rw [hmoments]
    exact hsame.trans h.generation
  · rw [hover]
    exact h.soon
  · rw [hcount _ rfl, hcount _ rfl]
    exact h.calls
  · rw [hcount _ rfl, hover]
    exact hfine _ rfl

end Watching

/-- What is left to do at a place before the clock may move on. -/
def Place.rank (w : Watch) : Place → Nat
  | begins .. => 5
  | looks ticket .. => 7 - 3 * w.uncalled ticket
  | waits ticket .. => 6 - 3 * w.uncalled ticket
  | leaves _ => 2
  | reads => 1

/-- With a publication about its document the wait is over at the latest now. -/
theorem Watching.over_of_moved (h : Watching u turns due start es w p)
    (hne : w.known.generation u ≠ start.known.generation u) : w.now = overAt u due start.now es := by
  refine Nat.le_antisymm h.soon ?_
  have hgeneration := h.generation
  obtain ⟨m, hm⟩ : ∃ m, m ∈ moments u start.now es :=
    List.exists_mem_of_length_pos (by omega)
  obtain ⟨-, hall⟩ := le_overAt_iff.mp (Nat.le_refl (overAt u due start.now es))
  exact h.now ▸ Nat.le_trans (hall m hm) (mem_moments hm).2

theorem overAt_le (u : String) (due now : Nat) (es : List Event) : overAt u due now es ≤ due :=
  (le_overAt_iff.mp (Nat.le_refl _)).1

section
variable {ticket left spare elapsed : Nat} {s : Published}

theorem poll_begins : ((Place.begins left (spare + 1)).routine u old).poll elapsed s =
    (s.register.2, (Place.looks s.issued left spare).routine u old) := rfl

theorem poll_looks : ((Place.looks ticket left spare).routine u old).poll elapsed s =
    (s, (if s.generation u = old then Place.waits ticket left spare
      else .leaves ticket).routine u old) := by
  show (s, Routine.bind (if s.generation u ≠ old then _ else _) _) = _
  by_cases hsame : s.generation u = old
  · rw [if_neg (not_not_intro hsame), if_pos hsame]
    rfl
  · rw [if_pos hsame, if_neg hsame]
    rfl

theorem poll_waits_called (h : isCalled ticket s = true) :
    ((Place.waits ticket left spare).routine u old).poll elapsed s =
      (s, (Place.begins (left - elapsed) spare).routine u old) :=
  Routine.poll_of_ready h

theorem poll_waits_expired (h : isCalled ticket s = false) (hleft : left ≤ elapsed) :
    ((Place.waits ticket left spare).routine u old).poll elapsed s =
      (s, (Place.leaves ticket).routine u old) :=
  (Routine.poll_of_expired (by simp [Routine.expired, h, hleft])).2.2

theorem poll_leaves : ((Place.leaves ticket).routine u old).poll elapsed s =
    (s.leave ticket, Place.reads.routine u old) := rfl

end

/-- The next move brings a wait from this place to another one, with less left to do. -/
def Nearer (u : String) (turns due : Nat) (start : Watch) (es : List Event) (w : Watch) (p : Place) :
    Prop :=
  let w' := w.goTo ((p.routine u (start.known.generation u)).poll (w.now - w.since) w.known)
  ∃ next, Watching u turns due start (es ++ [.move]) w' next ∧ next.rank w' < p.rank w

section
variable {ticket left spare : Nat}

theorem nearer_begins (h : Watching u turns due start es w (.begins left spare))
    (hfew : start.owed + es.countP (·.isHear) < turns) :
    Nearer u turns due start es w (.begins left spare) := by
  obtain ⟨hdue, hturns⟩ := h.fine
  have hcalls := h.calls
  cases spare with
  | zero => omega
  | succ spare =>
    have huncalled {w' : Watch} (hw : w'.known = w.known.register.2) :
        w'.uncalled w.known.issued = 1 := by
      refine if_neg fun hc => isCalled_iff.mp (hw ▸ hc) ?_
      exact List.mem_append_right _ List.mem_cons_self
    unfold Nearer
    rw [poll_begins]
    refine ⟨.looks w.known.issued left spare, h.goTo rfl (Nat.le_succ _) ?_, ?_⟩
    · rintro w' rfl
      have hown : w.known.issued ∉ w.theirs := fun hk => Nat.lt_irrefl _ (h.tickets _ hk)
      refine ⟨⟨Nat.lt_succ_self _, hown⟩, hdue, ?_⟩
      rw [huncalled rfl]
      omega
    · show 7 - 3 * Watch.uncalled _ _ < 5
      rw [huncalled rfl]
      decide

theorem nearer_looks (h : Watching u turns due start es w (.looks ticket left spare)) :
    Nearer u turns due start es w (.looks ticket left spare) := by
  obtain ⟨hk, hdue, hturns⟩ := h.fine
  have hone := uncalled_le_one ticket w
  unfold Nearer
  rw [poll_looks]
  split
  next hsame =>
    refine ⟨.waits ticket left spare, h.goTo rfl (Nat.le_refl _) ?_, ?_⟩
    · rintro w' rfl
      exact ⟨⟨hk.issued, hk.own⟩, hdue, hturns, Nat.le_refl _, fun hne => absurd hsame hne⟩
    · show 6 - 3 * w.uncalled ticket < 7 - 3 * w.uncalled ticket
      omega
  next hmoved =>
    refine ⟨.leaves ticket, h.goTo rfl (Nat.le_refl _) ?_, ?_⟩
    · rintro w' rfl
      exact ⟨⟨hk.issued, hk.own⟩, h.over_of_moved hmoved⟩
    · show 2 < 7 - 3 * w.uncalled ticket
      omega

theorem nearer_called (h : Watching u turns due start es w (.waits ticket left spare))
    (hcalled : isCalled ticket w.known = true) :
    Nearer u turns due start es w (.waits ticket left spare) := by
  obtain ⟨hk, hdue, hturns, hsince, -⟩ := h.fine
  have hzero : w.uncalled ticket = 0 := if_pos hcalled
  have hleft : w.now - w.since ≤ left := by
    have hsoon := h.soon
    have hlast := overAt_le u due start.now es
    omega
  unfold Nearer
  rw [poll_waits_called hcalled]
  refine ⟨.begins (left - (w.now - w.since)) spare, h.goTo rfl (Nat.le_refl _) ?_, ?_⟩
  · rintro w' rfl
    refine ⟨?_, by omega⟩
    show w.now + (left - (w.now - w.since)) = due
    omega
  · show 5 < 6 - 3 * w.uncalled ticket
    rw [hzero]
    decide

theorem nearer_expired (h : Watching u turns due start es w (.waits ticket left spare))
    (hcalled : isCalled ticket w.known = false) (hexpired : left ≤ w.now - w.since) :
    Nearer u turns due start es w (.waits ticket left spare) := by
  obtain ⟨hk, hdue, hturns, hsince, -⟩ := h.fine
  unfold Nearer
  rw [poll_waits_expired hcalled hexpired]
  refine ⟨.leaves ticket, h.goTo rfl (Nat.le_refl _) ?_, ?_⟩
  · rintro w' rfl
    refine ⟨⟨hk.issued, hk.own⟩, Nat.le_antisymm h.soon ?_⟩
    have hlast := overAt_le u due start.now es
    show overAt u due start.now es ≤ w.now
    omega
  · have hone := uncalled_le_one ticket w
    show 2 < 6 - 3 * w.uncalled ticket
    omega

theorem nearer_leaves (h : Watching u turns due start es w (.leaves ticket)) :
    Nearer u turns due start es w (.leaves ticket) := by
  obtain ⟨-, hover⟩ := h.fine
  unfold Nearer
  rw [poll_leaves]
  refine ⟨.reads, h.goTo rfl (Nat.le_refl _) ?_, Nat.lt_succ_self 1⟩
  rintro w' rfl
  exact hover

end

/-- A move of a wait with turns to spare: it comes to another place, or to its end. -/
theorem Watching.move (h : Watching u turns due start es w p)
    (hfew : start.owed + es.countP (·.isHear) < turns) (hstep : w.step .move = some w') :
    w'.owed = w.owed ∧
      ((∃ next, Watching u turns due start (es ++ [.move]) w' next ∧ next.rank w' < p.rank w) ∨
        p = .reads ∧ w'.wait = .done (w.known.read u)) := by
  obtain ⟨hrests, hstep⟩ := Option.ite_none_left_eq_some.mp hstep
  obtain rfl := Option.some.inj hstep
  refine ⟨rfl, ?_⟩
  unfold Watch.rests at hrests
  rw [h.routine] at hrests ⊢
  cases p with
  | begins left spare => exact .inl (nearer_begins h hfew)
  | looks ticket left spare => exact .inl (nearer_looks h)
  | waits ticket left spare =>
    cases hcalled : isCalled ticket w.known with
    | true => exact .inl (nearer_called h hcalled)
    | false =>
      refine .inl (nearer_expired h hcalled (Nat.le_of_not_lt fun hlt => hrests ?_))
      exact Bool.and_eq_true_iff.mpr ⟨congrArg not hcalled, decide_eq_true hlt⟩
  | leaves ticket => exact .inl (nearer_leaves h)
  | reads => exact .inr ⟨rfl, rfl⟩

/-! ## runs -/

theorem Place.rank_le (p : Place) (w w' : Watch) : p.rank w' ≤ p.rank w + 3 := by
  cases p with
  | looks ticket left spare =>
    have hone := uncalled_le_one ticket w
    show 7 - 3 * w'.uncalled ticket ≤ 7 - 3 * w.uncalled ticket + 3
    omega
  | waits ticket left spare =>
    have hone := uncalled_le_one ticket w
    show 6 - 3 * w'.uncalled ticket ≤ 6 - 3 * w.uncalled ticket + 3
    omega
  | _ => exact Nat.le_add_right _ 3

theorem Place.routine_ne_done (p : Place) (items : List Diagnostic) :
    p.routine u old ≠ .done items := by
  cases p with
  | begins left spare => cases spare <;> nofun
  | _ => nofun

theorem rests_of_done {items : List Diagnostic} (h : w.wait = .done items) : w.rests = true := by
  unfold Watch.rests
  rw [h]
  rfl

theorem step_of_done {items : List Diagnostic} (h : w.wait = .done items)
    (hstep : w.step e = some w') : w'.wait = .done items := by
  by_cases hmove : e = .move
  · subst hmove
    exact absurd (rests_of_done h) (Option.ite_none_left_eq_some.mp hstep).1
  · refine Eq.trans ?_ h
    cases e with
    | move => exact absurd rfl hmove
    | hear n =>
      obtain rfl := Option.some.inj hstep
      unfold Watch.hear
      split <;> rfl
    | call =>
      obtain rfl := Option.some.inj (Option.ite_none_left_eq_some.mp hstep).2
      rfl
    | join =>
      obtain rfl := Option.some.inj hstep
      rfl
    | leave _ | tick =>
      obtain rfl := Option.some.inj (Option.ite_none_right_eq_some.mp hstep).2
      rfl

theorem run_of_done {items : List Diagnostic} (h : w.wait = .done items)
    (hrun : w.run es = some w') : w'.wait = .done items := by
  induction es generalizing w with
  | nil =>
    obtain rfl := Option.some.inj hrun
    exact h
  | cons e es ih =>
    obtain ⟨v, hstep, hrest⟩ := Option.bind_eq_some_iff.mp hrun
    exact ih (step_of_done h hstep) hrest

/-- Any event: the wait is at some place, or it has come to its end. -/
theorem Watching.step (h : Watching u turns due start es w p)
    (hfew : start.owed + es.countP (·.isHear) < turns) (hstep : w.step e = some w') :
    (∃ next, Watching u turns due start (es ++ [e]) w' next) ∨
      e = .move ∧ p = .reads ∧ w'.wait = .done (w.known.read u) := by
  by_cases hmove : e = .move
  · subst hmove
    rcases (h.move hfew hstep).2 with ⟨next, hnext, -⟩ | hended
    · exact .inl ⟨next, hnext⟩
    · exact .inr ⟨rfl, hended⟩
  · by_cases htick : e = .tick
    · subst htick
      exact .inl ⟨p, h.tick hstep⟩
    · exact .inl ⟨p, h.aside (aside_of_step hstep hmove htick h.tickets) htick⟩

theorem Watching.run {more : List Event} (h : Watching u turns due start es w p)
    (hfew : start.owed + (es ++ more).countP (·.isHear) < turns) (hrun : w.run more = some w') :
    (∃ next, Watching u turns due start (es ++ more) w' next) ∨
      ∃ before after last next, more = before ++ .move :: after ∧ w.run before = some last ∧
        Watching u turns due start (es ++ before) last .reads ∧ last.step .move = some next ∧
          next.wait = .done (last.known.read u) ∧ w'.wait = next.wait := by
  induction more generalizing es w p with
  | nil =>
    obtain rfl := Option.some.inj hrun
    exact .inl ⟨p, (List.append_nil es).symm ▸ h⟩
  | cons e more ih =>
    obtain ⟨v, hstep, hrest⟩ := Option.bind_eq_some_iff.mp hrun
    have hsplit : es ++ e :: more = es ++ [e] ++ more := (List.append_assoc es [e] more).symm
    have hhears : (es ++ e :: more).countP (·.isHear) =
        es.countP (·.isHear) + (e :: more).countP (·.isHear) := List.countP_append
    rcases h.step (by omega) hstep with ⟨next, hnext⟩ | ⟨rfl, rfl, hended⟩
    · rw [hsplit] at hfew ⊢
      rcases ih hnext hfew hrest with hgoes | ⟨before, after, last, next, rfl, hbefore, hended⟩
      · exact .inl hgoes
      · refine .inr ⟨e :: before, after, last, next, rfl, ?_, ?_⟩
        · exact Option.bind_eq_some_iff.mpr ⟨v, hstep, hbefore⟩
        · rwa [List.append_assoc] at hended
    · exact .inr ⟨[], more, w, v, rfl, rfl, (List.append_nil es).symm ▸ h, hstep, hended,
        (run_of_done hended hrest).trans hended.symm⟩

/-- With the calls that are owed and its own moves alone a wait comes to where the clock may move
on. -/
theorem Watching.goes (h : Watching u turns due start es w p)
    (hfew : start.owed + es.countP (·.isHear) < turns) :
    ∃ more w', (∀ e ∈ more, e = .call ∨ e = .move) ∧ w.run more = some w' ∧ w'.rests = true ∧
      w'.owed = 0 := by
  obtain ⟨rank, hrank⟩ : ∃ rank, 4 * w.owed + p.rank w = rank := ⟨_, rfl⟩
  induction rank using Nat.strongRecOn generalizing es w p with
  | ind rank ih =>
  have hcons {e : Event} {v : Watch} (he : e = .call ∨ e = .move) (hstep : w.step e = some v)
      (hrest : ∃ more w', (∀ e ∈ more, e = .call ∨ e = .move) ∧ v.run more = some w' ∧
        w'.rests = true ∧ w'.owed = 0) :
      ∃ more w', (∀ e ∈ more, e = .call ∨ e = .move) ∧ w.run more = some w' ∧
        w'.rests = true ∧ w'.owed = 0 := by
    obtain ⟨more, w', hall, hrun, hends⟩ := hrest
    exact ⟨e :: more, w', List.forall_mem_cons.mpr ⟨he, hall⟩,
      Option.bind_eq_some_iff.mpr ⟨v, hstep, hrun⟩, hends⟩
  have hstill (e : Event) (he : e.isHear = false) :
      start.owed + (es ++ [e]).countP (·.isHear) < turns := by
    rwa [List.countP_append, List.countP_cons_of_neg (by rw [he]; decide)]
  by_cases howed : w.owed = 0
  · by_cases hrests : w.rests = true
    · exact ⟨[], w, nofun, rfl, hrests, howed⟩
    · have hstep : w.step .move = some (w.goTo (w.wait.poll (w.now - w.since) w.known)) :=
        if_neg hrests
      obtain ⟨hsame, ⟨next, hnext, hless⟩ | ⟨-, hended⟩⟩ := h.move hfew hstep
      · exact hcons (.inr rfl) hstep (ih _ (by omega) hnext (hstill .move rfl) rfl)
      · exact hcons (.inr rfl) hstep ⟨[], _, nofun, rfl, rests_of_done hended, hsame.trans howed⟩
  · have hstep : w.step .call =
        some { w with known := w.known.callAll, owed := w.owed - 1 } := if_neg howed
    have hless := p.rank_le w { w with known := w.known.callAll, owed := w.owed - 1 }
    exact hcons (.inl rfl) hstep (ih _ (by dsimp only; omega)
      (h.aside (aside_of_step hstep nofun nofun h.tickets) nofun) (hstill .call rfl) rfl)

/-- What has become of a wait that began at `start`, after some events: it goes on, and the moment
when it is over is not past; or it came to its end at that moment, with what was known then. -/
inductive Fate (u : String) (due : Nat) (start : Watch) (es : List Event) (w : Watch) : Prop where
  | waits (hwaits : ∀ items, w.wait ≠ .done items) (hsoon : w.now ≤ overAt u due start.now es)
    (hgoes : ∃ more w', (∀ e ∈ more, e = .call ∨ e = .move) ∧ w.run more = some w' ∧
      w'.rests = true ∧ w'.owed = 0)
  | ended (before after : List Event) (last next : Watch) (hes : es = before ++ .move :: after)
    (hbefore : start.run before = some last) (hmove : last.step .move = some next)
    (hnow : last.now = overAt u due start.now es)
    (hresult : next.wait = .done (last.known.read u)) (hstays : w.wait = next.wait)

/-- **A wait for findings comes to its end at the first moment, after it has begun and before its
limit, at which something is published about the document, and else at its limit; and what it gives
is what is known of the document then.**  It has a turn for each notification; nothing that was
published before it began, and nothing about other documents, makes a difference. -/
theorem await_returns {limit : Nat} (hwait : w.wait = await turns u limit)
    (htickets : ∀ ticket ∈ w.theirs, ticket < w.known.issued) (hstart : w.step .move = some start)
    (hrun : start.run es = some w') (hfew : w.owed + es.countP (·.isHear) < turns) :
    Fate u (w.now + limit) start es w' := by
  obtain rfl := Option.some.inj (Option.ite_none_left_eq_some.mp hstart).2
  have hbegins : w.goTo (w.wait.poll (w.now - w.since) w.known) =
      w.goTo (w.known, (Place.begins limit turns).routine u (w.known.generation u)) := by
    rw [hwait]
    rfl
  rw [hbegins] at hrun ⊢
  have hwatching : Watching u turns (w.now + limit) (w.goTo (w.known,
      (Place.begins limit turns).routine u (w.known.generation u))) [] _ (.begins limit turns) :=
    { routine := rfl
      now := rfl
      generation := rfl
      soon := Nat.le_add_right w.now limit
      calls := Nat.le_of_eq (Nat.add_comm 0 w.owed)
      tickets := htickets
      fine := ⟨rfl, Nat.le_refl turns⟩ }
  rcases hwatching.run hfew hrun with ⟨p, hp⟩ | ⟨before, after, last, next, rfl, hbefore, hlast, hrest⟩
  · exact .waits (fun items => hp.routine ▸ p.routine_ne_done items) hp.soon (hp.goes hfew)
  · obtain ⟨hmove, hresult, hstays⟩ := hrest
    refine .ended before after last next rfl hbefore hmove ?_ hresult hstays
    have hover : last.now = overAt u (w.now + limit) w.now before := hlast.fine
    rw [hover]
    exact (overAt_append (hover.symm.trans hlast.now) _).symm

end

/-- A wait that begins while somebody is about to call for an earlier publication. -/
def called : Watch :=
  { now := 5, known := { issued := 1 }, owed := 1, theirs := [0]
    wait := await 4 "file:///%61" 4, since := 5 }

/-- It is called for that, then for another document; and what it waits for is published, and all are
called, just before it takes its next ticket. -/
def between : List Event :=
  [.move, .call, .move, .move, .move, .move, .tick,
    .hear (publish "file:///b" []), .call, .move,
    .hear (publish "file:///a" [finding (.str "new")]), .call, .move, .move, .move, .move]

theorem between_ended : ∃ start last, called.step .move = some start ∧
    start.run between = some last ∧
    last.wait = .done [⟨⟨⟨0, 1⟩, ⟨0, 2⟩⟩, .error, "new", some "7", none⟩] ∧
      Fate "file:///%61" 9 start between last := by
  have htickets : ∀ ticket ∈ called.theirs, ticket < called.known.issued := by decide
  have hfew : called.owed + between.countP (·.isHear) < 4 := by decide
  exact ⟨_, _, rfl, rfl, rfl, await_returns rfl htickets rfl rfl hfew⟩

end Published

end CodeBridge
