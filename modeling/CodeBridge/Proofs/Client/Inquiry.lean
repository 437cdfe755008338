import CodeBridge.Proofs.Client.Ending

/-!
# A server that goes by its conduct

One routine of a client moves, and the server does what its conduct says to each request: it answers
before the time of the call is over, or it does not.  The connection stays open.

* `Conduct`            what a server does with a request, by all the messages that it has been sent;
* `Inquiry`            a client, what is left of its routine, and what the routine has said;
* `Heeds`, `Follows`   an event, and a list of them, are what a server of this conduct does;
* `Left`               what the routine is left by such a server: `left_happen`;
* `goes`, `ends`       the routine comes to its end, unless there is no room for a message.
-/

namespace CodeBridge

/-- What a server does with a request, the last of the messages that it has been sent: it answers,
or says nothing to it as long as the call waits. -/
abbrev Conduct := List Json → Option Answer

namespace Course

namespace Inquiry

structure Said where
  /-- the messages that it has queued, the first one first -/
  told : List Json := []
  /-- time has run out since the last of them -/
  late : Bool := false

namespace Said

def more (ms : List Json) (s : Said) : Said := ⟨s.told ++ ms, ms.isEmpty && s.late⟩

def lapsed (s : Said) : Said := { s with late := true }

theorem more_nil (s : Said) : s.more [] = s := by
  show Said.mk (s.told ++ []) (true && s.late) = s
  rw [List.append_nil]
  rfl

end Said

end Inquiry

structure Inquiry (α : Type) where
  client : Client
  rest : Routine Client α
  said : Inquiry.Said := {}
  /-- moves of the routine; staying where it is counts for nothing -/
  moves : Nat := 0

namespace Inquiry

open Connection Pact Routine

variable {α β : Type}

def start (c : Client) (r : Routine Client α) : Inquiry α := { client := c, rest := r }

/-- The time of the routine runs out with this event. -/
def expires (q : Inquiry α) : Event → Bool
  | .go elapsed => q.rest.expired elapsed q.client
  | _ => false

def go (elapsed : Nat) (q : Inquiry α) : Inquiry α :=
  let (c, rest) := q.rest.poll elapsed q.client
  let said := if q.rest.expired elapsed q.client then q.said.lapsed else q.said
  { client := c
    rest := rest
    said := said.more (added q.client c)
    moves := if q.rest.stays elapsed q.client then q.moves else q.moves + 1 }

theorem said_go (elapsed : Nat) (q : Inquiry α) : (q.go elapsed).said =
    (if q.rest.expired elapsed q.client then q.said.lapsed else q.said).more
      (added q.client (q.rest.poll elapsed q.client).1) := rfl

def apply (q : Inquiry α) : Event → Inquiry α
  | .go elapsed => q.go elapsed
  | e => { q with client := e.happen q.client }

def run (q : Inquiry α) (events : List Event) : Inquiry α := events.foldl apply q

def result? (q : Inquiry α) : Option α :=
  match q.rest with
  | .done a => some a
  | _ => none

/-! ## what a server does -/

/-- The number and the body of the answer that the reader takes with an event. -/
def takes (c : Connection) : Event → Option (UInt64 × Json)
  | .read => if c.canRead then c.answered? else none
  | _ => none

def Due (S : Conduct) (id : UInt64) (answer : Answer) (s : Said) : Prop :=
  ∃ m ∈ s.told.getLast?, m.get? "id" = some (.ofUInt64 id) ∧
    (s.late = true ∨ S s.told = some answer)

/-- An event is what a server of this conduct does.  Some calls have been made `before`, and nothing
is said of them. -/
structure Heeds (S : Conduct) (before : List UInt64) (q : Inquiry α) (e : Event) : Prop where
  /-- the connection stays open -/
  opened : (q.apply e).client.connection.closed = false
  /-- an answer that finds its call waiting comes after the request, and it is what the conduct
  says, unless it is too late -/
  answers : ∀ a ∈ takes q.client.connection e, a.1 ∈ q.client.connection.pending → a.1 ∉ before →
    Due S a.1 (.ofBody a.2) q.said
  /-- time runs out only when there is no answer -/
  silence : q.expires e = true → S q.said.told = none

def Follows (S : Conduct) (before : List UInt64) : Inquiry α → List Event → Prop
  | _, [] => True
  | q, e :: events => q.Heeds S before e ∧ Follows S before (q.apply e) events

instance (S : Conduct) (id : UInt64) (answer : Answer) (s : Said) : Decidable (Due S id answer s) :=
  inferInstanceAs (Decidable (∃ m ∈ s.told.getLast?, _))

instance (S : Conduct) (before : List UInt64) (q : Inquiry α) (e : Event) :
    Decidable (q.Heeds S before e) :=
  decidable_of_iff (_ ∧ (∀ a ∈ takes q.client.connection e, a.1 ∈ q.client.connection.pending →
    a.1 ∉ before → Due S a.1 (.ofBody a.2) q.said) ∧ (q.expires e = true → S q.said.told = none))
    ⟨fun h => ⟨h.1, h.2.1, h.2.2⟩, fun h => ⟨h.opened, h.answers, h.silence⟩⟩

instance decidableFollows (S : Conduct) (before : List UInt64) :
    (q : Inquiry α) → (events : List Event) → Decidable (Follows S before q events)
  | _, [] => .isTrue trivial
  | q, e :: events =>
    have := decidableFollows S before (q.apply e) events
    inferInstanceAs (Decidable (_ ∧ _))

/-! ## the table -/

theorem table_happen (c : Client) (e : Event) :
    match takes c.connection e with
    | some (id, body) => ∃ k, SameTable c.connection k ∧
        (e.happen c).connection = k.complete id (.ofBody body)
    | none => Quiet c.connection (e.happen c).connection := by
  cases e with
  | read =>
    have hhappen : (Event.happen c .read).connection =
        if c.connection.canRead then c.connection.readNext.1 else c.connection := by
      show (if c.connection.canRead then c.readNext else c).connection = _
      split
      · rw [readNext_eq]
      · rfl
    rw [hhappen]
    unfold takes
    by_cases hread : c.connection.canRead = true
    · rw [if_pos hread, if_pos hread]
      exact readNext_table c.connection
    · rw [if_neg hread, if_neg hread]
      exact (SameTable.refl _).quiet
  | write =>
    show Quiet _ (if c.connection.canWrite then _ else _ : Client).connection
    split
    · exact quiet_writeNext c.connection
    · exact (SameTable.refl _).quiet
  | deliver bytes => exact (same_deliver bytes _).quiet
  | exited => exact (same_exited _).quiet
  | kill => exact (same_kill _).quiet
  | _ => exact SameTable.quiet ⟨rfl, rfl, rfl⟩

abbrev Scene := Client × Said

/-- What a routine is left by a server of this conduct. -/
structure Left (S : Conduct) (before : List UInt64) (w w' : Scene) : Prop where
  said : w'.2 = w.2
  kept : ∀ g, ∃ more, Kept (w.1, g) (w'.1, g ++ more)
  /-- a call that has left the table does not come back -/
  gone : ∀ id, id ∉ w.1.connection.pending →
    id ∉ w'.1.connection.pending ∧ w'.1.connection.answer? id = w.1.connection.answer? id
  /-- a call that waits goes on waiting, or gets an answer -/
  comes : ∀ id ∉ before, id ∈ w.1.connection.pending → w.1.connection.answer? id = none →
    w'.1.connection.closed = false →
      id ∈ w'.1.connection.pending ∧ w'.1.connection.answer? id = none ∨
        id ∉ w'.1.connection.pending ∧
          ∃ answer, w'.1.connection.answer? id = some answer ∧ Due S id answer w.2

namespace Left
variable {S : Conduct} {before : List UInt64} {u v w : Scene}

theorem calm (h : Left S before u v) : ∃ more, Calm (u.1, []) (v.1, more) := by
  obtain ⟨more, hk⟩ := h.kept []
  exact ⟨more, hk.toCalm⟩

theorem opened (h : Left S before u v) (hv : v.1.connection.closed = false) :
    u.1.connection.closed = false := by
  obtain ⟨more, hcalm⟩ := h.calm
  exact Bool.eq_false_iff.mpr fun hu => Bool.noConfusion (hv.symm.trans (hcalm.link.closed hu))

theorem trans (h : Left S before u v) (h' : Left S before v w) : Left S before u w where
  said := h'.said.trans h.said
  kept g := by
    obtain ⟨more, hk⟩ := h.kept g
    obtain ⟨more', hk'⟩ := h'.kept (g ++ more)
    rw [List.append_assoc] at hk'
    exact ⟨more ++ more', hk.trans hk'⟩
  gone id hid :=
    have hv := h.gone id hid
    (h'.gone id hv.1).imp_right fun e => e.trans hv.2
  comes id hid hm hn hw := by
    rcases h.comes id hid hm hn (h'.opened hw) with ⟨hm, hn⟩ | ⟨hm, answer, ha, hdue⟩
    · exact h.said ▸ h'.comes id hid hm hn hw
    · obtain ⟨hm', he⟩ := h'.gone id hm
      exact .inr ⟨hm', answer, he.trans ha, hdue⟩

theorem of_same {c : Client} {k : Connection} (s : Said) (htable : SameTable c.connection k)
    (hconstants : k.constants = c.connection.constants) (hclosed : k.closed = c.connection.closed)
    (hwriting : k.writing = c.connection.writing) (houtbox : k.outbox = c.connection.outbox) :
    Left S before (c, s) (c.setConnection k, s) where
  said := rfl
  kept g := by
    refine ⟨[], ?_⟩
    rw [List.append_nil]
    exact kept_link (.of_same htable hconstants hclosed hwriting houtbox)
  gone id hid := ⟨fun hm => hid (htable.pending ▸ hm), htable.answer? id⟩
  comes id _ hm hn _ := .inl ⟨htable.pending.symm ▸ hm, (htable.answer? id).trans hn⟩

theorem refl (w : Scene) : Left S before w w := of_same w.2 (.refl w.1.connection) rfl rfl rfl rfl

end Left

section
variable {S : Conduct} {before : List UInt64} {c : Client} {s : Said} {e : Event}

theorem left_of_quiet (h : Quiet c.connection (e.happen c).connection) :
    Left S before (c, s) (e.happen c, s) := by
  have hanswer (id : UInt64) : (e.happen c).connection.answer? id = c.connection.answer? id := by
    unfold answer?
    rw [h.answers]
  refine ⟨rfl, fun g => ⟨_, kept_happen c g e⟩, fun id hid =>
    ⟨fun hm => hid (h.mem id hm), hanswer id⟩, fun id _ hm hn ho => ?_⟩
  have hwaits := (kept_happen c [] e).table.waits id (.inl ⟨hm, hn⟩)
  rcases hwaits with hwaits | ⟨-, ⟨-, hclosed⟩ | ⟨answer, hsome, -⟩⟩
  · exact .inl hwaits
  · exact Bool.noConfusion (hclosed.symm.trans ho)
  · exact nomatch hsome.symm.trans ((hanswer id).trans hn)

theorem left_of_complete {k : Connection} {id : UInt64} {body : Json}
    (hsame : SameTable c.connection k)
    (hk : (e.happen c).connection = k.complete id (.ofBody body))
    (hdue : id ∈ c.connection.pending → id ∉ before → Due S id (.ofBody body) s) :
    Left S before (c, s) (e.happen c, s) := by
  have hpending (other : UInt64) : other ∈ k.pending ↔ other ∈ c.connection.pending := by
    rw [hsame.pending]
  refine ⟨rfl, fun g => ⟨_, kept_happen c g e⟩, fun other hout => ?_,
    fun other hbefore hm hn _ => ?_⟩
  · show _ ∉ (e.happen c).connection.pending ∧ (e.happen c).connection.answer? _ = _
    rw [hk, ← hsame.answer? other]
    by_cases hne : other = id
    · rw [← hne, complete_of_not_mem other _ k fun h => hout ((hpending other).mp h)]
      exact ⟨fun h => hout ((hpending other).mp h), rfl⟩
    · exact ⟨fun h => hout ((hpending other).mp ((mem_complete id other _ k hne).mp h)),
        answer?_complete id other _ k hne⟩
  · show _ ∈ (e.happen c).connection.pending ∧ (e.happen c).connection.answer? _ = _ ∨
      _ ∉ (e.happen c).connection.pending ∧
        ∃ answer, (e.happen c).connection.answer? _ = _ ∧ _
    rw [hk]
    have hnone : k.answer? other = none := (hsame.answer? other).trans hn
    by_cases hne : other = id
    · subst hne
      have hmem := (hpending other).mpr hm
      exact .inr ⟨not_mem_complete other _ k hmem, _, answer?_complete_self other _ k hmem hnone,
        hdue hm hbefore⟩
    · exact .inl ⟨(mem_complete id other _ k hne).mpr ((hpending other).mpr hm),
        (answer?_complete id other _ k hne).trans hnone⟩

/-- So it is left by all that is no move of its own. -/
theorem left_happen {q : Inquiry α} (h : q.Heeds S before e) :
    Left S before (q.client, q.said) (e.happen q.client, q.said) := by
  have htable := table_happen q.client e
  cases htakes : takes q.client.connection e with
  | none =>
    rw [htakes] at htable
    exact left_of_quiet htable
  | some a =>
    rw [htakes] at htable
    obtain ⟨k, hsame, hk⟩ := htable
    exact left_of_complete hsame hk (h.answers a htakes)

end

/-! ## how long it takes -/

theorem apply_happen (q : Inquiry α) {e : Event} (h : e.isGo = false) :
    q.apply e = { q with client := e.happen q.client } := by
  cases e with
  | go elapsed => cases h
  | _ => rfl

def Lasts (docs n : Nat) (q : Inquiry α) : Prop :=
  Bounded Aside (fun c => Full c.connection) (fun _ => Holding [] docs) q.rest (n - q.moves)
    q.client

section
variable {docs n : Nat} {q : Inquiry α}

theorem Lasts.go (h : Lasts docs n q) (elapsed : Nat) : Lasts docs n (q.go elapsed) := by
  show Bounded _ _ _ (q.rest.poll elapsed q.client).2 (n - (q.go elapsed).moves)
    (q.rest.poll elapsed q.client).1
  cases hstays : q.rest.stays elapsed q.client with
  | true =>
    have hmoves : (q.go elapsed).moves = q.moves := if_pos hstays
    rw [hmoves, poll_of_stays hstays]
    exact h
  | false =>
    have hmoves : (q.go elapsed).moves = q.moves + 1 := if_neg (Bool.eq_false_iff.mp hstays)
    rw [hmoves, ← Nat.sub_sub]
    exact Bounded.poll h aside_refl hstays

theorem Lasts.apply (h : Lasts docs n q) (e : Event) : Lasts docs n (q.apply e) := by
  cases hg : e.isGo with
  | true =>
    cases e with
    | go elapsed => exact h.go elapsed
    | _ => cases hg
  | false =>
    rw [apply_happen q hg]
    have hkept := kept_happen q.client [] e
    have haside : Aside q.client (e.happen q.client) := ⟨hkept.lock, hkept.openDocs⟩
    exact Bounded.rely h aside_trans haside

theorem Lasts.run (h : Lasts docs n q) (events : List Event) : Lasts docs n (q.run events) := by
  induction events generalizing q with
  | nil => exact h
  | cons e events ih => exact ih (h.apply e)

theorem Lasts.goes (h : Lasts docs n q) :
    (∃ elapsed, (q.go elapsed).moves = q.moves + 1) ∨ Full q.client.connection := by
  refine (Bounded.goes h aside_refl).imp_left fun ⟨elapsed, hstays⟩ => ⟨elapsed, ?_⟩
  exact if_neg (Bool.eq_false_iff.mp hstays)

theorem Lasts.ends (h : Lasts docs n q) (hmoves : n ≤ q.moves) : q.result?.isSome = true := by
  unfold Lasts at h
  rw [Nat.sub_eq_zero_of_le hmoves] at h
  obtain ⟨a, ha⟩ := h.eq_done
  unfold result?
  rw [ha]
  rfl

theorem lasts_start {c : Client} {r : Routine Client α} (h : Brief [] [] docs r n)
    (hc : Holding [] docs c) : Lasts docs n (start c r) := h c hc

end

end Inquiry

end Course

end CodeBridge
