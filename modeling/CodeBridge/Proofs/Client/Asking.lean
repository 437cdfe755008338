import CodeBridge.Proofs.Client.Inquiry

/-!
# What comes of asking

What the calls of a routine end in when the server goes by its conduct: in the answer that the
conduct gives to the request, or, when there is none, with their time over.

* `pact`, `stands`     what the routine keeps to, and what it knows between its calls;
* `registered`, `asked`, `answered`   what it knows in the course of one;
* `owes_call`, `owes_request`         what a call ends in: `concluded`, `requested`;
* `Under`              what is so between the events, and at the end.
-/

namespace CodeBridge

namespace Course

namespace Inquiry

open Connection Pact Routine

variable {α β : Type}

/-! ## what a routine keeps to -/

def pact (S : Conduct) (before : List UInt64) : Pact Client Said where
  Fine w := w.1.connection.closed = false ∧ w.1.connection.Writes
  Kept := Left S before
  May w w' := w'.2 = w.2.more (added w.1 w'.1)
  Over w s := s = w.2.lapsed ∧ S w.2.told = none
  refl := .refl
  trans _ _ _ := .trans

section
variable {S : Conduct} {before : List UInt64}

/-- What is known between calls: who is in the line of the lock, what has been told, and the next
number; the table has numbers from among some only. -/
structure Stands (line : List Nat) (limit : UInt64) (N : UInt64 → Prop) (told : List Json)
    (id : UInt64) (w : Scene) : Prop where
  lifecycle : w.1.lifecycle = .initialized
  line : w.1.lock.line = line
  limit : w.1.connection.callLimit = limit
  only : Only N w.1.connection
  told : w.2.told = told
  nextId : w.1.connection.nextId = id

variable {line : List Nat} {limit : UInt64} {N : UInt64 → Prop} {told : List Json} {id : UInt64}

theorem Stands.left {w w' : Scene} (h : Stands line limit N told id w) (hl : Left S before w w') :
    Stands line limit N told id w' := by
  obtain ⟨more, hk⟩ := hl.kept []
  have hconstants : w'.1.connection.constants = w.1.connection.constants := hk.link.constants
  exact ⟨hk.lifecycle.trans h.lifecycle, (congrArg Lock.line hk.lock).trans h.line,
    (Prod.ext_iff.mp hconstants).1.trans h.limit, hk.table.only h.only,
    (congrArg Said.told hl.said).trans h.told, hk.table.nextId.trans h.nextId⟩

def stands (line : List Nat) (limit : UInt64) (N : UInt64 → Prop) (told : List Json) (id : UInt64) :
    Assertion (pact S before) where
  Holds := Stands line limit N told id
  stable _ hk h := h.left hk

def Waiting (id : UInt64) (w : Scene) : Prop :=
  id ∈ w.1.connection.pending ∧ w.1.connection.answer? id = none

def Awaited (S : Conduct) (id : UInt64) (w : Scene) : Prop :=
  w.2.late = false ∧ (Waiting id w ∨ id ∉ w.1.connection.pending ∧
    ∃ answer, w.1.connection.answer? id = some answer ∧ S w.2.told = some answer)

/-- Nothing comes for a call that has not been made. -/
def registered (line : List Nat) (limit : UInt64) (N : UInt64 → Prop) (told : List Json)
    (id : UInt64) (hid : id ∉ before)
    (hlast : ∀ m ∈ told.getLast?, m.get? "id" ≠ some (.ofUInt64 id)) :
    Assertion (pact S before) where
  Holds w := Stands line limit (fun n => N n ∨ n = id) told (id + 1) w ∧ Waiting id w
  stable hf hk h := by
    refine ⟨h.1.left hk, ?_⟩
    rcases hk.comes id hid h.2.1 h.2.2 hf.1 with hw | ⟨-, answer, -, m, hm, hnumber, -⟩
    · exact hw
    · exact absurd hnumber (hlast m (h.1.told ▸ hm))

def asked (line : List Nat) (limit : UInt64) (N : UInt64 → Prop) (told : List Json) (id : UInt64)
    (hid : id ∉ before) : Assertion (pact S before) where
  Holds w := Stands line limit (fun n => N n ∨ n = id) told (id + 1) w ∧ Awaited S id w
  stable {w w'} hf hk h := by
    refine ⟨h.1.left hk, (congrArg Said.late hk.said).trans h.2.1, ?_⟩
    rcases h.2.2 with hw | ⟨hgone, answer, ha, hs⟩
    · rcases hk.comes id hid hw.1 hw.2 hf.1 with hw | ⟨hgone, answer, ha, m, -, -, hdue⟩
      · exact .inl hw
      · have hs : S w.2.told = some answer :=
          hdue.resolve_left fun hlate => Bool.noConfusion (h.2.1.symm.trans hlate)
        exact .inr ⟨hgone, answer, ha, hk.said.symm ▸ hs⟩
    · obtain ⟨hgone', he⟩ := hk.gone id hgone
      exact .inr ⟨hgone', answer, he.trans ha, hk.said.symm ▸ hs⟩

def answered (line : List Nat) (limit : UInt64) (N : UInt64 → Prop) (told : List Json) (id : UInt64)
    (answer : Answer) : Assertion (pact S before) where
  Holds w := Stands line limit (fun n => N n ∨ n = id) told (id + 1) w ∧
    id ∉ w.1.connection.pending ∧ w.1.connection.answer? id = some answer
  stable _ hk h := ⟨h.1.left hk, (hk.gone id h.2.1).imp_right fun e => e.trans h.2.2⟩

/-! ## the smallest parts -/

variable {P : Assertion (pact S before)} {Q : α → Assertion (pact S before)}

theorem owes_still {f : Client → α × Client}
    (h : ∀ w, (pact S before).Fine w → P.Holds w → Unsaid w.1.connection (f w.1).2.connection ∧
      (f w.1).2.connection.closed = w.1.connection.closed ∧ (Q (f w.1).1).Holds ((f w.1).2, w.2)) :
    Owes P (.act f) Q := by
  refine owes_act fun c s hfine hp => ?_
  obtain ⟨hunsaid, hclosed, hq⟩ := h (c, s) hfine hp
  have houtbox : (f c).2.connection.outbox = c.connection.outbox ++ [] :=
    hunsaid.outbox.trans (List.append_nil _).symm
  have hadded : added c (f c).2 = [] := added_append houtbox
  have hwrites : (f c).2.connection.Writes := fun hc => by
    rw [hunsaid.writing, hunsaid.outbox]
    exact hfine.2 (hclosed.symm.trans hc)
  refine ⟨s, ⟨hclosed.trans hfine.1, hwrites⟩, ?_, hq⟩
  show s = s.more (added c (f c).2)
  rw [hadded, Said.more_nil]

theorem owes_look {f : Client → α}
    (h : ∀ w, (pact S before).Fine w → P.Holds w → (Q (f w.1)).Holds w) : Owes P (.read f) Q :=
  owes_still (f := fun c => (f c, c)) fun w hfine hp =>
    ⟨⟨rfl, rfl, rfl, rfl⟩, rfl, h w hfine hp⟩

theorem owes_link {f : Connection → α × Connection}
    (h : ∀ w, (pact S before).Fine w → P.Holds w → Unsaid w.1.connection (f w.1.connection).2 ∧
      (f w.1.connection).2.closed = w.1.connection.closed ∧
        (Q (f w.1.connection).1).Holds (w.1.setConnection (f w.1.connection).2, w.2)) :
    Owes P (Client.onConnection (.act f)) Q :=
  owes_still (f := fun c : Client => ((f c.connection).1, c.setConnection (f c.connection).2)) h

theorem owes_link_look {f : Connection → α}
    (h : ∀ w, (pact S before).Fine w → P.Holds w → (Q (f w.1.connection)).Holds w) :
    Owes P (Client.onConnection (.read f)) Q :=
  owes_look (f := fun c : Client => f c.connection) h

theorem owes_link_bind {R : β → Assertion (pact S before)} {r : Routine Connection α}
    {f : α → Routine Connection β} (h : Owes P (Client.onConnection r) Q)
    (hf : ∀ a, Owes (Q a) (Client.onConnection (f a)) R) :
    Owes P (Client.onConnection (r.bind f)) R := h.zoom_bind hf

/-- Nobody else is in the line of the lock. -/
theorem owes_lockedLook {f : Client → α} {φ : α → Prop} (h : ∀ c : Client,
    c.lifecycle = .initialized → φ (f c)) :
    Owes (stands [] limit N told id : Assertion (pact S before)) (Client.locked (.read f)) fun a =>
      (Assertion.fact (φ a)).and (stands [] limit N told id) := by
  have hjoin : Owes (stands [] limit N told id : Assertion (pact S before))
      (.act fun c => (c.lock.join.1, c.setLock c.lock.join.2)) fun n =>
        stands [n] limit N told id := by
    refine owes_still fun w _ hp => ⟨⟨rfl, rfl, rfl, rfl⟩, rfl, { hp with line := ?_ }⟩
    show w.1.lock.line ++ [w.1.lock.issued] = _
    rw [hp.line]
    rfl
  refine hjoin.bind fun n => ?_
  have hturn : Owes (stands [n] limit N told id : Assertion (pact S before))
      (.until_ fun c => c.lock.holds n) fun _ => stands [n] limit N told id :=
    owes_until fun _ _ hp _ => hp
  have hlook : Owes (stands [n] limit N told id : Assertion (pact S before)) (.read f) fun a =>
      (Assertion.fact (φ a)).and (stands [n] limit N told id) :=
    owes_look fun w _ hp => ⟨h w.1 hp.lifecycle, hp⟩
  refine (hturn.bind fun _ => hlook).ensure fun a => ?_
  refine owes_still (f := fun c => (a, c.setLock (c.lock.leave n))) fun w _ hp =>
    ⟨⟨rfl, rfl, rfl, rfl⟩, rfl, hp.1, { hp.2 with line := ?_ }⟩
  show w.1.lock.line.filter (· ≠ n) = _
  rw [hp.2.line]
  exact List.filter_cons_of_neg (by simp)

/-! ## calls -/

def concluded (method : String) (limit : UInt64) : Option Answer → Except ClientError Json
  | some (.result value) => .ok value
  | some (.refused refusal) => .error (.server method refusal.code refusal.message)
  | none => .error (.timeout method limit)

/-- What only changes the line of senders changes nothing that is known. -/
theorem owes_senders {f : Connection → α × Connection}
    (hf : ∀ c, ∃ l, (f c).2 = { c with senders := l })
    (h : ∀ w, P.Holds w → (Q (f w.1.connection).1).Holds w) :
    Owes P (Client.onConnection (.act f)) Q := by
  refine owes_link fun w hfine hp => ?_
  obtain ⟨l, hl⟩ := hf w.1.connection
  rw [hl]
  have hleft : Left S before w (w.1.setConnection { w.1.connection with senders := l }, w.2) :=
    .of_same w.2 ⟨rfl, rfl, rfl⟩ rfl rfl rfl rfl
  exact ⟨⟨rfl, rfl, rfl, rfl⟩, rfl, (Q _).stable hfine hleft (h w hp)⟩

theorem owes_say {v : Json} {Q : Assertion (pact S before)}
    (h : ∀ w, P.Holds w → Q.Holds (w.1.setConnection
      { w.1.connection with outbox := w.1.connection.outbox ++ [.message v] }, w.2.more [v])) :
    Owes P (Client.onConnection (post (.message v))) fun queued =>
      (Assertion.fact (queued = true)).and Q := by
  have hjoin : Owes P (Client.onConnection (.act joinSenders)) fun _ => P :=
    owes_senders (fun _ => ⟨_, rfl⟩) fun _ hp => hp
  refine owes_link_bind hjoin fun ticket => ?_
  have hturn : Owes P (.until_ fun c : Client => c.connection.admits ticket) fun _ => P :=
    owes_until fun _ _ hp _ => hp
  have hqueue : Owes P (Client.onConnection (.act (enqueue (.message v)))) fun queued =>
      (Assertion.fact (queued = true)).and Q := by
    refine owes_act (f := fun c : Client => ((c.connection.enqueue (.message v)).1,
      c.setConnection (c.connection.enqueue (.message v)).2)) fun c s hfine hp => ?_
    obtain ⟨hwriting, hstop⟩ := hfine.2 hfine.1
    let k : Connection := { c.connection with outbox := c.connection.outbox ++ [.message v] }
    have he : c.connection.enqueue (.message v) = (true, k) := if_pos hwriting
    rw [he]
    have houtbox : (c.setConnection k).connection.outbox =
        c.connection.outbox ++ [.message v] := rfl
    have hadded : added c (c.setConnection k) = [v] := added_append houtbox
    refine ⟨s.more [v], ⟨hfine.1, fun _ => ⟨hwriting, fun hm => ?_⟩⟩, ?_, rfl, h (c, s) hp⟩
    · exact (List.mem_append.mp hm).elim hstop fun hm => nomatch List.mem_singleton.mp hm
    · show s.more [v] = s.more (added c _)
      rw [hadded]
  have hbody : Owes P (Client.onConnection (Routine.bind (.until_ (admits ticket)) fun _ =>
      .act (enqueue (.message v)))) fun queued => (Assertion.fact (queued = true)).and Q :=
    owes_link_bind hturn fun _ => hqueue
  exact hbody.zoom_ensure fun queued =>
    owes_senders (f := fun c => (queued, c.leaveSenders ticket)) (fun _ => ⟨_, rfl⟩) fun _ hq => hq

section
variable (hid : id ∉ before) {method : String} {params : Option Json}

theorem owes_await : Owes (asked line limit N told id hid : Assertion (pact S before))
    (Client.onConnection (await id method)) fun result =>
      (Assertion.fact (result = concluded method limit (S told))).and
        (stands line limit (fun n => N n ∨ n = id) told (id + 1)) := by
  have hlimit : Owes (asked line limit N told id hid : Assertion (pact S before))
      (Client.onConnection (.read (·.callLimit))) fun l =>
        (Assertion.fact (l = limit)).and (asked line limit N told id hid) :=
    owes_link_look fun w _ hp => ⟨hp.1.limit, hp⟩
  refine owes_link_bind hlimit fun l => owes_fact fun hl => ?_
  subst hl
  have hwait : Owes (asked line l N told id hid : Assertion (pact S before))
      (Client.onConnection (.untilWithin (·.settled id) (milliseconds l))) fun b =>
        if b then .any fun answer => (Assertion.fact (S told = some answer)).and
          (answered line l N told id answer)
        else (Assertion.fact (S told = none)).and
          (stands line l (fun n => N n ∨ n = id) told (id + 1)) := by
    refine owes_waitOver (f := fun b => b) (fun w _ hp hready => ?_)
      fun c s s' hfine hp _ hover => ?_
    · have hgone : id ∉ w.1.connection.pending := by simpa [settled] using hready
      obtain ⟨-, answer, ha, hs⟩ := hp.2.2.resolve_left fun h => hgone h.1
      exact ⟨answer, hp.1.told ▸ hs, hp.1, hgone, ha⟩
    · obtain ⟨rfl, hs⟩ := hover
      exact ⟨hfine, hp.1.told ▸ hs, { hp.1 with }⟩
  refine owes_link_bind hwait fun b => ?_
  cases b with
  | true =>
    refine owes_any fun answer => owes_fact fun hs => owes_link_look fun w _ hp => ⟨?_, hp.1⟩
    show w.1.connection.outcome id method = _
    unfold Connection.outcome
    rw [hs, hp.2.2]
    cases answer with
    | result value => rfl
    | refused refusal => rfl
  | false => exact owes_fact fun hs => owes_done fun w _ hp => ⟨by rw [hs]; rfl, hp⟩

theorem owes_exchange
    (hlast : ∀ m ∈ told.getLast?, m.get? "id" ≠ some (.ofUInt64 id)) :
    Owes (registered line limit N told id hid hlast : Assertion (pact S before))
      (Client.onConnection (exchange id method params)) fun result =>
        (Assertion.fact (result =
          concluded method limit (S (told ++ [Message.request id method params])))).and
        (stands line limit (fun n => N n ∨ n = id) (told ++ [Message.request id method params])
          (id + 1)) := by
  have hlook : Owes (registered line limit N told id hid hlast : Assertion (pact S before))
      (Client.onConnection (.read (·.closed))) fun closed =>
        (Assertion.fact (closed = false)).and (registered line limit N told id hid hlast) :=
    owes_link_look fun w hfine hp => ⟨hfine.1, hp⟩
  refine owes_link_bind hlook fun closed => owes_fact fun hclosed => ?_
  subst hclosed
  have hsay : Owes (registered line limit N told id hid hlast : Assertion (pact S before))
      (Client.onConnection (post (.message (Message.request id method params)))) fun queued =>
        (Assertion.fact (queued = true)).and
          (asked line limit N (told ++ [Message.request id method params]) id hid) :=
    owes_say fun w hp => ⟨{ hp.1 with
      only := ⟨hp.1.only.pending, hp.1.only.answers⟩
      told := congrArg (· ++ _) hp.1.told }, rfl, .inl hp.2⟩
  refine owes_link_bind hsay fun queued => owes_fact fun hqueued => ?_
  subst hqueued
  exact owes_await hid

/-- A call ends in what the conduct says to it. -/
theorem owes_call (hid : id ∉ before) (hfree : ¬ N id)
    (hlast : ∀ m ∈ told.getLast?, m.get? "id" ≠ some (.ofUInt64 id)) :
    Owes (stands line limit N told id : Assertion (pact S before)) (Client.call method params)
      fun result => (Assertion.fact (result =
          concluded method limit (S (told ++ [Message.request id method params])))).and
        (stands line limit N (told ++ [Message.request id method params]) (id + 1)) := by
  have hregister : Owes (stands line limit N told id : Assertion (pact S before))
      (Client.onConnection (.act register)) fun n =>
        (Assertion.fact (n = id)).and (registered line limit N told id hid hlast) := by
    refine owes_link fun w _ hp => ?_
    obtain rfl : w.1.connection.nextId = id := hp.nextId
    obtain ⟨hwaits, honly⟩ := waits_register (g := []) hp.only hfree
    have hmem : w.1.connection.nextId ∈ w.1.connection.register.2.pending :=
      List.mem_append_right _ List.mem_cons_self
    exact ⟨⟨rfl, rfl, rfl, rfl⟩, rfl, rfl, { hp with only := honly, nextId := rfl },
      hwaits.resolve_right fun h => h.1 hmem⟩
  refine owes_link_bind hregister fun n => owes_fact fun hn => ?_
  subst hn
  refine (owes_exchange hid hlast).zoom_ensure fun result => ?_
  refine owes_link (f := fun c => (result, c.forget n)) fun w _ hp =>
    ⟨⟨rfl, rfl, rfl, rfl⟩, rfl, hp.1, { hp.2 with only := only_forget hp.2.only }⟩

end

def requested (method : String) (limit : UInt64) (read : Json → Decoded α)
    (answer : Option Answer) : Except ClientError α :=
  match concluded method limit answer with
  | .ok value => (read value).mapError (.decode method)
  | .error fault => .error fault

/-- The time of a client is not over when a request fails. -/
theorem not_isLifecycle {method : String} {limit : UInt64} {read : Json → Decoded α}
    {answer : Option Answer} {fault : ClientError}
    (h : requested method limit read answer = .error fault) : fault.isLifecycle = false := by
  cases answer with
  | none => exact Except.error.inj h ▸ rfl
  | some answer =>
    cases answer with
    | refused refusal => exact Except.error.inj h ▸ rfl
    | result value =>
      replace h : (read value).mapError (.decode method) = .error fault := h
      cases hread : read value with
      | ok a =>
        rw [hread] at h
        cases h
      | error e =>
        rw [hread] at h
        exact Except.error.inj h ▸ rfl

theorem owes_request {method : String} {params : Json} {read : Json → Decoded α} (hid : id ∉ before)
    (hfree : ¬ N id) (hlast : ∀ m ∈ told.getLast?, m.get? "id" ≠ some (.ofUInt64 id)) :
    Owes (stands [] limit N told id : Assertion (pact S before)) (Client.request method params read)
      fun result => (Assertion.fact (result = requested method limit read
          (S (told ++ [Message.request id method (some params)])))).and
        (stands [] limit N (told ++ [Message.request id method (some params)]) (id + 1)) := by
  refine (owes_lockedLook (φ := fun l => l = .initialized) fun _ hl => hl).bind fun l =>
    owes_fact fun hl => ?_
  subst hl
  refine (owes_call hid hfree hlast).bind fun result => owes_fact fun hresult => ?_
  unfold requested
  rw [← hresult]
  cases result with
  | ok value => exact owes_done fun _ _ hp => ⟨rfl, hp⟩
  | error fault => exact owes_done fun _ _ hp => ⟨rfl, hp⟩

/-! ## along its way -/

structure Under (Q : α → Assertion (pact S before)) (q : Inquiry α) : Prop where
  fine : (pact S before).Fine (q.client, q.said)
  keeps : q.rest.Keeps (pact S before).terms Routine.dropAny
    (fun a w => (pact S before).Fine w ∧ (Q a).Holds w) (q.client, q.said)

variable {q : Inquiry α}

theorem under_start {c : Client} {r : Routine Client α} (h : Owes P r Q)
    (hfine : (pact S before).Fine (c, {})) (hp : P.Holds (c, {})) : Under Q (start c r) :=
  ⟨hfine, h.keeps _ hfine hp⟩

theorem Under.go (h : Under Q q) {elapsed : Nat}
    (hs : q.rest.expired elapsed q.client = true → S q.said.told = none) :
    Under Q (q.go elapsed) := by
  have hself : added q.client q.client = [] := added_append (List.append_nil _).symm
  have hsaid := said_go elapsed q
  suffices ∃ s, (q.go elapsed).said = s ∧
      (pact S before).Fine ((q.rest.poll elapsed q.client).1, s) ∧
      (q.rest.poll elapsed q.client).2.Keeps (pact S before).terms Routine.dropAny
        (fun a w => (pact S before).Fine w ∧ (Q a).Holds w) ((q.rest.poll elapsed q.client).1, s) by
    obtain ⟨s, rfl, hfine, hk⟩ := this
    exact ⟨hfine, hk⟩
  cases he : q.rest.expired elapsed q.client with
  | true =>
    obtain ⟨hc, hk⟩ := h.keeps.expired elapsed he ⟨rfl, hs he⟩
    rw [he, hc, hself, Said.more_nil] at hsaid
    rw [hc]
    exact ⟨q.said.lapsed, hsaid, h.fine, hk⟩
  | false =>
    obtain ⟨s, hmove, hk⟩ := h.keeps.poll elapsed he
    rw [he] at hsaid
    rcases hmove with ⟨hc, rfl⟩ | hmove
    · rw [hc, hself] at hsaid
      rw [hc] at hk ⊢
      exact ⟨q.said, hsaid.trans (Said.more_nil _), h.fine, hk⟩
    · obtain ⟨hfine, hmay⟩ := hmove h.fine
      exact ⟨s, hsaid.trans hmay.symm, hfine, hk⟩

theorem Under.apply (h : Under Q q) {e : Event} (he : q.Heeds S before e) :
    Under Q (q.apply e) := by
  cases hg : e.isGo with
  | true =>
    cases e with
    | go elapsed => exact h.go he.silence
    | _ => cases hg
  | false =>
    have hopened := he.opened
    rw [apply_happen q hg] at hopened ⊢
    have hkept := kept_happen q.client [] e
    have hfine : (pact S before).Fine (e.happen q.client, q.said) :=
      ⟨hopened, hkept.link.writes h.fine.2⟩
    exact ⟨hfine, h.keeps.rely fun _ => ⟨hfine, left_happen he⟩⟩

theorem Under.run (h : Under Q q) {events : List Event} (he : Follows S before q events) :
    Under Q (q.run events) := by
  induction events generalizing q with
  | nil => exact h
  | cons e events ih => exact ih (h.apply he.1) he.2

theorem Under.result (h : Under Q q) {a : α} (ha : q.result? = some a) :
    (Q a).Holds (q.client, q.said) := by
  have hkeeps := h.keeps
  unfold result? at ha
  split at ha
  next b hr =>
    obtain rfl := Option.some.inj ha
    rw [hr] at hkeeps
    exact (hkeeps _ ((pact S before).terms.refl _)).2
  · cases ha

end

end Inquiry

end Course

end CodeBridge
