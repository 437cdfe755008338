import CodeBridge.Proofs.Service.Owes

/-!
# Requests of a call

What the parts of a call that talk to the server owe, and what they end in: messages are queued,
a request ends in what the server answers from the text that it was told, and the client's lock
keeps one call at a time at the list of documents.
-/

namespace CodeBridge

namespace Meeting
variable {m : Meeting} {x : Side}

/-! ## what a call knows -/

/-- How far a call is that has not written: what it has read of the file, how many requests it has
made, and whether it holds the document. -/
structure Phase (m : Meeting) (x : Side) (read : Except IoError String) (made : Nat)
    (held : Bool) (v : View) : Prop where
  unwritten : x ∉ v.notes.written
  staged : v.notes.staged x = []
  /-- nobody has changed a file, unless there is another call -/
  solo : m.jobs x.other = none → v.disk = m.before
  known : m.Known x v.notes.written read
  requests : v.notes.requests x = made
  holding : v.notes.holding x = held
  told : held = true → ∃ text, read = .ok text ∧ m.told v = some text

namespace Assertion

def phase (read : Except IoError String) (made : Nat) (held : Bool) : Assertion m x where
  Holds := m.Phase x read made held
  stable hs hk h :=
    { unwritten := hk.not_mem h.unwritten
      staged := hk.staged.trans h.staged
      solo := fun hj => (hk.files.solo hj).trans (h.solo hj)
      known := hk.known hs h.unwritten h.known
      requests := hk.requests.trans h.requests
      holding := hk.holding.trans h.holding
      told := fun hh => by
        obtain ⟨text, hr, ht⟩ := h.told hh
        exact ⟨text, hr, (hk.told (h.holding.trans hh)).trans ht⟩ }
  senders _ h := { h with }

def locks (ticket : Nat) : Assertion m x where
  Holds := Locks x ticket
  stable _ hk h := ⟨hk.ticket.trans h.1, (hk.locked ticket h.1 h.2).1⟩
  senders _ h := h

/-- With the lock it knows whether the other call holds the document. -/
def locksBeside (ticket : Nat) (held : Bool) : Assertion m x where
  Holds v := Locks x ticket v ∧ v.notes.holding x.other = held
  stable _ hk h :=
    have hl := hk.locked ticket h.1.1 h.1.2
    ⟨⟨hk.ticket.trans h.1.1, hl.1⟩, hl.2.1.trans h.2⟩
  senders _ h := h

/-- With the lock it knows what the server was told. -/
def locksTold (ticket : Nat) (held : Bool) (text : String) : Assertion m x where
  Holds v := (Locks x ticket v ∧ v.notes.holding x.other = held) ∧ m.told v = some text
  stable _ hk h :=
    have hl := hk.locked ticket h.1.1.1 h.1.1.2
    ⟨⟨⟨hk.ticket.trans h.1.1.1, hl.1⟩, hl.2.1.trans h.1.2⟩, hl.2.2.trans h.2⟩
  senders _ h := h

def ticket (n : Nat) : Assertion m x where
  Holds v := v.notes.ticket x = some n
  stable _ hk h := hk.ticket.trans h
  senders _ h := h

def waits (id : UInt64) (response : Option Response) (settled : Bool) : Assertion m x where
  Holds v := v.notes.current x = some id ∧ m.Waits id response settled v
  stable _ hk h := ⟨hk.current.trans h.1, hk.waits id response settled h.1 h.2⟩
  senders _ h := ⟨h.1, ⟨h.2.there, h.2.answers, h.2.replies⟩⟩

end Assertion

/-! ## messages -/

section
variable {P Q : Assertion m x}

theorem owes_post (message : Outgoing)
    (h : ∀ v, m.Sound v → P.Holds v → m.Move x v (v.send message) ∧ Q.Holds (v.send message)) :
    Owes P (m.onLink (Connection.post message)) fun b => (Assertion.fact (b = true)).and Q := by
  have hjoin : Owes P (m.onLink (.act Connection.joinSenders)) fun _ => P :=
    owes_link_act fun v hs hp => ⟨v.notes, move_senders hs _, P.senders _ hp⟩
  refine hjoin.link_bind fun ticket => ?_
  have hturn : Owes P (m.onLink (.until_ (Connection.admits ticket))) fun _ => P :=
    owes_link_until fun _ _ hp _ => hp
  have hbody : Owes P (m.onLink (Routine.bind (.until_ (Connection.admits ticket)) fun _ =>
      .act (Connection.enqueue message))) fun b => (Assertion.fact (b = true)).and Q := by
    refine hturn.link_bind fun _ => owes_link_act fun v hs hp => ⟨v.notes, ?_⟩
    have he : v.client.connection.enqueue message = (true, _) := if_pos hs.writing
    rw [he]
    obtain ⟨hmove, hq⟩ := h v hs hp
    exact ⟨hmove, rfl, hq⟩
  exact hbody.link_ensure fun b v hs hq => ⟨v.notes, move_senders hs _, hq.1, Q.senders _ hq.2⟩

theorem owes_notify (method : String) (params : Json)
    (h : ∀ v, m.Sound v → P.Holds v →
      m.Move x v (v.send (.message (Message.notification method (some params)))) ∧
        Q.Holds (v.send (.message (Message.notification method (some params))))) :
    Owes P (Host.onClient m.client (Client.notify method (some params))) fun r =>
      (Assertion.fact (r = .ok ())).and Q := by
  show Owes P (m.onLink _) _
  have hlook : Owes P (m.onLink (.read (·.closed))) fun closed =>
      (Assertion.fact (closed = false)).and P :=
    owes_link_read fun v hs hp => ⟨hs.closed, hp⟩
  refine hlook.link_bind fun closed => owes_fact fun hc => ?_
  subst hc
  refine (owes_post _ h).link_bind fun queued => owes_fact fun hq => ?_
  subst hq
  exact owes_done fun v hs hq => ⟨rfl, hq⟩

end

/-! ## calls -/

theorem answer?_of_waits {id : UInt64} {r : Response} {v : View} (h : m.Waits id (some r) true v) :
    v.client.connection.answer? id = some r.answer := by
  obtain ⟨hf, -⟩ | ⟨a, ha, e⟩ := h.there
  · cases hf
  · unfold Connection.answer?
    cases hfind : v.client.connection.answers.find? fun a => a.1 = id with
    | none => exact absurd (decide_eq_true e) (List.find?_eq_none.mp hfind a ha)
    | some b =>
      have hb := List.find?_some hfind
      obtain ⟨r', hr, hanswer⟩ := h.answers b (List.mem_of_find?_eq_some hfind) (of_decide_eq_true hb)
      obtain rfl := Option.some.inj hr
      exact congrArg some hanswer

theorem outcome_of_waits {id : UInt64} {r : Response} {v : View} (method : String)
    (h : m.Waits id (some r) true v) :
    v.client.connection.outcome id method = r.outcome method := by
  unfold Connection.outcome Response.outcome
  rw [answer?_of_waits h]
  cases r.answer with
  | result value => rfl
  | refused refusal => rfl

section
variable {text : String} {made : Nat}

theorem owes_register (hmade : made < 2) :
    Owes (.phase (.ok text) made true : Assertion m x) (m.onLink (.act Connection.register))
      fun id => (Assertion.phase (.ok text) (made + 1) true).and (.waits id none false) := by
  refine owes_link_act fun v hs hp => ⟨(v.register x).notes, ?_, ?_, ?_⟩
  · exact move_register hs (hp.requests ▸ hmade)
  · exact { hp with requests := (Side.set_self ..).trans (congrArg (· + 1) hp.requests) }
  · refine ⟨Side.set_self .., .inl ⟨rfl, List.mem_append_right _ List.mem_cons_self⟩, ?_, ?_⟩
    · exact fun a ha e => absurd e (ne_nextId hs (hs.answers a ha))
    · exact fun p hp e => absurd e (ne_nextId hs (hs.replies p hp))

variable (method : String) (params : Json)

/-- The request is queued, and with it the answer that the server has for it. -/
theorem owes_request (id : UInt64) (hp : documentOf? (some params) = some m.site.uri) :
    Owes ((Assertion.phase (.ok text) made true : Assertion m x).and (.waits id none false))
      (m.onLink (Connection.post (.message (Message.request id method (some params)))))
      fun b => (Assertion.fact (b = true)).and ((Assertion.phase (.ok text) made true).and
        (.waits id (some (m.site.answering method (some params) (some text))) false)) := by
  refine owes_post _ fun v hs ⟨hphase, hc, hw⟩ => ⟨move_request hs hc method params hp, ?_⟩
  have hheard := heard_request (m := m) v id method params hp
  have htold : m.told v = some text := by
    obtain ⟨_, hr, ht⟩ := hphase.told rfl
    exact Except.ok.inj hr ▸ ht
  refine ⟨{ hphase with told := fun _ => ⟨text, rfl, ?_⟩ }, hc, ⟨hw.there, fun a ha e => ?_, fun p hp e => ?_⟩⟩
  · show (m.heard _).text? _ = _
    rw [hheard]
    exact htold
  · obtain ⟨_, hr, -⟩ := hw.answers a ha e
    cases hr
  · rw [hheard, htold] at hp
    rcases List.mem_append.mp hp with hp | hp
    · cases hw.replies p hp e
    · rw [List.mem_singleton.mp hp]

theorem owes_await (id : UInt64) (r : Response) :
    Owes ((Assertion.phase (.ok text) made true : Assertion m x).and (.waits id (some r) false))
      (m.onLink (Connection.await id method))
      fun result => (Assertion.fact (result = r.outcome method)).and
        ((Assertion.phase (.ok text) made true).and (.waits id (some r) true)) := by
  have hlimit : Owes ((Assertion.phase (.ok text) made true : Assertion m x).and
      (.waits id (some r) false)) (m.onLink (.read (·.callLimit))) fun _ =>
        (Assertion.phase (.ok text) made true).and (.waits id (some r) false) :=
    owes_link_read fun _ _ hp => hp
  refine hlimit.link_bind fun limit => ?_
  have hwait : Owes ((Assertion.phase (.ok text) made true : Assertion m x).and
      (.waits id (some r) false))
      (m.onLink (.untilWithin (·.settled id) (Connection.milliseconds limit))) fun b =>
        (Assertion.fact (b = true)).and
          ((Assertion.phase (.ok text) made true).and (.waits id (some r) true)) := by
    refine owes_link_untilWithin fun v hs ⟨hphase, hc, hw⟩ hready => ?_
    have hgone : id ∉ v.client.connection.pending := by
      simpa [Connection.settled] using hready
    exact ⟨hphase, hc, .inr (hw.there.resolve_left fun h => hgone h.2), hw.answers, hw.replies⟩
  refine hwait.link_bind fun b => owes_fact fun hb => ?_
  subst hb
  exact owes_link_read fun v _ hp => ⟨outcome_of_waits method hp.2.2, hp⟩

theorem owes_exchange (id : UInt64) (hp : documentOf? (some params) = some m.site.uri) :
    Owes ((Assertion.phase (.ok text) made true : Assertion m x).and (.waits id none false))
      (m.onLink (Connection.exchange id method (some params)))
      fun result =>
        let response := m.site.answering method (some params) (some text)
        (Assertion.fact (result = response.outcome method)).and
          ((Assertion.phase (.ok text) made true).and (.waits id (some response) true)) := by
  have hlook : Owes ((Assertion.phase (.ok text) made true : Assertion m x).and
      (.waits id none false)) (m.onLink (.read (·.closed))) fun closed =>
        (Assertion.fact (closed = false)).and
          ((Assertion.phase (.ok text) made true).and (.waits id none false)) :=
    owes_link_read fun v hs hp => ⟨hs.closed, hp⟩
  refine hlook.link_bind fun closed => owes_fact fun hc => ?_
  subst hc
  refine (owes_request method params id hp).link_bind fun queued => owes_fact fun hq => ?_
  subst hq
  exact owes_await method id _

/-- A call ends in what the server answers from the text that the call has read. -/
theorem owes_call (hmade : made < 2) (hp : documentOf? (some params) = some m.site.uri) :
    Owes (.phase (.ok text) made true : Assertion m x)
      (Host.onClient m.client (Client.call method (some params)))
      fun result => (Assertion.fact (result =
          (m.site.answering method (some params) (some text)).outcome method)).and
        (.phase (.ok text) (made + 1) true) := by
  show Owes _ (m.onLink _) _
  refine (owes_register hmade).link_bind fun id => ?_
  refine (owes_exchange method params id hp).link_ensure fun result v hs hq => ⟨v.notes, ?_, ?_⟩
  · exact move_forget hs hq.2.2.1
  · exact ⟨hq.1, { hq.2.1 with }⟩

end

/-! ## the client's lock -/

theorem owes_locked {α : Type} {read : Except IoError String} {made made' : Nat}
    {held held' : Bool} {body : Routine Client α} {φ : α → Prop}
    (h : ∀ ticket, Owes ((Assertion.phase read made held : Assertion m x).and (.locks ticket))
      (Host.onClient m.client body) fun a => (Assertion.fact (φ a)).and
        ((Assertion.phase read made' held').and (.ticket ticket))) :
    Owes (.phase read made held : Assertion m x) (Host.onClient m.client (Client.locked body))
      fun a => (Assertion.fact (φ a)).and (.phase read made' held') := by
  have hjoin : Owes (.phase read made held : Assertion m x)
      (Host.onClient m.client (.act fun c => (c.lock.join.1, c.setLock c.lock.join.2)))
      fun ticket => (Assertion.phase read made held).and (.ticket ticket) :=
    owes_client_act fun v hs hp => ⟨(v.join x).notes, move_join hs, { hp with }, Side.set_self ..⟩
  refine hjoin.client_bind fun ticket => ?_
  have hturn : Owes ((Assertion.phase read made held : Assertion m x).and (.ticket ticket))
      (Host.onClient m.client (.until_ fun c => c.lock.holds ticket)) fun _ =>
        (Assertion.phase read made held).and (.locks ticket) :=
    owes_client_until fun v _ hp hready => ⟨hp.1, hp.2, hready⟩
  refine (hturn.client_bind fun _ => h ticket).client_ensure fun a v hs hq => ⟨v.notes, ?_, ?_⟩
  · exact move_leave hs hq.2.2
  · exact ⟨hq.1, { hq.2.1 with }⟩

/-! ## requests -/

section
variable {text : String} {made : Nat}

theorem owes_readLifecycle {read : Except IoError String} {held : Bool} :
    Owes (.phase read made held : Assertion m x) (Host.onClient m.client Client.readLifecycle)
      fun lifecycle => (Assertion.fact (lifecycle = .initialized)).and (.phase read made held) :=
  owes_locked fun _ => owes_client_read fun _ hs hp => ⟨hs.lifecycle, hp.1, hp.2.1⟩

theorem owes_ask {α : Type} (method : String) (params : Json) (read : Json → Decoded α)
    (hmade : made < 2) (hp : documentOf? (some params) = some m.site.uri) :
    Owes (.phase (.ok text) made true : Assertion m x)
      (Host.onClient m.client (Client.request method params read))
      fun result => (Assertion.fact (result = m.site.answered method params read text)).and
        (.phase (.ok text) (made + 1) true) := by
  refine owes_readLifecycle.client_bind fun lifecycle => owes_fact fun hl => ?_
  subst hl
  refine (owes_call method params hmade hp).client_bind fun result => owes_fact fun hr => ?_
  cases hresult : result with
  | error fault =>
    refine owes_client_done fun v _ hq => ⟨?_, hq⟩
    unfold Site.answered
    rw [← hr, hresult]
    rfl
  | ok value =>
    refine owes_client_done fun v _ hq => ⟨?_, hq⟩
    unfold Site.answered
    rw [← hr, hresult]
    rfl

end

end Meeting

end CodeBridge
