import CodeBridge.Proofs.Service.Meeting

/-!
# The moves of a call

What a call does to the client and to what is noted, move by move: everything stays sound, and the
other call keeps what it relies on.

* `Move`                        a move that does both;
* `move_join`, `move_leave`     the client's lock;
* `move_register`, `move_request`, `move_forget`   a request;
* `move_didOpen`, `move_hold`, `move_drop`     the document.
-/

namespace CodeBridge

namespace View

def setSenders (l : Lock) (v : View) : View :=
  { v with client := v.client.setConnection { v.client.connection with senders := l } }

def join (x : Side) (v : View) : View :=
  { v with
    client := v.client.setLock v.client.lock.join.2
    notes := { v.notes with ticket := Side.set v.notes.ticket x (some v.client.lock.issued) } }

def leave (ticket : Nat) (v : View) : View :=
  { v with client := v.client.setLock (v.client.lock.leave ticket) }

def register (x : Side) (v : View) : View :=
  { v with
    client := v.client.setConnection v.client.connection.register.2
    notes := { v.notes with
      requests := Side.set v.notes.requests x (v.notes.requests x + 1)
      current := Side.set v.notes.current x (some v.client.connection.nextId) } }

def forget (id : UInt64) (v : View) : View :=
  { v with client := v.client.setConnection (v.client.connection.forget id) }

def send (message : Outgoing) (v : View) : View :=
  let c := v.client.connection
  { v with client := v.client.setConnection { c with outbox := c.outbox ++ [message] } }

def setHolding (x : Side) (held : Bool) (docs : List (String × Nat)) (v : View) : View :=
  { v with
    client := { v.client with openDocs := docs }
    notes := { v.notes with holding := Side.set v.notes.holding x held } }

end View

namespace Meeting
variable {m : Meeting} {x : Side} {v v' : View}

/-- A move of a call, as the other sees it. -/
structure Move (m : Meeting) (x : Side) (v v' : View) : Prop where
  sound : m.Sound v'
  kept : m.Kept x.other v v'
  server : v'.notes.server = v.notes.server

theorem Move.refl (h : m.Sound v) : m.Move x v v := ⟨h, .refl v, rfl⟩

/-- A move that touches neither the notes that a call relies on nor what is on its way. -/
theorem Kept.of_same (hwritten : v'.notes.written = v.notes.written)
    (hstaged : v'.notes.staged = v.notes.staged) (hdisk : v'.disk = v.disk)
    (hrequests : v'.notes.requests x = v.notes.requests x)
    (hcurrent : v'.notes.current x = v.notes.current x)
    (hticket : v'.notes.ticket x = v.notes.ticket x)
    (hholding : v'.notes.holding = v.notes.holding)
    (hlock : ∀ n, v.notes.ticket x = some n → v.client.lock.holds n = true →
      v'.client.lock.holds n = true)
    (hheard : m.heard v' = m.heard v)
    (hpending : ∀ id, v.notes.current x = some id → id ∈ v.client.connection.pending →
      id ∈ v'.client.connection.pending)
    (hanswers : ∀ id, v.notes.current x = some id → ∀ a : UInt64 × Answer, a.1 = id →
      (a ∈ v'.client.connection.answers ↔ a ∈ v.client.connection.answers)) :
    m.Kept x v v' where
  written := ⟨[], by rw [hwritten, List.append_nil], nofun⟩
  staged := congrFun hstaged x
  requests := hrequests
  current := hcurrent
  ticket := hticket
  holding := congrFun hholding x
  locked n ht hl := ⟨hlock n ht hl, congrFun hholding x.other,
    congrArg (Server.text? m.site.uri) hheard⟩
  told _ := congrArg (Server.text? m.site.uri) hheard
  waits id response settled hc hw := by
    refine ⟨hw.there.imp (fun h => ⟨h.1, hpending id hc h.2⟩) ?_, fun a ha e => ?_, fun p hp => ?_⟩
    · rintro ⟨a, ha, e⟩
      exact ⟨a, (hanswers id hc a e).mpr ha, e⟩
    · exact hw.answers a ((hanswers id hc a e).mp ha) e
    · rw [hheard] at hp
      exact hw.replies p hp
  files := by
    rw [hdisk]
    exact .refl v.disk

theorem move_senders (h : m.Sound v) (l : Lock) : m.Move x v (v.setSenders l) where
  sound := { h with }
  server := rfl
  kept := .of_same rfl rfl rfl rfl rfl rfl rfl (fun _ _ h => h) rfl (fun _ _ h => h)
    fun _ _ _ _ => Iff.rfl

/-! ## the client's lock -/

theorem move_join (h : m.Sound v) : m.Move x v (v.join x) where
  sound := { h with
    lockIssued := fun n hn => by
      rcases List.mem_append.mp hn with hn | hn
      · exact Nat.lt_succ_of_lt (h.lockIssued n hn)
      · exact List.mem_singleton.mp hn ▸ Nat.lt_succ_self _
    ticket := fun y n hy => by
      rcases x.eq_or_eq_other y with rfl | rfl
      · exact Option.some.inj ((Side.set_self ..).symm.trans hy) ▸ Nat.lt_succ_self _
      · exact Nat.lt_succ_of_lt (h.ticket _ n ((Side.set_other ..).symm.trans hy))
    tickets := fun y n hy ho => by
      rcases x.eq_or_eq_other y with rfl | rfl
      · obtain rfl := Option.some.inj ((Side.set_self ..).symm.trans hy)
        exact Nat.lt_irrefl _ (h.ticket _ _ ((Side.set_other ..).symm.trans ho))
      · rw [Side.other_other] at ho
        obtain rfl := Option.some.inj ((Side.set_self ..).symm.trans ho)
        exact Nat.lt_irrefl _ (h.ticket _ _ ((Side.set_other ..).symm.trans hy)) }
  server := rfl
  kept := .of_same rfl rfl rfl rfl rfl (Side.set_other ..) rfl
    (fun n _ => Lock.holds_join v.client.lock n) rfl (fun _ _ h => h) fun _ _ _ _ => Iff.rfl

theorem move_leave (h : m.Sound v) {ticket : Nat} (ht : v.notes.ticket x = some ticket) :
    m.Move x v (v.leave ticket) where
  sound := { h with
    lockIssued := fun n hn => h.lockIssued n (List.mem_filter.mp hn).1 }
  server := rfl
  kept := by
    refine .of_same rfl rfl rfl rfl rfl rfl rfl
      (fun n hn => Lock.holds_leave v.client.lock n ticket ?_) rfl (fun _ _ h => h)
      fun _ _ _ _ => Iff.rfl
    rintro rfl
    exact h.tickets x n ht hn

/-! ## requests -/

theorem total_le (h : m.Sound v) : v.notes.total ≤ 4 := by
  have hl := h.requests .left
  have hr := h.requests .right
  show v.notes.requests .left + v.notes.requests .right ≤ 4
  omega

theorem ne_nextId (h : m.Sound v) {id : UInt64} (hi : m.Issued v.notes id) :
    id ≠ v.client.connection.nextId := by
  obtain ⟨i, hi, rfl⟩ := hi
  have ht := total_le h
  rw [h.nextId]
  intro e
  have e' : UInt64.ofNat i = UInt64.ofNat v.notes.total := by grind
  replace e' := congrArg UInt64.toNat e'
  rw [UInt64.toNat_ofNat', UInt64.toNat_ofNat'] at e'
  omega

theorem total_register (v : View) (x : Side) : (v.register x).notes.total = v.notes.total + 1 := by
  rw [Notes.total_eq _ x, v.notes.total_eq x]
  show Side.set v.notes.requests x (v.notes.requests x + 1) x +
    Side.set v.notes.requests x (v.notes.requests x + 1) x.other = _
  rw [Side.set_self, Side.set_other]
  omega

theorem issued_register (x : Side) {id : UInt64} (hi : m.Issued v.notes id) :
    m.Issued (v.register x).notes id := by
  obtain ⟨i, hi, e⟩ := hi
  exact ⟨i, total_register v x ▸ Nat.lt_succ_of_lt hi, e⟩

theorem issued_nextId (h : m.Sound v) (x : Side) :
    m.Issued (v.register x).notes v.client.connection.nextId :=
  ⟨v.notes.total, total_register v x ▸ Nat.lt_succ_self _, h.nextId⟩

theorem move_register (h : m.Sound v) (hx : v.notes.requests x < 2) :
    m.Move x v (v.register x) where
  sound := { h with
    requests := fun y => by
      rcases x.eq_or_eq_other y with rfl | rfl
      · exact Nat.le_trans (Nat.le_of_eq (Side.set_self ..)) hx
      · exact Nat.le_trans (Nat.le_of_eq (Side.set_other ..)) (h.requests _)
    nextId := by
      show v.client.connection.nextId + 1 = _
      rw [total_register, h.nextId, UInt64.ofNat_add]
      exact UInt64.add_assoc _ _ _
    pending := fun id hid => by
      rcases List.mem_append.mp hid with hid | hid
      · exact issued_register x (h.pending id hid)
      · exact List.mem_singleton.mp hid ▸ issued_nextId h x
    answers := fun a ha => issued_register x (h.answers a ha)
    replies := fun p hp => issued_register x (h.replies p hp)
    current := fun y id hy => by
      rcases x.eq_or_eq_other y with rfl | rfl
      · exact Option.some.inj ((Side.set_self ..).symm.trans hy) ▸ issued_nextId h _
      · exact issued_register x (h.current _ id ((Side.set_other ..).symm.trans hy))
    currents := fun y id hy ho => by
      rcases x.eq_or_eq_other y with rfl | rfl
      · have hid := h.current _ id ((Side.set_other ..).symm.trans ho)
        exact ne_nextId h hid (Option.some.inj ((Side.set_self ..).symm.trans hy)).symm
      · have hid := h.current _ id ((Side.set_other ..).symm.trans hy)
        rw [Side.other_other] at ho
        exact ne_nextId h hid (Option.some.inj ((Side.set_self ..).symm.trans ho)).symm }
  server := rfl
  kept := .of_same rfl rfl rfl (Side.set_other ..) (Side.set_other ..) rfl rfl (fun _ _ h => h) rfl
    (fun _ _ h => List.mem_append_left _ h) fun _ _ _ _ => Iff.rfl

theorem move_forget (h : m.Sound v) {id : UInt64} (hc : v.notes.current x = some id) :
    m.Move x v (v.forget id) where
  sound := { h with
    pending := fun other hm => h.pending other (List.mem_filter.mp hm).1
    answers := fun a ha => h.answers a (List.mem_filter.mp ha).1 }
  server := rfl
  kept := by
    have hne : ∀ other, v.notes.current x.other = some other → other ≠ id := by
      rintro other ho rfl
      exact h.currents x other hc ho
    refine .of_same rfl rfl rfl rfl rfl rfl rfl (fun _ _ h => h) rfl (fun other ho hm => ?_)
      fun other ho a ha => ?_
    · exact List.mem_filter.mpr ⟨hm, decide_eq_true (hne other ho)⟩
    · refine ⟨fun hm => (List.mem_filter.mp hm).1, fun hm => List.mem_filter.mpr ⟨hm, ?_⟩⟩
      exact decide_eq_true (ha ▸ hne other ho)

theorem heard_send (v : View) (message : Outgoing) :
    m.heard (v.send message) = (m.heard v).hear m.site.answering message :=
  Server.after_concat m.site.answering v.notes.server _ message

theorem not_stop_send (h : m.Sound v) (message : Json) :
    .stop ∉ (v.send (.message message)).client.connection.outbox := fun hm =>
  (List.mem_append.mp hm).elim h.queued fun hm => nomatch List.mem_singleton.mp hm

/-- A request is queued, with the answer that it will have. -/
theorem heard_request (v : View) (id : UInt64) (method : String) (params : Json)
    (hp : documentOf? (some params) = some m.site.uri) :
    m.heard (v.send (.message (Message.request id method (some params)))) =
      { m.heard v with replies := (m.heard v).replies ++
          [(id, m.site.answering method (some params) (m.told v))] } := by
  rw [heard_send, Server.hear_request]
  unfold Server.hearRequest
  rw [hp]
  rfl

theorem move_request (h : m.Sound v) {id : UInt64} (hc : v.notes.current x = some id)
    (method : String) (params : Json) (hp : documentOf? (some params) = some m.site.uri) :
    m.Move x v (v.send (.message (Message.request id method (some params)))) := by
  have hheard := heard_request v id method params hp
  have htold : m.told (v.send (.message (Message.request id method (some params)))) = m.told v := by
    show (m.heard _).text? _ = _
    rw [hheard]
    rfl
  refine ⟨{ h with
    told := fun y hy hw => htold ▸ h.told y hy hw
    queued := not_stop_send h _
    replies := fun p hp => ?_ }, ?_, rfl⟩
  · rw [hheard] at hp
    rcases List.mem_append.mp hp with hp | hp
    · exact h.replies p hp
    · exact List.mem_singleton.mp hp ▸ h.current x id hc
  · refine ⟨⟨[], (List.append_nil _).symm, nofun⟩, rfl, rfl, rfl, rfl, rfl,
      fun _ _ hl => ⟨hl, rfl, htold⟩, fun _ => htold, fun other response settled ho hw => ?_,
      .refl v.disk⟩
    refine ⟨hw.there, hw.answers, fun p hp e => ?_⟩
    rw [hheard] at hp
    rcases List.mem_append.mp hp with hp | hp
    · exact hw.replies p hp e
    · rw [List.mem_singleton.mp hp] at e
      exact absurd (ho.trans (congrArg some e.symm)) (h.currents x id hc)

/-! ## the document -/

def Locks (x : Side) (ticket : Nat) (v : View) : Prop :=
  v.notes.ticket x = some ticket ∧ v.client.lock.holds ticket = true

theorem Locks.not_other {ticket n : Nat} (hl : Locks x ticket v) (h : m.Sound v)
    (ho : v.notes.ticket x.other = some n) : v.client.lock.holds n ≠ true := by
  intro hn
  obtain rfl := Lock.holds_unique hl.2 hn
  exact h.tickets x ticket hl.1 ho

/-- Whoever holds the document keeps what the server was told, as long as it is the only one. -/
theorem move_didOpen {ticket : Nat} (h : m.Sound v) (hl : Locks x ticket v)
    (hnone : ∀ y, v.notes.holding y = false) (languageId text : String) (version : Int32) :
    m.Move x v (v.send (.message (Message.notification "textDocument/didOpen"
      (some (Params.didOpen m.site.uri languageId version text))))) := by
  have hheard := heard_send (m := m) v (.message (Message.notification "textDocument/didOpen"
      (some (Params.didOpen m.site.uri languageId version text))))
  rw [Server.hear_didOpen] at hheard
  refine ⟨{ h with
    told := fun y hy _ => absurd hy (Bool.eq_false_iff.mp (hnone y))
    queued := not_stop_send h _
    replies := fun p hp => h.replies p (by rwa [hheard] at hp) }, ?_, rfl⟩
  refine ⟨⟨[], (List.append_nil _).symm, nofun⟩, rfl, rfl, rfl, rfl, rfl,
    fun n ho hn => absurd hn (hl.not_other h ho),
    fun hh => absurd hh (Bool.eq_false_iff.mp (hnone _)), fun id response settled _ hw => ?_,
    .refl v.disk⟩
  exact ⟨hw.there, hw.answers, fun p hp e => hw.replies p (by rwa [hheard] at hp) e⟩

theorem told_didOpen (v : View) (languageId text : String) (version : Int32) :
    m.told (v.send (.message (Message.notification "textDocument/didOpen"
      (some (Params.didOpen m.site.uri languageId version text))))) = some text := by
  show (m.heard _).text? _ = _
  rw [heard_send, Server.hear_didOpen]
  exact Server.text?_didOpen _ _ _

theorem move_didClose (h : m.Sound v) (uri : String) :
    m.Move x v (v.send (.message (Message.notification "textDocument/didClose"
      (some (Params.ofDocument uri))))) := by
  have hheard : m.heard (v.send (.message (Message.notification "textDocument/didClose"
      (some (Params.ofDocument uri))))) = m.heard v :=
    (heard_send v _).trans (Server.hear_didClose m.site.answering _ uri)
  exact ⟨{ h with
    told := fun y hy hw => by
      obtain ⟨text, ht, hb⟩ := h.told y hy hw
      exact ⟨text, (congrArg (Server.text? m.site.uri) hheard).trans ht, hb⟩
    queued := not_stop_send h _
    replies := fun p hp => h.replies p (by rwa [hheard] at hp) },
    .of_same rfl rfl rfl rfl rfl rfl rfl (fun _ _ h => h) hheard (fun _ _ h => h)
      fun _ _ _ _ => Iff.rfl, rfl⟩

theorem holders_setHolding (v : View) (x : Side) (held : Bool) (docs : List (String × Nat)) :
    (v.setHolding x held docs).notes.holders =
      held.toNat + (v.notes.holding x.other).toNat := by
  rw [Notes.holders_eq _ x]
  show (Side.set v.notes.holding x held x).toNat +
    (Side.set v.notes.holding x held x.other).toNat = _
  rw [Side.set_self, Side.set_other]

/-- With the lock a call takes hold of a document that is open with the text that it has read. -/
theorem move_hold {ticket : Nat} {text : String} (h : m.Sound v) (hl : Locks x ticket v)
    (hx : x ∉ v.notes.written) (hk : m.Known x v.notes.written (.ok text))
    (ht : m.told v = some text) (docs : List (String × Nat))
    (hd : docs = docsOf m.site.uri (1 + (v.notes.holding x.other).toNat)) :
    m.Move x v (v.setHolding x true docs) where
  sound := { h with
    unwritten := fun y hy => by
      rcases x.eq_or_eq_other y with rfl | rfl
      · exact hx
      · exact h.unwritten _ ((Side.set_other ..).symm.trans hy)
    docs := by rw [holders_setHolding]; exact hd
    told := fun y hy hw => by
      rcases hk with hk | ⟨hw', -⟩
      · exact ⟨text, ht, hk.symm⟩
      · rw [show v.notes.written = [] from hw] at hw'
        cases hw' }
  server := rfl
  kept := ⟨⟨[], (List.append_nil _).symm, nofun⟩, rfl, rfl, rfl, rfl, Side.set_other ..,
    fun n ho hn => absurd hn (hl.not_other h ho), fun _ => rfl,
    fun _ _ _ _ hw => ⟨hw.there, hw.answers, hw.replies⟩, .refl v.disk⟩

theorem move_drop {ticket : Nat} (h : m.Sound v) (hl : Locks x ticket v)
    (docs : List (String × Nat))
    (hd : docs = docsOf m.site.uri (v.notes.holding x.other).toNat) :
    m.Move x v (v.setHolding x false docs) where
  sound := { h with
    unwritten := fun y hy => by
      rcases x.eq_or_eq_other y with rfl | rfl
      · cases (Side.set_self ..).symm.trans hy
      · exact h.unwritten _ ((Side.set_other ..).symm.trans hy)
    docs := by rw [holders_setHolding, Bool.toNat_false, Nat.zero_add]; exact hd
    told := fun y hy hw => by
      rcases x.eq_or_eq_other y with rfl | rfl
      · cases (Side.set_self ..).symm.trans hy
      · exact h.told _ ((Side.set_other ..).symm.trans hy) hw }
  server := rfl
  kept := ⟨⟨[], (List.append_nil _).symm, nofun⟩, rfl, rfl, rfl, rfl, Side.set_other ..,
    fun n ho hn => absurd hn (hl.not_other h ho), fun _ => rfl,
    fun _ _ _ _ hw => ⟨hw.there, hw.answers, hw.replies⟩, .refl v.disk⟩

end Meeting

end CodeBridge
