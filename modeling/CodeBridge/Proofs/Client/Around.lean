import CodeBridge.Proofs.Client.Course
import CodeBridge.Proofs.Client.Marks
import CodeBridge.Proofs.Concurrency.Pact
import CodeBridge.Proofs.Connection.Table

/-!
# What goes on around an operation

While an operation stays where it is the reader and the writer take their turns, and the server does
what it likes.  All of this leaves the client's own affairs alone.

* `Continues`   the connection goes on or goes down, and nothing is noted that is an operation's own;
* `Tabled`      calls are answered or given up, and no new ones enter the table;
* `Around`      both, as for every event that is no move of the operation: `around_happen`;
* `Calm`, `Kept`   the same for the client, without and with the table and the lock.
-/

namespace CodeBridge

namespace Course

open Connection

/-- A connection, and what has been noted since the operation began. -/
abbrev Link := Connection × List Item

/-- A client, and what has been noted since the operation began. -/
abbrev World := Client × List Item

def World.link (w : World) : Link := (w.1.connection, w.2)

/-! ## the connection -/

end Course

/-- What never changes about a connection. -/
def Connection.constants (c : Connection) : UInt64 × Option IoError × Option IoError :=
  (c.callLimit, c.waitFault, c.killFault)

namespace Course

open Connection

structure Continues (u u' : Link) : Prop where
  constants : u'.1.constants = u.1.constants
  closed : u.1.closed = true → u'.1.closed = true
  writing : u.1.writing = false → u'.1.writing = false
  writes : u.1.Writes → u'.1.Writes
  notes : ∃ more, u'.2 = u.2 ++ more ∧ ∀ i ∈ more, i.isOwn = false
  lost : u'.1.closed = true → u.1.closed = true ∨ .lost ∈ u'.2

namespace Continues
variable {u v w : Link} {c c' : Connection} {g : List Item}

theorem mem (h : Continues u v) {i : Item} (hi : i ∈ u.2) : i ∈ v.2 := by
  obtain ⟨more, e, -⟩ := h.notes
  rw [e]
  exact List.mem_append_left more hi

theorem tolds_eq (h : Continues u v) : tolds v.2 = tolds u.2 := by
  obtain ⟨more, e, ho⟩ := h.notes
  rw [e, tolds_append, tolds_eq_nil more ho, List.append_nil]

theorem trans (h : Continues u v) (h' : Continues v w) : Continues u w where
  constants := h'.constants.trans h.constants
  closed hc := h'.closed (h.closed hc)
  writing hw := h'.writing (h.writing hw)
  writes hw := h'.writes (h.writes hw)
  notes := by
    obtain ⟨more, e, ho⟩ := h.notes
    obtain ⟨more', e', ho'⟩ := h'.notes
    refine ⟨more ++ more', by rw [e', e, List.append_assoc], fun i hi => ?_⟩
    exact (List.mem_append.mp hi).elim (ho i) (ho' i)
  lost hc := (h'.lost hc).elim (fun hc => (h.lost hc).imp id h'.mem) .inr

theorem of_same (hconstants : c'.constants = c.constants) (hclosed : c'.closed = c.closed)
    (hwriting : c'.writing = c.writing) (houtbox : c'.outbox = c.outbox) :
    Continues (c, g) (c', g) where
  constants := hconstants
  closed hc := hclosed.trans hc
  writing hw := hwriting.trans hw
  writes hw hc := by
    rw [hwriting, houtbox]
    exact hw (hclosed.symm.trans hc)
  notes := ⟨[], (List.append_nil g).symm, nofun⟩
  lost hc := .inl (hclosed.symm.trans hc)

theorem refl (u : Link) : Continues u u := of_same rfl rfl rfl rfl

end Continues

section
variable (c : Connection) (g : List Item)

theorem continues_note (more : List Item) (ho : ∀ i ∈ more, i.isOwn = false) :
    Continues (c, g) (c, g ++ more) :=
  { Continues.refl (c, g) with notes := ⟨more, rfl, ho⟩, lost := fun hc => .inl hc }

theorem continues_enqueue (v : Json) : Continues (c, g) ((c.enqueue (.message v)).2, g) := by
  unfold enqueue
  split
  next hw =>
    refine { Continues.refl (c, g) with
      writing := id, writes := fun h hc => ⟨hw, fun hm => ?_⟩, lost := .inl }
    rcases List.mem_append.mp hm with hm | hm
    · exact (h hc).2 hm
    · cases List.mem_singleton.mp hm
  · exact .refl _

theorem continues_release : Continues (c, g) (c.release, g) := by
  unfold release
  split
  · exact .refl _
  next ticket reply _ =>
    split
    · exact (continues_enqueue c g reply).trans (.of_same rfl rfl rfl rfl)
    · exact .refl _

theorem continues_reply (message : Json) : Continues (c, g) (c.reply message, g) := by
  have hwithhold : Continues (c, g)
      ({ c.joinSenders.2 with withheld := some (c.joinSenders.1, message) }, g) :=
    .of_same rfl rfl rfl rfl
  exact hwithhold.trans (continues_release _ g)

theorem continues_complete (id : UInt64) (answer : Answer) :
    Continues (c, g) (c.complete id answer, g) := by
  unfold complete
  split
  · exact .of_same rfl rfl rfl rfl
  · exact .refl _

/-- The connection goes down, with what is left to write. -/
theorem continues_down {c' : Connection} (hconstants : c'.constants = c.constants)
    (hclosed : c'.closed = true) (hwriting : c.writing = false → c'.writing = false) :
    Continues (c, g) (c', g ++ loss c c') where
  constants := hconstants
  closed _ := hclosed
  writing := hwriting
  writes _ hc := absurd (hclosed.symm.trans hc) nofun
  notes := by
    refine ⟨_, rfl, fun i hi => ?_⟩
    unfold loss at hi
    split at hi
    · rw [List.mem_singleton.mp hi]
      rfl
    · cases hi
  lost _ := by
    cases hc : c.closed with
    | true => exact .inl rfl
    | false =>
      refine .inr (List.mem_append_right g ?_)
      have hloss : loss c c' = [.lost] := if_pos ⟨hc, hclosed⟩
      rw [hloss]
      exact List.mem_cons_self

end

/-! ## the table -/

def Got (id : UInt64) (answer : Answer) (items : List Item) : Prop :=
  ∃ v, .heard v ∈ items ∧ v.Answers id ∧ Answer.ofBody v = answer

structure Only (S : UInt64 → Prop) (c : Connection) : Prop where
  pending : ∀ id ∈ c.pending, S id
  answers : ∀ a ∈ c.answers, S a.1

/-- A call has its answer, or the connection went down before there was one. -/
def Concluded (id : UInt64) (u : Link) : Prop :=
  id ∉ u.1.pending ∧ (u.1.answer? id = none ∧ u.1.closed = true ∨
    ∃ answer, u.1.answer? id = some answer ∧ Got id answer u.2)

/-- It may also wait yet. -/
def Waits (id : UInt64) (u : Link) : Prop :=
  id ∈ u.1.pending ∧ u.1.answer? id = none ∨ Concluded id u

structure Tabled (u u' : Link) : Prop where
  nextId : u'.1.nextId = u.1.nextId
  pending : ∀ id ∈ u'.1.pending, id ∈ u.1.pending
  answers : ∀ a ∈ u'.1.answers, a ∈ u.1.answers ∨ a.1 ∈ u.1.pending
  concluded : ∀ id, Concluded id u → Concluded id u'
  waits : ∀ id, Waits id u → Waits id u'

namespace Tabled
variable {u v w : Link}

theorem trans (h : Tabled u v) (h' : Tabled v w) : Tabled u w where
  nextId := h'.nextId.trans h.nextId
  pending id hm := h.pending id (h'.pending id hm)
  answers a ha := (h'.answers a ha).elim (h.answers a) fun hm => .inr (h.pending a.1 hm)
  concluded id hw := h'.concluded id (h.concluded id hw)
  waits id hw := h'.waits id (h.waits id hw)

theorem only (h : Tabled u v) {S : UInt64 → Prop} (hs : Only S u.1) : Only S v.1 :=
  ⟨fun id hm => hs.pending id (h.pending id hm),
    fun a ha => (h.answers a ha).elim (hs.answers a) (hs.pending a.1)⟩

end Tabled

theorem Got.mono {id : UInt64} {answer : Answer} {a b : List Item} (h : Got id answer a)
    (hab : ∀ i ∈ a, i ∈ b) : Got id answer b := by
  obtain ⟨v, hv, ha, e⟩ := h
  exact ⟨v, hab _ hv, ha, e⟩

section
variable {c c' : Connection} {g : List Item}

theorem Concluded.mono {id : UInt64} (h : Concluded id (c, g)) (hpending : id ∉ c'.pending)
    (hanswer : c'.answer? id = c.answer? id) (hclosed : c.closed = true → c'.closed = true)
    (more : List Item) : Concluded id (c', g ++ more) := by
  refine ⟨hpending, ?_⟩
  rcases h.2 with h | ⟨answer, he, hgot⟩
  · exact .inl ⟨hanswer.trans h.1, hclosed h.2⟩
  · exact .inr ⟨answer, hanswer.trans he, hgot.mono fun i hi => List.mem_append_left more hi⟩

theorem tabled_same (h : SameTable c c') (hclosed : c.closed = true → c'.closed = true)
    (more : List Item) : Tabled (c, g) (c', g ++ more) := by
  have hconcluded (id : UInt64) (hw : Concluded id (c, g)) : Concluded id (c', g ++ more) :=
    hw.mono (h.pending ▸ hw.1) (h.answer? id) hclosed more
  refine ⟨h.nextId, fun id hm => h.pending ▸ hm, fun a ha => .inl (h.answers ▸ ha), hconcluded,
    fun id hw => hw.imp (fun hw => ⟨?_, (h.answer? id).trans hw.2⟩) (hconcluded id)⟩
  exact h.pending ▸ hw.1

theorem tabled_down (hnextId : c'.nextId = c.nextId) (hanswers : c'.answers = c.answers)
    (hpending : c'.pending = []) (hclosed : c'.closed = true) (more : List Item) :
    Tabled (c, g) (c', g ++ more) := by
  have ha (id : UInt64) : c'.answer? id = c.answer? id := by
    unfold answer?
    rw [hanswers]
  have hgone (id : UInt64) : id ∉ c'.pending := hpending ▸ List.not_mem_nil
  have hconcluded (id : UInt64) (hw : Concluded id (c, g)) : Concluded id (c', g ++ more) :=
    hw.mono (hgone id) (ha id) (fun _ => hclosed) more
  refine ⟨hnextId, fun id hm => absurd hm (hgone id), fun a ha => .inl (hanswers ▸ ha), hconcluded,
    fun id hw => .inr (hw.elim (fun hw => ?_) (hconcluded id))⟩
  exact ⟨hgone id, .inl ⟨(ha id).trans hw.2, hclosed⟩⟩

theorem tabled_complete {v : Json} {id : UInt64} (h : v.Answers id) (c : Connection)
    (g : List Item) : Tabled (c, g) (c.complete id (Answer.ofBody v), g ++ [.heard v]) := by
  by_cases hm : id ∈ c.pending
  · have hclosed : c.closed = true → (c.complete id (Answer.ofBody v)).closed = true := by
      unfold complete
      split <;> exact fun hc => hc
    have hother {other : UInt64} (he : other ≠ id) (hw : Concluded other (c, g)) :
        Concluded other (c.complete id (Answer.ofBody v), g ++ [.heard v]) :=
      hw.mono (fun hp => hw.1 ((mem_complete id other _ c he).mp hp))
        (answer?_complete id other _ c he) hclosed _
    obtain ⟨hnextId, hpending, hanswers⟩ := complete_sub id (Answer.ofBody v) c
    refine ⟨hnextId, hpending, hanswers, fun other hw => ?_, fun other hw => ?_⟩
    · exact hother (fun e => hw.1 (e ▸ hm)) hw
    · by_cases he : other = id
      · subst he
        have hnone : c.answer? other = none := hw.elim And.right fun hw => absurd hm hw.1
        refine .inr ⟨not_mem_complete other _ c hm, .inr ⟨_, answer?_complete_self other _ c hm hnone, ?_⟩⟩
        exact ⟨v, List.mem_append_right g List.mem_cons_self, h, rfl⟩
      · refine hw.imp (fun hw => ⟨?_, (answer?_complete id other _ c he).trans hw.2⟩) (hother he)
        exact (mem_complete id other _ c he).mpr hw.1
  · rw [complete_of_not_mem id _ c hm]
    exact tabled_same (.refl c) (fun hc => hc) [.heard v]

/-! ### moves of a call -/

theorem waits_register {S : UInt64 → Prop} (hs : Only S c) (hid : ¬ S c.nextId) :
    Waits c.nextId (c.register.2, g) ∧ Only (fun n => S n ∨ n = c.nextId) c.register.2 := by
  have hnone : c.answer? c.nextId = none := by
    unfold answer?
    refine Option.map_eq_none_iff.mpr (List.find?_eq_none.mpr fun a ha e => hid ?_)
    exact of_decide_eq_true e ▸ hs.answers a ha
  refine ⟨.inl ⟨List.mem_append_right _ List.mem_cons_self, hnone⟩, fun n hn => ?_,
    fun a ha => .inl (hs.answers a ha)⟩
  exact (List.mem_append.mp hn).imp (hs.pending n) List.mem_singleton.mp

theorem only_forget {S : UInt64 → Prop} {id : UInt64} (hs : Only (fun n => S n ∨ n = id) c) :
    Only S (c.forget id) where
  pending n hn := by
    obtain ⟨hn, hne⟩ := (mem_forget id n c).mp hn
    exact (hs.pending n hn).resolve_right hne
  answers a ha := by
    obtain ⟨ha, hne⟩ := List.mem_filter.mp ha
    exact (hs.answers a ha).resolve_right (of_decide_eq_true hne)

end

/-! ## events -/

structure Around (u u' : Link) : Prop extends Continues u u', Tabled u u'

namespace Around
variable {u v w : Link} {c c' : Connection} {g : List Item}

theorem trans (h : Around u v) (h' : Around v w) : Around u w :=
  ⟨h.toContinues.trans h'.toContinues, h.toTabled.trans h'.toTabled⟩

theorem of_same (htable : SameTable c c') (hconstants : c'.constants = c.constants)
    (hclosed : c'.closed = c.closed) (hwriting : c'.writing = c.writing)
    (houtbox : c'.outbox = c.outbox) : Around (c, g) (c', g) := by
  have htabled := tabled_same (g := g) htable (fun hc => hclosed.trans hc) []
  rw [List.append_nil] at htabled
  exact ⟨.of_same hconstants hclosed hwriting houtbox, htabled⟩

theorem refl (u : Link) : Around u u := of_same (.refl u.1) rfl rfl rfl rfl

theorem of_table (hc : Continues (c, g) (c', g)) (htable : SameTable c c') (more : List Item)
    (ho : ∀ i ∈ more, i.isOwn = false) : Around (c, g) (c', g ++ more) :=
  ⟨hc.trans (continues_note c' g more ho), tabled_same htable hc.closed more⟩

end Around

section
variable (c : Connection) (g : List Item)

theorem around_down {c' : Connection} (hconstants : c'.constants = c.constants)
    (hclosed : c'.closed = true) (hwriting : c.writing = false → c'.writing = false)
    (hnextId : c'.nextId = c.nextId) (hanswers : c'.answers = c.answers)
    (hpending : c'.pending = []) : Around (c, g) (c', g ++ loss c c') :=
  ⟨continues_down c g hconstants hclosed hwriting,
    tabled_down hnextId hanswers hpending hclosed _⟩

theorem loss_of_eq {c' : Connection} (h : c'.closed = c.closed) : loss c c' = [] := by
  refine if_neg fun hc => ?_
  rw [h, hc.1] at hc
  exact Bool.false_ne_true hc.2

theorem around_dispatch (v : Json) :
    Around (c, g) ((c.dispatch v).1, g ++ [.heard v]) ∧ (c.dispatch v).1.closed = c.closed := by
  have ho : ∀ i ∈ [Item.heard v], i.isOwn = false := fun i hi => by
    rw [List.mem_singleton.mp hi]
    rfl
  unfold dispatch
  rcases Incoming.ofJson?_cases v with ⟨id, method, h⟩ | ⟨id, h⟩ | ⟨method, h⟩ | h
  · rw [Incoming.ofJson?_of_asks h]
    have hreply := continues_reply c g (Incoming.reply id method (v.get? "params"))
    refine ⟨.of_table hreply (same_reply _ c) _ ho, ?_⟩
    have hclosed : ∀ m, (c.reply m).closed = c.closed := fun m => by
      unfold reply release
      simp only
      split
      · unfold enqueue
        split <;> rfl
      · rfl
    exact hclosed _
  · rw [Incoming.ofJson?_of_answers h]
    refine ⟨⟨?_, tabled_complete h c g⟩, ?_⟩
    · exact (continues_complete c g id _).trans (continues_note _ g _ ho)
    · show (c.complete id _).closed = _
      unfold complete
      split <;> rfl
  · rw [Incoming.ofJson?_of_tells h]
    exact ⟨.of_table (.refl _) (.refl c) _ ho, rfl⟩
  · rw [h]
    exact ⟨.of_table (.refl _) (.refl c) _ ho, rfl⟩

theorem around_readNext : Around (c, g)
    (c.readNext.1, g ++ (c.taken?.toList.map .heard ++ loss c c.readNext.1)) := by
  have hquiet (c' : Connection) (h : Around (c, g) (c', g)) (hclosed : c'.closed = c.closed) :
      Around (c, g) (c', g ++ loss c c') := by
    rw [loss_of_eq c hclosed, List.append_nil]
    exact h
  have hinbound (bytes : Bytes) : Around (c, g) ({ c with inbound := bytes }, g) :=
    .of_same ⟨rfl, rfl, rfl⟩ rfl rfl rfl rfl
  have hend : Around (c, g) ({ c with inbound := [], reading := false }.shut,
      g ++ loss c { c with inbound := [], reading := false }.shut) :=
    around_down c g rfl rfl (fun hw => hw) rfl rfl rfl
  unfold taken? readNext
  by_cases hw : c.withheld.isSome = true
  · rw [if_pos hw, if_pos hw]
    refine hquiet c.release ⟨continues_release c g, ?_⟩ ?_
    · have htabled := tabled_same (g := g) (same_release c) (continues_release c g).closed []
      rwa [List.append_nil] at htabled
    · unfold release
      split
      · rfl
      · split
        · unfold enqueue
          split <;> rfl
        · rfl
  rw [if_neg hw, if_neg hw]
  cases hf : Frame.next c.inboundEnded c.inbound with
  | none => exact hquiet c (.refl _) rfl
  | some next =>
    obtain ⟨item, rest⟩ := next
    cases item with
    | frame v =>
      obtain ⟨hdispatch, hclosed⟩ := around_dispatch { c with inbound := rest } g v
      show Around (c, g) (({ c with inbound := rest }.dispatch v).1,
        g ++ ([.heard v] ++ loss c ({ c with inbound := rest }.dispatch v).1))
      rw [loss_of_eq c hclosed, List.append_nil]
      exact (hinbound rest).trans hdispatch
    | fault f =>
      show Around (c, g) ((if f.recoverable then _ else _ : Connection × Option Notification).1,
        g ++ loss c (if f.recoverable then _ else _ : Connection × Option Notification).1)
      split
      · exact hquiet _ (hinbound rest) rfl
      · exact hend
    | finished => exact hend

theorem around_writeNext : Around (c, g) (c.writeNext, g ++ loss c c.writeNext) := by
  have hstay (c' : Connection) (hs : SameTable c c') (hc : Continues (c, g) (c', g))
      (hclosed : c'.closed = c.closed) : Around (c, g) (c', g ++ loss c c') := by
    rw [loss_of_eq c hclosed]
    exact .of_table hc hs [] nofun
  unfold writeNext
  split
  · exact hstay c (.refl c) (.refl _) rfl
  next rest ho =>
    refine hstay _ ⟨rfl, rfl, rfl⟩ { Continues.refl (c, g) with
      writing := fun _ => rfl, writes := fun h hc => ?_, lost := .inl } rfl
    exact absurd (ho ▸ List.mem_cons_self) (h hc).2
  next v rest ho =>
    split
    · refine hstay _ ⟨rfl, rfl, rfl⟩ { Continues.refl (c, g) with
        writing := fun hw => hw, writes := fun h hc => ?_, lost := .inl } rfl
      exact ⟨(h hc).1, fun hm => (h hc).2 (ho ▸ List.mem_cons_of_mem _ hm)⟩
    · exact around_down c g rfl rfl (fun _ => rfl) rfl rfl rfl

end

/-! ## the client -/

/-- What the client knows and what it is connected by go on as they were; the table of calls and the
lock may change. -/
structure Calm (w w' : World) : Prop where
  lifecycle : w'.1.lifecycle = w.1.lifecycle
  openDocs : w'.1.openDocs = w.1.openDocs
  capabilities : w'.1.capabilities = w.1.capabilities
  settings : w'.1.settings = w.1.settings
  link : Continues w.link w'.link

structure Kept (w w' : World) : Prop extends Calm w w' where
  lock : w'.1.lock = w.1.lock
  table : Tabled w.link w'.link

theorem Calm.trans {u v w : World} (h : Calm u v) (h' : Calm v w) : Calm u w :=
  ⟨h'.lifecycle.trans h.lifecycle, h'.openDocs.trans h.openDocs,
    h'.capabilities.trans h.capabilities, h'.settings.trans h.settings, h.link.trans h'.link⟩

theorem Kept.trans {u v w : World} (h : Kept u v) (h' : Kept v w) : Kept u w :=
  ⟨h.toCalm.trans h'.toCalm, h'.lock.trans h.lock, h.table.trans h'.table⟩

/-- What goes on on the connection is all that changes. -/
theorem kept_link {c : Client} {k : Connection} {g g' : List Item}
    (h : Around (c.connection, g) (k, g')) : Kept (c, g) (c.setConnection k, g') :=
  ⟨⟨rfl, rfl, rfl, rfl, h.toContinues⟩, rfl, h.toTabled⟩

theorem Kept.refl (w : World) : Kept w w := kept_link (.refl w.link)

theorem readNext_eq (c : Client) : c.readNext = { c with
    connection := c.connection.readNext.1
    published := c.connection.readNext.2.elim c.published c.published.ingest } := by
  unfold Client.readNext
  cases c.connection.readNext with
  | mk connection notification => cases notification <;> rfl

/-- Whatever happens around an operation leaves its affairs alone. -/
theorem kept_happen (c : Client) (g : List Item) (e : Event) :
    Kept (c, g) (e.happen c, g ++ e.notes c) := by
  have hnothing (h : e.notes c = []) : Kept (c, g) (c, g ++ e.notes c) := by
    rw [h, List.append_nil]
    exact .refl _
  have hself : loss c.connection c.connection = [] := loss_of_eq _ rfl
  have hsimple (k : Connection) (hs : SameTable c.connection k)
      (hconstants : k.constants = c.connection.constants)
      (hclosed : k.closed = c.connection.closed) (hwriting : k.writing = c.connection.writing)
      (houtbox : k.outbox = c.connection.outbox) :
      Kept (c, g) (c.setConnection k, g ++ loss c.connection k) := by
    rw [loss_of_eq _ hclosed, List.append_nil]
    exact kept_link (.of_same hs hconstants hclosed hwriting houtbox)
  cases e with
  | begin step => exact hnothing hself
  | go elapsed => exact hnothing hself
  | read =>
    unfold Event.notes Event.happen Event.hears
    simp only
    split
    · have h := around_readNext c.connection g
      rw [readNext_eq]
      exact ⟨⟨rfl, rfl, rfl, rfl, h.toContinues⟩, rfl, h.toTabled⟩
    · rw [hself]
      exact (List.append_nil g).symm ▸ .refl _
  | write =>
    unfold Event.notes Event.happen Event.hears
    simp only
    split
    · exact kept_link (around_writeNext c.connection g)
    · rw [hself]
      exact (List.append_nil g).symm ▸ .refl _
  | deliver bytes =>
    refine hsimple _ (same_deliver bytes _) ?_ ?_ ?_ ?_
    all_goals
      unfold deliver
      split <;> rfl
  | hangUp => exact hsimple _ ⟨rfl, rfl, rfl⟩ rfl rfl rfl rfl
  | stopListening => exact hsimple _ ⟨rfl, rfl, rfl⟩ rfl rfl rfl rfl
  | exited =>
    refine hsimple _ (same_exited _) ?_ ?_ ?_ ?_
    all_goals simp only [exited_eq, constants]
  | kill =>
    refine hsimple _ (same_kill _) ?_ ?_ ?_ ?_
    all_goals simp only [kill_eq, constants]

end Course

end CodeBridge
