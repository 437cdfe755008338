import CodeBridge.Proofs.Client.Desk

/-!
# Messages about documents

Which messages open a document on the server or close it, and what the operations of a connection
do to the list of those that have been sent.

* `mark?_didOpen`, `mark?_didClose`   two do; `mark?_request`, `mark?_reply`, …   all others do not;
* `Alternate.concat`, `standing_concat`   one more message;
* `Aside`        an operation that sends nothing about documents; the writer may fail, and then what
                 was queued is lost.
-/

namespace CodeBridge

/-! ## single messages -/

theorem mark?_notification (uri other method : String) (params : Json)
    (h : documentOf? (some params) = some other) :
    mark? uri (Message.notification method (some params)) =
      if other = uri then Mark.ofMethod? method else none := by
  show (if (none : Option Json).isSome ∨ documentOf? (some params) ≠ some uri then none
    else Mark.ofMethod? method) = _
  rw [h]
  by_cases he : other = uri
  · simp [he]
  · simp [he]

theorem mark?_didOpen (uri other languageId text : String) (version : Int32) :
    mark? uri (Message.notification "textDocument/didOpen"
      (some (Params.didOpen other languageId version text))) =
        if other = uri then some .didOpen else none :=
  mark?_notification uri other _ _ rfl

theorem mark?_didClose (uri other : String) :
    mark? uri (Message.notification "textDocument/didClose" (some (Params.ofDocument other))) =
      if other = uri then some .didClose else none :=
  mark?_notification uri other _ _ rfl

theorem mark?_of_id {uri : String} {v : Json} (h : (v.get? "id").isSome = true) :
    mark? uri v = none := if_pos (.inl h)

theorem mark?_of_document {uri : String} {v : Json} (h : documentOf? (v.get? "params") = none) :
    mark? uri v = none := if_pos (.inr (h ▸ nofun))

theorem mark?_initialized (uri : String) :
    mark? uri (Message.notification "initialized" (some (.obj []))) = none :=
  mark?_of_document rfl

theorem mark?_exit (uri : String) : mark? uri (Message.notification "exit" none) = none :=
  mark?_of_document rfl

theorem mark?_request (uri : String) (id : UInt64) (method : String) (params : Option Json) :
    mark? uri (Message.request id method params) = none := mark?_of_id rfl

theorem mark?_answer (uri : String) (id result : Json) :
    mark? uri (Message.answer id result) = none := mark?_of_id rfl

theorem mark?_refusal (uri : String) (id : Json) (code : Int32) (message : String) :
    mark? uri (Message.refusal id code message) = none := mark?_of_id rfl

theorem mark?_reply (uri : String) (id : Json) (method : String) (params : Option Json) :
    mark? uri (Incoming.reply id method params) = none := by
  unfold Incoming.reply
  split
  · exact mark?_answer uri id _
  · exact mark?_answer uri id _
  · exact mark?_answer uri id _
  · exact mark?_answer uri id _
  · exact mark?_refusal uri id _ _

/-! ## lists of messages -/

section
variable {ms : List Mark} {m : Mark}

theorem Alternate.concat (h : Alternate ms) (hm : Standing ms ↔ m = .didClose) :
    Alternate (ms ++ [m]) := by
  have hlast : ∀ x ∈ (Mark.didClose :: ms).getLast?, ∀ y ∈ [m].head?, x ≠ y := by
    intro x hx y hy
    obtain rfl := Option.some.inj hy
    rw [List.getLast?_cons] at hx
    obtain rfl := Option.some.inj hx
    unfold Standing at hm
    cases hl : ms.getLast? with
    | none =>
      rintro rfl
      exact absurd (hm.mpr rfl) (hl ▸ nofun)
    | some l =>
      rw [hl] at hm
      cases l <;> cases m <;> simp_all
  exact List.isChain_append.mpr ⟨h, List.isChain_singleton m, hlast⟩

theorem Alternate.cut {cut : List Mark} (h : Alternate ms) (hcut : cut <+: ms) :
    Alternate cut := by
  obtain ⟨rest, rfl⟩ := hcut
  have hwhole : (Mark.didClose :: cut ++ rest).IsChain (· ≠ ·) := h
  exact hwhole.left_of_append

theorem standing_concat : Standing (ms ++ [m]) ↔ m = .didOpen := by
  unfold Standing
  rw [List.getLast?_concat, Option.some_inj]

end

theorem marksIn_append (uri : String) (a b : List Json) :
    marksIn uri (a ++ b) = marksIn uri a ++ marksIn uri b := List.filterMap_append

theorem marksIn_concat (uri : String) (a : List Json) (v : Json) :
    marksIn uri (a ++ [v]) = marksIn uri a ++ (mark? uri v).toList := by
  rw [marksIn_append]
  unfold marksIn
  cases h : mark? uri v with
  | none => rw [List.filterMap_cons_none h]; rfl
  | some m => rw [List.filterMap_cons_some h]; rfl

/-! ## operations of a connection -/

namespace Connection

theorem queued_concat (c : Connection) (v : Json) :
    ({ c with outbox := c.outbox ++ [.message v] } : Connection).queued = c.queued ++ [v] :=
  List.filterMap_append

def Harmless (c : Connection) : Prop :=
  ∀ ticket reply, c.withheld = some (ticket, reply) → ∀ uri, mark? uri reply = none

/-- As long as the connection is up the writer is, and it is not to stop. -/
def Writes (c : Connection) : Prop := c.closed = false → c.writing = true ∧ .stop ∉ c.outbox

theorem Writes.message {c : Connection} (h : c.Writes) (v : Json) :
    ({ c with outbox := c.outbox ++ [.message v] } : Connection).Writes := fun hc =>
  ⟨(h hc).1, fun hm => (List.mem_append.mp hm).elim (h hc).2 fun hm =>
    nomatch List.mem_singleton.mp hm⟩

/-- What has been written is what the server was given. -/
def Gave (c : Connection) (written : List Json) : Prop :=
  c.outbound = written.flatMap Frame.write

/-- Nothing is sent about documents, and the writer goes on writing, as far as `p` says so. -/
structure Aside (p : Prop) (u u' : Connection × List Json) : Prop where
  closed : u.1.closed = true → u'.1.closed = true
  marks : ∀ uri, marksIn uri (u'.2 ++ u'.1.queued) <+: marksIn uri (u.2 ++ u.1.queued)
  writing : u'.1.writing = true → u.1.writing = true ∧
    ∀ uri, marksIn uri (u'.2 ++ u'.1.queued) = marksIn uri (u.2 ++ u.1.queued)
  writes : p → u.1.Writes → u'.1.Writes
  gave : u.1.Gave u.2 → u'.1.Gave u'.2
  harmless : u.1.Harmless → u'.1.Harmless

section
variable {p : Prop} {c c' : Connection} {ws : List Json}

theorem Aside.of_same (hclosed : c.closed = true → c'.closed = true)
    (hwriting : c'.writing = c.writing) (houtbox : c'.outbox = c.outbox)
    (houtbound : c'.outbound = c.outbound) (hharmless : c.Harmless → c'.Harmless) :
    Aside p (c, ws) (c', ws) := by
  have hqueued : c'.queued = c.queued := by
    unfold queued
    rw [houtbox]
  have hmarks : ∀ uri, marksIn uri (ws ++ c'.queued) = marksIn uri (ws ++ c.queued) := fun uri => by
    rw [hqueued]
  refine ⟨hclosed, fun uri => hmarks uri ▸ List.prefix_refl _, fun h => ⟨hwriting ▸ h, hmarks⟩,
    fun _ hw hc => ?_, fun hg => houtbound.trans hg, hharmless⟩
  rw [hwriting, houtbox]
  refine hw ?_
  cases h : c.closed with
  | true => rw [hclosed h] at hc; exact hc
  | false => rfl

theorem aside_refl : Aside p (c, ws) (c, ws) := .of_same id rfl rfl rfl id

theorem Aside.trans {u v w : Connection × List Json} (h : Aside p u v) (h' : Aside p v w) :
    Aside p u w where
  closed hc := h'.closed (h.closed hc)
  marks uri := (h'.marks uri).trans (h.marks uri)
  writing hw :=
    have hv := h'.writing hw
    have hu := h.writing hv.1
    ⟨hu.1, fun uri => (hv.2 uri).trans (hu.2 uri)⟩
  writes hp hw := h'.writes hp (h.writes hp hw)
  gave hg := h'.gave (h.gave hg)
  harmless hh := h'.harmless (h.harmless hh)

/-- Whether the writer goes on is of no account when the connection is down. -/
theorem Aside.weaken {u u' : Connection × List Json} (h : Aside False u u')
    (hc : p → u.1.closed = true) : Aside p u u' :=
  { h with writes := fun hp _ hopen => absurd ((h.closed (hc hp)).symm.trans hopen) nofun }

variable (c : Connection) (ws : List Json)

theorem aside_joinSenders : Aside p (c, ws) (c.joinSenders.2, ws) := .of_same id rfl rfl rfl id

theorem aside_leaveSenders (ticket : Nat) : Aside p (c, ws) (c.leaveSenders ticket, ws) :=
  .of_same id rfl rfl rfl id

theorem aside_register : Aside p (c, ws) (c.register.2, ws) := .of_same id rfl rfl rfl id

theorem aside_forget (id : UInt64) : Aside p (c, ws) (c.forget id, ws) :=
  .of_same (fun h => h) rfl rfl rfl fun h => h

theorem aside_claimProcess : Aside p (c, ws) (c.claimProcess.2, ws) := .of_same id rfl rfl rfl id

theorem aside_shut : Aside p (c, ws) (c.shut, ws) := .of_same (fun _ => rfl) rfl rfl rfl id

theorem aside_deliver (bytes : Bytes) : Aside p (c, ws) (c.deliver bytes, ws) := by
  unfold deliver
  split
  · exact aside_refl
  · exact .of_same id rfl rfl rfl id

theorem aside_hangUp : Aside p (c, ws) (c.hangUp, ws) := .of_same id rfl rfl rfl id

theorem aside_stopListening : Aside p (c, ws) (c.stopListening, ws) := .of_same id rfl rfl rfl id

theorem aside_exited : Aside p (c, ws) (c.exited, ws) := .of_same id rfl rfl rfl id

theorem aside_kill : Aside p (c, ws) (c.kill, ws) := .of_same id rfl rfl rfl id

theorem aside_tryKill : Aside p (c, ws) (c.tryKill.2, ws) := by
  unfold tryKill
  split
  · exact aside_kill c ws
  · exact aside_refl

theorem aside_enqueue (v : Json) (hv : ∀ uri, mark? uri v = none) :
    Aside p (c, ws) ((c.enqueue (.message v)).2, ws) := by
  unfold enqueue
  split
  next hw =>
    have hmarks : ∀ uri, marksIn uri (ws ++ ({ c with outbox := c.outbox ++ [.message v] } :
        Connection).queued) = marksIn uri (ws ++ c.queued) := by
      intro uri
      rw [queued_concat, ← List.append_assoc, marksIn_concat, hv uri]
      exact List.append_nil _
    exact ⟨id, fun uri => hmarks uri ▸ List.prefix_refl _, fun _ => ⟨hw, hmarks⟩,
      fun _ hc => hc.message v, id, id⟩
  · exact aside_refl

theorem aside_stop : Aside False (c, ws) ((c.enqueue .stop).2, ws) := by
  unfold enqueue
  split
  next hw =>
    have hqueued : ({ c with outbox := c.outbox ++ [.stop] } : Connection).queued = c.queued :=
      List.filterMap_append.trans (List.append_nil _)
    have hmarks : ∀ uri, marksIn uri (ws ++ ({ c with outbox := c.outbox ++ [.stop] } :
        Connection).queued) = marksIn uri (ws ++ c.queued) := fun uri => by rw [hqueued]
    exact ⟨id, fun uri => hmarks uri ▸ List.prefix_refl _, fun _ => ⟨hw, hmarks⟩, False.elim, id, id⟩
  · exact aside_refl

/-- The writer takes its turn; when it stops or fails it loses what is queued. -/
theorem aside_writeNext : Aside p (c, ws) (c.writeNext, ws ++ c.passing) := by
  have hlost : ∀ uri, marksIn uri ws <+: marksIn uri (ws ++ c.queued) := by
    intro uri
    rw [marksIn_append]
    exact List.prefix_append _ _
  have hnothing (h : c.passing = []) : ws ++ c.passing = ws := by rw [h, List.append_nil]
  unfold writeNext
  split
  next ho =>
    have hp : c.passing = [] := by simp only [passing, ho]
    rw [hnothing hp]
    exact aside_refl
  next rest ho =>
    have hp : c.passing = [] := by simp only [passing, ho]
    rw [hnothing hp]
    refine ⟨id, fun uri => ?_, nofun, fun _ hc h => ?_, id, id⟩
    · exact (congrArg (marksIn uri) (List.append_nil ws)) ▸ hlost uri
    · exact absurd (ho ▸ List.mem_cons_self) (hc h).2
  next v rest ho =>
    split
    next hl =>
      have hp : c.passing = [v] := by simp only [passing, ho, hl, if_true]
      have hmarks : ∀ uri, marksIn uri (ws ++ [v] ++ rest.filterMap Outgoing.message?) =
          marksIn uri (ws ++ c.queued) := by
        intro uri
        unfold queued
        rw [ho, List.append_assoc]
        rfl
      rw [hp]
      refine ⟨id, fun uri => hmarks uri ▸ List.prefix_refl _, fun h => ⟨h, hmarks⟩,
        fun _ hc h => ?_, fun hg => ?_, id⟩
      · exact ⟨(hc h).1, fun hm => (hc h).2 (ho ▸ List.mem_cons_of_mem _ hm)⟩
      · show c.outbound ++ Frame.write v = (ws ++ [v]).flatMap Frame.write
        rw [List.flatMap_append, show c.outbound = ws.flatMap Frame.write from hg,
          List.flatMap_singleton]
    next hl =>
      have hp : c.passing = [] := by simp only [passing, ho, if_neg hl]
      rw [hnothing hp]
      refine ⟨fun _ => rfl, fun uri => ?_, nofun, fun _ _ h => absurd h nofun, id, id⟩
      exact (congrArg (marksIn uri) (List.append_nil ws)) ▸ hlost uri

theorem harmless_withhold (ticket : Nat) (v : Json) (hv : ∀ uri, mark? uri v = none) :
    ({ c with withheld := some (ticket, v) } : Connection).Harmless := by
  intro ticket' reply h uri
  obtain ⟨-, rfl⟩ := Prod.mk.inj (Option.some.inj h)
  exact hv uri

theorem aside_release (h : c.Harmless) : Aside p (c, ws) (c.release, ws) := by
  unfold release
  split
  · exact aside_refl
  next ticket reply hw =>
    split
    · have hqueue := (aside_enqueue (p := p) c ws reply (h ticket reply hw)).trans
        (aside_leaveSenders _ ws ticket)
      exact hqueue.trans (.of_same id rfl rfl rfl fun _ => nofun)
    · exact aside_refl

theorem aside_reply (v : Json) (hv : ∀ uri, mark? uri v = none) :
    Aside p (c, ws) (c.reply v, ws) := by
  have hwithhold : Aside p (c, ws)
      ({ c.joinSenders.2 with withheld := some (c.joinSenders.1, v) }, ws) :=
    .of_same id rfl rfl rfl fun _ => harmless_withhold _ _ v hv
  exact hwithhold.trans (aside_release _ ws (harmless_withhold _ _ v hv))

theorem aside_dispatch (v : Json) : Aside p (c, ws) ((c.dispatch v).1, ws) := by
  unfold dispatch
  split
  · exact aside_refl
  next id body _ =>
    show Aside p (c, ws) (c.complete id (Answer.ofBody body), ws)
    unfold complete
    split
    · exact .of_same (fun h => h) rfl rfl rfl fun h => h
    · exact aside_refl
  next id method params _ => exact aside_reply c ws _ fun uri => mark?_reply uri id method params
  · exact aside_refl

theorem aside_readNext (h : c.Harmless) : Aside p (c, ws) (c.readNext.1, ws) := by
  have hinbound (bytes : Bytes) : Aside p (c, ws) ({ c with inbound := bytes }, ws) :=
    .of_same id rfl rfl rfl id
  have hend : Aside p (c, ws) ({ c with inbound := [], reading := false }.shut, ws) :=
    .of_same (fun _ => rfl) rfl rfl rfl id
  unfold readNext
  split
  · exact aside_release c ws h
  · split
    · exact aside_refl
    next v rest _ => exact (hinbound rest).trans (aside_dispatch _ ws v)
    next fault rest _ =>
      split
      · exact hinbound rest
      · exact hend
    · exact hend

end

end Connection

end CodeBridge
