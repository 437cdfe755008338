import CodeBridge.Proofs.Connection.Inbound
import CodeBridge.Proofs.Connection.Kinds

/-!
# What the server says goes where it should

Requests of the server are replied to in the order in which they come, its notifications are handed
over, and nothing else that it says is answered.

* `Journal`        the values that were taken, the notifications that were handed over and the
                   messages that were written;
* `Silent`         changes that leave the replies alone;
* `Replying`       along a run every request taken has one reply, in the order of the requests.
-/

namespace CodeBridge

open Connection

/-! ## the journal -/

structure Journal where
  /-- values that the reader has taken -/
  received : List Json := []
  /-- notifications that it has handed over -/
  handed : List Notification := []
  /-- messages that the writer has written -/
  written : List Json := []
  deriving DecidableEq

namespace Traffic

/-- What an event adds to the journal. -/
def note (c : Connection) (j : Journal) : Event → Journal
  | .read =>
    if c.canRead then
      { j with
        received := j.received ++ c.taken?.toList
        handed := j.handed ++ c.readNext.2.toList }
    else j
  | .write => if c.canWrite then { j with written := j.written ++ c.passing } else j
  | _ => j

def follow (w : Traffic × Journal) (events : List Event) : Traffic × Journal :=
  events.foldl (fun w e => (w.1.apply e, note w.1.connection w.2 e)) w

theorem follow_fst (w : Traffic × Journal) (events : List Event) :
    (follow w events).1 = w.1.run events := by
  induction events generalizing w with
  | nil => rfl
  | cons e events ih => exact ih _

end Traffic

/-! ## moves without a reply -/

namespace Connection

/-- No reply is queued, and none is written or lost. -/
structure Silent (c c' : Connection) : Prop where
  writing : c'.writing = c.writing
  withheld : c'.withheld = c.withheld
  outbound : c'.outbound = c.outbound
  replies : c'.queued.filter Json.isReply = c.queued.filter Json.isReply

theorem queues_silent : Queues Silent where
  refl _ := ⟨rfl, rfl, rfl, rfl⟩
  trans h h' := ⟨h'.writing.trans h.writing, h'.withheld.trans h.withheld,
    h'.outbound.trans h.outbound, h'.replies.trans h.replies⟩
  join _ := ⟨rfl, rfl, rfl, rfl⟩
  leave _ _ := ⟨rfl, rfl, rfl, rfl⟩

theorem silent_enqueue (message : Outgoing) (c : Connection)
    (h : ∀ m, message = .message m → m.isReply = false) : Silent c (c.enqueue message).2 := by
  have hsame : (c.enqueue message).2.writing = c.writing ∧
      (c.enqueue message).2.withheld = c.withheld ∧
      (c.enqueue message).2.outbound = c.outbound := by
    unfold enqueue
    split <;> exact ⟨rfl, rfl, rfl⟩
  refine ⟨hsame.1, hsame.2.1, hsame.2.2, ?_⟩
  unfold queued
  rw [outbox_enqueue, List.filterMap_append, List.filter_append]
  refine List.append_right_eq_self.mpr (List.filter_eq_nil_iff.mpr fun m hm => ?_)
  obtain ⟨o, ho, hmo⟩ := List.mem_filterMap.mp hm
  split at ho
  · rw [List.mem_singleton.mp ho] at hmo
    cases message with
    | message m' =>
      obtain rfl := Option.some.inj hmo
      exact Bool.eq_false_iff.mp (h m' rfl)
    | stop => cases hmo
  · cases ho

theorem silent_exchange (id : UInt64) (method : String) (params : Option Json) :
    (Routine.ensure (forget id) (exchange id method params)).MovesBy Silent := by
  have hask : (exchange id method params).MovesBy Silent := movesBy_exchange queues_silent fun c =>
    silent_enqueue _ c fun m hm => by rw [← Outgoing.message.inj hm]; rfl
  exact hask.ensure queues_silent.refl fun _ _ h => ⟨h.writing, h.withheld, h.outbound, h.replies⟩

theorem silent_notify (method : String) (params : Option Json) :
    (notify method params).run.MovesBy Silent :=
  movesBy_notify queues_silent fun c =>
    silent_enqueue _ c fun m hm => by rw [← Outgoing.message.inj hm]; rfl

theorem silent_close (grace : Nat) : (close grace).MovesBy Silent := by
  refine movesBy_close queues_silent grace (fun c => silent_enqueue .stop c nofun)
    (fun _ => ⟨rfl, rfl, rfl, rfl⟩) (fun c => ?_) fun _ => ⟨rfl, rfl, rfl, rfl⟩
  unfold tryKill
  split
  · exact ⟨rfl, rfl, rfl, rfl⟩
  · exact queues_silent.refl c

end Connection

/-! ## along a run -/

namespace Traffic

/-- What holds of all traffic and its journal, with the replies and the bytes that there were
before. -/
structure Replying (before : List Json) (bytes : Bytes) (w : Traffic × Journal) : Prop where
  handed : w.2.handed = w.2.received.filterMap Incoming.told?
  wire : w.1.connection.outbound = bytes ++ w.2.written.flatMap Frame.write
  up : w.1.connection.writing = true →
    (w.2.written ++ w.1.connection.toWrite).filter Json.isReply =
      before ++ w.2.received.filterMap Incoming.replyTo?
  down : w.1.connection.writing = false →
    w.2.written.filter Json.isReply <+: before ++ w.2.received.filterMap Incoming.replyTo?
  callers : ∀ k ∈ w.1.callers, ∀ r, k.progress = .running r → r.MovesBy Silent
  others : ∀ r ∈ w.1.others, r.MovesBy Silent

variable {before : List Json} {bytes : Bytes} {t : Traffic} {j : Journal}

theorem Replying.silent (h : Replying before bytes (t, j)) {c : Connection}
    (hs : Silent t.connection c) {callers : List Caller} {others : List (Routine Connection Unit)}
    (hcallers : ∀ k ∈ callers, ∀ r, k.progress = .running r → r.MovesBy Silent)
    (hothers : ∀ r ∈ others, r.MovesBy Silent) :
    Replying before bytes (⟨c, callers, others⟩, j) where
  handed := h.handed
  wire := hs.outbound.trans h.wire
  up hw := by
    have htoWrite : c.toWrite.filter Json.isReply =
        t.connection.toWrite.filter Json.isReply := by
      unfold toWrite
      rw [List.filter_append, List.filter_append, hs.replies, hs.withheld]
    have hup := h.up (hs.writing.symm.trans hw)
    rw [List.filter_append] at hup ⊢
    rw [← hup]
    exact congrArg _ htoWrite
  down hw := h.down (hs.writing.symm.trans hw)
  callers := hcallers
  others := hothers

theorem running_hear {c : Connection} {id : UInt64} {body : Json} {k : Caller} :
    (k.hear c id body).progress = k.progress := by
  unfold Caller.hear
  split <;> rfl

theorem replying_read (h : Replying before bytes (t, j)) :
    Replying before bytes (t.read, note t.connection j .read) := by
  unfold read note
  by_cases hcan : t.connection.canRead = true
  · rw [if_pos hcan, if_pos hcan]
    obtain ⟨hadds, hhanded⟩ := adds_readNext t.connection
    refine ⟨?_, hadds.outbound.trans h.wire, fun hw => ?_, fun hw => ?_, ?_, h.others⟩
    · rw [List.filterMap_append, ← hhanded, ← h.handed]
    · have hup := hadds.writing.symm.trans hw
      have hreplies : (t.connection.taken?.toList.filterMap Incoming.replyTo?).filter
          Json.isReply = t.connection.taken?.toList.filterMap Incoming.replyTo? := by
        refine List.filter_eq_self.mpr fun m hm => ?_
        obtain ⟨v, -, hv⟩ := List.mem_filterMap.mp hm
        exact Incoming.isReply_replyTo? hv
      show (j.written ++ t.connection.readNext.1.toWrite).filter Json.isReply = _
      rw [hadds.toWrite hup, ← List.append_assoc, List.filter_append, h.up hup, hreplies,
        List.filterMap_append, List.append_assoc]
    · have hprefix := h.down (hadds.writing.symm.trans hw)
      rw [List.filterMap_append, ← List.append_assoc]
      exact hprefix.trans (List.prefix_append _ _)
    · intro k hk r hr
      dsimp only at hk
      split at hk
      · obtain ⟨k', hk', rfl⟩ := List.mem_map.mp hk
        exact h.callers k' hk' r (running_hear.symm.trans hr)
      · exact h.callers k hk r hr
  · rw [if_neg hcan, if_neg hcan]
    exact h

theorem Replying.stopped (h : Replying before bytes (t, j)) (hup : t.connection.writing = true)
    {c : Connection} (hw : c.writing = false) (hout : c.outbound = t.connection.outbound) :
    Replying before bytes (⟨c, t.callers, t.others⟩, j) where
  handed := h.handed
  wire := hout.trans h.wire
  up hw' := absurd (hw.symm.trans hw') Bool.false_ne_true
  down _ := by
    rw [← h.up hup, List.filter_append]
    exact List.prefix_append _ _
  callers := h.callers
  others := h.others

theorem replying_write (h : Replying before bytes (t, j)) :
    Replying before bytes (t.write, note t.connection j .write) := by
  unfold write note
  by_cases hcan : t.connection.canWrite = true
  · rw [if_pos hcan, if_pos hcan]
    have hup : t.connection.writing = true := (Bool.and_eq_true_iff.mp hcan).1
    have hj (hp : t.connection.passing = []) :
        { j with written := j.written ++ t.connection.passing } = j := by
      rw [hp, List.append_nil]
    unfold onConnection writeNext
    split
    next hout =>
      rw [hj (by simp only [passing, hout])]
      exact h
    next rest hout =>
      rw [hj (by simp only [passing, hout])]
      exact h.stopped hup rfl rfl
    next v rest hout =>
      split
      next hlistening =>
        have hpassing : t.connection.passing = [v] := by
          simp only [passing, hout, hlistening, if_true]
        have htoWrite : t.connection.toWrite =
            v :: { t.connection with outbox := rest,
                                     outbound := t.connection.outbound ++ Frame.write v }.toWrite := by
          unfold toWrite queued
          rw [hout]
          rfl
        rw [hpassing]
        refine ⟨h.handed, ?_, fun _ => ?_, fun hw => absurd (hup.symm.trans hw) nofun, h.callers,
          h.others⟩
        · show t.connection.outbound ++ Frame.write v = _
          rw [h.wire, List.append_assoc]
          show _ = bytes ++ (j.written ++ [v]).flatMap Frame.write
          rw [List.flatMap_append, List.flatMap_singleton]
        · rw [← h.up hup, htoWrite]
          exact congrArg (List.filter Json.isReply) (List.append_assoc j.written [v] _)
      next hlistening =>
        rw [hj (by simp only [passing, hout, if_neg hlistening])]
        exact h.stopped hup rfl rfl
  · rw [if_neg hcan, if_neg hcan]
    exact h

theorem Replying.same (h : Replying before bytes (t, j)) {c : Connection}
    (hs : Silent t.connection c) : Replying before bytes (⟨c, t.callers, t.others⟩, j) :=
  h.silent hs h.callers h.others

theorem running_progressOf {r r' : Routine Connection (Except ClientError Json)}
    (h : Caller.progressOf r = .running r') : r = r' := by
  cases r with
  | done result => cases h
  | _ => exact Progress.running.inj h

theorem replying_withCaller (h : Replying before bytes (t, j))
    (f : Connection → Caller → Connection × Caller) (i : Nat)
    (hf : ∀ c k, (∀ r, k.progress = .running r → r.MovesBy Silent) →
      Silent c (f c k).1 ∧ ∀ r, (f c k).2.progress = .running r → r.MovesBy Silent) :
    Replying before bytes (t.withCaller f i, j) := by
  unfold withCaller
  split
  · exact h
  next k hk =>
    obtain ⟨hs, hrest⟩ := hf t.connection k (h.callers k (List.mem_of_getElem? hk))
    refine h.silent hs (fun k' hk' => ?_) h.others
    rcases List.mem_or_eq_of_mem_set hk' with hk' | rfl
    · exact h.callers k' hk'
    · exact hrest

theorem silent_go (elapsed : Nat) (c : Connection) (k : Caller)
    (h : ∀ r, k.progress = .running r → r.MovesBy Silent) :
    Silent c (k.go elapsed c).1 ∧
      ∀ r, (k.go elapsed c).2.progress = .running r → r.MovesBy Silent := by
  unfold Caller.go
  split
  next r hr =>
    obtain ⟨hs, hrest⟩ := (h r hr).poll queues_silent.refl elapsed c
    exact ⟨hs, fun r' hr' => running_progressOf hr' ▸ hrest⟩
  · exact ⟨queues_silent.refl c, h⟩

theorem silent_giveUp (c : Connection) (k : Caller)
    (h : ∀ r, k.progress = .running r → r.MovesBy Silent) :
    Silent c (Caller.giveUp c k).1 ∧
      ∀ r, (Caller.giveUp c k).2.progress = .running r → r.MovesBy Silent := by
  unfold Caller.giveUp
  split
  next r hr =>
    split
    next c' ha => exact ⟨(h r hr).abandoned ha, fun _ hr' => nomatch hr'⟩
    · exact ⟨queues_silent.refl c, h⟩
  · exact ⟨queues_silent.refl c, h⟩

theorem replying_begin (h : Replying before bytes (t, j)) (method : String)
    (params : Option Json) : Replying before bytes (t.begin method params, j) := by
  have hs : Silent t.connection t.connection.register.2 := ⟨rfl, rfl, rfl, rfl⟩
  refine h.silent hs (fun k hk => ?_) h.others
  rcases List.mem_append.mp hk with hk | hk
  · exact h.callers k hk
  · obtain rfl := List.mem_singleton.mp hk
    intro r hr
    have hr' : Caller.progressOf (Routine.ensure (forget t.connection.nextId)
        (exchange t.connection.nextId method params)) = .running r := hr
    exact running_progressOf hr' ▸ silent_exchange t.connection.nextId method params

theorem replying_addOther {α : Type} (h : Replying before bytes (t, j))
    {r : Routine Connection α} (hr : r.MovesBy Silent) :
    Replying before bytes (t.addOther r, j) := by
  refine h.silent (queues_silent.refl t.connection) h.callers fun r' hr' => ?_
  rcases List.mem_append.mp hr' with hr' | hr'
  · exact h.others r' hr'
  · obtain rfl := List.mem_singleton.mp hr'
    exact hr.bind fun _ => Routine.movesBy_done ()

/-- Every event keeps the replies in order. -/
theorem replying_apply (h : Replying before bytes (t, j)) (e : Event) :
    Replying before bytes (t.apply e, note t.connection j e) := by
  cases e with
  | begin method params => exact replying_begin h method params
  | go caller elapsed => exact replying_withCaller h _ caller (silent_go elapsed)
  | drop caller => exact replying_withCaller h _ caller silent_giveUp
  | notify method params => exact replying_addOther h (silent_notify method params)
  | close grace => exact replying_addOther h (silent_close grace)
  | goOther other elapsed =>
    show Replying before bytes (t.goOther elapsed other, j)
    unfold goOther
    split
    · exact h
    next r hr =>
      have hr' := h.others r (List.mem_of_getElem? hr)
      obtain ⟨hs, hrest⟩ := hr'.poll queues_silent.refl elapsed t.connection
      exact h.silent hs h.callers fun r' hr' =>
        (List.mem_or_eq_of_mem_set hr').elim (h.others r') fun e => e ▸ hrest
  | dropOther other =>
    show Replying before bytes (t.dropOther other, j)
    unfold dropOther
    split
    · exact h
    next c hc =>
      obtain ⟨r, hr, ha⟩ := Option.bind_eq_some_iff.mp hc
      have hs := (h.others r (List.mem_of_getElem? hr)).abandoned ha
      exact h.silent hs h.callers fun r' hr' =>
        (List.mem_or_eq_of_mem_set hr').elim (h.others r') fun e => e ▸ Routine.movesBy_done ()
  | read => exact replying_read h
  | write => exact replying_write h
  | deliver b =>
    have hs : Silent t.connection (t.connection.deliver b) := by
      unfold deliver
      split
      · exact queues_silent.refl t.connection
      · exact ⟨rfl, rfl, rfl, rfl⟩
    exact h.same hs
  | hangUp => exact h.same ⟨rfl, rfl, rfl, rfl⟩
  | stopListening => exact h.same ⟨rfl, rfl, rfl, rfl⟩
  | exited =>
    refine h.same (c := t.connection.exited) ?_
    rw [exited_eq]
    exact ⟨rfl, rfl, rfl, rfl⟩
  | kill =>
    refine h.same (c := t.connection.kill) ?_
    rw [kill_eq]
    exact ⟨rfl, rfl, rfl, rfl⟩

theorem replying_follow (events : List Event) (w : Traffic × Journal)
    (h : Replying before bytes w) : Replying before bytes (follow w events) := by
  induction events generalizing w with
  | nil => exact h
  | cons e events ih => exact ih _ (replying_apply h e)

theorem replying_start (c : Connection) :
    Replying (c.toWrite.filter Json.isReply) c.outbound (⟨c, [], []⟩, {}) where
  handed := rfl
  wire := (List.append_nil _).symm
  up _ := (List.append_nil _).symm
  down _ := List.nil_prefix
  callers _ hk := nomatch hk
  others _ hr := nomatch hr

theorem effect_readNext {c : Connection} {v : Json} (h : c.taken? = some v) :
    ∃ rest, Effect v (Incoming.replyTo? v) (Incoming.told? v) { c with inbound := rest }
      c.readNext.1 := by
  obtain ⟨hw, rest, hread⟩ := readNext_of_taken h
  rw [hread]
  exact ⟨rest, effect_dispatch v { c with inbound := rest } hw⟩

/-- What is withheld is queued by the next turn of the reader that has room for it. -/
theorem readNext_of_withheld {c : Connection} {ticket : Nat} {m : Json}
    (hw : c.withheld = some (ticket, m)) (hroom : c.admits ticket = true) :
    c.readNext.1.withheld = none ∧
      c.readNext.1.outbox = c.outbox ++ if c.writing then [.message m] else [] := by
  unfold readNext release
  rw [hw]
  dsimp only
  rw [if_pos hroom]
  exact ⟨rfl, outbox_enqueue _ c⟩

/-- **Every value that the reader takes has the one effect that goes with its members, and along any
run the replies written, queued and withheld are the replies to the requests taken, in their order;
what is handed over are the notifications taken.** -/
theorem run_routed (c : Connection) (events : List Event) :
    let w := follow (⟨c, [], []⟩, {}) events
    let replies := c.toWrite.filter Json.isReply ++ w.2.received.filterMap Incoming.replyTo?
    (∀ (c : Connection) (v : Json), c.taken? = some v → ∃ rest,
        Effect v (Incoming.replyTo? v) (Incoming.told? v) { c with inbound := rest }
          c.readNext.1) ∧
      (∀ (c : Connection) (ticket : Nat) (m : Json), c.withheld = some (ticket, m) →
        c.admits ticket = true → c.readNext.1.withheld = none ∧
          c.readNext.1.outbox = c.outbox ++ if c.writing then [.message m] else []) ∧
      w.1 = Traffic.run ⟨c, [], []⟩ events ∧
      w.2.handed = w.2.received.filterMap Incoming.told? ∧
      w.1.connection.outbound = c.outbound ++ w.2.written.flatMap Frame.write ∧
      w.2.written.filter Json.isReply <+: replies ∧
      (w.1.connection.writing = true →
        (w.2.written ++ w.1.connection.toWrite).filter Json.isReply = replies) := by
  intro w replies
  have h := replying_follow events _ (replying_start c)
  refine ⟨fun _ _ => effect_readNext, fun _ _ _ => readNext_of_withheld, follow_fst _ events,
    h.handed, h.wire, ?_, h.up⟩
  cases hw : w.1.connection.writing with
  | true =>
    rw [show replies = _ from (h.up hw).symm, List.filter_append]
    exact List.prefix_append _ _
  | false => exact h.down hw

/-- A request whose number is a text, a notification whose number is null, and an answer whose number
is none. -/
example :
    let vs : List Json := [
      .obj [("id", .str "a"), ("method", .str "workspace/configuration"),
        ("params", .obj [("items", .arr [.null, .bool true])])],
      .obj [("error", .null), ("id", .null), ("method", .str "m"), ("result", .null)],
      .obj [("id", .bool true), ("method", .arr []), ("result", .null)]]
    let w := follow (⟨{ pending := [1] }, [], []⟩, {})
      (.deliver (vs.flatMap Frame.write) :: List.replicate 3 .read ++ [.write, .write])
    w.2 = ⟨vs, [⟨"m", none⟩], [Message.answer (.str "a") (.arr [.null, .null])]⟩ ∧
      w.1.connection.pending = [1] := by
  decide +kernel

end Traffic

end CodeBridge
