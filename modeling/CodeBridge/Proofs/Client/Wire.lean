import CodeBridge.Proofs.Client.Talk

/-!
# What goes over the wire

What operations queue is written in the order of queueing, replies to the server in between; when
the writer stops, what has been written is a beginning of it.

* `asked`   messages that are no replies;
* `Wired`   what is written and what waits for the writer, against what operations have queued:
            `Wired.move`, `wired_happen`.
-/

namespace CodeBridge

namespace Course

open Connection

/-- The messages that are no replies to the server. -/
def asked (messages : List Json) : List Json := messages.filter fun m => !m.isReply

theorem asked_append (a b : List Json) : asked (a ++ b) = asked a ++ asked b := List.filter_append ..

theorem asked_eq_nil {ms : List Json} (h : ∀ m ∈ ms, m.isReply = true) : asked ms = [] :=
  List.filter_eq_nil_iff.mpr fun m hm => by simp [h m hm]

theorem asked_eq_self {ms : List Json} (h : ∀ m ∈ ms, m.isReply = false) : asked ms = ms :=
  List.filter_eq_self.mpr fun m hm => by simp [h m hm]

def Replies (c : Connection) : Prop := ∀ ticket m, c.withheld = some (ticket, m) → m.isReply = true

structure Wired (written : List Json) (items : List Item) (c : Connection) : Prop where
  gave : c.Gave written
  replies : Replies c
  up : c.writing = true → asked (written ++ c.queued) = tolds items
  down : c.writing = false → asked written <+: tolds items

section
variable {ws : List Json} {items : List Item}

theorem Wired.note {c : Connection} (h : Wired ws items c) {more : List Item}
    (hmore : tolds more = []) : Wired ws (items ++ more) c := by
  have ht : tolds (items ++ more) = tolds items := by
    rw [tolds_append, hmore, List.append_nil]
  exact ⟨h.gave, h.replies, fun hw => (h.up hw).trans ht.symm, fun hw => ht.symm ▸ h.down hw⟩

theorem Wired.same {c c' : Connection} (h : Wired ws items c) (hu : Unsaid c c') :
    Wired ws items c' where
  gave := hu.outbound.trans h.gave
  replies ticket m hm := h.replies ticket m (hu.withheld.symm.trans hm)
  up hw := by
    have hq : c'.queued = c.queued := by
      unfold queued
      rw [hu.outbox]
    rw [hq]
    exact h.up (hu.writing.symm.trans hw)
  down hw := h.down (hu.writing.symm.trans hw)

theorem Wired.move {c c' : Client} {g g' : List Item} (h : Wired ws items c.connection)
    (hm : Move (c, g) (c', g')) :
    Wired ws (items ++ (added c c').map .told) c'.connection := by
  obtain ⟨more, hout, hmore⟩ := hm.outbox
  have hadded : added c c' = more.filterMap Outgoing.message? := added_append hout
  have ht : tolds (items ++ (added c c').map .told) = tolds items ++ added c c' := by
    rw [tolds_append, tolds_told]
  refine ⟨hm.outbound.trans h.gave, fun ticket m hw => ?_, fun hw => ?_, fun hw => ?_⟩
  · exact h.replies ticket m (hm.withheld.symm.trans hw)
  · have hq : c'.connection.queued = c.connection.queued ++ added c c' :=
      (queued_append hout).trans (congrArg _ hadded.symm)
    have hup := h.up (hm.writing.symm.trans hw)
    rw [ht, hq, ← List.append_assoc, asked_append, hup, asked_eq_self hm.named]
  · rw [ht]
    exact (h.down (hm.writing.symm.trans hw)).trans (List.prefix_append _ _)

/-- The writer is down: nothing is written any more. -/
theorem Wired.stopped {c c' : Connection} (h : Wired ws items c) (hup : c.writing = true)
    (hw : c'.writing = false) (hwithheld : c'.withheld = c.withheld)
    (houtbound : c'.outbound = c.outbound) : Wired ws items c' where
  gave := houtbound.trans h.gave
  replies ticket m hm := h.replies ticket m (hwithheld.symm.trans hm)
  up hw' := absurd (hw.symm.trans hw') Bool.false_ne_true
  down _ := by
    rw [← h.up hup, asked_append]
    exact List.prefix_append _ _

theorem Wired.writeNext {c : Connection} (h : Wired ws items c) (hcan : c.canWrite = true) :
    Wired (ws ++ c.passing) items c.writeNext := by
  have hup : c.writing = true := (Bool.and_eq_true_iff.mp hcan).1
  have hnothing (hp : c.passing = []) : ws ++ c.passing = ws := by rw [hp, List.append_nil]
  unfold Connection.writeNext
  split
  next hout =>
    rw [hnothing (by simp only [passing, hout])]
    exact h
  next rest hout =>
    rw [hnothing (by simp only [passing, hout])]
    exact h.stopped hup rfl rfl rfl
  next v rest hout =>
    split
    next hlistening =>
      have hpassing : c.passing = [v] := by simp only [passing, hout, hlistening, if_true]
      have hqueued : c.queued = v :: rest.filterMap Outgoing.message? := by
        unfold queued
        rw [hout]
        rfl
      rw [hpassing]
      refine ⟨?_, h.replies, fun _ => ?_, fun hw => Bool.noConfusion (hup.symm.trans hw)⟩
      · show c.outbound ++ Frame.write v = (ws ++ [v]).flatMap Frame.write
        rw [List.flatMap_append, List.flatMap_singleton, show c.outbound = _ from h.gave]
      · rw [← h.up hup, hqueued]
        exact congrArg asked (List.append_assoc ws [v] _)
    next hlistening =>
      rw [hnothing (by simp only [passing, hout, if_neg hlistening])]
      exact h.stopped hup rfl rfl rfl

theorem replies_release {c : Connection} (h : Replies c) : Replies c.release := by
  unfold release
  split
  · exact h
  · split
    · exact fun _ _ hm => nomatch hm
    · exact h

theorem replies_readNext {c : Connection} (h : Replies c) : Replies c.readNext.1 := by
  unfold Connection.readNext
  split
  · exact replies_release h
  · split
    · exact h
    next v rest _ =>
      unfold dispatch
      split
      · exact h
      next id body _ =>
        show Replies (Connection.complete id _ _)
        unfold complete
        split <;> exact h
      next id method params _ =>
        refine replies_release fun ticket m hm => ?_
        rw [← (Prod.mk.inj (Option.some.inj hm)).2]
        exact (repliesTo_reply id method params).isReply
      · exact h
    · split <;> exact h
    · exact h

theorem Wired.readNext {c : Connection} (h : Wired ws items c) : Wired ws items c.readNext.1 := by
  obtain ⟨hadds, -⟩ := adds_readNext c
  have hreplies := replies_readNext h.replies
  have hasked {k : Connection} (hk : Replies k) : asked k.toWrite = asked k.queued := by
    unfold toWrite
    rw [asked_append]
    refine (congrArg _ (asked_eq_nil fun m hm => ?_)).trans (List.append_nil _)
    obtain ⟨⟨ticket, m'⟩, hw, rfl⟩ := Option.map_eq_some_iff.mp (Option.mem_toList.mp hm)
    exact hk ticket m' hw
  have hnew : asked (c.taken?.toList.filterMap Incoming.replyTo?) = [] := by
    refine asked_eq_nil fun m hm => ?_
    obtain ⟨v, -, hv⟩ := List.mem_filterMap.mp hm
    exact Incoming.isReply_replyTo? hv
  refine ⟨hadds.outbound.trans h.gave, hreplies, fun hw => ?_,
    fun hw => h.down (hadds.writing.symm.trans hw)⟩
  have hup := hadds.writing.symm.trans hw
  rw [← h.up hup, asked_append, asked_append, ← hasked hreplies, hadds.toWrite hup, asked_append,
    hnew, List.append_nil, hasked h.replies]

theorem wired_happen {c : Client} (h : Wired ws items c.connection) (e : Event) :
    Wired (ws ++ e.writes c.connection) (items ++ e.notes c) (e.happen c).connection := by
  have hquiet (hu : Unsaid c.connection (e.happen c).connection) (hw : e.writes c.connection = []) :
      Wired (ws ++ e.writes c.connection) (items ++ e.notes c) (e.happen c).connection := by
    rw [hw, List.append_nil]
    exact (h.same hu).note (tolds_notes c e)
  cases e with
  | begin step => exact hquiet ⟨rfl, rfl, rfl, rfl⟩ rfl
  | go elapsed => exact hquiet ⟨rfl, rfl, rfl, rfl⟩ rfl
  | read =>
    refine Wired.note ?_ (tolds_notes c _)
    show Wired (ws ++ []) items (if c.connection.canRead then c.readNext else c).connection
    rw [List.append_nil]
    split
    · rw [readNext_eq]
      exact h.readNext
    · exact h
  | write =>
    refine Wired.note ?_ (tolds_notes c _)
    show Wired (ws ++ if c.connection.canWrite then c.connection.passing else []) items
      (if c.connection.canWrite then c.setConnection c.connection.writeNext else c).connection
    split
    next hcan => exact h.writeNext hcan
    next => exact (List.append_nil ws).symm ▸ h
  | deliver bytes =>
    refine hquiet ?_ rfl
    show Unsaid c.connection (c.connection.deliver bytes)
    unfold deliver
    split <;> exact ⟨rfl, rfl, rfl, rfl⟩
  | hangUp => exact hquiet ⟨rfl, rfl, rfl, rfl⟩ rfl
  | stopListening => exact hquiet ⟨rfl, rfl, rfl, rfl⟩ rfl
  | exited => exact hquiet ⟨rfl, rfl, rfl, rfl⟩ rfl
  | kill => exact hquiet ⟨rfl, rfl, rfl, rfl⟩ rfl

end

end Course

end CodeBridge
