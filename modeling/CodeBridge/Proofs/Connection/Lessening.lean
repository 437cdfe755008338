import CodeBridge.Proofs.Connection.Collapse
import CodeBridge.Proofs.Connection.Correlation
import CodeBridge.Proofs.Connection.Kinds
import CodeBridge.Proofs.Connection.Queue

/-!
# Changes to the table of pending calls

But for the call that enters, nobody adds to the table.

* `Tame`      table, answers and flag are left alone;
* `Lessens`   nothing is added to the table, no answer comes to who has no entry, the flag stays.
-/

namespace CodeBridge

namespace Connection

structure Tame (c c' : Connection) : Prop where
  nextId : c'.nextId = c.nextId
  pending : c'.pending = c.pending
  answers : c'.answers = c.answers
  closed : c'.closed = c.closed

/-- Nothing is added to the table, no answer comes for who has no entry, and the flag stays. -/
structure Lessens (c c' : Connection) : Prop where
  nextId : c'.nextId = c.nextId
  pending : ∀ id ∈ c'.pending, id ∈ c.pending
  answers : ∀ id, id ∉ c.pending → c.answer? id = none → c'.answer? id = none
  closed : c.closed = true → c'.closed = true

theorem queues_tame : Queues Tame where
  refl _ := ⟨rfl, rfl, rfl, rfl⟩
  trans h h' := ⟨h'.nextId.trans h.nextId, h'.pending.trans h.pending,
    h'.answers.trans h.answers, h'.closed.trans h.closed⟩
  join _ := ⟨rfl, rfl, rfl, rfl⟩
  leave _ _ := ⟨rfl, rfl, rfl, rfl⟩

theorem Tame.lessens {c c' : Connection} (h : Tame c c') : Lessens c c' where
  nextId := h.nextId
  pending _ hm := h.pending ▸ hm
  answers id _ hn := by
    unfold answer? at hn ⊢
    rwa [h.answers]
  closed hc := h.closed.trans hc

theorem Lessens.trans {c c' c'' : Connection} (h : Lessens c c') (h' : Lessens c' c'') :
    Lessens c c'' where
  nextId := h'.nextId.trans h.nextId
  pending id hm := h.pending id (h'.pending id hm)
  answers id hm hn := h'.answers id (fun hm' => hm (h.pending id hm')) (h.answers id hm hn)
  closed hc := h'.closed (h.closed hc)

theorem tame_enqueue (message : Outgoing) (c : Connection) : Tame c (c.enqueue message).2 := by
  unfold enqueue
  split
  · exact ⟨rfl, rfl, rfl, rfl⟩
  · exact queues_tame.refl c

theorem tame_notify (method : String) (params : Option Json) :
    (notify method params).run.MovesBy Tame :=
  movesBy_notify queues_tame fun c => tame_enqueue _ c

theorem tame_seeOff (grace : Nat) : (seeOff grace).MovesBy Tame := by
  have hkill (c : Connection) : Tame c c.tryKill.2 := by
    unfold tryKill
    split
    · exact ⟨rfl, rfl, rfl, rfl⟩
    · exact queues_tame.refl c
  have hreap := movesBy_reap queues_tame grace (fun _ => ⟨rfl, rfl, rfl, rfl⟩) hkill
  exact (movesBy_post queues_tame (tame_enqueue .stop)).bind fun _ =>
    hreap.bind fun _ => Routine.movesBy_done ()

theorem lessens_forget (id : UInt64) (c : Connection) : Lessens c (c.forget id) where
  nextId := rfl
  pending other hm := ((mem_forget id other c).mp hm).1
  answers other _ hn := by
    unfold answer? forget at *
    rw [Option.map_eq_none_iff, List.find?_eq_none] at hn ⊢
    exact fun a ha => hn a (List.mem_filter.mp ha).1
  closed hc := hc

theorem lessens_complete (id : UInt64) (answer : Answer) (c : Connection) :
    Lessens c (c.complete id answer) := by
  by_cases h : id ∈ c.pending
  · refine ⟨(complete_sub id answer c).1, (complete_sub id answer c).2.1, fun other hm hn => ?_, fun hc => ?_⟩
    · have hne : other ≠ id := fun e => hm (e ▸ h)
      rwa [answer?_complete id other answer c hne]
    · unfold complete
      split <;> exact hc
  · rw [complete_of_not_mem id answer c h]
    exact (queues_tame.refl c).lessens

theorem lessens_dropPending (c : Connection) : Lessens c c.dropPending :=
  ⟨rfl, fun _ hm => absurd hm List.not_mem_nil, fun _ _ hn => hn, fun hc => hc⟩

theorem lessens_markClosed (c : Connection) : Lessens c c.markClosed :=
  ⟨rfl, fun _ hm => hm, fun _ _ hn => hn, fun _ => rfl⟩

theorem tame_release (c : Connection) : Tame c c.release := by
  unfold release
  split
  · exact queues_tame.refl c
  next ticket reply _ =>
    split
    · have h := queues_tame.trans (tame_enqueue (.message reply) c) (queues_tame.leave ticket _)
      exact ⟨h.nextId, h.pending, h.answers, h.closed⟩
    · exact queues_tame.refl c

theorem tame_reply (m : Json) (c : Connection) : Tame c (c.reply m) := by
  have h : Tame c { c.joinSenders.2 with withheld := some (c.joinSenders.1, m) } := ⟨rfl, rfl, rfl, rfl⟩
  exact queues_tame.trans h (tame_release _)

theorem lessens_readNext (c : Connection) : Lessens c c.readNext.1 := by
  have hdead (d : Connection) (hd : Tame c d) : Lessens c d.shut :=
    hd.lessens.trans ((lessens_markClosed d).trans (lessens_dropPending d.markClosed))
  unfold readNext
  split
  · exact (tame_release c).lessens
  · split
    · exact (queues_tame.refl c).lessens
    next v rest _ =>
      have hrest : Lessens c { c with inbound := rest } :=
        Tame.lessens ⟨rfl, rfl, rfl, rfl⟩
      unfold dispatch
      split
      · exact hrest
      · exact hrest.trans (lessens_complete _ _ _)
      · exact hrest.trans (tame_reply _ _).lessens
      · exact hrest
    · split
      · exact Tame.lessens ⟨rfl, rfl, rfl, rfl⟩
      · exact hdead _ ⟨rfl, rfl, rfl, rfl⟩
    · exact hdead _ ⟨rfl, rfl, rfl, rfl⟩

theorem lessens_writeNext (c : Connection) : Lessens c c.writeNext := by
  unfold writeNext
  split
  · exact (queues_tame.refl c).lessens
  · exact Tame.lessens ⟨rfl, rfl, rfl, rfl⟩
  · split
    · exact Tame.lessens ⟨rfl, rfl, rfl, rfl⟩
    · exact ⟨rfl, fun _ hm => absurd hm List.not_mem_nil, fun _ _ hn => hn, fun _ => rfl⟩

/-- A call touches the table only when it leaves. -/
theorem tame_act {id : UInt64} {method : String} {params : Option Json} {s : Stage}
    (hs : ∀ result, s ≠ .leaving result) (c : Connection) :
    Tame c (s.act id method params c) := by
  cases s with
  | sending => exact queues_tame.join c
  | queueing ticket => exact tame_enqueue _ c
  | posted ticket queued => exact queues_tame.leave ticket c
  | leaving result => exact absurd rfl (hs result)
  | _ => exact queues_tame.refl c

theorem lessens_act {id : UInt64} {method : String} {params : Option Json} (s : Stage)
    (c : Connection) : Lessens c (s.act id method params c) := by
  by_cases hs : ∃ result, s = .leaving result
  · obtain ⟨result, rfl⟩ := hs
    exact lessens_forget id c
  · exact (tame_act (fun result h => hs ⟨result, h⟩) c).lessens

end Connection

end CodeBridge
