import CodeBridge.Proofs.Connection.Traffic

/-!
# The table of pending calls

What the operations of a connection do to the table of pending calls and to the answers that wait
to be taken.

* `SameTable`, `Quiet`   both are left alone, or the table may be emptied, as by all operations but
                         those of calls and answers;
* `dispatch_other`       a value from the server is about one call at most;
* `readNext_table`       the reader completes the call whose answer it takes, or nothing.
-/

namespace CodeBridge.Connection

/-! ## operations that leave the table alone -/

structure SameTable (c c' : Connection) : Prop where
  nextId : c'.nextId = c.nextId
  answers : c'.answers = c.answers
  pending : c'.pending = c.pending

namespace SameTable

theorem refl (c : Connection) : SameTable c c := ⟨rfl, rfl, rfl⟩

theorem trans {c c' c'' : Connection} (h : SameTable c c') (h' : SameTable c' c'') :
    SameTable c c'' :=
  ⟨h'.nextId.trans h.nextId, h'.answers.trans h.answers, h'.pending.trans h.pending⟩

theorem answer? {c c' : Connection} (h : SameTable c c') (id : UInt64) :
    c'.answer? id = c.answer? id := by
  unfold Connection.answer?
  rw [h.answers]

end SameTable

theorem same_joinSenders (c : Connection) : SameTable c c.joinSenders.2 := ⟨rfl, rfl, rfl⟩

theorem same_leaveSenders (ticket : Nat) (c : Connection) : SameTable c (c.leaveSenders ticket) :=
  ⟨rfl, rfl, rfl⟩

theorem same_enqueue (message : Outgoing) (c : Connection) :
    SameTable c (c.enqueue message).2 := by
  unfold enqueue
  split
  · exact ⟨rfl, rfl, rfl⟩
  · exact .refl c

theorem same_claimProcess (c : Connection) : SameTable c c.claimProcess.2 := ⟨rfl, rfl, rfl⟩

theorem same_exited (c : Connection) : SameTable c c.exited := ⟨rfl, rfl, rfl⟩

theorem same_kill (c : Connection) : SameTable c c.kill := ⟨rfl, rfl, rfl⟩

theorem same_tryKill (c : Connection) : SameTable c c.tryKill.2 := by
  unfold tryKill
  split
  · exact same_kill c
  · exact .refl c

theorem same_deliver (bytes : Bytes) (c : Connection) : SameTable c (c.deliver bytes) := by
  unfold deliver
  split
  · exact .refl c
  · exact ⟨rfl, rfl, rfl⟩

theorem same_release (c : Connection) : SameTable c c.release := by
  unfold release
  split
  · exact .refl c
  next ticket reply _ =>
    split
    · have h := (same_enqueue (.message reply) c).trans (same_leaveSenders ticket _)
      exact ⟨h.nextId, h.answers, h.pending⟩
    · exact .refl c

theorem same_reply (message : Json) (c : Connection) : SameTable c (c.reply message) := by
  have h : SameTable c { c.joinSenders.2 with withheld := some (c.joinSenders.1, message) } :=
    ⟨rfl, rfl, rfl⟩
  exact h.trans (same_release _)

structure Quiet (c c' : Connection) : Prop where
  nextId : c'.nextId = c.nextId
  answers : c'.answers = c.answers
  pending : c'.pending = c.pending ∨ c'.pending = []

theorem SameTable.quiet {c c' : Connection} (h : SameTable c c') : Quiet c c' :=
  ⟨h.nextId, h.answers, .inl h.pending⟩

theorem Quiet.mem {c c' : Connection} (h : Quiet c c') (id : UInt64) (hm : id ∈ c'.pending) :
    id ∈ c.pending := by
  rcases h.pending with e | e
  · exact e ▸ hm
  · rw [e] at hm
    cases hm

theorem quiet_shut (c : Connection) : Quiet c c.shut := ⟨rfl, rfl, .inr rfl⟩

theorem quiet_writeNext (c : Connection) : Quiet c c.writeNext := by
  unfold writeNext
  split
  · exact (SameTable.refl c).quiet
  · exact ⟨rfl, rfl, .inl rfl⟩
  · split
    · exact ⟨rfl, rfl, .inl rfl⟩
    · exact ⟨rfl, rfl, .inr rfl⟩

/-! ## completing and forgetting -/

theorem mem_forget (id other : UInt64) (c : Connection) :
    other ∈ (c.forget id).pending ↔ other ∈ c.pending ∧ other ≠ id := by
  unfold forget
  rw [List.mem_filter, decide_eq_true_iff]

theorem answer?_forget (id other : UInt64) (c : Connection) (h : other ≠ id) :
    (c.forget id).answer? other = c.answer? other := by
  unfold answer? forget
  rw [List.find?_filter]
  refine congrArg (Option.map _ <| List.find? · c.answers) (funext fun a => ?_)
  by_cases ha : a.1 = other
  · simp [ha, h]
  · simp [ha]

theorem mem_complete (id other : UInt64) (answer : Answer) (c : Connection) (h : other ≠ id) :
    other ∈ (c.complete id answer).pending ↔ other ∈ c.pending := by
  unfold complete
  split
  · rw [List.mem_filter, decide_eq_true_iff]
    exact and_iff_left h
  · exact Iff.rfl

theorem answer?_complete (id other : UInt64) (answer : Answer) (c : Connection) (h : other ≠ id) :
    (c.complete id answer).answer? other = c.answer? other := by
  unfold complete
  split
  · unfold answer?
    rw [List.find?_append, List.find?_singleton]
    simp [Ne.symm h]
  · rfl

theorem not_mem_complete (id : UInt64) (answer : Answer) (c : Connection) (h : id ∈ c.pending) :
    id ∉ (c.complete id answer).pending := by
  unfold complete
  rw [if_pos (List.contains_iff_mem.mpr h)]
  intro hm
  exact (of_decide_eq_true (List.mem_filter.mp hm).2) rfl

theorem complete_of_not_mem (id : UInt64) (answer : Answer) (c : Connection)
    (h : id ∉ c.pending) : c.complete id answer = c :=
  if_neg fun hc => h (List.contains_iff_mem.mp hc)

theorem complete_sub (id : UInt64) (answer : Answer) (c : Connection) :
    (c.complete id answer).nextId = c.nextId ∧
      (∀ other ∈ (c.complete id answer).pending, other ∈ c.pending) ∧
      ∀ a ∈ (c.complete id answer).answers, a ∈ c.answers ∨ a.1 ∈ c.pending := by
  by_cases h : id ∈ c.pending
  · unfold complete
    rw [if_pos (List.contains_iff_mem.mpr h)]
    refine ⟨rfl, fun other hm => (List.mem_filter.mp hm).1, fun a ha => ?_⟩
    rcases List.mem_append.mp ha with ha | ha
    · exact .inl ha
    · rw [List.mem_singleton.mp ha]
      exact .inr h
  · rw [complete_of_not_mem id answer c h]
    exact ⟨rfl, fun _ hm => hm, fun _ ha => .inl ha⟩

theorem answer?_complete_self (id : UInt64) (answer : Answer) (c : Connection)
    (h : id ∈ c.pending) (hn : c.answer? id = none) :
    (c.complete id answer).answer? id = some answer := by
  unfold complete
  rw [if_pos (List.contains_iff_mem.mpr h)]
  unfold answer? at hn ⊢
  rw [List.find?_append, Option.map_eq_none_iff.mp hn]
  simp

/-- A value from the server is about the call whose number it answers and about no other. -/
theorem dispatch_other (c : Connection) (v : Json) (id : UInt64)
    (h : ∀ body, Incoming.ofJson? v ≠ some (.answer id body)) :
    (id ∈ (c.dispatch v).1.pending ↔ id ∈ c.pending) ∧
      (c.dispatch v).1.answer? id = c.answer? id := by
  unfold dispatch
  split
  · exact ⟨Iff.rfl, rfl⟩
  next other body hv =>
    have hne : id ≠ other := fun e => h body (e ▸ hv)
    exact ⟨mem_complete other id _ c hne, answer?_complete other id _ c hne⟩
  next requestId method params _ =>
    have hs := same_reply (Incoming.reply requestId method params) c
    exact ⟨by rw [hs.pending], hs.answer? id⟩
  · exact ⟨Iff.rfl, rfl⟩

theorem readNext_table (c : Connection) :
    match c.answered? with
    | some (id, body) =>
      ∃ c', SameTable c c' ∧ c.readNext.1 = c'.complete id (Answer.ofBody body)
    | none => Quiet c c.readNext.1 := by
  unfold answered? readNext
  by_cases hw : c.withheld.isSome = true
  · rw [if_pos hw, if_pos hw]
    exact (same_release c).quiet
  · rw [if_neg hw, if_neg hw]
    cases hf : Frame.next c.inboundEnded c.inbound with
    | none => exact (SameTable.refl c).quiet
    | some next =>
      obtain ⟨item, rest⟩ := next
      cases item with
      | frame v =>
        have hrest : SameTable c { c with inbound := rest } := ⟨rfl, rfl, rfl⟩
        simp only [dispatch]
        cases hv : Incoming.ofJson? v with
        | none => exact hrest.quiet
        | some incoming =>
          cases incoming with
          | answer id body => exact ⟨_, hrest, rfl⟩
          | request id method params => exact (hrest.trans (same_reply _ _)).quiet
          | notification n => exact hrest.quiet
      | fault f =>
        show Quiet c (if f.recoverable then _ else _ : Connection × Option Notification).1
        split
        · exact ⟨rfl, rfl, .inl rfl⟩
        · exact ⟨rfl, rfl, .inr rfl⟩
      | finished => exact ⟨rfl, rfl, .inr rfl⟩

end CodeBridge.Connection
