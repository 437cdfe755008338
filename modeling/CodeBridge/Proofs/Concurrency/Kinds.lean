import CodeBridge.Proofs.Concurrency.Keeps

/-!
# Routines of one kind

All moves of a routine change the state in one way, whatever the state is and whoever has moved in
between.

* `MovesBy R r`   every move of `r`, and every way of dropping it, is related by `R`;
* `MovesBy.poll`, `MovesBy.abandoned`   so is one move, and what is left is of the same kind;
* `movesBy_act`, `MovesBy.bind`, `MovesBy.ensure`, …   routines are taken apart.
-/

namespace CodeBridge.Routine

variable {σ τ α β : Type} {R : σ → σ → Prop}

def MovesBy (R : σ → σ → Prop) : Routine σ α → Prop
  | done _ => True
  | step update next => ∀ s, R s (update s) ∧ MovesBy R (next s)
  | wait _ _ abandon next => (∀ s, R s (abandon s)) ∧ ∀ b t, MovesBy R (next b t)
  | pause abandon next => (∀ s, R s (abandon s)) ∧ MovesBy R (next ())

/-! ## along a run -/

theorem MovesBy.poll {r : Routine σ α} (h : r.MovesBy R) (hrefl : ∀ s, R s s) (elapsed : Nat)
    (s : σ) : R s (r.poll elapsed s).1 ∧ (r.poll elapsed s).2.MovesBy R := by
  cases r with
  | done a => exact ⟨hrefl s, h⟩
  | step update next => exact h s
  | wait ready limit abandon next =>
    by_cases hr : ready s = true
    · rw [poll_of_ready hr]
      exact ⟨hrefl s, h.2 true elapsed⟩
    · cases he : (wait ready limit abandon next).expired elapsed s with
      | true =>
        obtain ⟨-, -, hp⟩ := poll_of_expired he
        rw [hp]
        exact ⟨hrefl s, h.2 false elapsed⟩
      | false =>
        rw [poll_of_neither (Bool.eq_false_iff.mpr hr) he]
        exact ⟨hrefl s, h⟩
  | pause abandon next => exact ⟨hrefl s, h.2⟩

theorem MovesBy.abandoned {r : Routine σ α} (h : r.MovesBy R) {s s' : σ}
    (ha : r.abandoned s = some s') : R s s' := by
  cases r with
  | done a => cases ha
  | step update next => cases ha
  | wait ready limit abandon next =>
    obtain rfl := Option.some.inj ha
    exact h.1 s
  | pause abandon next =>
    obtain rfl := Option.some.inj ha
    exact h.1 s

/-! ## taking routines apart -/

theorem movesBy_done (a : α) : (done a : Routine σ α).MovesBy R := trivial

theorem MovesBy.bind {r : Routine σ α} {f : α → Routine σ β} (h : r.MovesBy R)
    (hf : ∀ a, (f a).MovesBy R) : (r.bind f).MovesBy R := by
  induction r with
  | done a => exact hf a
  | step update next ih => exact fun s => ⟨(h s).1, ih s (h s).2⟩
  | wait ready limit abandon next ih => exact ⟨h.1, fun b t => ih b t (h.2 b t)⟩
  | pause abandon next ih => exact ⟨h.1, ih () h.2⟩

theorem movesBy_act {f : σ → α × σ} (h : ∀ s, R s (f s).2) : (act f).MovesBy R :=
  fun s => ⟨h s, trivial⟩

theorem movesBy_read {f : σ → α} (hrefl : ∀ s, R s s) : (read f).MovesBy R :=
  fun s => ⟨hrefl s, trivial⟩

theorem movesBy_change {f : σ → σ} (h : ∀ s, R s (f s)) : (change f).MovesBy R :=
  fun s => ⟨h s, trivial⟩

theorem movesBy_until {ready : σ → Bool} (hrefl : ∀ s, R s s) : (until_ ready).MovesBy R :=
  ⟨hrefl, fun _ _ => trivial⟩

theorem movesBy_untilWithin {ready : σ → Bool} {limit : Nat} (hrefl : ∀ s, R s s) :
    (untilWithin ready limit).MovesBy R :=
  ⟨hrefl, fun _ _ => trivial⟩

theorem movesBy_any (r : Routine σ α) : r.MovesBy fun _ _ => True := by
  induction r with
  | done a => trivial
  | step update next ih => exact fun s => ⟨trivial, ih s⟩
  | wait ready limit abandon next ih => exact ⟨fun _ => trivial, fun b t => ih b t⟩
  | pause abandon next ih => exact ⟨fun _ => trivial, ih ()⟩

theorem MovesBy.zoom {get : τ → σ} {set : σ → τ → τ} {R : σ → σ → Prop} {R' : τ → τ → Prop}
    {r : Routine σ α} (h : r.MovesBy R) (hset : ∀ t s, R (get t) s → R' t (set s t)) :
    (r.zoom get set).MovesBy R' := by
  induction r with
  | done a => trivial
  | step update next ih => exact fun t => ⟨hset t _ (h (get t)).1, ih _ (h (get t)).2⟩
  | wait ready limit abandon next ih =>
    exact ⟨fun t => hset t _ (h.1 (get t)), fun b n => ih b n (h.2 b n)⟩
  | pause abandon next ih => exact ⟨fun t => hset t _ (h.1 (get t)), ih () h.2⟩

theorem MovesBy.mono {R R' : σ → σ → Prop} {r : Routine σ α} (h : r.MovesBy R)
    (hR : ∀ s s', R s s' → R' s s') : r.MovesBy R' := by
  induction r with
  | done a => trivial
  | step update next ih => exact fun s => ⟨hR s _ (h s).1, ih s (h s).2⟩
  | wait ready limit abandon next ih =>
    exact ⟨fun s => hR s _ (h.1 s), fun b t => ih b t (h.2 b t)⟩
  | pause abandon next ih => exact ⟨fun s => hR s _ (h.1 s), ih () h.2⟩

theorem MovesBy.undoWith {cleanup : σ → σ} {r : Routine σ α} (h : r.MovesBy R)
    (hc : ∀ s s', R s s' → R s (cleanup s')) : (r.undoWith cleanup).MovesBy R := by
  induction r with
  | done a => trivial
  | step update next ih => exact fun s => ⟨(h s).1, ih s (h s).2⟩
  | wait ready limit abandon next ih =>
    exact ⟨fun s => hc s _ (h.1 s), fun b t => ih b t (h.2 b t)⟩
  | pause abandon next ih => exact ⟨fun s => hc s _ (h.1 s), ih () h.2⟩

theorem MovesBy.ensure {cleanup : σ → σ} {r : Routine σ α} (h : r.MovesBy R)
    (hrefl : ∀ s, R s s) (hc : ∀ s s', R s s' → R s (cleanup s')) :
    (r.ensure cleanup).MovesBy R :=
  (h.undoWith hc).bind fun _ s => ⟨hc s s (hrefl s), trivial⟩

end CodeBridge.Routine
