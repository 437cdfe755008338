import CodeBridge.Proofs.Concurrency.Keeps

/-!
# Routines that come to an end

A routine that stays somewhere has to be allowed to go on, by the state or by the time that passes;
apart from that it comes to its end in a number of moves that can be told before.

* `stays`        a routine cannot move now;
* `EndsWithin`   so many moves are enough, whatever the state is in between, as long as `P` holds
                 of it.
-/

namespace CodeBridge.Routine

variable {σ τ α β : Type} {P : σ → Prop} {n m : Nat}

/-- Neither does the state allow to go on nor is the limit over. -/
def stays (elapsed : Nat) (s : σ) : Routine σ α → Bool
  | wait ready limit abandon next => !ready s && !(wait ready limit abandon next).expired elapsed s
  | _ => false

theorem poll_of_stays {r : Routine σ α} {elapsed : Nat} {s : σ} (h : r.stays elapsed s = true) :
    r.poll elapsed s = (s, r) := by
  cases r with
  | wait ready limit abandon next =>
    obtain ⟨hr, he⟩ := Bool.and_eq_true_iff.mp h
    rw [Bool.not_eq_true'] at hr he
    exact poll_of_neither hr he
  | _ => cases h

theorem poll_fst {r : Routine σ α} (hr : ∀ update next, r ≠ step update next) (elapsed : Nat)
    (s : σ) : (r.poll elapsed s).1 = s := by
  cases r with
  | step update next => exact absurd rfl (hr update next)
  | wait ready limit abandon next =>
    cases hs : (wait ready limit abandon next).stays elapsed s with
    | true => rw [poll_of_stays hs]
    | false =>
      cases hready : ready s with
      | true => rw [poll_of_ready hready]
      | false =>
        have he : (wait ready limit abandon next).expired elapsed s = true := by
          simpa [stays, hready] using hs
        rw [(poll_of_expired he).2.2]
  | _ => rfl

def EndsWithin (P : σ → Prop) : Routine σ α → Nat → Prop
  | done _, _ => True
  | step _ next, n => 0 < n ∧ ∀ s, P s → EndsWithin P (next s) (n - 1)
  | wait _ _ _ next, n => 0 < n ∧ ∀ b t, EndsWithin P (next b t) (n - 1)
  | pause _ next, n => 0 < n ∧ EndsWithin P (next ()) (n - 1)

/-! ## along a run -/

theorem EndsWithin.poll {r : Routine σ α} (h : r.EndsWithin P n) {elapsed : Nat} {s : σ}
    (hs : P s) (hmoves : r.stays elapsed s = false) :
    (r.poll elapsed s).2.EndsWithin P (n - 1) := by
  cases r with
  | done a => exact h
  | step update next => exact h.2 s hs
  | wait ready limit abandon next =>
    by_cases hr : ready s = true
    · rw [poll_of_ready hr]
      exact h.2 true elapsed
    · have he : (wait ready limit abandon next).expired elapsed s = true := by
        simpa [stays, hr] using hmoves
      rw [(poll_of_expired he).2.2]
      exact h.2 false elapsed
  | pause abandon next => exact h.2

theorem EndsWithin.eq_done {r : Routine σ α} (h : r.EndsWithin P 0) : ∃ a, r = done a := by
  cases r with
  | done a => exact ⟨a, rfl⟩
  | step update next => exact absurd h.1 (Nat.lt_irrefl 0)
  | wait ready limit abandon next => exact absurd h.1 (Nat.lt_irrefl 0)
  | pause abandon next => exact absurd h.1 (Nat.lt_irrefl 0)

/-! ## taking routines apart -/

theorem endsWithin_done (a : α) : (done a : Routine σ α).EndsWithin P n := trivial

theorem EndsWithin.mono {r : Routine σ α} (h : r.EndsWithin P n) (hle : n ≤ m) :
    r.EndsWithin P m := by
  induction r generalizing n m with
  | done a => trivial
  | step update next ih =>
    exact ⟨Nat.lt_of_lt_of_le h.1 hle, fun s hs => ih s (h.2 s hs) (Nat.sub_le_sub_right hle 1)⟩
  | wait ready limit abandon next ih =>
    exact ⟨Nat.lt_of_lt_of_le h.1 hle, fun b t => ih b t (h.2 b t) (Nat.sub_le_sub_right hle 1)⟩
  | pause abandon next ih =>
    exact ⟨Nat.lt_of_lt_of_le h.1 hle, ih () h.2 (Nat.sub_le_sub_right hle 1)⟩

theorem EndsWithin.bind {r : Routine σ α} {f : α → Routine σ β} (h : r.EndsWithin P n)
    (hf : ∀ a, (f a).EndsWithin P m) : (r.bind f).EndsWithin P (n + m) := by
  induction r generalizing n with
  | done a => exact (hf a).mono (Nat.le_add_left m n)
  | step update next ih =>
    refine ⟨by have := h.1; omega, fun s hs => (ih s (h.2 s hs)).mono ?_⟩
    have := h.1
    omega
  | wait ready limit abandon next ih =>
    refine ⟨by have := h.1; omega, fun b t => (ih b t (h.2 b t)).mono ?_⟩
    have := h.1
    omega
  | pause abandon next ih =>
    refine ⟨by have := h.1; omega, (ih () h.2).mono ?_⟩
    have := h.1
    omega

theorem endsWithin_act {f : σ → α × σ} : (act f).EndsWithin P 1 :=
  ⟨Nat.one_pos, fun _ _ => trivial⟩

theorem endsWithin_read {f : σ → α} : (read f).EndsWithin P 1 :=
  ⟨Nat.one_pos, fun _ _ => trivial⟩

theorem endsWithin_until {ready : σ → Bool} : (until_ ready).EndsWithin P 1 :=
  ⟨Nat.one_pos, fun _ _ => trivial⟩

theorem endsWithin_untilWithin {ready : σ → Bool} {limit : Nat} :
    (untilWithin ready limit).EndsWithin P 1 :=
  ⟨Nat.one_pos, fun _ _ => trivial⟩

theorem EndsWithin.undoWith {cleanup : σ → σ} {r : Routine σ α} (h : r.EndsWithin P n) :
    (r.undoWith cleanup).EndsWithin P n := by
  induction r generalizing n with
  | done a => trivial
  | step update next ih => exact ⟨h.1, fun s hs => ih s (h.2 s hs)⟩
  | wait ready limit abandon next ih => exact ⟨h.1, fun b t => ih b t (h.2 b t)⟩
  | pause abandon next ih => exact ⟨h.1, ih () h.2⟩

theorem EndsWithin.ensure {cleanup : σ → σ} {r : Routine σ α} (h : r.EndsWithin P n) :
    (r.ensure cleanup).EndsWithin P (n + 1) :=
  h.undoWith.bind fun _ => ⟨Nat.one_pos, fun _ _ => trivial⟩

theorem EndsWithin.zoom {get : τ → σ} {set : σ → τ → τ} {Q : τ → Prop} {r : Routine σ α}
    (h : r.EndsWithin (fun _ => True) n) : (r.zoom get set).EndsWithin Q n := by
  induction r generalizing n with
  | done a => trivial
  | step update next ih => exact ⟨h.1, fun t _ => ih (get t) (h.2 (get t) trivial)⟩
  | wait ready limit abandon next ih => exact ⟨h.1, fun b t => ih b t (h.2 b t)⟩
  | pause abandon next ih => exact ⟨h.1, ih () h.2⟩

end CodeBridge.Routine
