import CodeBridge.Proofs.Concurrency.Keeps

/-!
# What a routine comes to by itself

A routine that shares its state with others sees of them only what the state is when it moves.

* `along`       what is left of a routine after moves at some moments, each with its clock and the
                state that was there;
* `poll_bind`, `along_bind_done`   of two routines one after the other the first one moves first;
* `bind_eq_done`, `zoom_eq_done`   when a routine that is made of others has ended;
* `poll_zoom`   on a part of a larger state a routine moves as it does on that part;
* `through`     what a routine that never stays anywhere comes to when nobody else moves.
-/

namespace CodeBridge.Routine

variable {σ τ α β : Type}

/-- What is left of a routine after moves at some moments. -/
def along (r : Routine σ α) (moments : List (Nat × σ)) : Routine σ α :=
  moments.foldl (fun r m => (r.poll m.1 m.2).2) r

theorem along_concat (r : Routine σ α) (moments : List (Nat × σ)) (m : Nat × σ) :
    r.along (moments ++ [m]) = ((r.along moments).poll m.1 m.2).2 := by
  unfold along
  rw [List.foldl_append]
  rfl

/-- A routine that has not ended moves before what comes after it. -/
theorem poll_bind {r : Routine σ α} (h : ∀ a, r ≠ done a) (f : α → Routine σ β) (elapsed : Nat)
    (s : σ) :
    (r.bind f).poll elapsed s = ((r.poll elapsed s).1, (r.poll elapsed s).2.bind f) := by
  cases r with
  | done a => exact absurd rfl (h a)
  | step update next => rfl
  | wait ready limit abandon next =>
    simp only [bind, poll]
    cases limit with
    | none => split <;> rfl
    | some n =>
      split
      · rfl
      · dsimp only
        split <;> rfl
  | pause abandon next => rfl

/-- What is made of a result changes nothing about how it comes. -/
theorem along_bind_done (r : Routine σ α) (g : α → β) (moments : List (Nat × σ)) :
    (r.bind fun a => done (g a)).along moments = (r.along moments).bind fun a => done (g a) := by
  induction moments generalizing r with
  | nil => rfl
  | cons m moments ih =>
    have hpoll : ((r.bind fun a => done (g a)).poll m.1 m.2).2 =
        (r.poll m.1 m.2).2.bind fun a => done (g a) := by
      by_cases h : ∃ a, r = done a
      · obtain ⟨a, rfl⟩ := h
        rfl
      · rw [poll_bind (not_exists.mp h)]
    show ((r.bind fun a => done (g a)).poll m.1 m.2).2.along moments = _
    rw [hpoll, ih]
    rfl

theorem bind_eq_done {r : Routine σ α} {f : α → Routine σ β} {b : β} (h : r.bind f = done b) :
    ∃ a, r = done a ∧ f a = done b := by
  cases r with
  | done a => exact ⟨a, rfl, h⟩
  | step update next => cases h
  | wait ready limit abandon next => cases h
  | pause abandon next => cases h

theorem zoom_eq_done {get : τ → σ} {set : σ → τ → τ} {r : Routine σ α} {a : α}
    (h : r.zoom get set = done a) : r = done a := by
  cases r with
  | done b => exact congrArg done (done.inj h)
  | step update next => cases h
  | wait ready limit abandon next => cases h
  | pause abandon next => cases h

/-- A move on a part of the state, which can be put back as it is. -/
theorem poll_zoom {get : τ → σ} {set : σ → τ → τ} (hset : ∀ t, set (get t) t = t)
    (r : Routine σ α) (elapsed : Nat) (t : τ) :
    (r.zoom get set).poll elapsed t =
      (set (r.poll elapsed (get t)).1 t, (r.poll elapsed (get t)).2.zoom get set) := by
  cases r with
  | done a => exact Prod.ext (hset t).symm rfl
  | step update next => rfl
  | wait ready limit abandon next =>
    simp only [zoom, poll]
    cases limit with
    | none => split <;> simp only [hset, zoom]
    | some n =>
      split
      · simp only [hset]
      · dsimp only
        split <;> simp only [hset, zoom]
  | pause abandon next => exact Prod.ext (hset t).symm rfl

/-- The result and the state when nobody else moves, if the routine never has to stay. -/
def through : Routine σ α → σ → Option (α × σ)
  | done a, s => some (a, s)
  | step update next, s => through (next s) (update s)
  | wait .., _ => none
  | pause .., _ => none

theorem through_bind (r : Routine σ α) (f : α → Routine σ β) (s : σ) :
    (r.bind f).through s = (r.through s).bind fun out => (f out.1).through out.2 := by
  induction r generalizing s with
  | done a => rfl
  | step update next ih => exact ih s (update s)
  | wait ready limit abandon next ih => rfl
  | pause abandon next ih => rfl

end CodeBridge.Routine
