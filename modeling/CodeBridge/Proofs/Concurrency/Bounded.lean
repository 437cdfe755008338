import CodeBridge.Proofs.Concurrency.Ends

/-!
# Routines with so many moves left

How long a routine goes on may depend on what it finds, and whether it can move may, too.

* `Bounded`     at most so many moves are left, it stays without a limit only where `B` says, and `Q`
                is so at the end, if others do no more than `E` says;
* `Bounded.rely`, `Bounded.poll`, `Bounded.goes`   along a run;
* `Bounded.bind`, `Bounded.ensure`, `Bounded.zoom`, …   routines are taken apart.
-/

namespace CodeBridge.Routine

variable {σ τ α β : Type} {E : σ → σ → Prop} {B : σ → Prop} {Q : α → σ → Prop} {n m : Nat}
  {s s' : σ}

def Bounded (E : σ → σ → Prop) (B : σ → Prop) (Q : α → σ → Prop) : Routine σ α → Nat → σ → Prop
  | done a, _, s => ∀ s', E s s' → Q a s'
  | step update next, n, s =>
    0 < n ∧ ∀ s', E s s' → Bounded E B Q (next s') (n - 1) (update s')
  | wait ready limit _ next, n, s =>
    0 < n ∧ ∀ s', E s s' → (limit = none → ready s' = false → B s') ∧
      ∀ b t, Bounded E B Q (next b t) (n - 1) s'
  | pause _ next, n, s => 0 < n ∧ ∀ s', E s s' → Bounded E B Q (next ()) (n - 1) s'

/-! ## along a run -/

theorem Bounded.rely {r : Routine σ α} (h : Bounded E B Q r n s)
    (htrans : ∀ u v w, E u v → E v w → E u w) (hs : E s s') : Bounded E B Q r n s' := by
  cases r with
  | done a => exact fun v hv => h v (htrans s s' v hs hv)
  | step update next => exact ⟨h.1, fun v hv => h.2 v (htrans s s' v hs hv)⟩
  | wait ready limit abandon next => exact ⟨h.1, fun v hv => h.2 v (htrans s s' v hs hv)⟩
  | pause abandon next => exact ⟨h.1, fun v hv => h.2 v (htrans s s' v hs hv)⟩

theorem Bounded.poll {r : Routine σ α} (h : Bounded E B Q r n s) (hrefl : ∀ u, E u u)
    {elapsed : Nat} (hmoves : r.stays elapsed s = false) :
    Bounded E B Q (r.poll elapsed s).2 (n - 1) (r.poll elapsed s).1 := by
  cases r with
  | done a => exact h
  | step update next => exact h.2 s (hrefl s)
  | wait ready limit abandon next =>
    have hnext := (h.2 s (hrefl s)).2
    by_cases hr : ready s = true
    · rw [poll_of_ready hr]
      exact hnext true elapsed
    · have he : (wait ready limit abandon next).expired elapsed s = true := by
        simpa [stays, hr] using hmoves
      rw [(poll_of_expired he).2.2]
      exact hnext false elapsed
  | pause abandon next => exact h.2 s (hrefl s)

/-- Who can never move, however long it waits, stays where `B` says. -/
theorem Bounded.goes {r : Routine σ α} (h : Bounded E B Q r n s) (hrefl : ∀ u, E u u) :
    (∃ elapsed, r.stays elapsed s = false) ∨ B s := by
  cases r with
  | wait ready limit abandon next =>
    cases hr : ready s with
    | true => exact .inl ⟨0, by simp [stays, hr]⟩
    | false =>
      cases limit with
      | none => exact .inr ((h.2 s (hrefl s)).1 rfl hr)
      | some l => exact .inl ⟨l, by simp [stays, expired, hr]⟩
  | _ => exact .inl ⟨0, rfl⟩

theorem Bounded.eq_done {r : Routine σ α} (h : Bounded E B Q r 0 s) : ∃ a, r = done a := by
  cases r with
  | done a => exact ⟨a, rfl⟩
  | _ => exact absurd h.1 (Nat.lt_irrefl 0)

/-! ## taking routines apart -/

theorem Bounded.mono {r : Routine σ α} (h : Bounded E B Q r n s) (hle : n ≤ m) :
    Bounded E B Q r m s := by
  induction r generalizing n m s with
  | done a => exact h
  | step update next ih =>
    exact ⟨Nat.lt_of_lt_of_le h.1 hle, fun v hv =>
      ih v (h.2 v hv) (Nat.sub_le_sub_right hle 1)⟩
  | wait ready limit abandon next ih =>
    exact ⟨Nat.lt_of_lt_of_le h.1 hle, fun v hv => ⟨(h.2 v hv).1, fun b t =>
      ih b t ((h.2 v hv).2 b t) (Nat.sub_le_sub_right hle 1)⟩⟩
  | pause abandon next ih =>
    exact ⟨Nat.lt_of_lt_of_le h.1 hle, fun v hv =>
      ih () (h.2 v hv) (Nat.sub_le_sub_right hle 1)⟩

theorem bounded_done {a : α} (h : ∀ s', E s s' → Q a s') : Bounded E B Q (done a) n s := h

theorem Bounded.bind {Q' : β → σ → Prop} {r : Routine σ α} {f : α → Routine σ β}
    (h : Bounded E B Q r n s) (hrefl : ∀ u, E u u)
    (hf : ∀ a u, Q a u → Bounded E B Q' (f a) m u) : Bounded E B Q' (r.bind f) (n + m) s := by
  have hless {k : Nat} (hk : 0 < k) : k - 1 + m ≤ k + m - 1 := by omega
  induction r generalizing n s with
  | done a => exact (hf a s (h s (hrefl s))).mono (Nat.le_add_left m n)
  | step update next ih =>
    exact ⟨Nat.add_pos_left h.1 m, fun v hv => (ih v (h.2 v hv)).mono (hless h.1)⟩
  | wait ready limit abandon next ih =>
    exact ⟨Nat.add_pos_left h.1 m, fun v hv => ⟨(h.2 v hv).1, fun b t =>
      (ih b t ((h.2 v hv).2 b t)).mono (hless h.1)⟩⟩
  | pause abandon next ih =>
    exact ⟨Nat.add_pos_left h.1 m, fun v hv => (ih () (h.2 v hv)).mono (hless h.1)⟩

theorem bounded_act {f : σ → α × σ} (h : ∀ u, E s u → ∀ v, E (f u).2 v → Q (f u).1 v) :
    Bounded E B Q (act f) 1 s := ⟨Nat.one_pos, h⟩

theorem bounded_read {f : σ → α} (h : ∀ u, E s u → ∀ v, E u v → Q (f u) v) :
    Bounded E B Q (read f) 1 s := ⟨Nat.one_pos, h⟩

theorem bounded_until {ready : σ → Bool} {Q : Unit → σ → Prop}
    (h : ∀ u, E s u → (ready u = false → B u) ∧ ∀ v, E u v → Q () v) :
    Bounded E B Q (until_ ready) 1 s :=
  ⟨Nat.one_pos, fun u hu => ⟨fun _ => (h u hu).1, fun _ _ => (h u hu).2⟩⟩

theorem bounded_untilWithin {ready : σ → Bool} {limit : Nat} {Q : Bool → σ → Prop}
    (h : ∀ u, E s u → ∀ b v, E u v → Q b v) : Bounded E B Q (untilWithin ready limit) 1 s :=
  ⟨Nat.one_pos, fun u hu => ⟨nofun, fun b _ => h u hu b⟩⟩

theorem Bounded.undoWith {cleanup : σ → σ} {r : Routine σ α} (h : Bounded E B Q r n s) :
    Bounded E B Q (r.undoWith cleanup) n s := by
  induction r generalizing n s with
  | done a => exact h
  | step update next ih => exact ⟨h.1, fun v hv => ih v (h.2 v hv)⟩
  | wait ready limit abandon next ih =>
    exact ⟨h.1, fun v hv => ⟨(h.2 v hv).1, fun b t => ih b t ((h.2 v hv).2 b t)⟩⟩
  | pause abandon next ih => exact ⟨h.1, fun v hv => ih () (h.2 v hv)⟩

theorem Bounded.ensure {Q' : α → σ → Prop} {cleanup : σ → σ} {r : Routine σ α}
    (h : Bounded E B Q r n s) (hrefl : ∀ u, E u u)
    (hc : ∀ a u, Q a u → ∀ v, E u v → ∀ w, E (cleanup v) w → Q' a w) :
    Bounded E B Q' (r.ensure cleanup) (n + 1) s :=
  h.undoWith.bind hrefl fun a u hq => ⟨Nat.one_pos, hc a u hq⟩

/-- On a part of the state, when nothing has to be known of it; `I` is about the rest. -/
theorem Bounded.zoom {get : τ → σ} {set : σ → τ → τ} {E' : τ → τ → Prop} {I : τ → Prop}
    {r : Routine σ α} (h : Bounded (fun _ _ => True) B (fun _ _ => True) r n s)
    (hrely : ∀ t t', I t → E' t t' → I t') (hset : ∀ s t, I t → I (set s t)) {t : τ} (ht : I t) :
    Bounded E' (fun t => B (get t)) (fun _ => I) (r.zoom get set) n t := by
  induction r generalizing n s t with
  | done a => exact fun t' hr => hrely t t' ht hr
  | step update next ih =>
    exact ⟨h.1, fun t' hr =>
      ih (get t') (h.2 (get t') trivial) (hset _ t' (hrely t t' ht hr))⟩
  | wait ready limit abandon next ih =>
    exact ⟨h.1, fun t' hr => ⟨(h.2 (get t') trivial).1, fun b k =>
      ih b k ((h.2 (get t') trivial).2 b k) (hrely t t' ht hr)⟩⟩
  | pause abandon next ih =>
    exact ⟨h.1, fun t' hr => ih () (h.2 (get t') trivial) (hrely t t' ht hr)⟩

end CodeBridge.Routine
