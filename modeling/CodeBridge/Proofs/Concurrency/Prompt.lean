import CodeBridge.Proofs.Concurrency.Keeps

/-!
# Routines that never have to stay

A routine that finds every wait over does a number of moves that can be told before, whenever others
move in between.

* `Promptly`        it is done after exactly so many moves, each of which does `G`, and `Q` is so
                    then, if others do no more than `E` says;
* `Promptly.rely`, `Promptly.poll`   along a run;
* `Promptly.bind`, `Promptly.ensure`, …   routines are taken apart.
-/

namespace CodeBridge.Routine

variable {σ α β : Type} {E G : σ → σ → Prop} {Q : α → σ → Prop} {n m : Nat} {s s' : σ}

def Promptly (E G : σ → σ → Prop) (Q : α → σ → Prop) : Routine σ α → Nat → σ → Prop
  | done a, 0, s => ∀ s', E s s' → Q a s'
  | step update next, n + 1, s =>
    ∀ s', E s s' → G s' (update s') ∧ Promptly E G Q (next s') n (update s')
  | wait ready _ _ next, n + 1, s =>
    ∀ s', E s s' → ready s' = true ∧ ∀ t, Promptly E G Q (next true t) n s'
  | pause _ next, n + 1, s => ∀ s', E s s' → Promptly E G Q (next ()) n s'
  | _, _, _ => False

/-! ## by its next move -/

section
variable {update abandon : σ → σ} {ready : σ → Bool} {limit : Option Nat}

theorem Promptly.of_done {a : α} (h : Promptly E G Q (done a) n s) :
    n = 0 ∧ ∀ s', E s s' → Q a s' := by
  cases n with
  | zero => exact ⟨rfl, h⟩
  | succ k => exact h.elim

theorem Promptly.of_step {next : σ → Routine σ α} (h : Promptly E G Q (step update next) n s) :
    ∃ k, n = k + 1 ∧
      ∀ s', E s s' → G s' (update s') ∧ Promptly E G Q (next s') k (update s') := by
  cases n with
  | zero => exact h.elim
  | succ k => exact ⟨k, rfl, h⟩

theorem Promptly.of_wait {next : Bool → Nat → Routine σ α}
    (h : Promptly E G Q (wait ready limit abandon next) n s) :
    ∃ k, n = k + 1 ∧
      ∀ s', E s s' → ready s' = true ∧ ∀ t, Promptly E G Q (next true t) k s' := by
  cases n with
  | zero => exact h.elim
  | succ k => exact ⟨k, rfl, h⟩

theorem Promptly.of_pause {next : Unit → Routine σ α}
    (h : Promptly E G Q (pause abandon next) n s) :
    ∃ k, n = k + 1 ∧ ∀ s', E s s' → Promptly E G Q (next ()) k s' := by
  cases n with
  | zero => exact h.elim
  | succ k => exact ⟨k, rfl, h⟩

end

/-! ## along a run -/

theorem Promptly.rely {r : Routine σ α} (h : Promptly E G Q r n s)
    (htrans : ∀ u v w, E u v → E v w → E u w) (hs : E s s') : Promptly E G Q r n s' := by
  cases r with
  | done a =>
    obtain ⟨rfl, h⟩ := h.of_done
    exact fun v hv => h v (htrans s s' v hs hv)
  | step update next =>
    obtain ⟨k, rfl, h⟩ := h.of_step
    exact fun v hv => h v (htrans s s' v hs hv)
  | wait ready limit abandon next =>
    obtain ⟨k, rfl, h⟩ := h.of_wait
    exact fun v hv => h v (htrans s s' v hs hv)
  | pause abandon next =>
    obtain ⟨k, rfl, h⟩ := h.of_pause
    exact fun v hv => h v (htrans s s' v hs hv)

theorem Promptly.poll {r : Routine σ α} (h : Promptly E G Q r (n + 1) s) (hrefl : ∀ u, E u u)
    (hstay : ∀ u, G u u) (elapsed : Nat) :
    G s (r.poll elapsed s).1 ∧ Promptly E G Q (r.poll elapsed s).2 n (r.poll elapsed s).1 := by
  cases r with
  | done a => exact h.elim
  | step update next => exact h s (hrefl s)
  | wait ready limit abandon next =>
    obtain ⟨hready, hnext⟩ := h s (hrefl s)
    rw [poll_of_ready hready]
    exact ⟨hstay s, hnext elapsed⟩
  | pause abandon next => exact ⟨hstay s, h s (hrefl s)⟩

theorem Promptly.eq_done {r : Routine σ α} (h : Promptly E G Q r 0 s) (hrefl : ∀ u, E u u) :
    ∃ a, r = done a ∧ Q a s := by
  cases r with
  | done a => exact ⟨a, rfl, h s (hrefl s)⟩
  | _ => exact h.elim

theorem Promptly.ne_done {r : Routine σ α} (h : Promptly E G Q r (n + 1) s) (a : α) :
    r ≠ done a := by
  rintro rfl
  exact h

/-! ## taking routines apart -/

theorem promptly_done {a : α} (h : ∀ s', E s s' → Q a s') : Promptly E G Q (done a) 0 s := h

theorem Promptly.bind {Q' : β → σ → Prop} {r : Routine σ α} {f : α → Routine σ β}
    (h : Promptly E G Q r n s) (hrefl : ∀ u, E u u)
    (hf : ∀ a u, Q a u → Promptly E G Q' (f a) m u) : Promptly E G Q' (r.bind f) (m + n) s := by
  induction r generalizing n s with
  | done a =>
    obtain ⟨rfl, h⟩ := h.of_done
    exact hf a s (h s (hrefl s))
  | step update next ih =>
    obtain ⟨k, rfl, h⟩ := h.of_step
    exact fun v hv => ⟨(h v hv).1, ih v (h v hv).2⟩
  | wait ready limit abandon next ih =>
    obtain ⟨k, rfl, h⟩ := h.of_wait
    exact fun v hv => ⟨(h v hv).1, fun t => ih true t ((h v hv).2 t)⟩
  | pause abandon next ih =>
    obtain ⟨k, rfl, h⟩ := h.of_pause
    exact fun v hv => ih () (h v hv)

theorem promptly_act {f : σ → α × σ}
    (h : ∀ u, E s u → G u (f u).2 ∧ ∀ v, E (f u).2 v → Q (f u).1 v) :
    Promptly E G Q (act f) 1 s := h

theorem promptly_read {f : σ → α} (hstay : ∀ u, G u u)
    (h : ∀ u, E s u → ∀ v, E u v → Q (f u) v) : Promptly E G Q (read f) 1 s :=
  fun u hu => ⟨hstay u, h u hu⟩

theorem promptly_until {ready : σ → Bool} {Q : Unit → σ → Prop}
    (h : ∀ u, E s u → ready u = true ∧ ∀ v, E u v → Q () v) :
    Promptly E G Q (until_ ready) 1 s :=
  fun u hu => ⟨(h u hu).1, fun _ => (h u hu).2⟩

theorem Promptly.undoWith {cleanup : σ → σ} {r : Routine σ α} (h : Promptly E G Q r n s) :
    Promptly E G Q (r.undoWith cleanup) n s := by
  induction r generalizing n s with
  | done a => exact h
  | step update next ih =>
    obtain ⟨k, rfl, h⟩ := h.of_step
    exact fun v hv => ⟨(h v hv).1, ih v (h v hv).2⟩
  | wait ready limit abandon next ih =>
    obtain ⟨k, rfl, h⟩ := h.of_wait
    exact fun v hv => ⟨(h v hv).1, fun t => ih true t ((h v hv).2 t)⟩
  | pause abandon next ih =>
    obtain ⟨k, rfl, h⟩ := h.of_pause
    exact fun v hv => ih () (h v hv)

theorem Promptly.ensure {Q' : α → σ → Prop} {cleanup : σ → σ} {r : Routine σ α}
    (h : Promptly E G Q r n s) (hrefl : ∀ u, E u u)
    (hc : ∀ a u, Q a u → ∀ v, E u v → G v (cleanup v) ∧ ∀ w, E (cleanup v) w → Q' a w) :
    Promptly E G Q' (r.ensure cleanup) (1 + n) s :=
  h.undoWith.bind hrefl fun a u hq => hc a u hq

end CodeBridge.Routine
