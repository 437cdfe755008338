import CodeBridge.Concurrency.Routine

/-!
# A routine among others

What can be said of a routine when others move between any two of its moves.

* `poll`       one move of a routine; it goes on from a wait when the state allows it, or when the
               time that has passed is over the limit (`expired`);
* `abandoned`  the state after a routine has been dropped where it stays;
* `Terms`      what may happen between two moves, and what a move may do;
* `Keeps`      the routine keeps to the terms from a state on, and ends in what is promised.

Beside the state there is what is noted of it, which a move may add to.  `Keeps.poll` and
`Keeps.abandoned` carry `Keeps` along; the other lemmas take routines apart.
-/

namespace CodeBridge

namespace Routine
variable {σ γ α β : Type}

/-! ## moves -/

/-- One move, by a clock that shows `elapsed` milliseconds since the routine came where it is. -/
def poll (elapsed : Nat) (s : σ) : Routine σ α → σ × Routine σ α
  | done a => (s, done a)
  | step update next => (update s, next s)
  | wait ready limit abandon next =>
    if ready s then (s, next true elapsed)
    else
      match limit with
      | none => (s, wait ready limit abandon next)
      | some n =>
        if n ≤ elapsed then (s, next false elapsed) else (s, wait ready limit abandon next)
  | pause _ next => (s, next ())

/-- The limit of a wait is over before the state allows to go on. -/
def expired (elapsed : Nat) (s : σ) : Routine σ α → Bool
  | wait ready (some n) _ _ => !ready s && n ≤ elapsed
  | _ => false

section
variable {ready : σ → Bool} {limit : Option Nat} {abandon : σ → σ} {next : Bool → Nat → Routine σ α}
  {elapsed : Nat} {s : σ}

theorem poll_of_ready (hr : ready s = true) :
    (wait ready limit abandon next).poll elapsed s = (s, next true elapsed) := if_pos hr

theorem poll_of_expired (he : (wait ready limit abandon next).expired elapsed s = true) :
    limit.isSome = true ∧ ready s = false ∧
      (wait ready limit abandon next).poll elapsed s = (s, next false elapsed) := by
  cases limit with
  | none => cases he
  | some n =>
    obtain ⟨hr, hn⟩ := Bool.and_eq_true_iff.mp he
    replace hr : ready s = false := by simpa using hr
    refine ⟨rfl, hr, ?_⟩
    show (if ready s = true then _ else _) = _
    rw [hr]
    exact if_pos (of_decide_eq_true hn)

theorem poll_of_neither (hr : ready s = false)
    (he : (wait ready limit abandon next).expired elapsed s = false) :
    (wait ready limit abandon next).poll elapsed s = (s, wait ready limit abandon next) := by
  show (if ready s = true then _ else _) = _
  rw [hr]
  cases limit with
  | none => rfl
  | some n =>
    have hn : ¬ n ≤ elapsed := fun hn => by simp [expired, hr, hn] at he
    exact if_neg hn

end

def abandoned (s : σ) : Routine σ α → Option σ
  | wait _ _ abandon _ => some (abandon s)
  | pause abandon _ => some (abandon s)
  | _ => none

end Routine

/-- What a routine may rely on, and what it owes. -/
structure Terms (σ γ : Type) where
  /-- what may happen between two moves -/
  rely : σ × γ → σ × γ → Prop
  /-- what a move may do -/
  guar : σ × γ → σ × γ → Prop
  /-- what is noted when a limit is over -/
  fires : σ × γ → γ → Prop
  refl : ∀ w, rely w w
  trans : ∀ u v w, rely u v → rely v w → rely u w

namespace Routine
variable {σ γ α β : Type}

/-- From a state on a routine keeps to the terms, whatever it is dropped in allows `drop`, and it
ends in `post`. -/
def Keeps (T : Terms σ γ) (drop : σ × γ → σ × γ → Prop) (post : α → σ × γ → Prop) :
    Routine σ α → σ × γ → Prop
  | done a, w => ∀ w', T.rely w w' → post a w'
  | step update next, w => ∀ s g, T.rely w (s, g) →
      ∃ g', T.guar (s, g) (update s, g') ∧ Keeps T drop post (next s) (update s, g')
  | wait ready limit abandon next, w => ∀ s g, T.rely w (s, g) →
      (∀ t, ready s = true → Keeps T drop post (next true t) (s, g)) ∧
      (∀ t g', limit.isSome = true → ready s = false → T.fires (s, g) g' →
        Keeps T drop post (next false t) (s, g')) ∧
      ∃ g', drop (s, g) (abandon s, g')
  | pause abandon next, w => ∀ s g, T.rely w (s, g) →
      Keeps T drop post (next ()) (s, g) ∧ ∃ g', drop (s, g) (abandon s, g')

section
variable {T : Terms σ γ} {drop : σ × γ → σ × γ → Prop} {post : α → σ × γ → Prop}

/-! ## along a run -/

theorem Keeps.rely {r : Routine σ α} {w w' : σ × γ} (h : Keeps T drop post r w)
    (hw : T.rely w w') : Keeps T drop post r w' := by
  cases r with
  | done a => exact fun v hv => h v (T.trans w w' v hw hv)
  | step update next => exact fun s g hv => h s g (T.trans w w' (s, g) hw hv)
  | wait ready limit abandon next => exact fun s g hv => h s g (T.trans w w' (s, g) hw hv)
  | pause abandon next => exact fun s g hv => h s g (T.trans w w' (s, g) hw hv)

theorem Keeps.poll {r : Routine σ α} {s : σ} {g : γ} (h : Keeps T drop post r (s, g))
    (elapsed : Nat) (he : r.expired elapsed s = false) :
    ∃ g', ((r.poll elapsed s).1 = s ∧ g' = g ∨ T.guar (s, g) ((r.poll elapsed s).1, g')) ∧
      Keeps T drop post (r.poll elapsed s).2 ((r.poll elapsed s).1, g') := by
  cases r with
  | done a => exact ⟨g, .inl ⟨rfl, rfl⟩, h⟩
  | step update next =>
    obtain ⟨g', hg, hk⟩ := h s g (T.refl (s, g))
    exact ⟨g', .inr hg, hk⟩
  | wait ready limit abandon next =>
    obtain ⟨hgo, -, -⟩ := h s g (T.refl (s, g))
    cases hr : ready s with
    | true =>
      rw [poll_of_ready hr]
      exact ⟨g, .inl ⟨rfl, rfl⟩, hgo elapsed hr⟩
    | false =>
      rw [poll_of_neither hr he]
      exact ⟨g, .inl ⟨rfl, rfl⟩, h⟩
  | pause abandon next => exact ⟨g, .inl ⟨rfl, rfl⟩, (h s g (T.refl (s, g))).1⟩

theorem Keeps.expired {r : Routine σ α} {s : σ} {g g' : γ} (h : Keeps T drop post r (s, g))
    (elapsed : Nat) (he : r.expired elapsed s = true) (hg : T.fires (s, g) g') :
    (r.poll elapsed s).1 = s ∧ Keeps T drop post (r.poll elapsed s).2 (s, g') := by
  cases r with
  | done a => cases he
  | step update next => cases he
  | wait ready limit abandon next =>
    obtain ⟨hl, hr, hp⟩ := poll_of_expired he
    rw [hp]
    exact ⟨rfl, (h s g (T.refl (s, g))).2.1 elapsed g' hl hr hg⟩
  | pause abandon next => cases he

theorem Keeps.abandoned {r : Routine σ α} {s s' : σ} {g : γ} (h : Keeps T drop post r (s, g))
    (ha : r.abandoned s = some s') : ∃ g', drop (s, g) (s', g') := by
  cases r with
  | done a => cases ha
  | step update next => cases ha
  | wait ready limit abandon next =>
    obtain rfl := Option.some.inj ha
    exact (h s g (T.refl (s, g))).2.2
  | pause abandon next =>
    obtain rfl := Option.some.inj ha
    exact (h s g (T.refl (s, g))).2

/-! ## one after the other -/

theorem Keeps.bind {r : Routine σ α} {f : α → Routine σ β} {post' : β → σ × γ → Prop}
    {w : σ × γ} (h : Keeps T drop post r w)
    (hf : ∀ a w, post a w → Keeps T drop post' (f a) w) : Keeps T drop post' (r.bind f) w := by
  induction r generalizing w with
  | done a => exact hf a w (h w (T.refl w))
  | step update next ih =>
    intro s g hw
    obtain ⟨g', hg, hk⟩ := h s g hw
    exact ⟨g', hg, ih s hk⟩
  | wait ready limit abandon next ih =>
    intro s g hw
    obtain ⟨hgo, hlate, hdrop⟩ := h s g hw
    exact ⟨fun t hr => ih true t (hgo t hr), fun t g' hl hr hg => ih false t (hlate t g' hl hr hg),
      hdrop⟩
  | pause abandon next ih =>
    intro s g hw
    obtain ⟨hgo, hdrop⟩ := h s g hw
    exact ⟨ih () hgo, hdrop⟩

theorem Keeps.mono {r : Routine σ α} {post' : α → σ × γ → Prop} {w : σ × γ}
    (h : Keeps T drop post r w) (hp : ∀ a w, post a w → post' a w) : Keeps T drop post' r w := by
  induction r generalizing w with
  | done a => exact fun w' hw => hp a w' (h w' hw)
  | step update next ih =>
    intro s g hw
    obtain ⟨g', hg, hk⟩ := h s g hw
    exact ⟨g', hg, ih s hk⟩
  | wait ready limit abandon next ih =>
    intro s g hw
    obtain ⟨hgo, hlate, hdrop⟩ := h s g hw
    exact ⟨fun t hr => ih true t (hgo t hr), fun t g' hl hr hg => ih false t (hlate t g' hl hr hg),
      hdrop⟩
  | pause abandon next ih =>
    intro s g hw
    obtain ⟨hgo, hdrop⟩ := h s g hw
    exact ⟨ih () hgo, hdrop⟩

/-! ## on the state -/

theorem keeps_act {f : σ → α × σ} {w : σ × γ}
    (h : ∀ s g, T.rely w (s, g) → ∃ g', T.guar (s, g) ((f s).2, g') ∧
      ∀ w', T.rely ((f s).2, g') w' → post (f s).1 w') : Keeps T drop post (act f) w := h

theorem keeps_read {f : σ → α} {w : σ × γ}
    (h : ∀ s g, T.rely w (s, g) → ∃ g', T.guar (s, g) (s, g') ∧
      ∀ w', T.rely (s, g') w' → post (f s) w') : Keeps T drop post (read f) w := h

theorem keeps_until {ready : σ → Bool} {post : Unit → σ × γ → Prop} {w : σ × γ}
    (h : ∀ s g, T.rely w (s, g) →
      (ready s = true → ∀ w', T.rely (s, g) w' → post () w') ∧ ∃ g', drop (s, g) (s, g')) :
    Keeps T drop post (until_ ready) w := by
  intro s g hw
  obtain ⟨hgo, hdrop⟩ := h s g hw
  exact ⟨fun _ hr => hgo hr, fun _ _ hl => absurd hl Bool.false_ne_true, hdrop⟩

theorem keeps_untilWithin {ready : σ → Bool} {limit : Nat} {post : Bool → σ × γ → Prop}
    {w : σ × γ}
    (h : ∀ s g, T.rely w (s, g) →
      (ready s = true → ∀ w', T.rely (s, g) w' → post true w') ∧
      (∀ g', ready s = false → T.fires (s, g) g' → ∀ w', T.rely (s, g') w' → post false w') ∧
      ∃ g', drop (s, g) (s, g')) :
    Keeps T drop post (untilWithin ready limit) w := by
  intro s g hw
  obtain ⟨hgo, hlate, hdrop⟩ := h s g hw
  exact ⟨fun _ hr => hgo hr, fun _ g' _ hr hg => hlate g' hr hg, hdrop⟩

/-! ## clean-up -/

theorem Keeps.undoWith {drop' : σ × γ → σ × γ → Prop} {cleanup : σ → σ} {r : Routine σ α}
    {w : σ × γ} (h : Keeps T drop post r w)
    (hd : ∀ u s g, drop u (s, g) → ∃ g', drop' u (cleanup s, g')) :
    Keeps T drop' post (r.undoWith cleanup) w := by
  induction r generalizing w with
  | done a => exact h
  | step update next ih =>
    intro s g hw
    obtain ⟨g', hg, hk⟩ := h s g hw
    exact ⟨g', hg, ih s hk⟩
  | wait ready limit abandon next ih =>
    intro s g hw
    obtain ⟨hgo, hlate, g', hdrop⟩ := h s g hw
    exact ⟨fun t hr => ih true t (hgo t hr), fun t g' hl hr hg => ih false t (hlate t g' hl hr hg),
      hd _ _ g' hdrop⟩
  | pause abandon next ih =>
    intro s g hw
    obtain ⟨hgo, g', hdrop⟩ := h s g hw
    exact ⟨ih () hgo, hd _ _ g' hdrop⟩

/-- A routine with a clean-up: the clean-up is a move like any other, and part of every drop. -/
theorem Keeps.ensure {drop' : σ × γ → σ × γ → Prop} {post' : α → σ × γ → Prop} {cleanup : σ → σ}
    {r : Routine σ α} {w : σ × γ} (h : Keeps T drop post r w)
    (hd : ∀ u s g, drop u (s, g) → ∃ g', drop' u (cleanup s, g'))
    (hc : ∀ a w, post a w → ∀ s g, T.rely w (s, g) → ∃ g', T.guar (s, g) (cleanup s, g') ∧
      ∀ w', T.rely (cleanup s, g') w' → post' a w') :
    Keeps T drop' post' (r.ensure cleanup) w :=
  (h.undoWith hd).bind hc

end

/-! ## part of a larger state -/

section
variable {τ υ : Type} {get : τ → σ} {set : σ → τ → τ}

theorem zoom_bind (r : Routine σ α) (f : α → Routine σ β) :
    (r.bind f).zoom get set = (r.zoom get set).bind fun a => (f a).zoom get set := by
  induction r with
  | done a => rfl
  | step update next ih => simp only [bind, zoom, ih]
  | wait ready limit abandon next ih => simp only [bind, zoom, ih]
  | pause abandon next ih => simp only [bind, zoom, ih]

theorem zoom_zoom (get' : υ → τ) (set' : τ → υ → υ) (r : Routine σ α) :
    (r.zoom get set).zoom get' set' =
      r.zoom (fun u => get (get' u)) fun s u => set' (set s (get' u)) u := by
  induction r with
  | done a => rfl
  | step update next ih => simp only [zoom, ih]
  | wait ready limit abandon next ih => simp only [zoom, ih]
  | pause abandon next ih => simp only [zoom, ih]

def dropAny (_ _ : τ × γ) : Prop := True

/-- When nothing is asked of drops, a clean-up changes nothing but the end. -/
theorem Keeps.zoom_undoWith {T : Terms τ γ} {post : α → τ × γ → Prop} {cleanup : σ → σ}
    {r : Routine σ α} {w : τ × γ} (h : Keeps T dropAny post (r.zoom get set) w) :
    Keeps T dropAny post ((r.undoWith cleanup).zoom get set) w := by
  induction r generalizing w with
  | done a => exact h
  | step update next ih =>
    intro t g hw
    obtain ⟨g', hg, hk⟩ := h t g hw
    exact ⟨g', hg, ih _ hk⟩
  | wait ready limit abandon next ih =>
    intro t g hw
    obtain ⟨hgo, hlate, -⟩ := h t g hw
    exact ⟨fun n hr => ih true n (hgo n hr), fun n g' hl hr hg => ih false n (hlate n g' hl hr hg),
      g, trivial⟩
  | pause abandon next ih =>
    intro t g hw
    obtain ⟨hgo, -⟩ := h t g hw
    exact ⟨ih () hgo, g, trivial⟩

/-- Work that is handed over keeps what it keeps when others can go on between its steps. -/
theorem Keeps.zoom_handedOver {T : Terms τ γ} {post : α → τ × γ → Prop} {r : Routine σ α}
    {w : τ × γ} (h : Keeps T dropAny post (r.zoom get set) w) :
    Keeps T dropAny post (r.handedOver.zoom get set) w := by
  induction r generalizing w with
  | done a => exact h
  | step update next ih =>
    intro t g hw
    obtain ⟨g', hg, hk⟩ := h t g hw
    exact ⟨g', hg, fun t' g'' hw' => ⟨(ih _ hk).rely hw', g'', trivial⟩⟩
  | wait ready limit abandon next ih =>
    intro t g hw
    obtain ⟨hgo, hlate, -⟩ := h t g hw
    exact ⟨fun n hr => ih true n (hgo n hr), fun n g' hl hr hg => ih false n (hlate n g' hl hr hg),
      g, trivial⟩
  | pause abandon next ih =>
    intro t g hw
    obtain ⟨hgo, -⟩ := h t g hw
    exact ⟨ih () hgo, g, trivial⟩

end

end Routine

end CodeBridge
