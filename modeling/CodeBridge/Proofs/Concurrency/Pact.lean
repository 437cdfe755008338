import CodeBridge.Proofs.Concurrency.Kinds

/-!
# Routines that agree on something

Several routines share a state.  They agree on what is so at every moment, and each of them is left
some things by the others.  A routine is taken apart with assertions before and after its parts; an
assertion is something that the others leave as it is, so nothing has to be said of them any more.

* `Pact`        what is agreed on;
* `Assertion`   what a routine knows of the state and of what is noted;
* `Owes`        a part that begins where one assertion holds ends where another does, and keeps to
                the pact;
* `owes_act`, `owes_until`, …   the smallest parts, on the state or on a part of it.
-/

namespace CodeBridge

structure Pact (σ γ : Type) where
  /-- all is well -/
  Fine : σ × γ → Prop
  /-- what a routine is left by the others -/
  Kept : σ × γ → σ × γ → Prop
  /-- what it may do itself -/
  May : σ × γ → σ × γ → Prop
  /-- what is noted when time is over; nothing, if nothing is said -/
  Over : σ × γ → γ → Prop := fun w g => g = w.2
  refl : ∀ w, Kept w w
  trans : ∀ u v w, Kept u v → Kept v w → Kept u w

namespace Pact
variable {σ γ α β : Type}

def terms (T : Pact σ γ) : Terms σ γ where
  rely w w' := T.Fine w → T.Fine w' ∧ T.Kept w w'
  guar w w' := T.Fine w → T.Fine w' ∧ T.May w w'
  fires := T.Over
  refl w h := ⟨h, T.refl w⟩
  trans u v w h h' hu := ⟨(h' (h hu).1).1, T.trans u v w (h hu).2 (h' (h hu).1).2⟩

/-! ## assertions -/

structure Assertion (T : Pact σ γ) where
  Holds : σ × γ → Prop
  stable : ∀ {w w' : σ × γ}, T.Fine w' → T.Kept w w' → Holds w → Holds w'

namespace Assertion
variable {T : Pact σ γ}

/-- Something that is so or not whatever happens. -/
def fact (p : Prop) : Assertion T where
  Holds _ := p
  stable _ _ h := h

def and (P Q : Assertion T) : Assertion T where
  Holds w := P.Holds w ∧ Q.Holds w
  stable hf hk h := ⟨P.stable hf hk h.1, Q.stable hf hk h.2⟩

def any {ι : Type} (P : ι → Assertion T) : Assertion T where
  Holds w := ∃ i, (P i).Holds w
  stable hf hk h := h.imp fun i => (P i).stable hf hk

end Assertion

/-! ## parts -/

/-- From where `P` holds on a part of a routine keeps to the pact, and it ends where `Q` holds. -/
structure Owes {T : Pact σ γ} (P : Assertion T) (r : Routine σ α) (Q : α → Assertion T) : Prop where
  keeps : ∀ w, T.Fine w → P.Holds w →
    r.Keeps T.terms Routine.dropAny (fun a w => T.Fine w ∧ (Q a).Holds w) w

section
variable {T : Pact σ γ} {P : Assertion T} {Q : α → Assertion T} {R : β → Assertion T}

theorem Owes.bind {r : Routine σ α} {f : α → Routine σ β} (h : Owes P r Q)
    (hf : ∀ a, Owes (Q a) (f a) R) : Owes P (r.bind f) R :=
  ⟨fun w hw hp => (h.keeps w hw hp).bind fun a w hq => (hf a).keeps w hq.1 hq.2⟩

theorem Owes.mono {r : Routine σ α} {Q' : α → Assertion T} (h : Owes P r Q)
    (hq : ∀ a w, T.Fine w → (Q a).Holds w → (Q' a).Holds w) : Owes P r Q' :=
  ⟨fun w hw hp => (h.keeps w hw hp).mono fun a w hw => ⟨hw.1, hq a w hw.1 hw.2⟩⟩

theorem owes_any {ι : Type} {P : ι → Assertion T} {r : Routine σ α} (h : ∀ i, Owes (P i) r Q) :
    Owes (.any P) r Q :=
  ⟨fun w hw ⟨i, hp⟩ => (h i).keeps w hw hp⟩

theorem owes_fact {p : Prop} {r : Routine σ α} (h : p → Owes P r Q) :
    Owes ((Assertion.fact p).and P) r Q :=
  ⟨fun w hw hp => (h hp.1).keeps w hw hp.2⟩

theorem owes_done {a : α} (h : ∀ w, T.Fine w → P.Holds w → (Q a).Holds w) :
    Owes P (.done a) Q := by
  refine ⟨fun w hw hp w' hr => ?_⟩
  obtain ⟨hw', hk⟩ := hr hw
  exact ⟨hw', h w' hw' (P.stable hw' hk hp)⟩

theorem owes_act {f : σ → α × σ}
    (h : ∀ s g, T.Fine (s, g) → P.Holds (s, g) → ∃ g', T.Fine ((f s).2, g') ∧
      T.May (s, g) ((f s).2, g') ∧ (Q (f s).1).Holds ((f s).2, g')) :
    Owes P (.act f) Q := by
  refine ⟨fun w hw hp => Routine.keeps_act fun s g hr => ?_⟩
  obtain ⟨hs, hk⟩ := hr hw
  obtain ⟨g', hfine, hmay, hq⟩ := h s g hs (P.stable hs hk hp)
  refine ⟨g', fun _ => ⟨hfine, hmay⟩, fun w' hr' => ?_⟩
  obtain ⟨hw', hk'⟩ := hr' hfine
  exact ⟨hw', (Q _).stable hw' hk' hq⟩

theorem owes_waitOver {ready : σ → Bool} {limit : Option Nat} {abandon : σ → σ} {f : Bool → α}
    (hready : ∀ w, T.Fine w → P.Holds w → ready w.1 = true → (Q (f true)).Holds w)
    (hlate : ∀ s g g', T.Fine (s, g) → P.Holds (s, g) → limit.isSome = true → T.Over (s, g) g' →
      T.Fine (s, g') ∧ (Q (f false)).Holds (s, g')) :
    Owes P (.wait ready limit abandon fun b _ => .done (f b)) Q := by
  refine ⟨fun w hw hp s g hr => ?_⟩
  obtain ⟨hs, hk⟩ := hr hw
  have hp' := P.stable hs hk hp
  refine ⟨fun _ hgo w' hr' => ?_, fun _ g' hl _ hg w' hr' => ?_, g, trivial⟩
  · obtain ⟨hw', hk'⟩ := hr' hs
    exact ⟨hw', (Q _).stable hw' hk' (hready _ hs hp' hgo)⟩
  · obtain ⟨hfine, hq⟩ := hlate s g g' hs hp' hl hg
    obtain ⟨hw', hk'⟩ := hr' hfine
    exact ⟨hw', (Q _).stable hw' hk' hq⟩

theorem owes_wait {ready : σ → Bool} {limit : Option Nat} {abandon : σ → σ} {f : Bool → α}
    (hover : ∀ w g, T.Over w g → g = w.2)
    (hready : ∀ w, T.Fine w → P.Holds w → ready w.1 = true → (Q (f true)).Holds w)
    (hlate : ∀ w, T.Fine w → P.Holds w → limit.isSome = true → (Q (f false)).Holds w) :
    Owes P (.wait ready limit abandon fun b _ => .done (f b)) Q := by
  refine owes_waitOver hready fun s g g' hs hp hl hg => ?_
  obtain rfl : g' = g := hover _ _ hg
  exact ⟨hs, hlate _ hs hp hl⟩

theorem owes_until {ready : σ → Bool} {Q : Assertion T}
    (h : ∀ w, T.Fine w → P.Holds w → ready w.1 = true → Q.Holds w) :
    Owes P (.until_ ready) fun _ => Q :=
  owes_waitOver (f := fun _ => ()) h fun _ _ _ _ _ hl => absurd hl Bool.false_ne_true

/-- A routine all moves of which leave an assertion as it is. -/
theorem owes_movesBy {R : σ → σ → Prop} {r : Routine σ α} (h : r.MovesBy R)
    (hover : ∀ w g, T.Over w g → g = w.2)
    (hmove : ∀ s s' g, R s s' → T.Fine (s, g) → P.Holds (s, g) →
      ∃ g', T.Fine (s', g') ∧ T.May (s, g) (s', g') ∧ P.Holds (s', g')) :
    Owes P r fun _ => P := by
  refine ⟨fun w hw hp => ?_⟩
  induction r generalizing w with
  | done a =>
    intro w' hr
    obtain ⟨hw', hk⟩ := hr hw
    exact ⟨hw', P.stable hw' hk hp⟩
  | step update next ih =>
    intro s g hr
    obtain ⟨hs, hk⟩ := hr hw
    obtain ⟨g', hfine, hmay, hp'⟩ := hmove s _ g (h s).1 hs (P.stable hs hk hp)
    exact ⟨g', fun _ => ⟨hfine, hmay⟩, ih s (h s).2 _ hfine hp'⟩
  | wait ready limit abandon next ih =>
    intro s g hr
    obtain ⟨hs, hk⟩ := hr hw
    have hp' := P.stable hs hk hp
    refine ⟨fun t _ => ih true t (h.2 true t) _ hs hp', fun t g' _ _ hg => ?_, g, trivial⟩
    obtain rfl : g' = g := hover _ _ hg
    exact ih false t (h.2 false t) _ hs hp'
  | pause abandon next ih =>
    intro s g hr
    obtain ⟨hs, hk⟩ := hr hw
    exact ⟨ih () h.2 _ hs (P.stable hs hk hp), g, trivial⟩

theorem Owes.ensure {cleanup : σ → σ} {r : Routine σ α} {R : α → Assertion T} (h : Owes P r Q)
    (hc : ∀ a, Owes (Q a) (.act fun s => (a, cleanup s)) R) : Owes P (r.ensure cleanup) R :=
  Owes.bind ⟨fun w hw hp => (h.keeps w hw hp).undoWith fun _ _ g _ => ⟨g, trivial⟩⟩ hc

end

/-! ## parts on a part of the state -/

section
variable {τ : Type} {T : Pact τ γ} {get : τ → σ} {set : σ → τ → τ} {P : Assertion T}
  {Q : α → Assertion T} {R : β → Assertion T}

theorem Owes.zoom_bind {r : Routine σ α} {f : α → Routine σ β} (h : Owes P (r.zoom get set) Q)
    (hf : ∀ a, Owes (Q a) ((f a).zoom get set) R) : Owes P ((r.bind f).zoom get set) R := by
  rw [Routine.zoom_bind]
  exact h.bind hf

theorem Owes.zoom_ensure {cleanup : σ → σ} {r : Routine σ α} {R : α → Assertion T}
    (h : Owes P (r.zoom get set) Q)
    (hc : ∀ a, Owes (Q a) ((Routine.act fun s => (a, cleanup s)).zoom get set) R) :
    Owes P ((r.ensure cleanup).zoom get set) R := by
  have hundo : Owes P ((r.undoWith cleanup).zoom get set) Q :=
    ⟨fun w hw hp => (h.keeps w hw hp).zoom_undoWith⟩
  exact hundo.zoom_bind hc

end

end Pact

end CodeBridge
