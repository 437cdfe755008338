import CodeBridge.Proofs.Service.Moves

/-!
# What a call owes

A call is taken apart with assertions before and after its parts.  An assertion goes on holding
while the other call and the server move, so nothing has to be said of them any more.

* `Assertion`   what a call knows, with the proof that others leave it so;
* `Owes`        a part that begins where one assertion holds ends where another does, and keeps
                sound what is sound;
* `owes_act`, `owes_until`, …   the smallest parts.
-/

namespace CodeBridge

namespace Meeting

/-! ## the host -/

structure Standing (m : Meeting) (h : Host) : Prop where
  slot : h.slot = .running m.client
  client : m.client < h.clients.length
  root : h.root = m.root

def view (m : Meeting) (w : Host × Notes) : View := ⟨w.1.clientAt m.client, w.1.disk, w.2⟩

structure Fine (m : Meeting) (w : Host × Notes) : Prop where
  standing : m.Standing w.1
  sound : m.Sound (m.view w)

def terms (m : Meeting) (x : Side) : Terms Host Notes where
  rely w w' := m.Fine w → m.Fine w' ∧ m.Kept x (m.view w) (m.view w')
  guar w w' := m.Fine w →
    m.Fine w' ∧ m.Kept x.other (m.view w) (m.view w') ∧ w'.2.server = w.2.server
  fires _ _ := False
  refl _ h := ⟨h, .refl _⟩
  trans _ _ _ h h' hu := ⟨(h' (h hu).1).1, (h hu).2.trans (h' (h hu).1).2⟩

theorem Standing.setClient {m : Meeting} {h : Host} (hs : m.Standing h) (c : Client) :
    m.Standing (h.setClient m.client c) :=
  ⟨hs.slot, (List.length_set ..).symm ▸ hs.client, hs.root⟩

theorem view_setClient {m : Meeting} {h : Host} (hs : m.Standing h) (c : Client) (g : Notes) :
    m.view (h.setClient m.client c, g) = ⟨c, h.disk, g⟩ := by
  have hc : (h.setClient m.client c).clientAt m.client = c := by
    show ((h.clients.set m.client c)[m.client]?).getD default = c
    rw [List.getElem?_set_self hs.client]
    rfl
  show View.mk _ _ _ = _
  rw [hc]
  rfl

/-! ## assertions -/

structure Assertion (m : Meeting) (x : Side) where
  Holds : View → Prop
  stable : ∀ {v v' : View}, m.Sound v' → m.Kept x v v' → Holds v → Holds v'
  senders : ∀ {v : View} (l : Lock), Holds v → Holds (v.setSenders l)

namespace Assertion
variable {m : Meeting} {x : Side}

def fact (p : Prop) : Assertion m x where
  Holds _ := p
  stable _ _ h := h
  senders _ h := h

def and (P Q : Assertion m x) : Assertion m x where
  Holds v := P.Holds v ∧ Q.Holds v
  stable hs hk h := ⟨P.stable hs hk h.1, Q.stable hs hk h.2⟩
  senders l h := ⟨P.senders l h.1, Q.senders l h.2⟩

def any {ι : Type} (P : ι → Assertion m x) : Assertion m x where
  Holds v := ∃ i, (P i).Holds v
  stable hs hk h := h.imp fun i => (P i).stable hs hk
  senders l h := h.imp fun i => (P i).senders l

end Assertion

/-! ## parts -/

/-- From where `P` holds on a part of a call keeps to the terms, and it ends where `Q` holds. -/
structure Owes {α : Type} {m : Meeting} {x : Side} (P : Assertion m x) (r : Routine Host α)
    (Q : α → Assertion m x) : Prop where
  keeps : ∀ w, m.Fine w → P.Holds (m.view w) →
    r.Keeps (m.terms x) Routine.dropAny (fun a w => m.Fine w ∧ (Q a).Holds (m.view w)) w

section
variable {m : Meeting} {x : Side} {α β : Type} {P : Assertion m x} {Q : α → Assertion m x}
  {R : β → Assertion m x}

theorem Owes.bind {r : Routine Host α} {f : α → Routine Host β} (h : Owes P r Q)
    (hf : ∀ a, Owes (Q a) (f a) R) : Owes P (r.bind f) R :=
  ⟨fun w hw hp => (h.keeps w hw hp).bind fun a w hq => (hf a).keeps w hq.1 hq.2⟩

theorem Owes.mono {r : Routine Host α} {Q' : α → Assertion m x} (h : Owes P r Q)
    (hq : ∀ a v, (Q a).Holds v → (Q' a).Holds v) : Owes P r Q' :=
  ⟨fun w hw hp => (h.keeps w hw hp).mono fun a w hw => ⟨hw.1, hq a (m.view w) hw.2⟩⟩

theorem Owes.imp {r : Routine Host α} {P' : Assertion m x} (h : Owes P' r Q)
    (hp : ∀ v, m.Sound v → P.Holds v → P'.Holds v) : Owes P r Q :=
  ⟨fun w hw hpw => h.keeps w hw (hp (m.view w) hw.sound hpw)⟩

theorem owes_any {ι : Type} {P : ι → Assertion m x} {r : Routine Host α}
    (h : ∀ i, Owes (P i) r Q) : Owes (.any P) r Q :=
  ⟨fun w hw ⟨i, hp⟩ => (h i).keeps w hw hp⟩

theorem owes_fact {p : Prop} {r : Routine Host α} (h : p → Owes P r Q) :
    Owes ((Assertion.fact p).and P) r Q :=
  ⟨fun w hw hp => (h hp.1).keeps w hw hp.2⟩

theorem owes_done {a : α} (h : ∀ v, m.Sound v → P.Holds v → (Q a).Holds v) :
    Owes P (.done a) Q := by
  refine ⟨fun w hw hp w' hr => ?_⟩
  obtain ⟨hw', hk⟩ := hr hw
  exact ⟨hw', h _ hw'.sound (P.stable hw'.sound hk hp)⟩

theorem owes_act {f : Host → α × Host}
    (h : ∀ s g, m.Fine (s, g) → P.Holds (m.view (s, g)) → ∃ g', m.Standing (f s).2 ∧
      m.Move x (m.view (s, g)) (m.view ((f s).2, g')) ∧
      (Q (f s).1).Holds (m.view ((f s).2, g'))) :
    Owes P (.act f) Q := by
  refine ⟨fun w hw hp => Routine.keeps_act fun s g hr => ?_⟩
  obtain ⟨hs, hk⟩ := hr hw
  obtain ⟨g', hst, hmove, hq⟩ := h s g hs (P.stable hs.sound hk hp)
  have hfine : m.Fine ((f s).2, g') := ⟨hst, hmove.sound⟩
  refine ⟨g', fun _ => ⟨hfine, hmove.kept, hmove.server⟩, fun w' hr' => ?_⟩
  obtain ⟨hw', hk'⟩ := hr' hfine
  exact ⟨hw', (Q _).stable hw'.sound hk' hq⟩

theorem owes_read {f : Host → α}
    (h : ∀ s g, m.Fine (s, g) → P.Holds (m.view (s, g)) → (Q (f s)).Holds (m.view (s, g))) :
    Owes P (.read f) Q :=
  owes_act (f := fun s => (f s, s)) fun s g hs hp => ⟨g, hs.standing, .refl hs.sound, h s g hs hp⟩

theorem owes_offload : Owes P .offload fun _ => P := by
  refine ⟨fun w hw hp s g hr => ?_⟩
  obtain ⟨hs, hk⟩ := hr hw
  have hp' := P.stable hs.sound hk hp
  refine ⟨fun w' hr' => ?_, g, trivial⟩
  obtain ⟨hw', hk'⟩ := hr' hs
  exact ⟨hw', P.stable hw'.sound hk' hp'⟩

/-- A part with the lock of the slot, which is of no account. -/
theorem owes_slot {body : Routine Host α} (reading : Bool) (h : Owes P body Q) :
    Owes P (SharedLock.hold reading Host.slotLock Host.setSlotLock body) Q := by
  have hjoin : Owes P (.act fun s => ((s.slotLock.join reading).1,
      s.setSlotLock (s.slotLock.join reading).2)) fun _ => P :=
    owes_act fun s g hs hp => ⟨g, ⟨hs.standing.slot, hs.standing.client, hs.standing.root⟩,
      .refl hs.sound, hp⟩
  refine hjoin.bind fun ticket => ?_
  have hturn : Owes P (.until_ fun s => s.slotLock.holds ticket) fun _ => P := by
    refine ⟨fun w hw hp s g hr => ?_⟩
    obtain ⟨hs, hk⟩ := hr hw
    have hp' := P.stable hs.sound hk hp
    refine ⟨fun _ _ w' hr' => ?_, fun _ _ hl => absurd hl Bool.false_ne_true, g, trivial⟩
    obtain ⟨hw', hk'⟩ := hr' hs
    exact ⟨hw', P.stable hw'.sound hk' hp'⟩
  have hbody := hturn.bind fun _ => h
  have hundo : Owes P (((Routine.until_ fun s => s.slotLock.holds ticket).bind fun _ =>
      body).undoWith fun s => s.setSlotLock (s.slotLock.leave ticket)) Q :=
    ⟨fun w hw hp => (hbody.keeps w hw hp).undoWith fun _ _ g _ => ⟨g, trivial⟩⟩
  refine hundo.bind fun a => ?_
  exact owes_act (f := fun s => (a, s.setSlotLock (s.slotLock.leave ticket))) fun s g hs hp =>
    ⟨g, ⟨hs.standing.slot, hs.standing.client, hs.standing.root⟩, .refl hs.sound, hp⟩

/-! ## parts on the client -/

theorem Owes.client_bind {r : Routine Client α} {f : α → Routine Client β}
    (h : Owes P (Host.onClient m.client r) Q)
    (hf : ∀ a, Owes (Q a) (Host.onClient m.client (f a)) R) :
    Owes P (Host.onClient m.client (r.bind f)) R := by
  unfold Host.onClient at *
  rw [Routine.zoom_bind]
  exact h.bind hf

theorem owes_client_act {f : Client → α × Client}
    (h : ∀ v, m.Sound v → P.Holds v → ∃ g', m.Move x v ⟨(f v.client).2, v.disk, g'⟩ ∧
      (Q (f v.client).1).Holds ⟨(f v.client).2, v.disk, g'⟩) :
    Owes P (Host.onClient m.client (.act f)) Q := by
  refine owes_act (f := fun s => ((f (s.clientAt m.client)).1,
    s.setClient m.client (f (s.clientAt m.client)).2)) fun s g hs hp => ?_
  obtain ⟨g', hmove, hq⟩ := h _ hs.sound hp
  refine ⟨g', hs.standing.setClient _, ?_, ?_⟩
  · rw [view_setClient hs.standing]
    exact hmove
  · rw [view_setClient hs.standing]
    exact hq

theorem owes_client_read {f : Client → α}
    (h : ∀ v, m.Sound v → P.Holds v → (Q (f v.client)).Holds v) :
    Owes P (Host.onClient m.client (.read f)) Q :=
  owes_client_act (f := fun c => (f c, c)) fun v hs hp => ⟨v.notes, .refl hs, h v hs hp⟩

theorem owes_client_done {a : α} (h : ∀ v, m.Sound v → P.Holds v → (Q a).Holds v) :
    Owes P (Host.onClient m.client (.done a)) Q := owes_done h

theorem owes_client_until {ready : Client → Bool} {Q : Assertion m x}
    (h : ∀ v, m.Sound v → P.Holds v → ready v.client = true → Q.Holds v) :
    Owes P (Host.onClient m.client (.until_ ready)) fun _ => Q := by
  refine ⟨fun w hw hp s g hr => ?_⟩
  obtain ⟨hs, hk⟩ := hr hw
  have hp' := P.stable hs.sound hk hp
  refine ⟨fun _ hready w' hr' => ?_, fun _ _ hl => absurd hl Bool.false_ne_true, g, trivial⟩
  obtain ⟨hw', hk'⟩ := hr' hs
  exact ⟨hw', Q.stable hw'.sound hk' (h _ hs.sound hp' hready)⟩

theorem owes_client_untilWithin {ready : Client → Bool} {limit : Nat} {Q : Assertion m x}
    (h : ∀ v, m.Sound v → P.Holds v → ready v.client = true → Q.Holds v) :
    Owes P (Host.onClient m.client (.untilWithin ready limit)) fun b =>
      (Assertion.fact (b = true)).and Q := by
  refine ⟨fun w hw hp s g hr => ?_⟩
  obtain ⟨hs, hk⟩ := hr hw
  have hp' := P.stable hs.sound hk hp
  refine ⟨fun _ hready w' hr' => ?_, fun _ _ _ _ hf => hf.elim, g, trivial⟩
  obtain ⟨hw', hk'⟩ := hr' hs
  exact ⟨hw', rfl, Q.stable hw'.sound hk' (h _ hs.sound hp' hready)⟩

theorem Owes.client_ensure {cleanup : Client → Client} {r : Routine Client α}
    {R : α → Assertion m x} (h : Owes P (Host.onClient m.client r) Q)
    (hc : ∀ a v, m.Sound v → (Q a).Holds v → ∃ g', m.Move x v ⟨cleanup v.client, v.disk, g'⟩ ∧
      (R a).Holds ⟨cleanup v.client, v.disk, g'⟩) :
    Owes P (Host.onClient m.client (r.ensure cleanup)) R := by
  have hundo : Owes P (Host.onClient m.client (r.undoWith cleanup)) Q :=
    ⟨fun w hw hp => (h.keeps w hw hp).zoom_undoWith⟩
  exact hundo.client_bind fun a => owes_client_act (f := fun c => (a, cleanup c)) (hc a)

/-! ## parts on the connection -/

def onLink (m : Meeting) (r : Routine Connection α) : Routine Host α :=
  Host.onClient m.client (Client.onConnection r)

theorem Owes.link_bind {r : Routine Connection α} {f : α → Routine Connection β}
    (h : Owes P (m.onLink r) Q) (hf : ∀ a, Owes (Q a) (m.onLink (f a)) R) :
    Owes P (m.onLink (r.bind f)) R := by
  unfold onLink Client.onConnection at *
  rw [Routine.zoom_bind]
  exact h.client_bind hf

theorem owes_link_act {f : Connection → α × Connection}
    (h : ∀ v, m.Sound v → P.Holds v → ∃ g',
      m.Move x v ⟨v.client.setConnection (f v.client.connection).2, v.disk, g'⟩ ∧
        (Q (f v.client.connection).1).Holds
          ⟨v.client.setConnection (f v.client.connection).2, v.disk, g'⟩) :
    Owes P (m.onLink (.act f)) Q :=
  owes_client_act (f := fun c => ((f c.connection).1, c.setConnection (f c.connection).2)) h

theorem owes_link_read {f : Connection → α}
    (h : ∀ v, m.Sound v → P.Holds v → (Q (f v.client.connection)).Holds v) :
    Owes P (m.onLink (.read f)) Q :=
  owes_link_act (f := fun c => (f c, c)) fun v hs hp => ⟨v.notes, .refl hs, h v hs hp⟩

theorem owes_link_until {ready : Connection → Bool} {Q : Assertion m x}
    (h : ∀ v, m.Sound v → P.Holds v → ready v.client.connection = true → Q.Holds v) :
    Owes P (m.onLink (.until_ ready)) fun _ => Q := by
  show Owes P (Host.onClient m.client (.until_ fun c => ready c.connection)) _
  exact owes_client_until h

theorem owes_link_untilWithin {ready : Connection → Bool} {limit : Nat} {Q : Assertion m x}
    (h : ∀ v, m.Sound v → P.Holds v → ready v.client.connection = true → Q.Holds v) :
    Owes P (m.onLink (.untilWithin ready limit)) fun b => (Assertion.fact (b = true)).and Q := by
  show Owes P (Host.onClient m.client (.untilWithin (fun c => ready c.connection) limit)) _
  exact owes_client_untilWithin h

theorem Owes.link_ensure {cleanup : Connection → Connection} {r : Routine Connection α}
    {R : α → Assertion m x} (h : Owes P (m.onLink r) Q)
    (hc : ∀ a v, m.Sound v → (Q a).Holds v → ∃ g',
      m.Move x v ⟨v.client.setConnection (cleanup v.client.connection), v.disk, g'⟩ ∧
        (R a).Holds ⟨v.client.setConnection (cleanup v.client.connection), v.disk, g'⟩) :
    Owes P (m.onLink (r.ensure cleanup)) R := by
  have hundo : Owes P (m.onLink (r.undoWith cleanup)) Q := by
    refine ⟨fun w hw hp => ?_⟩
    have hk := h.keeps w hw hp
    unfold onLink Client.onConnection Host.onClient at hk ⊢
    rw [Routine.zoom_zoom] at hk ⊢
    exact hk.zoom_undoWith
  exact hundo.link_bind fun a => owes_link_act (f := fun c => (a, cleanup c)) (hc a)

end

end Meeting

end CodeBridge
