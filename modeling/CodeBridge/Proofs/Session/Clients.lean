import CodeBridge.Proofs.Session.Parts

/-!
# What the users of a session do at its clients

The ways through the lifecycle of a client taken apart.

* `Sees`, `owes_look`   what a call finds that has the lock of a client;
* `Steady`, `owes_notify`, `owes_close`   messages, and the end of a connection;
* `owes_handshake`, `owes_shutdown`, `owes_terminate`   the ways through the lifecycle.
-/

namespace CodeBridge

namespace Office

open Pact
open Course (Names)

variable {i k n : Nat} {α β : Type} {e : Entry} {φ : World → Prop}

/-! ## the smallest parts -/

/-- A change that only talks tells something of the moment when it is made. -/
theorem owes_learn {f : Host → α × Host} {ψ : α → World → Prop} {hφ : Firm e φ}
    {hψ : ∀ a, Firm e (ψ a)} (hv : e.view = none) (hf : ∀ h, Says e h (f h).2)
    (h : ∀ w, Sound (board w.1) w.2 → w.2.entries[i]? = some e → φ w → ψ (f w.1).1 w) :
    Owes (knows e φ hφ : Assertion (pact i)) (.act f) fun a => knows e (ψ a) (hψ a) := by
  refine owes_move fun w hs hp => ?_
  obtain ⟨hmove, hsecure⟩ := (hf w.1).move hs hp.1 hv
  exact ⟨_, hmove, getElem?_put hp.1, hψ _ _ _ hsecure (h w hs hp.1 hp.2)⟩

theorem says_look (h : Host) : Says e h (h.setClient k (h.clientAt k)) :=
  (ClientSays.refl (p := fun _ => False) _).toSays nofun

structure Sees (k n : Nat) (c : Client) (w : World) : Prop extends HasLock k n w where
  docs : (w.1.clientAt k).openDocs = c.openDocs
  life : (w.1.clientAt k).lifecycle = c.lifecycle

theorem firm_sees (k n : Nat) (c : Client) : Firm { e with place := some (k, n) } (Sees k n c) :=
  fun w w' hw h =>
    have hkept := (hw.place k n rfl h.holds).2
    ⟨firm_hasLock k n w w' hw h.toHasLock, hkept.docs.trans h.docs, hkept.life.trans h.life⟩

theorem HasLock.setClient {w : World} (c : Client) (h : HasLock k n w)
    (hlock : c.lock = (w.1.clientAt k).lock) (g : Notes) :
    HasLock k n (w.1.setClient k c, g) where
  holds := by
    dsimp only
    rw [clientAt_setClient_self h.known, hlock]
    exact h.holds
  known := length_setClient.symm ▸ h.known

theorem owes_look {hφ : Firm { e with place := some (k, n) } φ} (hv : e.view = none) :
    Owes (inside k n e φ hφ : Assertion (pact i)) (Host.onClient k (.read id))
      fun c => inside k n e (fun w => Sees k n c w ∧ φ w) ((firm_sees k n c).and hφ) :=
  owes_learn (f := fun h : Host => (h.clientAt k, h.setClient k (h.clientAt k))) hv says_look
    fun _ _ _ hp => ⟨hp.1, ⟨hp.1, rfl, rfl⟩, hp.2⟩

theorem owes_andThen {ε : Type} {P : Assertion (pact i)} {r : Routine Client (Except ε α)}
    {next : α → Routine Client (Except ε β)} {Q : Except ε α → Assertion (pact i)}
    {R : Except ε β → Assertion (pact i)} (h : Owes P (Host.onClient k r) Q)
    (hok : ∀ a, Owes (Q (.ok a)) (Host.onClient k (next a)) R)
    (herror : ∀ fault w, Sound (board w.1) w.2 → (Q (.error fault)).Holds w →
      (R (.error fault)).Holds w) :
    Owes P (Host.onClient k (Client.andThen r next)) R := by
  refine h.zoom_bind fun result => ?_
  cases result with
  | ok a => exact hok a
  | error fault => exact owes_done (herror fault)

/-! ## talk at a client -/

section
variable {p : Json → Prop}

theorem says_call {method : String} {params : Option Json}
    (h : ∀ id, p (Message.request id method params)) :
    (Client.call method params).MovesBy (ClientSays p) := says_link (Connection.tells_call h)

theorem says_notify {method : String} {params : Option Json}
    (h : p (Message.notification method params)) :
    (Client.notify method params).MovesBy (ClientSays p) := says_link (Connection.tells_notify h)

end

/-! ## the lifecycle -/

theorem lasts_begun (k : Nat) : Lasts fun w => (w.1.clientAt k).lifecycle ≠ .uninitialized := by
  intro w w' hl h hw'
  have hrank := hl.life k
  rw [hw'] at hrank
  cases hw : (w.1.clientAt k).lifecycle with
  | uninitialized => exact h hw
  | initialized => rw [hw] at hrank; exact absurd hrank (by decide)
  | shutDown => rw [hw] at hrank; exact absurd hrank (by decide)

theorem lasts_shutDown (k : Nat) : Lasts fun w => (w.1.clientAt k).lifecycle = .shutDown := by
  intro w w' hl h
  have hrank := hl.life k
  rw [h] at hrank
  cases hw' : (w'.1.clientAt k).lifecycle with
  | uninitialized => rw [hw'] at hrank; exact absurd hrank (by decide)
  | initialized => rw [hw'] at hrank; exact absurd hrank (by decide)
  | shutDown => rfl

theorem lasts_closed (k : Nat) : Lasts fun w => (w.1.clientAt k).connection.closed = true :=
  fun _ _ hl h => hl.closed k h

/-- A call that has the lock of a client and changes the client's lifecycle relies on nothing at the
client. -/
theorem secure_life {w : World} {c : Client} {e₁ : Entry} {gone : List Nat} (hplace : e.place = none)
    (hlife : (w.1.clientAt k).lifecycle.rank ≤ c.lifecycle.rank)
    (hlink : c.connection = (w.1.clientAt k).connection)
    (he : w.2.entries[i]? = some { e with place := some (k, n) })
    (hdeed : e₁.deed = e.deed) (hwon : e₁.won = e.won) (hsub : ∀ k ∈ w.2.gone, k ∈ gone)
    (hgone : ∀ m b, e.seat = some (m, b) → w.1.slotLock.holds m = true → gone = w.2.gone) :
    Secure e w (w.1.setClient k c, { w.2.put i e₁ with gone := gone }) := by
  refine secure_setClient e₁ hlife hlink he ?_ hdeed hwon hsub hgone
    fun m hm => absurd (hplace.symm.trans hm) nofun
  rfl

/-- How a call is noted that has tried to complete the handshake of a client. -/
def Entry.met (k : Nat) (e : Entry) : Except ClientError Unit → Entry
  | .ok () => { e with greeted := some k }
  | .error _ => e

theorem free_met (hfree : Free e) (result : Except ClientError Unit) : Free (e.met k result) := by
  cases result <;> exact ⟨hfree.place, hfree.view⟩

theorem firm_met (hφ : Firm e φ) (result : Except ClientError Unit) : Firm (e.met k result) φ := by
  cases result <;> exact hφ.congr rfl rfl

def Met (k : Nat) (φ : World → Prop) (result : Except ClientError Unit) (w : World) : Prop :=
  φ w ∧ (result = .ok () → (w.1.clientAt k).lifecycle ≠ .uninitialized)

theorem firm_meets (hφ : Firm e φ) (result : Except ClientError Unit) :
    Firm (e.met k result) (Met k φ result) :=
  (firm_met hφ result).and ((Lasts.imp (result = .ok ()) (lasts_begun k)).firm _)

theorem owes_markInitialized {c : Client} (hφ : Firm e φ) (hfree : Free e)
    (hc : c.lifecycle = .uninitialized) :
    Owes (inside k n e (fun w => Sees k n c w ∧ φ w)
        ((firm_sees k n c).and (hφ.with_place hfree.place _)) : Assertion (pact i))
      (Host.onClient k (.change Client.markInitialized))
      fun _ => inside k n (e.met k (.ok ())) (Met k φ (.ok ()))
        ((firm_meets hφ (.ok ())).with_place (free_met hfree (.ok ())).place _) := by
  refine owes_move (f := fun h : Host => ((), h.setClient k (h.clientAt k).markInitialized))
    fun w hs hp => ?_
  obtain ⟨he, hlock, hsees, hφw⟩ := hp
  have hlife : (w.1.clientAt k).lifecycle = .uninitialized := hsees.life.trans hc
  have hrank : (w.1.clientAt k).lifecycle.rank ≤
      (w.1.clientAt k).markInitialized.lifecycle.rank := by
    rw [hlife]
    exact Nat.zero_le _
  have hself := clientAt_setClient_self (c := (w.1.clientAt k).markInitialized) hlock.known
  have hhush : Hushed w.1 (w.1.setClient k (w.1.clientAt k).markInitialized) :=
    hushed_setClient rfl
  have hgreets : greets k (w.1, w.1.setClient k (w.1.clientAt k).markInitialized) = true := by
    unfold greets
    dsimp only
    rw [hlife, hself]
    rfl
  have hn : Noted w.1 (w.1.setClient k (w.1.clientAt k).markInitialized)
      { e with place := some (k, n) } { e with place := some (k, n), greeted := some k } :=
    noted_hushed hhush (level_of_docs (docs_setClient rfl)) rfl rfl rfl rfl (.inl rfl)
      (.inl hfree.view) rfl (.inr ⟨k, rfl, hgreets⟩)
  have hmove := move_life (w.1.clientAt k).markInitialized w.2.gone _ hs he hlock.known rfl
    hlock.holds rfl rfl rfl nofun hrank hn rfl rfl rfl rfl (fun _ hk => hk) (.inl rfl)
    (slotted_put hs.slotted he rfl) nofun ?_
  · refine ⟨_, hmove, getElem?_put he,
      hlock.setClient (w.1.clientAt k).markInitialized rfl _, hφ _ _ ?_ hφw, fun _ => ?_⟩
    · exact secure_life hfree.place hrank rfl he rfl rfl (fun _ hk => hk) fun _ _ _ _ => rfl
    · dsimp only
      rw [hself]
      exact nofun
  · refine asking_put (hs.asking.go fun hl => ?_) he rfl
    exact absurd (hlife.symm.trans hl) nofun

theorem owes_greet (hφ : Firm e φ) (hfree : Free e) (hall : ∀ m, Allowed e k m)
    (rootUri : String) :
    Owes (inside k n e φ (hφ.with_place hfree.place _) : Assertion (pact i))
      (Host.onClient k (Client.greet rootUri))
      fun result => inside k n (e.met k result) (Met k φ result)
        ((firm_meets hφ result).with_place (free_met hfree result).place _) := by
  refine Owes.zoom_bind (owes_look hfree.view) fun c => ?_
  have hfail (fault : ClientError) (w : World) (hp : (HasLock k n w ∧ Sees k n c w ∧ φ w)) :
      HasLock k n w ∧ Met k φ (.error fault) w := ⟨hp.1, hp.2.2, nofun⟩
  cases hc : c.lifecycle with
  | initialized => exact owes_done fun w _ hp => ⟨hp.1, hfail _ w hp.2⟩
  | shutDown => exact owes_done fun w _ hp => ⟨hp.1, hfail _ w hp.2⟩
  | uninitialized =>
    have htalk {γ : Type} {r : Routine Client γ}
        (hr : r.MovesBy (ClientSays fun m => ¬ Names m "shutdown")) :
        Owes (inside k n e (fun w => Sees k n c w ∧ φ w)
            ((firm_sees k n c).and (hφ.with_place hfree.place _)) : Assertion (pact i))
          (Host.onClient k r) fun _ => inside k n e (fun w => Sees k n c w ∧ φ w)
            ((firm_sees k n c).and (hφ.with_place hfree.place _)) :=
      owes_clientSays hr (fun m hm => ⟨hall m, hm⟩) hfree.view
    refine owes_andThen (htalk (says_call fun id => ?_)) (fun result => ?_)
      fun fault w _ hp => ⟨hp.1, hfail fault w hp.2⟩
    · exact fun h => absurd (Course.names_request.mp h) (by decide)
    · refine Owes.zoom_bind (htalk ?_) fun _ => ?_
      · exact Routine.movesBy_change fun _ => ⟨rfl, rfl, rfl, Connection.tells_refl _⟩
      · refine owes_andThen (htalk (says_notify ?_)) (fun _ => ?_)
          fun fault w _ hp => ⟨hp.1, hfail fault w hp.2⟩
        · exact fun h => absurd (Course.names_notification.mp h) (by decide)
        · exact Owes.zoom_bind (owes_markInitialized hφ hfree hc) fun _ =>
            owes_done fun _ _ hp => hp

/-- Whoever completes the handshake of a client finds it begun. -/
theorem owes_handshake (hφ : Firm e φ) (hfree : Free e) (hall : ∀ m, Allowed e k m)
    (hk : ∀ w, φ w → k < w.1.clients.length) (rootUri : String) :
    Owes (knows e φ hφ : Assertion (pact i)) (Host.onClient k (Client.handshake rootUri))
      fun result => knows (e.met k result) (Met k φ result) (firm_meets hφ result) :=
  owes_locked (fun result => e.met k result) hφ (fun result => firm_meets hφ result) hfree
    (fun result => free_met hfree result) hk fun _ => owes_greet hφ hfree hall rootUri

/-! ### messages -/

/-- What is left as it is by work on a connection that sends nothing. -/
structure Steady (k : Nat) (P : Assertion (pact i)) : Prop where
  owes {γ : Type} {r : Routine Connection γ} (hr : r.MovesBy (Connection.Tells fun _ => False)) :
    Owes P (Host.onClient k (Client.onConnection r)) fun _ => P

theorem steady_knows {hφ : Firm e φ} (hv : e.view = none) :
    Steady k (knows e φ hφ : Assertion (pact i)) :=
  ⟨fun hr => owes_clientSays (says_link hr) nofun hv⟩

theorem steady_any {ι : Type} {P : ι → Assertion (pact i)} (h : ∀ x, Steady k (P x)) :
    Steady k (.any P) :=
  ⟨fun hr => owes_any fun x => ((h x).owes hr).mono fun _ _ _ hp => ⟨x, hp⟩⟩

section
variable {P : Assertion (pact i)} {R : β → Assertion (pact i)}

theorem owes_link_bind {Q : α → Assertion (pact i)} {r : Routine Connection α}
    {f : α → Routine Connection β} (h : Owes P (Host.onClient k (Client.onConnection r)) Q)
    (hf : ∀ a, Owes (Q a) (Host.onClient k (Client.onConnection (f a))) R) :
    Owes P (Host.onClient k (Client.onConnection (r.bind f))) R := by
  unfold Client.onConnection
  rw [Routine.zoom_bind]
  exact h.zoom_bind hf

theorem owes_link_ensure {Q R : α → Assertion (pact i)} {cleanup : Connection → Connection}
    {r : Routine Connection α} (h : Owes P (Host.onClient k (Client.onConnection r)) Q)
    (hc : ∀ a, Owes (Q a) (Host.onClient k (Client.onConnection (.act fun c => (a, cleanup c)))) R) :
    Owes P (Host.onClient k (Client.onConnection (r.ensure cleanup))) R := by
  have hzoom {γ : Type} (r : Routine Connection γ) : Host.onClient k (Client.onConnection r) =
      r.zoom (fun h : Host => (h.clientAt k).connection)
        fun c h => h.setClient k ((h.clientAt k).setConnection c) := Routine.zoom_zoom ..
  rw [hzoom] at h ⊢
  refine h.zoom_ensure fun a => ?_
  have ha := hc a
  rwa [hzoom] at ha

theorem owes_post {Q : Bool → Assertion (pact i)} {message : Outgoing} (hP : Steady k P)
    (hQ : ∀ b, Steady k (Q b))
    (h : Owes P (Host.onClient k (Client.onConnection (.act (Connection.enqueue message)))) Q) :
    Owes P (Host.onClient k (Client.onConnection (Connection.post message))) Q := by
  have hjoin : Owes P (Host.onClient k (Client.onConnection (.act Connection.joinSenders)))
      fun _ => P := hP.owes (Routine.movesBy_act fun _ => Connection.tells_same (fun h => h) rfl)
  refine owes_link_bind hjoin fun ticket => ?_
  have hturn : Owes P (Host.onClient k (Client.onConnection (.until_ (Connection.admits ticket))))
      fun _ => P := hP.owes (Routine.movesBy_until Connection.tells_refl)
  refine owes_link_ensure (owes_link_bind hturn fun _ => h) fun b => ?_
  have hleave : Owes (Q b) (Host.onClient k (Client.onConnection
      (.change (Connection.leaveSenders ticket)))) fun _ => Q b :=
    (hQ b).owes (Routine.movesBy_change fun _ => Connection.tells_same (fun h => h) rfl)
  exact owes_link_bind (f := fun _ => .done b) hleave fun _ => owes_done fun _ _ hq => hq

theorem owes_notify {Q : Except ClientError Unit → Assertion (pact i)} {method : String}
    {params : Option Json} (hP : Steady k P) (hQ : ∀ result, Steady k (Q result))
    (hclosed : ∀ w, Sound (board w.1) w.2 → P.Holds w → (Q (.error .connectionClosed)).Holds w)
    (h : Owes P (Host.onClient k (Client.onConnection
      (.act (Connection.enqueue (.message (Message.notification method params))))))
      fun b => Q (if b then .ok () else .error .connectionClosed)) :
    Owes P (Host.onClient k (Client.notify method params)) Q := by
  have hlook : Owes P (Host.onClient k (Client.onConnection (.read (·.closed)))) fun _ => P :=
    hP.owes (Routine.movesBy_read Connection.tells_refl)
  refine owes_link_bind hlook fun closed => ?_
  cases closed with
  | true => exact owes_done hclosed
  | false =>
    refine owes_link_bind (owes_post hP (fun b => hQ _) h) fun queued => ?_
    cases queued with
    | true => exact owes_done fun _ _ hq => hq
    | false => exact owes_done fun _ _ hq => hq

end

theorem owes_close (hφ : Firm e φ) (hv : e.view = none) (hk : ∀ w, φ w → k < w.1.clients.length)
    (grace : Nat) : Owes (knows e φ hφ : Assertion (pact i))
      (Host.onClient k (Client.onConnection (Connection.close grace)))
      fun _ => knows e (fun w => φ w ∧ (w.1.clientAt k).connection.closed = true)
        (hφ.and ((lasts_closed k).firm e)) := by
  have hsteady : Steady k (knows e φ hφ : Assertion (pact i)) := steady_knows hv
  refine owes_link_bind (hsteady.owes ?_) fun _ => owes_link_bind (hsteady.owes ?_) fun result => ?_
  · exact Connection.movesBy_post Connection.queues_tells (Connection.tells_enqueue nofun)
  · exact Connection.movesBy_reap Connection.queues_tells grace
      (fun _ => Connection.tells_same (fun h => h) rfl) Connection.tells_tryKill
  · have hshut : Owes (knows e φ hφ : Assertion (pact i))
        (Host.onClient k (Client.onConnection (.change Connection.shut)))
        fun _ => knows e (fun w => φ w ∧ (w.1.clientAt k).connection.closed = true)
          (hφ.and ((lasts_closed k).firm e)) := by
      refine owes_move (f := fun h : Host => ((), h.setClient k ((h.clientAt k).setConnection
        (h.clientAt k).connection.shut))) fun w hs hp => ?_
      have hspeaks : Says e w.1 (w.1.setClient k ((w.1.clientAt k).setConnection
          (w.1.clientAt k).connection.shut)) :=
        ClientSays.toSays (p := fun _ => False) nofun
          ⟨rfl, rfl, rfl, Connection.tells_same (fun _ => rfl) rfl⟩
      obtain ⟨hmove, hsecure⟩ := hspeaks.move hs hp.1 hv
      refine ⟨_, hmove, getElem?_put hp.1, hφ _ _ hsecure hp.2, ?_⟩
      dsimp only
      rw [clientAt_setClient_self (hk w hp.2)]
      rfl
    exact owes_link_bind hshut fun _ => owes_done fun _ _ hp => hp

def posted (m : Json) (k : Nat) (h : Host) : Host :=
  h.setClient k ((h.clientAt k).setConnection
    ((h.clientAt k).connection.enqueue (.message m)).2)

theorem calm_posted (m : Json) (k : Nat) (h : Host) : Calm h (posted m k h) :=
  ClientSays.calm (p := fun _ => True)
    ⟨rfl, rfl, rfl, Connection.tells_message trivial _⟩

theorem told_posted {m : Json} {k : Nat} {h : Host} (hk : k < h.clients.length)
    (hw : (h.clientAt k).connection.writing = true) (j : Nat) :
    told j (h, posted m k h) = if j = k then [m] else [] := by
  unfold posted
  rw [told_setClient hk j]
  split
  · have houtbox := Connection.outbox_enqueue (.message m) (h.clientAt k).connection
    rw [if_pos hw] at houtbox
    show Course.added _ _ = [Outgoing.message m].filterMap Outgoing.message?
    exact Course.added_append houtbox
  · rfl

theorem owes_enqueue {Q : Bool → Assertion (pact i)} {hφ : Firm e φ} {m : Json} (hv : e.view = none)
    (hposted : ∀ w, Sound (board w.1) w.2 → w.2.entries[i]? = some e → φ w →
      (w.1.clientAt k).connection.writing = true →
        ∃ g, Move i w (posted m k w.1, g) ∧ (Q true).Holds (posted m k w.1, g))
    (hfailed : ∀ w, w.2.entries[i]? = some e → φ w → (Q false).Holds w) :
    Owes (knows e φ hφ : Assertion (pact i))
      (Host.onClient k (Client.onConnection (.act (Connection.enqueue (.message m))))) Q := by
  refine owes_move (f := fun h : Host => (((h.clientAt k).connection.enqueue (.message m)).1,
    posted m k h)) fun w hs hp => ?_
  cases hw : (w.1.clientAt k).connection.writing with
  | true =>
    have hq : ((w.1.clientAt k).connection.enqueue (.message m)).1 = true := by
      unfold Connection.enqueue
      rw [hw]
      rfl
    obtain ⟨g, hmove, hg⟩ := hposted w hs hp.1 hp.2 hw
    exact ⟨g, hmove, hq.symm ▸ hg⟩
  | false =>
    have hq : (w.1.clientAt k).connection.enqueue (.message m) =
        (false, (w.1.clientAt k).connection) := if_neg (Bool.eq_false_iff.mp hw)
    obtain ⟨hmove, hsecure⟩ := (says_look (k := k) w.1).move hs hp.1 hv
    unfold posted
    rw [hq]
    exact ⟨_, hmove, hfailed _ (getElem?_put hp.1) (hφ _ _ hsecure hp.2)⟩

/-! ### the end -/

/-- The client has been left, or is about to be, by the session or by somebody else. -/
def Leaving (k : Nat) (w : World) : Prop := k ∈ w.2.gone ∨ Direct k (standings w)

theorem lasts_leaving (k : Nat) : Lasts (Leaving k) := fun _ _ hl h =>
  h.imp (hl.gone k) (hl.direct k)

theorem rank_le_shutDown (l : Lifecycle) : l.rank ≤ Lifecycle.shutDown.rank := by
  cases l <;> decide

theorem noted_left {h h' : Host} {e' : Entry} (hh : Hushed h h') (htool : e.deed.isTool = false)
    (hdeed : e'.deed = e.deed) (hlate : e'.late = e.late) (hagain : e'.again = e.again)
    (hadded : e'.added = e.added) (hward : e'.ward = e.ward) (hview : e'.view = none) (hgrip : e'.grip = e.grip)
    (hgreeted : e'.greeted = e.greeted) : Noted h h' e e' where
  deed := hdeed
  late := hlate
  again := hagain
  added := .inl hadded
  ward := .inl hward
  view := .inl hview
  grip ht := absurd (htool.symm.trans ht) Bool.false_ne_true
  still _ := hgrip
  speech k m hm := by
    rw [hh.told k] at hm
    cases hm
  count _ := hh.count
  greeted := .inl hgreeted

theorem leave_facts {h : Host} {k : Nat} {c : Client} (hc : c.lifecycle = .shutDown)
    (hdocs : c.openDocs = []) : c.openDocs =
      (if c.lifecycle = .shutDown then [] else (h.clientAt k).openDocs) ∧
      c.lifecycle ≠ .uninitialized ∧ (h.clientAt k).lifecycle.rank ≤ c.lifecycle.rank := by
  rw [hc, if_pos rfl]
  exact ⟨hdocs, nofun, rank_le_shutDown _⟩

/-- Who has the lock of a client marks it as left, as has been made known before. -/
theorem owes_markTerminated (hφ : Firm e φ) (hfree : Free e) (htool : e.deed.isTool = false)
    (hleave : ∀ w, φ w → Leaving k w) :
    Owes (inside k n e φ (hφ.with_place hfree.place _) : Assertion (pact i))
      (Host.onClient k (.change Client.markTerminated))
      fun _ => inside k n e (fun w => φ w ∧ (w.1.clientAt k).lifecycle = .shutDown)
        ((hφ.and ((lasts_shutDown k).firm e)).with_place hfree.place _) := by
  refine owes_move (f := fun h : Host => ((), h.setClient k (h.clientAt k).markTerminated))
    fun w hs hp => ?_
  obtain ⟨he, hlock, hφw⟩ := hp
  obtain ⟨hdocs, hfresh, hrank⟩ :=
    leave_facts (h := w.1) (k := k) (c := (w.1.clientAt k).markTerminated) rfl rfl
  have hhush : Hushed w.1 (w.1.setClient k (w.1.clientAt k).markTerminated) := hushed_setClient rfl
  have hslotted := slotted_put hs.slotted he (f := { e with place := some (k, n) }) rfl
  have hmove := move_life (w.1.clientAt k).markTerminated w.2.gone _ hs he hlock.known rfl hlock.holds
    rfl rfl hdocs hfresh hrank (noted_left hhush htool rfl rfl rfl rfl rfl hfree.view rfl rfl) rfl rfl rfl
    rfl (fun _ hk => hk) (.inl rfl) hslotted (fun _ => ?_)
    (asking_put (hs.asking.go fun _ => rfl) he rfl)
  · refine ⟨_, hmove, getElem?_put he,
      hlock.setClient (w.1.clientAt k).markTerminated rfl _, hφ _ _ ?_ hφw, ?_⟩
    · exact secure_life hfree.place hrank rfl he rfl rfl (fun _ hk => hk) fun _ _ _ _ => rfl
    · dsimp only
      rw [clientAt_setClient_self hlock.known]
      rfl
  · refine (hleave w hφw).imp id fun hd => ?_
    have hst := map_set_same (f := (·.toStanding)) he (y := { e with place := some (k, n) }) rfl
    unfold Notes.put
    dsimp only
    rw [hst]
    exact hd

/-- Who has the slot for itself sees off the client that it could not make ready. -/
theorem owes_seeOff {m : Nat} {ψ : World → Prop} (hφ : Firm e φ) (hfree : Free e)
    (htool : e.deed.isTool = false) (hseat : e.seat = some (m, false))
    (hholds : ∀ w, φ w → w.1.slotLock.holds m = true) (hψ : Firm { e with leaving := true } ψ)
    (hφψ : ∀ w w', φ w → w'.1.slot = w.1.slot → w'.1.slotLock = w.1.slotLock →
      w'.1.clients.length = w.1.clients.length →
      (Started (standings w') → Started (standings w)) → ψ w') :
    Owes (inside k n e φ (hφ.with_place hfree.place _) : Assertion (pact i))
      (Host.onClient k (.change Client.markTerminated))
      fun _ => inside k n { e with leaving := true }
        (fun w => ψ w ∧ (w.1.clientAt k).lifecycle = .shutDown)
        (Firm.with_place (e := { e with leaving := true })
          (hψ.and ((lasts_shutDown k).firm _)) hfree.place _) := by
  refine owes_move (f := fun h : Host => ((), h.setClient k (h.clientAt k).markTerminated))
    fun w hs hp => ?_
  obtain ⟨he, hlock, hφw⟩ := hp
  obtain ⟨hdocs, hfresh, hrank⟩ :=
    leave_facts (h := w.1) (k := k) (c := (w.1.clientAt k).markTerminated) rfl rfl
  have hhush : Hushed w.1 (w.1.setClient k (w.1.clientAt k).markTerminated) := hushed_setClient rfl
  have hslotted : Slotted (board w.1) (k :: w.2.gone)
      ((w.2.put i { e with leaving := true, place := some (k, n) }).entries.map (·.toStanding)) := by
    unfold Notes.put
    dsimp only
    rw [List.map_set]
    have hst := getElem?_mapped (·.toStanding) he
    exact hs.slotted.see hst hseat (hholds w hφw) hlock.known
  have hmove := move_life (w.1.clientAt k).markTerminated (k :: w.2.gone)
    { e with leaving := true, place := some (k, n) } hs he hlock.known rfl hlock.holds rfl rfl hdocs hfresh hrank (noted_left hhush htool rfl rfl rfl rfl rfl hfree.view rfl rfl)
    rfl rfl rfl rfl (fun _ => List.mem_cons_of_mem k) (.inr ⟨m, hseat, hholds w hφw⟩) hslotted
    (fun _ => .inl (List.mem_cons_self ..)) (asking_put (hs.asking.go fun _ => rfl) he rfl)
  refine ⟨_, hmove, getElem?_put he, hlock.setClient (w.1.clientAt k).markTerminated rfl _,
    hφψ w _ hφw rfl rfl length_setClient ?_, ?_⟩
  · have hkept : SlotKept w (w.1, w.2.put i { e with leaving := true, place := some (k, n) }) := by
      exact slotKept_put rfl rfl he
        (show _ = w.2.entries.set i { e with leaving := true, place := some (k, n) } from rfl) id
    exact hkept.started
  · dsimp only
    rw [clientAt_setClient_self hlock.known]
    rfl

theorem owes_terminate {f : Entry} {ψ : World → Prop} (hφ : Firm e φ) (hψ : Firm f ψ)
    (hfree : Free e) (hf : Free f) (hk : ∀ w, φ w → k < w.1.clients.length)
    (hk' : ∀ w, ψ w → k < w.1.clients.length)
    (hmark : ∀ n, Owes (inside k n e φ (hφ.with_place hfree.place _) : Assertion (pact i))
      (Host.onClient k (.change Client.markTerminated))
      fun _ => inside k n f ψ (hψ.with_place hf.place _)) :
    Owes (knows e φ hφ : Assertion (pact i)) (Host.onClient k Client.terminate)
      fun _ => knows f (fun w => ψ w ∧ (w.1.clientAt k).connection.closed = true)
        (hψ.and ((lasts_closed k).firm f)) := by
  have hlocked := owes_locked (fun _ => f) hφ (fun _ => hψ) hfree (fun _ => hf) hk hmark
  exact hlocked.zoom_bind fun _ => owes_close hψ hf.view hk' 0

/-! ### a shutdown -/

theorem Firm.with_parting {parting : Option Nat} (h : Firm e φ) :
    Firm { e with parting := parting } φ := h.congr rfl rfl

theorem owes_beginShutdown {c : Client} (hφ : Firm e φ) (hfree : Free e)
    (htool : e.deed.isTool = false) (hleave : ∀ w, φ w → Leaving k w)
    (hc : c.lifecycle = .initialized) :
    Owes (inside k n e (fun w => Sees k n c w ∧ φ w)
        ((firm_sees k n c).and (hφ.with_place hfree.place _)) : Assertion (pact i))
      (Host.onClient k (.act Client.beginShutdown))
      fun _ => inside k n { e with parting := some k } φ
        (Firm.with_place (e := { e with parting := some k }) hφ.with_parting hfree.place _) := by
  refine owes_move (f := fun h : Host => ((h.clientAt k).beginShutdown.1,
    h.setClient k (h.clientAt k).beginShutdown.2)) fun w hs hp => ?_
  obtain ⟨he, hlock, hsees, hφw⟩ := hp
  obtain ⟨hdocs, hfresh, hrank⟩ :=
    leave_facts (h := w.1) (k := k) (c := (w.1.clientAt k).beginShutdown.2) rfl rfl
  have hhush : Hushed w.1 (w.1.setClient k (w.1.clientAt k).beginShutdown.2) := hushed_setClient rfl
  have hslotted := slotted_put hs.slotted he
    (f := { e with place := some (k, n), parting := some k }) rfl
  have hup : (w.1.clientAt k).lifecycle ≠ .shutDown := fun hw =>
    nomatch (hsees.life.trans hc).symm.trans hw
  have hasking : Asking (Function.update (board w.1).life k .shutDown) w.2.asked
      ((w.2.put i { e with place := some (k, n), parting := some k }).entries.map (·.parting)) := by
    unfold Notes.put
    dsimp only
    rw [List.map_set]
    exact hs.asking.part (getElem?_mapped (·.parting) he) hup
  have hmove := move_life (w.1.clientAt k).beginShutdown.2 w.2.gone
    { e with place := some (k, n), parting := some k } hs he hlock.known rfl hlock.holds rfl rfl hdocs hfresh hrank (noted_left hhush htool rfl rfl rfl rfl rfl hfree.view rfl rfl) rfl rfl rfl
    rfl (fun _ hk => hk) (.inl rfl) hslotted (fun _ => ?_) hasking
  · refine ⟨_, hmove, getElem?_put he,
      hlock.setClient (w.1.clientAt k).beginShutdown.2 rfl _, hφ _ _ ?_ hφw⟩
    exact secure_life hfree.place hrank rfl he rfl rfl (fun _ hk => hk) fun _ _ _ _ => rfl
  · refine (hleave w hφw).imp id fun hd => ?_
    have hst := map_set_same (f := (·.toStanding)) he
      (y := { e with place := some (k, n), parting := some k }) rfl
    unfold Notes.put
    dsimp only
    rw [hst]
    exact hd

theorem says_closeAll {p : Json → Prop} (docs : List String) (first : Option ClientError)
    (h : ∀ uri, p (Message.notification "textDocument/didClose" (some (Params.ofDocument uri)))) :
    (Client.closeAll docs first).MovesBy (ClientSays p) := by
  induction docs generalizing first with
  | nil => exact Routine.movesBy_done _
  | cons uri docs ih => exact (says_notify (h uri)).bind fun result => ih _

theorem owes_askShutdown (hφ : Firm e φ) (hv : e.view = none) (hall : ∀ m, Allowed e k m)
    (hk : ∀ w, φ w → k < w.1.clients.length) (id : UInt64) :
    Owes (knows { e with parting := some k } φ hφ.with_parting : Assertion (pact i))
      (Host.onClient k (Client.onConnection (.act (Connection.enqueue
        (.message (Message.request id "shutdown" none))))))
      fun _ => .any fun parting => knows { e with parting := parting } φ hφ.with_parting := by
  refine owes_enqueue hv (fun w hs he hφw hw => ?_) fun w he hφw => ⟨some k, he, hφw⟩
  have htold (j : Nat) := told_posted (m := Message.request id "shutdown" none) (hk w hφw) hw j
  have hcalm := calm_posted (Message.request id "shutdown" none) k w.1
  have hn : Noted w.1 (posted (Message.request id "shutdown" none) k w.1)
      { e with parting := some k } { e with parting := none } := by
    refine ⟨rfl, rfl, rfl, .inl rfl, .inl rfl, .inl hv, fun _ => .same (level_of_docs hcalm.docs), fun _ => rfl,
      fun j m hm => ?_, fun _ => length_setClient, .inl rfl⟩
    rw [htold j] at hm
    split at hm
    next hj => exact hj ▸ hall m
    · cases hm
  have hasked (j : Nat) : partings j (w.1, posted (Message.request id "shutdown" none) k w.1) =
      if j = k then 1 else 0 := by
    unfold partings
    rw [htold j]
    split
    · exact List.countP_cons_of_pos (decide_eq_true (Course.names_request.mpr rfl))
    · rfl
  refine ⟨_, move_asked hs he hcalm hn rfl hasked, none, getElem?_put he, ?_⟩
  refine hφ _ _ (hcalm.secure_put { e with parting := none } he ?_ ?_ ?_ e) hφw
  all_goals rfl

/-- Whoever might have asked the server to shut down has done so, or will not do so any more. -/
theorem owes_callShutdown (hφ : Firm e φ) (hv : e.view = none) (hparting : e.parting = none)
    (hall : ∀ m, Allowed e k m) (hk : ∀ w, φ w → k < w.1.clients.length) :
    Owes (knows { e with parting := some k } φ hφ.with_parting : Assertion (pact i))
      (Host.onClient k (Client.call "shutdown" none)) fun _ => knows e φ hφ := by
  let asking : Assertion (pact i) := knows { e with parting := some k } φ hφ.with_parting
  let asked : Assertion (pact i) :=
    .any fun parting => knows { e with parting := parting } φ hφ.with_parting
  have hasking : Steady k asking := steady_knows hv
  have hasked : Steady k asked := steady_any fun _ => steady_knows hv
  have hregister : Owes asking (Host.onClient k (Client.onConnection (.act Connection.register)))
      fun _ => asking :=
    hasking.owes (Routine.movesBy_act fun _ => Connection.tells_same (fun h => h) rfl)
  have hread : Owes asking (Host.onClient k (Client.onConnection (.read (·.closed))))
      fun _ => asking := hasking.owes (Routine.movesBy_read Connection.tells_refl)
  have hexchange (id : UInt64) : Owes asking (Host.onClient k (Client.onConnection
      (Connection.exchange id "shutdown" none))) fun _ => asked := by
    refine owes_link_bind hread fun closed => ?_
    cases closed with
    | true => exact owes_done fun _ _ hp => ⟨some k, hp⟩
    | false =>
      refine owes_link_bind (owes_post hasking (fun _ => hasked)
        (owes_askShutdown hφ hv hall hk id)) fun queued => ?_
      cases queued with
      | true => exact hasked.owes (Connection.movesBy_await Connection.queues_tells id "shutdown")
      | false => exact owes_done fun _ _ hp => hp
  refine owes_link_bind hregister fun id => owes_link_ensure (hexchange id) fun result => ?_
  refine owes_any fun parting => owes_move (f := fun h : Host => (result,
    h.setClient k ((h.clientAt k).setConnection ((h.clientAt k).connection.forget id))))
    fun w hs hp => ?_
  have hspeaks : Says e w.1 (w.1.setClient k ((w.1.clientAt k).setConnection
      ((w.1.clientAt k).connection.forget id))) :=
    ClientSays.toSays (p := fun _ => False) nofun
      ⟨rfl, rfl, rfl, Connection.tells_same (fun h => h) rfl⟩
  have hn : Noted w.1 (w.1.setClient k ((w.1.clientAt k).setConnection
      ((w.1.clientAt k).connection.forget id))) { e with parting := parting } e :=
    ⟨rfl, rfl, rfl, .inl rfl, .inl rfl, .inl hv, fun _ => .same (level_of_docs hspeaks.docs), fun _ => rfl,
      fun c m hm => (hspeaks.speech c m hm).1, fun _ => hspeaks.same, .inl rfl⟩
  refine ⟨_, move_calm hs hp.1 hspeaks.toCalm hn rfl rfl (fun _ _ _ => Iff.rfl) (.inr hparting)
    fun c => ?_, getElem?_put hp.1, hφ _ _ ?_ hp.2⟩
  · refine List.countP_eq_zero.mpr fun m hm => ?_
    rw [decide_eq_true_iff]
    exact (hspeaks.speech c m hm).2
  · refine hspeaks.toCalm.secure_put e hp.1 ?_ ?_ ?_ e
    all_goals rfl

theorem owes_farewell (hφ : Firm e φ) (hfree : Free e) (htool : e.deed.isTool = false)
    (hparting : e.parting = none) (hall : ∀ m, Allowed e k m)
    (hleave : ∀ w, φ w → Leaving k w) :
    Owes (inside k n e φ (hφ.with_place hfree.place _) : Assertion (pact i))
      (Host.onClient k Client.farewell)
      fun _ => inside k n e φ (hφ.with_place hfree.place _) := by
  refine Owes.zoom_bind (owes_look hfree.view) fun c => ?_
  cases hc : c.lifecycle with
  | uninitialized => exact owes_done fun w _ hp => ⟨hp.1, hp.2.1, hp.2.2.2⟩
  | shutDown => exact owes_done fun w _ hp => ⟨hp.1, hp.2.1, hp.2.2.2⟩
  | initialized =>
    refine Owes.zoom_bind (owes_beginShutdown hφ hfree htool hleave hc) fun docs => ?_
    have htalk (parting : Option Nat) {γ : Type} {r : Routine Client γ}
        (hr : r.MovesBy (ClientSays fun m => ¬ Names m "shutdown")) :
        Owes (inside k n { e with parting := parting } φ
            (Firm.with_place (e := { e with parting := parting }) hφ.with_parting hfree.place _) :
            Assertion (pact i))
          (Host.onClient k r) fun _ => inside k n { e with parting := parting } φ
            (Firm.with_place (e := { e with parting := parting }) hφ.with_parting hfree.place _) :=
      owes_clientSays hr (fun m hm => ⟨hall m, hm⟩) hfree.view
    refine Owes.zoom_bind (htalk (some k) (says_closeAll docs none fun uri => ?_)) fun first => ?_
    · exact fun h => absurd (Course.names_notification.mp h) (by decide)
    · have hcall := owes_callShutdown (i := i) (e := { e with place := some (k, n) })
        ((firm_hasLock k n).and (hφ.with_place hfree.place _)) hfree.view hparting hall
        fun w hp => hp.1.known
      refine Owes.zoom_bind hcall fun answered => ?_
      refine Owes.zoom_bind (htalk e.parting (says_notify ?_)) fun left => ?_
      · exact fun h => absurd (Course.names_notification.mp h) (by decide)
      · have hclose := htalk e.parting (says_link (Connection.tells_close
          (Connection.milliseconds c.settings.shutdownTimeout)))
        refine Owes.zoom_bind hclose fun closed => ?_
        cases Client.keepFirst (Client.keepFirst (Client.keepFirst first answered) left) closed with
        | none => exact owes_done fun _ _ hp => hp
        | some fault => exact owes_done fun _ _ hp => hp

theorem owes_shutdown (hφ : Firm e φ) (hfree : Free e) (htool : e.deed.isTool = false)
    (hparting : e.parting = none) (hall : ∀ m, Allowed e k m) (hleave : ∀ w, φ w → Leaving k w)
    (hk : ∀ w, φ w → k < w.1.clients.length) :
    Owes (knows e φ hφ : Assertion (pact i)) (Host.onClient k Client.shutdown)
      fun _ => knows e φ hφ :=
  owes_locked (fun _ => e) hφ (fun _ => hφ) hfree (fun _ => hfree) hk fun _ =>
    owes_farewell hφ hfree htool hparting hall hleave

end Office

end CodeBridge
