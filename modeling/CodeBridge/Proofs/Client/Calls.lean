import CodeBridge.Proofs.Client.Moves

/-!
# What a call at a client owes

The calls of a client taken apart: what each part owes to the other calls, and what it ends in.

* `away`, `inside`, `rests`   what a call knows without the lock, with it, and with it when its part
                              is done;
* `owes_post`, `owes_notify`, `owes_call`, …   messages;
* `owes_takeHold`, `owes_letGo`, `owes_farewell`, …   what is done with the lock;
* `Settles`, `owes_deed`      what any call ends in.
-/

namespace CodeBridge

namespace Desk
variable {paired : Prop} {i : Nat} {α β : Type}

open Pact

/-! ## what a call knows -/

def Lasts (φ : World → Prop) : Prop := ∀ w w', Lasting w w' → φ w → φ w'

def Locked (φ : World → Prop) : Prop := ∀ w w', Unmoved w w' → φ w → φ w'

theorem Lasts.locked {φ : World → Prop} (h : Lasts φ) : Locked φ := fun w w' hu =>
  h w w' hu.lasting

theorem lasts_const (p : Prop) : Lasts fun _ => p := fun _ _ _ h => h

theorem lasts_closed : Lasts World.closed := fun _ _ hl h => hl.closed h

theorem lasts_left (p : Prop) : Lasts fun w => p ∧ Left w := fun _ _ hl h => ⟨h.1, hl.left h.2⟩

/-- The call does not have the lock. -/
def away (e : Entry) (φ : World → Prop) (hφ : Lasts φ) : Assertion (pact paired i) where
  Holds w := (w.2.entries[i]? = some e ∧ Clear i w) ∧ φ w
  stable _ hk h := ⟨⟨hk.entry e h.1.1, hk.clear h.1.2⟩, hφ _ _ hk.lasting h.2⟩

def inside (e : Entry) (φ : World → Prop) (hφ : Locked φ) : Assertion (pact paired i) where
  Holds w := Inside i e w ∧ φ w
  stable _ hk h := by
    obtain ⟨⟨he, n, hn, hl⟩, h⟩ := h
    obtain ⟨hl', hu⟩ := hk.locked e n he hn hl
    exact ⟨⟨hk.entry e he, n, hn, hl'⟩, hφ _ _ hu h⟩

/-- Nothing is left to be told, or nobody can be told any more. -/
def Quiet (w : World) : Prop := w.closed ∨ w.2.pending = []

theorem locked_quiet {φ : World → Prop} (h : Lasts φ) : Locked fun w => Quiet w ∧ φ w :=
  fun w w' hu hw => ⟨hw.1.imp hu.closed fun hp => hu.pending.trans hp, h.locked w w' hu hw.2⟩

/-- The call has the lock and has done its part. -/
def rests (e : Entry) (φ : World → Prop) (hφ : Lasts φ) : Assertion (pact paired i) :=
  inside e (fun w => Quiet w ∧ φ w) (locked_quiet hφ)

/-- The documents that a call with the lock finds, and what is left to be told; some of it stays
untold when the connection is lost. -/
structure Finds (docs : List (String × Nat)) (life : Lifecycle) (pending : List String)
    (w : World) : Prop where
  openDocs : w.1.openDocs = docs
  lifecycle : w.1.lifecycle = life
  pending : w.2.pending = pending ∨ w.closed ∧ w.2.pending ≠ []

theorem Finds.locked (docs : List (String × Nat)) (life : Lifecycle) (pending : List String) :
    Locked (Finds docs life pending) := fun _ _ hu h =>
  ⟨hu.openDocs.trans h.openDocs, hu.lifecycle.trans h.lifecycle,
    h.pending.imp (fun hp => hu.pending.trans hp) fun hp => ⟨hu.closed hp.1, hu.pending ▸ hp.2⟩⟩

def finds (e : Entry) (docs : List (String × Nat)) (life : Lifecycle) (pending : List String) :
    Assertion (pact paired i) := inside e (Finds docs life pending) (.locked docs life pending)

/-- What may be sent next about a document, as long as anything can be sent. -/
def Ready (uri : String) (m : Mark) (w : World) : Prop :=
  w.1.connection.writing = true → (Standing (w.marks uri) ↔ m = .didClose)

theorem Ready.locked (uri : String) (m : Mark) : Locked (Ready uri m) := fun _ _ hu h hw => by
  obtain ⟨hw', hm⟩ := hu.writing hw
  rw [hm uri]
  exact h hw'

/-- A call with the lock may send a message about a document. -/
def mayTell (e : Entry) (docs : List (String × Nat)) (life : Lifecycle) (pending : List String)
    (uri : String) (m : Mark) : Assertion (pact paired i) :=
  inside e (fun w => Finds docs life pending w ∧ Ready uri m w) fun w w' hu h =>
    ⟨.locked docs life pending w w' hu h.1, .locked uri m w w' hu h.2⟩

/-! ## the smallest parts -/

section
variable {P : Assertion (pact paired i)} {Q : α → Assertion (pact paired i)}

theorem owes_move {f : Client → α × Client}
    (h : ∀ w, Sound paired w → P.Holds w → ∃ g, Move paired i w ((f w.1).2, g) ∧
      (Q (f w.1).1).Holds ((f w.1).2, g)) : Owes P (.act f) Q := by
  refine owes_act fun s g hs hp => ?_
  obtain ⟨g', hmove, hq⟩ := h (s, g) hs hp
  exact ⟨g', hmove.sound, hmove.may, hq⟩

theorem owes_change {f : Client → Client} {Q : Assertion (pact paired i)}
    (h : ∀ w, Sound paired w → P.Holds w → ∃ g, Move paired i w (f w.1, g) ∧ Q.Holds (f w.1, g)) :
    Owes P (.change f) fun _ => Q := owes_move (f := fun c => ((), f c)) h

theorem beside_refl (w : World) : Beside w w :=
  ⟨rfl, rfl, rfl, rfl, rfl, rfl, Connection.aside_refl⟩

theorem owes_read {f : Client → α}
    (h : ∀ w, Sound paired w → P.Holds w → (Q (f w.1)).Holds w) : Owes P (.read f) Q :=
  owes_move (f := fun c => (f c, c)) fun w hs hp =>
    ⟨w.2, (beside_refl w).move rfl hs, h w hs hp⟩

/-- A change that is about no document, known or not, leaves what is known as it is. -/
theorem owes_beside {f : Client → α × Client}
    (h : ∀ w, Sound paired w → P.Holds w → Beside w ((f w.1).2, w.2)) :
    Owes P (.act f) fun _ => P := by
  refine owes_move fun w hs hp => ⟨w.2, (h w hs hp).move rfl hs, ?_⟩
  exact P.stable ((h w hs hp).sound hs) ((h w hs hp).kept i) hp

/-! ## parts on the connection -/

theorem owes_link_move {f : Connection → α × Connection}
    (h : ∀ w, Sound paired w → P.Holds w → ∃ g,
      Move paired i w (w.1.setConnection (f w.1.connection).2, g) ∧
        (Q (f w.1.connection).1).Holds (w.1.setConnection (f w.1.connection).2, g)) :
    Owes P (Client.onConnection (.act f)) Q :=
  owes_move (f := fun c => ((f c.connection).1, c.setConnection (f c.connection).2)) h

theorem owes_link_read {f : Connection → α}
    (h : ∀ w, Sound paired w → P.Holds w → (Q (f w.1.connection)).Holds w) :
    Owes P (Client.onConnection (.read f)) Q :=
  owes_link_move (f := fun c => (f c, c)) fun w hs hp =>
    ⟨w.2, (beside_refl w).move rfl hs, h w hs hp⟩

theorem owes_link_beside {f : Connection → α × Connection}
    (h : ∀ w, Sound paired w → P.Holds w → Connection.Aside (¬ Left w)
      (w.1.connection, w.2.written) ((f w.1.connection).2, w.2.written)) :
    Owes P (Client.onConnection (.act f)) fun _ => P :=
  owes_beside (f := fun c => ((f c.connection).1, c.setConnection (f c.connection).2))
    fun w hs hp => ⟨rfl, rfl, rfl, rfl, rfl, rfl, h w hs hp⟩

theorem owes_link_bind {R : β → Assertion (pact paired i)} {r : Routine Connection α}
    {f : α → Routine Connection β} (h : Owes P (Client.onConnection r) Q)
    (hf : ∀ a, Owes (Q a) (Client.onConnection (f a)) R) :
    Owes P (Client.onConnection (r.bind f)) R := h.zoom_bind hf

theorem owes_link_wait {ready : Connection → Bool} {limit : Option Nat}
    {abandon : Connection → Connection} {f : Bool → α} :
    Owes P (Client.onConnection (.wait ready limit abandon fun b _ => .done (f b))) fun _ => P :=
  owes_wait (fun _ _ h => h) (fun _ _ hp _ => hp) fun _ _ hp _ => hp

/-! ## messages -/

theorem owes_post {Q : Bool → Assertion (pact paired i)} {message : Outgoing}
    (h : Owes P (Client.onConnection (.act (Connection.enqueue message))) Q) :
    Owes P (Client.onConnection (Connection.post message)) Q := by
  have hjoin : Owes P (Client.onConnection (.act Connection.joinSenders)) fun _ => P :=
    owes_link_beside fun w _ _ => Connection.aside_joinSenders _ _
  have hbody (ticket : Nat) : Owes P (Client.onConnection
      (Routine.bind (.until_ (Connection.admits ticket)) fun _ =>
        .act (Connection.enqueue message))) Q :=
    owes_link_bind owes_link_wait fun _ => h
  refine owes_link_bind hjoin fun ticket => (hbody ticket).zoom_ensure fun b => ?_
  refine owes_link_move (f := fun c => (b, c.leaveSenders ticket)) fun w hs hq => ?_
  have hbeside : Beside w (w.1.setConnection (w.1.connection.leaveSenders ticket), w.2) :=
    ⟨rfl, rfl, rfl, rfl, rfl, rfl, Connection.aside_leaveSenders _ _ ticket⟩
  exact ⟨w.2, hbeside.move rfl hs, (Q b).stable (hbeside.sound hs) (hbeside.kept i) hq⟩

/-- A message that is about no document may be sent at any time. -/
theorem owes_post_other {v : Json} (hv : ∀ uri, mark? uri v = none) :
    Owes P (Client.onConnection (Connection.post (.message v))) fun _ => P :=
  owes_post (owes_link_beside fun _ _ _ => Connection.aside_enqueue _ _ v hv)

theorem owes_notify {P' : Assertion (pact paired i)} {method : String} {params : Option Json}
    {Q : Except ClientError Unit → Assertion (pact paired i)}
    (hclosed : ∀ w, Sound paired w → P.Holds w → w.closed →
      (Q (.error .connectionClosed)).Holds w)
    (hopen : ∀ w, Sound paired w → P.Holds w → ¬ w.closed → P'.Holds w)
    (hpost : Owes P' (Client.onConnection
      (Connection.post (.message (Message.notification method params))))
      fun b => Q (if b then .ok () else .error .connectionClosed)) :
    Owes P (Client.notify method params) Q := by
  have hlook : Owes P (Client.onConnection (.read (·.closed))) fun b =>
      if b then Q (.error .connectionClosed) else P' := by
    refine owes_link_read fun w hs hp => ?_
    cases hc : w.1.connection.closed with
    | true => exact hclosed w hs hp hc
    | false => exact hopen w hs hp (Bool.eq_false_iff.mp hc)
  refine owes_link_bind hlook fun b => ?_
  cases b with
  | true => exact owes_done fun _ _ hq => hq
  | false =>
    refine owes_link_bind hpost fun queued => ?_
    cases queued with
    | true => exact owes_done fun _ _ hq => hq
    | false => exact owes_done fun _ _ hq => hq

theorem owes_notify_other {method : String} {params : Option Json}
    (hv : ∀ uri, mark? uri (Message.notification method params) = none) :
    Owes P (Client.notify method params) fun _ => P :=
  owes_notify (fun _ _ hp _ => hp) (fun _ _ hp _ => hp) (owes_post_other hv)

theorem owes_call (method : String) (params : Option Json) :
    Owes P (Client.call method params) fun _ => P := by
  have hread {γ : Type} (f : Connection → γ) :
      Owes P (Client.onConnection (.read f)) fun _ => P := owes_link_read fun _ _ hp => hp
  have hawait (id : UInt64) :
      Owes P (Client.onConnection (Connection.await id method)) fun _ => P := by
    refine owes_link_bind (hread _) fun limit => owes_link_bind owes_link_wait fun b => ?_
    cases b with
    | true => exact hread _
    | false => exact owes_done fun _ _ hp => hp
  have hexchange (id : UInt64) :
      Owes P (Client.onConnection (Connection.exchange id method params)) fun _ => P := by
    refine owes_link_bind (hread _) fun closed => ?_
    cases closed with
    | true => exact owes_done fun _ _ hp => hp
    | false =>
      refine owes_link_bind (owes_post_other fun uri => mark?_request uri id method params)
        fun queued => ?_
      cases queued with
      | true => exact hawait id
      | false => exact owes_done fun _ _ hp => hp
  have hregister : Owes P (Client.onConnection (.act Connection.register)) fun _ => P :=
    owes_link_beside fun _ _ _ => Connection.aside_register _ _
  refine owes_link_bind hregister fun id => (hexchange id).zoom_ensure fun result => ?_
  exact owes_link_beside (f := fun c => (result, c.forget id)) fun _ _ _ =>
    Connection.aside_forget _ _ id

/-- The connection is closed by a call that knows that nothing is sent about documents any more. -/
theorem owes_close (grace : Nat) {Q : Assertion (pact paired i)}
    (hleft : ∀ w : World, Sound paired w → P.Holds w → w.closed ∨ Left w)
    (hq : ∀ w : World, P.Holds w → w.closed → Q.Holds w) :
    Owes P (Client.onConnection (Connection.close grace)) fun _ => Q := by
  have hstop : Owes P (Client.onConnection (Connection.post .stop)) fun _ => P := by
    refine owes_post (owes_link_beside fun w hs hp => ?_)
    refine (Connection.aside_stop _ _).weaken fun hl => ?_
    exact (hleft w hs hp).resolve_right hl
  have hclaim : Owes P (Client.onConnection (.act Connection.claimProcess)) fun _ => P :=
    owes_link_beside fun _ _ _ => Connection.aside_claimProcess _ _
  have hkill : Owes P (Client.onConnection (.act Connection.tryKill)) fun _ => P :=
    owes_link_beside fun _ _ _ => Connection.aside_tryKill _ _
  have hreap : Owes P (Client.onConnection (Connection.reap grace)) fun _ => P := by
    refine owes_link_bind hclaim fun mine => ?_
    cases mine with
    | false => exact owes_done fun _ _ hp => hp
    | true =>
      refine owes_link_bind owes_link_wait fun gone => ?_
      cases gone with
      | false => exact hkill
      | true =>
        have hread : Owes P (Client.onConnection (.read Connection.waited)) fun _ => P :=
          owes_link_read fun _ _ hp => hp
        refine owes_link_bind hread fun result => ?_
        cases result with
        | ok u => exact owes_done fun _ _ hp => hp
        | error fault => exact owes_link_bind hkill fun _ => owes_done fun _ _ hp => hp
  have hshut : Owes P (Client.onConnection (.change Connection.shut)) fun _ => Q := by
    refine owes_link_move (f := fun c => ((), c.shut)) fun w hs hp => ?_
    have hbeside : Beside w (w.1.setConnection w.1.connection.shut, w.2) :=
      ⟨rfl, rfl, rfl, rfl, rfl, rfl, Connection.aside_shut _ _⟩
    have hp' := P.stable (hbeside.sound hs) (hbeside.kept i) hp
    exact ⟨w.2, hbeside.move rfl hs, hq _ hp' rfl⟩
  refine owes_link_bind hstop fun _ => owes_link_bind hreap fun _ => ?_
  exact owes_link_bind hshut fun _ => owes_done fun _ _ hp => hp

end

theorem owes_tell {e : Entry} {docs : List (String × Nat)} {life : Lifecycle}
    {pending : List String} {uri : String} {m : Mark} {v : Json}
    {Q : Bool → Assertion (pact paired i)}
    (hsent : ∀ w, Sound paired w → Inside i e w → Finds docs life pending w →
      (Standing (w.marks uri) ↔ m = .didClose) →
        ∃ g, Move paired i w (posted v w.1, g) ∧ (Q true).Holds (posted v w.1, g))
    (hfailed : ∀ w : World, Sound paired w → Inside i e w → Finds docs life pending w →
      w.1.connection.writing = false → (Q false).Holds w) :
    Owes (mayTell e docs life pending uri m)
      (Client.onConnection (Connection.post (.message v))) Q := by
  refine owes_post (owes_link_move fun w hs hp => ?_)
  obtain ⟨hin, hf, hready⟩ := hp
  cases hw : w.1.connection.writing with
  | true =>
    have he : w.1.connection.enqueue (.message v) =
        (true, { w.1.connection with outbox := w.1.connection.outbox ++ [.message v] }) := if_pos hw
    rw [he]
    exact hsent w hs hin hf (hready hw)
  | false =>
    have he : w.1.connection.enqueue (.message v) = (false, w.1.connection) :=
      if_neg (Bool.eq_false_iff.mp hw)
    rw [he]
    exact ⟨w.2, (beside_refl w).move rfl hs, hfailed w hs hin hf hw⟩

/-! ## the client's lock -/

def idle (e : Entry) : Assertion (pact paired i) :=
  inside e (fun w => w.2.pending = []) fun _ _ hu h => hu.pending.trans h

theorem owes_locked {body : Routine Client α} {e : Entry} {ψ : World → Prop} {hψ : Lasts ψ}
    {φ : α → Entry → World → Prop} {hφ : ∀ a f, Lasts (φ a f)}
    (h : ∀ n, Owes (idle { e with ticket := some n } : Assertion (pact paired i)) body
      fun a => .any fun f => rests f (φ a f) (hφ a f)) :
    Owes (away e ψ hψ : Assertion (pact paired i)) (Client.locked body)
      fun a => .any fun f => away f (φ a f) (hφ a f) := by
  have hjoin : Owes (away e ψ hψ : Assertion (pact paired i))
      (.act fun c : Client => (c.lock.join.1, c.setLock c.lock.join.2))
      fun n => away { e with ticket := some n } (fun _ => True) (lasts_const True) := by
    refine owes_move fun w hs hp => ⟨_, move_join hp.1.1 hp.1.2 hs, ⟨?_, hp.1.2⟩, trivial⟩
    exact getElem?_set_self hp.1.1
  refine hjoin.bind fun n => ?_
  have hturn : Owes (away { e with ticket := some n } (fun _ => True) (lasts_const True) :
      Assertion (pact paired i)) (.until_ fun c : Client => c.lock.holds n)
      fun _ => idle { e with ticket := some n } := by
    refine owes_until fun w hs hp hready => ?_
    have hin : Inside i { e with ticket := some n } w := ⟨hp.1.1, n, rfl, hready⟩
    -- whoever had the lock before has told everything, or is this call
    exact ⟨hin, hin.pending hs.toPlaced hp.1.2⟩
  refine (hturn.bind fun _ => h n).ensure fun a => owes_any fun f => ?_
  refine owes_move (f := fun c => (a, c.setLock (c.lock.leave n))) fun w hs hp => ?_
  obtain ⟨hin, hquiet, hφw⟩ := hp
  have hmove := move_leave hs hin n hquiet
  have hlast : Lasting w (w.1.setLock (w.1.lock.leave n), { w.2 with pending := [] }) :=
    ⟨id, id, fun hl => ⟨hl.1, rfl⟩⟩
  exact ⟨_, hmove, f, ⟨hin.entry, .inl rfl⟩, hφ a f _ _ hlast hφw⟩

/-! ## documents -/

def Settles (paired : Prop) (result : Except ClientError Unit) (f : Entry) (w : World) : Prop :=
  match f.deed with
  | .openDocument .. => f.acted = true ↔ result = .ok ()
  | .closeDocument _ => paired → f.acted = true ∨ w.1.lifecycle = .shutDown
  | .shutdown | .terminate => f.acted = true → w.closed
  | .handshake _ | .request .. => True

theorem lasts_settles (result : Except ClientError Unit) (f : Entry) :
    Lasts (Settles paired result f) := by
  intro w w' hl h
  unfold Settles at *
  split at h
  · exact h
  · exact fun hp => (h hp).imp id hl.shut
  · exact fun ha => hl.closed (h ha)
  · exact fun ha => hl.closed (h ha)
  · exact h
  · exact h

section
variable {result : Except ClientError Unit} {f : Entry} {w : World} {uri : String}

theorem settles_opens (hd : f.deed.opens uri = true) :
    Settles paired result f w ↔ (f.acted = true ↔ result = .ok ()) := by
  obtain ⟨text, hd⟩ := Deed.exists_of_opens hd
  unfold Settles
  rw [hd]

theorem settles_closes (hd : f.deed.closes uri = true) :
    Settles paired result f w ↔ (paired → f.acted = true ∨ w.1.lifecycle = .shutDown) := by
  unfold Settles
  rw [Deed.eq_of_closes hd]

theorem settles_leaves (hd : f.deed.leaves = true) :
    Settles paired result f w ↔ (f.acted = true → w.closed) := by
  unfold Settles
  rcases Deed.eq_of_leaves hd with hd | hd
  · rw [hd]
  · rw [hd]

end

def finished (result : Except ClientError Unit) : Assertion (pact paired i) :=
  .any fun f => rests f (Settles paired result f) (lasts_settles result f)

def complete (result : Except ClientError Unit) : Assertion (pact paired i) :=
  .any fun f => away f (Settles paired result f) (lasts_settles result f)

section
variable {e : Entry}

theorem owes_look :
    Owes (idle e : Assertion (pact paired i)) (.read id)
      fun c => finds e c.openDocs c.lifecycle [] :=
  owes_read fun _ _ hp => ⟨hp.1, rfl, rfl, .inl hp.2⟩

theorem Finds.quiet {docs : List (String × Nat)} {life : Lifecycle} {w : World}
    (h : Finds docs life [] w) : Quiet w := h.pending.elim .inr fun hp => .inl hp.1

theorem owes_finish {docs : List (String × Nat)} {life : Lifecycle}
    {result : Except ClientError Unit}
    (h : ∀ w, Finds docs life [] w → Settles paired result e w) :
    Owes (finds e docs life [] : Assertion (pact paired i)) (.done result) finished :=
  owes_done fun w _ hp => ⟨e, hp.1, hp.2.quiet, h w hp.2⟩

/-! ### what is changed while the list is known -/

theorem holders_pos {w : World} {uri : String} {n : Nat} (hs : Told w)
    (hn : w.1.holders uri = some n) : 1 ≤ n := by
  obtain ⟨doc, hdoc, rfl⟩ := Option.map_eq_some_iff.mp hn
  exact hs.counts doc (List.mem_of_find?_eq_some hdoc)

theorem not_shutDown {w : World} {uri : String} {n : Nat} (hs : Told w)
    (hn : w.1.holders uri = some n) : w.1.lifecycle ≠ .shutDown := by
  intro hl
  have hnone : w.1.holders uri = none := by
    unfold Client.holders
    rw [hs.emptied hl]
    rfl
  exact absurd (hnone.symm.trans hn) nofun

section
variable {c : Client} {life : Lifecycle} {uri : String} {n : Nat}

theorem owes_setHolders {k : Nat} (ha : e.acted = false) (hn : c.holders uri = some n) (hk : 1 ≤ k)
    (hsum : k + (e.deed.closes uri).toNat = n + (e.deed.opens uri).toNat)
    (hother : ∀ q, q ≠ uri → e.deed.closes q = false ∧ e.deed.opens q = false)
    (hdone : ∀ w, Settles paired (.ok ()) { e with acted := true } w) :
    Owes (finds e c.openDocs life [] : Assertion (pact paired i))
      (.change (Client.setHolders uri k)) fun _ => finished (.ok ()) := by
  refine owes_change fun w hs ⟨hin, hf⟩ => ?_
  have hholders : w.1.holders uri = some n := (Client.holders_congr hf.openDocs uri).trans hn
  have hmove := move_count hs hin ha (not_shutDown hs.toTold hholders) hf.quiet hholders hk hsum
    hother
  exact ⟨_, hmove, _, ⟨getElem?_set_self hin.entry, hin.locks⟩, .inr rfl, hdone _⟩

theorem owes_removeDocument (hd : e.deed = .closeDocument uri) (ha : e.acted = false)
    (hn : c.holders uri = some n) (hm : ¬ n > 1) :
    Owes (finds e c.openDocs life [] : Assertion (pact paired i))
      (.change (Client.removeDocument uri)) fun _ =>
        finds { e with acted := true } (c.removeDocument uri).openDocs life [uri] := by
  refine owes_change fun w hs ⟨hin, hf⟩ => ?_
  have hholders : w.1.holders uri = some n := (Client.holders_congr hf.openDocs uri).trans hn
  have hone : n = 1 := by
    have hpos := holders_pos hs.toTold hholders
    omega
  subst hone
  have hmove := move_remove hs hin hd ha (not_shutDown hs.toTold hholders) hf.quiet hholders
  refine ⟨_, hmove, ⟨getElem?_set_self hin.entry, hin.locks⟩, ?_, hf.lifecycle, .inl rfl⟩
  exact congrArg (List.filter _) hf.openDocs

end

/-! ### opening -/

/-- The server is told of the first holder, unless the connection is lost. -/
theorem owes_openFirst {uri other text languageId : String} {c : Client}
    (hd : e.deed = .openDocument uri other) (hn : c.holders uri = none)
    (hfailed : ∀ w fault, Settles paired (.error fault) e w) :
    Owes (finds e c.openDocs .initialized [] : Assertion (pact paired i))
      (Client.notify "textDocument/didOpen" (some (Params.didOpen uri languageId 1 text)))
      fun r => match r with
        | .ok () => finds e c.openDocs .initialized [uri]
        | .error fault => finished (.error fault) := by
  have hlife {w : World} {pending : List String} (hf : Finds c.openDocs .initialized pending w) :
      w.1.lifecycle ≠ .shutDown := fun h => nomatch hf.lifecycle.symm.trans h
  have hready (w : World) (hs : Sound paired w)
      (hp : (finds e c.openDocs .initialized [] : Assertion (pact paired i)).Holds w)
      (hc : ¬ w.closed) : (mayTell e c.openDocs .initialized [] uri .didOpen :
        Assertion (pact paired i)).Holds w := by
    refine ⟨hp.1, hp.2, fun _ => iff_of_false (fun hopen => ?_) nofun⟩
    have hlisted := (hs.listed (fun h => hlife hp.2 h.1) hc uri).mp hopen
    rw [Client.holders_congr hp.2.openDocs uri, hn, hp.2.pending.resolve_right fun h => hc h.1] at hlisted
    exact hlisted.elim nofun nofun
  refine owes_notify (fun w _ hp _ => ⟨e, hp.1, hp.2.quiet, hfailed w _⟩) hready
    (owes_tell ?_ ?_)
  · intro w hs hin hf hstanding
    have hmove := move_didOpen hs hin text languageId other 1 hd (hlife hf) hf.quiet
      fun h => nomatch hstanding.mp h
    exact ⟨_, hmove, ⟨getElem?_set_self hin.entry, hin.locks⟩, hf.openDocs, hf.lifecycle, .inl rfl⟩
  · intro w _ hin hf _
    exact ⟨e, hin, hf.quiet, hfailed w _⟩

theorem owes_takeHold {uri text : String} (hd : e.deed = .openDocument uri text)
    (ha : e.acted = false) :
    Owes (idle e : Assertion (pact paired i)) (Client.takeHold uri text) finished := by
  have hopens : e.deed.opens uri = true := by rw [hd]; exact Deed.opens_openDocument
  have hrefused (w : World) (fault : ClientError) : Settles paired (.error fault) e w :=
    (settles_opens hopens).mpr (iff_of_false (Bool.eq_false_iff.mp ha) nofun)
  have hheld (w : World) : Settles paired (.ok ()) { e with acted := true } w :=
    (settles_opens (f := { e with acted := true }) hopens).mpr (iff_of_true rfl rfl)
  have hlife {w : World} (hl : w.1.lifecycle = .initialized) : w.1.lifecycle ≠ .shutDown :=
    fun h => nomatch hl.symm.trans h
  refine owes_look.bind fun c => ?_
  cases hl : c.lifecycle with
  | uninitialized => exact owes_finish fun w _ => hrefused w _
  | shutDown => exact owes_finish fun w _ => hrefused w _
  | initialized =>
    cases hn : c.holders uri with
    | some n =>
      have hother (q : String) (hq : q ≠ uri) :
          e.deed.closes q = false ∧ e.deed.opens q = false := by
        rw [hd]
        exact ⟨rfl, decide_eq_false hq.symm⟩
      have hsum : n + 1 + (e.deed.closes uri).toNat = n + (e.deed.opens uri).toNat := by
        rw [hopens, hd]
        rfl
      exact (owes_setHolders ha hn (Nat.succ_pos n) hsum hother hheld).bind fun _ =>
        owes_done fun _ _ hp => hp
    | none =>
      refine (owes_openFirst hd hn hrefused).bind fun r => ?_
      cases r with
      | error fault => exact owes_done fun _ _ hp => hp
      | ok u =>
        have hadd : Owes (finds e c.openDocs .initialized [uri] : Assertion (pact paired i))
            (.change (Client.addDocument uri)) fun _ => finished (.ok ()) := by
          refine owes_change fun w hs ⟨hin, hf⟩ => ?_
          have hpending : w.closed ∨ w.2.pending = [uri] := hf.pending.elim .inr fun h => .inl h.1
          have hmove := move_add hs hin hd ha (hlife hf.lifecycle) hpending
            ((Client.holders_congr hf.openDocs uri).trans hn)
          exact ⟨_, hmove, _, ⟨getElem?_set_self hin.entry, hin.locks⟩, .inr rfl, hheld _⟩
        exact hadd.bind fun _ => owes_done fun _ _ hp => hp

/-! ### closing -/

/-- Whoever closes what it has opened finds it open, unless the server has been left. -/
theorem Sound.finds_held {w : World} (hs : Sound paired w) (hp : paired)
    (he : w.2.entries[i]? = some e) (ha : e.acted = false) {uri : String}
    (hd : e.deed.closes uri = true) (hn : w.1.holders uri = none) : w.1.lifecycle = .shutDown := by
  by_contra hl
  have hledger := hs.ledger hl uri
  have hbegun := hs.paired hp uri
  have hlt := dropped_lt_begun he ha hd
  rw [hn] at hledger
  have hzero : (none : Option Nat).getD 0 = 0 := rfl
  omega

/-- The server is told that a document is closed that the client does not list any more, unless the
connection is lost. -/
theorem owes_didClose {docs : List (String × Nat)} {life : Lifecycle} {uri : String}
    {rest : List String} (hd : ∀ q ∈ rest, e.deed.concerns q = true) (hrest : uri ∉ rest)
    (hdocs : docs.find? (fun d => d.1 = uri) = none) :
    Owes (finds e docs life (uri :: rest) : Assertion (pact paired i))
      (Client.notify "textDocument/didClose" (some (Params.ofDocument uri)))
      fun _ => finds e docs life rest := by
  have hnone {w : World} (hf : Finds docs life (uri :: rest) w) : w.1.holders uri = none := by
    unfold Client.holders
    rw [hf.openDocs, hdocs]
    rfl
  have hne {w : World} (hf : Finds docs life (uri :: rest) w) : w.2.pending ≠ [] := by
    rcases hf.pending with h | h
    · exact fun hnil => nomatch h.symm.trans hnil
    · exact h.2
  have huntold {w : World} (hf : Finds docs life (uri :: rest) w) (hc : w.closed) :
      Finds docs life rest w := ⟨hf.openDocs, hf.lifecycle, .inr ⟨hc, hne hf⟩⟩
  have hready (w : World) (hs : Sound paired w)
      (hp : (finds e docs life (uri :: rest) : Assertion (pact paired i)).Holds w)
      (hc : ¬ w.closed) : (mayTell e docs life (uri :: rest) uri .didClose :
        Assertion (pact paired i)).Holds w := by
    have hpending : w.2.pending = uri :: rest := hp.2.pending.resolve_right fun h => hc h.1
    have hlisted := hs.listed (fun h => hne hp.2 h.2) hc uri
    rw [hpending] at hlisted
    exact ⟨hp.1, hp.2, fun _ => iff_of_true (hlisted.mpr (.inr List.mem_cons_self)) rfl⟩
  refine owes_notify (fun w _ hp hc => ⟨hp.1, huntold hp.2 hc⟩) hready (owes_tell ?_ ?_)
  · intro w hs hin hf hstanding
    have hmove := move_didClose hs hin hd hf.pending (hnone hf) hrest (hstanding.mpr rfl)
    exact ⟨_, hmove, ⟨getElem?_set_self hin.entry, hin.locks⟩, hf.openDocs, hf.lifecycle, .inl rfl⟩
  · intro w hs hin hf hw
    refine ⟨hin, huntold hf ?_⟩
    -- as long as something is to be told the writer is up
    by_contra hc
    have hwriting := (hs.writes (fun h => hne hf h.2) (Bool.eq_false_iff.mpr hc)).1
    exact absurd (hwriting.symm.trans hw) nofun

theorem owes_letGo {uri : String} (hd : e.deed = .closeDocument uri) (ha : e.acted = false) :
    Owes (idle e : Assertion (pact paired i)) (Client.letGo uri) finished := by
  have hcloses : e.deed.closes uri = true := by rw [hd]; exact Deed.closes_closeDocument
  have hdone (result : Except ClientError Unit) (w : World) :
      Settles paired result { e with acted := true } w :=
    (settles_closes (f := { e with acted := true }) hcloses).mpr fun _ => .inl rfl
  have hlook : Owes (idle e : Assertion (pact paired i)) (.read id) fun c =>
      (Assertion.fact (paired → c.holders uri = none → c.lifecycle = .shutDown)).and
        (finds e c.openDocs c.lifecycle []) :=
    owes_read fun w hs hp => ⟨fun hpair hn => Sound.finds_held hs hpair hp.1.entry ha hcloses hn,
      hp.1, rfl, rfl, .inl hp.2⟩
  refine hlook.bind fun c => owes_fact fun hstray => ?_
  cases hn : c.holders uri with
  | none =>
    refine owes_finish fun w hf => (settles_closes hcloses).mpr fun hpair => .inr ?_
    exact hf.lifecycle.trans (hstray hpair hn)
  | some n =>
    by_cases hm : n > 1
    · have hother (q : String) (hq : q ≠ uri) :
          e.deed.closes q = false ∧ e.deed.opens q = false := by
        rw [hd]
        exact ⟨decide_eq_false hq.symm, rfl⟩
      have hsum : n - 1 + (e.deed.closes uri).toNat = n + (e.deed.opens uri).toNat := by
        rw [hcloses, hd]
        show n - 1 + 1 = n
        omega
      dsimp only
      rw [if_pos hm]
      exact (owes_setHolders ha hn (Nat.le_sub_one_of_lt hm) hsum hother (hdone _)).bind fun _ =>
        owes_done fun _ _ hp => hp
    · have hgone : (c.removeDocument uri).openDocs.find? (fun d => d.1 = uri) = none := by
        refine List.find?_eq_none.mpr fun d hmem => ?_
        simpa using (List.mem_filter.mp hmem).2
      dsimp only
      rw [if_neg hm]
      refine (owes_removeDocument hd ha hn hm).bind fun _ =>
        (owes_didClose (fun _ h => absurd h List.not_mem_nil) List.not_mem_nil hgone).mono ?_
      exact fun result w _ hp => ⟨_, hp.1, hp.2.quiet, hdone result w⟩

/-! ### leaving the server -/

theorem owes_closeAll (hd : e.deed.leaves = true) (docs : List String) (first : Option ClientError)
    (hdocs : docs.Nodup) :
    Owes (finds e [] .shutDown docs : Assertion (pact paired i)) (Client.closeAll docs first)
      fun _ => finds e [] .shutDown [] := by
  induction docs generalizing first with
  | nil => exact owes_done fun _ _ hp => hp
  | cons uri rest ih =>
    obtain ⟨huri, hrest⟩ := List.nodup_cons.mp hdocs
    have hconcerns : ∀ q ∈ rest, e.deed.concerns q = true := fun _ _ =>
      Deed.concerns_of_leaves hd
    exact (owes_didClose hconcerns huri rfl).bind fun result => ih _ hrest

theorem owes_beginShutdown (hd : e.deed.leaves = true) {docs : List (String × Nat)} :
    Owes (finds e docs .initialized [] : Assertion (pact paired i)) (.act Client.beginShutdown)
      fun open_ => (Assertion.fact open_.Nodup).and
        (finds { e with acted := true } [] .shutDown open_) := by
  refine owes_move fun w hs ⟨hin, hf⟩ => ?_
  have hlife : w.1.lifecycle ≠ .shutDown := fun h => nomatch hf.lifecycle.symm.trans h
  have hlisted (uri : String) : (w.1.holders uri).isSome = true ↔
      uri ∈ (Client.beginShutdown w.1).1 := by
    rw [Client.isSome_holders]
    exact List.mem_mergeSort.symm
  have hmove := move_shutDown hs hin hd (fun _ => hlife) hf.quiet fun _ => hlisted
  have hnodup : (Client.beginShutdown w.1).1.Nodup :=
    (List.mergeSort_perm _ _).nodup_iff.mpr hs.keys
  exact ⟨_, hmove, hnodup, ⟨getElem?_set_self hin.entry, hin.locks⟩, rfl, rfl, .inl rfl⟩

theorem owes_farewell (hd : e.deed = .shutdown) (ha : e.acted = false) :
    Owes (idle e : Assertion (pact paired i)) Client.farewell finished := by
  have hleaves : e.deed.leaves = true := by rw [hd]; rfl
  have hrefused (w : World) (fault : ClientError) : Settles paired (.error fault) e w :=
    (settles_leaves hleaves).mpr fun h => absurd h (Bool.eq_false_iff.mp ha)
  have hdone (w : World) (result : Except ClientError Unit) (hc : w.closed) :
      Settles paired result { e with acted := true } w :=
    (settles_leaves (f := { e with acted := true }) hleaves).mpr fun _ => hc
  refine owes_look.bind fun c => ?_
  cases hl : c.lifecycle with
  | uninitialized => exact owes_finish fun w _ => hrefused w _
  | shutDown => exact owes_finish fun w _ => hrefused w _
  | initialized =>
    refine (owes_beginShutdown hleaves).bind fun docs => owes_fact fun hdocs => ?_
    have hacted : ({ e with acted := true } : Entry).deed.leaves = true := hleaves
    refine (owes_closeAll hacted docs none hdocs).bind fun first => ?_
    refine (owes_call "shutdown" none).bind fun answered => ?_
    refine (owes_notify_other mark?_exit).bind fun left => ?_
    have hclose : Owes (finds { e with acted := true } [] .shutDown [] : Assertion (pact paired i))
        (Client.onConnection (Connection.close
          (Connection.milliseconds c.settings.shutdownTimeout))) fun _ =>
        rests { e with acted := true } World.closed lasts_closed := by
      refine owes_close _ (fun w _ hp => ?_) fun w hp hc => ⟨hp.1, .inl hc, hc⟩
      exact hp.2.pending.elim (fun h => .inr ⟨hp.2.lifecycle, h⟩) fun h => .inl h.1
    refine hclose.bind fun _ => ?_
    have hend (result : Except ClientError Unit) :
        Owes (rests { e with acted := true } World.closed lasts_closed :
          Assertion (pact paired i)) (.done result) finished :=
      owes_done fun w _ hp => ⟨_, hp.1, hp.2.1, hdone w result hp.2.2⟩
    split
    · exact hend _
    · exact hend _

end

/-! ## calls -/

theorem owes_terminate {e : Entry} (hd : e.deed.leaves = true) {ψ : World → Prop}
    {hψ : Lasts ψ} :
    Owes (away e ψ hψ : Assertion (pact paired i)) Deed.terminate.routine complete := by
  have hmark (n : Nat) : Owes (idle { e with ticket := some n } : Assertion (pact paired i))
      (.change Client.markTerminated) fun _ => .any fun f =>
        rests f (fun w => f.deed.leaves = true ∧ Left w) (lasts_left _) := by
    refine owes_change fun w hs ⟨hin, hp⟩ => ?_
    have hmove : Move paired i w (w.1.markTerminated,
        w.2.act i { e with ticket := some n, acted := true } []) :=
      move_shutDown hs hin hd (fun h => absurd rfl h) (.inr hp) fun h => absurd rfl h
    exact ⟨_, hmove, _, ⟨getElem?_set_self hin.entry, hin.locks⟩, .inr rfl, hd, rfl, rfl⟩
  have hclose (f : Entry) : Owes (away f (fun w => f.deed.leaves = true ∧ Left w)
      (lasts_left _) : Assertion (pact paired i))
      (Client.onConnection (Connection.close 0)) fun _ => complete (.ok ()) := by
    refine owes_close 0 (fun w _ hp => .inr hp.2.2) fun w hp hc => ⟨f, hp.1, ?_⟩
    exact (settles_leaves hp.2.1).mpr fun _ => hc
  refine ((owes_locked hmark).bind fun _ => owes_any fun f => hclose f).bind fun _ => ?_
  exact owes_done fun _ _ hp => hp

theorem owes_greet {e : Entry} {rootUri : String} (hd : e.deed = .handshake rootUri) :
    Owes (idle e : Assertion (pact paired i)) (Client.greet rootUri) finished := by
  have hsettles (result : Except ClientError Unit) (w : World) : Settles paired result e w := by
    unfold Settles
    rw [hd]
    trivial
  refine owes_look.bind fun c => ?_
  cases hl : c.lifecycle with
  | initialized => exact owes_finish fun w _ => hsettles _ w
  | shutDown => exact owes_finish fun w _ => hsettles _ w
  | uninitialized =>
    refine (owes_call "initialize" _).bind fun answer => ?_
    cases answer with
    | error fault => exact owes_finish fun w _ => hsettles _ w
    | ok result =>
      have hset : Owes (finds e c.openDocs .uninitialized [] : Assertion (pact paired i))
          (.change (Client.setCapabilities result)) fun _ => finds e c.openDocs .uninitialized [] :=
        owes_beside (f := fun c => ((), c.setCapabilities result)) fun _ _ _ =>
          ⟨rfl, rfl, rfl, rfl, rfl, rfl, Connection.aside_refl⟩
      refine hset.bind fun _ => (owes_notify_other mark?_initialized).bind fun told => ?_
      cases told with
      | error fault => exact owes_finish fun w _ => hsettles _ w
      | ok u =>
        have hmark : Owes (finds e c.openDocs .uninitialized [] : Assertion (pact paired i))
            (.change Client.markInitialized) fun _ => finished (.ok ()) := by
          refine owes_change fun w hs ⟨hin, hf⟩ => ?_
          have hlife : w.1.lifecycle ≠ .shutDown := fun h => nomatch hf.lifecycle.symm.trans h
          have hmove := move_initialized hs hin hlife hf.quiet
          exact ⟨_, hmove, e, ⟨getElem?_set_self hin.entry, hin.locks⟩, .inr rfl, hsettles _ _⟩
        exact hmark.bind fun _ => owes_done fun _ _ hp => hp

theorem owes_request {e : Entry} {method : String} {params : Json}
    (hd : e.deed = .request method params) {ψ : World → Prop} {hψ : Lasts ψ} :
    Owes (away e ψ hψ : Assertion (pact paired i)) (Deed.request method params).routine
      complete := by
  have hlook (n : Nat) : Owes (idle { e with ticket := some n } : Assertion (pact paired i))
      (.read Client.lifecycle) fun _ => .any fun f =>
        rests f (fun _ => f.deed = .request method params) (lasts_const _) :=
    owes_read fun w _ hp => ⟨_, hp.1, .inr hp.2, hd⟩
  have hend (f : Entry) (result : Except ClientError Unit) :
      Owes (away f (fun _ => f.deed = .request method params) (lasts_const _) :
        Assertion (pact paired i)) (.done result) complete := by
    refine owes_done fun w _ hp => ⟨f, hp.1, ?_⟩
    unfold Settles
    rw [hp.2]
    trivial
  refine (owes_locked hlook).bind fun life => owes_any fun f => ?_
  cases life with
  | uninitialized => exact hend f _
  | shutDown => exact hend f _
  | initialized =>
    refine (owes_call method _).bind fun answer => ?_
    cases answer with
    | error fault => exact hend f _
    | ok result => exact hend f _

/-- Whatever a caller asks for is done as it should. -/
theorem owes_deed {e : Entry} (ha : e.acted = false) {ψ : World → Prop} {hψ : Lasts ψ} :
    Owes (away e ψ hψ : Assertion (pact paired i)) e.deed.routine complete := by
  cases hd : e.deed with
  | openDocument uri text => exact owes_locked fun n => owes_takeHold hd ha
  | closeDocument uri => exact owes_locked fun n => owes_letGo hd ha
  | handshake rootUri => exact owes_locked fun n => owes_greet hd
  | request method params => exact owes_request hd
  | shutdown => exact owes_locked fun n => owes_farewell hd ha
  | terminate => exact owes_terminate (by rw [hd]; rfl)

end Desk

end CodeBridge
