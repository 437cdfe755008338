import CodeBridge.Proofs.Connection.Kinds
import CodeBridge.Proofs.Session.Moves

/-!
# Parts of what the users of a session do

What a call knows between its moves, and the parts that all calls are made of.

* `Firm`, `knows`   what a call may know as long as it is noted as it is;
* `Says`, `owes_speaking`   routines that only talk to servers, or look at something else;
* `Tells`, `tells_call`, `tells_close`, …   what is said on a connection;
* `held`, `owes_locked`   the lock of a client; `seated`, `owes_slot`   the slot.
-/

namespace CodeBridge

/-! ## on a connection -/

namespace Connection

/-- Some messages may have been queued, all of them of one kind, and the connection is not opened. -/
structure Tells (p : Json → Prop) (c c' : Connection) : Prop where
  closed : c.closed = true → c'.closed = true
  queued : ∃ ms, c'.queued = c.queued ++ ms ∧ ∀ m ∈ ms, p m

section
variable {p : Json → Prop} {c c' : Connection}

theorem tells_same (hclosed : c.closed = true → c'.closed = true) (ho : c'.outbox = c.outbox) :
    Tells p c c' where
  closed := hclosed
  queued := ⟨[], by unfold queued; rw [ho, List.append_nil], nofun⟩

theorem tells_refl (c : Connection) : Tells p c c := tells_same id rfl

theorem Tells.trans {c'' : Connection} (h : Tells p c c') (h' : Tells p c' c'') :
    Tells p c c'' where
  closed hc := h'.closed (h.closed hc)
  queued := by
    obtain ⟨ms, hq, hms⟩ := h.queued
    obtain ⟨ms', hq', hms'⟩ := h'.queued
    refine ⟨ms ++ ms', by rw [hq', hq, List.append_assoc], fun m hm => ?_⟩
    exact (List.mem_append.mp hm).elim (hms m) (hms' m)

theorem queues_tells : Queues (Tells p) where
  refl := tells_refl
  trans := Tells.trans
  join _ := tells_same id rfl
  leave _ _ := tells_same id rfl

theorem tells_enqueue {message : Outgoing} (h : ∀ m ∈ message.message?, p m) (c : Connection) :
    Tells p c (c.enqueue message).2 where
  closed hc := by
    unfold enqueue
    split <;> exact hc
  queued := by
    refine ⟨_, queued_append (outbox_enqueue message c), fun m hm => ?_⟩
    split at hm
    · cases hmessage : message with
      | stop => rw [hmessage] at hm; cases hm
      | message v =>
        rw [hmessage] at hm h
        rw [List.mem_singleton.mp hm]
        exact h v rfl
    · cases hm

theorem tells_message {v : Json} (h : p v) (c : Connection) :
    Tells p c (c.enqueue (.message v)).2 :=
  tells_enqueue (fun m hm => by rw [← Option.some.inj hm]; exact h) c

theorem tells_notify {method : String} {params : Option Json}
    (h : p (Message.notification method params)) : (notify method params).run.MovesBy (Tells p) :=
  movesBy_notify queues_tells (tells_message h)

theorem tells_call {method : String} {params : Option Json}
    (h : ∀ id, p (Message.request id method params)) : (call method params).run.MovesBy (Tells p) := by
  have hregister : (Routine.act register).MovesBy (Tells p) :=
    Routine.movesBy_act fun _ => tells_same (fun h => h) rfl
  refine hregister.bind fun id => ?_
  refine (movesBy_exchange queues_tells (tells_message (h id))).ensure tells_refl fun c c' hc => ?_
  exact hc.trans (tells_same (fun h => h) rfl)

theorem tells_tryKill (c : Connection) : Tells p c c.tryKill.2 := by
  unfold tryKill
  split
  · exact tells_same (fun h => h) rfl
  · exact tells_refl c

theorem tells_close (grace : Nat) : (close grace).MovesBy (Tells p) :=
  movesBy_close queues_tells grace (tells_enqueue nofun) (fun _ => tells_same id rfl) tells_tryKill
    fun _ => tells_same (fun _ => rfl) rfl

end

end Connection

namespace Office

open Pact
open Course (Names)

variable {i k : Nat} {α β : Type} {e : Entry}

/-! ## what a call knows -/

/-- Something that stays so for a call that is noted like this. -/
def Firm (e : Entry) (φ : World → Prop) : Prop := ∀ w w', Secure e w w' → φ w → φ w'

/-- What a call may know depends on its tickets only. -/
theorem Firm.congr {f : Entry} {φ : World → Prop} (h : Firm e φ) (hseat : f.seat = e.seat)
    (hplace : f.place = e.place) : Firm f φ := fun w w' hw =>
  h w w' ⟨hseat ▸ hw.seat, hplace ▸ hw.place, hw.lasting⟩

def Lasts (φ : World → Prop) : Prop := ∀ w w', Lasting w w' → φ w → φ w'

theorem Lasts.firm {φ : World → Prop} (h : Lasts φ) (e : Entry) : Firm e φ := fun w w' hw =>
  h w w' hw.lasting

theorem Firm.and {φ ψ : World → Prop} (h : Firm e φ) (h' : Firm e ψ) :
    Firm e fun w => φ w ∧ ψ w := fun w w' hw hp => ⟨h w w' hw hp.1, h' w w' hw hp.2⟩

theorem Lasts.and {φ ψ : World → Prop} (h : Lasts φ) (h' : Lasts ψ) :
    Lasts fun w => φ w ∧ ψ w := fun w w' hw hp => ⟨h w w' hw hp.1, h' w w' hw hp.2⟩

theorem Lasts.imp {φ : World → Prop} (p : Prop) (h : Lasts φ) : Lasts fun w => p → φ w :=
  fun w w' hw hp hq => h w w' hw (hp hq)

theorem lasts_const (p : Prop) : Lasts fun _ => p := fun _ _ _ h => h

theorem lasts_count (k : Nat) : Lasts fun w => k < w.1.clients.length := fun _ _ hl h =>
  h.trans_le hl.count

def knows (e : Entry) (φ : World → Prop) (hφ : Firm e φ) : Assertion (pact i) where
  Holds w := w.2.entries[i]? = some e ∧ φ w
  stable _ hk h := ⟨hk.entry e h.1, hφ _ _ (hk.secure e h.1) h.2⟩

theorem Owes.weaken {P : Assertion (pact i)} {r : Routine Host α} {Q : α → Assertion (pact i)}
    {P' : Assertion (pact i)} (h : Owes P r Q)
    (hp : ∀ w, Sound (board w.1) w.2 → P'.Holds w → P.Holds w) : Owes P' r Q :=
  ⟨fun w hw hp' => h.keeps w hw (hp w hw hp')⟩

theorem owes_move {P : Assertion (pact i)} {Q : α → Assertion (pact i)} {f : Host → α × Host}
    (h : ∀ w, Sound (board w.1) w.2 → P.Holds w → ∃ g, Move i w ((f w.1).2, g) ∧
      (Q (f w.1).1).Holds ((f w.1).2, g)) : Owes P (.act f) Q := by
  refine owes_act fun s g hs hp => ?_
  obtain ⟨g', hmove, hq⟩ := h (s, g) hs hp
  exact ⟨g', hmove.sound, hmove.may, hq⟩

theorem getElem?_put {g : Notes} {e' : Entry} (he : g.entries[i]? = some e) :
    (g.put i e').entries[i]? = some e' :=
  List.getElem?_set_self (List.getElem?_eq_some_iff.mp he).1

/-! ## talk -/

/-- Nothing changes that the agreement is about, and what is said may be said. -/
structure Says (e : Entry) (h h' : Host) : Prop extends Calm h h' where
  speech : ∀ k, ∀ m ∈ told k (h, h'), Allowed e k m ∧ ¬ Names m "shutdown"
  same : h'.clients.length = h.clients.length

theorem says_hushed {h h' : Host} (hc : Calm h h') (hh : Hushed h h') : Says e h h' where
  toCalm := hc
  speech k m hm := by
    rw [hh.told k] at hm
    cases hm
  same := hh.count

theorem Says.move {w : World} {h' : Host} (h : Says e w.1 h') (hs : Sound (board w.1) w.2)
    (he : w.2.entries[i]? = some e) (hv : e.view = none) :
    Move i w (h', w.2.put i e) ∧ Secure e w (h', w.2.put i e) := by
  have hn : Noted w.1 h' e e :=
    ⟨rfl, rfl, rfl, .inl rfl, .inl rfl, .inl hv, fun _ => .same (level_of_docs h.docs), fun _ => rfl,
      fun k m hm => (h.speech k m hm).1, fun _ => h.same, .inl rfl⟩
  refine ⟨move_calm hs he h.toCalm hn rfl rfl (fun _ _ _ => Iff.rfl) (.inl rfl) fun k => ?_, ?_⟩
  · refine List.countP_eq_zero.mpr fun m hm => ?_
    rw [decide_eq_true_iff]
    exact (h.speech k m hm).2
  · refine h.toCalm.secure_put e he ?_ ?_ rfl e <;> rfl

/-- A routine that only talks, or does something else, leaves what is known. -/
theorem owes_speaking {r : Routine Host α} {φ : World → Prop} {hφ : Firm e φ} (h : r.MovesBy (Says e))
    (hv : e.view = none) : Owes (knows e φ hφ : Assertion (pact i)) r fun _ => knows e φ hφ := by
  refine owes_movesBy h (fun _ _ hg => hg) fun s s' g hsays hfine hp => ?_
  obtain ⟨he, hp⟩ := hp
  obtain ⟨hmove, hsecure⟩ := hsays.move hfine he hv
  exact ⟨_, hmove.sound, hmove.may, getElem?_put he, hφ _ _ hsecure hp⟩

/-! ### at a client -/

/-- A client's lock, lifecycle and documents stay as they are, and what is said is of one kind. -/
structure ClientSays (p : Json → Prop) (c c' : Client) : Prop where
  lock : c'.lock = c.lock
  docs : c'.openDocs = c.openDocs
  life : c'.lifecycle = c.lifecycle
  link : Connection.Tells p c.connection c'.connection

theorem ClientSays.refl {p : Json → Prop} (c : Client) : ClientSays p c c :=
  ⟨rfl, rfl, rfl, Connection.tells_refl _⟩

theorem calm_setClient {h : Host} {c : Client} (hlock : c.lock = (h.clientAt k).lock)
    (hdocs : c.openDocs = (h.clientAt k).openDocs) (hlife : c.lifecycle = (h.clientAt k).lifecycle)
    (hclosed : (h.clientAt k).connection.closed = true → c.connection.closed = true) :
    Calm h (h.setClient k c) := by
  by_cases hk : k < h.clients.length
  · have hcolumn {β : Type} {f : Client → β} (hf : f c = f (h.clientAt k)) (j : Nat) :
        f ((h.setClient k c).clientAt j) = f (h.clientAt j) := by
      rw [clientAt_setClient hk j]
      split
      next hj => rw [hf, hj]
      · rfl
    refine ⟨rfl, rfl, Nat.le_of_eq length_setClient.symm, hcolumn hlock, hcolumn hdocs,
      hcolumn hlife, fun j hj => ?_⟩
    rw [clientAt_setClient hk j]
    split
    next hjk => exact hclosed (hjk ▸ hj)
    · exact hj
  · rw [setClient_of_le (Nat.le_of_not_lt hk)]
    exact .refl h

theorem ClientSays.calm {p : Json → Prop} {h : Host} {c : Client}
    (hc : ClientSays p (h.clientAt k) c) : Calm h (h.setClient k c) :=
  calm_setClient hc.lock hc.docs hc.life hc.link.closed

theorem told_setClient {h : Host} {c : Client} (hk : k < h.clients.length) (j : Nat) :
    told j (h, h.setClient k c) = if j = k then Course.added (h.clientAt k) c else [] := by
  unfold told
  dsimp only
  rw [clientAt_setClient hk j]
  split
  next hj => rw [hj]
  · exact List.drop_length

theorem ClientSays.toSays {p : Json → Prop} (hp : ∀ m, p m → Allowed e k m ∧ ¬ Names m "shutdown")
    {h : Host} {c : Client} (hc : ClientSays p (h.clientAt k) c) : Says e h (h.setClient k c) := by
  refine ⟨hc.calm, fun j m hm => ?_, length_setClient⟩
  by_cases hk : k < h.clients.length
  · rw [told_setClient hk j] at hm
    split at hm
    next hj =>
      obtain ⟨ms, hq, hms⟩ := hc.link.queued
      unfold Course.added at hm
      rw [hq, List.drop_left] at hm
      exact hj ▸ hp m (hms m hm)
    · cases hm
  · rw [setClient_of_le (Nat.le_of_not_lt hk)] at hm
    have hhush : Hushed h h := ⟨rfl, fun _ => rfl⟩
    rw [hhush.told j] at hm
    cases hm

theorem owes_clientSays {p : Json → Prop} {r : Routine Client α} {φ : World → Prop} {hφ : Firm e φ}
    (h : r.MovesBy (ClientSays p)) (hp : ∀ m, p m → Allowed e k m ∧ ¬ Names m "shutdown")
    (hv : e.view = none) :
    Owes (knows e φ hφ : Assertion (pact i)) (Host.onClient k r) fun _ => knows e φ hφ :=
  owes_speaking (h.zoom fun _ _ hc => hc.toSays hp) hv

theorem says_link {p : Json → Prop} {r : Routine Connection α}
    (h : r.MovesBy (Connection.Tells p)) : (Client.onConnection r).MovesBy (ClientSays p) :=
  h.zoom fun _ _ hc => ⟨rfl, rfl, rfl, hc⟩

/-! ## the lock of a client -/

theorem cleared_place (h : e.place = none) (place : Option (Nat × Nat)) :
    ({ { e with place := place } with place := none } : Entry) = e := by
  cases e
  dsimp only at h
  subst h
  rfl

theorem cleared_seat (h : e.seat = none) (seat : Option (Nat × Bool)) :
    ({ { e with seat := seat } with seat := none } : Entry) = e := by
  obtain ⟨st, place, grip, added, ward, greeted, parting, view⟩ := e
  cases st
  dsimp only at h
  subst h
  rfl

structure HasLock (k n : Nat) (w : World) : Prop where
  holds : (w.1.clientAt k).lock.holds n = true
  known : k < w.1.clients.length

theorem firm_hasLock (k n : Nat) : Firm { e with place := some (k, n) } (HasLock k n) :=
  fun _ _ hw h => ⟨(hw.place k n rfl h.holds).1, h.known.trans_le hw.lasting.count⟩

theorem Secure.without_place {place : Option (Nat × Nat)} {w w' : World}
    (h : Secure { e with place := place } w w') (hplace : e.place = none) : Secure e w w' where
  seat := h.seat
  place _ _ hn := absurd (hplace.symm.trans hn) nofun
  lasting := h.lasting

theorem Firm.with_place {φ : World → Prop} (h : Firm e φ) (hplace : e.place = none)
    (place : Option (Nat × Nat)) : Firm { e with place := place } φ := fun w w' hw =>
  h w w' (hw.without_place hplace)

def inside (k n : Nat) (e : Entry) (φ : World → Prop) (hφ : Firm { e with place := some (k, n) } φ) :
    Assertion (pact i) :=
  knows { e with place := some (k, n) } (fun w => HasLock k n w ∧ φ w)
    ((firm_hasLock k n).and hφ)

/-- An entry for a call that has no lock of a client. -/
structure Free (e : Entry) : Prop where
  place : e.place = none
  view : e.view = none

/-- An entry for a call that has only begun. -/
structure Blank (e : Entry) : Prop extends Free e where
  seat : e.seat = none
  leaving : e.leaving = false
  won : e.won = false
  grip : e.grip = .fresh
  ward : e.ward = none
  greeted : e.greeted = none
  parting : e.parting = none

theorem secure_relock {k : Nat} {l : Lock} {w : World} {f : Entry} {place : Option (Nat × Nat)}
    (he : w.2.entries[i]? = some f) (hplace : e.place = none) :
    Secure e w (w.1.setClient k ((w.1.clientAt k).setLock l), w.2.put i { f with place := place }) := by
  refine secure_setClient { f with place := place } (Nat.le_refl _) rfl he ?_ ?_ ?_
    (fun _ hc => hc) (fun _ _ _ _ => rfl) fun n hn => absurd (hplace.symm.trans hn) nofun
  all_goals rfl

theorem owes_locked {body : Routine Client α} {φ : World → Prop} {ψ : α → World → Prop}
    (F : α → Entry) (hφ : Firm e φ) (hψ : ∀ a, Firm (F a) (ψ a)) (hfree : Free e) (hF : ∀ a, Free (F a)) (hk : ∀ w, φ w → k < w.1.clients.length)
    (hbody : ∀ n, Owes (inside k n e φ (hφ.with_place hfree.place _) : Assertion (pact i))
      (Host.onClient k body) fun a => inside k n (F a) (ψ a) ((hψ a).with_place (hF a).place _)) :
    Owes (knows e φ hφ : Assertion (pact i)) (Host.onClient k (Client.locked body))
      fun a => knows (F a) (ψ a) (hψ a) := by
  let waiting (n : Nat) : Assertion (pact i) :=
    knows { e with place := some (k, n) } φ (hφ.with_place hfree.place _)
  have hjoin : Owes (knows e φ hφ : Assertion (pact i))
      (.act fun h : Host => ((h.clientAt k).lock.join.1,
        h.setClient k ((h.clientAt k).setLock (h.clientAt k).lock.join.2))) waiting := by
    refine owes_move fun w hs hp => ⟨_, move_joinClient hs hp.1 (hk w hp.2) hfree.view, ?_⟩
    exact ⟨getElem?_put hp.1, hφ _ _ (secure_relock hp.1 hfree.place) hp.2⟩
  have hturn (n : Nat) : Owes (waiting n)
      (Host.onClient k (.until_ fun c : Client => c.lock.holds n))
      fun _ => inside k n e φ (hφ.with_place hfree.place _) :=
    owes_wait (f := fun _ => ()) (fun _ _ h => h)
      (fun w _ hp hready => ⟨hp.1, ⟨hready, hk w hp.2⟩, hp.2⟩)
      fun _ _ _ hl => absurd hl Bool.false_ne_true
  refine Owes.zoom_bind hjoin fun n => Owes.zoom_ensure ((hturn n).zoom_bind fun _ => hbody n)
    fun a => ?_
  refine owes_move (f := fun h : Host => (a,
    h.setClient k ((h.clientAt k).setLock ((h.clientAt k).lock.leave n)))) fun w hs hp => ?_
  obtain ⟨he, hlock, hψw⟩ := hp
  refine ⟨_, move_leaveClient hs he hlock.known (hF a).view rfl, ?_, ?_⟩
  · rw [cleared_place (hF a).place]
    exact getElem?_put he
  · exact hψ a _ _ (secure_relock he (hF a).place) hψw

/-! ## the slot -/

/-- Something that nobody changes without the slot. -/
def Seated (φ : World → Prop) : Prop := ∀ w w', Lasting w w' → SlotKept w w' → φ w → φ w'

theorem Lasts.seated {φ : World → Prop} (h : Lasts φ) : Seated φ := fun w w' hl _ => h w w' hl

theorem Seated.and {φ ψ : World → Prop} (h : Seated φ) (h' : Seated ψ) :
    Seated fun w => φ w ∧ ψ w := fun w w' hl hk hp => ⟨h w w' hl hk hp.1, h' w w' hl hk hp.2⟩

theorem Seated.firm {φ : World → Prop} (h : Seated φ) {n : Nat} {reading : Bool}
    (hseat : e.seat = some (n, reading)) :
    Firm e fun w => w.1.slotLock.holds n = true ∧ φ w := fun w w' hw hp =>
  have hkept := hw.seat n reading hseat hp.1
  ⟨hkept.1, h w w' hw.lasting hkept.2 hp.2⟩

def seated (n : Nat) (reading : Bool) (e : Entry) (φ : World → Prop) (hφ : Seated φ) :
    Assertion (pact i) :=
  knows { e with seat := some (n, reading) } (fun w => w.1.slotLock.holds n = true ∧ φ w)
    (hφ.firm rfl)

/-- How a call may go on after it has left the slot, seen from the moment when it leaves. -/
structure Leaves (n : Nat) (reading : Bool) (e f : Entry) (w : World) : Prop where
  same : f = { e with won := f.won, view := f.view }
  view : f.view = none ∨ f.view = some (w.1.setSlotLock (w.1.slotLock.leave n))
  leaving : e.leaving = true → ∀ k, w.1.slot ≠ .running k
  won : e.won = true → f.won = true
  win : f.won = true → e.won = true ∨ reading = false ∧ Usable (board w.1)

theorem owes_slot {body : Routine Host α} {reading : Bool} {φ : World → Prop}
    {R : Nat → α → Assertion (pact i)} {Q : α → Assertion (pact i)} (hφ : Lasts φ) (hfree : Free e)
    (hseat : e.seat = none)
    (hbody : ∀ n, Owes (seated n reading e φ hφ.seated : Assertion (pact i)) body (R n))
    (hend : ∀ a n w, Sound (board w.1) w.2 → (R n a).Holds w → ∃ d f, d.seat = none ∧
      w.2.entries[i]? = some { d with seat := some (n, reading) } ∧
      w.1.slotLock.holds n = true ∧ Leaves n reading d f w ∧
      ∀ w', Lasting w w' → w'.1 = w.1.setSlotLock (w.1.slotLock.leave n) →
        w'.2.entries[i]? = some f → (Q a).Holds w') :
    Owes (knows e φ (hφ.firm e) : Assertion (pact i))
      (SharedLock.hold reading Host.slotLock Host.setSlotLock body) Q := by
  let waiting (n : Nat) : Assertion (pact i) :=
    knows { e with seat := some (n, reading) } φ (hφ.firm _)
  have hjoin : Owes (knows e φ (hφ.firm e) : Assertion (pact i))
      (.act fun h : Host => ((h.slotLock.join reading).1,
        h.setSlotLock (h.slotLock.join reading).2)) waiting := by
    refine owes_move fun w hs hp => ⟨_, move_joinSlot hs hp.1 hseat hfree.view reading, ?_⟩
    refine ⟨getElem?_put hp.1, hφ _ _ ?_ hp.2⟩
    exact lasting_put (onward_slotLock _) hp.1 rfl rfl id fun _ hk => hk
  refine hjoin.bind fun n => ?_
  have hturn : Owes (waiting n) (.until_ fun h : Host => h.slotLock.holds n)
      fun _ => seated n reading e φ hφ.seated :=
    owes_until fun w _ hp hready => ⟨hp.1, hready, hp.2⟩
  refine (hturn.bind fun _ => hbody n).ensure fun a => ?_
  refine owes_move (f := fun h : Host => (a, h.setSlotLock (h.slotLock.leave n))) fun w hs hp => ?_
  obtain ⟨d, f, hd, he, hholds, hl, hq⟩ := hend a n w hs hp
  have hmove := move_leaveSlot hs he rfl hl.view hl.leaving hl.won
    fun hw => (hl.win hw).imp id fun hu => ⟨hu.1, hholds, hu.2⟩
  have hf : ({ { d with seat := some (n, reading) } with
      seat := none, won := f.won, view := f.view } : Entry) = f := by
    have hclear := cleared_seat hd (some (n, reading))
    rw [hl.same, ← hclear]
  rw [hf] at hmove
  refine ⟨_, hmove, hq _ ?_ rfl (getElem?_put he)⟩
  refine lasting_put (onward_slotLock _) he rfl ?_ hl.won fun _ hk => hk
  rw [hl.same]

end Office

end CodeBridge
