import CodeBridge.Proofs.Session.Tools

/-!
# What the calls of a session do

Start, stop, and all that can be asked for, taken apart.

* `Poised`     a client that can be made ready and put into the slot;
* `Ending`, `owes_startHeld`, `owes_start`   how a start may end;
* `owes_sessionShutdown`   the end of a session;
* `complete`, `owes_deed`   all calls.
-/

namespace CodeBridge

namespace Office

open Pact

variable {i k n : Nat} {α β : Type} {e : Entry} {φ : World → Prop}

/-! ## the slot while it is held for writing -/

/-- A client that the session has not begun to leave, and the slot. -/
structure Placed (k : Nat) (slot : Slot) (w : World) : Prop where
  finds : w.1.slot = slot
  known : k < w.1.clients.length
  stays : k ∉ w.2.gone

theorem seated_placed (k : Nat) (slot : Slot) : Seated (Placed k slot) := fun _ _ hl hk hp =>
  ⟨hk.slot.trans hp.finds, hp.known.trans_le hl.count, hk.gone ▸ hp.stays⟩

/-- A client that may be made ready and put into the slot. -/
structure Poised (k : Nat) (slot : Slot) (w : World) : Prop extends Placed k slot w where
  unstarted : ¬ Started (standings w)

theorem seated_poised (k : Nat) (slot : Slot) : Seated (Poised k slot) := fun _ _ hl hk hp =>
  ⟨seated_placed k slot _ _ hl hk hp.toPlaced, fun hs => hp.unstarted (hk.started hs)⟩

/-- The client in the slot has not been left, unless by the one who has the slot. -/
theorem Sound.not_gone {w : World} (hs : Sound (board w.1) w.2) (he : w.2.entries[i]? = some e)
    (hseat : e.seat = some (n, false)) (hholds : w.1.slotLock.holds n = true)
    (hleaving : e.leaving = false) (hslot : w.1.slot = .running k) : k ∉ w.2.gone := by
  intro hgone
  obtain ⟨j, s, m, hj, hl, hm, hholds'⟩ := hs.slotted.leaver k hslot hgone
  rw [List.getElem?_map, Option.map_eq_some_iff] at hj
  obtain ⟨f, hf, rfl⟩ := hj
  obtain rfl := hs.seat_alone he hf hseat hholds hm hholds'
  obtain rfl := Option.some.inj (he.symm.trans hf)
  exact absurd (hleaving.symm.trans hl) Bool.false_ne_true

theorem Sound.unstarted {w : World} (hs : Sound (board w.1) w.2) (hstopped : w.1.slot ≠ .stopped)
    (hfresh : ∀ k, w.1.slot = .running k → (w.1.clientAt k).lifecycle = .uninitialized) :
    ¬ Started (standings w) := by
  intro hst
  rcases hs.slotted.started hst with hslot | ⟨k, hslot, hlife⟩
  · exact hstopped hslot
  · exact hlife (hfresh k hslot)

/-- Whoever comes after the end, or after a start, is not to start anything. -/
theorem Sound.not_idles {w : World} (hs : Sound (board w.1) w.2) (he : w.2.entries[i]? = some e)
    (hdeed : e.deed = .start) (hstopped : w.1.slot ≠ .stopped)
    (hst : ¬ Started (standings w)) : e.idles = false := by
  have hmem : e.toStanding ∈ w.2.entries.map (·.toStanding) :=
    List.mem_of_getElem? (getElem?_mapped (·.toStanding) he)
  unfold Entry.idles
  rw [hdeed]
  show (e.late || e.again) = false
  rw [Bool.or_eq_false_iff]
  constructor
  · exact Bool.eq_false_iff.mpr fun hl => hstopped (hs.slotted.late _ hmem hl)
  · exact Bool.eq_false_iff.mpr fun ha => hst (hs.slotted.again _ hmem ha)

/-- Something that must be so where a part begins. -/
theorem owes_given {P : Assertion (pact i)} {r : Routine Host α} {Q : α → Assertion (pact i)}
    {p : Prop} (hp : ∀ w, Sound (board w.1) w.2 → P.Holds w → p) (h : p → Owes P r Q) :
    Owes P r Q :=
  ⟨fun w hw hP => (h (hp w hw hP)).keeps w hw hP⟩

/-! ## how a start may end -/

inductive Ending where
  | stopped
  /-- a client that has been made ready is in the slot, by this start or by another call -/
  | ready (client : Nat) (here : Bool)
  /-- it has not come to a handshake -/
  | unmade
  /-- a client that could not be made ready has been left -/
  | seenOff (client : Nat)

namespace Ending

def entry (e : Entry) : Ending → Entry
  | stopped => e
  | ready k here =>
    { e with ward := bif here then some k else e.ward
             greeted := bif here then some k else e.greeted }
  | unmade => e
  | seenOff k => { e with ward := some k, leaving := true }

/-- What is so when the start is about to leave the slot. -/
def Fits (e : Entry) (result : Except ClientError Unit) : Ending → World → Prop
  | stopped, w => result = .error .shutDown ∧ w.1.slot = .stopped
  | ready k _, w => result = .ok () ∧ e.late = false ∧ w.1.slot = .running k ∧
      (w.1.clientAt k).lifecycle ≠ .uninitialized
  | unmade, _ => e.idles = false ∧ ∃ fault, result = .error fault ∧ fault.isSetup = true
  | seenOff k, w => e.idles = false ∧ (∃ fault, result = .error fault) ∧ w.1.slot = .idle ∧
      (w.1.clientAt k).lifecycle = .shutDown ∧ (w.1.clientAt k).connection.closed = true

theorem seated_fits (e : Entry) (result : Except ClientError Unit) (x : Ending) :
    Seated (x.Fits e result) := by
  intro w w' hl hk hp
  cases x with
  | stopped => exact ⟨hp.1, hk.slot.trans hp.2⟩
  | ready k here => exact ⟨hp.1, hp.2.1, hk.slot.trans hp.2.2.1, lasts_begun k w w' hl hp.2.2.2⟩
  | unmade => exact hp
  | seenOff k =>
    obtain ⟨hidles, hfault, hslot, hlife, hclosed⟩ := hp
    exact ⟨hidles, hfault, hk.slot.trans hslot, lasts_shutDown k w w' hl hlife,
      hl.closed k hclosed⟩

end Ending

def ending (n : Nat) (e : Entry) (result : Except ClientError Unit) : Assertion (pact i) :=
  .any fun x : Ending × Option Nat => seated n false (x.1.entry { e with added := x.2 })
    (x.1.Fits e result) (x.1.seated_fits e result)

/-! ## making a client ready -/

theorem owes_install {slot : Slot} (h : Blank e) (hslot : slot ≠ .stopped)
    (hlate : e.late = false) :
    Owes (seated n false { e with ward := some k, greeted := some k }
        (fun w => Poised k slot w ∧ (w.1.clientAt k).lifecycle ≠ .uninitialized)
        ((seated_poised k slot).and (lasts_begun k).seated) : Assertion (pact i))
      ((Routine.change (Host.setSlot (.running k))).bind fun _ => .done (.ok ())) (ending n e) := by
  refine Owes.bind (Q := fun _ => seated n false { e with ward := some k, greeted := some k }
    (Ending.Fits e (.ok ()) (.ready k true)) (Ending.seated_fits e (.ok ()) (.ready k true))) ?_
    fun _ => owes_done fun w _ hp => ⟨(.ready k true, e.added), hp⟩
  refine owes_move (f := fun h : Host => ((), h.setSlot (.running k))) fun w hs hp => ?_
  obtain ⟨he, hholds, hpoised, hlife⟩ := hp
  refine ⟨_, move_setSlot hs he h.view rfl hholds (fun c hc => ?_) (fun c hc => hc)
    (fun c hc => hs.slotted.known c hc) (fun hst => absurd hst hpoised.unstarted)
    (fun hstopped => absurd (hpoised.finds.symm.trans hstopped) hslot), getElem?_put he, hholds,
    rfl, hlate, rfl, hlife⟩
  rw [← Slot.running.inj hc]
  exact ⟨hpoised.known, hpoised.stays⟩

/-- The slot is made idle by whoever has left the client. -/
theorem owes_vacate {slot : Slot} {fault : ClientError} (h : Blank e) (hslot : slot ≠ .stopped)
    (hidles : e.idles = false) :
    Owes (seated n false { e with ward := some k, leaving := true }
        (fun w => (w.1.slot = slot ∧ ¬ Started (standings w)) ∧
          (w.1.clientAt k).lifecycle = .shutDown ∧ (w.1.clientAt k).connection.closed = true)
        (Seated.and (fun _ _ _ hk hp => ⟨hk.slot.trans hp.1, fun hs => hp.2 (hk.started hs)⟩)
          ((lasts_shutDown k).and (lasts_closed k)).seated) : Assertion (pact i))
      ((Routine.change (Host.setSlot .idle)).bind fun _ => .done (.error fault)) (ending n e) := by
  refine Owes.bind (Q := fun _ => seated n false { e with ward := some k, leaving := true }
    (Ending.Fits e (.error fault) (.seenOff k))
    (Ending.seated_fits e (.error fault) (.seenOff k))) ?_
    fun _ => owes_done fun w _ hp => ⟨(.seenOff k, e.added), hp⟩
  refine owes_move (f := fun h : Host => ((), h.setSlot .idle)) fun w hs hp => ?_
  obtain ⟨he, hholds, ⟨hfinds, hst⟩, hlife, hclosed⟩ := hp
  exact ⟨_, move_setSlot hs he h.view rfl hholds nofun (fun c hc => hc)
    (fun c hc => hs.slotted.known c hc) (fun hstarted => absurd hstarted hst)
    (fun hstopped => absurd (hfinds.symm.trans hstopped) hslot), getElem?_put he, hholds,
    hidles, ⟨fault, rfl⟩, rfl, hlife, hclosed⟩

/-- What a start knows of a client after it has looked at the host: it takes care of it if it will
come to the handshake. -/
def adopted (n k : Nat) (slot : Slot) (e : Entry) (host : Host) : Assertion (pact i) :=
  match uriOfPath host.disk.cwd host.root with
  | .ok _ => seated n false { e with ward := some k } (Poised k slot) (seated_poised k slot)
  | .error _ => seated n false e (Poised k slot) (seated_poised k slot)

theorem owes_adopt {slot : Slot} (h : Blank e) (hfinds : slot = .running k ∨ e.added = some k) :
    Owes (seated n false e (Poised k slot) (seated_poised k slot) : Assertion (pact i)) (.read id)
      (adopted n k slot e) := by
  refine owes_move (f := fun h : Host => (h, h)) fun w hs hp => ?_
  have hcalm : Calm w.1 w.1 := .refl w.1
  have hhush : Hushed w.1 w.1 := ⟨rfl, fun _ => rfl⟩
  unfold adopted
  cases uriOfPath w.1.disk.cwd w.1.root with
  | error fault =>
    have hspeaks : Says { e with seat := some (n, false) } w.1 w.1 := says_hushed hcalm hhush
    obtain ⟨hmove, hsecure⟩ := hspeaks.move hs hp.1 h.view
    have hkept := hsecure.seat n false rfl hp.2.1
    exact ⟨_, hmove, getElem?_put hp.1, hkept.1,
      seated_poised k slot _ _ hsecure.lasting hkept.2 hp.2.2⟩
  | ok uri =>
    have hn : Noted w.1 w.1 { e with seat := some (n, false) }
        { e with seat := some (n, false), ward := some k } :=
      noted_hushed hhush (fun _ _ => rfl) rfl rfl rfl rfl
        (.inr ⟨h.ward, k, rfl, hfinds.imp hp.2.2.finds.trans id⟩) (.inl h.view) rfl (.inl rfl)
    have hsecure : Secure { e with seat := some (n, false) } w
        (w.1, w.2.put i { e with seat := some (n, false), ward := some k }) := by
      refine hcalm.secure_put { e with seat := some (n, false), ward := some k } hp.1 ?_ ?_ ?_ _
      all_goals rfl
    exact ⟨_, move_calm hs hp.1 hcalm hn rfl rfl (fun _ _ _ => Iff.rfl) (.inl rfl) hhush.partings,
      getElem?_put hp.1, hp.2.1,
      seated_poised k slot _ _ hsecure.lasting (hsecure.seat n false rfl hp.2.1).2 hp.2.2⟩

theorem owes_leaveWard {slot : Slot} (h : Blank e) (hdeed : e.deed = .start) :
    Owes (seated n false { e with ward := some k } (Poised k slot) (seated_poised k slot) :
        Assertion (pact i))
      (Host.onClient k Client.terminate)
      fun _ => seated n false { e with ward := some k, leaving := true }
        (fun w => (w.1.slot = slot ∧ ¬ Started (standings w)) ∧
          (w.1.clientAt k).lifecycle = .shutDown ∧ (w.1.clientAt k).connection.closed = true)
        (Seated.and (fun _ _ _ hk hp => ⟨hk.slot.trans hp.1, fun hs => hp.2 (hk.started hs)⟩)
          ((lasts_shutDown k).and (lasts_closed k)).seated) := by
  let ψ (w : World) : Prop := w.1.slot = slot ∧ ¬ Started (standings w) ∧ k < w.1.clients.length
  have hψ : Seated ψ := fun _ _ hl hk hp =>
    ⟨hk.slot.trans hp.1, fun hs => hp.2.1 (hk.started hs), hp.2.2.trans_le hl.count⟩
  have htool : e.deed.isTool = false := by rw [hdeed]; rfl
  let e₁ : Entry := { e with seat := some (n, false), ward := some k }
  have hmark (m : Nat) := owes_seeOff (i := i) (k := k) (n := m) (e := e₁)
    ((seated_poised k slot).firm rfl) ⟨h.place, h.view⟩ htool rfl (fun _ hp => hp.1)
    (hψ.firm (e := { e₁ with leaving := true }) rfl) fun w w' hp hslot hlock hcount hst =>
      ⟨by rw [hlock]; exact hp.1, hslot.trans hp.2.finds, fun hs => hp.2.unstarted (hst hs),
        hcount ▸ hp.2.known⟩
  have hterminate := owes_terminate (e := e₁) (f := { e₁ with leaving := true })
    ((seated_poised k slot).firm rfl) ((hψ.firm rfl).and ((lasts_shutDown k).firm _))
    ⟨h.place, h.view⟩ ⟨h.place, h.view⟩ (fun _ hp => hp.2.known) (fun _ hp => hp.1.2.2.2) hmark
  exact hterminate.mono fun _ w _ hp =>
    ⟨hp.1, hp.2.1.1.1, ⟨hp.2.1.1.2.1, hp.2.1.1.2.2.1⟩, hp.2.1.2, hp.2.2⟩

theorem owes_bringUp {slot : Slot} (h : Blank e) (hdeed : e.deed = .start)
    (hslot : slot ≠ .stopped) (hfinds : slot = .running k ∨ e.added = some k) :
    Owes (seated n false e (Poised k slot) (seated_poised k slot) : Assertion (pact i))
      (Session.bringUp k) (ending n e) := by
  refine owes_given (p := e.idles = false) (fun w hs hp => ?_) fun hidles => ?_
  · refine hs.not_idles (e := { e with seat := some (n, false) }) hp.1 hdeed ?_ hp.2.2.unstarted
    rw [hp.2.2.finds]
    exact hslot
  have hlate : e.late = false := by
    unfold Entry.idles Deed.idles at hidles
    rw [hdeed] at hidles
    exact (Bool.or_eq_false_iff.mp hidles).1
  refine Owes.bind (owes_adopt h hfinds) fun host => ?_
  unfold adopted
  cases uriOfPath host.disk.cwd host.root with
  | error fault =>
    exact owes_done fun w _ hp =>
      ⟨(.unmade, e.added), hp.1, hp.2.1, hidles, .place fault, rfl, rfl⟩
  | ok uri =>
    let e₁ : Entry := { e with seat := some (n, false), ward := some k }
    have hall (m : Json) : Allowed e₁ k m := by
      refine ⟨hidles, ?_⟩
      dsimp only [e₁]
      rw [hdeed]
    refine Owes.bind (owes_handshake (e := e₁) ((seated_poised k slot).firm rfl)
      ⟨h.place, h.view⟩ hall (fun _ hp => hp.2.known) uri) fun result => ?_
    cases result with
    | ok _ =>
      exact Owes.weaken (owes_install h hslot hlate) fun w _ hp =>
        ⟨hp.1, hp.2.1.1, hp.2.1.2, hp.2.2 rfl⟩
    | error fault =>
      refine Owes.bind (Owes.weaken (owes_leaveWard h hdeed) fun w _ hp =>
        ⟨hp.1, hp.2.1.1, hp.2.1.2⟩) fun _ => ?_
      exact owes_vacate h hslot hidles

/-! ## starting a program -/

theorem clientAt_addClient (h : Host) (c : Client) (program : Option Launch.Program) (k : Nat) :
    (h.addClient c program).2.clientAt k = if k = h.clients.length then c else h.clientAt k := by
  unfold Host.addClient Host.clientAt
  dsimp only
  split
  next hk =>
    subst hk
    rw [List.getElem?_concat_length]
    rfl
  next hk =>
    rcases Nat.lt_or_gt_of_ne hk with hlt | hgt
    · rw [List.getElem?_append_left hlt]
    · rw [List.getElem?_eq_none (by rw [List.length_append]; exact hgt),
        List.getElem?_eq_none (Nat.le_of_lt hgt)]

theorem clientAt_length (h : Host) : h.clientAt h.clients.length = default := by
  unfold Host.clientAt
  rw [List.getElem?_eq_none (Nat.le_refl _)]
  rfl

theorem clientAt_launched (h : Host) (program : Option Launch.Program) {β : Type} (f : Client → β)
    (hf : f h.launchedClient = f default) (k : Nat) :
    f ((h.addClient h.launchedClient program).2.clientAt k) = f (h.clientAt k) := by
  rw [clientAt_addClient]
  split
  next hk => rw [hk, clientAt_length, hf]
  · rfl

theorem calm_launched (h : Host) (program : Option Launch.Program) :
    Calm h (h.addClient h.launchedClient program).2 where
  slot := rfl
  slotLock := rfl
  count := by
    show _ ≤ (h.clients ++ [_]).length
    rw [List.length_append]
    exact Nat.le_add_right _ _
  lock := clientAt_launched h program Client.lock rfl
  docs := clientAt_launched h program Client.openDocs rfl
  life := clientAt_launched h program Client.lifecycle rfl
  closed k hc := by
    rw [clientAt_launched h program (·.connection.closed) rfl]
    exact hc

theorem told_launched (h : Host) (program : Option Launch.Program) (k : Nat) :
    told k (h, (h.addClient h.launchedClient program).2) = [] := by
  unfold told Course.added
  dsimp only
  rw [clientAt_launched h program (·.connection.queued) rfl]
  exact List.drop_length

theorem launch_error {h : Host} {fault : ClientError} (hl : h.launch.1 = .error fault) :
    fault.isSetup = true ∧ h.launch.2 = h := by
  unfold Host.launch at hl ⊢
  unfold Launch.ofSettings at hl ⊢
  cases hfind : Launch.find? h.disk h.environment h.settings.command with
  | none =>
    rw [hfind] at hl
    rw [← Except.error.inj hl]
    exact ⟨rfl, rfl⟩
  | some file =>
    rw [hfind] at hl
    dsimp only at hl ⊢
    cases hs : Launch.start h.disk file h.settings.args with
    | error io =>
      rw [hs] at hl
      rw [← Except.error.inj hl]
      exact ⟨rfl, rfl⟩
    | ok program => rw [hs] at hl; cases hl

theorem launch_ok {h : Host} {k : Nat} (hl : h.launch.1 = .ok k) :
    k = h.clients.length ∧
      ∃ program, h.launch.2 = (h.addClient h.launchedClient program).2 := by
  unfold Host.launch at hl ⊢
  cases hp : Launch.ofSettings h.disk h.environment h.settings with
  | error fault => rw [hp] at hl; cases hl
  | ok program =>
    rw [hp] at hl
    exact ⟨(Except.ok.inj hl).symm, some program, rfl⟩

def Bare (w : World) : Prop := w.1.slot = .idle ∧ ¬ Started (standings w)

theorem seated_bare : Seated Bare := fun _ _ _ hk hp =>
  ⟨hk.slot.trans hp.1, fun hs => hp.2 (hk.started hs)⟩

theorem owes_launch (h : Blank e) (hidles : e.idles = false) :
    Owes (seated n false e Bare seated_bare : Assertion (pact i)) (.act Host.launch)
      fun
        | .ok k => seated n false { e with added := some k } (Poised k .idle) (seated_poised k .idle)
        | .error fault => (Assertion.fact (fault.isSetup = true)).and
            (seated n false e Bare seated_bare) := by
  refine owes_move fun w hs hp => ?_
  obtain ⟨he, hholds, hbare⟩ := hp
  cases hl : w.1.launch.1 with
  | error fault =>
    obtain ⟨hsetup, hsame⟩ := launch_error hl
    rw [hsame]
    have hspeaks : Says { e with seat := some (n, false) } w.1 w.1 := says_apart rfl rfl rfl
    obtain ⟨hmove, hsecure⟩ := hspeaks.move hs he h.view
    exact ⟨_, hmove, hsetup, getElem?_put he, hholds,
      seated_bare _ _ hsecure.lasting (hsecure.seat n false rfl hholds).2 hbare⟩
  | ok k =>
    obtain ⟨rfl, program, hsame⟩ := launch_ok hl
    rw [hsame]
    have hcalm := calm_launched w.1 program
    have hmore : w.1.clients.length < (w.1.addClient w.1.launchedClient program).2.clients.length := by
      show _ < (w.1.clients ++ [_]).length
      rw [List.length_append]
      exact Nat.lt_succ_self _
    have hadds : adds w.1.clients.length
        (w.1, (w.1.addClient w.1.launchedClient program).2) = true := by
      unfold adds
      rw [decide_eq_true rfl, decide_eq_true hmore]
      rfl
    have hn : Noted w.1 (w.1.addClient w.1.launchedClient program).2
        { e with seat := some (n, false) }
        { e with seat := some (n, false), added := some w.1.clients.length } := by
      refine ⟨rfl, rfl, rfl, .inr ⟨_, rfl, hadds⟩, .inl rfl, .inl h.view,
        fun _ => .same (level_of_docs hcalm.docs), fun _ => rfl,
        fun k m hm => ?_, fun hid => absurd (hidles.symm.trans hid) Bool.false_ne_true, .inl rfl⟩
      rw [told_launched] at hm
      cases hm
    have hmove := move_calm hs he hcalm hn rfl rfl (fun _ _ _ => Iff.rfl) (.inl rfl) fun k => by
      unfold partings
      rw [told_launched]
      rfl
    have hsecure : Secure { e with seat := some (n, false) } w
        ((w.1.addClient w.1.launchedClient program).2,
          w.2.put i { e with seat := some (n, false), added := some w.1.clients.length }) := by
      refine hcalm.secure_put
        { e with seat := some (n, false), added := some w.1.clients.length } he ?_ ?_ ?_ _
      all_goals rfl
    have hbare' := seated_bare _ _ hsecure.lasting (hsecure.seat n false rfl hholds).2 hbare
    exact ⟨_, hmove, getElem?_put he, hholds,
      ⟨hbare'.1, hmore, fun hgone => Nat.lt_irrefl _ (hs.slotted.known _ hgone)⟩, hbare'.2⟩

/-! ## a start -/

def Judged (k : Nat) (life : Lifecycle) (w : World) : Prop :=
  if life = .uninitialized then ¬ Started (standings w)
  else (w.1.clientAt k).lifecycle ≠ .uninitialized

theorem seated_judged (k : Nat) (life : Lifecycle) : Seated (Judged k life) := by
  intro w w' hl hk hp
  unfold Judged at hp ⊢
  split at hp
  next hlife =>
    rw [if_pos hlife]
    exact fun hs => hp (hk.started hs)
  next hlife =>
    rw [if_neg hlife]
    exact lasts_begun k w w' hl hp

def found (n : Nat) (e : Entry) : Slot → Assertion (pact i)
  | .stopped => seated n false e (fun w => w.1.slot = .stopped) fun _ _ _ hk hp => hk.slot.trans hp
  | .idle => seated n false e Bare seated_bare
  | .running k => seated n false e (Placed k (.running k)) (seated_placed k (.running k))

theorem owes_find (h : Blank e) :
    Owes (seated n false e (fun _ => True) (lasts_const True).seated : Assertion (pact i))
      (.read Host.slot) (found n e) := by
  refine owes_move (f := fun h : Host => (h.slot, h)) fun w hs hp => ?_
  obtain ⟨he, hholds, -⟩ := hp
  have hspeaks : Says { e with seat := some (n, false) } w.1 w.1 := says_apart rfl rfl rfl
  obtain ⟨hmove, hsecure⟩ := hspeaks.move hs he h.view
  have hkept := (hsecure.seat n false rfl hholds).2
  refine ⟨_, hmove, ?_⟩
  dsimp only
  cases hslot : w.1.slot with
  | stopped => exact ⟨getElem?_put he, hholds, hslot⟩
  | idle =>
    have hst : ¬ Started (standings w) := hs.unstarted (by rw [hslot]; exact nofun) fun k hk =>
      nomatch hslot.symm.trans hk
    exact ⟨getElem?_put he, hholds, seated_bare _ _ hsecure.lasting hkept ⟨hslot, hst⟩⟩
  | running k =>
    have hstays : k ∉ w.2.gone := hs.not_gone he rfl hholds h.leaving hslot
    exact ⟨getElem?_put he, hholds, seated_placed k _ _ _ hsecure.lasting hkept
      ⟨hslot, hs.slotted.inside k hslot, hstays⟩⟩

theorem owes_judge (h : Blank e) :
    Owes (found n e (.running k) : Assertion (pact i)) (Host.onClient k Client.readLifecycle)
      fun life => seated n false e (fun w => Placed k (.running k) w ∧ Judged k life w)
        ((seated_placed k (.running k)).and (seated_judged k life)) := by
  refine owes_readLifecycle (e := { e with seat := some (n, false) })
    (fun life w => w.1.slotLock.holds n = true ∧ Placed k (.running k) w ∧ Judged k life w)
    ((seated_placed k (.running k)).firm rfl)
    (fun life => ((seated_placed k (.running k)).and (seated_judged k life)).firm rfl)
    ⟨h.place, h.view⟩ (fun _ hp => hp.2.known) fun w hs hp => ⟨hp.1, hp.2, ?_⟩
  unfold Judged
  split
  next hlife =>
    refine hs.unstarted (by rw [hp.2.finds]; exact nofun) fun c hc => ?_
    rw [← Slot.running.inj (hp.2.finds.symm.trans hc)]
    exact hlife
  next hlife => exact hlife

theorem owes_startHeld (h : Blank e) (hdeed : e.deed = .start) :
    Owes (seated n false e (fun _ => True) (lasts_const True).seated : Assertion (pact i))
      Session.startHeld (ending n e) := by
  refine Owes.bind (owes_find h) fun slot => ?_
  cases slot with
  | stopped => exact owes_done fun w _ hp => ⟨(.stopped, e.added), hp.1, hp.2.1, rfl, hp.2.2⟩
  | running k =>
    refine owes_given (p := e.late = false) (fun w hs hp => ?_) fun hlate => ?_
    · have hshown := hs.shown hp.1
      have hplaced : Placed k (.running k) w := hp.2.2
      refine Bool.eq_false_iff.mpr fun hl => ?_
      exact nomatch hplaced.finds.symm.trans (hshown.late hl)
    refine Owes.bind (owes_judge h) fun life => ?_
    by_cases hlife : life = .uninitialized
    · rw [if_pos hlife]
      have hnot : Slot.running k ≠ .stopped := nofun
      refine Owes.weaken (owes_bringUp h hdeed hnot (.inl rfl)) fun w _ hp => ?_
      obtain ⟨he, hholds, hplaced, hjudged⟩ := hp
      exact ⟨he, hholds, hplaced, (if_pos hlife).mp hjudged⟩
    · rw [if_neg hlife]
      refine owes_done fun w _ hp => ?_
      obtain ⟨he, hholds, hplaced, hjudged⟩ := hp
      exact ⟨(.ready k false, e.added), he, hholds, rfl, hlate, hplaced.finds, (if_neg hlife).mp hjudged⟩
  | idle =>
    refine owes_given (p := e.idles = false) (fun w hs hp => ?_) fun hidles => ?_
    · refine hs.not_idles (e := { e with seat := some (n, false) }) hp.1 hdeed ?_ hp.2.2.2
      rw [hp.2.2.1]
      exact nofun
    refine Owes.bind (owes_launch h hidles) fun launched => ?_
    cases launched with
    | ok k =>
      have hblank : Blank { e with added := some k } := { h with }
      exact owes_bringUp hblank hdeed nofun (.inr rfl)
    | error fault =>
      exact owes_done fun w _ hp => ⟨(.unmade, e.added), hp.2.1, hp.2.2.1, hidles, fault, rfl, hp.1⟩

namespace Ending

def won : Ending → Bool
  | ready .. => true
  | _ => false

def Shows (e : Entry) (result : Except ClientError Unit) (h : Host) : Ending → World → Prop
  | stopped, _ => result = .error .shutDown ∧ h.slot = .stopped
  | ready k _, w => result = .ok () ∧ e.late = false ∧ h.slot = .running k ∧
      (h.clientAt k).lifecycle ≠ .uninitialized ∧
      ((h.clientAt k).lifecycle = .shutDown → Direct k (standings w))
  | unmade, _ => e.idles = false ∧ ∃ fault, result = .error fault ∧ fault.isSetup = true
  | seenOff k, _ => e.idles = false ∧ (∃ fault, result = .error fault) ∧ h.slot = .idle ∧
      (h.clientAt k).lifecycle = .shutDown ∧ (h.clientAt k).connection.closed = true

theorem lasts_shows (e : Entry) (result : Except ClientError Unit) (h : Host) (x : Ending) :
    Lasts (x.Shows e result h) := by
  intro w w' hl hp
  cases x with
  | ready k here =>
    obtain ⟨hok, hlate, hslot, hlife, hdirect⟩ := hp
    exact ⟨hok, hlate, hslot, hlife, fun hd => hl.direct k (hdirect hd)⟩
  | _ => exact hp

end Ending

def startEnded (e : Entry) (result : Except ClientError Unit) : Assertion (pact i) :=
  .any fun x : (Ending × Option Nat) × Host =>
    knows { x.1.1.entry { e with added := x.1.2 } with won := x.1.1.won, view := some x.2 }
      (x.1.1.Shows e result x.2) ((x.1.1.lasts_shows e result x.2).firm _)

theorem Sound.shows {w : World} {result : Except ClientError Unit} {x : Ending} {l : SharedLock}
    (hs : Sound (board w.1) w.2) (h : Blank e)
    (he : w.2.entries[i]? = some { x.entry e with seat := some (n, false) })
    (hholds : w.1.slotLock.holds n = true) (hfits : x.Fits e result w) :
    x.Shows e result (w.1.setSlotLock l) w := by
  cases x with
  | stopped => exact hfits
  | unmade => exact hfits
  | seenOff k => exact hfits
  | ready k here =>
    obtain ⟨hok, hlate, hslot, hlife⟩ := hfits
    refine ⟨hok, hlate, hslot, hlife, fun hleft => ?_⟩
    have hstays : k ∉ w.2.gone := hs.not_gone he rfl hholds h.leaving hslot
    exact (hs.slotted.left k hleft).resolve_left hstays

theorem owes_start (h : Blank e) (hdeed : e.deed = .start) :
    Owes (untouched e : Assertion (pact i)) Session.start (startEnded e) := by
  refine owes_slot (R := fun n => ending n e) (lasts_const True) h.toFree h.seat
    (fun n => owes_startHeld h hdeed) fun result n w hs hp => ?_
  obtain ⟨⟨x, added⟩, he, hholds, hfits⟩ := hp
  have hblank : Blank { e with added := added } := { h with }
  have hshows := hs.shows (l := w.1.slotLock.leave n) hblank he hholds hfits
  refine ⟨x.entry { e with added := added }, { x.entry { e with added := added } with
    won := x.won, view := some (w.1.setSlotLock (w.1.slotLock.leave n)) }, ?_, he, hholds,
    ⟨rfl, .inr rfl, fun hl k => ?_, fun hw => ?_, fun hw => ?_⟩, fun w' hl _ he' => ?_⟩
  · cases x <;> exact h.seat
  · cases x with
    | seenOff c =>
      obtain ⟨-, -, hslot, -⟩ := hfits
      rw [hslot]
      exact nofun
    | _ => exact absurd (h.leaving.symm.trans hl) Bool.false_ne_true
  · have hno : (x.entry { e with added := added }).won = false := by cases x <;> exact h.won
    exact absurd (hno.symm.trans hw) Bool.false_ne_true
  · cases x with
    | ready k here =>
      obtain ⟨-, -, hslot, hlife⟩ := hfits
      exact .inr ⟨rfl, .inr ⟨k, hslot, hlife⟩⟩
    | _ => cases hw
  · exact ⟨((x, added), _), he', x.lasts_shows e result _ w w' hl hshows⟩

/-! ## the end of a session -/

theorem lasts_stopped : Lasts fun w => w.1.slot = .stopped := fun _ _ hl h => hl.stopped h

/-- What is so of the client that was in the slot when the session was stopped. -/
def Dismissed (late : Bool) (slot : Slot) (w : World) : Prop :=
  w.1.slot = .stopped ∧
    ∀ k, slot = .running k → late = false ∧ k ∈ w.2.gone ∧ k < w.1.clients.length

theorem lasts_dismissed (late : Bool) (slot : Slot) : Lasts (Dismissed late slot) :=
  fun _ _ hl hp => ⟨hl.stopped hp.1, fun k hk =>
    have hd := hp.2 k hk
    ⟨hd.1, hl.gone k hd.2.1, hd.2.2.trans_le hl.count⟩⟩

/-- The clients that may be left, the one in the slot among them. -/
def goneWith : Slot → List Nat → List Nat
  | .running k, gone => k :: gone
  | _, gone => gone

theorem mem_goneWith {slot : Slot} {gone : List Nat} :
    k ∈ goneWith slot gone ↔ slot = .running k ∨ k ∈ gone := by
  cases slot with
  | running c =>
    show k ∈ c :: gone ↔ _
    rw [List.mem_cons, Slot.running.injEq, eq_comm]
  | idle => exact (or_iff_right fun h => nomatch h).symm
  | stopped => exact (or_iff_right fun h => nomatch h).symm

/-- The session is stopped, and what was in the slot may be left from now on. -/
theorem owes_stop (h : Blank e) :
    Owes (untouched e : Assertion (pact i)) Session.stop
      fun slot => knows e (Dismissed e.late slot) ((lasts_dismissed e.late slot).firm e) := by
  refine owes_slot (R := fun n slot => seated n false e (Dismissed e.late slot)
    (lasts_dismissed e.late slot).seated) (lasts_const True) h.toFree h.seat (fun n => ?_)
    fun slot n w hs hp => ?_
  · refine owes_move (f := fun h : Host => (h.slot, h.setSlot .stopped)) fun w hs hp => ?_
    obtain ⟨he, hholds, -⟩ := hp
    have hshown := hs.shown he
    have hsub (k : Nat) (hk : k ∈ w.2.gone) : k ∈ goneWith w.1.slot w.2.gone :=
      mem_goneWith.mpr (.inr hk)
    have hknown (k : Nat) (hk : k ∈ goneWith w.1.slot w.2.gone) : k < w.1.clients.length :=
      (mem_goneWith.mp hk).elim (hshown.known k) (hs.slotted.known k)
    refine ⟨_, move_setSlot hs he h.view rfl hholds nofun hsub hknown
      (fun _ => .inl rfl) fun _ => rfl, getElem?_put he, hholds, rfl, fun k hslot => ?_⟩
    dsimp only at hslot ⊢
    refine ⟨Bool.eq_false_iff.mpr fun hl => ?_, ?_, hshown.known k hslot⟩
    · exact nomatch hslot.symm.trans (hshown.late hl)
    · exact mem_goneWith.mpr (.inl hslot)
  · obtain ⟨he, hholds, hd⟩ := hp
    refine ⟨e, e, h.seat, he, hholds, ⟨rfl, .inl h.view, ?_, id, .inl⟩, fun w' hl _ he' =>
      ⟨he', lasts_dismissed e.late slot w w' hl hd⟩⟩
    exact fun hl => absurd (h.leaving.symm.trans hl) Bool.false_ne_true

theorem owes_sessionShutdown (h : Blank e) (hdeed : e.deed = .shutdown) :
    Owes (untouched e : Assertion (pact i)) Session.shutdown
      fun result => knows e (fun w => w.1.slot = .stopped ∧ (e.late = true → result = .ok ()))
        ((lasts_stopped.and (lasts_const _)).firm e) := by
  refine Owes.bind (owes_stop h) fun slot => ?_
  cases slot with
  | idle => exact owes_done fun w _ hp => ⟨hp.1, hp.2.1, fun _ => rfl⟩
  | stopped => exact owes_done fun w _ hp => ⟨hp.1, hp.2.1, fun _ => rfl⟩
  | running k =>
    let φ (w : World) : Prop := Dismissed e.late (.running k) w
    have hφ : Firm e φ := (lasts_dismissed e.late (.running k)).firm e
    refine owes_given (p := e.late = false) (fun w _ hp => (hp.2.2 k rfl).1) fun hlate => ?_
    have htool : e.deed.isTool = false := by rw [hdeed]; rfl
    have hall (m : Json) : Allowed e k m := by
      refine ⟨?_, ?_⟩
      · unfold Entry.idles
        rw [hdeed]
        exact hlate
      · rw [hdeed]
        trivial
    have hk (w : World) (hp : φ w) : k < w.1.clients.length := (hp.2 k rfl).2.2
    have hleave (w : World) (hp : φ w) : Leaving k w := .inl (hp.2 k rfl).2.1
    have hend {result : Except ClientError Unit} {w : World}
        (hp : (knows e φ hφ : Assertion (pact i)).Holds w) : w.2.entries[i]? = some e ∧
          w.1.slot = .stopped ∧ (e.late = true → result = .ok ()) :=
      ⟨hp.1, hp.2.1, fun hl => absurd (hlate.symm.trans hl) Bool.false_ne_true⟩
    refine Owes.bind (owes_readLifecycle (fun _ => φ) hφ (fun _ => hφ) h.toFree hk
      fun _ _ hp => hp) fun life => ?_
    split
    · exact (owes_shutdown hφ h.toFree htool h.parting hall hleave hk).mono fun _ _ _ hp => hend hp
    · refine Owes.mono (owes_terminate hφ (hφ.and ((lasts_shutDown k).firm e)) h.toFree h.toFree
        hk (fun w hp => hk w hp.1) fun m => owes_markTerminated hφ h.toFree htool hleave)
        fun _ _ _ hp => hend ⟨hp.1, hp.2.1.1⟩

/-! ## all calls -/

def Present (deed : Deed) (w : World) : Prop :=
  ∀ k, deed.client? = some k → k < w.1.clients.length

theorem lasts_present (deed : Deed) : Lasts (Present deed) := fun _ _ hl hp k hk =>
  (hp k hk).trans_le hl.count

def complete (e : Entry) : Deed → Outcome → Assertion (pact i)
  | .start, .plain result => startEnded e result
  | .client, .client result => .any fun h : Host => knows { e with view := some h }
      (fun _ => result = Session.clientOfSlot h.slot ∧ (e.late = true → h.slot = .stopped))
      ((lasts_const _).firm _)
  | .isRunning, .running _ => untouched e
  | .shutdown, .plain result =>
    knows e (fun w => w.1.slot = .stopped ∧ (e.late = true → result = .ok ()))
      ((lasts_stopped.and (lasts_const _)).firm e)
  | .handshake k _, .plain result =>
    knows (e.met k result) (fun _ => True) ((lasts_const True).firm _)
  | .farewell _, .plain _ => untouched e
  | .terminate _, .plain _ => untouched e
  | .tool request, .tool result => served e request result
  | _, _ => .fact False

/-- A call that works directly on a client may say anything there. -/
theorem allowed_direct (h : e.deed.client? = some k) (m : Json) : Allowed e k m := by
  obtain ⟨⟨deed, late, again, seat, leaving, won⟩, place, grip, added, ward, greeted, parting, view⟩ := e
  cases deed with
  | handshake c rootUri => exact ⟨rfl, Option.some.inj h⟩
  | farewell c => exact ⟨rfl, trivial⟩
  | terminate c => exact ⟨rfl, trivial⟩
  | _ => cases h

/-- Whoever is to leave a client directly makes it known by being there. -/
theorem direct_of_leaves {w : World} (he : w.2.entries[i]? = some e)
    (hleaves : e.deed.leaves k = true) : Direct k (standings w) :=
  ⟨e.toStanding, List.mem_of_getElem? (getElem?_mapped (·.toStanding) he), hleaves⟩

theorem lasts_direct (k : Nat) :
    Lasts fun w => k < w.1.clients.length ∧ Leaving k w :=
  (lasts_count k).and (lasts_leaving k)

def hasClient : Slot → Bool
  | .running _ => true
  | _ => false

theorem owes_deed (deed : Deed) (h : Blank e) (hdeed : e.deed = deed) :
    Owes (knows e (Present deed) ((lasts_present deed).firm e) : Assertion (pact i)) deed.routine
      (complete e deed) := by
  have hblank (w : World) (hp : (knows e (Present deed) ((lasts_present deed).firm e) :
      Assertion (pact i)).Holds w) : (untouched e : Assertion (pact i)).Holds w := ⟨hp.1, trivial⟩
  cases deed with
  | start =>
    exact Owes.bind (Owes.weaken (owes_start h hdeed) fun w _ => hblank w) fun _ =>
      owes_done fun _ _ hp => hp
  | client =>
    refine Owes.bind (Owes.weaken (owes_lookSlot (f := Session.clientOfSlot)
      (Q := fun result => complete e .client (.client result)) h some (fun _ => .inr rfl)
      fun slot w hshown he => ?_) fun w _ => hblank w) fun _ => owes_done fun _ _ hp => hp
    exact ⟨w.1, he, by rw [hshown.finds], fun hl => hshown.finds.trans (hshown.late hl)⟩
  | isRunning =>
    have hlook := owes_lookSlot (i := i) (Q := fun _ => untouched e)
      (f := hasClient) h (fun _ => none) (fun _ => .inl rfl)
      fun slot w hshown he => ⟨by rw [he, ← h.view], trivial⟩
    exact Owes.bind (Owes.weaken hlook fun w _ => hblank w) fun _ => owes_done fun _ _ hp => hp
  | shutdown =>
    exact Owes.bind (Owes.weaken (owes_sessionShutdown h hdeed) fun w _ => hblank w) fun _ =>
      owes_done fun _ _ hp => hp
  | handshake k rootUri =>
    have hk (w : World) (hp : Present (.handshake k rootUri) w) : k < w.1.clients.length := hp k rfl
    refine Owes.bind (owes_handshake ((lasts_present _).firm e) h.toFree
      (allowed_direct (by rw [hdeed]; rfl)) hk rootUri) fun _ => ?_
    exact owes_done fun _ _ hp => ⟨hp.1, trivial⟩
  | farewell k =>
    have hstart (w : World) (hp : (knows e (Present (.farewell k)) ((lasts_present _).firm e) :
        Assertion (pact i)).Holds w) : k < w.1.clients.length ∧ Leaving k w :=
      ⟨hp.2 k rfl, .inr (direct_of_leaves hp.1 (by rw [hdeed]; exact decide_eq_true rfl))⟩
    refine Owes.bind (Owes.weaken (owes_shutdown ((lasts_direct k).firm e) h.toFree
      (by rw [hdeed]; rfl) h.parting (allowed_direct (by rw [hdeed]; rfl)) (fun _ hp => hp.2)
      fun _ hp => hp.1) fun w _ hp => ⟨hp.1, hstart w hp⟩) fun _ => ?_
    exact owes_done fun _ _ hp => ⟨hp.1, trivial⟩
  | terminate k =>
    have hstart (w : World) (hp : (knows e (Present (.terminate k)) ((lasts_present _).firm e) :
        Assertion (pact i)).Holds w) : k < w.1.clients.length ∧ Leaving k w :=
      ⟨hp.2 k rfl, .inr (direct_of_leaves hp.1 (by rw [hdeed]; exact decide_eq_true rfl))⟩
    have hφ : Firm e fun w => k < w.1.clients.length ∧ Leaving k w := (lasts_direct k).firm e
    refine Owes.bind (Owes.weaken (owes_terminate hφ (hφ.and ((lasts_shutDown k).firm e)) h.toFree
      h.toFree (fun _ hp => hp.1) (fun _ hp => hp.1.1) fun m =>
        owes_markTerminated hφ h.toFree (by rw [hdeed]; rfl) fun _ hp => hp.2)
      fun w _ hp => ⟨hp.1, hstart w hp⟩) fun _ => ?_
    exact owes_done fun _ _ hp => ⟨hp.1, trivial⟩
  | tool request =>
    have hopener : Opener e := ⟨h, by rw [hdeed]; rfl⟩
    exact Owes.bind (Owes.weaken (owes_dispatch hopener request) fun w _ => hblank w) fun _ =>
      owes_done fun _ _ hp => hp

end Office

end CodeBridge
