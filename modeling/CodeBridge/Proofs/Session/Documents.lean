import CodeBridge.Proofs.Session.Clients

/-!
# What tools do at a client

A tool takes hold of a document, asks the server, and lets go of the document again.

* `owes_takeHold`, `owes_letGo`   with the lock of the client;
* `owes_openDocument`, `owes_closeDocument`   documents;
* `Asks`, `asks_request`, …   questions.
-/

namespace CodeBridge

namespace Office

open Pact
open Course (Names)
open Client (Amends OneMore)

variable {i k n : Nat} {α β : Type} {e : Entry} {φ : World → Prop} {uri : String}

/-! ## who holds what -/

theorem held_setClient {h : Host} {c : Client} (hk : k < h.clients.length) (j : Nat)
    (other : String) : held j other (h.setClient k c) =
      if j = k then (c.holders other).getD 0 else held j other h := by
  unfold held
  rw [clientAt_setClient hk j]
  split <;> rfl

theorem raised_setClient {h : Host} {c : Client} (hk : k < h.clients.length)
    (hmore : OneMore uri (h.clientAt k) c) : Raised k uri h (h.setClient k c) := by
  intro j other
  rw [held_setClient hk]
  by_cases hj : j = k
  · subst hj
    rw [if_pos rfl, hmore other]
    simp only [true_and]
    rfl
  · simp only [hj, if_false, false_and, Nat.add_zero]

theorem setClient_raised {h : Host} {c : Client} (hk : k < h.clients.length)
    (hmore : OneMore uri c (h.clientAt k)) : Raised k uri (h.setClient k c) h := by
  intro j other
  rw [held_setClient hk]
  by_cases hj : j = k
  · subst hj
    rw [if_pos rfl]
    simp only [true_and]
    exact hmore other
  · simp only [hj, if_false, false_and, Nat.add_zero]

theorem Firm.with_grip {grip : Grip} (h : Firm e φ) : Firm { e with grip := grip } φ :=
  h.congr rfl rfl

/-- What is noted of a change to documents that sends nothing. -/
theorem noted_handles {h h' : Host} {grip : Grip} (hh : Hushed h h') (hv : e.view = none)
    (htool : e.deed.isTool = true) (hgrip : Handles h h' e.grip grip) : Noted h h' e { e with grip := grip } where
  deed := rfl
  late := rfl
  again := rfl
  added := .inl rfl
  ward := .inl rfl
  view := .inl hv
  grip _ := hgrip
  still ht := absurd (ht.symm.trans htool) Bool.false_ne_true
  speech c m hm := by
    rw [hh.told c] at hm
    cases hm
  count _ := hh.count
  greeted := .inl rfl

/-- Who has the lock of a client relies on nothing at the client when it changes its documents. -/
theorem secure_amends {w : World} {c : Client} {grip : Grip} (ha : Amends (w.1.clientAt k) c)
    (hfree : Free e) (he : w.2.entries[i]? = some { e with place := some (k, n) }) :
    Secure e w (w.1.setClient k c, w.2.put i { e with place := some (k, n), grip := grip }) := by
  have hrank : (w.1.clientAt k).lifecycle.rank ≤ c.lifecycle.rank := by rw [ha.life]
  exact secure_life hfree.place hrank ha.link he rfl rfl (fun _ hk => hk) fun _ _ _ _ => rfl

section
variable {f : Client → Client} {c : Client}

theorem owes_take (uri : String) (hφ : Firm e φ) (hfree : Free e) (htool : e.deed.isTool = true)
    (hgrip : e.grip = .fresh ∨ e.grip = .told)
    (hc : c.lifecycle = .initialized)
    (hf : ∀ c' : Client, c'.openDocs = c.openDocs → Amends c' (f c') ∧ OneMore uri c' (f c')) :
    Owes (inside k n e (fun w => Sees k n c w ∧ φ w)
        ((firm_sees k n c).and (hφ.with_place hfree.place _)) : Assertion (pact i))
      (Host.onClient k (.change f))
      fun _ => inside k n { e with grip := .holds k uri } φ
        (Firm.with_place (e := { e with grip := .holds k uri }) hφ.with_grip hfree.place _) := by
  refine owes_move (f := fun h : Host => ((), h.setClient k (f (h.clientAt k)))) fun w hs hp => ?_
  obtain ⟨he, hlock, hsees, hφw⟩ := hp
  obtain ⟨ha, hmore⟩ := hf (w.1.clientAt k) hsees.docs
  have hnot (j : Nat) (other : String) : e.grip ≠ .holds j other := by
    rcases hgrip with hgrip | hgrip <;> rw [hgrip] <;> exact nofun
  have hmove := move_documents (f (w.1.clientAt k)) (.holds k uri) hs he hlock.known rfl hlock.holds
    ha.link ha.lock ha.life (fun hl => nomatch (hsees.life.trans hc).symm.trans hl)
    (ha.counts (hs.papers.counts k)) (ha.keys (hs.papers.keys k))
    (fun j other hj => iff_of_false (fun h => hj (Grip.holds.inj h).1.symm) (hnot j other))
    (fun other => ?_)
    (noted_handles (hushed_setClient ha.link) hfree.view htool
      (.take hgrip (raised_setClient hlock.known hmore)))
  · exact ⟨_, hmove, getElem?_put he, hlock.setClient _ ha.lock _,
      hφ _ _ (secure_amends ha hfree he) hφw⟩
  · rw [if_neg (hnot k other), hmore other]
    simp only [Grip.holds.injEq, true_and, eq_comm (a := uri)]
    rfl

theorem owes_drop (uri : String) (hφ : Firm e φ) (hfree : Free e) (htool : e.deed.isTool = true)
    (hgrip : e.grip = .holds k uri)
    (hc : c.openDocs ≠ [])
    (hf : ∀ c' : Client, c'.openDocs = c.openDocs → (∀ doc ∈ c'.openDocs, 1 ≤ doc.2) →
      Amends c' (f c') ∧ OneMore uri (f c') c') :
    Owes (inside k n e (fun w => Sees k n c w ∧ φ w)
        ((firm_sees k n c).and (hφ.with_place hfree.place _)) : Assertion (pact i))
      (Host.onClient k (.change f))
      fun _ => inside k n { e with grip := .released k uri } φ
        (Firm.with_place (e := { e with grip := .released k uri }) hφ.with_grip hfree.place _) := by
  refine owes_move (f := fun h : Host => ((), h.setClient k (f (h.clientAt k)))) fun w hs hp => ?_
  obtain ⟨he, hlock, hsees, hφw⟩ := hp
  obtain ⟨ha, hmore⟩ := hf (w.1.clientAt k) hsees.docs (hs.papers.counts k)
  have hup : (w.1.clientAt k).lifecycle ≠ .shutDown := fun hl =>
    hc (hsees.docs.symm.trans (hs.papers.emptied k hl))
  have hmove := move_documents (f (w.1.clientAt k)) (.released k uri) hs he hlock.known rfl
    hlock.holds ha.link ha.lock ha.life hup (ha.counts (hs.papers.counts k))
    (ha.keys (hs.papers.keys k))
    (fun j other hj => iff_of_false nofun fun h => hj (Grip.holds.inj (hgrip.symm.trans h)).1.symm)
    (fun other => ?_)
    (noted_handles (hushed_setClient ha.link) hfree.view htool
      (hgrip ▸ .drop (setClient_raised hlock.known hmore)))
  · exact ⟨_, hmove, getElem?_put he, hlock.setClient _ ha.lock _,
      hφ _ _ (secure_amends ha hfree he) hφw⟩
  · unfold held
    rw [hgrip, hmore other]
    simp only [Grip.holds.injEq, true_and, eq_comm (a := uri), reduceCtorEq, if_false, Nat.add_zero]

end

/-! ## what a tool says -/

theorem allowed_plain {m : Json} (htool : e.deed.isTool = true) (hm : isDocument m = false) :
    Allowed e k m := by
  obtain ⟨⟨deed, late, again, seat, leaving, won⟩, place, grip, added, ward, greeted, parting, view⟩ := e
  cases deed with
  | tool request => exact ⟨rfl, fun h => absurd (hm.symm.trans h) Bool.false_ne_true⟩
  | _ => cases htool

theorem allowed_document {m : Json} (htool : e.deed.isTool = true) (hgrip : e.grip ≠ .fresh) :
    Allowed e k m := by
  obtain ⟨⟨deed, late, again, seat, leaving, won⟩, place, grip, added, ward, greeted, parting, view⟩ := e
  cases deed with
  | tool request => exact ⟨rfl, fun _ => hgrip⟩
  | _ => cases htool

/-! ## taking hold and letting go -/

/-- How a call is noted that has tried to take hold of a document. -/
def Entry.tried (k : Nat) (uri : String) (e : Entry) : Except ClientError Unit → Entry
  | .ok () => { e with grip := .holds k uri }
  | .error _ => e

theorem free_tried (hfree : Free e) (result : Except ClientError Unit) :
    Free (e.tried k uri result) := by
  cases result <;> exact ⟨hfree.place, hfree.view⟩

theorem firm_tried (hφ : Firm e φ) (result : Except ClientError Unit) :
    Firm (e.tried k uri result) φ := by
  cases result with
  | ok _ => exact hφ.with_grip
  | error fault => exact hφ

/-- The server is told that a document is open, if anybody writes. -/
theorem owes_tell (method : String) (params : Option Json) (hφ : Firm e φ) (hv : e.view = none)
    (htool : e.deed.isTool = true) (hgrip : e.grip = .fresh) (hmethod : method ≠ "shutdown")
    (hk : ∀ w, φ w → k < w.1.clients.length) :
    Owes (knows e φ hφ : Assertion (pact i)) (Host.onClient k (Client.notify method params))
      fun result => knows (if result = .ok () then { e with grip := .told } else e) φ
        (by split; exacts [hφ.with_grip, hφ]) := by
  refine owes_notify (steady_knows hv) (fun result => steady_knows ?_) (fun w _ hp => hp) ?_
  · split <;> exact hv
  · refine owes_enqueue hv (fun w hs he hφw hw => ?_) fun w he hφw => ⟨he, hφw⟩
    have htold (j : Nat) := told_posted (m := Message.notification method params) (hk w hφw) hw j
    have hcalm := calm_posted (Message.notification method params) k w.1
    have hn : Noted w.1 (posted (Message.notification method params) k w.1) e
        { e with grip := .told } := by
      refine ⟨rfl, rfl, rfl, .inl rfl, .inl rfl, .inl hv,
        fun _ => hgrip ▸ .tell (level_of_docs hcalm.docs),
        fun ht => absurd (ht.symm.trans htool) Bool.false_ne_true, fun j m _ => ?_,
        fun _ => length_setClient, .inl rfl⟩
      exact allowed_document (e := { e with grip := .told }) htool nofun
    refine ⟨_, move_calm hs he hcalm hn rfl rfl
      (fun j other _ => iff_of_false nofun (hgrip ▸ nofun)) (.inl rfl) (fun j => ?_),
      getElem?_put he, hφ _ _ ?_ hφw⟩
    · unfold partings
      rw [htold j]
      split
      · refine List.countP_eq_zero.mpr fun m hm => ?_
        rw [List.mem_singleton.mp hm, decide_eq_true_iff]
        exact fun h => hmethod (Course.names_notification.mp h)
      · rfl
    · refine hcalm.secure_put { e with grip := .told } he ?_ ?_ ?_ e
      all_goals rfl

theorem owes_takeHold {text : String} (hφ : Firm e φ) (hfree : Free e)
    (htool : e.deed.isTool = true) (hgrip : e.grip = .fresh) :
    Owes (inside k n e φ (hφ.with_place hfree.place _) : Assertion (pact i))
      (Host.onClient k (Client.takeHold uri text))
      fun result => inside k n (e.tried k uri result) φ
        ((firm_tried hφ result).with_place (free_tried hfree result).place _) := by
  refine Owes.zoom_bind (owes_look hfree.view) fun c => ?_
  cases hc : c.lifecycle with
  | uninitialized => exact owes_done fun w _ hp => ⟨hp.1, hp.2.1, hp.2.2.2⟩
  | shutDown => exact owes_done fun w _ hp => ⟨hp.1, hp.2.1, hp.2.2.2⟩
  | initialized =>
    cases hm : c.holders uri with
    | some m =>
      have htake := owes_take (i := i) (n := n) (k := k)
        (f := Client.setHolders uri (m + 1)) uri hφ hfree htool (.inl hgrip) hc fun c' hdocs => ?_
      · exact htake.zoom_bind fun _ => owes_done fun _ _ hp => hp
      · have hm' := (Client.holders_congr hdocs uri).trans hm
        exact ⟨Client.amends_setHolders (Nat.le_add_left 1 m), Client.oneMore_setHolders hm'⟩
    | none =>
      have htell := owes_tell (i := i) (e := { e with place := some (k, n) })
        "textDocument/didOpen" (some (Params.didOpen uri c.settings.languageId 1 text))
        ((firm_hasLock k n).and ((firm_sees k n c).and (hφ.with_place hfree.place _))) hfree.view
        htool hgrip (by decide) fun w hp => hp.1.known
      refine owes_andThen htell (fun _ => ?_) fun fault w _ hp => ⟨hp.1, hp.2.1, hp.2.2.2⟩
      have htake := owes_take (i := i) (n := n) (k := k)
        (e := { e with grip := .told }) (f := Client.addDocument uri) uri hφ.with_grip ⟨hfree.place, hfree.view⟩ htool (.inr rfl) hc
        fun c' hdocs => ?_
      · exact htake.zoom_bind fun _ => owes_done fun _ _ hp => hp
      · have hm' := (Client.holders_congr hdocs uri).trans hm
        exact ⟨Client.amends_addDocument hm', Client.oneMore_addDocument hm'⟩

/-- Who tries to open a document takes hold of it, or has not told the server anything of it. -/
theorem owes_openDocument {text : String} (hφ : Firm e φ) (hfree : Free e)
    (htool : e.deed.isTool = true) (hgrip : e.grip = .fresh)
    (hk : ∀ w, φ w → k < w.1.clients.length) :
    Owes (knows e φ hφ : Assertion (pact i)) (Host.onClient k (Client.openDocument uri text))
      fun result => knows (e.tried k uri result) φ (firm_tried hφ result) :=
  owes_locked (fun result => e.tried k uri result) hφ (fun result => firm_tried hφ result) hfree
    (fun result => free_tried hfree result) hk fun _ => owes_takeHold hφ hfree htool hgrip

/-- How a call is noted that holds a document and has looked for it. -/
def Entry.found (k : Nat) (uri : String) (e : Entry) : Option Nat → Entry
  | none => { e with grip := .released k uri }
  | some _ => e

theorem free_found (hfree : Free e) (holders : Option Nat) : Free (e.found k uri holders) := by
  cases holders <;> exact ⟨hfree.place, hfree.view⟩

theorem firm_found (hφ : Firm e φ) (holders : Option Nat) : Firm (e.found k uri holders) φ := by
  cases holders with
  | none => exact hφ.with_grip
  | some m => exact hφ

/-- A document that is held is on the list, unless the client has been left. -/
theorem Sound.listed {w : World} (hs : Sound (board w.1) w.2) (he : w.2.entries[i]? = some e)
    (hgrip : e.grip = .holds k uri) (hnone : (w.1.clientAt k).holders uri = none) :
    (w.1.clientAt k).lifecycle = .shutDown := by
  by_contra hl
  have hledger : countIn ((board w.1).docs k) uri =
      (w.2.entries.map (·.grip)).count (.holds k uri) := hs.papers.ledger k hl uri
  have hmem : Grip.holds k uri ∈ w.2.entries.map (·.grip) :=
    hgrip ▸ List.mem_of_getElem? (getElem?_mapped (·.grip) he)
  have hpos := List.count_pos_iff.mpr hmem
  have hzero : countIn ((board w.1).docs k) uri = 0 := congrArg (·.getD 0) hnone
  omega

/-- Who holds a document that is not there any more does so at a client that has been left. -/
theorem move_forget {w : World} (hs : Sound (board w.1) w.2)
    (he : w.2.entries[i]? = some { e with place := some (k, n) }) (hv : e.view = none)
    (htool : e.deed.isTool = true) (hgrip : e.grip = .holds k uri) (hnone : (w.1.clientAt k).holders uri = none) :
    Move i w (w.1.setClient k (w.1.clientAt k),
      w.2.put i { e with place := some (k, n), grip := .released k uri }) := by
  have hleft := hs.listed he hgrip hnone
  have hcalm : Calm w.1 (w.1.setClient k (w.1.clientAt k)) := (says_look (e := e) w.1).toCalm
  have hhush : Hushed w.1 (w.1.setClient k (w.1.clientAt k)) := hushed_setClient rfl
  have hhandles : Handles w.1 (w.1.setClient k (w.1.clientAt k)) e.grip (.released k uri) := by
    rw [hgrip]
    exact .forget (level_of_docs hcalm.docs) ((hcalm.life k).trans hleft)
  refine move_calm hs he hcalm (noted_handles (e := { e with place := some (k, n) }) hhush hv
    htool hhandles) rfl rfl (fun j other hj => iff_of_false nofun fun h => hj ?_) (.inl rfl) hhush.partings
  rw [← (Grip.holds.inj (hgrip.symm.trans h)).1]
  exact hleft

/-- Who holds a document looks for it, and has nothing to do any more if it is not there. -/
theorem owes_lookFor (hφ : Firm e φ) (hfree : Free e) (htool : e.deed.isTool = true)
    (hgrip : e.grip = .holds k uri) :
    Owes (inside k n e φ (hφ.with_place hfree.place _) : Assertion (pact i))
      (Host.onClient k (.read id))
      fun c => inside k n (e.found k uri (c.holders uri)) (fun w => Sees k n c w ∧ φ w)
        (Firm.and (e := { e.found k uri (c.holders uri) with place := some (k, n) })
          (firm_sees k n c)
          ((firm_found hφ (c.holders uri)).with_place (free_found hfree _).place _)) := by
  refine owes_move (f := fun h : Host => (h.clientAt k, h.setClient k (h.clientAt k)))
    fun w hs hp => ?_
  obtain ⟨he, hlock, hφw⟩ := hp
  have hspeaks : Says { e with place := some (k, n) } w.1 (w.1.setClient k (w.1.clientAt k)) :=
    says_look w.1
  have hself := clientAt_setClient_self (c := w.1.clientAt k) hlock.known
  have hholds (g : Notes) :
      HasLock k n (w.1.setClient k (w.1.clientAt k), g) ∧
        Sees k n (w.1.clientAt k) (w.1.setClient k (w.1.clientAt k), g) :=
    have hlock' := hlock.setClient (w.1.clientAt k) rfl g
    ⟨hlock', hlock', congrArg Client.openDocs hself, congrArg Client.lifecycle hself⟩
  have hsecure (grip : Grip) : Secure e w (w.1.setClient k (w.1.clientAt k),
      w.2.put i { e with place := some (k, n), grip := grip }) := by
    refine hspeaks.toCalm.secure_put { e with place := some (k, n), grip := grip } he ?_ ?_ ?_ e
    all_goals rfl
  dsimp only
  cases hm : (w.1.clientAt k).holders uri with
  | none =>
    refine ⟨_, move_forget hs he hfree.view htool hgrip hm, getElem?_put he, (hholds _).1, (hholds _).2,
      hφ _ _ (hsecure (.released k uri)) hφw⟩
  | some m =>
    refine ⟨_, (hspeaks.move hs he hfree.view).1, getElem?_put he, (hholds _).1, (hholds _).2,
      hφ _ _ (hsecure e.grip) hφw⟩

theorem owes_letGo (hφ : Firm e φ) (hfree : Free e) (htool : e.deed.isTool = true)
    (hgrip : e.grip = .holds k uri) :
    Owes (inside k n e φ (hφ.with_place hfree.place _) : Assertion (pact i))
      (Host.onClient k (Client.letGo uri))
      fun _ => inside k n { e with grip := .released k uri } φ
        (Firm.with_place (e := { e with grip := .released k uri }) hφ.with_grip hfree.place _) := by
  refine Owes.zoom_bind (owes_lookFor hφ hfree htool hgrip) fun c => ?_
  have hholders {c' : Client} (hdocs : c'.openDocs = c.openDocs) := Client.holders_congr hdocs uri
  cases hm : c.holders uri with
  | none => exact owes_done fun w _ hp => ⟨hp.1, hp.2.1, hp.2.2.2⟩
  | some m =>
    have hlisted : c.openDocs ≠ [] := fun hd => by
      unfold Client.holders at hm
      rw [hd] at hm
      cases hm
    have hpos {c' : Client} (hdocs : c'.openDocs = c.openDocs)
        (hcounts : ∀ doc ∈ c'.openDocs, 1 ≤ doc.2) : c'.holders uri = some m ∧ 1 ≤ m := by
      have hm' := (hholders hdocs).trans hm
      obtain ⟨doc, hdoc, rfl⟩ := Option.map_eq_some_iff.mp hm'
      exact ⟨hm', hcounts doc (List.mem_of_find?_eq_some hdoc)⟩
    have hdrop {f : Client → Client} (hf : ∀ c' : Client, c'.openDocs = c.openDocs →
        (∀ doc ∈ c'.openDocs, 1 ≤ doc.2) → Amends c' (f c') ∧ OneMore uri (f c') c') :=
      owes_drop (i := i) (n := n) (k := k) uri hφ hfree htool hgrip hlisted hf
    by_cases hmore : m > 1
    · simp only [if_pos hmore]
      have hset := hdrop (f := Client.setHolders uri (m - 1)) fun c' hdocs hcounts =>
        have hm' := hpos hdocs hcounts
        ⟨Client.amends_setHolders (Nat.le_sub_one_of_lt hmore),
          Client.setHolders_oneMore hm'.1 hm'.2⟩
      exact hset.zoom_bind fun _ => owes_done fun _ _ hp => hp
    · simp only [if_neg hmore]
      have hremove := hdrop (f := Client.removeDocument uri) fun c' hdocs hcounts => by
        obtain ⟨hm', hle⟩ := hpos hdocs hcounts
        obtain rfl : m = 1 := Nat.le_antisymm (Nat.le_of_not_lt hmore) hle
        exact ⟨Client.amends_removeDocument, Client.removeDocument_oneMore hm'⟩
      refine hremove.zoom_bind fun _ => ?_
      have hclose : (Client.notify "textDocument/didClose"
          (some (Params.ofDocument uri))).MovesBy (ClientSays fun m => ¬ Names m "shutdown") :=
        says_notify fun h => absurd (Course.names_notification.mp h) (by decide)
      exact owes_clientSays hclose
        (fun m hm => ⟨allowed_document (e := { e with grip := .released k uri }) htool nofun, hm⟩)
        hfree.view

/-- Who holds a document has let go of it in the end, or the client has been left. -/
theorem owes_closeDocument (hφ : Firm e φ) (hfree : Free e) (htool : e.deed.isTool = true)
    (hgrip : e.grip = .holds k uri) (hk : ∀ w, φ w → k < w.1.clients.length) :
    Owes (knows e φ hφ : Assertion (pact i)) (Host.onClient k (Client.closeDocument uri))
      fun _ => knows { e with grip := .released k uri } φ hφ.with_grip :=
  owes_locked (fun _ => { e with grip := .released k uri }) hφ (fun _ => hφ.with_grip) hfree
    (fun _ => ⟨hfree.place, hfree.view⟩) hk fun _ => owes_letGo hφ hfree htool hgrip

/-! ## questions -/

theorem owes_readLifecycle (ψ : Lifecycle → World → Prop) (hφ : Firm e φ)
    (hψ : ∀ life, Firm e (ψ life)) (hfree : Free e) (hk : ∀ w, φ w → k < w.1.clients.length)
    (h : ∀ w, Sound (board w.1) w.2 → φ w → ψ (w.1.clientAt k).lifecycle w) :
    Owes (knows e φ hφ : Assertion (pact i)) (Host.onClient k Client.readLifecycle)
      fun life => knows e (ψ life) (hψ life) := by
  refine owes_locked (fun _ => e) hφ hψ hfree (fun _ => hfree) hk fun n => ?_
  exact owes_learn (f := fun h : Host => ((h.clientAt k).lifecycle, h.setClient k (h.clientAt k)))
    hfree.view says_look fun w hs _ hp => ⟨hp.1, h w hs hp.2⟩

/-- Something that a tool asks a server: it leaves to the tool what it knows. -/
structure Asks (r : Routine Client α) : Prop where
  owes {i k : Nat} {e : Entry} {φ : World → Prop} (hφ : Firm e φ) (hfree : Free e)
    (htool : e.deed.isTool = true) (hk : ∀ w, φ w → k < w.1.clients.length) :
    Owes (knows e φ hφ : Assertion (pact i)) (Host.onClient k r) fun _ => knows e φ hφ

theorem asks_done (a : α) : Asks (.done a) := ⟨fun _ _ _ _ => owes_done fun _ _ hp => hp⟩

theorem Asks.bind {r : Routine Client α} {f : α → Routine Client β} (h : Asks r)
    (hf : ∀ a, Asks (f a)) : Asks (r.bind f) :=
  ⟨fun hφ hfree htool hk => (h.owes hφ hfree htool hk).zoom_bind fun a =>
    (hf a).owes hφ hfree htool hk⟩

theorem Asks.andThen {ε : Type} {r : Routine Client (Except ε α)}
    {next : α → Routine Client (Except ε β)} (h : Asks r) (hnext : ∀ a, Asks (next a)) :
    Asks (Client.andThen r next) := by
  refine h.bind fun result => ?_
  cases result with
  | ok a => exact hnext a
  | error fault => exact asks_done _

def Plain (m : Json) : Prop := isDocument m = false ∧ ¬ Names m "shutdown"

theorem asks_speaking {r : Routine Client α} (h : r.MovesBy (ClientSays Plain)) : Asks r :=
  ⟨fun _ hfree htool _ =>
    owes_clientSays h (fun _ hm => ⟨allowed_plain htool hm.1, hm.2⟩) hfree.view⟩

theorem asks_read (f : Client → α) : Asks (.read f) :=
  asks_speaking (Routine.movesBy_read ClientSays.refl)

theorem plain_request {id : UInt64} {method : String} {params : Option Json}
    (h : method ≠ "textDocument/didOpen" ∧ method ≠ "textDocument/didClose" ∧
      method ≠ "shutdown") : Plain (Message.request id method params) := by
  obtain ⟨hopen, hclose, hshutdown⟩ := h
  refine ⟨?_, fun hm => hshutdown (Course.names_request.mp hm)⟩
  unfold isDocument
  rw [decide_eq_false fun hm => hopen (Course.names_request.mp hm),
    decide_eq_false fun hm => hclose (Course.names_request.mp hm)]
  rfl

theorem asks_request {method : String} {params : Json} {read : Json → Decoded α}
    (h : method ≠ "textDocument/didOpen" ∧ method ≠ "textDocument/didClose" ∧
      method ≠ "shutdown") : Asks (Client.request method params read) := by
  have hlook : Asks Client.readLifecycle := ⟨fun hφ hfree _ hk =>
    owes_readLifecycle (fun _ => _) hφ (fun _ => hφ) hfree hk fun _ _ hp => hp⟩
  refine hlook.bind fun life => ?_
  cases life with
  | uninitialized => exact asks_done _
  | shutDown => exact asks_done _
  | initialized =>
    exact (asks_speaking (says_call fun _ => plain_request h)).andThen fun result => asks_done _

theorem asks_rename (uri : String) (position : Position) (newName : String) :
    Asks (Client.rename uri position newName) := by
  have hgo (prepared : Option PrepareRename) : Asks (Client.andThen
      (Client.request "textDocument/rename" (Params.rename uri position newName) readWorkspaceEdit)
      fun edit => .done (.ok (Client.RenameOutcome.mk prepared edit))) :=
    (asks_request (by decide)).andThen fun edit => asks_done _
  refine (asks_request (by decide)).bind fun prepared => ?_
  cases prepared with
  | ok prepared => exact hgo prepared
  | error fault =>
    dsimp only
    split
    · exact asks_done _
    · exact hgo none

theorem asks_format (uri : String) : Asks (Client.format uri) :=
  (asks_read id).bind fun _ => asks_request (by decide)

theorem asks_awaitDiagnostics (uri : String) (limit : Nat) :
    Asks (Client.awaitDiagnostics uri limit) :=
  asks_speaking ((Routine.movesBy_any _).zoom fun _ _ _ => ⟨rfl, rfl, rfl, Connection.tells_refl _⟩)

end Office

end CodeBridge
