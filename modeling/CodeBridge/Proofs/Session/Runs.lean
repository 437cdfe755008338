import CodeBridge.Proofs.Client.Around
import CodeBridge.Proofs.Session.Deeds

/-!
# The calls of a session along a run

What holds of all calls after any events, and how what is noted of a call fits its own changes.

* `Fits`      how often a call has taken hold of a document and let go of it;
* `Tracks`    what is noted of a call is so;
* `Good`      what holds of all calls, `good_apply` being the step and `good_run` the run.
-/

namespace CodeBridge

namespace Office

open Pact

/-! ## changes to documents -/

section
variable {h h' : Host} {changes : List (Host × Host)} {k : Nat} {uri : String} {g g' : Grip}

def tookHold (changes : List (Host × Host)) (k : Nat) (uri : String) : Nat :=
  changes.countP (takes k uri)

def letGo (changes : List (Host × Host)) (k : Nat) (uri : String) : Nat :=
  changes.countP (drops k uri)

/-- One for one document, and nothing for all others. -/
def only (k : Nat) (uri : String) (c : Nat) (other : String) : Nat :=
  if c = k ∧ other = uri then 1 else 0

/-- What is noted of a document fits the changes; `h` is the host now. -/
inductive Fits (h : Host) (changes : List (Host × Host)) : Grip → Prop where
  | fresh : tookHold changes = (fun _ _ => 0) → letGo changes = (fun _ _ => 0) →
    Fits h changes .fresh
  | told : tookHold changes = (fun _ _ => 0) → letGo changes = (fun _ _ => 0) →
    Fits h changes .told
  | holds {k : Nat} {uri : String} : tookHold changes = only k uri →
    letGo changes = (fun _ _ => 0) → Fits h changes (.holds k uri)
  | dropped {k : Nat} {uri : String} : tookHold changes = only k uri →
    letGo changes = only k uri → Fits h changes (.released k uri)
  | forgot {k : Nat} {uri : String} : tookHold changes = only k uri →
    letGo changes = (fun _ _ => 0) → (h.clientAt k).lifecycle = .shutDown →
    Fits h changes (.released k uri)

theorem tookHold_concat (change : Host × Host) (c : Nat) (other : String) :
    tookHold (changes ++ [change]) c other =
      tookHold changes c other + if takes c other change = true then 1 else 0 := by
  unfold tookHold
  rw [List.countP_append, List.countP_singleton]

theorem letGo_concat (change : Host × Host) (c : Nat) (other : String) :
    letGo (changes ++ [change]) c other =
      letGo changes c other + if drops c other change = true then 1 else 0 := by
  unfold letGo
  rw [List.countP_append, List.countP_singleton]

theorem Level.counts (hl : Level h h') (changes : List (Host × Host)) :
    tookHold (changes ++ [(h, h')]) = tookHold changes ∧
    letGo (changes ++ [(h, h')]) = letGo changes := by
  constructor
  · funext c other
    have hno : takes c other (h, h') = false :=
      decide_eq_false (Nat.not_lt_of_le (Nat.le_of_eq (hl c other)))
    rw [tookHold_concat, hno]
    rfl
  · funext c other
    have hno : drops c other (h, h') = false :=
      decide_eq_false (Nat.not_lt_of_le (Nat.le_of_eq (hl c other).symm))
    rw [letGo_concat, hno]
    rfl

theorem Raised.takes_eq (hr : Raised k uri h h') (c : Nat) (other : String) :
    takes c other (h, h') = decide (c = k ∧ other = uri) ∧ drops c other (h, h') = false := by
  have hheld := hr c other
  unfold takes drops
  dsimp only
  rw [hheld]
  by_cases hc : c = k ∧ other = uri
  · simp [hc]
  · simp [hc]

theorem Raised.drops_eq (hr : Raised k uri h' h) (c : Nat) (other : String) :
    drops c other (h, h') = decide (c = k ∧ other = uri) ∧ takes c other (h, h') = false :=
  hr.takes_eq c other

theorem Fits.concat (hf : Fits h changes g) (hh : Handles h h' g g')
    (hlife : ∀ k, (h.clientAt k).lifecycle = .shutDown → (h'.clientAt k).lifecycle = .shutDown) :
    Fits h' (changes ++ [(h, h')]) g' := by
  have htake {c : Nat} {u : String} (hr : Raised c u h h') (h0 : tookHold changes = fun _ _ => 0)
      (h1 : letGo changes = fun _ _ => 0) : tookHold (changes ++ [(h, h')]) = only c u ∧
        letGo (changes ++ [(h, h')]) = fun _ _ => 0 := by
    constructor
    · funext j other
      rw [tookHold_concat, (hr.takes_eq j other).1, h0]
      unfold only
      simp
    · funext j other
      rw [letGo_concat, (hr.takes_eq j other).2, h1]
      rfl
  cases hh with
  | same hl =>
    obtain ⟨h1, h2⟩ := hl.counts changes
    cases hf with
    | fresh ht hd => exact .fresh (h1.trans ht) (h2.trans hd)
    | told ht hd => exact .told (h1.trans ht) (h2.trans hd)
    | holds ht hd => exact .holds (h1.trans ht) (h2.trans hd)
    | dropped ht hd => exact .dropped (h1.trans ht) (h2.trans hd)
    | forgot ht hd hleft => exact .forgot (h1.trans ht) (h2.trans hd) (hlife _ hleft)
  | tell hl =>
    obtain ⟨h1, h2⟩ := hl.counts changes
    cases hf with
    | fresh ht hd => exact .told (h1.trans ht) (h2.trans hd)
  | take hg hr =>
    rcases hg with rfl | rfl
    · cases hf with
      | fresh ht hd =>
        obtain ⟨h1, h2⟩ := htake hr ht hd
        exact .holds h1 h2
    · cases hf with
      | told ht hd =>
        obtain ⟨h1, h2⟩ := htake hr ht hd
        exact .holds h1 h2
  | drop hr =>
    cases hf with
    | holds ht hd =>
      refine .dropped ?_ ?_
      · funext j other
        rw [tookHold_concat, (hr.drops_eq j other).2, ht]
        rfl
      · funext j other
        rw [letGo_concat, (hr.drops_eq j other).1, hd]
        unfold only
        simp
  | forget hl hleft =>
    obtain ⟨h1, h2⟩ := hl.counts changes
    cases hf with
    | holds ht hd => exact .forgot (h1.trans ht) (h2.trans hd) hleft

theorem Fits.mono (hf : Fits h changes g)
    (hlife : ∀ k, (h.clientAt k).lifecycle = .shutDown → (h'.clientAt k).lifecycle = .shutDown) :
    Fits h' changes g := by
  cases hf with
  | fresh ht hd => exact .fresh ht hd
  | told ht hd => exact .told ht hd
  | holds ht hd => exact .holds ht hd
  | dropped ht hd => exact .dropped ht hd
  | forgot ht hd hleft => exact .forgot ht hd (hlife _ hleft)

end

/-! ## what is noted of a call -/

/-- What a call may say it may say later. -/
theorem Allowed.noted {h h' : Host} {e e' : Entry} {k : Nat} {m : Json} (ha : Allowed e k m)
    (hn : Noted h h' e e') : Allowed e' k m := by
  obtain ⟨hidles, ha⟩ := ha
  refine ⟨?_, ?_⟩
  · unfold Entry.idles
    rw [hn.deed, hn.late, hn.again]
    exact hidles
  · rw [hn.deed]
    cases hd : e.deed with
    | start =>
      rw [hd] at ha
      rcases hn.ward with hw | ⟨hw, -⟩
      · exact hw.trans ha
      · exact absurd (hw.symm.trans ha) nofun
    | handshake c rootUri =>
      rw [hd] at ha
      exact ha
    | tool request =>
      rw [hd] at ha
      intro hm
      have hgrip := ha hm
      have hh := hn.grip (by rw [hd]; rfl)
      intro hfresh
      rw [hfresh] at hh
      generalize hold : e.grip = grip at hh hgrip
      cases hh with
      | same hl => exact hgrip rfl
    | _ => trivial

structure Tracks (h : Host) (k : Call) (e : Entry) : Prop where
  deed : e.deed = k.deed
  late : e.late = k.late
  again : e.again = k.again
  view : e.view = none ∨ e.view = k.last?
  speech : ∀ change ∈ k.changes, ∀ c, ∀ m ∈ told c change, Allowed e c m
  count : e.idles = true → k.AddsNone
  added : ∀ c, e.added = some c → k.Finds c
  ward : ∀ c, e.ward = some c → k.Finds c
  greeted : ∀ c, e.greeted = some c → ∃ change ∈ k.changes, greets c change = true
  fits : k.deed.isTool = true → Fits h k.changes e.grip
  fresh : k.deed.isTool = false → e.grip = .fresh

theorem Call.Finds.concat {c : Nat} {k : Call} {change : Host × Host} {r : Routine Host Outcome}
    (h : k.Finds c) : Call.Finds c { k with rest := r, changes := k.changes ++ [change] } :=
  h.imp fun _ hc => ⟨List.mem_append_left _ hc.1, hc.2⟩

namespace Tracks
variable {h h' : Host} {k : Call} {e e' : Entry}

theorem move (ht : Tracks h k e) (hn : Noted h h' e e')
    (hlife : ∀ c, (h.clientAt c).lifecycle = .shutDown → (h'.clientAt c).lifecycle = .shutDown)
    (r : Routine Host Outcome) :
    Tracks h' { k with rest := r, changes := k.changes ++ [(h, h')] } e' where
  deed := hn.deed.trans ht.deed
  late := hn.late.trans ht.late
  again := hn.again.trans ht.again
  view := hn.view.imp id fun hv => by
    unfold Call.last?
    rw [hv, List.getLast?_concat]
    rfl
  speech change hmem c m hm := by
    rcases List.mem_append.mp hmem with hmem | hmem
    · exact (ht.speech change hmem c m hm).noted hn
    · rw [List.mem_singleton.mp hmem] at hm
      exact hn.speech c m hm
  count hidles change hmem := by
    have hidles' : e.idles = true := by
      unfold Entry.idles at hidles ⊢
      rwa [hn.deed, hn.late, hn.again] at hidles
    rcases List.mem_append.mp hmem with hmem | hmem
    · exact ht.count hidles' change hmem
    · rw [List.mem_singleton.mp hmem]
      exact hn.count hidles'
  added c hc := by
    rcases hn.added with ha | ⟨c', ha, hadds⟩
    · exact (ht.added c (ha.symm.trans hc)).concat
    · obtain rfl := Option.some.inj (ha.symm.trans hc)
      exact ⟨(h, h'), List.mem_append_right _ (List.mem_singleton_self _), .inr hadds⟩
  ward c hc := by
    rcases hn.ward with hw | ⟨-, c', hw, hfinds⟩
    · exact (ht.ward c (hw.symm.trans hc)).concat
    · obtain rfl := Option.some.inj (hw.symm.trans hc)
      rcases hfinds with hslot | ha
      · exact ⟨(h, h'), List.mem_append_right _ (List.mem_singleton_self _), .inl hslot⟩
      · exact (ht.added c' ha).concat
  greeted c hc := by
    rcases hn.greeted with hg | ⟨c', hg, hgreets⟩
    · obtain ⟨change, hmem, hgreets⟩ := ht.greeted c (hg.symm.trans hc)
      exact ⟨change, List.mem_append_left _ hmem, hgreets⟩
    · obtain rfl := Option.some.inj (hg.symm.trans hc)
      exact ⟨(h, h'), List.mem_append_right _ (List.mem_singleton_self _), hgreets⟩
  fits htool := (ht.fits htool).concat (hn.grip (ht.deed ▸ htool)) hlife
  fresh htool := (hn.still (ht.deed ▸ htool)).trans (ht.fresh htool)

/-- Others have changed something, or the call has moved and changed nothing. -/
theorem stay (ht : Tracks h k e)
    (hlife : ∀ c, (h.clientAt c).lifecycle = .shutDown → (h'.clientAt c).lifecycle = .shutDown)
    (r : Routine Host Outcome) : Tracks h' { k with rest := r } e :=
  { ht with fits := fun htool => (ht.fits htool).mono hlife }

end Tracks

/-! ## what holds of all calls -/

def Call.entry (k : Call) : Entry := { deed := k.deed, late := k.late, again := k.again }

theorem blank_entry (k : Call) : Blank k.entry := ⟨⟨rfl, rfl⟩, rfl, rfl, rfl, rfl, rfl, rfl, rfl⟩

structure Good (o : Office) (g : Notes) : Prop where
  sound : Sound (board o.host) g
  length : g.entries.length = o.calls.length
  tracks : ∀ (i : Nat) k, o.calls[i]? = some k → ∃ e, g.entries[i]? = some e ∧ Tracks o.host k e
  asked : ∀ c, g.asked c = o.total (partings c)
  greeted : ∀ c, o.total (fun change => (greets c change).toNat) ≤
    if (o.host.clientAt c).lifecycle = .uninitialized then 0 else 1
  keeps : ∀ (i : Nat) k, o.calls[i]? = some k →
    k.rest.Keeps (pact i).terms Routine.dropAny
      (fun a w => Sound (board w.1) w.2 ∧ (complete k.entry k.deed a : Assertion (pact i)).Holds w)
      (o.host, g)

theorem total_set {o : Office} {i : Nat} {k k' : Call} {change : Host × Host} {h : Host}
    (f : Host × Host → Nat) (hk : o.calls[i]? = some k)
    (hchanges : k'.changes = k.changes ++ [change]) :
    ({ host := h, calls := o.calls.set i k' } : Office).total f = o.total f + f change := by
  obtain ⟨host, calls⟩ := o
  unfold total
  dsimp only at hk ⊢
  induction calls generalizing i with
  | nil => cases hk
  | cons x xs ih =>
    cases i with
    | zero =>
      obtain rfl := Option.some.inj hk
      simp only [List.set_cons_zero, List.map_cons, List.sum_cons, hchanges, List.map_append,
        List.sum_append, List.map_nil, List.sum_nil]
      omega
    | succ i =>
      have hrest := ih hk
      simp only [List.set_cons_succ, List.map_cons, List.sum_cons]
      omega

theorem total_same {o : Office} {i : Nat} {k : Call} {h : Host} (f : Host × Host → Nat) (k' : Call)
    (hk : o.calls[i]? = some k) (hchanges : k'.changes = k.changes) :
    ({ host := h, calls := o.calls.set i k' } : Office).total f = o.total f := by
  unfold total
  dsimp only
  rw [map_set_same hk (by rw [hchanges])]

theorem total_concat {o : Office} {k : Call} {h : Host} (f : Host × Host → Nat)
    (hchanges : k.changes = []) :
    ({ host := h, calls := o.calls ++ [k] } : Office).total f = o.total f := by
  unfold total
  dsimp only
  rw [List.map_append, List.sum_append, List.map_singleton, hchanges]
  rfl

/-! ## moves of a call -/

section
variable {o : Office} {i elapsed : Nat} {k : Call} {update : Host → Host}
  {next : Host → Routine Host Outcome} {r : Routine Host Outcome}

theorem acts_of_rest (hrest : ∀ update next, k.rest ≠ .step update next) : k.acts = false := by
  unfold Call.acts
  split
  next update next hstep => exact absurd hstep (hrest update next)
  · rfl

theorem go_of_step (hk : o.calls[i]? = some k) (hrest : k.rest = .step update next)
    (elapsed : Nat) :
    o.go i elapsed = { host := update o.host
                       calls := o.calls.set i { k with
                         rest := next o.host, changes := k.changes ++ [(o.host, update o.host)] } } := by
  unfold Office.go
  rw [hk]
  dsimp only
  unfold Call.go Call.acts
  rw [hrest]
  rfl

theorem go_of_stays (hk : o.calls[i]? = some k) (hpoll : k.rest.poll elapsed o.host = (o.host, r))
    (hacts : k.acts = false) :
    o.go i elapsed = { o with calls := o.calls.set i { k with rest := r } } := by
  unfold Office.go
  rw [hk]
  dsimp only
  unfold Call.go
  rw [hpoll, hacts]
  dsimp only
  rw [if_neg Bool.false_ne_true, List.append_nil]

end

theorem calm_happen (host : Host) (k : Nat) (event : Course.Event) :
    Calm host (host.setClient k (event.happen (host.clientAt k))) := by
  have hkept := Course.kept_happen (host.clientAt k) [] event
  exact calm_setClient hkept.lock hkept.openDocs hkept.lifecycle hkept.link.closed

section
variable {o : Office} {g : Notes} (h : Good o g)
include h

theorem Good.call_of {i : Nat} {e : Entry} (he : g.entries[i]? = some e) :
    ∃ k, o.calls[i]? = some k ∧ Tracks o.host k e := by
  have hi : i < o.calls.length := h.length ▸ (List.getElem?_eq_some_iff.mp he).1
  obtain ⟨f, hf, ht⟩ := h.tracks i _ (List.getElem?_eq_getElem hi)
  obtain rfl := Option.some.inj (he.symm.trans hf)
  exact ⟨_, List.getElem?_eq_getElem hi, ht⟩

/-- What a call that has ended has come to. -/
theorem Good.complete {i : Nat} {k : Call} {outcome : Outcome} (hk : o.calls[i]? = some k)
    (hr : k.result? = some outcome) :
    (Office.complete k.entry k.deed outcome : Assertion (pact i)).Holds (o.host, g) := by
  have hdone : k.rest = .done outcome := by
    unfold Call.result? at hr
    split at hr
    next result hrest => rw [hrest, Option.some.inj hr]
    · cases hr
  have hkeeps := h.keeps i k hk
  rw [hdone] at hkeeps
  exact (hkeeps (o.host, g) ((pact i).terms.refl _)).2

/-! ## what happens -/

/-- Something else happens that the calls have not agreed on anything about. -/
theorem good_calm {h' : Host} (hc : Calm o.host h') : Good { o with host := h' } g where
  sound := h.sound.calm hc
  length := h.length
  tracks i k hk := by
    obtain ⟨e, he, ht⟩ := h.tracks i k hk
    exact ⟨e, he, ht.stay (fun c hl => (hc.life c).trans hl) k.rest⟩
  asked := h.asked
  greeted c := by
    rw [hc.life c]
    exact h.greeted c
  keeps i k hk := (h.keeps i k hk).rely fun _ => ⟨h.sound.calm hc, fun _ he => he,
    fun e _ => hc.secure { hc.onward with started := id, direct := fun _ => id, gone := fun _ => id }
      ⟨hc.slot, rfl, id⟩ e⟩

theorem good_stay {i : Nat} {k : Call} {r : Routine Host Outcome} (hk : o.calls[i]? = some k)
    (hkeeps : r.Keeps (pact i).terms Routine.dropAny (fun a w => Sound (board w.1) w.2 ∧
      (Office.complete k.entry k.deed a : Assertion (pact i)).Holds w) (o.host, g)) :
    Good { o with calls := o.calls.set i { k with rest := r } } g where
  sound := h.sound
  length := h.length.trans List.length_set.symm
  tracks j k' hj := by
    rcases Desk.getElem?_set_cases hj with ⟨rfl, rfl⟩ | ⟨-, hj⟩
    · obtain ⟨e, he, ht⟩ := h.tracks i k hk
      exact ⟨e, he, ht.stay (fun _ hl => hl) r⟩
    · exact h.tracks j k' hj
  asked c := by
    rw [total_same (partings c) { k with rest := r } hk rfl]
    exact h.asked c
  greeted c := by
    rw [total_same _ { k with rest := r } hk rfl]
    exact h.greeted c
  keeps j k' hj := by
    rcases Desk.getElem?_set_cases hj with ⟨rfl, rfl⟩ | ⟨-, hj⟩
    · exact hkeeps
    · exact h.keeps j k' hj

/-- A handshake is completed where none has been. -/
theorem Good.greets_step {h' : Host} (ho : Onward o.host h') (c : Nat) :
    o.total (fun change => (greets c change).toNat) + (greets c (o.host, h')).toNat ≤
      if (h'.clientAt c).lifecycle = .uninitialized then 0 else 1 := by
  have hold := h.greeted c
  have hrank := ho.life c
  cases hg : greets c (o.host, h') with
  | true =>
    obtain ⟨hfresh, hmade⟩ := Bool.and_eq_true_iff.mp hg
    rw [if_pos (of_decide_eq_true hfresh)] at hold
    have hmade' : (h'.clientAt c).lifecycle = .initialized := of_decide_eq_true hmade
    rw [if_neg (by rw [hmade']; exact nofun)]
    exact Nat.succ_le_succ hold
  | false =>
    refine hold.trans ?_
    cases hl : (o.host.clientAt c).lifecycle with
    | uninitialized => exact Nat.zero_le _
    | _ =>
      rw [hl] at hrank
      have hbegun : (h'.clientAt c).lifecycle ≠ .uninitialized := fun hu => by
        rw [hu] at hrank
        exact absurd hrank (by decide)
      rw [if_neg hbegun, if_neg nofun]

theorem good_move {i : Nat} {k : Call} {r : Routine Host Outcome} {h' : Host} {g' : Notes}
    (hk : o.calls[i]? = some k) (hsound : Sound (board h') g') (hmay : May i (o.host, g) (h', g'))
    (hkeeps : r.Keeps (pact i).terms Routine.dropAny (fun a w => Sound (board w.1) w.2 ∧
      (Office.complete k.entry k.deed a : Assertion (pact i)).Holds w) (h', g')) :
    Good { host := h'
           calls := o.calls.set i { k with
             rest := r, changes := k.changes ++ [(o.host, h')] } } g' := by
  have hlife (c : Nat) (hl : (o.host.clientAt c).lifecycle = .shutDown) :
      (h'.clientAt c).lifecycle = .shutDown := by
    have hrank := hmay.onward.life c
    dsimp only at hrank
    rw [hl] at hrank
    cases hl' : (h'.clientAt c).lifecycle with
    | shutDown => rfl
    | _ => rw [hl'] at hrank; exact absurd hrank (by decide)
  refine ⟨hsound, hmay.length.trans (h.length.trans List.length_set.symm), fun j k' hj => ?_,
    fun c => ?_, fun c => ?_, fun j k' hj => ?_⟩
  -- the call that moves is in its guarantee, the others in what it leaves them
  · rcases Desk.getElem?_set_cases hj with ⟨rfl, rfl⟩ | ⟨hij, hj⟩
    · obtain ⟨e, he, ht⟩ := h.tracks i k hk
      obtain ⟨e', he', hn⟩ := hmay.own e he
      exact ⟨e', he', ht.move hn hlife r⟩
    · obtain ⟨e, he, ht⟩ := h.tracks j k' hj
      exact ⟨e, (hmay.others j hij.symm).entry e he, ht.stay hlife k'.rest⟩
  · rw [total_set (partings c) hk rfl, ← h.asked c]
    exact hmay.asked c
  · rw [total_set _ hk rfl]
    exact h.greets_step hmay.onward c
  · rcases Desk.getElem?_set_cases hj with ⟨rfl, rfl⟩ | ⟨hij, hj⟩
    · exact hkeeps
    · exact (h.keeps j k' hj).rely fun _ => ⟨hsound, hmay.others j hij.symm⟩

theorem good_go (i elapsed : Nat) :
    ∃ g', Good (o.go i elapsed) g' ∧ Onward o.host (o.go i elapsed).host := by
  cases hk : o.calls[i]? with
  | none =>
    unfold Office.go
    rw [hk]
    exact ⟨g, h, .refl _⟩
  | some k =>
    have hkeeps := h.keeps i k hk
    have hstays (r : Routine Host Outcome) (hpoll : k.rest.poll elapsed o.host = (o.host, r))
        (hacts : k.acts = false) (hr : r.Keeps (pact i).terms Routine.dropAny
          (fun a w => Sound (board w.1) w.2 ∧
            (Office.complete k.entry k.deed a : Assertion (pact i)).Holds w) (o.host, g)) :
        ∃ g', Good (o.go i elapsed) g' ∧ Onward o.host (o.go i elapsed).host := by
      rw [go_of_stays hk hpoll hacts]
      exact ⟨g, good_stay h hk hr, .refl _⟩
    cases hrest : k.rest with
    | step update next =>
      rw [hrest] at hkeeps
      obtain ⟨g', hguar, hnext⟩ := hkeeps o.host g ((pact i).terms.refl _)
      obtain ⟨hsound, hmay⟩ := hguar h.sound
      rw [go_of_step hk hrest elapsed]
      exact ⟨g', good_move h hk hsound hmay hnext, hmay.onward⟩
    | done result =>
      exact hstays (.done result) (by rw [hrest]; rfl) (acts_of_rest (hrest ▸ nofun)) (hrest ▸ hkeeps)
    | pause abandon next =>
      rw [hrest] at hkeeps
      exact hstays (next ()) (by rw [hrest]; rfl) (acts_of_rest (hrest ▸ nofun))
        (hkeeps o.host g ((pact i).terms.refl _)).1
    | wait ready limit abandon next =>
      have hacts : k.acts = false := acts_of_rest (hrest ▸ nofun)
      rw [hrest] at hkeeps
      obtain ⟨hgo, hlate, -⟩ := hkeeps o.host g ((pact i).terms.refl _)
      cases hr : ready o.host with
      | true =>
        exact hstays _ (by rw [hrest]; exact Routine.poll_of_ready hr) hacts (hgo elapsed hr)
      | false =>
        cases he : (Routine.wait ready limit abandon next).expired elapsed o.host with
        | true =>
          obtain ⟨hl, -, hp⟩ := Routine.poll_of_expired he
          exact hstays _ (by rw [hrest]; exact hp) hacts (hlate elapsed g hl hr rfl)
        | false =>
          exact hstays _ (by rw [hrest]; exact Routine.poll_of_neither hr he) hacts hkeeps

end

/-! ## a call begins -/

theorem sound_begin {host : Host} {g : Notes} {e : Entry} (hs : Sound (board host) g) (h : Blank e)
    (hlate : e.late = true → host.slot = .stopped)
    (hagain : e.again = true → Started (standings (host, g))) :
    Sound (board host) { g with entries := g.entries ++ [e] } where
  lines := by
    simp only [List.map_append, List.map_singleton, h.seat, h.place]
    exact hs.lines.concat
  slotted := by
    simp only [List.map_append, List.map_singleton]
    exact hs.slotted.concat hlate hagain h.won
  papers := by
    simp only [List.map_append, List.map_singleton, h.grip]
    exact hs.papers.concat
  asking := by
    simp only [List.map_append, List.map_singleton, h.parting]
    exact hs.asking.concat

/-- A call that begins leaves the others everything. -/
theorem kept_begin {host : Host} {g : Notes} {e : Entry} (hwon : e.won = false) (i : Nat) :
    Kept i (host, g) (host, { g with entries := g.entries ++ [e] }) := by
  have hst : standings (host, { g with entries := g.entries ++ [e] }) =
      standings (host, g) ++ [e.toStanding] := List.map_append
  have hlasting : Lasting (host, g) (host, { g with entries := g.entries ++ [e] }) := by
    refine { Onward.refl host with
      started := fun ⟨s, hs, hw⟩ => ?_, direct := fun k ⟨s, hs, hd⟩ => ?_, gone := fun _ hk => hk }
    · exact ⟨s, hst ▸ List.mem_append_left _ hs, hw⟩
    · exact ⟨s, hst ▸ List.mem_append_left _ hs, hd⟩
  have hslot : SlotKept (host, g) (host, { g with entries := g.entries ++ [e] }) := by
    refine ⟨rfl, rfl, fun ⟨s, hs, hw⟩ => ?_⟩
    rw [hst] at hs
    rcases List.mem_append.mp hs with hs | hs
    · exact ⟨s, hs, hw⟩
    · rw [List.mem_singleton.mp hs, hwon] at hw
      cases hw
  exact ⟨fun _ he => Desk.getElem?_concat_of_some he,
    fun _ _ => ⟨fun _ _ _ hn => ⟨hn, hslot⟩, fun _ _ _ hn => ⟨hn, rfl, rfl⟩, hlasting⟩⟩

section
variable {o : Office} {g : Notes} (h : Good o g)
include h

/-- Whoever has started the session is noted to have done so. -/
theorem Good.started (hst : o.hasStarted = true) : Started (standings (o.host, g)) := by
  obtain ⟨k, hk, hstarted⟩ := List.any_eq_true.mp hst
  obtain ⟨hdeed, hresult⟩ := Bool.and_eq_true_iff.mp hstarted
  obtain ⟨i, hi⟩ := List.getElem?_of_mem hk
  have hend := h.complete hi (of_decide_eq_true hresult)
  rw [of_decide_eq_true hdeed] at hend
  obtain ⟨⟨⟨x, added⟩, left⟩, he, hshows⟩ := hend
  cases x with
  | ready c here =>
    exact ⟨_, List.mem_of_getElem? (getElem?_mapped (·.toStanding) he), rfl⟩
  | stopped => cases hshows.1
  | unmade => obtain ⟨-, fault, hfault, -⟩ := hshows; cases hfault
  | seenOff c => obtain ⟨-, ⟨fault, hfault⟩, -⟩ := hshows; cases hfault

theorem good_begin (deed : Deed) : ∃ g', Good (o.begin deed) g' := by
  unfold Office.begin
  split
  next hthere =>
    let k : Call := { deed := deed, rest := deed.routine, late := o.host.slot = .stopped,
                      again := o.hasStarted }
    have hblank : Blank k.entry := blank_entry k
    have hsound := sound_begin h.sound hblank of_decide_eq_true h.started
    have hlast : (g.entries ++ [k.entry])[o.calls.length]? = some k.entry := by
      rw [← h.length]
      exact List.getElem?_concat_length
    refine ⟨_, hsound, ?_, fun i k' hk => ?_, fun c => ?_, fun c => ?_, fun i k' hk => ?_⟩
    · show (g.entries ++ _).length = (o.calls ++ _).length
      rw [List.length_append, List.length_append, h.length]
      rfl
    · rcases Desk.getElem?_concat hk with hk | ⟨rfl, rfl⟩
      · obtain ⟨e, he, ht⟩ := h.tracks i k' hk
        exact ⟨e, Desk.getElem?_concat_of_some he, ht⟩
      · exact ⟨k.entry, hlast, rfl, rfl, rfl, .inl rfl, fun _ hc => absurd hc List.not_mem_nil,
          fun _ _ hc => absurd hc List.not_mem_nil, fun _ hc => (nomatch hc),
          fun _ hc => (nomatch hc), fun _ hc => (nomatch hc),
          fun _ => .fresh rfl rfl, fun _ => rfl⟩
    · rw [total_concat (partings c) rfl]
      exact h.asked c
    · rw [total_concat _ rfl]
      exact h.greeted c
    · rcases Desk.getElem?_concat hk with hk | ⟨rfl, rfl⟩
      · exact (h.keeps i k' hk).rely fun _ => ⟨hsound, kept_begin hblank.won i⟩
      · refine (owes_deed deed hblank rfl).keeps _ hsound ⟨hlast, fun c hc => ?_⟩
        rw [hc] at hthere
        exact of_decide_eq_true hthere
  · exact ⟨g, h⟩

/-! ## starts that have ended -/

theorem Good.start_ended {i : Nat} {k : Call} {outcome : Outcome} (hk : o.calls[i]? = some k)
    (hdeed : k.deed = .start) (hr : k.result? = some outcome) : ∃ result x added left e,
      outcome = .plain result ∧ k.last? = some left ∧ g.entries[i]? = some e ∧
      e = { Ending.entry { k.entry with added := added } x with won := x.won, view := some left } ∧
      Tracks o.host k e ∧ x.Shows k.entry result left (o.host, g) := by
  have hend := h.complete hk hr
  rw [hdeed] at hend
  cases outcome with
  | plain result =>
    obtain ⟨⟨⟨x, added⟩, left⟩, he, hshows⟩ := hend
    obtain ⟨e, he', ht⟩ := h.tracks i k hk
    obtain rfl := Option.some.inj (he.symm.trans he')
    refine ⟨result, x, added, left, _, rfl, ?_, he, rfl, ht, hshows⟩
    rcases ht.view with hview | hview
    · cases hview
    · exact hview.symm
  | client result => exact hend.elim
  | running answer => exact hend.elim
  | tool result => exact hend.elim

theorem Good.direct {c : Nat} (hd : Direct c (standings (o.host, g))) :
    ∃ k ∈ o.calls, k.deed.leaves c = true := by
  obtain ⟨s, hs, hleaves⟩ := hd
  obtain ⟨e, he, rfl⟩ := List.mem_map.mp hs
  obtain ⟨i, hi⟩ := List.getElem?_of_mem he
  obtain ⟨k, hk, ht⟩ := h.call_of hi
  exact ⟨k, List.mem_of_getElem? hk, ht.deed ▸ hleaves⟩

/-! ## all events -/

theorem good_apply (event : Event) :
    ∃ g', Good (o.apply event) g' ∧ Onward o.host (o.apply event).host := by
  cases event with
  | begin deed =>
    obtain ⟨g', h'⟩ := good_begin h deed
    refine ⟨g', h', ?_⟩
    unfold apply Office.begin
    dsimp only
    split <;> exact .refl _
  | go call elapsed => exact good_go h call elapsed
  | around k event =>
    have hcalm := calm_happen o.host k event
    exact ⟨g, good_calm h hcalm, hcalm.onward⟩
  | files disk =>
    have hcalm : Calm o.host { o.host with disk := disk } :=
      ⟨rfl, rfl, Nat.le_refl _, fun _ => rfl, fun _ => rfl, fun _ => rfl, fun _ => id⟩
    exact ⟨g, good_calm h hcalm, hcalm.onward⟩

theorem good_run (events : List Event) :
    ∃ g', Good (o.run events) g' ∧ Onward o.host (o.run events).host := by
  induction events generalizing o g with
  | nil => exact ⟨g, h, .refl _⟩
  | cons event events ih =>
    obtain ⟨g₁, h₁, ho₁⟩ := good_apply h event
    obtain ⟨g₂, h₂, ho₂⟩ := ih h₁
    exact ⟨g₂, h₂, ho₁.trans ho₂⟩

end

theorem good_start {host : Host} (h : Fresh host) : Good { host := host } {} where
  sound := by
    refine ⟨⟨⟨?_, nofun, nofun⟩, nofun, fun k => ⟨?_, nofun, nofun⟩⟩, ?_, ?_, fun k => ?_⟩
    · show ∀ n ∈ host.slotLock.line.map (·.1), _
      rw [h.slotLock]
      exact nofun
    · show ∀ n ∈ (host.clientAt k).lock.line, _
      rw [h.locks k]
      exact nofun
    · exact ⟨h.slot, fun _ hk => absurd hk List.not_mem_nil,
        fun ⟨_, hs, _⟩ => absurd hs List.not_mem_nil, fun k hl => absurd hl (h.lifecycle k),
        fun _ _ hg => absurd hg List.not_mem_nil, fun _ hs => absurd hs List.not_mem_nil,
        fun _ hs => absurd hs List.not_mem_nil⟩
    · refine ⟨fun k => ?_, fun k => ?_, fun k _ => h.docs k, fun k _ uri => ?_⟩
      · show ∀ doc ∈ (host.clientAt k).openDocs, _
        rw [h.docs k]
        exact nofun
      · show ((host.clientAt k).openDocs.map _).Nodup
        rw [h.docs k]
        exact List.nodup_nil
      · show countIn (host.clientAt k).openDocs uri = 0
        rw [h.docs k]
        rfl
    · exact Nat.zero_le _
  length := rfl
  tracks := nofun
  asked _ := rfl
  greeted _ := Nat.zero_le _
  keeps := nofun

/-- Whatever happens to a host that nobody has used yet, all calls keep to what they agree on. -/
theorem good_reach {host : Host} (h : Fresh host) (events : List Event) :
    ∃ g, Good (({ host := host } : Office).run events) g :=
  (good_run (good_start h) events).imp fun _ hg => hg.1

end Office

end CodeBridge
