import Mathlib.Algebra.Order.BigOperators.Group.List
import Mathlib.Algebra.Order.Group.Nat
import Mathlib.Data.Nat.Pairing
import CodeBridge.Proofs.Session.Fairness
import CodeBridge.Proofs.Session.Usable

/-!
# The life of a session

A session is idle, has a client, or is stopped for good.  Whatever is asked of it in whatever order,
and whatever the servers do:

* `Lifetime`   what is so at every moment;
* `lifetime_run`   it is so after any events, a stopped session stays stopped, and what is asked of
                   it then comes to its end.
-/

namespace CodeBridge

namespace Office

/-- What a stopped session answers. -/
def Deed.afterEnd? : Deed → Option Outcome
  | .start => some (.plain (.error .shutDown))
  | .client => some (.client (.error .shutDown))
  | .shutdown => some (.plain (.ok ()))
  | _ => none

/-- What is so of a session at every moment. -/
structure Lifetime (o : Office) : Prop where
  /-- the first change of a shutdown is that it joins the line, the second that it takes the slot -/
  taken : ∀ k ∈ o.calls, k.deed = .shutdown → 2 ≤ k.changes.length → o.host.slot = .stopped
  ended : ∀ k ∈ o.calls, k.deed = .shutdown → k.ended = true → o.host.slot = .stopped
  late : ∀ k ∈ o.calls, k.late = true → ∀ outcome, k.deed.afterEnd? = some outcome →
    k.Silent ∧ k.AddsNone ∧ ∀ result, k.result? = some result → result = outcome
  asked : ∀ c, o.total (partings c) ≤ 1
  greeted : ∀ c, o.calls.countP (·.hasGreeted c) ≤ 1
  again : ∀ k ∈ o.calls, k.deed = .start → k.again = true →
    k.Silent ∧ k.AddsNone ∧ ∀ result, k.result? = some (.plain result) →
      result = .ok () ∨
        result = .error .shutDown ∧ ∃ left, k.last? = some left ∧ left.slot = .stopped
  /-- a start that fails has not come to a handshake, or it leaves the session idle and the client
  terminated that it has found in the slot or launched, having told no other client anything -/
  failed : ∀ k ∈ o.calls, k.deed = .start → ∀ fault, k.result? = some (.plain (.error fault)) →
    ∃ left, k.last? = some left ∧
      (k.Silent ∧ (fault.isSetup = true ∨ fault = .shutDown ∧ left.slot = .stopped) ∨
        Session.clientOfSlot left.slot = .error .notInitialized ∧
          ∃ c, k.Finds c ∧ (left.clientAt c).lifecycle = .shutDown ∧
            (left.clientAt c).connection.closed = true ∧
              ∀ change ∈ k.changes, ∀ c', c' ≠ c → told c' change = [])
  client : ∀ k ∈ o.calls, k.deed = .client → ∀ result, k.result? = some (.client result) →
    ∃ left, k.last? = some left ∧ result = Session.clientOfSlot left.slot

/-! ## what is told -/

namespace Tracks
variable {host : Host} {k : Call} {e : Entry} (ht : Tracks host k e)
include ht

theorem told_nil {change : Host × Host} {c : Nat} (hmem : change ∈ k.changes)
    (hno : ∀ m, ¬ Allowed e c m) : told c change = [] := by
  apply List.eq_nil_iff_forall_not_mem.mpr
  intro m hm
  exact hno m (ht.speech change hmem c m hm)

/-- A call that has nothing to do at any server tells none anything. -/
theorem quiet (hidles : k.deed.idles k.late k.again = true) : k.Silent ∧ k.AddsNone := by
  have he : e.idles = true := by
    unfold Entry.idles
    rwa [ht.deed, ht.late, ht.again]
  refine ⟨fun change hmem c => ht.told_nil hmem fun m ha => ?_, ht.count he⟩
  exact absurd (ha.1.symm.trans he) Bool.false_ne_true

/-- A start tells nobody anything but the client that it makes ready. -/
theorem ward_of_told {change : Host × Host} {c : Nat} (hdeed : k.deed = .start)
    (hmem : change ∈ k.changes) (htold : told c change ≠ []) : e.ward = some c := by
  obtain ⟨m, hm⟩ := List.exists_mem_of_ne_nil _ htold
  have hallowed := (ht.speech change hmem c m hm).2
  rw [ht.deed, hdeed] at hallowed
  exact hallowed

end Tracks

/-! ## counting -/

theorem countP_le_sum {α : Type} {p : α → Bool} {f : α → Nat} {as : List α}
    (h : ∀ a ∈ as, p a = true → 1 ≤ f a) : as.countP p ≤ (as.map f).sum := by
  induction as with
  | nil => exact Nat.le_refl 0
  | cons a as ih =>
    have hrest := ih fun b hb => h b (List.mem_cons_of_mem a hb)
    rw [List.countP_cons, List.map_cons, List.sum_cons]
    split
    next hp =>
      have hone := h a (List.mem_cons_self ..) hp
      omega
    · omega

section
variable {o : Office} {g : Notes} (h : Good o g)
include h

/-! ## calls that have ended -/

theorem Good.shutdown_ended {i : Nat} {k : Call} {outcome : Outcome} (hk : o.calls[i]? = some k)
    (hdeed : k.deed = .shutdown) (hr : k.result? = some outcome) :
    o.host.slot = .stopped ∧ (k.late = true → outcome = .plain (.ok ())) := by
  have hend := h.complete hk hr
  rw [hdeed] at hend
  cases outcome with
  | plain result => exact ⟨hend.2.1, fun hl => congrArg _ (hend.2.2 hl)⟩
  | client result => exact hend.elim
  | running answer => exact hend.elim
  | tool result => exact hend.elim

theorem Good.client_ended {i : Nat} {k : Call} {outcome : Outcome} (hk : o.calls[i]? = some k)
    (hdeed : k.deed = .client) (hr : k.result? = some outcome) :
    ∃ left, k.last? = some left ∧ outcome = .client (Session.clientOfSlot left.slot) ∧
      (k.late = true → left.slot = .stopped) := by
  have hend := h.complete hk hr
  rw [hdeed] at hend
  cases outcome with
  | client result =>
    obtain ⟨left, he, rfl, hlate⟩ := hend
    obtain ⟨e, he', ht⟩ := h.tracks i k hk
    obtain rfl := Option.some.inj (he.symm.trans he')
    refine ⟨left, ?_, rfl, hlate⟩
    rcases ht.view with hview | hview
    · cases hview
    · exact hview.symm
  | plain result => exact hend.elim
  | running answer => exact hend.elim
  | tool result => exact hend.elim

theorem Good.greets {k : Call} {c : Nat} (hk : k ∈ o.calls) (hgreeted : k.hasGreeted c = true) :
    1 ≤ (k.changes.map fun change => (Office.greets c change).toNat).sum := by
  obtain ⟨i, hi⟩ := List.getElem?_of_mem hk
  obtain ⟨hok, hdone⟩ := Bool.and_eq_true_iff.mp hgreeted
  have hr : k.result? = some (.plain (.ok ())) := of_decide_eq_true hok
  have hnoted : ∃ e, Tracks o.host k e ∧ e.greeted = some c := by
    cases hdeed : k.deed with
    | handshake client rootUri =>
      rw [hdeed] at hdone
      have hend := h.complete hi hr
      rw [hdeed] at hend
      obtain ⟨he, -⟩ := hend
      obtain ⟨e, he', ht⟩ := h.tracks i k hi
      obtain rfl := Option.some.inj (he.symm.trans he')
      exact ⟨_, ht, congrArg some (of_decide_eq_true hdone)⟩
    | start =>
      rw [hdeed] at hdone
      obtain ⟨result, x, added, left, e, hsame, -, -, rfl, ht, hshows⟩ := h.start_ended hi hdeed hr
      obtain rfl := Outcome.plain.inj hsame
      obtain ⟨change, hmem, htold⟩ := List.any_eq_true.mp hdone
      have hward := ht.ward_of_told hdeed hmem (c := c) fun hnil => by
        rw [hnil] at htold
        cases htold
      refine ⟨_, ht, ?_⟩
      cases x with
      | ready client here =>
        cases here with
        | true => exact hward
        | false => cases hward
      | stopped => cases hshows.1
      | unmade => obtain ⟨-, fault, hfault, -⟩ := hshows; cases hfault
      | seenOff client => obtain ⟨-, ⟨fault, hfault⟩, -⟩ := hshows; cases hfault
    | _ => rw [hdeed] at hdone; cases hdone
  obtain ⟨e, ht, hg⟩ := hnoted
  obtain ⟨change, hmem, hgreets⟩ := ht.greeted c hg
  have hle := List.single_le_sum (fun n _ => Nat.zero_le n) _
    (List.mem_map_of_mem (f := fun change => (Office.greets c change).toNat) hmem)
  rw [hgreets] at hle
  exact hle

theorem Good.start_late {i : Nat} {k : Call} {outcome : Outcome} (hk : o.calls[i]? = some k)
    (hdeed : k.deed = .start) (hlate : k.late = true) (hr : k.result? = some outcome) :
    outcome = .plain (.error .shutDown) := by
  obtain ⟨result, x, added, left, e, rfl, -, -, -, -, hshows⟩ := h.start_ended hk hdeed hr
  have hidles : k.entry.idles = true := by
    unfold Entry.idles
    show k.deed.idles k.late k.again = true
    rw [hdeed, hlate]
    rfl
  cases x with
  | stopped => exact congrArg _ hshows.1
  | ready c here => exact absurd (hshows.2.1.symm.trans hlate) Bool.false_ne_true
  | unmade => exact absurd (hshows.1.symm.trans hidles) Bool.false_ne_true
  | seenOff c => exact absurd (hshows.1.symm.trans hidles) Bool.false_ne_true

theorem Good.start_again {i : Nat} {k : Call} {result : Except ClientError Unit}
    (hk : o.calls[i]? = some k) (hdeed : k.deed = .start) (hagain : k.again = true)
    (hr : k.result? = some (.plain result)) : result = .ok () ∨
      result = .error .shutDown ∧ ∃ left, k.last? = some left ∧ left.slot = .stopped := by
  obtain ⟨result', x, added, left, e, hsame, hlast, -, -, -, hshows⟩ := h.start_ended hk hdeed hr
  obtain rfl := Outcome.plain.inj hsame
  have hidles : k.entry.idles = true := by
    unfold Entry.idles
    show k.deed.idles k.late k.again = true
    rw [hdeed, hagain]
    exact Bool.or_true _
  cases x with
  | stopped => exact .inr ⟨hshows.1, left, hlast, hshows.2⟩
  | ready c here => exact .inl hshows.1
  | unmade => exact absurd (hshows.1.symm.trans hidles) Bool.false_ne_true
  | seenOff c => exact absurd (hshows.1.symm.trans hidles) Bool.false_ne_true

theorem Good.start_failed {i : Nat} {k : Call} {fault : ClientError} (hk : o.calls[i]? = some k)
    (hdeed : k.deed = .start) (hr : k.result? = some (.plain (.error fault))) :
    ∃ left, k.last? = some left ∧
      (k.Silent ∧ (fault.isSetup = true ∨ fault = .shutDown ∧ left.slot = .stopped) ∨
        Session.clientOfSlot left.slot = .error .notInitialized ∧
          ∃ c, k.Finds c ∧ (left.clientAt c).lifecycle = .shutDown ∧
            (left.clientAt c).connection.closed = true ∧
              ∀ change ∈ k.changes, ∀ c', c' ≠ c → told c' change = []) := by
  obtain ⟨result, x, added, left, e, hsame, hlast, -, rfl, ht, hshows⟩ := h.start_ended hk hdeed hr
  obtain rfl := Outcome.plain.inj hsame
  refine ⟨left, hlast, ?_⟩
  -- it has told nobody but the client that it takes care of
  have hsilent (hward : ∀ c, (Ending.entry { k.entry with added := added } x).ward ≠ some c) :
      k.Silent := fun change hmem c => by
    by_contra htold
    exact hward c (ht.ward_of_told hdeed hmem htold)
  cases x with
  | stopped =>
    exact .inl ⟨hsilent nofun, .inr ⟨Except.error.inj hshows.1, hshows.2⟩⟩
  | ready c here => cases hshows.1
  | unmade =>
    obtain ⟨-, fault', hfault, hsetup⟩ := hshows
    obtain rfl := Except.error.inj hfault
    exact .inl ⟨hsilent nofun, .inl hsetup⟩
  | seenOff c =>
    obtain ⟨-, -, hslot, hlife, hclosed⟩ := hshows
    refine .inr ⟨by rw [hslot]; rfl, c, ht.ward c rfl, hlife, hclosed, fun change hmem c' hne => ?_⟩
    by_contra htold
    exact hne (Option.some.inj (ht.ward_of_told hdeed hmem htold)).symm

theorem Good.late_ended {i : Nat} {k : Call} {outcome result : Outcome}
    (hk : o.calls[i]? = some k) (hlate : k.late = true)
    (hend : k.deed.afterEnd? = some outcome) (hr : k.result? = some result) :
    result = outcome := by
  cases hdeed : k.deed with
  | start =>
    rw [hdeed] at hend
    exact (h.start_late hk hdeed hlate hr).trans (Option.some.inj hend)
  | client =>
    rw [hdeed] at hend
    obtain ⟨left, -, rfl, hstopped⟩ := h.client_ended hk hdeed hr
    rw [hstopped hlate]
    exact Option.some.inj hend
  | shutdown =>
    rw [hdeed] at hend
    exact ((h.shutdown_ended hk hdeed hr).2 hlate).trans (Option.some.inj hend)
  | _ => rw [hdeed] at hend; cases hend

end

/-! ## the slot is taken -/

/-- After `n` changes it stops the session. -/
def StopsAfter : Routine Host Outcome → Nat → Prop
  | .done _, _ => False
  | .step update _, 0 => ∀ h, (update h).slot = .stopped
  | .step _ next, n + 1 => ∀ h, StopsAfter (next h) n
  | .wait _ _ _ next, n => ∀ b t, StopsAfter (next b t) n
  | .pause _ next, n => StopsAfter (next ()) n

theorem stops_shutdown : StopsAfter Deed.shutdown.routine 1 := fun _ _ _ _ => rfl

theorem StopsAfter.poll {r : Routine Host Outcome} {n elapsed : Nat} {host : Host}
    (h : StopsAfter r n) (hr : ∀ update next, r ≠ .step update next) :
    StopsAfter (r.poll elapsed host).2 n := by
  cases r with
  | done result => exact h.elim
  | step update next => exact absurd rfl (hr update next)
  | pause abandon next => exact h
  | wait ready limit abandon next =>
    cases hs : (Routine.wait ready limit abandon next).stays elapsed host with
    | true =>
      rw [Routine.poll_of_stays hs]
      exact h
    | false =>
      cases hready : ready host with
      | true =>
        rw [Routine.poll_of_ready hready]
        exact h true elapsed
      | false =>
        have he : (Routine.wait ready limit abandon next).expired elapsed host = true := by
          simpa [Routine.stays, hready] using hs
        rw [(Routine.poll_of_expired he).2.2]
        exact h false elapsed

/-- The session is stopped, or the call will stop it with its second change. -/
def Call.Stops (host : Host) (k : Call) : Prop :=
  host.slot = .stopped ∨ k.changes.length ≤ 1 ∧ StopsAfter k.rest (1 - k.changes.length)

def Stopping (o : Office) : Prop := ∀ k ∈ o.calls, k.deed = .shutdown → k.Stops o.host

section
variable {o : Office} {g : Notes} (h : Good o g) (hstopping : Stopping o)
include h hstopping

theorem stopping_go (i elapsed : Nat) : Stopping (o.go i elapsed) := by
  obtain ⟨-, -, honward⟩ := good_go h i elapsed
  cases hk : o.calls[i]? with
  | none =>
    unfold Office.go
    rw [hk]
    exact hstopping
  | some k =>
    have hmem := List.mem_of_getElem? hk
    cases hrest : k.rest with
    | step update next =>
      rw [go_of_step hk hrest elapsed] at honward ⊢
      intro k' hk' hdeed
      rcases List.mem_or_eq_of_mem_set hk' with hk' | rfl
      · exact (hstopping k' hk' hdeed).imp honward.stopped id
      · rcases hstopping k hmem hdeed with hs | ⟨hle, hstops⟩
        · exact .inl (honward.stopped hs)
        · rw [hrest] at hstops
          unfold Call.Stops
          dsimp only
          rw [List.length_append, List.length_singleton]
          -- it joins the line with its first change and takes the slot with its second
          rcases Nat.le_one_iff_eq_zero_or_eq_one.mp hle with hn | hn
          · rw [hn] at hstops ⊢
            exact .inr ⟨Nat.le_refl 1, hstops o.host⟩
          · rw [hn] at hstops
            exact .inl (hstops o.host)
    | _ =>
      have hno : ∀ update next, k.rest ≠ .step update next := hrest ▸ nofun
      rw [go_of_stays hk (Prod.ext (Routine.poll_fst hno elapsed o.host) rfl) (acts_of_rest hno)]
      intro k' hk' hdeed
      rcases List.mem_or_eq_of_mem_set hk' with hk' | rfl
      · exact hstopping k' hk' hdeed
      · exact (hstopping k hmem hdeed).imp id fun hstops => ⟨hstops.1, hstops.2.poll hno⟩

theorem stopping_apply (event : Event) : Stopping (o.apply event) := by
  cases event with
  | begin deed =>
    unfold apply Office.begin
    dsimp only
    split
    · intro k hk hdeed
      rcases List.mem_append.mp hk with hk | hk
      · exact hstopping k hk hdeed
      · obtain rfl := List.mem_singleton.mp hk
        obtain rfl : deed = .shutdown := hdeed
        exact .inr ⟨Nat.zero_le 1, stops_shutdown⟩
    · exact hstopping
  | go i elapsed => exact stopping_go h hstopping i elapsed
  | around c event => exact hstopping
  | files disk => exact hstopping

theorem stopping_run (events : List Event) : Stopping (o.run events) := by
  induction events generalizing o g with
  | nil => exact hstopping
  | cons event events ih =>
    obtain ⟨g', h', -⟩ := good_apply h event
    exact ih h' (stopping_apply h hstopping event)

/-! ## all of it -/

theorem Good.lifetime : Lifetime o where
  taken k hk hdeed htwo := by
    rcases hstopping k hk hdeed with hs | ⟨hle, -⟩
    · exact hs
    · exact absurd htwo (Nat.not_le_of_lt (Nat.lt_succ_of_le hle))
  ended k hk hdeed hended := by
    obtain ⟨i, hi⟩ := List.getElem?_of_mem hk
    obtain ⟨outcome, hr⟩ := Option.isSome_iff_exists.mp hended
    exact (h.shutdown_ended hi hdeed hr).1
  late k hk hlate outcome hend := by
    obtain ⟨i, hi⟩ := List.getElem?_of_mem hk
    obtain ⟨e, -, ht⟩ := h.tracks i k hi
    have hidles : k.deed.idles k.late k.again = true := by
      rw [hlate]
      cases hdeed : k.deed with
      | start => rfl
      | client => rfl
      | shutdown => rfl
      | _ => rw [hdeed] at hend; cases hend
    exact ⟨(ht.quiet hidles).1, (ht.quiet hidles).2, fun result hr => h.late_ended hi hlate hend hr⟩
  asked c := by
    have hasking := h.sound.asking c
    rw [h.asked c] at hasking
    refine ((Nat.le_add_right _ _).trans hasking).trans ?_
    split
    · exact Nat.le_refl 1
    · exact Nat.zero_le 1
  greeted c := by
    have hle := countP_le_sum (p := fun k : Call => k.hasGreeted c) fun k hk => h.greets hk
    refine (hle.trans (h.greeted c)).trans ?_
    split
    · exact Nat.zero_le 1
    · exact Nat.le_refl 1
  again k hk hdeed hagain := by
    obtain ⟨i, hi⟩ := List.getElem?_of_mem hk
    obtain ⟨e, -, ht⟩ := h.tracks i k hi
    have hidles : k.deed.idles k.late k.again = true := by
      rw [hdeed, hagain]
      exact Bool.or_true _
    exact ⟨(ht.quiet hidles).1, (ht.quiet hidles).2, fun result => h.start_again hi hdeed hagain⟩
  failed k hk hdeed fault hr := by
    obtain ⟨i, hi⟩ := List.getElem?_of_mem hk
    exact h.start_failed hi hdeed hr
  client k hk hdeed result hr := by
    obtain ⟨i, hi⟩ := List.getElem?_of_mem hk
    obtain ⟨left, hlast, hsame, -⟩ := h.client_ended hi hdeed hr
    exact ⟨left, hlast, Outcome.client.inj hsame⟩

end

theorem lifetime_reach {host : Host} (hfresh : Fresh host) (events : List Event) :
    Lifetime (({ host := host } : Office).run events) := by
  obtain ⟨g, hgood⟩ := good_reach hfresh events
  exact hgood.lifetime (stopping_run (good_start hfresh) (fun _ hk => absurd hk List.not_mem_nil) events)

theorem ofSession_of_afterEnd {deed : Deed} {outcome : Outcome}
    (h : deed.afterEnd? = some outcome) : deed.ofSession = true := by
  cases deed with
  | start => rfl
  | client => rfl
  | shutdown => rfl
  | _ => cases h

/-- Whatever is asked of a session and of its clients, in whatever order and interleaving, and
whatever the servers do: everything that `Lifetime` says is so at every moment, a session that has
been stopped stays stopped, and what is asked of it then comes to its end when all calls get to move
again and again. -/
theorem lifetime_run {host : Host} (hfresh : Fresh host) :
    (∀ events, Lifetime (({ host := host } : Office).run events)) ∧
    (∀ events more, (({ host := host } : Office).run events).host.slot = .stopped →
      (({ host := host } : Office).run (events ++ more)).host.slot = .stopped) ∧
    ∀ schedule, Fair schedule → ∀ (t i : Nat) (k : Call) (outcome : Outcome),
      (({ host := host } : Office).after schedule t).calls[i]? = some k → k.late = true →
        k.deed.afterEnd? = some outcome → ∃ m, t ≤ m ∧ ∃ k' : Call,
          (({ host := host } : Office).after schedule m).calls[i]? = some k' ∧
            k'.deed = k.deed ∧ k'.result? = some outcome := by
  refine ⟨lifetime_reach hfresh, fun events more hs => ?_,
    fun schedule hfair t i k outcome hk hlate hend => ?_⟩
  · obtain ⟨g, hgood⟩ := good_reach hfresh events
    obtain ⟨g', -, honward⟩ := good_run hgood more
    unfold run at hs honward ⊢
    rw [List.foldl_append]
    exact honward.stopped hs
  · obtain ⟨m, hm, k', hk', hdeed, hlate', hended⟩ := quick_ends
      (attended_start hfresh.slotLock) hfair hk ⟨ofSession_of_afterEnd hend, hlate⟩
    obtain ⟨result, hr⟩ := Option.isSome_iff_exists.mp hended
    have hlife := lifetime_reach hfresh ((List.range m).map schedule)
    obtain ⟨-, -, hsame⟩ := hlife.late k' (List.mem_of_getElem? hk') (hlate'.trans hlate) outcome
      (hdeed ▸ hend)
    exact ⟨m, hm, k', hk', hdeed, hr.trans (congrArg some (hsame result hr))⟩

/-- Some events, and then all calls again and again. -/
def onward (events : List Event) (n : Nat) : Event := events[n]?.getD (.go n.unpair.1 0)

theorem fair_onward (events : List Event) : Fair (onward events) := fun i n => by
  refine ⟨Nat.pair i (n + events.length), (Nat.le_add_right n _).trans (Nat.right_le_pair i _), 0, ?_⟩
  have hover : events.length ≤ Nat.pair i (n + events.length) :=
    (Nat.le_add_left _ n).trans (Nat.right_le_pair i _)
  unfold onward
  rw [List.getElem?_eq_none hover, Nat.unpair_pair]
  rfl

/-- The session is started, then stopped, and then to be started again. -/
def restarting : List Event := greeting ++ .begin .shutdown :: moves 10 1 ++ [.begin .start]

theorem restarting_lifetime :
    let office := ({ host := given } : Office).after (onward restarting)
    Fresh given ∧ Lifetime (({ host := given } : Office).run restarting) ∧
      (({ host := given } : Office).run restarting).host.slot = .stopped ∧
      (({ host := given } : Office).run (restarting ++ moves 10 2)).host.slot = .stopped ∧
      Fair (onward restarting) ∧
      ∃ k, (office restarting.length).calls[2]? = some k ∧ k.late = true ∧ k.deed = .start ∧
        k.result? = none ∧ ∃ m k', (office m).calls[2]? = some k' ∧
          k'.result? = some (.plain (.error .shutDown)) := by
  intro office
  obtain ⟨hlife, hstays, hends⟩ := lifetime_run fresh_given
  have hstopped : (({ host := given } : Office).run restarting).host.slot = .stopped := by
    decide +kernel
  have hsome : ((office restarting.length).calls[2]?.any fun k =>
      k.late && k.deed = .start && k.result? = none) = true := by decide +kernel
  obtain ⟨k, hk, hall⟩ := (Option.any_eq_true _ _).mp hsome
  obtain ⟨hboth, hnone⟩ := Bool.and_eq_true_iff.mp hall
  obtain ⟨hlate, hstart⟩ := Bool.and_eq_true_iff.mp hboth
  have hdeed : k.deed = .start := of_decide_eq_true hstart
  obtain ⟨m, -, k', hk', -, hr⟩ := hends (onward restarting) (fair_onward restarting)
    restarting.length 2 k (.plain (.error .shutDown)) hk hlate (by rw [hdeed]; rfl)
  exact ⟨fresh_given, hlife restarting, hstopped, hstays restarting (moves 10 2) hstopped,
    fair_onward restarting, k, hk, hlate, hdeed, of_decide_eq_true hnone, m, k', hk', hr⟩

end Office

end CodeBridge
