import CodeBridge.Proofs.Concurrency.Ends
import CodeBridge.Proofs.Session.Line

/-!
# Calls that come to an end

When all calls get to move again and again, a call on a session that has been stopped comes to its
end: it waits for its turn only, and whoever has its turn before it goes without waiting for anything.

* `Fair`       all calls get to move again and again;
* `Stands`     where a call is, and how it stands with the slot;
* `moves_on`   a call that can move does so at some time;
* `first_leaves`, `line_clears`   the line gets shorter;
* `quick_ends`   a call that is asked of a stopped session comes to its end.
-/

namespace CodeBridge

namespace Office

/-- What has become of an office after the first `n` events of a schedule. -/
def after (schedule : Nat → Event) (o : Office) (n : Nat) : Office :=
  o.run ((List.range n).map schedule)

/-- Every call gets to move again and again. -/
def Fair (schedule : Nat → Event) : Prop :=
  ∀ i n, ∃ m, n ≤ m ∧ ∃ elapsed, schedule m = .go i elapsed

theorem after_succ (schedule : Nat → Event) (o : Office) (n : Nat) :
    o.after schedule (n + 1) = (o.after schedule n).apply (schedule n) := by
  unfold after run
  rw [List.range_succ, List.map_append, List.foldl_append]
  rfl

theorem after_go {schedule : Nat → Event} {o : Office} {n i elapsed : Nat}
    (hgo : schedule n = .go i elapsed) :
    o.after schedule (n + 1) = (o.after schedule n).go i elapsed := by
  rw [after_succ, hgo]
  rfl

/-! ## what does not come back -/

/-- No ticket comes back, and the session stays stopped. -/
structure Newer (h h' : Host) : Prop where
  issued : h.slotLock.issued ≤ h'.slotLock.issued
  line : ∀ t ∈ h'.slotLock.line, t ∈ h.slotLock.line ∨ h.slotLock.issued ≤ t.1
  stopped : h.slot = .stopped → h'.slot = .stopped

theorem Newer.refl (h : Host) : Newer h h := ⟨Nat.le_refl _, fun _ => .inl, id⟩

theorem Newer.trans {h h' h'' : Host} (hn : Newer h h') (hn' : Newer h' h'') : Newer h h'' where
  issued := hn.issued.trans hn'.issued
  line t ht := by
    rcases hn'.line t ht with ht | ht
    · exact hn.line t ht
    · exact .inr (hn.issued.trans ht)
  stopped hs := hn'.stopped (hn.stopped hs)

theorem newer_of_same {h h' : Host} (hs : SlotSame h h') : Newer h h' := by
  obtain ⟨hlock, hslot⟩ := hs
  refine ⟨?_, fun t ht => .inl ?_, fun hst => hslot.trans hst⟩
  · rw [hlock]
  · rwa [hlock] at ht

theorem newer_of_turn {h h' : Host} {x y : Stand}
    (ht : Routine.Turn Host.slotLock (fun h => h.slot = .stopped) h h' x y)
    (hs : h.slot = .stopped → h'.slot = .stopped) : Newer h h' := by
  have hsame (hlock : h'.slotLock = h.slotLock) : Newer h h' := by
    refine ⟨by rw [hlock], fun t ht => .inl ?_, hs⟩
    rwa [hlock] at ht
  cases ht with
  | apart hlock => exact hsame hlock
  | act hlock => exact hsame hlock
  | engage hlock => exact hsame hlock
  | join b hlock =>
    refine ⟨by rw [hlock]; exact Nat.le_succ _, fun t ht => ?_, hs⟩
    rw [hlock] at ht
    rcases List.mem_append.mp ht with ht | ht
    · exact .inl ht
    · rw [List.mem_singleton.mp ht]
      exact .inr (Nat.le_refl _)
  | leave _ _ hlock =>
    refine ⟨by rw [hlock]; exact Nat.le_refl _, fun t ht => ?_, hs⟩
    rw [hlock] at ht
    exact .inl (List.mem_of_mem_filter ht)

section
variable {o : Office} {xs : List Stand} (h : Attended o xs)
include h

theorem newer_apply (event : Event) : Newer o.host (o.apply event).host := by
  cases event with
  | begin deed =>
    unfold apply Office.begin
    dsimp only
    split <;> exact .refl _
  | around k event => exact newer_of_same ⟨rfl, rfl⟩
  | files disk => exact newer_of_same ⟨rfl, rfl⟩
  | go i elapsed =>
    show Newer o.host (o.go i elapsed).host
    cases hk : o.calls[i]? with
    | none =>
      unfold Office.go
      rw [hk]
      exact .refl _
    | some k =>
      obtain ⟨x, hx⟩ := h.stand_of hk
      cases hrest : k.rest with
      | step update next =>
        obtain ⟨y, hturn, hover, -⟩ := attended_step h hk hx hrest
        rw [go_of_step hk hrest elapsed]
        exact newer_of_turn hturn hover
      | _ =>
        have hno : ∀ update next, k.rest ≠ .step update next := hrest ▸ nofun
        have hpoll := Routine.poll_fst hno elapsed o.host
        rw [go_of_stays hk (Prod.ext hpoll rfl) (acts_of_rest hno)]
        exact .refl _

end

/-! ## where a call is -/

def Stands (o : Office) (i : Nat) (k : Call) (x : Stand) : Prop :=
  ∃ xs, Attended o xs ∧ o.calls[i]? = some k ∧ xs[i]? = some x

namespace Stands
variable {o : Office} {i : Nat} {k : Call} {x : Stand}

theorem heeds (h : Stands o i k x) : Heedful k.Quick (fun _ y => y = .out) k.rest x := by
  obtain ⟨xs, hxs, hk, hx⟩ := h
  exact hxs.heeds i k x hk hx

theorem lined {t : Nat × Bool} (h : Stands o i k x) (ht : x.seat? = some t) :
    t ∈ o.host.slotLock.line := by
  obtain ⟨xs, hxs, hk, hx⟩ := h
  exact hxs.orderly.lined i x t hx ht

theorem stopped (h : Stands o i k x) (hq : k.Quick) : o.host.slot = .stopped := by
  obtain ⟨xs, hxs, hk, -⟩ := h
  exact hxs.late k (List.mem_of_getElem? hk) hq.2

theorem not_busy (h : Stands o i k x) (hs : o.host.slot = .stopped) : x.isBusy = false := by
  obtain ⟨xs, hxs, -, hx⟩ := h
  exact Bool.eq_false_iff.mpr fun hb => hxs.busy i x hx hb hs

theorem holds_first {n : Nat} {b : Bool} (h : Stands o i k x) (hn : x.seat? = some (n, b))
    (hfirst : ∀ t ∈ o.host.slotLock.line, n ≤ t.1) : o.host.slotLock.holds n = true := by
  have hline := h.lined hn
  obtain ⟨xs, hxs, -⟩ := h
  exact hxs.orderly.holds_first hline hfirst

theorem step {update : Host → Host} {next : Host → Routine Host Outcome} (h : Stands o i k x)
    (hrest : k.rest = .step update next) (elapsed : Nat) : ∃ k' y,
      Stands (o.go i elapsed) i k' y ∧ k'.deed = k.deed ∧ k'.late = k.late ∧
        k'.rest = next o.host ∧ (o.go i elapsed).host = update o.host ∧
        Routine.Turn Host.slotLock (fun h => h.slot = .stopped) o.host (update o.host) x y := by
  obtain ⟨xs, hxs, hk, hx⟩ := h
  obtain ⟨y, hturn, -, hstep⟩ := attended_step hxs hk hx hrest
  obtain ⟨h', k', hk', hdeed, hlate, hrest'⟩ := hstep elapsed
  have hi := (List.getElem?_eq_some_iff.mp hx).1
  refine ⟨k', y, ⟨_, h', hk', List.getElem?_set_self hi⟩, hdeed, hlate, hrest', ?_, hturn⟩
  rw [go_of_step hk hrest elapsed]

theorem turn {n : Nat} {b : Bool} {ready : Host → Bool} {limit : Option Nat}
    {abandon : Host → Host} {next : Bool → Nat → Routine Host Outcome}
    (h : Stands o i k (.door n b)) (hrest : k.rest = .wait ready limit abandon next)
    (hholds : o.host.slotLock.holds n = true) (elapsed : Nat) : ∃ k',
      Stands (o.go i elapsed) i k' (.inside n b) ∧ k'.deed = k.deed ∧ k'.late = k.late ∧
        k'.rest = next true elapsed ∧ (o.go i elapsed).host = o.host := by
  have hheeds := h.heeds
  obtain ⟨xs, hxs, hk, hx⟩ := h
  rw [hrest] at hheeds
  rcases hheeds with ⟨m, b', hd, rfl, hready, hnext⟩ | ⟨hidles, -⟩
  · obtain ⟨rfl, rfl⟩ := Stand.door.inj hd
    have hpoll : k.rest.poll elapsed o.host = (o.host, next true elapsed) := by
      rw [hrest]
      exact Routine.poll_of_ready ((hready o.host).trans hholds)
    rw [go_of_stays hk hpoll (acts_of_rest (hrest ▸ nofun))]
    refine ⟨{ k with rest := next true elapsed }, ⟨_, attended_turn hxs hk hx hholds (hnext elapsed), ?_, ?_⟩, rfl, rfl, rfl, rfl⟩
    · exact List.getElem?_set_self (List.getElem?_eq_some_iff.mp hk).1
    · exact List.getElem?_set_self (List.getElem?_eq_some_iff.mp hx).1
  · cases hidles

end Stands

/-- At the door it stays just as long as it is not its turn. -/
theorem stays_door {ready : Host → Bool} {abandon : Host → Host} {n : Nat}
    {next : Bool → Nat → Routine Host Outcome} (hready : ∀ s, ready s = s.slotLock.holds n)
    (elapsed : Nat) (host : Host) :
    (Routine.wait ready none abandon next).stays elapsed host = !host.slotLock.holds n := by
  simp [Routine.stays, Routine.expired, hready]

/-! ## along a schedule -/

section
variable {schedule : Nat → Event} {o : Office} {t i : Nat} {k : Call} {x : Stand}

theorem go_of_staying {elapsed : Nat} (hk : o.calls[i]? = some k)
    (hstays : k.rest.stays elapsed o.host = true) : o.go i elapsed = o := by
  have hno : ∀ update next, k.rest ≠ .step update next := by
    intro update next hrest
    rw [hrest] at hstays
    cases hstays
  rw [go_of_stays hk (Routine.poll_of_stays hstays) (acts_of_rest hno)]
  show { o with calls := o.calls.set i k } = o
  rw [Orderly.set_same hk]

theorem stays_or_moves (h : Stands (o.after schedule t) i k x) (d : Nat) :
    Stands (o.after schedule (t + d)) i k x ∨
      ∃ m, t ≤ m ∧ Stands (o.after schedule m) i k x ∧ ∃ elapsed, schedule m = .go i elapsed ∧
        k.rest.stays elapsed (o.after schedule m).host = false := by
  induction d with
  | zero => exact .inl h
  | succ d ih =>
    rcases ih with ih | ih
    · by_cases hmove : ∃ elapsed, schedule (t + d) = .go i elapsed
      · obtain ⟨elapsed, hgo⟩ := hmove
        cases hstays : k.rest.stays elapsed (o.after schedule (t + d)).host with
        | false => exact .inr ⟨t + d, Nat.le_add_right t d, ih, elapsed, hgo, hstays⟩
        | true =>
          have hsame : o.after schedule (t + d + 1) = o.after schedule (t + d) := by
            obtain ⟨xs, hxs, hk, hx⟩ := ih
            rw [after_succ, hgo]
            exact go_of_staying hk hstays
          rw [← Nat.add_assoc, hsame]
          exact .inl ih
      · obtain ⟨xs, hxs, hk, hx⟩ := ih
        obtain ⟨xs', hxs', hsame⟩ := attended_apply hxs (schedule (t + d))
        obtain ⟨hk', hx'⟩ := hsame i (List.getElem?_eq_some_iff.mp hk).1
          fun elapsed hgo => hmove ⟨elapsed, hgo⟩
        rw [← Nat.add_assoc, after_succ]
        exact .inl ⟨xs', hxs', hk'.trans hk, hx'.trans hx⟩
    · exact .inr ih

/-- A call that will be able to move, if it does not before, does so at some time. -/
theorem moves_on (hfair : Fair schedule) (h : Stands (o.after schedule t) i k x) {m₀ : Nat}
    (hm₀ : t ≤ m₀) (hable : ∀ m elapsed, m₀ ≤ m → Stands (o.after schedule m) i k x →
      k.rest.stays elapsed (o.after schedule m).host = false) :
    ∃ m, t ≤ m ∧ Stands (o.after schedule m) i k x ∧ ∃ elapsed, schedule m = .go i elapsed ∧
      k.rest.stays elapsed (o.after schedule m).host = false := by
  obtain ⟨m, hm, elapsed, hgo⟩ := hfair i m₀
  obtain ⟨d, rfl⟩ := Nat.exists_eq_add_of_le (hm₀.trans hm)
  rcases stays_or_moves h d with hthere | hmoved
  · exact ⟨t + d, Nat.le_add_right t d, hthere, elapsed, hgo, hable _ elapsed hm hthere⟩
  · exact hmoved

end

/-! ## the line gets shorter -/

section
variable {schedule : Nat → Event} {o : Office} {xs : List Stand} (h : Attended o xs)
include h

theorem newer_from (schedule : Nat → Event) {t m : Nat} (hm : t ≤ m) :
    Newer (o.after schedule t).host (o.after schedule m).host := by
  obtain ⟨d, rfl⟩ := Nat.exists_eq_add_of_le hm
  induction d with
  | zero => exact .refl _
  | succ d ih =>
    obtain ⟨ys, hys⟩ := attended_run h ((List.range (t + d)).map schedule)
    rw [← Nat.add_assoc, after_succ]
    exact (ih (Nat.le_add_right t d)).trans (newer_apply hys _)

/-- No ticket comes to stand before one that was the first. -/
theorem first_after {t m n : Nat} (hn : n ≤ (o.after schedule t).host.slotLock.issued)
    (hfirst : ∀ s ∈ (o.after schedule t).host.slotLock.line, n ≤ s.1) (hm : t ≤ m) :
    ∀ s ∈ (o.after schedule m).host.slotLock.line, n ≤ s.1 := by
  intro s hs
  rcases (newer_from h schedule hm).line s hs with hs | hs
  · exact hfirst s hs
  · exact hn.trans hs

variable (hfair : Fair schedule)
include hfair

/-- Who has the first ticket of all leaves the line of a session that has been stopped. -/
theorem first_leaves {n : Nat} {b : Bool} {i : Nat} (r : Routine Host Outcome) {t : Nat} {k : Call}
    {x : Stand} (hstands : Stands (o.after schedule t) i k x)
    (hs : (o.after schedule t).host.slot = .stopped) (hrest : k.rest = r)
    (hn : x.seat? = some (n, b)) (hissued : n < (o.after schedule t).host.slotLock.issued)
    (hfirst : ∀ s ∈ (o.after schedule t).host.slotLock.line, n ≤ s.1) :
    ∃ m, t ≤ m ∧ ∀ s ∈ (o.after schedule m).host.slotLock.line, n + 1 ≤ s.1 := by
  have hnotidle : x.idles = false := by
    have hbusy := hstands.not_busy hs
    cases x with
    | out => cases hn
    | busy m => cases hbusy
    | _ => rfl
  induction r generalizing t k x with
  | done a =>
    have hheeds := hstands.heeds
    rw [hrest] at hheeds
    have hout : x = .out := hheeds
    rw [hout] at hn
    cases hn
  | pause abandon next ih =>
    have hheeds := hstands.heeds
    rw [hrest] at hheeds
    exact absurd (hnotidle.symm.trans hheeds.1) Bool.false_ne_true
  | step update next ih =>
    obtain ⟨m, hm, hthere, elapsed, hgo, -⟩ := moves_on hfair hstands (Nat.le_refl t)
      fun _ _ _ _ => by rw [hrest]; rfl
    obtain ⟨k', y, hstands', -, -, hrest', hhost, hturn⟩ := hthere.step hrest elapsed
    have hnext := after_go (o := o) hgo
    have hm' : t ≤ m + 1 := Nat.le_succ_of_le hm
    have hs' := (newer_from h schedule hm').stopped hs
    have hissued' := hissued.trans_le (newer_from h schedule hm').issued
    have hfirst' := first_after h hissued.le hfirst hm'
    -- as long as it keeps its ticket it goes on to the next move
    have hkeeps (hseat : y.seat? = some (n, b)) (hidle : y.idles = false) :
        ∃ m, t ≤ m ∧ ∀ s ∈ (o.after schedule m).host.slotLock.line, n + 1 ≤ s.1 := by
      rw [← hnext] at hstands'
      obtain ⟨m', hle, hend⟩ := ih _ hstands' hs' hrest' hseat hissued' hfirst' hidle
      exact ⟨m', hm'.trans hle, hend⟩
    cases hturn with
    | apart => exact hkeeps hn hnotidle
    | act => exact hkeeps hn hnotidle
    | engage _ hno => exact absurd ((newer_from h schedule hm).stopped hs) hno
    | join => cases hn
    | leave _ hseat hlock =>
      obtain ⟨rfl, -⟩ := Prod.mk.inj (Option.some.inj (hn.symm.trans hseat))
      refine ⟨m + 1, hm', fun s hmem => ?_⟩
      have hle := hfirst' s hmem
      rw [hnext, hhost, hlock] at hmem
      have hne : s.1 ≠ n := of_decide_eq_true (List.mem_filter.mp hmem).2
      omega
  | wait ready limit abandon next ih =>
    have hheeds := hstands.heeds
    rw [hrest] at hheeds
    rcases hheeds with ⟨n', b', rfl, rfl, hready, -⟩ | ⟨hidles, -⟩
    · obtain ⟨rfl, rfl⟩ := Prod.mk.inj (Option.some.inj hn)
      have hholds (m : Nat) (hm : t ≤ m) (hthere : Stands (o.after schedule m) i k (.door n' b')) :
          (o.after schedule m).host.slotLock.holds n' = true :=
        hthere.holds_first rfl (first_after h hissued.le hfirst hm)
      obtain ⟨m, hm, hthere, elapsed, hgo, -⟩ := moves_on hfair hstands (Nat.le_refl t)
        fun m elapsed hm hthere => by
          rw [hrest, stays_door hready, hholds m hm hthere]
          rfl
      obtain ⟨k', hstands', -, -, hrest', -⟩ := hthere.turn hrest (hholds m hm hthere) elapsed
      have hnext := after_go (o := o) hgo
      have hm' : t ≤ m + 1 := Nat.le_succ_of_le hm
      have hs' := (newer_from h schedule hm').stopped hs
      have hissued' := hissued.trans_le (newer_from h schedule hm').issued
      rw [← hnext] at hstands'
      obtain ⟨m', hle, hend⟩ := ih true elapsed hstands' hs' hrest' rfl hissued'
        (first_after h hissued.le hfirst hm') rfl
      exact ⟨m', hm'.trans hle, hend⟩
    · exact absurd (hnotidle.symm.trans hidles) Bool.false_ne_true

/-- In a session that has been stopped all tickets leave the line. -/
theorem line_clears (n : Nat) {t : Nat} (hs : (o.after schedule t).host.slot = .stopped)
    (hn : n ≤ (o.after schedule t).host.slotLock.issued) :
    ∃ m, t ≤ m ∧ ∀ s ∈ (o.after schedule m).host.slotLock.line, n ≤ s.1 := by
  induction n with
  | zero => exact ⟨t, Nat.le_refl t, fun _ _ => Nat.zero_le _⟩
  | succ n ih =>
    obtain ⟨m, hm, hfirst⟩ := ih (Nat.le_of_succ_le hn)
    have hnewer := newer_from h schedule hm
    by_cases hmem : ∃ b, (n, b) ∈ (o.after schedule m).host.slotLock.line
    · obtain ⟨b, hmem⟩ := hmem
      obtain ⟨ys, hys⟩ := attended_run h ((List.range m).map schedule)
      obtain ⟨i, x, hx, hseat⟩ := hys.orderly.owned _ hmem
      have hi : i < (o.after schedule m).calls.length :=
        hys.length ▸ (List.getElem?_eq_some_iff.mp hx).1
      have hstands : Stands (o.after schedule m) i _ x :=
        ⟨ys, hys, List.getElem?_eq_getElem hi, hx⟩
      obtain ⟨m', hle, hend⟩ := first_leaves h hfair _ hstands (hnewer.stopped hs) rfl hseat
        (Nat.lt_of_lt_of_le hn hnewer.issued) hfirst
      exact ⟨m', hm.trans hle, hend⟩
    · refine ⟨m, hm, fun s hs => ?_⟩
      have hle := hfirst s hs
      have hne : s.1 ≠ n := by
        rintro rfl
        exact hmem ⟨s.2, hs⟩
      omega

/-! ## calls that come after the end -/

theorem quick_goes {i : Nat} (r : Routine Host Outcome) {t : Nat} {k : Call} {x : Stand}
    (hstands : Stands (o.after schedule t) i k x) (hq : k.Quick) (hrest : k.rest = r) :
    ∃ m, t ≤ m ∧ ∃ k', (o.after schedule m).calls[i]? = some k' ∧ k'.deed = k.deed ∧
      k'.late = k.late ∧ k'.ended = true := by
  induction r generalizing t k x with
  | done a =>
    obtain ⟨xs, -, hk, -⟩ := hstands
    refine ⟨t, Nat.le_refl t, k, hk, rfl, rfl, ?_⟩
    unfold Call.ended Call.result?
    rw [hrest]
    rfl
  | pause abandon next ih =>
    have hheeds := hstands.heeds
    rw [hrest] at hheeds
    exact absurd hq hheeds.2.1
  | step update next ih =>
    obtain ⟨m, hm, hthere, elapsed, hgo, -⟩ := moves_on hfair hstands (Nat.le_refl t)
      fun _ _ _ _ => by rw [hrest]; rfl
    obtain ⟨k', y, hstands', hdeed, hlate, hrest', -⟩ := hthere.step hrest elapsed
    have hnext := after_go (o := o) hgo
    rw [← hnext] at hstands'
    have hq' : k'.Quick := ⟨hdeed ▸ hq.1, hlate ▸ hq.2⟩
    obtain ⟨m', hle, k'', hk'', hdeed', hlate', hend⟩ := ih _ hstands' hq' hrest'
    exact ⟨m', by omega, k'', hk'', hdeed'.trans hdeed, hlate'.trans hlate, hend⟩
  | wait ready limit abandon next ih =>
    have hheeds := hstands.heeds
    rw [hrest] at hheeds
    rcases hheeds with ⟨n, b, rfl, rfl, hready, -⟩ | ⟨-, hno, -⟩
    · -- its turn comes when all who came before have gone
      have hlined := hstands.lined rfl
      have hissued : n < (o.after schedule t).host.slotLock.issued := by
        obtain ⟨ys, hys, -⟩ := hstands
        exact hys.orderly.queued.line_lt n (List.mem_map_of_mem hlined)
      obtain ⟨m₀, hm₀, hfirst⟩ := line_clears h hfair n (hstands.stopped hq) hissued.le
      have hissued₀ := hissued.le.trans (newer_from h schedule hm₀).issued
      obtain ⟨m, hm, hthere, elapsed, hgo, hmoves⟩ := moves_on hfair hstands hm₀
        fun m elapsed hm hthere => by
          have hholds := hthere.holds_first rfl (first_after h hissued₀ hfirst hm)
          rw [hrest, stays_door hready, hholds]
          rfl
      have hholds : (o.after schedule m).host.slotLock.holds n = true := by
        rw [hrest, stays_door hready] at hmoves
        rwa [Bool.not_eq_false'] at hmoves
      obtain ⟨k', hstands', hdeed, hlate, hrest', -⟩ := hthere.turn hrest hholds elapsed
      have hnext := after_go (o := o) hgo
      rw [← hnext] at hstands'
      have hq' : k'.Quick := ⟨hdeed ▸ hq.1, hlate ▸ hq.2⟩
      obtain ⟨m', hle, k'', hk'', hdeed', hlate', hend⟩ := ih _ _ hstands' hq' hrest'
      exact ⟨m', by omega, k'', hk'', hdeed'.trans hdeed, hlate'.trans hlate, hend⟩
    · exact absurd hq hno

/-- A call that is asked of a stopped session comes to its end. -/
theorem quick_ends {t i : Nat} {k : Call} (hk : (o.after schedule t).calls[i]? = some k)
    (hq : k.Quick) : ∃ m, t ≤ m ∧ ∃ k', (o.after schedule m).calls[i]? = some k' ∧
      k'.deed = k.deed ∧ k'.late = k.late ∧ k'.ended = true := by
  obtain ⟨ys, hys⟩ := attended_run h ((List.range t).map schedule)
  obtain ⟨x, hx⟩ := hys.stand_of hk
  exact quick_goes h hfair _ ⟨ys, hys, hk, hx⟩ hq rfl

end

end Office

end CodeBridge
