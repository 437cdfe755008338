import CodeBridge.Proofs.Session.Runs
import CodeBridge.Proofs.Session.Turns

/-!
# The line of the slot

Who stands in the line of the slot, along a run.

* `Orderly`    the line, and how each call stands with it;
* `Attended`   the line, the calls, and the turns that they keep to;
* `attended_step`, `attended_turn`, `attended_apply`   it stays so, whatever happens.
-/

namespace CodeBridge

namespace Office

/-! ## a line -/

/-- How each call stands with a lock: who has a ticket is in the line, and the other way round. -/
structure Orderly (lock : SharedLock) (xs : List Stand) : Prop where
  queued : Queued lock.issued (lock.line.map (·.1)) (xs.map (·.seat?.map (·.1)))
  sorted : (lock.line.map (·.1)).Pairwise (· < ·)
  lined : ∀ (i : Nat) x t, xs[i]? = some x → x.seat? = some t → t ∈ lock.line
  owned : ∀ t ∈ lock.line, ∃ (i : Nat) (x : Stand), xs[i]? = some x ∧ x.seat? = some t
  served : ∀ (i : Nat) x t, xs[i]? = some x → x.served = true → x.seat? = some t →
    lock.holds t.1 = true

namespace Orderly
variable {lock : SharedLock} {xs : List Stand} {i : Nat} {x y : Stand} {n : Nat} {b : Bool}

theorem set_same {α : Type} {as : List α} {j : Nat} {a : α} (ha : as[j]? = some a) :
    as.set j a = as := by
  obtain ⟨hj, rfl⟩ := List.getElem?_eq_some_iff.mp ha
  exact List.set_getElem_self hj

theorem map_seat (hx : xs[i]? = some x) {j : Nat} {t : Nat × Bool} (hseat : x.seat? = some t)
    (hj : j = i) : (xs.map (·.seat?.map (·.1)))[j]? = some (some t.1) := by
  rw [hj, List.getElem?_map, hx, Option.map_some, hseat]
  rfl

theorem unique (h : Orderly lock xs) {j : Nat} {b' : Bool} (hx : xs[i]? = some x)
    (hy : xs[j]? = some y) (hn : x.seat? = some (n, b)) (hm : y.seat? = some (n, b')) : i = j :=
  h.queued.unique i j n (map_seat hx hn rfl) (map_seat hy hm rfl)

theorem same_kind (h : Orderly lock xs) {t t' : Nat × Bool} (ht : t ∈ lock.line)
    (ht' : t' ∈ lock.line) (hn : t.1 = t'.1) : t = t' := by
  have hnodup : (lock.line.map (·.1)).Nodup := h.sorted.imp Nat.ne_of_lt
  exact List.inj_on_of_nodup_map hnodup ht ht' hn

theorem alone (h : Orderly lock xs) {j m : Nat} (hx : xs[i]? = some x) (hy : xs[j]? = some y)
    (hn : x.seat? = some (n, false)) (hserved : x.served = true) (hm : y.seat? = some (m, b))
    (hserved' : y.served = true) : i = j := by
  have hline := h.lined i x _ hx hn
  have hkind (t : Nat × Bool) (ht : t ∈ lock.line) (htn : t.1 = n) : t.2 = false := by
    rw [h.same_kind ht hline htn]
  obtain rfl := SharedLock.holds_alone hkind (h.served i x _ hx hserved hn)
    (h.served j y _ hy hserved' hm)
  exact h.unique hx hy hn hm

theorem concat (h : Orderly lock xs) : Orderly lock (xs ++ [.out]) := by
  have hold {j : Nat} {z : Stand} {t : Nat × Bool} (hz : (xs ++ [.out])[j]? = some z)
      (ht : z.seat? = some t) : xs[j]? = some z := by
    rcases Desk.getElem?_concat hz with hz | ⟨-, rfl⟩
    · exact hz
    · cases ht
  refine ⟨?_, h.sorted, fun j z t hz ht => h.lined j z t (hold hz ht) ht, fun t ht => ?_,
    fun j z t hz hserved ht => h.served j z t (hold hz ht) hserved ht⟩
  · rw [List.map_append]
    exact h.queued.concat
  · obtain ⟨j, z, hz, hseat⟩ := h.owned t ht
    exact ⟨j, z, Desk.getElem?_concat_of_some hz, hseat⟩

/-- A call stands otherwise with the lock, and keeps its ticket. -/
theorem put (h : Orderly lock xs) (hx : xs[i]? = some x) (hseat : y.seat? = x.seat?)
    (hserved : ∀ t, y.served = true → y.seat? = some t → lock.holds t.1 = true) :
    Orderly lock (xs.set i y) := by
  have hi := (List.getElem?_eq_some_iff.mp hx).1
  refine ⟨?_, h.sorted, fun j z t hz ht => ?_, fun t ht => ?_, fun j z t hz hsz ht => ?_⟩
  · rw [map_set_same hx (by rw [hseat])]
    exact h.queued
  · rcases Desk.getElem?_set_cases hz with ⟨rfl, rfl⟩ | ⟨-, hz⟩
    · exact h.lined i x t hx (hseat ▸ ht)
    · exact h.lined j z t hz ht
  · obtain ⟨j, z, hz, ht'⟩ := h.owned t ht
    by_cases hij : i = j
    · subst hij
      obtain rfl := Option.some.inj (hx.symm.trans hz)
      exact ⟨i, y, List.getElem?_set_self hi, hseat.trans ht'⟩
    · exact ⟨j, z, (List.getElem?_set_ne hij).trans hz, ht'⟩
  · rcases Desk.getElem?_set_cases hz with ⟨rfl, rfl⟩ | ⟨-, hz⟩
    · exact hserved t hsz ht
    · exact h.served j z t hz hsz ht

theorem join (h : Orderly lock xs) (hx : xs[i]? = some .out) (b : Bool) :
    Orderly (lock.join b).2 (xs.set i (.door lock.issued b)) := by
  have hi := (List.getElem?_eq_some_iff.mp hx).1
  have hline : (lock.join b).2.line = lock.line ++ [(lock.issued, b)] := rfl
  refine ⟨?_, ?_, fun j z t hz ht => ?_, fun t ht => ?_, fun j z t hz hsz ht => ?_⟩
  · have hjoin := h.queued.join i
    rw [← List.map_singleton (f := fun t : Nat × Bool => t.1) (a := (lock.issued, b)),
      ← List.map_append] at hjoin
    rw [List.map_set]
    exact hjoin
  · rw [hline, List.map_append]
    refine List.pairwise_append.mpr ⟨h.sorted, List.pairwise_singleton _ _, fun n hn m hm => ?_⟩
    rw [List.mem_singleton.mp hm]
    exact h.queued.line_lt n hn
  · rw [hline]
    rcases Desk.getElem?_set_cases hz with ⟨rfl, rfl⟩ | ⟨-, hz⟩
    · rw [← Option.some.inj ht]
      exact List.mem_append_right _ (List.mem_singleton_self _)
    · exact List.mem_append_left _ (h.lined j z t hz ht)
  · rw [hline] at ht
    rcases List.mem_append.mp ht with ht | ht
    · obtain ⟨j, z, hz, ht'⟩ := h.owned t ht
      have hij : i ≠ j := by
        rintro rfl
        obtain rfl := Option.some.inj (hx.symm.trans hz)
        cases ht'
      exact ⟨j, z, (List.getElem?_set_ne hij).trans hz, ht'⟩
    · exact ⟨i, _, List.getElem?_set_self hi, by rw [List.mem_singleton.mp ht]; rfl⟩
  · rcases Desk.getElem?_set_cases hz with ⟨rfl, rfl⟩ | ⟨-, hz⟩
    · cases hsz
    · exact SharedLock.holds_join _ _ _ (h.served j z t hz hsz ht)

theorem leave (h : Orderly lock xs) (hx : xs[i]? = some x) (hn : x.seat? = some (n, b)) :
    Orderly (lock.leave n) (xs.set i .out) := by
  have hother {j : Nat} {z : Stand} {t : Nat × Bool} (hij : i ≠ j) (hz : xs[j]? = some z)
      (ht : z.seat? = some t) : t.1 ≠ n := by
    rintro rfl
    exact hij (h.unique hx hz hn ht)
  have hstay {t : Nat × Bool} : t ∈ (lock.leave n).line ↔ t ∈ lock.line ∧ t.1 ≠ n := by
    show t ∈ lock.line.filter _ ↔ _
    rw [List.mem_filter, decide_eq_true_iff]
  refine ⟨?_, ?_, fun j z t hz ht => ?_, fun t ht => ?_, fun j z t hz hsz ht => ?_⟩
  · have hleave := h.queued.leave i fun m => m ≠ n
    rw [List.filter_map] at hleave
    rw [List.map_set]
    exact hleave
  · exact h.sorted.sublist (List.filter_sublist.map _)
  · rcases Desk.getElem?_set_cases hz with ⟨rfl, rfl⟩ | ⟨hij, hz⟩
    · cases ht
    · exact hstay.mpr ⟨h.lined j z t hz ht, hother hij hz ht⟩
  · obtain ⟨hmem, hne⟩ := hstay.mp ht
    obtain ⟨j, z, hz, ht'⟩ := h.owned t hmem
    have hij : i ≠ j := by
      rintro rfl
      obtain rfl := Option.some.inj (hx.symm.trans hz)
      exact hne (congrArg Prod.fst (Option.some.inj (ht'.symm.trans hn)))
    exact ⟨j, z, (List.getElem?_set_ne hij).trans hz, ht'⟩
  · rcases Desk.getElem?_set_cases hz with ⟨rfl, rfl⟩ | ⟨hij, hz⟩
    · cases ht
    · exact SharedLock.holds_leave _ _ _ (hother hij hz ht) (h.served j z t hz hsz ht)

theorem holds_first (h : Orderly lock xs) (hn : (n, b) ∈ lock.line)
    (hfirst : ∀ t ∈ lock.line, n ≤ t.1) : lock.holds n = true := by
  cases hl : lock.line with
  | nil => rw [hl] at hn; cases hn
  | cons t line =>
    have hsorted := h.sorted
    rw [hl] at hn hfirst hsorted
    have ht : t.1 = n := by
      rcases List.mem_cons.mp hn with rfl | hn
      · rfl
      · have hlt : t.1 < n := (List.pairwise_cons.mp hsorted).1 n (List.mem_map_of_mem hn)
        have hle := hfirst t (List.mem_cons_self ..)
        omega
    exact (SharedLock.holds_iff lock n).mpr (.inl ⟨t.2, line, by rw [hl, ← ht]⟩)

end Orderly

/-! ## a line and its calls -/

/-- It was asked of a session that had been stopped. -/
def Call.Quick (k : Call) : Prop := k.deed.ofSession = true ∧ k.late = true

/-- How each call stands with the slot, and that it keeps to the turns. -/
structure Attended (o : Office) (xs : List Stand) : Prop where
  length : xs.length = o.calls.length
  orderly : Orderly o.host.slotLock xs
  heeds : ∀ (i : Nat) k x, o.calls[i]? = some k → xs[i]? = some x →
    Heedful k.Quick (fun _ y => y = .out) k.rest x
  late : ∀ k ∈ o.calls, k.late = true → o.host.slot = .stopped
  busy : ∀ (i : Nat) x, xs[i]? = some x → x.isBusy = true → o.host.slot ≠ .stopped

theorem Stand.served_of_busy {x : Stand} (h : x.isBusy = true) :
    x.served = true ∧ ∃ n, x.seat? = some (n, false) := by
  cases x with
  | busy n => exact ⟨rfl, n, rfl⟩
  | _ => cases h

section
variable {o : Office} {xs : List Stand} (h : Attended o xs) {i : Nat} {k : Call} {x : Stand}
include h

theorem Attended.stand_of (hk : o.calls[i]? = some k) : ∃ x, xs[i]? = some x :=
  ⟨_, List.getElem?_eq_getElem (h.length ▸ (List.getElem?_eq_some_iff.mp hk).1)⟩

theorem attended_step {update : Host → Host} {next : Host → Routine Host Outcome}
    (hk : o.calls[i]? = some k) (hx : xs[i]? = some x) (hrest : k.rest = .step update next) :
    ∃ y, Routine.Turn Host.slotLock (fun h => h.slot = .stopped) o.host (update o.host) x y ∧
      (o.host.slot = .stopped → (update o.host).slot = .stopped) ∧
      ∀ elapsed, Attended (o.go i elapsed) (xs.set i y) ∧ ∃ k',
        (o.go i elapsed).calls[i]? = some k' ∧ k'.deed = k.deed ∧ k'.late = k.late ∧
          k'.rest = next o.host := by
  have hi := (List.getElem?_eq_some_iff.mp hk).1
  have hheeds := h.heeds i k x hk hx
  rw [hrest] at hheeds
  have hmem := List.mem_of_getElem? hk
  obtain ⟨hover, y, hturn, hnext⟩ := hheeds o.host (fun hq => h.late k hmem hq.2)
    fun hb => h.busy i x hx hb
  refine ⟨y, hturn, hover, fun elapsed => ?_⟩
  rw [go_of_step hk hrest elapsed]
  refine ⟨⟨?_, ?_, fun j k' z hj hz => ?_, fun k' hk' hl => ?_, fun j z hz hb => ?_⟩,
    _, List.getElem?_set_self hi, rfl, rfl, rfl⟩
  · rw [List.length_set, List.length_set]
    exact h.length
  -- the lock after the move
  · dsimp only
    cases hturn with
    | apart hlock =>
      rw [hlock, Orderly.set_same hx]
      exact h.orderly
    | act hlock =>
      rw [hlock, Orderly.set_same hx]
      exact h.orderly
    | engage hlock =>
      rw [hlock]
      exact h.orderly.put hx rfl fun t _ ht => h.orderly.served i _ t hx rfl ht
    | join b hlock =>
      rw [hlock]
      exact h.orderly.join hx b
    | leave hserved hseat hlock =>
      rw [hlock]
      exact h.orderly.leave hx hseat
  · rcases Desk.getElem?_set_cases hj with ⟨rfl, rfl⟩ | ⟨hij, hj⟩
    · rw [List.getElem?_set_self (h.length ▸ hi)] at hz
      rw [← Option.some.inj hz]
      exact hnext
    · rw [List.getElem?_set_ne hij] at hz
      exact h.heeds j k' z hj hz
  · rcases List.mem_or_eq_of_mem_set hk' with hk' | rfl
    · exact hover (h.late k' hk' hl)
    · exact hover (h.late k hmem hl)
  -- whoever takes its time has the slot for itself, so nobody else has stopped the session
  · have hback (hs : (update o.host).slot = .stopped → o.host.slot = .stopped) :
        (update o.host).slot ≠ .stopped := by
      rcases Desk.getElem?_set_cases hz with ⟨rfl, rfl⟩ | ⟨hij, hz⟩
      · cases hturn with
        | apart => exact fun hst => h.busy i _ hx hb (hs hst)
        | act => cases hb
        | engage _ hno => exact fun hst => hno (hs hst)
        | join => cases hb
        | leave => cases hb
      · exact fun hst => h.busy j z hz hb (hs hst)
    cases hturn with
    | apart _ hs => exact hback hs
    | engage _ hno hno' => exact hno'
    | join _ _ hs => exact hback hs
    | leave _ _ _ hs => exact hback hs
    | act =>
      obtain ⟨hserved, m, hseat⟩ := Stand.served_of_busy hb
      rw [Orderly.set_same hx] at hz
      obtain rfl := h.orderly.alone hx hz rfl rfl hseat hserved
      obtain rfl := Option.some.inj (hx.symm.trans hz)
      cases hb

/-- A call has gone on or stays, and has changed nothing. -/
theorem attended_put {r : Routine Host Outcome} {y : Stand} (hk : o.calls[i]? = some k)
    (hx : xs[i]? = some x) (hheeds : Heedful k.Quick (fun _ z => z = .out) r y)
    (horderly : Orderly o.host.slotLock (xs.set i y)) (hbusy : y.isBusy = true → x.isBusy = true) :
    Attended { o with calls := o.calls.set i { k with rest := r } } (xs.set i y) := by
  have hi := (List.getElem?_eq_some_iff.mp hk).1
  refine ⟨?_, horderly, fun j k' z hj hz => ?_, fun k' hk' hl => ?_, fun j z hz hb => ?_⟩
  · rw [List.length_set, List.length_set]
    exact h.length
  · rcases Desk.getElem?_set_cases hj with ⟨rfl, rfl⟩ | ⟨hij, hj⟩
    · rw [List.getElem?_set_self (h.length ▸ hi)] at hz
      rw [← Option.some.inj hz]
      exact hheeds
    · rw [List.getElem?_set_ne hij] at hz
      exact h.heeds j k' z hj hz
  · rcases List.mem_or_eq_of_mem_set hk' with hk' | rfl
    · exact h.late k' hk' hl
    · exact h.late k (List.mem_of_getElem? hk) hl
  · rcases Desk.getElem?_set_cases hz with ⟨rfl, rfl⟩ | ⟨hij, hz⟩
    · exact h.busy i x hx (hbusy hb)
    · exact h.busy j z hz hb

/-- Whoever has a ticket that has its turn goes through the door. -/
theorem attended_turn {n : Nat} {b : Bool} {r : Routine Host Outcome} (hk : o.calls[i]? = some k)
    (hx : xs[i]? = some (.door n b)) (hholds : o.host.slotLock.holds n = true)
    (hheeds : Heedful k.Quick (fun _ z => z = .out) r (.inside n b)) :
    Attended { o with calls := o.calls.set i { k with rest := r } } (xs.set i (.inside n b)) := by
  refine attended_put h hk hx hheeds (h.orderly.put hx rfl fun t _ ht => ?_) nofun
  rw [← Option.some.inj ht]
  exact hholds

/-- Nobody else stands otherwise with the slot when a call goes on. -/
theorem attended_go (i elapsed : Nat) : ∃ xs', Attended (o.go i elapsed) xs' ∧
    ∀ j, i ≠ j → (o.go i elapsed).calls[j]? = o.calls[j]? ∧ xs'[j]? = xs[j]? := by
  cases hk : o.calls[i]? with
  | none =>
    unfold Office.go
    rw [hk]
    exact ⟨xs, h, fun _ _ => ⟨rfl, rfl⟩⟩
  | some k =>
    obtain ⟨x, hx⟩ := h.stand_of hk
    have hheeds := h.heeds i k x hk hx
    have hothers {host : Host} {k' : Call} {y : Stand} {j : Nat} (hij : i ≠ j) :
        ({ host := host, calls := o.calls.set i k' } : Office).calls[j]? = o.calls[j]? ∧
          (xs.set i y)[j]? = xs[j]? := ⟨List.getElem?_set_ne hij, List.getElem?_set_ne hij⟩
    have hstays {r : Routine Host Outcome} (hpoll : k.rest.poll elapsed o.host = (o.host, r))
        (hacts : k.acts = false) (hr : Heedful k.Quick (fun _ z => z = .out) r x) :
        ∃ xs', Attended (o.go i elapsed) xs' ∧
          ∀ j, i ≠ j → (o.go i elapsed).calls[j]? = o.calls[j]? ∧ xs'[j]? = xs[j]? := by
      have hsame : Orderly o.host.slotLock (xs.set i x) := by
        rw [Orderly.set_same hx]
        exact h.orderly
      rw [go_of_stays hk hpoll hacts]
      exact ⟨_, attended_put h hk hx hr hsame id, fun _ hij => hothers hij⟩
    cases hrest : k.rest with
    | step update next =>
      obtain ⟨y, -, -, hstep⟩ := attended_step h hk hx hrest
      refine ⟨_, (hstep elapsed).1, fun j hij => ?_⟩
      rw [go_of_step hk hrest elapsed]
      exact hothers hij
    | done result =>
      rw [hrest] at hheeds
      exact hstays (by rw [hrest]; rfl) (acts_of_rest (hrest ▸ nofun)) hheeds
    | pause abandon next =>
      rw [hrest] at hheeds
      exact hstays (by rw [hrest]; rfl) (acts_of_rest (hrest ▸ nofun)) hheeds.2.2
    | wait ready limit abandon next =>
      have hacts : k.acts = false := acts_of_rest (hrest ▸ nofun)
      rw [hrest] at hheeds
      have hstill (hr : ready o.host = false)
          (he : (Routine.wait ready limit abandon next).expired elapsed o.host = false) :=
        hstays (by rw [hrest]; exact Routine.poll_of_neither hr he) hacts hheeds
      rcases hheeds with ⟨n, b, rfl, rfl, hready, hnext⟩ | ⟨-, -, hnext⟩
      · cases hr : ready o.host with
        | true =>
          rw [go_of_stays hk (by rw [hrest]; exact Routine.poll_of_ready hr) hacts]
          exact ⟨_, attended_turn h hk hx (hready o.host ▸ hr) (hnext elapsed),
            fun _ hij => hothers hij⟩
        | false => exact hstill hr rfl
      · cases hr : ready o.host with
        | true =>
          exact hstays (by rw [hrest]; exact Routine.poll_of_ready hr) hacts (hnext true elapsed)
        | false =>
          cases he : (Routine.wait ready limit abandon next).expired elapsed o.host with
          | true =>
            obtain ⟨-, -, hp⟩ := Routine.poll_of_expired he
            exact hstays (by rw [hrest]; exact hp) hacts (hnext false elapsed)
          | false => exact hstill hr he

/-! ## all events -/

theorem attended_begin (deed : Deed) : ∃ xs', Attended (o.begin deed) xs' ∧
    ∀ j < o.calls.length, (o.begin deed).calls[j]? = o.calls[j]? ∧ xs'[j]? = xs[j]? := by
  unfold Office.begin
  split
  · refine ⟨xs ++ [.out], ⟨?_, h.orderly.concat, fun j k z hj hz => ?_, fun k hk hl => ?_,
      fun j z hz hb => ?_⟩, fun j hj => ⟨List.getElem?_append_left hj,
        List.getElem?_append_left (h.length ▸ hj)⟩⟩
    · rw [List.length_append, List.length_append, h.length]
      rfl
    · rcases Desk.getElem?_concat hj with hj | ⟨rfl, rfl⟩
      · have hlt : j < xs.length := h.length ▸ (List.getElem?_eq_some_iff.mp hj).1
        rw [List.getElem?_append_left hlt] at hz
        exact h.heeds j k z hj hz
      · rw [← h.length, List.getElem?_concat_length] at hz
        rw [← Option.some.inj hz]
        exact (visits_deed deed fun hq => hq.1).heeds
    · rcases List.mem_append.mp hk with hk | hk
      · exact h.late k hk hl
      · rw [List.mem_singleton.mp hk] at hl
        exact of_decide_eq_true hl
    · rcases Desk.getElem?_concat hz with hz | ⟨-, rfl⟩
      · exact h.busy j z hz hb
      · cases hb
  · exact ⟨xs, h, fun _ _ => ⟨rfl, rfl⟩⟩

theorem attended_around {host : Host} (hs : SlotSame o.host host) :
    Attended { o with host := host } xs where
  length := h.length
  orderly := by
    show Orderly host.slotLock xs
    rw [hs.1]
    exact h.orderly
  heeds := h.heeds
  late k hk hl := hs.2.trans (h.late k hk hl)
  busy j z hz hb := fun hst => h.busy j z hz hb (hs.2.symm.trans hst)

theorem attended_apply (event : Event) : ∃ xs', Attended (o.apply event) xs' ∧
    ∀ j < o.calls.length, (∀ elapsed, event ≠ .go j elapsed) →
      (o.apply event).calls[j]? = o.calls[j]? ∧ xs'[j]? = xs[j]? := by
  cases event with
  | begin deed =>
    obtain ⟨xs', h', hsame⟩ := attended_begin h deed
    exact ⟨xs', h', fun j hj _ => hsame j hj⟩
  | go i elapsed =>
    obtain ⟨xs', h', hsame⟩ := attended_go h i elapsed
    refine ⟨xs', h', fun j _ hne => hsame j ?_⟩
    rintro rfl
    exact hne elapsed rfl
  | around k event => exact ⟨xs, attended_around h ⟨rfl, rfl⟩, fun _ _ _ => ⟨rfl, rfl⟩⟩
  | files disk => exact ⟨xs, attended_around h ⟨rfl, rfl⟩, fun _ _ _ => ⟨rfl, rfl⟩⟩

theorem attended_run (events : List Event) : ∃ xs', Attended (o.run events) xs' := by
  induction events generalizing o xs with
  | nil => exact ⟨xs, h⟩
  | cons event events ih =>
    obtain ⟨xs', h', -⟩ := attended_apply h event
    exact ih h'

end

theorem attended_start {host : Host} (hline : host.slotLock.line = []) :
    Attended { host := host } [] where
  length := rfl
  orderly := by
    have hno {t : Nat × Bool} (ht : t ∈ host.slotLock.line) : False := by
      rw [hline] at ht
      cases ht
    refine ⟨⟨fun n hn => ?_, nofun, nofun⟩, ?_, nofun, fun t ht => (hno ht).elim, nofun⟩
    · obtain ⟨t, ht, -⟩ := List.mem_map.mp hn
      exact (hno ht).elim
    · show (host.slotLock.line.map _).Pairwise _
      rw [hline]
      exact .nil
  heeds := nofun
  late := nofun
  busy := nofun

end Office

end CodeBridge
