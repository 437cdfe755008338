import CodeBridge.Proofs.Connection.Table

/-!
# An answer reaches the call that asked for it

However the steps of calls, of the reader and the writer and of the server are interleaved, a call
ends in the first answer that came for it, and leaves nothing in the table of pending calls.

* `Justifies`   what has been noted of a call accounts for its result;
* `Linked`      while the number of a call is in the table nothing has been heard of it, and the
                answer that is kept for it is the first that came;
* `Relies`      what a call may rely on between two of its moves;
* `keeps_post`, `keeps_await`, `keeps_exchange`   what the parts of a call keep to;
* `Sound`       what holds of all traffic, `sound_apply` being the step and `sound_run` the run.
-/

namespace CodeBridge

open Connection

def History.Justifies (method : String) (h : History) : Except ClientError Json → Prop
  | .ok value => ∃ body rest, h.heard = ⟨body, true⟩ :: rest ∧ Answer.ofBody body = .result value
  | .error (.server m code message) => m = method ∧
      ∃ body rest, h.heard = ⟨body, true⟩ :: rest ∧ Answer.ofBody body = .refused ⟨code, message⟩
  | .error (.timeout ..) => h.late = some []
  | .error .connectionClosed => True
  | .error _ => False

/-! ## what a call may rely on -/

/-- The table, the answers and what has been heard of a call agree. -/
structure Linked (id : UInt64) (w : Connection × History) : Prop where
  waiting : id ∈ w.1.pending → w.2.heard = [] ∧ w.1.answer? id = none
  answered : ∀ answer, w.1.answer? id = some answer →
    ∃ body rest, w.2.heard = ⟨body, true⟩ :: rest ∧ Answer.ofBody body = answer

structure Relies (id : UInt64) (w w' : Connection × History) : Prop where
  linked : Linked id w → Linked id w'
  gone : id ∉ w.1.pending → id ∉ w'.1.pending
  heard : ∃ more, w'.2.heard = w.2.heard ++ more
  late : w'.2.late = w.2.late

namespace Relies
variable {id : UInt64}

theorem refl (w : Connection × History) : Relies id w w :=
  ⟨fun h => h, fun h => h, ⟨[], (List.append_nil _).symm⟩, rfl⟩

theorem trans {u v w : Connection × History} (h : Relies id u v) (h' : Relies id v w) :
    Relies id u w where
  linked hl := h'.linked (h.linked hl)
  gone hg := h'.gone (h.gone hg)
  heard := by
    obtain ⟨more, e⟩ := h.heard
    obtain ⟨more', e'⟩ := h'.heard
    exact ⟨more ++ more', by rw [e', e, List.append_assoc]⟩
  late := h'.late.trans h.late

/-- What accounts for a result goes on accounting for it. -/
theorem justifies {w w' : Connection × History} (h : Relies id w w') (method : String)
    (result : Except ClientError Json) (hj : w.2.Justifies method result) :
    w'.2.Justifies method result := by
  obtain ⟨more, e⟩ := h.heard
  cases result with
  | ok value =>
    obtain ⟨body, rest, hb, ha⟩ := hj
    exact ⟨body, rest ++ more, by rw [e, hb, List.cons_append], ha⟩
  | error fault =>
    cases fault with
    | server m code message =>
      obtain ⟨hm, body, rest, hb, ha⟩ := hj
      exact ⟨hm, body, rest ++ more, by rw [e, hb, List.cons_append], ha⟩
    | timeout m seconds => exact h.late.trans hj
    | connectionClosed => trivial
    | _ => exact hj

end Relies

theorem relies_of_quiet (id : UInt64) {c c' : Connection} (h : History) (hq : Quiet c c') :
    Relies id (c, h) (c', h) where
  linked hl := by
    have ha : c'.answer? id = c.answer? id := by
      unfold Connection.answer?
      rw [hq.answers]
    exact ⟨fun hm => ⟨(hl.waiting (hq.mem id hm)).1, ha.trans (hl.waiting (hq.mem id hm)).2⟩,
      fun answer he => hl.answered answer (ha.symm.trans he)⟩
  gone hg hm := hg (hq.mem id hm)
  heard := ⟨[], (List.append_nil _).symm⟩
  late := rfl

theorem relies_of_forget (id other : UInt64) (c : Connection) (h : History) (hne : id ≠ other) :
    Relies id (c, h) (c.forget other, h) where
  linked hl := by
    have ha := answer?_forget other id c hne
    refine ⟨fun hm => ?_, fun answer he => hl.answered answer (ha.symm.trans he)⟩
    obtain ⟨hheard, hnone⟩ := hl.waiting ((mem_forget other id c).mp hm).1
    exact ⟨hheard, ha.trans hnone⟩
  gone hg hm := hg ((mem_forget other id c).mp hm).1
  heard := ⟨[], (List.append_nil _).symm⟩
  late := rfl

theorem relies_of_register (id : UInt64) (c : Connection) (h : History) (hne : id ≠ c.nextId) :
    Relies id (c, h) (c.register.2, h) := by
  have hmem : id ∈ c.register.2.pending ↔ id ∈ c.pending := by
    show id ∈ c.pending ++ [c.nextId] ↔ _
    rw [List.mem_append, List.mem_singleton]
    exact or_iff_left hne
  exact ⟨fun hl => ⟨fun hm => hl.waiting (hmem.mp hm), hl.answered⟩,
    fun hg hm => hg (hmem.mp hm), ⟨[], (List.append_nil _).symm⟩, rfl⟩

theorem relies_of_complete (id other : UInt64) (body : Json) (c : Connection) (k : Caller)
    (hid : k.id = id) :
    Relies id (c, k.history)
      (c.complete other (Answer.ofBody body), (k.hear c other body).history) := by
  by_cases hne : id = other
  · subst hne
    have hk : (k.hear c id body).history =
        { k.history with heard := k.history.heard ++ [⟨body, c.pending.contains id⟩] } := by
      unfold Caller.hear
      rw [if_pos hid]
    rw [hk]
    by_cases hm : id ∈ c.pending
    · have hgone : id ∉ (c.complete id (Answer.ofBody body)).pending := not_mem_complete id _ c hm
      refine ⟨fun hl => ⟨fun h => absurd h hgone, fun answer he => ?_⟩, fun hg => absurd hm hg,
        ⟨_, rfl⟩, rfl⟩
      obtain ⟨hheard, hnone⟩ := hl.waiting hm
      rw [answer?_complete_self id _ c hm hnone] at he
      refine ⟨body, [], ?_, Option.some.inj he⟩
      show k.history.heard ++ [⟨body, c.pending.contains id⟩] = _
      rw [show k.history.heard = [] from hheard, List.contains_iff_mem.mpr hm]
      rfl
    · rw [complete_of_not_mem id _ c hm]
      refine ⟨fun hl => ⟨fun h => absurd h hm, fun answer he => ?_⟩, fun hg => hg, ⟨_, rfl⟩, rfl⟩
      obtain ⟨first, rest, hheard, ha⟩ := hl.answered answer he
      refine ⟨first, rest ++ [⟨body, c.pending.contains id⟩], ?_, ha⟩
      show k.history.heard ++ _ = _
      rw [show k.history.heard = _ from hheard]
      rfl
  · have hk : k.hear c other body = k := if_neg (hid ▸ hne)
    rw [hk]
    have ha := answer?_complete other id (Answer.ofBody body) c hne
    have hm := mem_complete other id (Answer.ofBody body) c hne
    exact ⟨fun hl => ⟨fun h => ⟨(hl.waiting (hm.mp h)).1, ha.trans (hl.waiting (hm.mp h)).2⟩,
      fun answer he => hl.answered answer (ha.symm.trans he)⟩, fun hg h => hg (hm.mp h),
      ⟨[], (List.append_nil _).symm⟩, rfl⟩

/-! ## what the parts of a call keep to -/

/-- What a call relies on, and what it owes to others. -/
def callTerms (id : UInt64) : Terms Connection History where
  rely := Relies id
  guar w w' := w'.2 = w.2 ∧ (SameTable w.1 w'.1 ∨ w'.1 = w.1.forget id)
  fires w h := h = { w.2 with late := some w.2.heard }
  refl := .refl
  trans _ _ _ := .trans

def dropHeld (w w' : Connection × History) : Prop := w'.2 = w.2 ∧ SameTable w.1 w'.1

/-- How a call may be dropped: its entry goes with it. -/
def dropCall (id : UInt64) (w w' : Connection × History) : Prop :=
  w'.2 = w.2 ∧ ∃ c, SameTable w.1 c ∧ w'.1 = c.forget id

/-- Assertions that a move among the senders does not touch. -/
structure Undisturbed {γ : Type} (T : Terms Connection γ)
    (drop : Connection × γ → Connection × γ → Prop) (P : Connection × γ → Prop) : Prop where
  guar : ∀ c c' g, SameTable c c' → T.guar (c, g) (c', g)
  drop : ∀ c c' g, SameTable c c' → drop (c, g) (c', g)
  rely : ∀ w w', T.rely w w' → P w → P w'
  same : ∀ c c' g, SameTable c c' → P (c, g) → P (c', g)

theorem keeps_post {γ : Type} {T : Terms Connection γ}
    {drop : Connection × γ → Connection × γ → Prop} {P : Connection × γ → Prop}
    (hu : Undisturbed T drop P) (message : Outgoing) (w : Connection × γ) (hw : P w) :
    (post message).Keeps T drop (fun _ => P) w := by
  have hjoin : (Routine.act joinSenders).Keeps T drop (fun _ => P) w :=
    Routine.keeps_act fun c g hc => ⟨g, hu.guar c _ g (same_joinSenders c), fun w' hw' =>
      hu.rely _ w' hw' (hu.same c _ g (same_joinSenders c) (hu.rely w (c, g) hc hw))⟩
  refine hjoin.bind fun ticket w hw => ?_
  have hbody : (Routine.bind (Routine.until_ (admits ticket))
      fun _ => Routine.act (enqueue message)).Keeps T Eq (fun _ => P) w := by
    have hturn : (Routine.until_ (admits ticket)).Keeps T Eq (fun _ => P) w :=
      Routine.keeps_until fun c g hc =>
        ⟨fun _ w' hw' => hu.rely _ w' hw' (hu.rely w (c, g) hc hw), g, rfl⟩
    exact hturn.bind fun _ w hw =>
      Routine.keeps_act fun c g hc => ⟨g, hu.guar c _ g (same_enqueue message c),
        fun w' hw' => hu.rely _ w' hw' (hu.same c _ g (same_enqueue message c)
          (hu.rely w (c, g) hc hw))⟩
  refine hbody.ensure (fun u c g hd => ⟨g, ?_⟩) fun queued w hw c g hc => ⟨g, ?_, fun w' hw' => ?_⟩
  · rw [hd]
    exact hu.drop c _ g (same_leaveSenders ticket c)
  · exact hu.guar c _ g (same_leaveSenders ticket c)
  · exact hu.rely _ w' hw' (hu.same c _ g (same_leaveSenders ticket c) (hu.rely w (c, g) hc hw))

section
variable (id : UInt64) (method : String)

theorem keeps_look {α : Type} (f : Connection → α)
    {drop : Connection × History → Connection × History → Prop} (w : Connection × History)
    (hl : Linked id w) : (Routine.read f).Keeps (callTerms id) drop (fun _ => Linked id) w :=
  Routine.keeps_read fun c g hc => ⟨g, ⟨rfl, .inl (.refl c)⟩, fun _ hw' =>
    hw'.linked (hc.linked hl)⟩

theorem keeps_return {drop : Connection × History → Connection × History → Prop}
    (result : Except ClientError Json) (w : Connection × History)
    (hj : w.2.Justifies method result) :
    (Routine.done result).Keeps (callTerms id) drop (fun r w => w.2.Justifies method r) w :=
  fun _ hw => hw.justifies method result hj

theorem justifies_outcome (w : Connection × History) (hl : Linked id w) :
    w.2.Justifies method (outcome id method w.1) := by
  unfold outcome
  split
  next value ha => exact hl.answered _ ha
  next refusal ha => exact ⟨rfl, hl.answered _ ha⟩
  · trivial

/-- A call that waits ends in the first answer, or with its time over and nothing heard. -/
theorem keeps_await (w : Connection × History) (hl : Linked id w) :
    (await id method).Keeps (callTerms id) dropHeld (fun r w => w.2.Justifies method r) w := by
  refine (keeps_look id (·.callLimit) w hl).bind fun limit w hl => ?_
  have hwait : (Routine.untilWithin (·.settled id) (milliseconds limit)).Keeps (callTerms id)
      dropHeld (fun b w => if b then Linked id w else w.2.late = some []) w := by
    refine Routine.keeps_untilWithin fun c g hc => ⟨fun _ w' hw' => ?_, fun g' hr hg w' hw' => ?_,
      g, rfl, .refl c⟩
    · exact hw'.linked (hc.linked hl)
    · have hm : id ∈ c.pending := by
        simpa [settled] using hr
      have hheard : g.heard = [] := ((hc.linked hl).waiting hm).1
      show w'.2.late = some []
      rw [hw'.late, hg]
      exact congrArg some hheard
  refine hwait.bind fun b w hb => ?_
  cases b with
  | true => exact Routine.keeps_read fun c g hc => ⟨g, ⟨rfl, .inl (.refl c)⟩, fun _ hw' =>
      hw'.justifies method _ (justifies_outcome id method (c, g) (hc.linked hb))⟩
  | false => exact keeps_return id method (.error (.timeout method limit)) w hb

theorem keeps_exchange (params : Option Json) (w : Connection × History) (hl : Linked id w) :
    (exchange id method params).Keeps (callTerms id) dropHeld
      (fun r w => w.2.Justifies method r) w := by
  refine (keeps_look id (·.closed) w hl).bind fun closed w hl => ?_
  cases closed with
  | true => exact keeps_return id method (.error .connectionClosed) w trivial
  | false =>
    have hu : Undisturbed (callTerms id) dropHeld (Linked id) :=
      ⟨fun _ _ _ hs => ⟨rfl, .inl hs⟩, fun _ _ _ hs => ⟨rfl, hs⟩, fun _ _ hw => hw.linked,
        fun _ _ g hs => (relies_of_quiet id g hs.quiet).linked⟩
    refine (keeps_post hu (.message (Message.request id method params)) w hl).bind
      fun queued w hl => ?_
    cases queued with
    | true => exact keeps_await id method w hl
    | false => exact keeps_return id method (.error .connectionClosed) w trivial

theorem keeps_call (params : Option Json) (w : Connection × History) (hl : Linked id w) :
    (Routine.ensure (forget id) (exchange id method params)).Keeps (callTerms id) (dropCall id)
      (fun r w => w.2.Justifies method r ∧ id ∉ w.1.pending) w := by
  have hgone : ∀ c : Connection, id ∉ (c.forget id).pending := fun c hm =>
    ((mem_forget id id c).mp hm).2 rfl
  refine (keeps_exchange id method params w hl).ensure (fun u c g hd => ⟨g, hd.1, c, hd.2, rfl⟩)
    fun result w hj c g hc => ⟨g, ⟨rfl, .inr rfl⟩, fun w' hw' => ⟨?_, hw'.gone (hgone c)⟩⟩
  exact hw'.justifies method result (hc.justifies method result hj)

end

/-! ## notifications and closings -/

/-- Whoever makes no call relies on nothing, and fills nothing into the table. -/
def quietTerms : Terms Connection Unit where
  rely _ _ := True
  guar w w' := Quiet w.1 w'.1
  fires _ _ := True
  refl _ := trivial
  trans _ _ _ _ _ := trivial

def dropQuiet (w w' : Connection × Unit) : Prop := Quiet w.1 w'.1

def KeepsQuiet {α : Type} (r : Routine Connection α) : Prop :=
  ∀ w, r.Keeps quietTerms dropQuiet (fun _ _ => True) w

theorem KeepsQuiet.bind {α β : Type} {r : Routine Connection α} {f : α → Routine Connection β}
    (h : KeepsQuiet r) (hf : ∀ a, KeepsQuiet (f a)) : KeepsQuiet (r.bind f) := fun w =>
  (h w).bind fun a w _ => hf a w

theorem keepsQuiet_done {α : Type} (a : α) : KeepsQuiet (.done a) := fun _ _ _ => trivial

theorem keepsQuiet_act {α : Type} (f : Connection → α × Connection)
    (h : ∀ c, Quiet c (f c).2) : KeepsQuiet (.act f) := fun _ =>
  Routine.keeps_act fun c _ _ => ⟨(), h c, fun _ _ => trivial⟩

theorem keepsQuiet_read {α : Type} (f : Connection → α) : KeepsQuiet (.read f) := fun _ =>
  Routine.keeps_read fun c _ _ => ⟨(), (SameTable.refl c).quiet, fun _ _ => trivial⟩

theorem keepsQuiet_post (message : Outgoing) : KeepsQuiet (post message) := fun w =>
  keeps_post ⟨fun _ _ _ h => h.quiet, fun _ _ _ h => h.quiet, fun _ _ _ _ => trivial,
    fun _ _ _ _ _ => trivial⟩ message w trivial

theorem keepsQuiet_notify (method : String) (params : Option Json) :
    KeepsQuiet (notify method params).run := by
  refine (keepsQuiet_read _).bind fun closed => ?_
  cases closed with
  | true => exact keepsQuiet_done _
  | false =>
    refine (keepsQuiet_post _).bind fun queued => ?_
    cases queued with
    | true => exact keepsQuiet_done _
    | false => exact keepsQuiet_done _

theorem keepsQuiet_reap (grace : Nat) : KeepsQuiet (reap grace) := by
  have hwait : KeepsQuiet (Routine.untilWithin parted grace) := fun _ =>
    Routine.keeps_untilWithin fun c _ _ => ⟨fun _ _ _ => trivial, fun _ _ _ _ _ => trivial,
      (), (SameTable.refl c).quiet⟩
  have hkill : KeepsQuiet (Routine.act tryKill) :=
    keepsQuiet_act tryKill fun c => (same_tryKill c).quiet
  refine (keepsQuiet_act claimProcess fun c => (same_claimProcess c).quiet).bind fun mine => ?_
  cases mine with
  | false => exact keepsQuiet_done _
  | true =>
    refine hwait.bind fun gone => ?_
    cases gone with
    | false => exact hkill
    | true =>
      refine (keepsQuiet_read waited).bind fun result => ?_
      cases result with
      | ok u => exact keepsQuiet_done _
      | error fault => exact hkill.bind fun _ => keepsQuiet_done _

theorem keepsQuiet_close (grace : Nat) : KeepsQuiet (close grace) :=
  (keepsQuiet_post .stop).bind fun _ => (keepsQuiet_reap grace).bind fun result =>
    (keepsQuiet_act (fun c => ((), c.shut)) quiet_shut).bind fun _ => keepsQuiet_done result

theorem KeepsQuiet.poll {α : Type} {r : Routine Connection α} (h : KeepsQuiet r) (elapsed : Nat)
    (c : Connection) : Quiet c (r.poll elapsed c).1 ∧ KeepsQuiet (r.poll elapsed c).2 := by
  cases he : r.expired elapsed c with
  | true =>
    have hnoted : quietTerms.fires (c, ()) () := trivial
    obtain ⟨hc, hk⟩ := (h (c, ())).expired elapsed he hnoted
    rw [hc]
    exact ⟨(SameTable.refl c).quiet, fun _ => hk.rely trivial⟩
  | false =>
    obtain ⟨g, hmove, hk⟩ := (h (c, ())).poll elapsed he
    refine ⟨?_, fun _ => hk.rely trivial⟩
    rcases hmove with ⟨hc, -⟩ | hq
    · rw [hc]
      exact (SameTable.refl c).quiet
    · exact hq

theorem KeepsQuiet.abandoned {α : Type} {r : Routine Connection α} (h : KeepsQuiet r)
    {c c' : Connection} (ha : r.abandoned c = some c') : Quiet c c' := by
  obtain ⟨_, hd⟩ := (h (c, ())).abandoned ha
  exact hd

/-! ## all callers -/

def Own (id : UInt64) (c c' : Connection) : Prop :=
  ∃ c₁, SameTable c c₁ ∧ (c' = c₁ ∨ c' = c₁.forget id)

theorem own_sub {id : UInt64} {c c' : Connection} (h : Own id c c') :
    c'.nextId = c.nextId ∧ (∀ other ∈ c'.pending, other ∈ c.pending) ∧
      ∀ a ∈ c'.answers, a ∈ c.answers := by
  obtain ⟨c₁, hs, rfl | rfl⟩ := h
  · exact ⟨hs.nextId, fun _ hm => hs.pending ▸ hm, fun _ ha => hs.answers ▸ ha⟩
  · exact ⟨hs.nextId, fun other hm => hs.pending ▸ ((mem_forget id other c₁).mp hm).1,
      fun a ha => hs.answers ▸ (List.mem_filter.mp ha).1⟩

theorem relies_of_own (id other : UInt64) {c c' : Connection} (h : History) (hne : id ≠ other)
    (ho : Own other c c') : Relies id (c, h) (c', h) := by
  obtain ⟨c₁, hs, rfl | rfl⟩ := ho
  · exact relies_of_quiet id h hs.quiet
  · exact (relies_of_quiet id h hs.quiet).trans (relies_of_forget id other c₁ h hne)

namespace Caller

/-- What is so of a caller, however far it is. -/
def Holds (c : Connection) (k : Caller) : Prop :=
  match k.progress with
  | .running r => r.Keeps (callTerms k.id) (dropCall k.id)
      (fun result w => w.2.Justifies k.method result ∧ k.id ∉ w.1.pending) (c, k.history)
  | .returned result => k.history.Justifies k.method result ∧ k.id ∉ c.pending
  | .dropped => k.id ∉ c.pending

theorem holds_of_relies {c c' : Connection} {k k' : Caller} (h : k.Holds c) (hid : k'.id = k.id)
    (hmethod : k'.method = k.method) (hprogress : k'.progress = k.progress)
    (hr : Relies k.id (c, k.history) (c', k'.history)) : k'.Holds c' := by
  unfold Holds at h ⊢
  rw [hid, hmethod, hprogress]
  split at h
  · exact h.rely hr
  · exact ⟨hr.justifies k.method _ h.1, hr.gone h.2⟩
  · exact hr.gone h

theorem holds_progressOf (c : Connection) (id : UInt64) (method : String) (history : History)
    (r : Routine Connection (Except ClientError Json))
    (h : r.Keeps (callTerms id) (dropCall id)
      (fun result w => w.2.Justifies method result ∧ id ∉ w.1.pending) (c, history)) :
    Holds c ⟨id, method, history, progressOf r⟩ := by
  cases r with
  | done result => exact h (c, history) (Relies.refl _)
  | step update next => exact h
  | wait ready limit abandon next => exact h
  | pause abandon next => exact h

theorem go_holds (elapsed : Nat) (c : Connection) (k : Caller) (h : k.Holds c) :
    (k.go elapsed c).2.id = k.id ∧ (k.go elapsed c).2.Holds (k.go elapsed c).1 ∧
      Own k.id c (k.go elapsed c).1 := by
  obtain ⟨id, method, history, progress⟩ := k
  have hsame : Own id c c := ⟨c, .refl c, .inl rfl⟩
  cases progress with
  | returned result => exact ⟨rfl, h, hsame⟩
  | dropped => exact ⟨rfl, h, hsame⟩
  | running r =>
    have hgo : go elapsed c ⟨id, method, history, .running r⟩ = ((r.poll elapsed c).1,
        ⟨id, method, if r.expired elapsed c then { history with late := some history.heard }
          else history, progressOf (r.poll elapsed c).2⟩) := rfl
    rw [hgo]
    cases he : r.expired elapsed c with
    | true =>
      obtain ⟨hc, hk⟩ := Routine.Keeps.expired h elapsed he rfl
      rw [hc]
      exact ⟨rfl, holds_progressOf c id method _ _ hk, hsame⟩
    | false =>
      obtain ⟨g, hmove, hk⟩ := Routine.Keeps.poll h elapsed he
      rcases hmove with ⟨hc, rfl⟩ | ⟨hg, hmove⟩
      · rw [hc] at hk ⊢
        exact ⟨rfl, holds_progressOf c id method _ _ hk, hsame⟩
      · obtain rfl : g = history := hg
        refine ⟨rfl, holds_progressOf _ id method _ _ hk, ?_⟩
        rcases hmove with hs | e
        · exact ⟨_, hs, .inl rfl⟩
        · exact ⟨c, .refl c, .inr e⟩

theorem giveUp_holds (c : Connection) (k : Caller) (h : k.Holds c) :
    (giveUp c k).2.id = k.id ∧ (giveUp c k).2.Holds (giveUp c k).1 ∧
      Own k.id c (giveUp c k).1 := by
  obtain ⟨id, method, history, progress⟩ := k
  have hsame : Own id c c := ⟨c, .refl c, .inl rfl⟩
  cases progress with
  | returned result => exact ⟨rfl, h, hsame⟩
  | dropped => exact ⟨rfl, h, hsame⟩
  | running r =>
    cases ha : r.abandoned c with
    | none =>
      have hgive : giveUp c ⟨id, method, history, .running r⟩ =
          (c, ⟨id, method, history, .running r⟩) := by simp only [giveUp, ha]
      rw [hgive]
      exact ⟨rfl, h, hsame⟩
    | some c' =>
      have hgive : giveUp c ⟨id, method, history, .running r⟩ =
          (c', ⟨id, method, history, .dropped⟩) := by simp only [giveUp, ha]
      obtain ⟨g, -, c₁, hs, e⟩ := Routine.Keeps.abandoned h ha
      rw [hgive]
      refine ⟨rfl, ?_, c₁, hs, .inr e⟩
      show id ∉ c'.pending
      rw [show c' = c₁.forget id from e]
      exact fun hm => ((mem_forget id id c₁).mp hm).2 rfl

end Caller

namespace Traffic

/-- What holds of all traffic; `first` is the number of the first call. -/
structure Sound (first : UInt64) (t : Traffic) : Prop where
  next : t.connection.nextId = first + UInt64.ofNat t.callers.length
  ids : ∀ i k, t.callers[i]? = some k → k.id = first + UInt64.ofNat i
  holds : ∀ k ∈ t.callers, k.Holds t.connection
  pending : ∀ id ∈ t.connection.pending, ∃ k ∈ t.callers, k.id = id
  answers : ∀ a ∈ t.connection.answers, ∃ k ∈ t.callers, k.id = a.1
  others : ∀ r ∈ t.others, KeepsQuiet r

variable {first : UInt64} {t : Traffic}

/-- What has to be shown of a change after which there are the same callers. -/
theorem Sound.change (h : t.Sound first) (c : Connection) (callers : List Caller)
    (others : List (Routine Connection Unit)) (hnext : c.nextId = t.connection.nextId)
    (hlength : callers.length = t.callers.length)
    (hcallers : ∀ (i : Nat) (k : Caller), t.callers[i]? = some k →
      ∃ k' : Caller, callers[i]? = some k' ∧ k'.id = k.id ∧ k'.Holds c)
    (hpending : ∀ id ∈ c.pending, id ∈ t.connection.pending)
    (hanswers : ∀ a ∈ c.answers, a ∈ t.connection.answers ∨ a.1 ∈ t.connection.pending)
    (hothers : ∀ r ∈ others, KeepsQuiet r) : Sound first ⟨c, callers, others⟩ := by
  have hback : ∀ (i : Nat) (k' : Caller), callers[i]? = some k' →
      ∃ k : Caller, t.callers[i]? = some k ∧ k'.id = k.id ∧ k'.Holds c := by
    intro i k' hk'
    have hi : i < t.callers.length := hlength ▸ (List.getElem?_eq_some_iff.mp hk').1
    obtain ⟨k'', hk'', hid, hholds⟩ := hcallers i _ (List.getElem?_eq_getElem hi)
    obtain rfl := Option.some.inj (hk''.symm.trans hk')
    exact ⟨_, List.getElem?_eq_getElem hi, hid, hholds⟩
  have hforth : ∀ id, (∃ k ∈ t.callers, k.id = id) → ∃ k' ∈ callers, k'.id = id := by
    rintro id ⟨k, hk, rfl⟩
    obtain ⟨i, hi⟩ := List.mem_iff_getElem?.mp hk
    obtain ⟨k', hk', hid, -⟩ := hcallers i k hi
    exact ⟨k', List.mem_of_getElem? hk', hid⟩
  refine ⟨?_, fun i k' hk' => ?_, fun k' hk' => ?_, fun id hid => ?_, fun a ha => ?_, hothers⟩
  · rw [hnext, h.next, hlength]
  · obtain ⟨k, hk, hid, -⟩ := hback i k' hk'
    rw [hid, h.ids i k hk]
  · obtain ⟨i, hi⟩ := List.mem_iff_getElem?.mp hk'
    obtain ⟨_, _, _, hholds⟩ := hback i k' hi
    exact hholds
  · exact hforth id (h.pending id (hpending id hid))
  · exact hforth a.1 ((hanswers a ha).elim (h.answers a) (h.pending a.1))

/-- Numbers do not come back as long as there are others. -/
theorem number_ne (first : UInt64) (i j : Nat) (hi : i < 2 ^ 64) (hj : j < 2 ^ 64) (hne : i ≠ j) :
    first + UInt64.ofNat i ≠ first + UInt64.ofNat j := by
  intro e
  have hn : (UInt64.ofNat i).toNat = (UInt64.ofNat j).toNat :=
    congrArg UInt64.toNat ((UInt64.add_right_inj first).mp e)
  rw [UInt64.toNat_ofNat_of_lt' hi, UInt64.toNat_ofNat_of_lt' hj] at hn
  exact hne hn

theorem Sound.ids_ne (h : t.Sound first) (hfew : t.callers.length ≤ 2 ^ 64) (i j : Nat)
    (k k' : Caller) (hi : t.callers[i]? = some k) (hj : t.callers[j]? = some k') (hne : i ≠ j) :
    k.id ≠ k'.id := by
  rw [h.ids i k hi, h.ids j k' hj]
  exact number_ne first i j (Nat.lt_of_lt_of_le (List.getElem?_eq_some_iff.mp hi).1 hfew)
    (Nat.lt_of_lt_of_le (List.getElem?_eq_some_iff.mp hj).1 hfew) hne

theorem Sound.nextId_ne (h : t.Sound first) (hfew : t.callers.length < 2 ^ 64) (k : Caller)
    (hk : k ∈ t.callers) : k.id ≠ t.connection.nextId := by
  obtain ⟨i, hi⟩ := List.mem_iff_getElem?.mp hk
  have hlt : i < t.callers.length := (List.getElem?_eq_some_iff.mp hi).1
  rw [h.ids i k hi, h.next]
  exact number_ne first i _ (Nat.lt_trans hlt hfew) hfew (Nat.ne_of_lt hlt)

theorem sound_start (c : Connection) (hp : c.pending = []) (ha : c.answers = []) :
    Sound c.nextId ⟨c, [], []⟩ where
  next := (UInt64.add_zero c.nextId).symm
  ids _ _ hk := nomatch hk
  holds _ hk := nomatch hk
  pending id hid := by
    rw [show (Traffic.mk c [] []).connection.pending = [] from hp] at hid
    cases hid
  answers a hm := by
    rw [show (Traffic.mk c [] []).connection.answers = [] from ha] at hm
    cases hm
  others _ hr := nomatch hr

theorem sound_quiet (h : t.Sound first) (c : Connection) (hq : Quiet t.connection c)
    (others : List (Routine Connection Unit)) (ho : ∀ r ∈ others, KeepsQuiet r) :
    Sound first ⟨c, t.callers, others⟩ := by
  refine h.change c t.callers others hq.nextId rfl (fun i k hk => ⟨k, hk, rfl, ?_⟩) hq.mem
    (fun a ha => .inl (hq.answers ▸ ha)) ho
  exact Caller.holds_of_relies (h.holds k (List.mem_of_getElem? hk)) rfl rfl rfl
    (relies_of_quiet k.id k.history hq)

theorem sound_withCaller (h : t.Sound first) (hfew : t.callers.length ≤ 2 ^ 64)
    (f : Connection → Caller → Connection × Caller)
    (hf : ∀ c k, k.Holds c → (f c k).2.id = k.id ∧ (f c k).2.Holds (f c k).1 ∧
      Own k.id c (f c k).1) (i : Nat) : (t.withCaller f i).Sound first := by
  unfold withCaller
  split
  · exact h
  next k hk =>
    obtain ⟨hid, hholds, hown⟩ := hf t.connection k (h.holds k (List.mem_of_getElem? hk))
    obtain ⟨hnext, hpending, hanswers⟩ := own_sub hown
    refine h.change _ _ _ hnext List.length_set (fun j k' hj => ?_) hpending
      (fun a ha => .inl (hanswers a ha)) h.others
    by_cases hij : i = j
    · subst hij
      obtain rfl := Option.some.inj (hk.symm.trans hj)
      have hi : i < t.callers.length := (List.getElem?_eq_some_iff.mp hk).1
      exact ⟨_, List.getElem?_set_self hi, hid, hholds⟩
    · refine ⟨k', (List.getElem?_set_ne hij).trans hj, rfl, ?_⟩
      exact Caller.holds_of_relies (h.holds k' (List.mem_of_getElem? hj)) rfl rfl rfl
        (relies_of_own k'.id k.id k'.history (h.ids_ne hfew j i k' k hj hk (Ne.symm hij)) hown)

theorem sound_begin (h : t.Sound first) (method : String) (params : Option Json)
    (hfew : t.callers.length < 2 ^ 64) : (t.begin method params).Sound first := by
  let id := t.connection.nextId
  let k : Caller := ⟨id, method, {}, Caller.progressOf
    (Routine.ensure (forget id) (exchange id method params))⟩
  have hbegin : t.begin method params =
      { t with connection := t.connection.register.2, callers := t.callers ++ [k] } := rfl
  have hnone : t.connection.answer? id = none := by
    refine Option.map_eq_none_iff.mpr (List.find?_eq_none.mpr fun a ha e => ?_)
    obtain ⟨k', hk', hid⟩ := h.answers a ha
    exact h.nextId_ne hfew k' hk' (hid.trans (of_decide_eq_true e))
  have hk : k.Holds t.connection.register.2 :=
    Caller.holds_progressOf _ id method {} _
      (keeps_call id method params _ ⟨fun _ => ⟨rfl, hnone⟩, fun _ ha => nomatch hnone.symm.trans ha⟩)
  rw [hbegin]
  refine ⟨?_, fun i k' hk' => ?_, fun k' hk' => ?_, fun other hm => ?_, fun a ha => ?_, h.others⟩
  · show t.connection.nextId + 1 = first + UInt64.ofNat (t.callers ++ [k]).length
    rw [h.next, List.length_append, UInt64.add_assoc, List.length_singleton, UInt64.ofNat_add]
    rfl
  · rcases Nat.lt_or_ge i t.callers.length with hi | hi
    · rw [List.getElem?_append_left hi] at hk'
      exact h.ids i k' hk'
    · rw [List.getElem?_append_right hi] at hk'
      have hi' : i - t.callers.length < 1 := (List.getElem?_eq_some_iff.mp hk').1
      obtain rfl : i = t.callers.length := by omega
      rw [Nat.sub_self] at hk'
      rw [← Option.some.inj hk', ← h.next]
  · rcases List.mem_append.mp hk' with hk' | hk'
    · exact Caller.holds_of_relies (h.holds k' hk') rfl rfl rfl
        (relies_of_register k'.id t.connection k'.history (h.nextId_ne hfew k' hk'))
    · rw [List.mem_singleton.mp hk']
      exact hk
  · rcases List.mem_append.mp hm with hm | hm
    · obtain ⟨k', hk', hid⟩ := h.pending other hm
      exact ⟨k', List.mem_append_left _ hk', hid⟩
    · exact ⟨k, List.mem_concat_self, (List.mem_singleton.mp hm).symm⟩
  · obtain ⟨k', hk', hid⟩ := h.answers a ha
    exact ⟨k', List.mem_append_left _ hk', hid⟩

/-- What a caller hears is in its history and nowhere else. -/
theorem holds_hear (c c' : Connection) (hs : SameTable c c') (id : UInt64) (body : Json)
    (k : Caller) (h : k.Holds c) : (k.hear c id body).id = k.id ∧
      (k.hear c id body).Holds (c'.complete id (Answer.ofBody body)) := by
  have hsame : (k.hear c id body).id = k.id ∧ (k.hear c id body).method = k.method ∧
      (k.hear c id body).progress = k.progress := by
    unfold Caller.hear
    split <;> exact ⟨rfl, rfl, rfl⟩
  have hc : k.hear c id body = k.hear c' id body := by
    unfold Caller.hear
    rw [hs.pending]
  refine ⟨hsame.1, Caller.holds_of_relies h hsame.1 hsame.2.1 hsame.2.2 ?_⟩
  rw [hc]
  exact (relies_of_quiet k.id k.history hs.quiet).trans (relies_of_complete k.id id body c' k rfl)

theorem sound_read (h : t.Sound first) : t.read.Sound first := by
  have htable := readNext_table t.connection
  unfold read
  split
  · split
    next id body ha =>
      rw [ha] at htable
      obtain ⟨c, hs, hc⟩ := htable
      obtain ⟨hnext, hpending, hanswers⟩ := complete_sub id (Answer.ofBody body) c
      rw [hc]
      refine h.change _ _ _ (hnext.trans hs.nextId) (List.length_map _) (fun i k hk => ?_)
        (fun other hm => hs.pending ▸ hpending other hm)
        (fun a ha => hs.answers ▸ hs.pending ▸ hanswers a ha) h.others
      refine ⟨k.hear t.connection id body, by rw [List.getElem?_map, hk]; rfl, ?_⟩
      exact holds_hear t.connection c hs id body k (h.holds k (List.mem_of_getElem? hk))
    next ha =>
      rw [ha] at htable
      exact sound_quiet h _ htable t.others h.others
  · exact h

theorem sound_addOther {α : Type} (h : t.Sound first) (r : Routine Connection α)
    (hr : KeepsQuiet r) : (t.addOther r).Sound first := by
  refine sound_quiet h t.connection (SameTable.refl _).quiet _ fun r' hr' => ?_
  rcases List.mem_append.mp hr' with hr' | hr'
  · exact h.others r' hr'
  · rw [List.mem_singleton.mp hr']
    exact hr.bind fun _ => keepsQuiet_done ()

theorem sound_setOther (h : t.Sound first) (i : Nat) (c : Connection) (r : Routine Connection Unit)
    (hq : Quiet t.connection c) (hr : KeepsQuiet r) :
    Sound first ⟨c, t.callers, t.others.set i r⟩ :=
  sound_quiet h c hq _ fun r' hr' => (List.mem_or_eq_of_mem_set hr').elim (h.others r') fun e => e ▸ hr

/-- Every event keeps traffic sound. -/
theorem sound_apply (h : t.Sound first) (e : Event)
    (hfew : t.callers.length + begun [e] ≤ 2 ^ 64) : (t.apply e).Sound first := by
  have hcount : t.callers.length ≤ 2 ^ 64 := Nat.le_trans (Nat.le_add_right _ _) hfew
  have hon : ∀ f : Connection → Connection, Quiet t.connection (f t.connection) →
      (t.onConnection f).Sound first := fun f hf => sound_quiet h _ hf t.others h.others
  cases e with
  | begin method params => exact sound_begin h method params hfew
  | go caller elapsed => exact sound_withCaller h hcount _ (Caller.go_holds elapsed) caller
  | drop caller => exact sound_withCaller h hcount _ Caller.giveUp_holds caller
  | notify method params => exact sound_addOther h _ (keepsQuiet_notify method params)
  | close grace => exact sound_addOther h _ (keepsQuiet_close grace)
  | goOther other elapsed =>
    show (t.goOther elapsed other).Sound first
    unfold goOther
    split
    · exact h
    next r hr =>
      obtain ⟨hq, hk⟩ := (h.others r (List.mem_of_getElem? hr)).poll elapsed t.connection
      exact sound_setOther h other _ _ hq hk
  | dropOther other =>
    show (t.dropOther other).Sound first
    unfold dropOther
    split
    · exact h
    next c hc =>
      obtain ⟨r, hr, ha⟩ := Option.bind_eq_some_iff.mp hc
      exact sound_setOther h other c _ ((h.others r (List.mem_of_getElem? hr)).abandoned ha)
        (keepsQuiet_done ())
  | read => exact sound_read h
  | write =>
    show (t.write).Sound first
    unfold write
    split
    · exact hon writeNext (quiet_writeNext t.connection)
    · exact h
  | deliver bytes => exact hon _ (same_deliver bytes t.connection).quiet
  | hangUp => exact hon _ ⟨rfl, rfl, .inl rfl⟩
  | stopListening => exact hon _ ⟨rfl, rfl, .inl rfl⟩
  | exited => exact hon _ (same_exited t.connection).quiet
  | kill => exact hon _ (same_kill t.connection).quiet

theorem length_withCaller (t : Traffic) (f : Connection → Caller → Connection × Caller) (i : Nat) :
    (t.withCaller f i).callers.length = t.callers.length := by
  unfold withCaller
  split
  · rfl
  · exact List.length_set

theorem length_apply (t : Traffic) (e : Event) :
    (t.apply e).callers.length = t.callers.length + begun [e] := by
  cases e with
  | begin method params => exact List.length_append
  | go caller elapsed => exact length_withCaller t _ caller
  | drop caller => exact length_withCaller t _ caller
  | goOther other elapsed =>
    show (t.goOther elapsed other).callers.length = _
    unfold goOther
    split <;> rfl
  | dropOther other =>
    show (t.dropOther other).callers.length = _
    unfold dropOther
    split <;> rfl
  | read =>
    show t.read.callers.length = _
    unfold read
    split
    · split
      · exact List.length_map _
      · rfl
    · rfl
  | write =>
    show t.write.callers.length = _
    unfold write
    split <;> rfl
  | _ => rfl

theorem begun_cons (e : Event) (events : List Event) :
    begun (e :: events) = begun [e] + begun events := by
  cases e with
  | begin method params => exact Nat.add_comm _ _
  | _ => exact (Nat.zero_add _).symm

theorem sound_run (events : List Event) (t : Traffic) (h : t.Sound first)
    (hfew : t.callers.length + begun events ≤ 2 ^ 64) : (t.run events).Sound first := by
  induction events generalizing t with
  | nil => exact h
  | cons e events ih =>
    rw [begun_cons] at hfew
    refine ih (t.apply e) (sound_apply h e (by omega)) ?_
    rw [length_apply]
    omega

/-- **Whatever order things happen in: a call ends in the first answer that came while it had its
entry, or with its time over before any came; an answer is about no other call; and a call that has
ended has no entry.** -/
theorem run_correlated (c : Connection) (events : List Event) (hp : c.pending = [])
    (ha : c.answers = []) (hfew : begun events < 2 ^ 64) :
    let t := (Traffic.mk c [] []).run events
    (∀ k ∈ t.callers, ∀ result, k.progress = .returned result →
        k.history.Justifies k.method result) ∧
      (∀ (c : Connection) (v : Json) (id : UInt64),
        (∀ body, Incoming.ofJson? v ≠ some (.answer id body)) →
          (id ∈ (c.dispatch v).1.pending ↔ id ∈ c.pending) ∧
            (c.dispatch v).1.answer? id = c.answer? id) ∧
      (∀ k ∈ t.callers, k.isRunning = false → k.id ∉ t.connection.pending) ∧
      ((∀ k ∈ t.callers, k.isRunning = false) → t.connection.pending = []) := by
  intro t
  have hs : t.Sound c.nextId := by
    refine sound_run events _ (sound_start c hp ha) ?_
    show 0 + begun events ≤ 2 ^ 64
    omega
  have hended : ∀ k ∈ t.callers, k.isRunning = false → k.id ∉ t.connection.pending := by
    intro k hk hrun
    have hholds := hs.holds k hk
    unfold Caller.isRunning at hrun
    unfold Caller.Holds at hholds
    split at hholds
    next r hr =>
      rw [hr] at hrun
      cases hrun
    · exact hholds.2
    · exact hholds
  refine ⟨fun k hk result hresult => ?_, fun c v id h => dispatch_other c v id h, hended,
    fun hall => ?_⟩
  · have hholds := hs.holds k hk
    unfold Caller.Holds at hholds
    rw [hresult] at hholds
    exact hholds.1
  · refine List.eq_nil_iff_forall_not_mem.mpr fun id hm => ?_
    obtain ⟨k, hk, rfl⟩ := hs.pending id hm
    exact hended k hk (hall k hk) hm

def answerTo (id : UInt32) (value : String) : Bytes :=
  Frame.write (.obj [("id", .ofUInt32 id), ("result", .str value)])

/-- The first call runs out of time and its answer comes after that; the second is answered twice,
and before the first. -/
def lateAnswer : List Event :=
  [.begin "first" none, .begin "second" none] ++ List.replicate 7 (.go 0 0) ++
    List.replicate 7 (.go 1 0) ++ [.go 0 30000,
      .deliver (answerTo 2 "x" ++ answerTo 1 "y" ++ answerTo 2 "z"), .read, .read, .read,
      .go 0 0, .go 1 0, .go 1 0, .go 1 0]

theorem late_answer_leaves_nothing :
    ({} : Connection).pending = [] ∧ ({} : Connection).answers = [] ∧ begun lateAnswer < 2 ^ 64 ∧
      ((Traffic.mk {} [] []).run lateAnswer).callers.map (·.history.late) = [some [], none] ∧
      ((Traffic.mk {} [] []).run lateAnswer).connection.pending = [] := by
  have hfew : begun lateAnswer < 2 ^ 64 := by decide
  have hidle : ((Traffic.mk {} [] []).run lateAnswer).callers.all (!·.isRunning) = true := by
    decide +kernel
  have hlate : ((Traffic.mk {} [] []).run lateAnswer).callers.map (·.history.late) =
      [some [], none] := by decide +kernel
  obtain ⟨-, -, -, hempty⟩ := run_correlated {} lateAnswer rfl rfl hfew
  have hended : ∀ k ∈ ((Traffic.mk {} [] []).run lateAnswer).callers, k.isRunning = false := by
    intro k hk
    have h := List.all_eq_true.mp hidle k hk
    rwa [Bool.not_eq_true'] at h
  exact ⟨rfl, rfl, hfew, hlate, hempty hended⟩

end Traffic

end CodeBridge
