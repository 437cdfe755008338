import CodeBridge.Proofs.Connection.Lessening

/-!
# The table is cleared

A call enters the table before it looks at the flag, and who declares the connection dead sets the
flag before clearing the table.  So once somebody has done both, an entry belongs to a call that
will find the flag set.

* `Call.AtCheck`   a call that has not gone past its look at the flag;
* `Call.Fits`, `Party.Fits`   what a move keeps of them;
* `Sound`          what holds of every run, `sound_apply` being the step and `sound_run` the run;
* `Spares`         what an event does that is none of a call.
-/

namespace CodeBridge

open Connection

/-! ## what is so of calls and parties -/

/-- The call has not gone past its look at the flag: that is its next move, or was its last one, which
found the flag set. -/
def Call.AtCheck (k : Call) : Prop :=
  k.At .entered ∧ k.moves = 0 ∨ k.At (.leaving (.error .connectionClosed)) ∧ k.moves = 1

namespace Call

structure Fits (k : Call) : Prop where
  staged : ∀ r, k.progress = .running r → ∃ s : Stage, r = s.rest k.id k.method k.params ∧
    (∀ result, s ≠ .finished result) ∧ (s = .entered → k.moves = 0)
  ends : ∀ r, k.progress = .running r → r.EndsWithin (fun _ => True) (9 - k.moves)

theorem progressOf_rest {id : UInt64} {method : String} {params : Option Json} {s : Stage}
    (hs : ∀ result, s ≠ .finished result) :
    Caller.progressOf (s.rest id method params) = .running (s.rest id method params) := by
  cases s with
  | finished result => exact absurd rfl (hs result)
  | _ => rfl

def Onward : Stage → Prop
  | .entered | .finished _ => False
  | _ => True

theorem onward_next {id : UInt64} {method : String} {params : Option Json} {elapsed : Nat}
    {c : Connection} {s : Stage} (hs : ∀ result, s ≠ .leaving result)
    (hfinished : ∀ result, s ≠ .finished result) : Onward (s.next id method params elapsed c) := by
  cases s with
  | leaving result => exact absurd rfl (hs result)
  | finished result => exact absurd rfl (hfinished result)
  | entered =>
    simp only [Stage.next]
    split <;> trivial
  | posting ticket =>
    simp only [Stage.next]
    split <;> trivial
  | posted ticket queued =>
    simp only [Stage.next]
    split <;> trivial
  | waiting limit =>
    simp only [Stage.next]
    split
    · trivial
    · split <;> trivial
  | _ => trivial

theorem go_of_running {k : Call} {r : Routine Connection (Except ClientError Json)}
    (hr : k.progress = .running r) (elapsed : Nat) (c : Connection) :
    k.go elapsed c = ((r.poll elapsed c).1,
      { k with
        moves := if r.stays elapsed c then k.moves else k.moves + 1
        progress := Caller.progressOf (r.poll elapsed c).2 }) := by
  unfold go
  rw [hr]

theorem go_at {k : Call} {s : Stage} (hk : k.At s) (elapsed : Nat) (c : Connection) :
    k.go elapsed c = (s.act k.id k.method k.params c,
      { k with
        moves := if (s.rest k.id k.method k.params).stays elapsed c then k.moves else k.moves + 1
        progress := Caller.progressOf
          ((s.next k.id k.method k.params elapsed c).rest k.id k.method k.params) }) := by
  rw [go_of_running hk, Stage.poll_rest]

theorem go_of_ended {k : Call} (hr : ∀ r, k.progress ≠ .running r) (elapsed : Nat)
    (c : Connection) : k.go elapsed c = (c, k) := by
  unfold go
  split
  next r h => exact absurd h (hr r)
  · rfl

theorem fits_of_ended {k : Call} (hr : ∀ r, k.progress ≠ .running r) : k.Fits :=
  ⟨fun r h => absurd h (hr r), fun r h => absurd h (hr r)⟩

theorem running_or_ended (k : Call) :
    (∃ r, k.progress = .running r) ∨ ∀ r, k.progress ≠ .running r := by
  by_cases h : ∃ r, k.progress = .running r
  · exact .inl h
  · exact .inr fun r hr => h ⟨r, hr⟩

/-- A move keeps a call at a stage, and brings its end nearer. -/
theorem fits_go {k : Call} (h : k.Fits) (elapsed : Nat) (c : Connection) :
    (k.go elapsed c).2.Fits := by
  rcases running_or_ended k with ⟨r, hr⟩ | hr
  · obtain ⟨s, hs, hfinished, hentered⟩ := h.staged r hr
    subst hs
    have hends := h.ends _ hr
    rw [go_at hr]
    by_cases hl : ∃ result, s = .leaving result
    · obtain ⟨result, rfl⟩ := hl
      exact fits_of_ended nofun
    have hleaving : ∀ result, s ≠ .leaving result := fun result e => hl ⟨result, e⟩
    have honward : Onward (s.next k.id k.method k.params elapsed c) := onward_next hleaving hfinished
    have hfinished' (result) : s.next k.id k.method k.params elapsed c ≠ .finished result := fun e => by
      rw [e] at honward
      exact honward
    rw [progressOf_rest hfinished']
    refine ⟨fun r' hr' => ?_, fun r' hr' => ?_⟩
    · obtain rfl := Progress.running.inj hr'
      refine ⟨_, rfl, hfinished', fun e => ?_⟩
      rw [e] at honward
      exact honward.elim
    · obtain rfl := Progress.running.inj hr'
      cases hst : (s.rest k.id k.method k.params).stays elapsed c with
      | true =>
        have hpoll := Routine.poll_of_stays hst
        rw [Stage.poll_rest] at hpoll
        have hsame : (s.next k.id k.method k.params elapsed c).rest k.id k.method k.params =
            s.rest k.id k.method k.params := (Prod.mk.inj hpoll).2
        rw [hsame]
        exact hends
      | false =>
        have hnext := hends.poll (s := c) trivial hst
        rw [Stage.poll_rest] at hnext
        exact hnext.mono (Nat.le_of_eq (Nat.sub_add_eq 9 k.moves 1).symm)
  · rw [go_of_ended hr]
    exact h

theorem giveUp_cases (k : Call) (c : Connection) :
    giveUp c k = (c, k) ∨ ∃ r c', k.progress = .running r ∧ r.abandoned c = some c' ∧
      giveUp c k = (c', { k with progress := .dropped }) := by
  unfold giveUp
  split
  next r hr =>
    split
    next c' ha => exact .inr ⟨r, c', hr, ha, rfl⟩
    · exact .inl rfl
  · exact .inl rfl

theorem fits_entered (id : UInt64) (method : String) (params : Option Json) :
    Fits ⟨id, method, params, 0, Caller.progressOf (Stage.entered.rest id method params)⟩ where
  staged r hr := by
    obtain rfl := Progress.running.inj hr
    exact ⟨.entered, rfl, nofun, fun _ => rfl⟩
  ends r hr := by
    obtain rfl := Progress.running.inj hr
    exact (endsWithin_exchange id method params).ensure

end Call

namespace Party

/-- What a party does besides the flag and the table leaves both alone. -/
def Fits : Party → Prop
  | notice rest => rest.MovesBy Tame
  | coming before after => before.MovesBy Tame ∧ after.MovesBy Tame
  | flagged after => after.MovesBy Tame
  | cleared after => after.MovesBy Tame

theorem fits_coming {before after : Routine Connection Unit} (hb : before.MovesBy Tame)
    (ha : after.MovesBy Tame) : Fits (.coming before after) := ⟨hb, ha⟩

theorem go_lessens {x : Party} (h : x.Fits) (elapsed : Nat) (c : Connection) :
    (x.go elapsed c).2.Fits ∧ Lessens c (x.go elapsed c).1 := by
  cases x with
  | notice rest =>
    obtain ⟨ht, hrest⟩ := Routine.MovesBy.poll (r := rest) h queues_tame.refl elapsed c
    exact ⟨hrest, ht.lessens⟩
  | coming before after =>
    obtain ⟨hb, ha⟩ := h
    cases before with
    | done u => exact ⟨ha, lessens_markClosed c⟩
    | step update next =>
      obtain ⟨ht, hrest⟩ := hb.poll queues_tame.refl elapsed c
      exact ⟨⟨hrest, ha⟩, ht.lessens⟩
    | wait ready limit abandon next =>
      obtain ⟨ht, hrest⟩ := hb.poll queues_tame.refl elapsed c
      exact ⟨⟨hrest, ha⟩, ht.lessens⟩
    | pause abandon next =>
      obtain ⟨ht, hrest⟩ := hb.poll queues_tame.refl elapsed c
      exact ⟨⟨hrest, ha⟩, ht.lessens⟩
  | flagged after => exact ⟨h, lessens_dropPending c⟩
  | cleared after =>
    obtain ⟨ht, hrest⟩ := Routine.MovesBy.poll (r := after) h queues_tame.refl elapsed c
    exact ⟨hrest, ht.lessens⟩

/-- Only the flag makes a party one that has set the flag, and only the table one that has cleared the
table. -/
theorem go_flagged {x : Party} (elapsed : Nat) (c : Connection)
    (h : x.isFlagged = true → c.closed = true) (hfits : x.Fits) :
    ((x.go elapsed c).2.isFlagged = true → (x.go elapsed c).1.closed = true) ∧
      ((x.go elapsed c).2.isCleared = true →
        x.isCleared = true ∨ (x.go elapsed c).1.pending = []) := by
  have hl := (go_lessens hfits elapsed c).2
  cases x with
  | notice rest => exact ⟨nofun, nofun⟩
  | coming before after =>
    cases before with
    | done u => exact ⟨fun _ => rfl, nofun⟩
    | _ => exact ⟨nofun, nofun⟩
  | flagged after => exact ⟨fun _ => hl.closed (h rfl), fun _ => .inr rfl⟩
  | cleared after => exact ⟨fun _ => hl.closed (h rfl), fun _ => .inl rfl⟩

theorem giveUp_spec {x : Party} (h : x.Fits) (c : Connection) :
    (giveUp c x).2.Fits ∧ Lessens c (giveUp c x).1 ∧
      ((giveUp c x).2.isFlagged = true → x.isFlagged = true) ∧
      ((giveUp c x).2.isCleared = true → x.isCleared = true) := by
  have hsame : Lessens c c := (queues_tame.refl c).lessens
  cases x with
  | notice rest =>
    simp only [giveUp]
    split
    next c' ha =>
      exact ⟨trivial, (Routine.MovesBy.abandoned (r := rest) h ha).lessens, nofun, nofun⟩
    · exact ⟨h, hsame, nofun, nofun⟩
  | coming before after =>
    simp only [giveUp]
    split
    next c' ha => exact ⟨trivial, (h.1.abandoned ha).lessens, nofun, nofun⟩
    · exact ⟨h, hsame, nofun, nofun⟩
  | flagged after => exact ⟨h, hsame, fun hf => hf, fun hc => hc⟩
  | cleared after => exact ⟨h, hsame, fun hf => hf, fun hc => hc⟩

end Party

/-! ## along a run -/

namespace Call

/-- A move of a call that has not gone past its look at the flag, when the flag is set. -/
theorem atCheck_go {k : Call} (h : k.AtCheck) (elapsed : Nat) {c : Connection}
    (hclosed : c.closed = true) :
    (k.go elapsed c).2.AtCheck ∨ k.id ∉ (k.go elapsed c).1.pending := by
  rcases h with ⟨hat, hmoves⟩ | ⟨hat, -⟩
  · rw [go_at hat]
    refine .inl (.inr ⟨?_, ?_⟩)
    · have hnext : Stage.entered.next k.id k.method k.params elapsed c =
          .leaving (.error .connectionClosed) := if_pos hclosed
      show Caller.progressOf _ = _
      rw [hnext]
      exact progressOf_rest nofun
    · show k.moves + 1 = 1
      rw [hmoves]
  · rw [go_at hat]
    exact .inr fun hm => ((mem_forget k.id k.id c).mp hm).2 rfl

theorem go_id (k : Call) (elapsed : Nat) (c : Connection) : (k.go elapsed c).2.id = k.id := by
  unfold go
  split <;> rfl

theorem go_lessens {k : Call} (h : k.Fits) (elapsed : Nat) (c : Connection) :
    Lessens c (k.go elapsed c).1 := by
  rcases running_or_ended k with ⟨r, hr⟩ | hr
  · obtain ⟨s, rfl, -, -⟩ := h.staged r hr
    rw [go_at hr]
    exact lessens_act s c
  · rw [go_of_ended hr]
    exact (queues_tame.refl c).lessens

theorem giveUp_spec {k : Call} (h : k.Fits) (c : Connection) :
    (giveUp c k).2.id = k.id ∧ (giveUp c k).2.Fits ∧ Lessens c (giveUp c k).1 ∧
      (k.AtCheck → (giveUp c k).2.AtCheck) := by
  rcases giveUp_cases k c with hsame | ⟨r, c', hr, ha, hgive⟩
  · rw [hsame]
    exact ⟨rfl, h, (queues_tame.refl c).lessens, fun hat => hat⟩
  rw [hgive]
  obtain ⟨s, rfl, -, -⟩ := h.staged r hr
  refine ⟨rfl, fits_of_ended nofun, ?_, fun hcheck => ?_⟩
  · rcases Stage.abandoned_rest _ _ _ ha with ⟨ticket, -, rfl⟩ | ⟨limit, -, rfl⟩
    · exact (queues_tame.leave ticket c).lessens.trans (lessens_forget k.id _)
    · exact lessens_forget k.id c
  · -- before and right after the look at the flag a call stays nowhere
    rcases hcheck with ⟨hat, -⟩ | ⟨hat, -⟩
    · rw [Progress.running.inj (hr.symm.trans hat)] at ha
      cases ha
    · rw [Progress.running.inj (hr.symm.trans hat)] at ha
      cases ha

end Call

namespace Collapse

/-- What holds of every run; `first` is the number of the first call. -/
structure Sound (first : UInt64) (w : Collapse) : Prop where
  next : w.connection.nextId = first + UInt64.ofNat w.calls.length
  ids : ∀ i k, w.calls[i]? = some k → k.id = first + UInt64.ofNat i
  calls : ∀ k ∈ w.calls, k.Fits
  parties : ∀ x ∈ w.parties, x.Fits
  flag : ∀ x ∈ w.parties, x.isFlagged = true → w.connection.closed = true
  gone : w.cleared = true → ∀ id ∈ w.connection.pending, ∃ k ∈ w.calls, k.id = id ∧ k.AtCheck

variable {first : UInt64} {w : Collapse}

theorem sound_start (c : Connection) : (start c).Sound c.nextId where
  next := (UInt64.add_zero c.nextId).symm
  ids _ _ hk := nomatch hk
  calls _ hk := nomatch hk
  parties _ hx := nomatch hx
  flag _ hx := nomatch hx
  gone hc := nomatch hc

/-- Whoever has cleared the table has set the flag before. -/
theorem Sound.closed (h : w.Sound first) (hc : w.cleared = true) : w.connection.closed = true := by
  obtain ⟨x, hx, hcleared⟩ := List.any_eq_true.mp hc
  refine h.flag x hx ?_
  cases x with
  | cleared after => rfl
  | _ => cases hcleared

theorem sound_withCall (h : w.Sound first) (f : Connection → Call → Connection × Call)
    (hf : ∀ c k, k.Fits → (f c k).2.id = k.id ∧ (f c k).2.Fits ∧ Lessens c (f c k).1 ∧
      (c.closed = true → k.AtCheck → (f c k).2.AtCheck ∨ k.id ∉ (f c k).1.pending))
    (i : Nat) : (w.withCall f i).Sound first := by
  unfold withCall
  split
  · exact h
  next k hk =>
    have hi : i < w.calls.length := (List.getElem?_eq_some_iff.mp hk).1
    obtain ⟨hid, hfits, hl, hcheck⟩ := hf w.connection k (h.calls k (List.mem_of_getElem? hk))
    refine ⟨?_, fun j k' hj => ?_, fun k' hk' => ?_, h.parties, fun x hx hflag => ?_,
      fun hc id hm => ?_⟩
    · rw [List.length_set]
      exact hl.nextId.trans h.next
    · by_cases hij : i = j
      · subst hij
        rw [List.getElem?_set_self hi] at hj
        rw [← Option.some.inj hj, hid]
        exact h.ids i k hk
      · rw [List.getElem?_set_ne hij] at hj
        exact h.ids j k' hj
    · rcases List.mem_or_eq_of_mem_set hk' with hk' | rfl
      · exact h.calls k' hk'
      · exact hfits
    · exact hl.closed (h.flag x hx hflag)
    · obtain ⟨k', hk', rfl, hat⟩ := h.gone hc id (hl.pending id hm)
      obtain ⟨j, hj⟩ := List.mem_iff_getElem?.mp hk'
      by_cases hij : i = j
      · subst hij
        obtain rfl := Option.some.inj (hk.symm.trans hj)
        rcases hcheck (h.closed hc) hat with hat' | hno
        · exact ⟨_, List.mem_of_getElem? (List.getElem?_set_self hi), hid, hat'⟩
        · exact absurd hm hno
      · exact ⟨k', List.mem_of_getElem? ((List.getElem?_set_ne hij).trans hj), rfl, hat⟩

theorem sound_go (h : w.Sound first) (i elapsed : Nat) :
    (w.withCall (Call.go elapsed) i).Sound first :=
  sound_withCall h _ (fun c k hk => ⟨k.go_id elapsed c, Call.fits_go hk elapsed c,
    Call.go_lessens hk elapsed c, fun hclosed hat => Call.atCheck_go hat elapsed hclosed⟩) i

theorem sound_giveUp (h : w.Sound first) (i : Nat) : (w.withCall Call.giveUp i).Sound first :=
  sound_withCall h _ (fun c _ hk =>
    have ⟨hid, hfits, hl, hat⟩ := Call.giveUp_spec hk c
    ⟨hid, hfits, hl, fun _ hcheck => .inl (hat hcheck)⟩) i

theorem sound_begin (h : w.Sound first) (method : String) (params : Option Json) :
    (w.begin method params).Sound first := by
  let k : Call := ⟨w.connection.nextId, method, params, 0,
    Caller.progressOf (Stage.entered.rest w.connection.nextId method params)⟩
  have hbegin : w.begin method params =
      { w with connection := w.connection.register.2, calls := w.calls ++ [k] } := rfl
  rw [hbegin]
  refine ⟨?_, fun i k' hk' => ?_, fun k' hk' => ?_, h.parties, h.flag, fun hc id hm => ?_⟩
  · show w.connection.nextId + 1 = first + UInt64.ofNat (w.calls ++ [k]).length
    rw [h.next, List.length_append, UInt64.add_assoc, List.length_singleton, UInt64.ofNat_add]
    rfl
  · rcases Nat.lt_or_ge i w.calls.length with hi | hi
    · rw [List.getElem?_append_left hi] at hk'
      exact h.ids i k' hk'
    · rw [List.getElem?_append_right hi] at hk'
      have hi' : i - w.calls.length < 1 := (List.getElem?_eq_some_iff.mp hk').1
      obtain rfl : i = w.calls.length := by omega
      rw [Nat.sub_self] at hk'
      rw [← Option.some.inj hk', ← h.next]
  · rcases List.mem_append.mp hk' with hk' | hk'
    · exact h.calls k' hk'
    · rw [List.mem_singleton.mp hk']
      exact Call.fits_entered _ method params
  · rcases List.mem_append.mp hm with hm | hm
    · obtain ⟨k', hk', hid, hat⟩ := h.gone hc id hm
      exact ⟨k', List.mem_append_left _ hk', hid, hat⟩
    · exact ⟨k, List.mem_concat_self, (List.mem_singleton.mp hm).symm, .inl ⟨rfl, rfl⟩⟩

/-! ### events that are none of a call -/

structure Spares (w w' : Collapse) : Prop where
  calls : w'.calls = w.calls
  lessens : Lessens w.connection w'.connection
  parties : ∀ x ∈ w'.parties, x.Fits
  flag : ∀ x ∈ w'.parties, x.isFlagged = true → w'.connection.closed = true
  cleared : w.cleared = true → w'.cleared = true
  gone : w'.cleared = true → w.cleared = true ∨ w'.connection.pending = []

theorem Sound.spared (h : w.Sound first) {w' : Collapse} (hs : Spares w w') : w'.Sound first where
  next := by
    rw [hs.lessens.nextId, hs.calls]
    exact h.next
  ids := hs.calls ▸ h.ids
  calls := hs.calls ▸ h.calls
  parties := hs.parties
  flag := hs.flag
  gone hc id hm := by
    rw [hs.calls]
    rcases hs.gone hc with hc | hnil
    · exact h.gone hc id (hs.lessens.pending id hm)
    · rw [hnil] at hm
      cases hm

theorem Sound.spares (h : w.Sound first) {c : Connection} (hl : Lessens w.connection c) :
    Spares w { w with connection := c } :=
  ⟨rfl, hl, h.parties, fun x hx hf => hl.closed (h.flag x hx hf), fun hc => hc, .inl⟩

theorem Sound.spares_joined (h : w.Sound first) {c : Connection} (hl : Lessens w.connection c)
    {x : Party} (hx : x.Fits) (hflagged : x.isFlagged = false) {left : Bool} :
    Spares w ⟨c, w.calls, w.parties ++ [x], left⟩ := by
  have hnew {y : Party} (hy : y ∈ w.parties ++ [x]) : y ∈ w.parties ∨ y = x :=
    (List.mem_append.mp hy).imp_right List.mem_singleton.mp
  refine ⟨rfl, hl, fun y hy => ?_, fun y hy hf => ?_, fun hc => ?_, fun hc => .inl ?_⟩
  · rcases hnew hy with hy | rfl
    · exact h.parties y hy
    · exact hx
  · rcases hnew hy with hy | rfl
    · exact hl.closed (h.flag y hy hf)
    · exact absurd (hflagged.symm.trans hf) nofun
  · obtain ⟨y, hy, hcleared⟩ := List.any_eq_true.mp hc
    exact List.any_eq_true.mpr ⟨y, List.mem_append_left _ hy, hcleared⟩
  · obtain ⟨y, hy, hcleared⟩ := List.any_eq_true.mp hc
    rcases hnew hy with hy | rfl
    · exact List.any_eq_true.mpr ⟨y, hy, hcleared⟩
    · cases y with
      | cleared after => cases hflagged
      | _ => cases hcleared

theorem Sound.spares_withParty (h : w.Sound first) (f : Connection → Party → Connection × Party)
    (hf : ∀ c x, x.Fits → (x.isFlagged = true → c.closed = true) →
      (f c x).2.Fits ∧ Lessens c (f c x).1 ∧
        ((f c x).2.isFlagged = true → (f c x).1.closed = true) ∧
        (x.isCleared = true → (f c x).2.isCleared = true) ∧
        ((f c x).2.isCleared = true → x.isCleared = true ∨ (f c x).1.pending = []))
    (i : Nat) : Spares w (w.withParty f i) := by
  unfold withParty
  split
  · exact h.spares (queues_tame.refl w.connection).lessens
  next x hx =>
    have hmem : x ∈ w.parties := List.mem_of_getElem? hx
    have hi : i < w.parties.length := (List.getElem?_eq_some_iff.mp hx).1
    obtain ⟨hfits, hl, hflag, hstays, hcleared⟩ :=
      hf w.connection x (h.parties x hmem) (h.flag x hmem)
    refine ⟨rfl, hl, fun y hy => ?_, fun y hy hfl => ?_, fun hc => ?_, fun hc => ?_⟩
    · rcases List.mem_or_eq_of_mem_set hy with hy | rfl
      · exact h.parties y hy
      · exact hfits
    · rcases List.mem_or_eq_of_mem_set hy with hy | rfl
      · exact hl.closed (h.flag y hy hfl)
      · exact hflag hfl
    · obtain ⟨y, hy, hcl⟩ := List.any_eq_true.mp hc
      obtain ⟨j, hj⟩ := List.mem_iff_getElem?.mp hy
      by_cases hij : i = j
      · subst hij
        obtain rfl := Option.some.inj (hx.symm.trans hj)
        exact List.any_eq_true.mpr
          ⟨_, List.mem_of_getElem? (List.getElem?_set_self hi), hstays hcl⟩
      · exact List.any_eq_true.mpr
          ⟨y, List.mem_of_getElem? ((List.getElem?_set_ne hij).trans hj), hcl⟩
    · obtain ⟨y, hy, hcl⟩ := List.any_eq_true.mp hc
      rcases List.mem_or_eq_of_mem_set hy with hy | rfl
      · exact .inl (List.any_eq_true.mpr ⟨y, hy, hcl⟩)
      · exact (hcleared hcl).imp_left fun hcl => List.any_eq_true.mpr ⟨x, hmem, hcl⟩

theorem Sound.spares_read (h : w.Sound first) : Spares w w.read := by
  unfold read
  split
  · split
    · have hstop : Tame w.connection w.connection.stopReading := ⟨rfl, rfl, rfl, rfl⟩
      exact h.spares_joined hstop.lessens
        (Party.fits_coming (Routine.movesBy_done ()) (Routine.movesBy_done ())) rfl
    · exact h.spares (lessens_readNext w.connection)
  · exact h.spares (queues_tame.refl w.connection).lessens

theorem Sound.spares_write (h : w.Sound first) : Spares w w.write := by
  unfold write
  split
  · split
    · have htake : Tame w.connection w.connection.takeMessage := ⟨rfl, rfl, rfl, rfl⟩
      have hstop (c : Connection) : Tame c c.stopWriting := ⟨rfl, rfl, rfl, rfl⟩
      exact h.spares_joined htake.lessens
        (Party.fits_coming (Routine.movesBy_done ()) (Routine.movesBy_change hstop)) rfl
    · exact h.spares (lessens_writeNext w.connection)
  · exact h.spares (queues_tame.refl w.connection).lessens

/-- Events of the calls. -/
def ofCalls : Event → Bool
  | .begin .. | .go .. | .drop _ => true
  | _ => false

theorem Sound.spares_apply (h : w.Sound first) (e : Event) (he : ofCalls e = false) :
    Spares w (w.apply e) := by
  have hsame : Lessens w.connection w.connection := (queues_tame.refl w.connection).lessens
  have htame {c : Connection} (ht : Tame w.connection c) : Spares w { w with connection := c } :=
    h.spares ht.lessens
  cases e with
  | begin method params => cases he
  | go call elapsed => cases he
  | drop call => cases he
  | notify method params =>
    have hnotice : Party.Fits (.notice ((notify method params).run.bind fun _ => .done ())) :=
      (tame_notify method params).bind fun _ => Routine.movesBy_done ()
    exact h.spares_joined hsame hnotice rfl
  | close grace =>
    exact h.spares_joined hsame
      (Party.fits_coming (tame_seeOff grace) (Routine.movesBy_done ())) rfl
  | goOther party elapsed =>
    refine h.spares_withParty (Party.go elapsed) (fun c x hx hflag => ?_) party
    obtain ⟨hfits, hl⟩ := Party.go_lessens hx elapsed c
    obtain ⟨hfl, hcl⟩ := Party.go_flagged elapsed c hflag hx
    refine ⟨hfits, hl, hfl, fun hc => ?_, hcl⟩
    cases x with
    | cleared after => rfl
    | _ => cases hc
  | dropOther party =>
    refine h.spares_withParty Party.giveUp (fun c x hx hflag => ?_) party
    obtain ⟨hfits, hl, hfl, hcl⟩ := Party.giveUp_spec hx c
    refine ⟨hfits, hl, fun hf => hl.closed (hflag (hfl hf)), fun hc => ?_, fun hc => .inl (hcl hc)⟩
    cases x with
    | cleared after => rfl
    | _ => cases hc
  | read => exact h.spares_read
  | write => exact h.spares_write
  | deliver bytes =>
    refine htame (c := w.connection.deliver bytes) ?_
    unfold deliver
    split
    · exact queues_tame.refl w.connection
    · exact ⟨rfl, rfl, rfl, rfl⟩
  | hangUp => exact htame ⟨rfl, rfl, rfl, rfl⟩
  | stopListening => exact htame ⟨rfl, rfl, rfl, rfl⟩
  | exited =>
    refine htame (c := w.connection.exited) ?_
    rw [exited_eq]
    exact ⟨rfl, rfl, rfl, rfl⟩
  | kill =>
    refine htame (c := w.connection.kill) ?_
    rw [kill_eq]
    exact ⟨rfl, rfl, rfl, rfl⟩

/-- Every event keeps a run sound. -/
theorem sound_apply (h : w.Sound first) (e : Event) : (w.apply e).Sound first := by
  cases he : ofCalls e with
  | false => exact h.spared (h.spares_apply e he)
  | true =>
    cases e with
    | begin method params => exact sound_begin h method params
    | go call elapsed => exact sound_go h call elapsed
    | drop call => exact sound_giveUp h call
    | _ => cases he

theorem sound_run (events : List Event) (w : Collapse) (h : w.Sound first) :
    (w.run events).Sound first := by
  induction events generalizing w with
  | nil => exact h
  | cons e events ih => exact ih _ (sound_apply h e)

end Collapse

end CodeBridge
