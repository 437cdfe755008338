import CodeBridge.Proofs.Session.Accounts

/-!
# Moves of the users of a session

Whatever a call does is one of a few kinds of moves, and each of them keeps what is so at every
moment and what the others rely on.

* `Calm`, `move_calm`   nothing changes that the agreement is about;
* `move_joinSlot`, `move_leaveSlot`, `move_setSlot`   the slot;
* `move_joinClient`, `move_leaveClient`   the lock of a client;
* `move_life`, `move_asked`   the lifecycle of a client, and what its server is asked;
* `move_documents`   its documents.
-/

namespace CodeBridge

namespace Office

open Course (Names)

/-! ## lists of what is noted -/

theorem count_set {α : Type} [BEq α] [LawfulBEq α] [DecidableEq α] {xs : List α} {i : Nat} {x : α} (y a : α)
    (hx : xs[i]? = some x) : (xs.set i y).count a + (if x = a then 1 else 0) =
      xs.count a + if y = a then 1 else 0 := by
  obtain ⟨hi, rfl⟩ := List.getElem?_eq_some_iff.mp hx
  have hpos : xs[i] = a → 1 ≤ xs.count a := by
    rintro rfl
    exact List.count_pos_iff.mpr (List.getElem_mem hi)
  rw [List.count_set hi]
  simp only [beq_iff_eq]
  split
  next h => have := hpos h; omega
  · omega

theorem Started.set {ss : List Standing} {i : Nat} {s s' : Standing} (hs : ss[i]? = some s)
    (hwon : s.won = true → s'.won = true) (h : Started ss) : Started (ss.set i s') := by
  obtain ⟨t, ht, hw⟩ := h
  obtain ⟨j, hj⟩ := List.getElem?_of_mem ht
  by_cases hij : i = j
  · subst hij
    obtain rfl := Option.some.inj (hs.symm.trans hj)
    exact ⟨s', List.mem_set (List.getElem?_eq_some_iff.mp hs).1 s', hwon hw⟩
  · exact ⟨t, List.mem_of_getElem? ((List.getElem?_set_ne hij).trans hj), hw⟩

theorem Started.of_set {ss : List Standing} {i : Nat} {s' : Standing} (h : Started (ss.set i s')) :
    s'.won = true ∨ Started ss := by
  obtain ⟨t, ht, hw⟩ := h
  rcases List.mem_or_eq_of_mem_set ht with ht | rfl
  · exact .inr ⟨t, ht, hw⟩
  · exact .inl hw

theorem Direct.set {ss : List Standing} {k i : Nat} {s s' : Standing} (hs : ss[i]? = some s)
    (hdeed : s'.deed = s.deed) (h : Direct k ss) : Direct k (ss.set i s') := by
  obtain ⟨t, ht, hw⟩ := h
  obtain ⟨j, hj⟩ := List.getElem?_of_mem ht
  by_cases hij : i = j
  · subst hij
    obtain rfl := Option.some.inj (hs.symm.trans hj)
    exact ⟨s', List.mem_set (List.getElem?_eq_some_iff.mp hs).1 s', hdeed ▸ hw⟩
  · exact ⟨t, List.mem_of_getElem? ((List.getElem?_set_ne hij).trans hj), hw⟩

/-! ## what is so of the slot -/

section
variable {b : Board} {gone : List Nat} {ss : List Standing}

theorem Slotted.congr {b' : Board} (h : Slotted b gone ss) (hslot : b'.slot = b.slot)
    (hlock : b'.slotLock = b.slotLock) (hcount : b.count ≤ b'.count) (hlife : b'.life = b.life) :
    Slotted b' gone ss where
  inside k hk := (h.inside k (hslot ▸ hk)).trans_le hcount
  known k hk := (h.known k hk).trans_le hcount
  started hs := by
    unfold Usable
    rw [hslot, hlife]
    exact h.started hs
  left := hlife ▸ h.left
  leaver k hk hg := by
    rw [hlock]
    exact h.leaver k (hslot ▸ hk) hg
  late s hs hl := hslot.trans (h.late s hs hl)
  again := h.again

theorem Slotted.set {lock : SharedLock} {i : Nat} {s s' : Standing} (h : Slotted b gone ss)
    (hs : ss[i]? = some s) (hdeed : s'.deed = s.deed) (hlate : s'.late = s.late)
    (hagain : s'.again = s.again) (hwon : s.won = true → s'.won = true)
    (hwin : s'.won = true → s.won = true ∨ Usable b)
    (hown : ∀ k n, b.slot = .running k → k ∈ gone → s.leaving = true → s.seat = some (n, false) →
      s'.leaving = true ∧ s'.seat = some (n, false) ∧ lock.holds n = true)
    (hothers : ∀ (j : Nat) t n, j ≠ i → ss[j]? = some t → t.seat = some (n, false) →
      b.slotLock.holds n = true → lock.holds n = true) :
    Slotted { b with slotLock := lock } gone (ss.set i s') where
  inside := h.inside
  known := h.known
  started hst := by
    rcases hst.of_set with hw | hst
    · rcases hwin hw with hw | hu
      · exact h.started ⟨s, List.mem_of_getElem? hs, hw⟩
      · exact hu
    · exact h.started hst
  left k hk := (h.left k hk).imp id (.set hs hdeed)
  leaver k hk hg := by
    obtain ⟨j, t, n, ht, hleaving, hseat, hholds⟩ := h.leaver k hk hg
    by_cases hij : i = j
    · subst hij
      obtain rfl := Option.some.inj (hs.symm.trans ht)
      have hi := (List.getElem?_eq_some_iff.mp hs).1
      exact ⟨i, s', n, List.getElem?_set_self hi, hown k n hk hg hleaving hseat⟩
    · exact ⟨j, t, n, (List.getElem?_set_ne hij).trans ht, hleaving, hseat,
        hothers j t n (Ne.symm hij) ht hseat hholds⟩
  late t ht hl := by
    rcases List.mem_or_eq_of_mem_set ht with ht | rfl
    · exact h.late t ht hl
    · exact h.late s (List.mem_of_getElem? hs) (hlate ▸ hl)
  again t ht ha := by
    refine .set hs hwon ?_
    rcases List.mem_or_eq_of_mem_set ht with ht | rfl
    · exact h.again t ht ha
    · exact h.again s (List.mem_of_getElem? hs) (hagain ▸ ha)

theorem Slotted.change {slot : Slot} {gone' : List Nat} (h : Slotted b gone ss)
    (hnew : ∀ k, slot = .running k → k < b.count ∧ k ∉ gone')
    (hsub : ∀ k ∈ gone, k ∈ gone') (hknown : ∀ k ∈ gone', k < b.count)
    (husable : Started ss → Usable { b with slot := slot })
    (hstopped : b.slot = .stopped → slot = .stopped) :
    Slotted { b with slot := slot } gone' ss where
  inside k hk := (hnew k hk).1
  known := hknown
  started := husable
  left k hk := (h.left k hk).imp (hsub k) id
  leaver k hk hg := absurd hg (hnew k hk).2
  late s hs hl := hstopped (h.late s hs hl)
  again := h.again

/-- A call that has the slot begins to see a client off. -/
theorem Slotted.see {i k n : Nat} {s : Standing} (h : Slotted b gone ss) (hs : ss[i]? = some s)
    (hseat : s.seat = some (n, false)) (hholds : b.slotLock.holds n = true) (hk : k < b.count) :
    Slotted b (k :: gone) (ss.set i { s with leaving := true }) where
  inside := h.inside
  known c hc := by
    rcases List.mem_cons.mp hc with rfl | hc
    · exact hk
    · exact h.known c hc
  started hst := h.started (hst.of_set.elim (fun hw => ⟨s, List.mem_of_getElem? hs, hw⟩) id)
  left c hc := (h.left c hc).imp (List.mem_cons_of_mem k) (.set hs rfl)
  leaver c _ _ :=
    have hi := (List.getElem?_eq_some_iff.mp hs).1
    ⟨i, { s with leaving := true }, n, List.getElem?_set_self hi, rfl, hseat, hholds⟩
  late t ht hl := by
    rcases List.mem_or_eq_of_mem_set ht with ht | rfl
    · exact h.late t ht hl
    · exact h.late s (List.mem_of_getElem? hs) hl
  again t ht ha := by
    refine .set hs id ?_
    rcases List.mem_or_eq_of_mem_set ht with ht | rfl
    · exact h.again t ht ha
    · exact h.again s (List.mem_of_getElem? hs) ha

theorem Slotted.go {k : Nat} {l : Lifecycle} {docs : Nat → List (String × Nat)}
    (h : Slotted b gone ss) (hl : l ≠ .uninitialized)
    (hleft : l = .shutDown → k ∈ gone ∨ Direct k ss) :
    Slotted { b with docs := docs, life := Function.update b.life k l } gone ss where
  inside := h.inside
  known := h.known
  started hst := (h.started hst).imp id fun ⟨c, hslot, hlife⟩ => ⟨c, hslot, by
    show Function.update b.life k l c ≠ .uninitialized
    by_cases hc : c = k
    · subst hc
      rwa [Function.update_self]
    · rwa [Function.update_of_ne hc]⟩
  left c hc := by
    replace hc : Function.update b.life k l c = .shutDown := hc
    by_cases hck : c = k
    · subst hck
      rw [Function.update_self] at hc
      exact hleft hc
    · rw [Function.update_of_ne hck] at hc
      exact h.left c hc
  leaver := h.leaver
  late := h.late
  again := h.again

theorem Slotted.concat {s : Standing} (h : Slotted b gone ss) (hlate : s.late = true → b.slot = .stopped)
    (hagain : s.again = true → Started ss) (hwon : s.won = false) : Slotted b gone (ss ++ [s]) where
  inside := h.inside
  known := h.known
  started := fun ⟨t, ht, hw⟩ => by
    rcases List.mem_append.mp ht with ht | ht
    · exact h.started ⟨t, ht, hw⟩
    · rw [List.mem_singleton.mp ht, hwon] at hw
      cases hw
  left k hk := (h.left k hk).imp id fun ⟨t, ht, hd⟩ => ⟨t, List.mem_append_left _ ht, hd⟩
  leaver k hk hg := by
    obtain ⟨j, t, n, ht, hrest⟩ := h.leaver k hk hg
    exact ⟨j, t, n, Desk.getElem?_concat_of_some ht, hrest⟩
  late t ht hl := by
    rcases List.mem_append.mp ht with ht | ht
    · exact h.late t ht hl
    · exact hlate (List.mem_singleton.mp ht ▸ hl)
  again t ht ha := by
    have hst : Started ss := by
      rcases List.mem_append.mp ht with ht | ht
      · exact h.again t ht ha
      · exact hagain (List.mem_singleton.mp ht ▸ ha)
    obtain ⟨u, hu, hw⟩ := hst
    exact ⟨u, List.mem_append_left _ hu, hw⟩

end

/-! ## what is so of documents -/

section
variable {docs : Nat → List (String × Nat)} {life : Nat → Lifecycle} {grips : List Grip}

/-- What is noted of a call changes, and not who holds what. -/
theorem Papers.note {i : Nat} {x y : Grip} (h : Papers docs life grips) (hx : grips[i]? = some x)
    (hsame : ∀ k uri, life k ≠ .shutDown → (y = .holds k uri ↔ x = .holds k uri)) :
    Papers docs life (grips.set i y) where
  counts := h.counts
  keys := h.keys
  emptied := h.emptied
  ledger k hk uri := by
    have hcount := count_set y (.holds k uri) hx
    simp only [hsame k uri hk] at hcount
    exact (h.ledger k hk uri).trans (Nat.add_right_cancel hcount).symm

theorem Papers.change {i k : Nat} {x y : Grip} {list : List (String × Nat)}
    (h : Papers docs life grips) (hx : grips[i]? = some x) (hcounts : ∀ doc ∈ list, 1 ≤ doc.2)
    (hkeys : (list.map (·.1)).Nodup) (hk : life k ≠ .shutDown)
    (hothers : ∀ c uri, c ≠ k → (y = .holds c uri ↔ x = .holds c uri))
    (hledger : ∀ uri, countIn list uri + (if x = .holds k uri then 1 else 0) =
      countIn (docs k) uri + if y = .holds k uri then 1 else 0) :
    Papers (Function.update docs k list) life (grips.set i y) where
  counts c := by
    by_cases hc : c = k
    · subst hc
      rw [Function.update_self]
      exact hcounts
    · rw [Function.update_of_ne hc]
      exact h.counts c
  keys c := by
    by_cases hc : c = k
    · subst hc
      rw [Function.update_self]
      exact hkeys
    · rw [Function.update_of_ne hc]
      exact h.keys c
  emptied c hl := by
    have hc : c ≠ k := by
      rintro rfl
      exact hk hl
    rw [Function.update_of_ne hc]
    exact h.emptied c hl
  ledger c hl uri := by
    have hcount := count_set y (.holds c uri) hx
    by_cases hc : c = k
    · subst hc
      rw [Function.update_self]
      have hold := h.ledger c hl uri
      have hnew := hledger uri
      omega
    · rw [Function.update_of_ne hc, h.ledger c hl uri]
      simp only [hothers c uri hc] at hcount
      exact (Nat.add_right_cancel hcount).symm

/-- The lifecycle of a client goes on; when the client is left, its list is emptied. -/
theorem Papers.go {k : Nat} {l : Lifecycle} (h : Papers docs life grips)
    (hk : life k = .shutDown → l = .shutDown) :
    Papers (Function.update docs k (if l = .shutDown then [] else docs k))
      (Function.update life k l) grips where
  counts c := by
    by_cases hc : c = k
    · subst hc
      rw [Function.update_self]
      split
      · exact nofun
      · exact h.counts c
    · rw [Function.update_of_ne hc]
      exact h.counts c
  keys c := by
    by_cases hc : c = k
    · subst hc
      rw [Function.update_self]
      split
      · exact List.nodup_nil
      · exact h.keys c
    · rw [Function.update_of_ne hc]
      exact h.keys c
  emptied c hl := by
    by_cases hc : c = k
    · subst hc
      rw [Function.update_self] at hl
      rw [Function.update_self, if_pos hl]
    · rw [Function.update_of_ne hc] at hl
      rw [Function.update_of_ne hc]
      exact h.emptied c hl
  ledger c hl uri := by
    by_cases hc : c = k
    · subst hc
      rw [Function.update_self] at hl
      rw [Function.update_self, if_neg hl]
      exact h.ledger c (fun hw => hl (hk hw)) uri
    · rw [Function.update_of_ne hc] at hl
      rw [Function.update_of_ne hc]
      exact h.ledger c hl uri

end

theorem Papers.concat {docs : Nat → List (String × Nat)} {life : Nat → Lifecycle}
    {grips : List Grip} (h : Papers docs life grips) : Papers docs life (grips ++ [.fresh]) where
  counts := h.counts
  keys := h.keys
  emptied := h.emptied
  ledger k hk uri := by
    rw [List.count_append]
    exact h.ledger k hk uri

/-! ## what is so of requests to shut down -/

section
variable {life : Nat → Lifecycle} {asked : Nat → Nat} {partings : List (Option Nat)} {i k : Nat}

theorem Asking.go {l : Lifecycle} (h : Asking life asked partings)
    (hk : life k = .shutDown → l = .shutDown) :
    Asking (Function.update life k l) asked partings := by
  intro c
  have hc := h c
  by_cases hck : c = k
  · subst hck
    rw [Function.update_self]
    split
    · split at hc <;> omega
    next hl => rwa [if_neg fun hw => hl (hk hw)] at hc
  · rwa [Function.update_of_ne hck]

/-- Who is the first to leave a client may ask its server to shut down. -/
theorem Asking.part {x : Option Nat} (h : Asking life asked partings) (hx : partings[i]? = some x)
    (hk : life k ≠ .shutDown) :
    Asking (Function.update life k .shutDown) asked (partings.set i (some k)) := by
  intro c
  have hc := h c
  have hcount := count_set (some k) (some c) hx
  by_cases hck : c = k
  · subst hck
    rw [if_neg hk] at hc
    rw [if_pos rfl] at hcount
    rw [Function.update_self, if_pos rfl]
    omega
  · have hne : some k ≠ some c := fun h => hck (Option.some.inj h).symm
    rw [if_neg hne] at hcount
    rw [Function.update_of_ne hck]
    omega

theorem Asking.forgo {x : Option Nat} (h : Asking life asked partings)
    (hx : partings[i]? = some x) : Asking life asked (partings.set i none) := by
  intro c
  have hc := h c
  have hcount := count_set none (some c) hx
  have hnone : (none : Option Nat) ≠ some c := nofun
  rw [if_neg hnone] at hcount
  omega

theorem Asking.ask (h : Asking life asked partings) (hx : partings[i]? = some (some k)) :
    Asking life (fun c => asked c + if c = k then 1 else 0) (partings.set i none) := by
  intro c
  have hc := h c
  have hcount := count_set none (some c) hx
  have hnone : (none : Option Nat) ≠ some c := nofun
  rw [if_neg hnone] at hcount
  by_cases hck : c = k
  · subst hck
    rw [if_pos rfl] at hcount
    dsimp only
    rw [if_pos rfl]
    omega
  · have hne : some k ≠ some c := fun h => hck (Option.some.inj h).symm
    rw [if_neg hne] at hcount
    dsimp only
    rw [if_neg hck]
    omega

theorem Asking.concat (h : Asking life asked partings) : Asking life asked (partings ++ [none]) := by
  intro c
  rw [List.count_append]
  exact h c

end

/-! ## hosts -/

section
variable {h h' : Host} {k : Nat} {c : Client}

theorem clientAt_setClient (hk : k < h.clients.length) (j : Nat) :
    (h.setClient k c).clientAt j = if j = k then c else h.clientAt j := by
  unfold Host.clientAt Host.setClient
  dsimp only
  by_cases hj : j = k
  · subst hj
    rw [if_pos rfl, List.getElem?_set_self hk, Option.getD_some]
  · rw [if_neg hj, List.getElem?_set_ne (Ne.symm hj)]

theorem clientAt_setClient_self (hk : k < h.clients.length) : (h.setClient k c).clientAt k = c :=
  (clientAt_setClient hk k).trans (if_pos rfl)

theorem clientAt_setClient_ne {j : Nat} (hj : j ≠ k) :
    (h.setClient k c).clientAt j = h.clientAt j := by
  unfold Host.clientAt Host.setClient
  dsimp only
  rw [List.getElem?_set_ne (Ne.symm hj)]

theorem setClient_of_le (hk : h.clients.length ≤ k) : h.setClient k c = h := by
  unfold Host.setClient
  rw [List.set_eq_of_length_le hk]

theorem length_setClient : (h.setClient k c).clients.length = h.clients.length :=
  List.length_set

theorem board_setClient (hk : k < h.clients.length) : board (h.setClient k c) =
    { board h with
      locks := Function.update (board h).locks k c.lock
      docs := Function.update (board h).docs k c.openDocs
      life := Function.update (board h).life k c.lifecycle } := by
  have hcolumn {β : Type} (f : Client → β) : (fun j => f ((h.setClient k c).clientAt j)) =
      Function.update (fun j => f (h.clientAt j)) k (f c) := by
    funext j
    rw [clientAt_setClient hk j]
    by_cases hj : j = k
    · subst hj
      rw [if_pos rfl, Function.update_self]
    · rw [if_neg hj, Function.update_of_ne hj]
  unfold board
  rw [length_setClient, hcolumn Client.lock, hcolumn Client.openDocs, hcolumn Client.lifecycle]
  rfl

/-! ### what does not show -/

/-- The connections stay as they are, and no client is added. -/
structure Hushed (h h' : Host) : Prop where
  count : h'.clients.length = h.clients.length
  link : ∀ k, (h'.clientAt k).connection = (h.clientAt k).connection

theorem Hushed.told (hh : Hushed h h') (k : Nat) : told k (h, h') = [] := by
  unfold Office.told Course.added
  rw [hh.link k]
  exact List.drop_length

theorem Hushed.partings (hh : Hushed h h') (k : Nat) : partings k (h, h') = 0 := by
  unfold Office.partings
  rw [hh.told k]
  rfl

theorem hushed_setClient (hc : c.connection = (h.clientAt k).connection) :
    Hushed h (h.setClient k c) where
  count := length_setClient
  link j := by
    by_cases hj : j = k
    · subst hj
      by_cases hlt : j < h.clients.length
      · rw [clientAt_setClient_self hlt, hc]
      · rw [setClient_of_le (Nat.le_of_not_lt hlt)]
    · rw [clientAt_setClient_ne hj]

theorem level_of_docs (hd : ∀ k, (h'.clientAt k).openDocs = (h.clientAt k).openDocs) :
    Level h h' := fun k uri => by
  unfold held
  rw [Client.holders_congr (hd k) uri]

theorem docs_setClient (hc : c.openDocs = (h.clientAt k).openDocs) (j : Nat) :
    ((h.setClient k c).clientAt j).openDocs = (h.clientAt j).openDocs := by
  by_cases hj : j = k
  · subst hj
    by_cases hlt : j < h.clients.length
    · rw [clientAt_setClient_self hlt, hc]
    · rw [setClient_of_le (Nat.le_of_not_lt hlt)]
  · rw [clientAt_setClient_ne hj]

/-- What is noted of a change that sends nothing and leaves the documents alone. -/
theorem noted_hushed {e e' : Entry} (hh : Hushed h h') (hlevel : Level h h')
    (hdeed : e'.deed = e.deed) (hlate : e'.late = e.late) (hagain : e'.again = e.again)
    (hadded : e'.added = e.added)
    (hward : e'.ward = e.ward ∨ e.ward = none ∧
      ∃ k, e'.ward = some k ∧ (h.slot = .running k ∨ e.added = some k))
    (hview : e'.view = none ∨ e'.view = some h') (hgrip : e'.grip = e.grip)
    (hgreeted : e'.greeted = e.greeted ∨ ∃ k, e'.greeted = some k ∧ greets k (h, h') = true) :
    Noted h h' e e' where
  deed := hdeed
  late := hlate
  again := hagain
  added := .inl hadded
  ward := hward
  view := hview
  grip _ := by
    rw [hgrip]
    exact .same hlevel
  still _ := hgrip
  speech k m hm := by
    rw [hh.told k] at hm
    cases hm
  count _ := hh.count
  greeted := hgreeted

end

/-! ## moves -/

structure Move (i : Nat) (w w' : World) : Prop where
  sound : Sound (board w'.1) w'.2
  may : May i w w'

section
variable {h h' : Host} {g g' : Notes} {i j : Nat} {e e' f : Entry}

theorem getElem?_mapped {β : Type} (p : Entry → β) (he : g.entries[i]? = some e) :
    (g.entries.map p)[i]? = some (p e) := by
  rw [List.getElem?_map, he]
  rfl

/-! ### what others are left -/

theorem lasting_put (ho : Onward h h') (he : g.entries[i]? = some e)
    (hg : g'.entries = g.entries.set i e') (hdeed : e'.deed = e.deed)
    (hwon : e.won = true → e'.won = true) (hgone : ∀ k ∈ g.gone, k ∈ g'.gone) :
    Lasting (h, g) (h', g') := by
  have hst : standings (h', g') = (standings (h, g)).set i e'.toStanding := by
    unfold standings
    rw [hg, List.map_set]
  have hs : (standings (h, g))[i]? = some e.toStanding := getElem?_mapped (·.toStanding) he
  refine { ho with started := fun hs' => ?_, direct := fun k hd => ?_, gone := hgone }
  · rw [hst]
    exact hs'.set hs hwon
  · rw [hst]
    exact hd.set hs hdeed

theorem slotKept_put (hslot : h'.slot = h.slot) (hgone : g'.gone = g.gone)
    (he : g.entries[i]? = some e) (hg : g'.entries = g.entries.set i e')
    (hwon : e'.won = true → e.won = true) : SlotKept (h, g) (h', g') where
  slot := hslot
  gone := hgone
  started hs := by
    unfold standings at hs ⊢
    dsimp only at hs ⊢
    rw [hg, List.map_set] at hs
    exact hs.of_set.elim (fun hw => ⟨_, List.mem_of_getElem? (getElem?_mapped (·.toStanding) he),
      hwon hw⟩) id

theorem may_put (ho : Onward h h') (he : g.entries[i]? = some e)
    (hg : g'.entries = g.entries.set i e') (hn : Noted h h' e e')
    (hasked : ∀ k, g'.asked k = g.asked k + partings k (h, h'))
    (hsecure : ∀ (j : Nat) f, j ≠ i → g.entries[j]? = some f → Secure f (h, g) (h', g')) :
    May i (h, g) (h', g') where
  length := by
    show g'.entries.length = _
    rw [hg, List.length_set]
  own d hd := by
    obtain rfl := Option.some.inj (he.symm.trans hd)
    refine ⟨e', ?_, hn⟩
    show g'.entries[i]? = _
    rw [hg]
    exact List.getElem?_set_self (List.getElem?_eq_some_iff.mp he).1
  asked := hasked
  onward := ho
  others j hj :=
    ⟨fun f hf => by
      show g'.entries[j]? = _
      rw [hg]
      exact (List.getElem?_set_ne (Ne.symm hj)).trans hf, fun f hf => hsecure j f hj hf⟩

/-! ### tickets -/

theorem Sound.seat_unique (hs : Sound (board h) g) (he : g.entries[i]? = some e)
    (hf : g.entries[j]? = some f) {n : Nat} {b b' : Bool} (hn : e.seat = some (n, b))
    (hm : f.seat = some (n, b')) : i = j := by
  have hticket {k : Nat} {d : Entry} {c : Bool} (hd : g.entries[k]? = some d)
      (hc : d.seat = some (n, c)) :
      ((g.entries.map (·.seat)).map (·.map (·.1)))[k]? = some (some n) := by
    rw [List.getElem?_map, getElem?_mapped _ hd, hc]
    rfl
  exact hs.lines.slot.unique i j n (hticket he hn) (hticket hf hm)

theorem Sound.seat_alone (hs : Sound (board h) g) (he : g.entries[i]? = some e)
    (hf : g.entries[j]? = some f) {n m : Nat} {b : Bool} (hn : e.seat = some (n, false))
    (hholds : h.slotLock.holds n = true) (hm : f.seat = some (m, b))
    (hholds' : h.slotLock.holds m = true) : i = j := by
  have hmem : some (n, false) ∈ g.entries.map (·.seat) :=
    hn ▸ List.mem_of_getElem? (getElem?_mapped (·.seat) he)
  obtain rfl := SharedLock.holds_alone (hs.lines.kinds n false hmem) hholds hholds'
  exact hs.seat_unique he hf hn hm

theorem Sound.place_unique (hs : Sound (board h) g) (he : g.entries[i]? = some e)
    (hf : g.entries[j]? = some f) {k n : Nat} (hn : e.place = some (k, n))
    (hm : f.place = some (k, n)) : i = j := by
  have hticket {l : Nat} {d : Entry} (hd : g.entries[l]? = some d) (hc : d.place = some (k, n)) :
      ((g.entries.map (·.place)).map (ticketAt k))[l]? = some (some n) := by
    rw [List.getElem?_map, getElem?_mapped _ hd, hc]
    show some (if k = k then some n else none) = _
    rw [if_pos rfl]
  exact (hs.lines.client k).unique i j n (hticket he hn) (hticket hf hm)

theorem Sound.place_alone (hs : Sound (board h) g) (he : g.entries[i]? = some e)
    (hf : g.entries[j]? = some f) {k n m : Nat} (hn : e.place = some (k, n))
    (hholds : (h.clientAt k).lock.holds n = true) (hm : f.place = some (k, m))
    (hholds' : (h.clientAt k).lock.holds m = true) : i = j := by
  obtain rfl := Lock.holds_unique hholds hholds'
  exact hs.place_unique he hf hn hm

/-! ### nothing changes that the agreement is about -/

structure Calm (h h' : Host) : Prop where
  slot : h'.slot = h.slot
  slotLock : h'.slotLock = h.slotLock
  count : h.clients.length ≤ h'.clients.length
  lock : ∀ k, (h'.clientAt k).lock = (h.clientAt k).lock
  docs : ∀ k, (h'.clientAt k).openDocs = (h.clientAt k).openDocs
  life : ∀ k, (h'.clientAt k).lifecycle = (h.clientAt k).lifecycle
  closed : ∀ k, (h.clientAt k).connection.closed = true → (h'.clientAt k).connection.closed = true

theorem Calm.refl (h : Host) : Calm h h :=
  ⟨rfl, rfl, Nat.le_refl _, fun _ => rfl, fun _ => rfl, fun _ => rfl, fun _ => id⟩

theorem Calm.onward (hc : Calm h h') : Onward h h' where
  count := hc.count
  stopped hs := hc.slot.trans hs
  life k := Nat.le_of_eq (congrArg Lifecycle.rank (hc.life k)).symm
  closed := hc.closed

theorem Calm.secure (hc : Calm h h') (hl : Lasting (h, g) (h', g'))
    (hk : SlotKept (h, g) (h', g')) (f : Entry) : Secure f (h, g) (h', g') where
  seat n b _ hn := ⟨by rwa [hc.slotLock], hk⟩
  place k n _ hn := ⟨by rwa [hc.lock k], hc.docs k, hc.life k⟩
  lasting := hl

theorem Sound.calm (hs : Sound (board h) g) (hc : Calm h h') : Sound (board h') g := by
  have hlock : (board h').slotLock = (board h).slotLock := hc.slotLock
  have hlocks : (board h').locks = (board h).locks := funext hc.lock
  have hdocs : (board h').docs = (board h).docs := funext hc.docs
  have hlife : (board h').life = (board h).life := funext hc.life
  refine ⟨?_, hs.slotted.congr hc.slot hc.slotLock hc.count hlife, ?_, ?_⟩
  · rw [hlocks, hlock]
    exact hs.lines
  · rw [hdocs, hlife]
    exact hs.papers
  · rw [hlife]
    exact hs.asking

section
variable {lock : SharedLock} {locks : Nat → Lock} {docs : Nat → List (String × Nat)}
  {life : Nat → Lifecycle} {asked : Nat → Nat} {b : Board} {gone : List Nat}

theorem lines_put
    (hl : Lines lock locks (g.entries.map (·.seat)) (g.entries.map (·.place)))
    (he : g.entries[i]? = some e) (hseat : e'.seat = e.seat) (hplace : e'.place = e.place) :
    Lines lock locks ((g.put i e').entries.map (·.seat)) ((g.put i e').entries.map (·.place)) := by
  have hseats := map_set_same (f := (·.seat)) he hseat
  have hplaces := map_set_same (f := (·.place)) he hplace
  unfold Notes.put
  dsimp only
  rwa [hseats, hplaces]

theorem slotted_put (hs : Slotted b gone (g.entries.map (·.toStanding)))
    (he : g.entries[i]? = some e) (hst : f.toStanding = e.toStanding) :
    Slotted b gone ((g.put i f).entries.map (·.toStanding)) := by
  have hstandings := map_set_same (f := (·.toStanding)) he hst
  unfold Notes.put
  dsimp only
  rwa [hstandings]

theorem papers_put (hp : Papers docs life (g.entries.map (·.grip))) (he : g.entries[i]? = some e)
    (hgrip : ∀ k uri, life k ≠ .shutDown → (e'.grip = .holds k uri ↔ e.grip = .holds k uri)) :
    Papers docs life ((g.put i e').entries.map (·.grip)) := by
  unfold Notes.put
  dsimp only
  rw [List.map_set]
  exact hp.note (getElem?_mapped (·.grip) he) hgrip

theorem asking_put (ha : Asking life asked (g.entries.map (·.parting)))
    (he : g.entries[i]? = some e) (hparting : e'.parting = e.parting) :
    Asking life asked ((g.put i e').entries.map (·.parting)) := by
  have hpartings := map_set_same (f := (·.parting)) he hparting
  unfold Notes.put
  dsimp only
  rwa [hpartings]

end

/-- What a calm change leaves to everybody. -/
theorem Calm.secure_put (e' : Entry) (hc : Calm h h') (he : g.entries[i]? = some e)
    (hg : g'.entries = g.entries.set i e') (hgone : g'.gone = g.gone)
    (hst : e'.toStanding = e.toStanding) (f : Entry) : Secure f (h, g) (h', g') :=
  have hwon : e'.won = e.won := congrArg Standing.won hst
  hc.secure (lasting_put hc.onward he hg (congrArg Standing.deed hst) (fun hw => hwon.trans hw)
    fun _ hk => hgone ▸ hk) (slotKept_put hc.slot hgone he hg fun hw => hwon.symm.trans hw) f

theorem move_calm (hs : Sound (board h) g) (he : g.entries[i]? = some e) (hc : Calm h h')
    (hn : Noted h h' e e') (hst : e'.toStanding = e.toStanding) (hplace : e'.place = e.place)
    (hgrip : ∀ k uri, (h.clientAt k).lifecycle ≠ .shutDown →
      (e'.grip = .holds k uri ↔ e.grip = .holds k uri))
    (hparting : e'.parting = e.parting ∨ e'.parting = none)
    (hasked : ∀ k, partings k (h, h') = 0) : Move i (h, g) (h', g.put i e') where
  sound := by
    refine Sound.calm ⟨lines_put hs.lines he (congrArg Standing.seat hst) hplace,
      slotted_put hs.slotted he hst, papers_put hs.papers he hgrip, ?_⟩ hc
    rcases hparting with hparting | hparting
    · exact asking_put hs.asking he hparting
    · show Asking _ _ ((g.entries.set i e').map _)
      rw [List.map_set, hparting]
      exact hs.asking.forgo (getElem?_mapped (·.parting) he)
  may := may_put hc.onward he rfl hn (fun k => by rw [hasked k]; rfl) fun _ f _ _ => by
    refine hc.secure_put e' he ?_ ?_ hst f <;> rfl

theorem move_asked {k : Nat} (hs : Sound (board h) g) (he : g.entries[i]? = some e)
    (hc : Calm h h') (hn : Noted h h' e { e with parting := none }) (hparting : e.parting = some k)
    (hasked : ∀ c, partings c (h, h') = if c = k then 1 else 0) :
    Move i (h, g) (h', { g.put i { e with parting := none } with
      asked := fun c => g.asked c + if c = k then 1 else 0 }) where
  sound := by
    have hx := getElem?_mapped (·.parting) he
    rw [hparting] at hx
    refine Sound.calm ⟨lines_put hs.lines he rfl rfl, slotted_put hs.slotted he rfl,
      papers_put hs.papers he fun _ _ _ => Iff.rfl, ?_⟩ hc
    show Asking _ _ ((g.entries.set i _).map _)
    rw [List.map_set]
    exact hs.asking.ask hx
  may := may_put hc.onward he rfl hn (fun c => by rw [hasked c]) fun _ f _ _ => by
    refine hc.secure_put { e with parting := none } he ?_ ?_ rfl f <;> rfl

/-! ### the slot -/

theorem onward_slotLock (l : SharedLock) : Onward h (h.setSlotLock l) :=
  ⟨Nat.le_refl _, id, fun _ => Nat.le_refl _, fun _ => id⟩

theorem hushed_slotLock (l : SharedLock) : Hushed h (h.setSlotLock l) := ⟨rfl, fun _ => rfl⟩

theorem move_joinSlot (hs : Sound (board h) g) (he : g.entries[i]? = some e) (hseat : e.seat = none)
    (hview : e.view = none) (reading : Bool) :
    Move i (h, g) (h.setSlotLock (h.slotLock.join reading).2,
      g.put i { e with seat := some (h.slotLock.issued, reading) }) where
  sound := by
    refine ⟨?_, ?_, papers_put hs.papers he fun _ _ _ => Iff.rfl, asking_put hs.asking he rfl⟩
    · have hplaces := map_set_same (f := (·.place)) he
        (y := { e with seat := some (h.slotLock.issued, reading) }) rfl
      unfold Notes.put
      dsimp only
      rw [hplaces, List.map_set]
      exact hs.lines.joinSlot i reading
    · unfold Notes.put
      dsimp only
      rw [List.map_set]
      refine hs.slotted.set (getElem?_mapped (·.toStanding) he) rfl rfl rfl id .inl
        (fun k n _ _ _ hn => ?_) fun j t n _ _ _ hn => SharedLock.holds_join _ _ _ hn
      exact absurd (hseat.symm.trans hn) nofun
  may := by
    refine may_put (onward_slotLock _) he rfl
      (noted_hushed (hushed_slotLock _) (fun _ _ => rfl) rfl rfl rfl rfl (.inl rfl)
      (.inl hview) rfl (.inl rfl)) (fun k => by rw [(hushed_slotLock _).partings k]; rfl) fun j f _ _ => ?_
    exact ⟨fun n b _ hn => ⟨SharedLock.holds_join _ _ _ hn,
        slotKept_put rfl rfl he rfl id⟩, fun k n _ hn => ⟨hn, rfl, rfl⟩,
      lasting_put (onward_slotLock _) he rfl rfl id fun _ hk => hk⟩

/-- A call leaves the slot; it may have started the session, if it had the slot for itself. -/
theorem move_leaveSlot {n : Nat} {reading won : Bool} {view : Option Host}
    (hs : Sound (board h) g) (he : g.entries[i]? = some e) (hseat : e.seat = some (n, reading))
    (hview : view = none ∨ view = some (h.setSlotLock (h.slotLock.leave n)))
    (hleaving : e.leaving = true → ∀ k, h.slot ≠ .running k) (hwon : e.won = true → won = true)
    (hwin : won = true → e.won = true ∨
      reading = false ∧ h.slotLock.holds n = true ∧ Usable (board h)) :
    Move i (h, g) (h.setSlotLock (h.slotLock.leave n),
      g.put i { e with seat := none, won := won, view := view }) where
  sound := by
    refine ⟨?_, ?_, papers_put hs.papers he fun _ _ _ => Iff.rfl, asking_put hs.asking he rfl⟩
    · have hplaces := map_set_same (f := (·.place)) he
        (y := { e with seat := none, won := won, view := view }) rfl
      unfold Notes.put
      dsimp only
      rw [hplaces, List.map_set]
      exact hs.lines.leaveSlot i n
    · unfold Notes.put
      dsimp only
      rw [List.map_set]
      refine hs.slotted.set (getElem?_mapped (·.toStanding) he) rfl rfl rfl hwon
        (fun hw => (hwin hw).imp id fun hu => hu.2.2)
        (fun k m hk _ hl _ => absurd hk (hleaving hl k)) fun j t m hj ht hm hholds => ?_
      refine SharedLock.holds_leave _ _ _ (fun hmn => ?_) hholds
      subst hmn
      rw [List.getElem?_map, Option.map_eq_some_iff] at ht
      obtain ⟨f, hf, rfl⟩ := ht
      exact hj (hs.seat_unique hf he hm hseat)
  may := by
    refine may_put (onward_slotLock _) he rfl
      (noted_hushed (hushed_slotLock _) (fun _ _ => rfl) rfl rfl rfl rfl (.inl rfl)
      hview rfl (.inl rfl)) (fun k => by rw [(hushed_slotLock _).partings k]; rfl) fun j f hj hf => ?_
    refine ⟨fun m b hm hholds => ⟨?_, ?_⟩, fun k m _ hm => ⟨hm, rfl, rfl⟩,
      lasting_put (onward_slotLock _) he rfl rfl hwon fun _ hk => hk⟩
    · refine SharedLock.holds_leave _ _ _ (fun hmn => ?_) hholds
      subst hmn
      exact hj (hs.seat_unique hf he hm hseat)
    · refine slotKept_put rfl rfl he rfl fun hw => (hwin hw).resolve_right fun hown => ?_
      exact hj (hs.seat_alone he hf (hown.1 ▸ hseat) hown.2.1 hm hholds).symm

theorem move_setSlot {n : Nat} {slot : Slot} {gone : List Nat} (hs : Sound (board h) g)
    (he : g.entries[i]? = some e) (hview : e.view = none) (hseat : e.seat = some (n, false))
    (hholds : h.slotLock.holds n = true)
    (hnew : ∀ k, slot = .running k → k < h.clients.length ∧ k ∉ gone)
    (hsub : ∀ k ∈ g.gone, k ∈ gone) (hknown : ∀ k ∈ gone, k < h.clients.length)
    (husable : Started (standings (h, g)) → Usable (board (h.setSlot slot)))
    (hstopped : h.slot = .stopped → slot = .stopped) :
    Move i (h, g) (h.setSlot slot, { g.put i e with gone := gone }) where
  sound := by
    refine ⟨lines_put hs.lines he rfl rfl, ?_, papers_put hs.papers he fun _ _ _ => Iff.rfl,
      asking_put hs.asking he rfl⟩
    have hst := map_set_same (f := (·.toStanding)) he rfl
    unfold Notes.put
    dsimp only
    rw [hst]
    exact hs.slotted.change hnew hsub hknown husable hstopped
  may := by
    have hhush : Hushed h (h.setSlot slot) := ⟨rfl, fun _ => rfl⟩
    have honward : Onward h (h.setSlot slot) :=
      ⟨Nat.le_refl _, hstopped, fun _ => Nat.le_refl _, fun _ => id⟩
    refine may_put honward he rfl (noted_hushed hhush (fun _ _ => rfl) rfl rfl rfl rfl (.inl rfl)
      (.inl hview) rfl (.inl rfl)) (fun k => by rw [hhush.partings k]; rfl) fun j f hj hf => ?_
    refine ⟨fun m b hm hholds' => ?_, fun k m _ hm => ⟨hm, rfl, rfl⟩,
      lasting_put honward he rfl rfl id hsub⟩
    exact absurd (hs.seat_alone he hf hseat hholds hm hholds').symm hj

/-! ### the lock of a client -/

theorem onward_setClient {k : Nat} {c : Client}
    (hlife : (h.clientAt k).lifecycle.rank ≤ c.lifecycle.rank)
    (hlink : c.connection = (h.clientAt k).connection) : Onward h (h.setClient k c) where
  count := Nat.le_of_eq length_setClient.symm
  stopped := id
  life j := by
    by_cases hj : j = k
    · subst hj
      by_cases hlt : j < h.clients.length
      · rwa [clientAt_setClient_self hlt]
      · rw [setClient_of_le (Nat.le_of_not_lt hlt)]
    · rw [clientAt_setClient_ne hj]
  closed j hc := by
    rw [(hushed_setClient hlink).link j]
    exact hc

/-- A change at a client that keeps its connection leaves a call what it relies on, if it does so at
this client. -/
theorem secure_setClient {k : Nat} {c : Client} (e' : Entry)
    (hlife : (h.clientAt k).lifecycle.rank ≤ c.lifecycle.rank)
    (hlink : c.connection = (h.clientAt k).connection) (he : g.entries[i]? = some e)
    (hg : g'.entries = g.entries.set i e') (hdeed : e'.deed = e.deed) (hwon : e'.won = e.won)
    (hsub : ∀ k ∈ g.gone, k ∈ g'.gone)
    (hgone : ∀ n b, f.seat = some (n, b) → h.slotLock.holds n = true → g'.gone = g.gone)
    (hplace : ∀ n, f.place = some (k, n) → (h.clientAt k).lock.holds n = true →
      c.lock.holds n = true ∧ c.openDocs = (h.clientAt k).openDocs ∧
        c.lifecycle = (h.clientAt k).lifecycle) :
    Secure f (h, g) (h.setClient k c, g') where
  seat n b hn hholds :=
    ⟨hholds, slotKept_put rfl (hgone n b hn hholds) he hg fun hw => hwon.symm.trans hw⟩
  place j n hn hholds := by
    by_cases hj : j = k
    · subst hj
      by_cases hlt : j < h.clients.length
      · obtain ⟨hlock, hdocs, hlife⟩ := hplace n hn hholds
        refine ⟨?_, ?_, ?_⟩
        all_goals dsimp only; rw [clientAt_setClient_self hlt]
        · exact hlock
        · exact hdocs
        · exact hlife
      · rw [setClient_of_le (Nat.le_of_not_lt hlt)]
        exact ⟨hholds, rfl, rfl⟩
    · refine ⟨?_, ?_, ?_⟩
      all_goals dsimp only; rw [clientAt_setClient_ne hj]
      exact hholds
  lasting := lasting_put (onward_setClient hlife hlink) he hg hdeed (fun hw => hwon.trans hw) hsub

theorem move_relock {k : Nat} {l : Lock} {place : Option (Nat × Nat)} (hs : Sound (board h) g)
    (he : g.entries[i]? = some e) (hk : k < h.clients.length) (hview : e.view = none)
    (hlines : Lines h.slotLock (Function.update (board h).locks k l) (g.entries.map (·.seat))
      ((g.entries.map (·.place)).set i place))
    (hothers : ∀ (j : Nat) f n, j ≠ i → g.entries[j]? = some f → f.place = some (k, n) →
      (h.clientAt k).lock.holds n = true → l.holds n = true) :
    Move i (h, g) (h.setClient k ((h.clientAt k).setLock l), g.put i { e with place := place }) where
  sound := by
    have hboard : board (h.setClient k ((h.clientAt k).setLock l)) =
        { board h with locks := Function.update (board h).locks k l } := by
      have hdocs : Function.update (board h).docs k ((h.clientAt k).setLock l).openDocs =
          (board h).docs := Function.update_eq_self k _
      have hlife : Function.update (board h).life k ((h.clientAt k).setLock l).lifecycle =
          (board h).life := Function.update_eq_self k _
      rw [board_setClient hk, hdocs, hlife]
      rfl
    rw [hboard]
    refine ⟨?_, slotted_put (hs.slotted.congr rfl rfl (Nat.le_refl _) rfl) he rfl,
      papers_put hs.papers he fun _ _ _ => Iff.rfl, asking_put hs.asking he rfl⟩
    have hseats := map_set_same (f := (·.seat)) he (y := { e with place := place }) rfl
    unfold Notes.put
    dsimp only
    rw [hseats, List.map_set]
    exact hlines
  may := by
    have hhush : Hushed h (h.setClient k ((h.clientAt k).setLock l)) := hushed_setClient rfl
    refine may_put (onward_setClient (Nat.le_refl _) rfl) he rfl
      (noted_hushed hhush (level_of_docs (docs_setClient rfl)) rfl rfl rfl
      rfl (.inl rfl) (.inl hview) rfl (.inl rfl)) (fun c => by rw [hhush.partings c]; rfl) fun j f hj hf => ?_
    exact secure_setClient _ (Nat.le_refl _) rfl he rfl rfl rfl (fun _ hc => hc) (fun _ _ _ _ => rfl)
      fun n hn hholds => ⟨hothers j f n hj hf hn hholds, rfl, rfl⟩

theorem move_joinClient {k : Nat} (hs : Sound (board h) g) (he : g.entries[i]? = some e)
    (hk : k < h.clients.length) (hview : e.view = none) :
    Move i (h, g) (h.setClient k ((h.clientAt k).setLock (h.clientAt k).lock.join.2),
      g.put i { e with place := some (k, (h.clientAt k).lock.issued) }) :=
  move_relock hs he hk hview (hs.lines.joinClient i k) fun _ _ _ _ _ _ hn =>
    Lock.holds_join _ _ hn

theorem move_leaveClient {k n : Nat} (hs : Sound (board h) g) (he : g.entries[i]? = some e)
    (hk : k < h.clients.length) (hview : e.view = none) (hplace : e.place = some (k, n)) :
    Move i (h, g) (h.setClient k ((h.clientAt k).setLock ((h.clientAt k).lock.leave n)),
      g.put i { e with place := none }) := by
  refine move_relock hs he hk hview (hs.lines.leaveClient i k n) fun j f m hj hf hm hholds => ?_
  refine Lock.holds_leave _ _ _ (fun hmn => ?_) hholds
  subst hmn
  exact hj (hs.place_unique hf he hm hplace)

/-! ### the lifecycle of a client -/

/-- Who has the lock of a client lets its lifecycle go on; when the client is left, its documents are
forgotten. -/
theorem move_life {k n : Nat} (c : Client) (gone : List Nat) (e' : Entry) (hs : Sound (board h) g)
    (he : g.entries[i]? = some e) (hk : k < h.clients.length) (hplace : e.place = some (k, n))
    (hholds : (h.clientAt k).lock.holds n = true)
    (hlink : c.connection = (h.clientAt k).connection) (hlock : c.lock = (h.clientAt k).lock)
    (hdocs : c.openDocs = if c.lifecycle = .shutDown then [] else (h.clientAt k).openDocs)
    (hfresh : c.lifecycle ≠ .uninitialized)
    (hlife : (h.clientAt k).lifecycle.rank ≤ c.lifecycle.rank)
    (hn : Noted h (h.setClient k c) e e') (hplace' : e'.place = e.place) (hseat : e'.seat = e.seat)
    (hwon : e'.won = e.won) (hgrip : e'.grip = e.grip) (hsub : ∀ c ∈ g.gone, c ∈ gone)
    (hgone : gone = g.gone ∨ ∃ m, e.seat = some (m, false) ∧ h.slotLock.holds m = true)
    (hslotted : Slotted (board h) gone ((g.put i e').entries.map (·.toStanding)))
    (hleft : c.lifecycle = .shutDown →
      k ∈ gone ∨ Direct k ((g.put i e').entries.map (·.toStanding)))
    (hasking : Asking (Function.update (board h).life k c.lifecycle) g.asked
      ((g.put i e').entries.map (·.parting))) :
    Move i (h, g) (h.setClient k c, { g.put i e' with gone := gone }) where
  sound := by
    have hlocks : Function.update (board h).locks k c.lock = (board h).locks := by
      rw [hlock]
      exact Function.update_eq_self k _
    rw [board_setClient hk, hlocks]
    refine ⟨lines_put hs.lines he hseat hplace', hslotted.go hfresh hleft, ?_, hasking⟩
    refine papers_put ?_ he fun _ _ _ => by rw [hgrip]
    dsimp only
    rw [hdocs]
    refine hs.papers.go fun hl => ?_
    have hrank : (h.clientAt k).lifecycle.rank = 2 := congrArg Lifecycle.rank hl
    rw [hrank] at hlife
    cases hc : c.lifecycle with
    | shutDown => rfl
    | uninitialized => exact absurd hc hfresh
    | initialized =>
      rw [hc] at hlife
      exact absurd hlife (by decide)
  may := by
    have hhush : Hushed h (h.setClient k c) := hushed_setClient hlink
    refine may_put (onward_setClient hlife hlink) he rfl hn (fun c => by rw [hhush.partings c]; rfl) fun j f hj hf => ?_
    refine secure_setClient e' hlife hlink he rfl hn.deed hwon hsub (fun m b hm hholds' => ?_)
      fun m hm hholds' => ?_
    · rcases hgone with hgone | ⟨m', hm', hholds''⟩
      · exact hgone
      · exact absurd (hs.seat_alone he hf hm' hholds'' hm hholds').symm hj
    · exact absurd (hs.place_alone he hf hplace hholds hm hholds').symm hj

/-! ### documents -/

theorem move_documents {k n : Nat} (c : Client) (grip : Grip) (hs : Sound (board h) g)
    (he : g.entries[i]? = some e) (hk : k < h.clients.length) (hplace : e.place = some (k, n))
    (hholds : (h.clientAt k).lock.holds n = true)
    (hlink : c.connection = (h.clientAt k).connection) (hlock : c.lock = (h.clientAt k).lock)
    (hlife : c.lifecycle = (h.clientAt k).lifecycle)
    (hshut : (h.clientAt k).lifecycle ≠ .shutDown) (hcounts : ∀ doc ∈ c.openDocs, 1 ≤ doc.2)
    (hkeys : (c.openDocs.map (·.1)).Nodup)
    (hothers : ∀ j uri, j ≠ k → (grip = .holds j uri ↔ e.grip = .holds j uri))
    (hledger : ∀ uri, (c.holders uri).getD 0 + (if e.grip = .holds k uri then 1 else 0) =
      held k uri h + if grip = .holds k uri then 1 else 0)
    (hn : Noted h (h.setClient k c) e { e with grip := grip }) :
    Move i (h, g) (h.setClient k c, g.put i { e with grip := grip }) where
  sound := by
    have hlocks : Function.update (board h).locks k c.lock = (board h).locks := by
      rw [hlock]
      exact Function.update_eq_self k _
    have hlives : Function.update (board h).life k c.lifecycle = (board h).life := by
      rw [hlife]
      exact Function.update_eq_self k _
    rw [board_setClient hk, hlocks, hlives]
    refine ⟨lines_put hs.lines he rfl rfl,
      slotted_put (hs.slotted.congr rfl rfl (Nat.le_refl _) rfl) he rfl, ?_,
      asking_put hs.asking he rfl⟩
    unfold Notes.put
    dsimp only
    rw [List.map_set]
    exact hs.papers.change (getElem?_mapped (·.grip) he) hcounts hkeys hshut hothers hledger
  may := by
    have hhush : Hushed h (h.setClient k c) := hushed_setClient hlink
    have hrank : (h.clientAt k).lifecycle.rank ≤ c.lifecycle.rank := by rw [hlife]
    refine may_put (onward_setClient hrank hlink) he rfl hn (fun c => by rw [hhush.partings c]; rfl) fun j f hj hf => ?_
    refine secure_setClient _ hrank hlink he rfl rfl rfl (fun _ hc => hc) (fun _ _ _ _ => rfl)
      fun m hm hholds' => ?_
    exact absurd (hs.place_alone he hf hplace hholds hm hholds').symm hj

end

end Office

end CodeBridge
