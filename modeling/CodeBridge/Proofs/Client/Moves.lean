import CodeBridge.Proofs.Client.Ledger

/-!
# The moves of a call at a client

What a call does with the client's lock, to the list of documents and to the server, move by move:
everything stays sound, and the other calls are left what they rely on.

* `Inside`                     the call has the lock;
* `Told.relist`, `Told.send`   the list of documents changes; a message about one is sent;
* `Move`                       a move that keeps all sound and leaves the others what they rely on;
* `move_join`, `move_leave`    the lock;
* `move_count`, `move_add`, …   the documents;
* `move_didOpen`, `move_didClose`   what the server is told of them.
-/

namespace CodeBridge

namespace Desk
variable {paired : Prop} {i : Nat} {e f : Entry} {w : World}

structure Onto (e f : Entry) : Prop where
  caller : f.caller = e.caller
  deed : f.deed = e.deed
  acted : e.acted = true → f.acted = true

theorem onto_refl : Onto e e := ⟨rfl, rfl, id⟩

theorem onto_acted : Onto e { e with acted := true } := ⟨rfl, rfl, fun _ => rfl⟩

namespace Notes

def note (i : Nat) (f : Entry) (g : Notes) : Notes := { g with entries := g.entries.set i f }

/-- A call with the lock does something; `pending` is what is left to be told. -/
def act (i : Nat) (f : Entry) (pending : List String) (g : Notes) : Notes :=
  { g.note i f with owner := i, pending := pending }

end Notes

theorem getElem?_set_self {es : List Entry} (h : es[i]? = some e) : (es.set i f)[i]? = some f := by
  obtain ⟨hi, -⟩ := List.getElem?_eq_some_iff.mp h
  exact List.getElem?_set_self hi

theorem set_self {es : List Entry} (h : es[i]? = some e) : es.set i e = es := by
  obtain ⟨hi, rfl⟩ := List.getElem?_eq_some_iff.mp h
  exact List.set_getElem_self hi

theorem getElem?_set_cases {α : Type} {as : List α} {a b : α} {j : Nat}
    (h : (as.set i a)[j]? = some b) : i = j ∧ b = a ∨ i ≠ j ∧ as[j]? = some b := by
  by_cases hij : i = j
  · subst hij
    obtain ⟨hi, hb⟩ := List.getElem?_eq_some_iff.mp h
    exact .inl ⟨rfl, hb.symm.trans (List.getElem_set_self hi)⟩
  · exact .inr ⟨hij, (List.getElem?_set_ne hij).symm.trans h⟩

theorem mem_set_onto {es : List Entry} (h : es[i]? = some e) (hf : Onto e f)
    (hm : ∃ g ∈ es, g.acted = true ∧ g.deed.leaves = true) :
    ∃ g ∈ es.set i f, g.acted = true ∧ g.deed.leaves = true := by
  obtain ⟨g, hg, ha, hl⟩ := hm
  obtain ⟨j, hj⟩ := List.mem_iff_getElem?.mp hg
  by_cases hij : i = j
  · subst hij
    obtain rfl := Option.some.inj (h.symm.trans hj)
    exact ⟨f, List.mem_of_getElem? (getElem?_set_self h), hf.acted ha, hf.deed ▸ hl⟩
  · have hj' : (es.set i f)[j]? = some g := (List.getElem?_set_ne hij).trans hj
    exact ⟨g, List.mem_of_getElem? hj', ha, hl⟩

/-! ## with the lock -/

structure Inside (i : Nat) (e : Entry) (w : World) : Prop where
  entry : w.2.entries[i]? = some e
  locks : ∃ n, e.ticket = some n ∧ w.1.lock.holds n = true

theorem Inside.not_other (h : Inside i e w) (hp : Placed paired w) {j : Nat} {g : Entry} {n : Nat}
    (hj : w.2.entries[j]? = some g) (hn : g.ticket = some n) (hl : w.1.lock.holds n = true) :
    j = i := by
  obtain ⟨m, hm, hlocks⟩ := h.locks
  obtain rfl := Lock.holds_unique hlocks hl
  exact hp.tickets j i g e m hj h.entry hn hm

/-- Nobody but the call that has the lock is in the midst of its part. -/
theorem Inside.owner (h : Inside i e w) (hp : Placed paired w) (hne : w.2.pending ≠ []) :
    w.2.owner = i := by
  obtain ⟨g, n, hg, hn, hl, -⟩ := hp.pending hne
  exact h.not_other hp hg hn hl

theorem Inside.pending (h : Inside i e w) (hp : Placed paired w) (hc : Clear i w) :
    w.2.pending = [] := by
  by_contra hne
  rcases hc with hc | hc
  · exact hne hc
  · exact hc (h.owner hp hne)

section
variable {c : Client} {pending : List String}

/-- Others, which do not have the lock, are left all that they rely on. -/
theorem Inside.kept (h : Inside i e w) (hp : Placed paired w)
    (hlast : Lasting w (c, w.2.act i f pending)) (j : Nat) (hj : j ≠ i) :
    Kept j w (c, w.2.act i f pending) where
  entry _ hg := (List.getElem?_set_ne hj.symm).trans hg
  locked _ _ hg hn hl := absurd (h.not_other hp hg hn hl) hj
  lasting := hlast
  clear _ := .inr hj.symm

theorem Inside.may (h : Inside i e w) (hp : Placed paired w) (hf : Onto e f)
    (hlast : Lasting w (c, w.2.act i f pending))
    (hdocs : c.openDocs ≠ w.1.openDocs → f.acted = true) :
    May i w (c, w.2.act i f pending) where
  written := rfl
  length := List.length_set
  own g hg := by
    obtain rfl := Option.some.inj (h.entry.symm.trans hg)
    exact ⟨f, getElem?_set_self hg, hf.caller, hf.deed, hf.acted, hdocs⟩
  others := h.kept hp hlast

theorem Inside.placed (h : Inside i e w) (hp : Placed paired w) (hf : Onto e f)
    (ht : f.ticket = e.ticket) (hlock : c.lock = w.1.lock)
    (hpending : ∀ uri ∈ pending, e.deed.concerns uri = true) :
    Placed paired (c, w.2.act i f pending) := by
  have hset (j : Nat) (g : Entry) (hg : (w.2.entries.set i f)[j]? = some g) :
      ∃ g', w.2.entries[j]? = some g' ∧ g'.ticket = g.ticket := by
    rcases getElem?_set_cases hg with ⟨rfl, rfl⟩ | ⟨-, hg⟩
    · exact ⟨e, h.entry, ht.symm⟩
    · exact ⟨g, hg, rfl⟩
  exact
    { issued := hlock ▸ hp.issued
      ticket := fun j g n hg hn => by
        obtain ⟨g', hg', ht'⟩ := hset j g hg
        show n < c.lock.issued
        rw [hlock]
        exact hp.ticket j g' n hg' (ht'.trans hn)
      tickets := fun j k g g₂ n hg hg₂ hn hn₂ => by
        obtain ⟨g', hg', ht'⟩ := hset j g hg
        obtain ⟨g₂', hg₂', ht₂'⟩ := hset k g₂ hg₂
        exact hp.tickets j k g' g₂' n hg' hg₂' (ht'.trans hn) (ht₂'.trans hn₂)
      pending := fun _ => by
        obtain ⟨n, hn, hl⟩ := h.locks
        refine ⟨f, n, getElem?_set_self h.entry, ht.trans hn, ?_, ?_⟩
        · show c.lock.holds n = true
          rw [hlock]
          exact hl
        · rw [hf.deed]
          exact hpending
      paired := fun hpair uri => by
        show begun uri (w.2.entries.set i f) ≤ acts (·.opens uri) (w.2.entries.set i f)
        rw [begun_set uri h.entry hf.deed]
        exact (hp.paired hpair uri).trans (acts_le_set _ h.entry hf.deed hf.acted) }

end

/-! ## what has been told -/

section
variable {pending : List String}

theorem Told.relist (hs : Told w) (hin : Inside i e w) (hf : Onto e f)
    {docs : List (String × Nat)} {life : Lifecycle}
    (hcounts : ∀ doc ∈ docs, 1 ≤ doc.2) (hkeys : (docs.map (·.1)).Nodup)
    (hleft : Left w → life = .shutDown ∧ pending = [])
    (hlisted : ¬ (life = .shutDown ∧ pending = []) → ¬ w.closed → ∀ uri,
      ((w.1.holders uri).isSome = true ∨ uri ∈ w.2.pending ↔
        (({ w.1 with openDocs := docs } : Client).holders uri).isSome = true ∨ uri ∈ pending))
    (hemptied : life = .shutDown → docs = [])
    (hleaver : life = .shutDown →
      w.1.lifecycle = .shutDown ∨ f.acted = true ∧ f.deed.leaves = true)
    (hledger : life ≠ .shutDown → ∀ uri,
      (({ w.1 with openDocs := docs } : Client).holders uri).getD 0 +
        dropped uri (w.2.entries.set i f) = taken uri (w.2.entries.set i f)) :
    Told ({ w.1 with openDocs := docs, lifecycle := life }, w.2.act i f pending) where
  counts := hcounts
  keys := hkeys
  alternate := hs.alternate
  gave := hs.gave
  harmless := hs.harmless
  writes hl := hs.writes fun hw => hl (hleft hw)
  listed hl hc uri := (hs.listed (fun hw => hl (hleft hw)) hc uri).trans (hlisted hl hc uri)
  emptied := hemptied
  leaver hl := by
    rcases hleaver hl with hw | ⟨ha, hd⟩
    · exact mem_set_onto hin.entry hf (hs.leaver hw)
    · exact ⟨f, List.mem_of_getElem? (getElem?_set_self hin.entry), ha, hd⟩
  ledger := hledger

def posted (v : Json) (c : Client) : Client :=
  c.setConnection { c.connection with outbox := c.connection.outbox ++ [.message v] }

theorem marks_posted (v : Json) (c : Client) (g : Notes) (uri : String) :
    World.marks uri (posted v c, g) = World.marks uri (c, g) ++ (mark? uri v).toList := by
  unfold World.marks World.sent
  show marksIn uri (g.written ++ ({ c.connection with outbox := _ } : Connection).queued) = _
  rw [Connection.queued_concat, ← List.append_assoc, marksIn_concat]

theorem Told.send (hs : Told w) (hin : Inside i e w) {v : Json} {uri : String} {m : Mark}
    (hmark : ∀ other, mark? other v = if uri = other then some m else none)
    (hready : Standing (w.marks uri) ↔ m = .didClose)
    (hleft : Left w → w.1.lifecycle = .shutDown ∧ pending = [])
    (hlisted : ¬ (w.1.lifecycle = .shutDown ∧ pending = []) → ¬ w.closed → ∀ other,
      ((if uri = other then m = .didOpen
        else (w.1.holders other).isSome = true ∨ other ∈ w.2.pending) ↔
          (w.1.holders other).isSome = true ∨ other ∈ pending)) :
    Told (posted v w.1, w.2.act i e pending) := by
  have hentries : (w.2.act i e pending).entries = w.2.entries := set_self hin.entry
  have hmarks (other : String) : World.marks other (posted v w.1, w.2.act i e pending) =
      w.marks other ++ (if uri = other then some m else none).toList := by
    rw [← hmark other]
    exact marks_posted v w.1 _ other
  exact
    { counts := hs.counts
      keys := hs.keys
      alternate := fun other => by
        rw [hmarks other]
        by_cases h : uri = other
        · subst h
          rw [if_pos rfl]
          exact (hs.alternate uri).concat hready
        · rw [if_neg h]
          exact (List.append_nil _).symm ▸ hs.alternate other
      gave := hs.gave
      harmless := hs.harmless
      writes := fun hl hc => by
        obtain ⟨hwriting, hstop⟩ := hs.writes (fun hw => hl (hleft hw)) hc
        refine ⟨hwriting, fun hm => ?_⟩
        rcases List.mem_append.mp hm with hm | hm
        · exact hstop hm
        · cases List.mem_singleton.mp hm
      listed := fun hl hc other => by
        have hbefore := hs.listed (fun hw => hl (hleft hw)) hc other
        have hafter := hlisted hl hc other
        rw [hmarks other]
        by_cases h : uri = other
        · rw [if_pos h] at hafter ⊢
          exact standing_concat.trans hafter
        · rw [if_neg h] at hafter ⊢
          exact (List.append_nil (w.marks other)).symm ▸ hbefore.trans hafter
      emptied := hs.emptied
      leaver := fun hl => hentries ▸ hs.leaver hl
      ledger := fun hl other => by
        rw [hentries]
        exact hs.ledger hl other }

end

/-- A move of a call that keeps all sound, and leaves the others what they rely on. -/
structure Move (paired : Prop) (i : Nat) (w w' : World) : Prop where
  sound : Sound paired w'
  may : May i w w'

theorem Beside.move {w' : World} (h : Beside w w') (hw : w'.2.written = w.2.written)
    (hs : Sound paired w) : Move paired i w w' := ⟨h.sound hs, h.may hw i⟩

/-! ## moves on the list -/

section
variable (hs : Sound paired w) (hin : Inside i e w)
include hs hin

/-- A call does its part: the list of documents changes by what the call is for. -/
theorem move_list {docs : List (String × Nat)} {pending : List String} (ha : e.acted = false)
    (hlife : w.1.lifecycle ≠ .shutDown) (hcounts : ∀ doc ∈ docs, 1 ≤ doc.2)
    (hkeys : (docs.map (·.1)).Nodup)
    (hlisted : ¬ w.closed → ∀ uri, ((w.1.holders uri).isSome = true ∨ uri ∈ w.2.pending ↔
      (({ w.1 with openDocs := docs } : Client).holders uri).isSome = true ∨ uri ∈ pending))
    (hsum : ∀ uri, (({ w.1 with openDocs := docs } : Client).holders uri).getD 0 +
      (e.deed.closes uri).toNat = (w.1.holders uri).getD 0 + (e.deed.opens uri).toNat)
    (hpending : ∀ uri ∈ pending, e.deed.concerns uri = true) :
    Move paired i w ({ w.1 with openDocs := docs }, w.2.act i { e with acted := true } pending) := by
  have htold : Told ({ w.1 with openDocs := docs },
      w.2.act i { e with acted := true } pending) := by
    refine hs.toTold.relist hin onto_acted hcounts hkeys (fun hl => absurd hl.1 hlife)
      (fun _ => hlisted) (fun hl => absurd hl hlife) (fun hl => absurd hl hlife) fun _ uri => ?_
    have hledger := hs.ledger hlife uri
    have htaken := acts_set (·.opens uri) hin.entry ha
    have hdropped := acts_set (·.closes uri) hin.entry ha
    have hthis := hsum uri
    unfold taken dropped at *
    omega
  exact ⟨⟨htold, hin.placed hs.toPlaced onto_acted rfl rfl hpending⟩,
    hin.may hs.toPlaced onto_acted ⟨id, id, fun hl => absurd hl.1 hlife⟩ fun _ => rfl⟩

theorem move_count {uri : String} {n k : Nat} (ha : e.acted = false)
    (hlife : w.1.lifecycle ≠ .shutDown) (hp : w.closed ∨ w.2.pending = [])
    (hn : w.1.holders uri = some n)
    (hk : 1 ≤ k) (hsum : k + (e.deed.closes uri).toNat = n + (e.deed.opens uri).toNat)
    (hother : ∀ other, other ≠ uri → e.deed.closes other = false ∧ e.deed.opens other = false) :
    Move paired i w (w.1.setHolders uri k, w.2.act i { e with acted := true } []) := by
  have hcounts : ∀ doc ∈ (w.1.setHolders uri k).openDocs, 1 ≤ doc.2 := by
    intro doc hdoc
    obtain ⟨d, hd, rfl⟩ := List.mem_map.mp hdoc
    split
    · exact hk
    · exact hs.counts d hd
  have hkeys : ((w.1.setHolders uri k).openDocs.map (·.1)).Nodup := by
    rw [Client.keys_setHolders]
    exact hs.keys
  refine move_list hs hin ha hlife hcounts hkeys (fun hc other => ?_) (fun other => ?_) nofun
  · show _ ↔ ((w.1.setHolders uri k).holders other).isSome = true ∨ _
    rw [Client.holders_setHolders, hp.resolve_left hc]
    by_cases h : other = uri
    · simp [h, hn]
    · simp [h]
  · show ((w.1.setHolders uri k).holders other).getD 0 + _ = _
    rw [Client.holders_setHolders]
    by_cases h : other = uri
    · subst h
      rw [if_pos rfl, hn]
      exact hsum
    · rw [if_neg h, (hother other h).1, (hother other h).2]

/-- The first holder is listed; the server has been told before. -/
theorem move_add {uri text : String} (hd : e.deed = .openDocument uri text) (ha : e.acted = false)
    (hlife : w.1.lifecycle ≠ .shutDown) (hp : w.closed ∨ w.2.pending = [uri])
    (hn : w.1.holders uri = none) :
    Move paired i w (w.1.addDocument uri, w.2.act i { e with acted := true } []) := by
  have hnew : uri ∉ w.1.openDocs.map (·.1) := fun hm => by
    have hsome := (Client.isSome_holders w.1 uri).mpr hm
    rw [hn] at hsome
    cases hsome
  have hcounts : ∀ doc ∈ (w.1.addDocument uri).openDocs, 1 ≤ doc.2 := by
    intro doc hdoc
    rcases List.mem_append.mp hdoc with hdoc | hdoc
    · exact hs.counts doc hdoc
    · rw [List.mem_singleton.mp hdoc]
  have hkeys : ((w.1.addDocument uri).openDocs.map (·.1)).Nodup := by
    show ((w.1.openDocs ++ [(uri, 1)]).map Prod.fst).Nodup
    rw [List.map_append]
    refine List.nodup_append.mpr ⟨hs.keys, List.pairwise_singleton .., fun a ha b hb hab => ?_⟩
    have hb : b = uri := List.mem_singleton.mp hb
    exact hnew (hb ▸ hab ▸ ha)
  refine move_list hs hin ha hlife hcounts hkeys (fun hc other => ?_) (fun other => ?_) nofun
  · show _ ↔ ((w.1.addDocument uri).holders other).isSome = true ∨ _
    rw [Client.holders_addDocument _ _ _ hn, hp.resolve_left hc]
    by_cases h : other = uri
    · simp [h]
    · simp [h]
  · show ((w.1.addDocument uri).holders other).getD 0 + _ = _
    rw [Client.holders_addDocument _ _ _ hn, hd]
    by_cases h : other = uri
    · simp [h, hn, Deed.opens, Deed.closes]
    · simp [h, Ne.symm h, Deed.opens, Deed.closes]

/-- The last holder is taken from the list; the server will be told. -/
theorem move_remove {uri : String} (hd : e.deed = .closeDocument uri) (ha : e.acted = false)
    (hlife : w.1.lifecycle ≠ .shutDown) (hp : w.closed ∨ w.2.pending = [])
    (hn : w.1.holders uri = some 1) :
    Move paired i w (w.1.removeDocument uri, w.2.act i { e with acted := true } [uri]) := by
  have hcounts : ∀ doc ∈ (w.1.removeDocument uri).openDocs, 1 ≤ doc.2 := fun doc hdoc =>
    hs.counts doc (List.mem_filter.mp hdoc).1
  have hkeys : ((w.1.removeDocument uri).openDocs.map (·.1)).Nodup :=
    hs.keys.sublist (List.filter_sublist.map Prod.fst)
  refine move_list hs hin ha hlife hcounts hkeys (fun hc other => ?_) (fun other => ?_) ?_
  · show _ ↔ ((w.1.removeDocument uri).holders other).isSome = true ∨ _
    rw [Client.holders_removeDocument, hp.resolve_left hc]
    by_cases h : other = uri
    · simp [h, hn]
    · simp [h]
  · show ((w.1.removeDocument uri).holders other).getD 0 + _ = _
    rw [Client.holders_removeDocument, hd]
    by_cases h : other = uri
    · simp [h, hn, Deed.opens, Deed.closes]
    · simp [h, Ne.symm h, Deed.opens, Deed.closes]
  · intro other ho
    rw [List.mem_singleton.mp ho, hd]
    simp [Deed.concerns, Deed.closes]

/-- The server is to be left; `pending` is what it is still told of. -/
theorem move_shutDown {pending : List String} (hd : e.deed.leaves = true)
    (hlife : pending ≠ [] → w.1.lifecycle ≠ .shutDown) (hp : w.closed ∨ w.2.pending = [])
    (hlisted : pending ≠ [] → ∀ uri, ((w.1.holders uri).isSome = true ↔ uri ∈ pending)) :
    Move paired i w ({ w.1 with lifecycle := .shutDown, openDocs := [] },
      w.2.act i { e with acted := true } pending) := by
  have hleft : Left w → Lifecycle.shutDown = .shutDown ∧ pending = [] := by
    intro hl
    refine ⟨rfl, ?_⟩
    by_contra hne
    exact hlife hne hl.1
  have htold : Told ({ w.1 with lifecycle := .shutDown, openDocs := [] },
      w.2.act i { e with acted := true } pending) := by
    refine hs.toTold.relist hin onto_acted nofun List.nodup_nil hleft
      (fun hl hc uri => ?_) (fun _ => rfl) (fun _ => .inr ⟨rfl, hd⟩) fun h => absurd rfl h
    · have hne : pending ≠ [] := fun h => hl ⟨rfl, h⟩
      rw [hp.resolve_left hc, hlisted hne uri]
      simp [Client.holders]
  have hconcerns : ∀ uri ∈ pending, e.deed.concerns uri = true := fun _ _ =>
    Deed.concerns_of_leaves hd
  exact ⟨⟨htold, hin.placed hs.toPlaced onto_acted rfl rfl hconcerns⟩,
    hin.may hs.toPlaced onto_acted ⟨id, fun _ => rfl, hleft⟩ fun _ => rfl⟩

theorem move_initialized (hlife : w.1.lifecycle ≠ .shutDown) (hp : w.closed ∨ w.2.pending = []) :
    Move paired i w (w.1.markInitialized, w.2.act i e []) := by
  have hentries : w.2.entries.set i e = w.2.entries := set_self hin.entry
  have htold : Told (w.1.markInitialized, w.2.act i e []) := by
    refine hs.toTold.relist hin onto_refl hs.counts hs.keys (fun hl => absurd hl.1 hlife)
      (fun _ hc uri => ?_) nofun nofun fun _ uri => ?_
    · rw [hp.resolve_left hc]
    · rw [hentries]
      exact hs.ledger hlife uri
  exact ⟨⟨htold, hin.placed hs.toPlaced onto_refl rfl rfl nofun⟩,
    hin.may hs.toPlaced onto_refl ⟨id, fun hl => absurd hl hlife, fun hl => absurd hl.1 hlife⟩
      fun hne => absurd rfl hne⟩

/-! ## moves on the wire -/

theorem move_didOpen {uri : String} (text languageId other : String) (version : Int32)
    (hd : e.deed = .openDocument uri other) (hlife : w.1.lifecycle ≠ .shutDown)
    (hp : w.closed ∨ w.2.pending = []) (hready : ¬ Standing (w.marks uri)) :
    Move paired i w (posted (Message.notification "textDocument/didOpen"
      (some (Params.didOpen uri languageId version text))) w.1, w.2.act i e [uri]) := by
  have hconcerns : ∀ q ∈ [uri], e.deed.concerns q = true := by
    intro q hq
    rw [List.mem_singleton.mp hq, hd]
    simp [Deed.concerns, Deed.opens]
  refine ⟨⟨hs.toTold.send hin (fun q => mark?_didOpen q uri languageId text version)
    (iff_of_false hready nofun) (fun hl => absurd hl.1 hlife) fun _ hc q => ?_,
    hin.placed hs.toPlaced onto_refl rfl rfl hconcerns⟩,
    hin.may hs.toPlaced onto_refl ⟨id, id, fun hl => absurd hl.1 hlife⟩ fun hne => absurd rfl hne⟩
  rw [hp.resolve_left hc]
  by_cases h : uri = q
  · simp [h]
  · simp [h, Ne.symm h]

theorem move_didClose {uri : String} {rest : List String}
    (hd : ∀ q ∈ rest, e.deed.concerns q = true)
    (hp : w.2.pending = uri :: rest ∨ w.closed ∧ w.2.pending ≠ [])
    (hn : w.1.holders uri = none) (hrest : uri ∉ rest) (hready : Standing (w.marks uri)) :
    Move paired i w (posted (Message.notification "textDocument/didClose"
      (some (Params.ofDocument uri))) w.1, w.2.act i e rest) := by
  have hleft : ¬ Left w := by
    intro hl
    rcases hp with hp | ⟨-, hp⟩
    · exact absurd (hp.symm.trans hl.2) nofun
    · exact hp hl.2
  refine ⟨⟨hs.toTold.send hin (fun q => mark?_didClose q uri) (iff_of_true hready rfl)
    (fun hl => absurd hl hleft) fun _ hc q => ?_, hin.placed hs.toPlaced onto_refl rfl rfl hd⟩,
    hin.may hs.toPlaced onto_refl ⟨id, id, fun hl => absurd hl hleft⟩ fun hne => absurd rfl hne⟩
  rw [hp.resolve_right fun h => hc h.1]
  by_cases h : uri = q
  · subst h
    simp [hn, hrest]
  · simp [h, Ne.symm h]

end

/-! ## moves in the line of the lock -/

section
variable (he : w.2.entries[i]? = some e) (hc : Clear i w)
include he hc

theorem Placed.join (hp : Placed paired w) :
    Placed paired (w.1.setLock w.1.lock.join.2,
      w.2.note i { e with ticket := some w.1.lock.issued }) := by
  have hnew (j : Nat) (g : Entry) (hg : w.2.entries[j]? = some g) :
      g.ticket ≠ some w.1.lock.issued := fun h =>
    absurd (hp.ticket j g _ hg h) (Nat.lt_irrefl _)
  exact
    { issued := fun n hn => by
        rcases List.mem_append.mp hn with hn | hn
        · exact Nat.lt_succ_of_lt (hp.issued n hn)
        · have hissued : n = w.1.lock.issued := List.mem_singleton.mp hn
          show n < w.1.lock.issued + 1
          omega
      ticket := fun j g n hg hn => by
        rcases getElem?_set_cases hg with ⟨rfl, rfl⟩ | ⟨-, hg⟩
        · have hissued : w.1.lock.issued = n := Option.some.inj hn
          show n < w.1.lock.issued + 1
          omega
        · exact Nat.lt_succ_of_lt (hp.ticket j g n hg hn)
      tickets := fun j k g h n hg hh hn hn' => by
        rcases getElem?_set_cases hg with ⟨rfl, rfl⟩ | ⟨-, hg⟩
        · rcases getElem?_set_cases hh with ⟨rfl, rfl⟩ | ⟨-, hh⟩
          · rfl
          · exact absurd (hn'.trans hn.symm) (hnew k h hh)
        · rcases getElem?_set_cases hh with ⟨rfl, rfl⟩ | ⟨-, hh⟩
          · exact absurd (hn.trans hn'.symm) (hnew j g hg)
          · exact hp.tickets j k g h n hg hh hn hn'
      pending := fun hne => by
        obtain ⟨g, n, hg, hn, hl, hu⟩ := hp.pending hne
        have ho : i ≠ w.2.owner := (hc.resolve_left hne).symm
        exact ⟨g, n, (List.getElem?_set_ne ho).trans hg, hn, Lock.holds_join _ n hl, hu⟩
      paired := fun hpair uri => by
        show begun uri (w.2.entries.set i _) ≤ acts _ (w.2.entries.set i _)
        have hbegun := begun_set (f := { e with ticket := some w.1.lock.issued }) uri he rfl
        rw [hbegun, acts_ticket he]
        exact hp.paired hpair uri }

theorem move_join (hs : Sound paired w) :
    Move paired i w (w.1.setLock w.1.lock.join.2,
      w.2.note i { e with ticket := some w.1.lock.issued }) := by
  refine ⟨⟨{ hs.toTold with
    leaver := fun hl => mem_set_onto he ⟨rfl, rfl, id⟩ (hs.leaver hl)
    ledger := fun hl uri => ?_ }, hs.toPlaced.join he hc⟩, ?_⟩
  · show _ + acts _ (w.2.entries.set i _) = acts _ (w.2.entries.set i _)
    rw [acts_ticket he, acts_ticket he]
    exact hs.ledger hl uri
  · exact
      { written := rfl
        length := List.length_set
        own := fun g hg => by
          obtain rfl := Option.some.inj (he.symm.trans hg)
          exact ⟨_, getElem?_set_self he, rfl, rfl, id, fun hne => absurd rfl hne⟩
        others := fun j hj =>
          { entry := fun g hg => (List.getElem?_set_ne hj.symm).trans hg
            locked := fun g n _ _ hl => ⟨Lock.holds_join _ n hl,
              ⟨rfl, rfl, rfl, id, fun hw => ⟨hw, fun _ => rfl⟩⟩⟩
            lasting := ⟨id, id, id⟩
            clear := id } }

end

theorem move_leave (hs : Sound paired w) (hin : Inside i e w) (n : Nat)
    (hp : w.closed ∨ w.2.pending = []) :
    Move paired i w (w.1.setLock (w.1.lock.leave n), { w.2 with pending := [] }) := by
  have hleft : Left w → Left (w.1.setLock (w.1.lock.leave n), { w.2 with pending := [] }) :=
    fun hl => ⟨hl.1, rfl⟩
  refine ⟨⟨{ hs.toTold with
    writes := fun hl => hs.writes fun hw => hl (hleft hw)
    listed := fun hl hc uri => by
      have hbefore := hs.listed (fun hw => hl (hleft hw)) hc uri
      rw [hp.resolve_left hc] at hbefore
      exact hbefore }, { hs.toPlaced with
    issued := fun m hm => hs.issued m (List.mem_filter.mp hm).1
    pending := fun hne => absurd rfl hne }⟩, ?_⟩
  exact
    { written := rfl
      length := rfl
      own := fun g hg => ⟨g, hg, rfl, rfl, id, fun hne => absurd rfl hne⟩
      others := fun j hj =>
        { entry := fun _ hg => hg
          locked := fun _ _ hg hm hl => absurd (hin.not_other hs.toPlaced hg hm hl) hj
          lasting := ⟨id, id, hleft⟩
          clear := fun _ => .inl rfl } }

end Desk

end CodeBridge
