import CodeBridge.Proofs.Client.Documents
import CodeBridge.Proofs.Client.Marks
import CodeBridge.Proofs.Concurrency.Pact

/-!
# Who holds which document

What is so at every moment while callers use a client, and what each call may rely on while the
others move.

* `Notes`      what is noted beside the client: of each call its ticket for the client's lock and
               whether it has done its part, and the documents of which the server and the client
               know different things until somebody is done with the lock;
* `Sound`      what is so of the client and the notes together;
* `Unmoved`    what nobody changes without the lock;
* `Kept`       what a call is left by the others;
* `Beside`     a move that sends nothing about documents: it keeps all that is sound, and every call
               is left what it relies on.
-/

namespace CodeBridge

namespace Desk

/-! ## notes -/

structure Entry where
  caller : Nat
  deed : Deed
  ticket : Option Nat := none
  /-- it has changed the list of documents, or has seen to it that the server is left -/
  acted : Bool := false
  deriving DecidableEq, Repr

structure Notes where
  written : List Json := []
  entries : List Entry := []
  /-- the call that is in the midst of its part -/
  owner : Nat := 0
  /-- documents that the server has open and the client does not list -/
  pending : List String := []

abbrev World := Client × Notes

namespace World

def sent (w : World) : List Json := w.2.written ++ w.1.connection.queued

def marks (uri : String) (w : World) : List Mark := marksIn uri w.sent

def closed (w : World) : Prop := w.1.connection.closed = true

end World

def acts (p : Deed → Bool) (es : List Entry) : Nat := es.countP fun e => e.acted && p e.deed

def taken (uri : String) (es : List Entry) : Nat := acts (·.opens uri) es

def dropped (uri : String) (es : List Entry) : Nat := acts (·.closes uri) es

def begun (uri : String) (es : List Entry) : Nat := es.countP (·.deed.closes uri)

section
variable {es : List Entry} {i : Nat} {e f : Entry}

theorem countP_set (p : Entry → Bool) (h : es[i]? = some e) :
    (es.set i f).countP p + (p e).toNat = es.countP p + (p f).toNat := by
  obtain ⟨hi, rfl⟩ := List.getElem?_eq_some_iff.mp h
  have hone : (p es[i]).toNat ≤ es.countP p := by
    cases hp : p es[i] with
    | false => exact Nat.zero_le _
    | true => exact List.countP_pos_iff.mpr ⟨_, List.getElem_mem hi, hp⟩
  rw [List.countP_set hi]
  cases hp : p es[i] with
  | false =>
    cases p f <;> rfl
  | true =>
    rw [hp, Bool.toNat_true] at hone
    cases p f with
    | false => exact Nat.sub_add_cancel hone
    | true => exact congrArg (· + 1) (Nat.sub_add_cancel hone)

theorem acts_set (p : Deed → Bool) (h : es[i]? = some e) (ha : e.acted = false) :
    acts p (es.set i { e with acted := true }) = acts p es + (p e.deed).toNat := by
  have hset := countP_set (f := { e with acted := true }) (fun e => e.acted && p e.deed) h
  simpa [acts, ha] using hset

theorem acts_le_set (p : Deed → Bool) (h : es[i]? = some e) (hd : f.deed = e.deed)
    (ha : e.acted = true → f.acted = true) : acts p es ≤ acts p (es.set i f) := by
  have hset := countP_set (f := f) (fun e => e.acted && p e.deed) h
  have hle : (e.acted && p e.deed).toNat ≤ (f.acted && p f.deed).toNat := by
    rw [hd]
    cases h : e.acted with
    | false => exact Nat.zero_le _
    | true => rw [ha h]
  unfold acts
  omega

theorem acts_ticket {ticket : Option Nat} {p : Deed → Bool} (h : es[i]? = some e) :
    acts p (es.set i { e with ticket := ticket }) = acts p es := by
  have hset := countP_set (f := { e with ticket := ticket }) (fun e => e.acted && p e.deed) h
  exact Nat.add_right_cancel hset

theorem begun_set (uri : String) (h : es[i]? = some e) (hd : f.deed = e.deed) :
    begun uri (es.set i f) = begun uri es := by
  have hset := countP_set (f := f) (fun e => e.deed.closes uri) h
  rw [hd] at hset
  exact Nat.add_right_cancel hset

/-- A call to close a document that has not done its part is not among those that have. -/
theorem dropped_lt_begun {uri : String} (h : es[i]? = some e) (ha : e.acted = false)
    (hd : e.deed.closes uri = true) : dropped uri es < begun uri es := by
  have hset := acts_set (·.closes uri) h ha
  have hbegun := begun_set (f := { e with acted := true }) uri h rfl
  have hle : acts (·.closes uri) (es.set i { e with acted := true }) ≤
      begun uri (es.set i { e with acted := true }) :=
    List.countP_mono_left fun _ _ hb => (Bool.and_eq_true_iff.mp hb).2
  rw [hbegun, hset, hd] at hle
  exact hle

end

/-! ## what is so at every moment -/

/-- The server has been left, or is about to be: nothing is sent about documents any more. -/
def Left (w : World) : Prop := w.1.lifecycle = .shutDown ∧ w.2.pending = []

structure Told (w : World) : Prop where
  counts : ∀ doc ∈ w.1.openDocs, 1 ≤ doc.2
  keys : (w.1.openDocs.map (·.1)).Nodup
  alternate : ∀ uri, Alternate (w.marks uri)
  gave : w.1.connection.Gave w.2.written
  harmless : w.1.connection.Harmless
  writes : ¬ Left w → w.1.connection.Writes
  listed : ¬ Left w → ¬ w.closed → ∀ uri, Standing (w.marks uri) ↔
    (w.1.holders uri).isSome = true ∨ uri ∈ w.2.pending
  emptied : w.1.lifecycle = .shutDown → w.1.openDocs = []
  leaver : w.1.lifecycle = .shutDown → ∃ e ∈ w.2.entries, e.acted = true ∧ e.deed.leaves = true
  ledger : w.1.lifecycle ≠ .shutDown → ∀ uri,
    (w.1.holders uri).getD 0 + dropped uri w.2.entries = taken uri w.2.entries

structure Placed (paired : Prop) (w : World) : Prop where
  issued : ∀ n ∈ w.1.lock.line, n < w.1.lock.issued
  ticket : ∀ (i : Nat) e n, w.2.entries[i]? = some e → e.ticket = some n → n < w.1.lock.issued
  tickets : ∀ (i j : Nat) e f n, w.2.entries[i]? = some e → w.2.entries[j]? = some f →
    e.ticket = some n → f.ticket = some n → i = j
  pending : w.2.pending ≠ [] → ∃ e n, w.2.entries[w.2.owner]? = some e ∧ e.ticket = some n ∧
    w.1.lock.holds n = true ∧ ∀ uri ∈ w.2.pending, e.deed.concerns uri = true
  paired : paired → ∀ uri, begun uri w.2.entries ≤ taken uri w.2.entries

structure Sound (paired : Prop) (w : World) : Prop extends Told w, Placed paired w

/-! ## what a call is left -/

/-- What nobody changes without the lock. -/
structure Unmoved (w w' : World) : Prop where
  openDocs : w'.1.openDocs = w.1.openDocs
  lifecycle : w'.1.lifecycle = w.1.lifecycle
  pending : w'.2.pending = w.2.pending
  closed : w.closed → w'.closed
  writing : w'.1.connection.writing = true →
    w.1.connection.writing = true ∧ ∀ uri, w'.marks uri = w.marks uri

structure Lasting (w w' : World) : Prop where
  closed : w.closed → w'.closed
  shut : w.1.lifecycle = .shutDown → w'.1.lifecycle = .shutDown
  left : Left w → Left w'

def Clear (i : Nat) (w : World) : Prop := w.2.pending = [] ∨ w.2.owner ≠ i

structure Kept (i : Nat) (w w' : World) : Prop where
  entry : ∀ e, w.2.entries[i]? = some e → w'.2.entries[i]? = some e
  locked : ∀ e n, w.2.entries[i]? = some e → e.ticket = some n → w.1.lock.holds n = true →
    w'.1.lock.holds n = true ∧ Unmoved w w'
  lasting : Lasting w w'
  clear : Clear i w → Clear i w'

structure May (i : Nat) (w w' : World) : Prop where
  written : w'.2.written = w.2.written
  length : w'.2.entries.length = w.2.entries.length
  own : ∀ e, w.2.entries[i]? = some e → ∃ e', w'.2.entries[i]? = some e' ∧
    e'.caller = e.caller ∧ e'.deed = e.deed ∧ (e.acted = true → e'.acted = true) ∧
    (w'.1.openDocs ≠ w.1.openDocs → e'.acted = true)
  others : ∀ j, j ≠ i → Kept j w w'

theorem Unmoved.refl (w : World) : Unmoved w w := ⟨rfl, rfl, rfl, id, fun h => ⟨h, fun _ => rfl⟩⟩

theorem Unmoved.trans {u v w : World} (h : Unmoved u v) (h' : Unmoved v w) : Unmoved u w where
  openDocs := h'.openDocs.trans h.openDocs
  lifecycle := h'.lifecycle.trans h.lifecycle
  pending := h'.pending.trans h.pending
  closed hc := h'.closed (h.closed hc)
  writing hw :=
    have hv := h'.writing hw
    have hu := h.writing hv.1
    ⟨hu.1, fun uri => (hv.2 uri).trans (hu.2 uri)⟩

theorem Unmoved.lasting {w w' : World} (h : Unmoved w w') : Lasting w w' where
  closed := h.closed
  shut hl := h.lifecycle.trans hl
  left hl := ⟨h.lifecycle.trans hl.1, h.pending.trans hl.2⟩

theorem Lasting.trans {u v w : World} (h : Lasting u v) (h' : Lasting v w) : Lasting u w :=
  ⟨fun hc => h'.closed (h.closed hc), fun hl => h'.shut (h.shut hl),
    fun hl => h'.left (h.left hl)⟩

theorem Kept.refl (i : Nat) (w : World) : Kept i w w :=
  ⟨fun _ h => h, fun _ _ _ _ h => ⟨h, .refl w⟩, (Unmoved.refl w).lasting, id⟩

theorem Kept.trans {i : Nat} {u v w : World} (h : Kept i u v) (h' : Kept i v w) : Kept i u w where
  entry e he := h'.entry e (h.entry e he)
  locked e n he hn hl :=
    have hv := h.locked e n he hn hl
    have hw := h'.locked e n (h.entry e he) hn hv.1
    ⟨hw.1, hv.2.trans hw.2⟩
  lasting := h.lasting.trans h'.lasting
  clear hc := h'.clear (h.clear hc)

/-- What the calls agree on, as one of them sees it. -/
def pact (paired : Prop) (i : Nat) : Pact Client Notes where
  Fine := Sound paired
  Kept := Kept i
  May := May i
  refl := Kept.refl i
  trans _ _ _ := .trans

/-! ## moves beside -/

/-- Nothing is sent about documents, and neither the list of documents nor the lock changes. -/
structure Beside (w w' : World) : Prop where
  openDocs : w'.1.openDocs = w.1.openDocs
  lifecycle : w'.1.lifecycle = w.1.lifecycle
  lock : w'.1.lock = w.1.lock
  entries : w'.2.entries = w.2.entries
  owner : w'.2.owner = w.2.owner
  pending : w'.2.pending = w.2.pending
  link : Connection.Aside (¬ Left w) (w.1.connection, w.2.written) (w'.1.connection, w'.2.written)

section
variable {paired : Prop} {w w' : World}

theorem Beside.unmoved (h : Beside w w') : Unmoved w w' :=
  ⟨h.openDocs, h.lifecycle, h.pending, h.link.closed, h.link.writing⟩

theorem Beside.kept (h : Beside w w') (i : Nat) : Kept i w w' where
  entry _ he := h.entries ▸ he
  locked _ _ _ _ hl := ⟨h.lock ▸ hl, h.unmoved⟩
  lasting := h.unmoved.lasting
  clear hc := hc.imp (fun hp => h.pending.trans hp) fun ho => h.owner ▸ ho

theorem Beside.may (h : Beside w w') (hw : w'.2.written = w.2.written) (i : Nat) : May i w w' where
  written := hw
  length := congrArg List.length h.entries
  own e he := ⟨e, h.entries ▸ he, rfl, rfl, id, fun hd => absurd h.openDocs hd⟩
  others j _ := h.kept j

theorem Beside.left (h : Beside w w') : Left w' ↔ Left w := by
  unfold Left
  rw [h.lifecycle, h.pending]

theorem Beside.sound (h : Beside w w') (hs : Sound paired w) : Sound paired w' := by
  have hwrites : ¬ Left w' → w'.1.connection.Writes := fun hl =>
    h.link.writes (fun hw => hl (h.left.mpr hw)) (hs.writes fun hw => hl (h.left.mpr hw))
  exact
    { counts := h.openDocs ▸ hs.counts
      keys := h.openDocs ▸ hs.keys
      alternate := fun uri => (hs.alternate uri).cut (h.link.marks uri)
      gave := h.link.gave hs.gave
      harmless := h.link.harmless hs.harmless
      writes := hwrites
      listed := fun hl hc uri => by
        have hopen : w'.1.connection.closed = false := Bool.eq_false_iff.mpr hc
        have hmarks : w'.marks uri = w.marks uri :=
          (h.link.writing (hwrites hl hopen).1).2 uri
        rw [hmarks, h.pending, Client.holders_congr h.openDocs uri]
        exact hs.listed (fun hw => hl (h.left.mpr hw)) (fun hw => hc (h.link.closed hw)) uri
      emptied := fun hl => h.openDocs.trans (hs.emptied (h.lifecycle.symm.trans hl))
      leaver := fun hl => h.entries ▸ hs.leaver (h.lifecycle.symm.trans hl)
      ledger := fun hl uri => by
        rw [h.entries, Client.holders_congr h.openDocs uri]
        exact hs.ledger (fun hw => hl (h.lifecycle.trans hw)) uri
      issued := h.lock ▸ hs.issued
      ticket := by rw [h.entries, h.lock]; exact hs.ticket
      tickets := h.entries ▸ hs.tickets
      pending := by rw [h.pending, h.entries, h.owner, h.lock]; exact hs.pending
      paired := h.entries ▸ hs.paired }

end

end Desk

end CodeBridge
