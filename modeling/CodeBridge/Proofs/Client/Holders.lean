import Mathlib.Data.Multiset.Count
import CodeBridge.Proofs.Client.Calls

/-!
# Documents are open while they are held

However the calls of any number of callers are interleaved, and whatever becomes of the connection,
the messages about a document open it and close it by turns, and as long as the connection is up the
server has open what the client lists.  Callers who close what they have opened, and nothing else,
find it open in between.

* `callersOf`   calls counted by their callers;
* `Good`        what holds of all calls at a client, `good_apply` being the step and `good_run` the
                run;
* `Good.documented`, `Good.sheltered`, `run_documented`   what follows from it for the documents.
-/

namespace CodeBridge

namespace Desk
variable {paired : Prop} {d : Desk} {g : Notes}

open Pact

/-! ## counting calls -/

theorem countP_le_countP {α β : Type} {p : α → Bool} {q : β → Bool} {as : List α} {bs : List β}
    (h : ∀ (i : Nat) a, as[i]? = some a → ∃ b, bs[i]? = some b ∧ (p a = true → q b = true)) :
    as.countP p ≤ bs.countP q := by
  induction as generalizing bs with
  | nil => exact Nat.zero_le _
  | cons a as ih =>
    obtain ⟨b, hb, hab⟩ := h 0 a rfl
    cases bs with
    | nil => cases hb
    | cons b' bs =>
      obtain rfl := Option.some.inj hb
      have hrest := ih fun i x hx => h (i + 1) x hx
      rw [List.countP_cons, List.countP_cons]
      cases hp : p a with
      | false =>
        simp only [Bool.false_eq_true, if_false]
        omega
      | true =>
        rw [hab hp]
        simp only [if_true]
        omega

theorem countP_concat {α : Type} (p : α → Bool) (as : List α) (a : α) :
    (as ++ [a]).countP p = as.countP p + (p a).toNat := by
  rw [List.countP_append, List.countP_singleton]
  cases p a <;> rfl

section
variable {p q : Call → Bool} {ks : List Call}

def callersOf (p : Call → Bool) (ks : List Call) : Multiset Nat :=
  ((ks.filter p).map (·.caller) : List Nat)

theorem card_callersOf : (callersOf p ks).card = ks.countP p := by
  unfold callersOf
  rw [Multiset.coe_card, List.length_map, List.countP_eq_length_filter]

theorem count_callersOf (caller : Nat) :
    (callersOf p ks).count caller = ks.countP fun k => k.caller = caller && p k := by
  unfold callersOf
  rw [Multiset.coe_count, List.count, List.countP_map, List.countP_filter]
  refine List.countP_congr fun k _ => ?_
  simp only [Function.comp_apply, Bool.and_eq_true, beq_iff_eq, decide_eq_true_eq]

theorem callersOf_le (h : ∀ caller, (ks.countP fun k => k.caller = caller && p k) ≤
    ks.countP fun k => k.caller = caller && q k) : callersOf p ks ≤ callersOf q ks := by
  refine Multiset.le_iff_count.mpr fun caller => ?_
  rw [count_callersOf, count_callersOf]
  exact h caller

end

/-! ## what holds of all calls -/

structure Good (paired : Prop) (d : Desk) (g : Notes) : Prop where
  sound : Sound paired (d.client, g)
  written : g.written = d.written
  length : g.entries.length = d.calls.length
  notes : ∀ (i : Nat) k, d.calls[i]? = some k → ∃ e, g.entries[i]? = some e ∧
    e.caller = k.caller ∧ e.deed = k.deed ∧ (k.touched = true → e.acted = true)
  keeps : ∀ (i : Nat) k, d.calls[i]? = some k → k.rest.Keeps (pact paired i).terms
    Routine.dropAny (fun a w => Sound paired w ∧ (complete a : Assertion (pact paired i)).Holds w)
    (d.client, g)

theorem Good.call_of (h : Good paired d g) {i : Nat} {e : Entry} (he : g.entries[i]? = some e) :
    ∃ k, d.calls[i]? = some k ∧ e.caller = k.caller ∧ e.deed = k.deed := by
  obtain ⟨hi, -⟩ := List.getElem?_eq_some_iff.mp he
  rw [h.length] at hi
  have hk : d.calls[i]? = some d.calls[i] := List.getElem?_eq_getElem hi
  obtain ⟨f, hf, hcaller, hdeed, -⟩ := h.notes i _ hk
  obtain rfl := Option.some.inj (he.symm.trans hf)
  exact ⟨_, hk, hcaller, hdeed⟩

theorem Good.complete (h : Good paired d g) {i : Nat} {k : Call} {result : Except ClientError Unit}
    (hk : d.calls[i]? = some k) (hr : k.result? = some result) :
    ∃ e, g.entries[i]? = some e ∧ e.caller = k.caller ∧ e.deed = k.deed ∧
      (k.touched = true → e.acted = true) ∧ Clear i (d.client, g) ∧
        Settles paired result e (d.client, g) := by
  have hdone : k.rest = .done result := by
    unfold Call.result? at hr
    split at hr
    next hrest => exact Option.some.inj hr ▸ hrest
    · cases hr
  have hkeeps := h.keeps i k hk
  rw [hdone] at hkeeps
  obtain ⟨-, f, ⟨hf, hclear⟩, hsettles⟩ := hkeeps _ ((pact paired i).terms.refl _)
  obtain ⟨e, he, hcaller, hdeed, htouched⟩ := h.notes i k hk
  obtain rfl := Option.some.inj (he.symm.trans hf)
  exact ⟨e, he, hcaller, hdeed, htouched, hclear, hsettles⟩

theorem Good.opens_le (h : Good paired d g) (uri : String) :
    (d.calls.countP fun k => k.deed.opens uri && k.succeeded) ≤ taken uri g.entries := by
  refine countP_le_countP fun i k hk => ?_
  obtain ⟨e, he, -, hdeed, -⟩ := h.notes i k hk
  refine ⟨e, he, fun hp => ?_⟩
  obtain ⟨hopens, hok⟩ := Bool.and_eq_true_iff.mp hp
  have hr : k.result? = some (.ok ()) := by
    unfold Call.succeeded at hok
    split at hok
    next hr => exact hr
    · cases hok
  obtain ⟨f, hf, -, -, -, -, hsettles⟩ := h.complete hk hr
  obtain rfl := Option.some.inj (he.symm.trans hf)
  rw [← hdeed] at hopens
  exact Bool.and_eq_true_iff.mpr ⟨((settles_opens hopens).mp hsettles).mpr rfl, hopens⟩

theorem Good.begun_eq (h : Good paired d g) (uri : String) :
    begun uri g.entries = d.calls.countP fun k => k.deed.closes uri := by
  refine Nat.le_antisymm (countP_le_countP fun i e he => ?_) (countP_le_countP fun i k hk => ?_)
  · obtain ⟨k, hk, -, hdeed⟩ := h.call_of he
    exact ⟨k, hk, fun hp => hdeed ▸ hp⟩
  · obtain ⟨e, he, -, hdeed, -⟩ := h.notes i k hk
    exact ⟨e, he, fun hp => hdeed.symm ▸ hp⟩

/-! ## what happens -/

section
variable (h : Good paired d g)
include h

theorem good_beside {c : Client} {ws : List Json}
    (hb : Beside (d.client, g) (c, { g with written := ws })) :
    Good paired { d with client := c, written := ws } { g with written := ws } where
  sound := hb.sound h.sound
  written := rfl
  length := h.length
  notes := h.notes
  keeps i k hk := (h.keeps i k hk).rely fun hs => ⟨hb.sound hs, hb.kept i⟩

theorem good_onConnection {f : Connection → Connection}
    (hf : ∀ c ws, Connection.Aside (¬ Left (d.client, g)) (c, ws) (f c, ws)) :
    ∃ g', Good paired (d.onConnection f) g' := by
  have hb : Beside (d.client, g)
      (d.client.setConnection (f d.client.connection), { g with written := d.written }) :=
    ⟨rfl, rfl, rfl, rfl, rfl, rfl, h.written ▸ hf _ _⟩
  exact ⟨_, good_beside h hb⟩

theorem good_read : ∃ g', Good paired d.read g' := by
  unfold Desk.read
  split
  · have hlink : Connection.Aside (¬ Left (d.client, g)) (d.client.connection, g.written)
        (d.client.connection.readNext.1, d.written) := by
      rw [← h.written]
      exact Connection.aside_readNext _ _ h.sound.harmless
    have hb : Beside (d.client, g) (d.client.readNext, { g with written := d.written }) := by
      unfold Client.readNext
      cases hr : d.client.connection.readNext with
      | mk c n =>
        rw [hr] at hlink
        cases n with
        | none => exact ⟨rfl, rfl, rfl, rfl, rfl, rfl, hlink⟩
        | some n => exact ⟨rfl, rfl, rfl, rfl, rfl, rfl, hlink⟩
    exact ⟨_, good_beside h hb⟩
  · exact ⟨g, h⟩

theorem good_write : ∃ g', Good paired d.write g' := by
  unfold Desk.write
  split
  · have hlink : Connection.Aside (¬ Left (d.client, g)) (d.client.connection, g.written)
        (d.client.connection.writeNext, d.written ++ d.client.connection.passing) := by
      rw [← h.written]
      exact Connection.aside_writeNext _ _
    have hb : Beside (d.client, g) (d.client.setConnection d.client.connection.writeNext,
        { g with written := d.written ++ d.client.connection.passing }) :=
      ⟨rfl, rfl, rfl, rfl, rfl, rfl, hlink⟩
    exact ⟨_, good_beside h hb⟩
  · exact ⟨g, h⟩

/-- A call that moves keeps to what was agreed on, whether or not its time is over. -/
theorem good_poll {i : Nat} {k : Call} (hk : d.calls[i]? = some k) (elapsed : Nat) :
    ∃ g', Sound paired ((k.rest.poll elapsed d.client).1, g') ∧
      May i (d.client, g) ((k.rest.poll elapsed d.client).1, g') ∧
      (k.rest.poll elapsed d.client).2.Keeps (pact paired i).terms Routine.dropAny
        (fun a w => Sound paired w ∧ (complete a : Assertion (pact paired i)).Holds w)
        ((k.rest.poll elapsed d.client).1, g') := by
  have hsame : May i (d.client, g) (d.client, g) := (beside_refl _).may rfl i
  cases he : k.rest.expired elapsed d.client with
  | true =>
    have hfires : (pact paired i).terms.fires (d.client, g) g := rfl
    obtain ⟨hc, hkeeps⟩ := (h.keeps i k hk).expired elapsed he hfires
    rw [hc]
    exact ⟨g, h.sound, hsame, hkeeps⟩
  | false =>
    obtain ⟨g', ⟨hc, rfl⟩ | hguar, hkeeps⟩ := (h.keeps i k hk).poll elapsed he
    · rw [hc] at hkeeps ⊢
      exact ⟨g', h.sound, hsame, hkeeps⟩
    · obtain ⟨hsound, hmay⟩ := hguar h.sound
      exact ⟨g', hsound, hmay, hkeeps⟩

theorem good_go (i elapsed : Nat) : ∃ g', Good paired (d.go i elapsed) g' := by
  unfold Desk.go
  cases hk : d.calls[i]? with
  | none => exact ⟨g, h⟩
  | some k =>
    obtain ⟨g', hsound, hmay, hkeeps⟩ := good_poll h hk elapsed
    refine ⟨g', hsound, hmay.written.trans h.written,
      hmay.length.trans (h.length.trans List.length_set.symm), fun j k' hj => ?_, fun j k' hj => ?_⟩
    -- the call that moves is in its guarantee, the others in what it leaves them
    · rcases getElem?_set_cases hj with ⟨rfl, rfl⟩ | ⟨hij, hj⟩
      · obtain ⟨e, he, hcaller, hdeed, htouched⟩ := h.notes i k hk
        obtain ⟨f, hf, hcaller', hdeed', hacted, hdocs⟩ := hmay.own e he
        refine ⟨f, hf, hcaller'.trans hcaller, hdeed'.trans hdeed, fun ht => ?_⟩
        rcases Bool.or_eq_true_iff.mp ht with ht | ht
        · exact hacted (htouched ht)
        · exact hdocs (of_decide_eq_true ht)
      · obtain ⟨e, he, hrest⟩ := h.notes j k' hj
        exact ⟨e, (hmay.others j hij.symm).entry e he, hrest⟩
    · rcases getElem?_set_cases hj with ⟨rfl, rfl⟩ | ⟨hij, hj⟩
      · exact hkeeps
      · exact (h.keeps j k' hj).rely fun _ => ⟨hsound, hmay.others j hij.symm⟩

end

theorem getElem?_concat {α : Type} {as : List α} {a b : α} {i : Nat}
    (h : (as ++ [a])[i]? = some b) : as[i]? = some b ∨ i = as.length ∧ a = b := by
  by_cases hi : i < as.length
  · exact .inl ((List.getElem?_append_left hi).symm.trans h)
  · have hlen := (List.getElem?_eq_some_iff.mp h).1
    rw [List.length_append, List.length_singleton] at hlen
    have hi : i = as.length := by omega
    subst hi
    rw [List.getElem?_concat_length] at h
    exact .inr ⟨rfl, Option.some.inj h⟩

theorem getElem?_concat_of_some {α : Type} {as : List α} {a b : α} {i : Nat}
    (h : as[i]? = some a) : (as ++ [b])[i]? = some a := by
  obtain ⟨hi, -⟩ := List.getElem?_eq_some_iff.mp h
  exact (List.getElem?_append_left hi).trans h

theorem succeeded_begin (caller : Nat) (deed : Deed) :
    ({ caller := caller, deed := deed, rest := deed.routine } : Call).succeeded = false := by
  cases deed <;> rfl

theorem acts_concat (p : Deed → Bool) (es : List Entry) (caller : Nat) (deed : Deed) :
    acts p (es ++ [{ caller := caller, deed := deed }]) = acts p es := countP_concat _ es _

theorem sound_begin (hs : Sound paired (d.client, g)) (caller : Nat) (deed : Deed)
    (hpaired : paired → ∀ uri, begun uri (g.entries ++ [{ caller := caller, deed := deed }]) ≤
      taken uri g.entries) :
    Sound paired (d.client, { g with
      entries := g.entries ++ [{ caller := caller, deed := deed }] }) := by
  have hold {j : Nat} {e : Entry} {n : Nat} (hn : e.ticket = some n)
      (he : (g.entries ++ [{ caller := caller, deed := deed }])[j]? = some e) :
      g.entries[j]? = some e := by
    rcases getElem?_concat he with he | ⟨-, rfl⟩
    · exact he
    · cases hn
  refine ⟨{ hs.toTold with
    leaver := fun hl => ?_
    ledger := fun hl uri => ?_ },
    { issued := hs.issued
      ticket := fun j e n he hn => hs.ticket j e n (hold hn he) hn
      tickets := fun j k e f n he hf hn hn' => hs.tickets j k e f n (hold hn he) (hold hn' hf) hn hn'
      pending := fun hne => ?_
      paired := fun hp uri => ?_ }⟩
  · obtain ⟨e, he, hacted⟩ := hs.leaver hl
    exact ⟨e, List.mem_append_left _ he, hacted⟩
  · show _ + acts _ (g.entries ++ _) = acts _ (g.entries ++ _)
    rw [acts_concat, acts_concat]
    exact hs.ledger hl uri
  · obtain ⟨e, n, he, hrest⟩ := hs.pending hne
    exact ⟨e, n, getElem?_concat_of_some he, hrest⟩
  · show _ ≤ acts _ (g.entries ++ _)
    rw [acts_concat]
    exact hpaired hp uri

/-- If a call is to close a document, its caller has opened it before. -/
theorem Good.balance (h : Good paired d g) {caller : Nat} {deed : Deed} {uri : String}
    (hb : ∀ n, (d.begin caller deed).closes n uri ≤ (d.begin caller deed).opens n uri) :
    begun uri (g.entries ++ [{ caller := caller, deed := deed }]) ≤ taken uri g.entries := by
  have hcards := Multiset.card_le_card (callersOf_le hb)
  rw [card_callersOf, card_callersOf] at hcards
  have hcloses : ((d.begin caller deed).calls.countP fun k => k.deed.closes uri) =
      (d.calls.countP fun k => k.deed.closes uri) + (deed.closes uri).toNat := countP_concat _ _ _
  have hopens : ((d.begin caller deed).calls.countP fun k => k.deed.opens uri && k.succeeded) =
      d.calls.countP fun k => k.deed.opens uri && k.succeeded := by
    unfold Desk.begin
    rw [countP_concat, succeeded_begin, Bool.and_false]
    rfl
  have hnew : begun uri (g.entries ++ [{ caller := caller, deed := deed }]) =
      begun uri g.entries + (deed.closes uri).toNat := countP_concat _ _ _
  have htaken := h.opens_le uri
  have hbegun := h.begun_eq uri
  omega

theorem good_begin (h : Good paired d g) (caller : Nat) (deed : Deed)
    (hpaired : paired → ∀ n uri, (d.begin caller deed).closes n uri ≤
      (d.begin caller deed).opens n uri) :
    ∃ g', Good paired (d.begin caller deed) g' := by
  have hsound := sound_begin h.sound caller deed fun hp uri => h.balance fun n => hpaired hp n uri
  have hlast : (g.entries ++ [{ caller := caller, deed := deed }])[d.calls.length]? =
      some { caller := caller, deed := deed } := by
    rw [← h.length]
    exact List.getElem?_concat_length
  refine ⟨_, hsound, h.written, ?_, fun i k hk => ?_, fun i k hk => ?_⟩
  · show (g.entries ++ _).length = (d.calls ++ _).length
    rw [List.length_append, List.length_append, h.length]
    rfl
  · rcases getElem?_concat hk with hk | ⟨rfl, rfl⟩
    · obtain ⟨e, he, hrest⟩ := h.notes i k hk
      exact ⟨e, getElem?_concat_of_some he, hrest⟩
    · exact ⟨_, hlast, rfl, rfl, fun ht => nomatch ht⟩
  · rcases getElem?_concat hk with hk | ⟨rfl, rfl⟩
    · refine (h.keeps i k hk).rely fun _ => ⟨hsound, ?_⟩
      exact ⟨fun _ he => getElem?_concat_of_some he,
        fun _ _ _ _ hl => ⟨hl, rfl, rfl, rfl, id, fun hw => ⟨hw, fun _ => rfl⟩⟩,
        ⟨id, id, id⟩, id⟩
    · -- whoever is in the midst of its part was there before
      have hclear : Clear d.calls.length (d.client,
          { g with entries := g.entries ++ [{ caller := caller, deed := deed }] }) := by
        by_cases hne : g.pending = []
        · exact .inl hne
        · obtain ⟨e, n, he, -⟩ := h.sound.pending hne
          have hlt := (List.getElem?_eq_some_iff.mp he).1
          rw [h.length] at hlt
          exact .inr (Nat.ne_of_lt hlt)
      have howes : Owes (away { caller := caller, deed := deed } (fun _ => True) (lasts_const True) :
          Assertion (pact paired d.calls.length)) deed.routine complete := owes_deed rfl
      exact howes.keeps _ hsound ⟨⟨hlast, hclear⟩, trivial⟩

theorem good_apply (h : Good paired d g) (event : Event)
    (hpaired : paired → ∀ n uri, (d.apply event).closes n uri ≤ (d.apply event).opens n uri) :
    ∃ g', Good paired (d.apply event) g' := by
  cases event with
  | begin caller deed => exact good_begin h caller deed hpaired
  | go call elapsed => exact good_go h call elapsed
  | read => exact good_read h
  | write => exact good_write h
  | deliver bytes => exact good_onConnection h fun c ws => Connection.aside_deliver c ws bytes
  | hangUp => exact good_onConnection h Connection.aside_hangUp
  | stopListening => exact good_onConnection h Connection.aside_stopListening
  | exited => exact good_onConnection h Connection.aside_exited
  | kill => exact good_onConnection h Connection.aside_kill

theorem good_run (h : Good paired d g) (events : List Event) (hpaired : paired → d.Paired events) :
    ∃ g', Good paired (d.run events) g' := by
  induction events generalizing d g with
  | nil => exact ⟨g, h⟩
  | cons event events ih =>
    obtain ⟨g', h'⟩ := good_apply h event fun hp n uri => hpaired hp 1 n uri
    exact ih h' fun hp n caller uri => hpaired hp (n + 1) caller uri

/-! ## documents -/

theorem marks_start {c : Client} (hc : Fresh c) (uri : String) : World.marks uri (c, {}) = [] := by
  unfold World.marks World.sent Connection.queued
  rw [hc.outbox]
  rfl

theorem good_start {c : Client} (hc : Fresh c) : Good paired { client := c } {} where
  sound :=
    { counts := by rw [hc.openDocs]; exact nofun
      keys := by rw [hc.openDocs]; exact List.nodup_nil
      alternate := fun uri => by
        rw [marks_start hc uri]
        exact List.isChain_singleton _
      gave := hc.outbound
      harmless := fun ticket reply h => by rw [hc.withheld] at h; cases h
      writes := fun _ hopen => ⟨hc.writing hopen, by rw [hc.outbox]; exact List.not_mem_nil⟩
      listed := fun _ _ uri => by
        rw [marks_start hc uri, Client.isSome_holders, hc.openDocs]
        exact iff_of_false nofun fun h => h.elim List.not_mem_nil List.not_mem_nil
      emptied := fun _ => hc.openDocs
      leaver := fun hl => absurd hl hc.lifecycle
      ledger := fun _ uri => by
        unfold Client.holders
        rw [hc.openDocs]
        rfl
      issued := by rw [hc.lock]; exact nofun
      ticket := nofun
      tickets := nofun
      pending := fun hne => absurd rfl hne
      paired := fun _ _ => Nat.le_refl 0 }
  written := rfl
  length := rfl
  notes := nofun
  keeps := nofun

section
variable (h : Good paired d g)
include h

theorem Good.marks_eq (uri : String) : World.marks uri (d.client, g) = d.marks uri := by
  unfold World.marks World.sent Desk.marks Desk.sent
  rw [h.written]

/-- While no call is under way that concerns a document, all that were have done what they should. -/
theorem Good.settled {uri : String} (hstill : d.Still uri) {i : Nat} {e : Entry}
    (he : g.entries[i]? = some e) (hd : e.deed.concerns uri = true) :
    ∃ k result, d.calls[i]? = some k ∧ e.deed = k.deed ∧ k.result? = some result ∧
      Clear i (d.client, g) ∧ Settles paired result e (d.client, g) := by
  obtain ⟨k, hk, -, hdeed⟩ := h.call_of he
  have hended := hstill k (List.mem_of_getElem? hk) (hdeed ▸ hd)
  obtain ⟨result, hr⟩ := Option.isSome_iff_exists.mp hended
  obtain ⟨f, hf, -, -, -, hclear, hsettles⟩ := h.complete hk hr
  obtain rfl := Option.some.inj (he.symm.trans hf)
  exact ⟨k, result, hk, hdeed, hr, hclear, hsettles⟩

theorem Good.not_pending {uri : String} (hstill : d.Still uri) : uri ∉ g.pending := by
  intro hu
  have hne : g.pending ≠ [] := List.ne_nil_of_mem hu
  obtain ⟨e, n, he, -, -, hconcerns⟩ := h.sound.pending hne
  obtain ⟨k, result, -, -, -, hclear, -⟩ := h.settled hstill he (hconcerns uri hu)
  exact hclear.elim hne fun howner => howner rfl

theorem Good.not_left (hup : d.Up) {uri : String} (hstill : d.Still uri) :
    d.client.lifecycle ≠ .shutDown := by
  intro hl
  obtain ⟨e, hmem, hacted, hleaves⟩ := h.sound.leaver hl
  obtain ⟨i, he⟩ := List.getElem?_of_mem hmem
  obtain ⟨k, result, -, -, -, -, hsettles⟩ :=
    h.settled hstill he (Deed.concerns_of_leaves hleaves)
  have hclosed : d.client.connection.closed = true := (settles_leaves hleaves).mp hsettles hacted
  exact absurd (hup.symm.trans hclosed) nofun

theorem Good.staying (hs : d.Staying) : d.client.lifecycle ≠ .shutDown := by
  intro hl
  obtain ⟨e, hmem, -, hleaves⟩ := h.sound.leaver hl
  obtain ⟨i, he⟩ := List.getElem?_of_mem hmem
  obtain ⟨k, hk, -, hdeed⟩ := h.call_of he
  have hstays := hs k (List.mem_of_getElem? hk)
  rw [← hdeed, hleaves] at hstays
  cases hstays

theorem Good.opened_iff (hup : d.Up) (hl : d.client.lifecycle ≠ .shutDown) (uri : String) :
    d.Opened uri ↔ d.Listed uri ∨ uri ∈ g.pending := by
  have hopen : ¬ World.closed (d.client, g) := Bool.eq_false_iff.mp hup
  unfold Desk.Opened
  rw [← h.marks_eq uri]
  exact h.sound.listed (fun hleft => hl hleft.1) hopen uri

theorem Good.told (hup : d.Up) {uri : String} (hlisted : d.Listed uri) : d.Opened uri := by
  have hl : d.client.lifecycle ≠ .shutDown := by
    obtain ⟨n, hn⟩ := Option.isSome_iff_exists.mp hlisted
    exact not_shutDown h.sound.toTold hn
  exact (h.opened_iff hup hl uri).mpr (.inl hlisted)

theorem Good.listed (hup : d.Up) {uri : String} (hstill : d.Still uri) :
    d.Listed uri ↔ d.Opened uri := by
  rw [h.opened_iff hup (h.not_left hup hstill) uri]
  exact (or_iff_left (h.not_pending hstill)).symm

theorem Good.refused {k : Call} (hmem : k ∈ d.calls) {uri : String}
    (hd : k.deed.opens uri = true) (hf : k.failed = true) : k.touched = false := by
  obtain ⟨hended, hfails⟩ := Bool.and_eq_true_iff.mp hf
  obtain ⟨result, hr⟩ := Option.isSome_iff_exists.mp hended
  obtain ⟨i, hk⟩ := List.getElem?_of_mem hmem
  obtain ⟨e, -, -, hdeed, htouched, -, hsettles⟩ := h.complete hk hr
  rw [← Bool.not_eq_true]
  intro ht
  rw [← hdeed] at hd
  have hok : result = .ok () := ((settles_opens hd).mp hsettles).mp (htouched ht)
  unfold Call.succeeded at hfails
  rw [hr, hok] at hfails
  cases hfails

theorem Good.documented : d.Documented where
  counts := h.sound.counts
  alternate uri := h.marks_eq uri ▸ h.sound.alternate uri
  bytes := h.written ▸ h.sound.gave
  told hup _ := h.told hup
  listed hup _ := h.listed hup
  refused _ hmem _ := h.refused hmem

/-! ### holders -/

theorem Good.taken_le {uri : String} (hstill : d.Still uri) :
    taken uri g.entries ≤ d.calls.countP fun k => k.deed.opens uri && k.succeeded := by
  refine countP_le_countP fun i e he => ?_
  obtain ⟨k, hk, -, hdeed⟩ := h.call_of he
  refine ⟨k, hk, fun hp => ?_⟩
  have hacted : e.acted = true := (Bool.and_eq_true_iff.mp hp).1
  have hopens : e.deed.opens uri = true := (Bool.and_eq_true_iff.mp hp).2
  obtain ⟨k', result, hk', -, hr, -, hsettles⟩ :=
    h.settled hstill he (Deed.concerns_of_opens hopens)
  obtain rfl := Option.some.inj (hk.symm.trans hk')
  have hok : result = .ok () := ((settles_opens hopens).mp hsettles).mp hacted
  rw [← hdeed, hopens]
  unfold Call.succeeded
  rw [hr, hok]
  rfl

theorem Good.begun_le (hp : paired) (hl : d.client.lifecycle ≠ .shutDown) {uri : String}
    (hstill : d.Still uri) : begun uri g.entries ≤ dropped uri g.entries := by
  refine countP_le_countP fun i e he => ⟨e, he, fun hcloses => ?_⟩
  obtain ⟨k, result, -, -, -, -, hsettles⟩ :=
    h.settled hstill he (Deed.concerns_of_closes hcloses)
  have hacted : e.acted = true := ((settles_closes hcloses).mp hsettles hp).resolve_right hl
  exact Bool.and_eq_true_iff.mpr ⟨hacted, hcloses⟩

theorem Good.held (hb : ∀ n uri, d.closes n uri ≤ d.opens n uri) (hs : d.Staying) {uri : String}
    (hheld : d.Held uri) : d.Listed uri := by
  obtain ⟨caller, hlt⟩ := hheld
  -- nobody closes it more often than it opened it, and this caller less often
  have hle := callersOf_le fun n => hb n uri
  have hne : callersOf (·.deed.closes uri) d.calls ≠
      callersOf (fun k => k.deed.opens uri && k.succeeded) d.calls := by
    intro heq
    have hcount := congrArg (Multiset.count caller) heq
    rw [count_callersOf, count_callersOf] at hcount
    exact absurd hcount (Nat.ne_of_lt hlt)
  have hcards := Multiset.card_lt_card (lt_of_le_of_ne hle hne)
  rw [card_callersOf, card_callersOf] at hcards
  have hopens := h.opens_le uri
  have hbegun := h.begun_eq uri
  have hdropped : dropped uri g.entries ≤ begun uri g.entries :=
    List.countP_mono_left fun _ _ hp => (Bool.and_eq_true_iff.mp hp).2
  have hledger : (d.client.holders uri).getD 0 + dropped uri g.entries = taken uri g.entries :=
    h.sound.ledger (h.staying hs) uri
  unfold Desk.Listed
  cases hn : d.client.holders uri with
  | some n => rfl
  | none =>
    rw [hn, Option.getD_none] at hledger
    omega

theorem Good.free (hp : paired) (hs : d.Staying) {uri : String} (hstill : d.Still uri)
    (hnone : ¬ d.Held uri) : ¬ d.Listed uri := by
  intro hlisted
  obtain ⟨n, hn⟩ := Option.isSome_iff_exists.mp hlisted
  have hpos : 1 ≤ n := holders_pos h.sound.toTold hn
  have hle (caller : Nat) : d.opens caller uri ≤ d.closes caller uri := by
    by_contra hlt
    exact hnone ⟨caller, Nat.lt_of_not_le hlt⟩
  have hcards := Multiset.card_le_card (callersOf_le hle)
  rw [card_callersOf, card_callersOf] at hcards
  have htaken := h.taken_le hstill
  have hbegun := h.begun_eq uri
  have hdropped := h.begun_le hp (h.staying hs) hstill
  have hledger : (d.client.holders uri).getD 0 + dropped uri g.entries = taken uri g.entries :=
    h.sound.ledger (h.staying hs) uri
  rw [hn, Option.getD_some] at hledger
  omega

theorem Good.sheltered (hp : paired) (hb : ∀ n uri, d.closes n uri ≤ d.opens n uri) :
    d.Sheltered where
  held hup hs _ hheld := h.told hup (h.held hb hs hheld)
  free hup hs _ hstill hnone hopened :=
    h.free hp hs hstill hnone ((h.listed hup hstill).mpr hopened)

end

/-- **However calls are interleaved and whatever becomes of the connection, the list of documents and
the messages about them agree; and for callers who close what they have opened, and nothing else,
a document is open while it is held and closed when nobody holds it.** -/
theorem run_documented {c : Client} (hc : Fresh c) (events : List Event) :
    let d : Desk := { client := c }
    (d.run events).Documented ∧ (d.Paired events → (d.run events).Sheltered) := by
  intro d
  have hstart : Good (d.Paired events) d {} := good_start hc
  obtain ⟨g, hg⟩ := good_run hstart events id
  refine ⟨hg.documented, fun hp => hg.sheltered hp fun caller uri => ?_⟩
  have hlast := hp events.length caller uri
  rwa [List.take_length] at hlast

def greeted : Client := { lifecycle := .initialized }

theorem fresh_greeted : Fresh greeted := ⟨rfl, nofun, rfl, rfl, rfl, fun _ => rfl, rfl⟩

def moves (n call : Nat) : List Event := List.replicate n (.go call 0)

/-- Two callers hold a document at once, and the first of them lets go of it. -/
def overlapping : List Event :=
  [.begin 0 (.openDocument "u" "a"), .begin 1 (.openDocument "u" "b")] ++ moves 10 0 ++ moves 10 1 ++
    .begin 0 (.closeDocument "u") :: moves 10 2

theorem overlapping_documented :
    let d : Desk := { client := greeted }
    Fresh greeted ∧ d.Paired overlapping ∧ (d.run overlapping).Documented ∧
      (d.run overlapping).Sheltered ∧ (d.run overlapping).Held "u" ∧
        (d.run overlapping).marks "u" = [.didOpen] := by
  intro d
  obtain ⟨hdocumented, hsheltered⟩ := run_documented fresh_greeted overlapping
  have hpaired : d.Paired overlapping := by decide +kernel
  exact ⟨fresh_greeted, hpaired, hdocumented, hsheltered hpaired, by decide +kernel, by decide +kernel⟩

/-- The server hangs up on a caller, who then closes its document. -/
def hungUp : List Event :=
  .begin 0 (.openDocument "u" "") :: moves 10 0 ++
    .hangUp :: .read :: .begin 0 (.closeDocument "u") :: moves 6 1

/-- The server does not hear that a document is opened. -/
def unheard : List Event :=
  .begin 0 (.openDocument "u" "") :: moves 10 0 ++ [.stopListening, .write]

/-- Without the connection, a document can be held that is not open, and open though nobody holds
it. -/
theorem not_sheltered_without_connection :
    (¬ ∀ (c : Client), Fresh c → ∀ events : List Event,
      let d : Desk := { client := c }
      d.Paired events → (d.run events).Staying → ∀ uri,
        (d.run events).Held uri → (d.run events).Opened uri) ∧
    ¬ ∀ (c : Client), Fresh c → ∀ events : List Event,
      let d : Desk := { client := c }
      d.Paired events → (d.run events).Staying → ∀ uri, (d.run events).Still uri →
        ¬ (d.run events).Held uri → ¬ (d.run events).Opened uri := by
  refine ⟨fun h => ?_, fun h => ?_⟩
  · have hopened := h greeted fresh_greeted unheard (by decide +kernel) (by decide +kernel) "u"
      (by decide +kernel)
    exact absurd hopened (by decide +kernel)
  · have hshut := h greeted fresh_greeted hungUp (by decide +kernel) (by decide +kernel) "u"
      (by decide +kernel) (by decide +kernel)
    exact hshut (by decide +kernel)

end Desk

end CodeBridge
