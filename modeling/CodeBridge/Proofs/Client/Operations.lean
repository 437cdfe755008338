import CodeBridge.Proofs.Client.Documents
import CodeBridge.Proofs.Client.Parting
import CodeBridge.Proofs.Client.Protocol
import CodeBridge.Proofs.Client.Refusal

/-!
# What operations keep to

Every operation of a client keeps to the order of messages and leaves the client, at whatever
lifecycle, as the next one needs it.

* `Tidy`       the documents and the writer are as the lifecycle asks;
* `Stands`     an operation finds the client at a lifecycle, with the messages that go with it;
* `unmoved`    so it does when it comes to its end without having changed the lifecycle;
* `owes_request`, `owes_takeHold`, `owes_greet`, …   the operations, and `owes_step` any of them.
-/

namespace CodeBridge

namespace Course

open Connection Pact

variable {α : Type} {before : List Item} {step : ClientStep} {life : Lifecycle}

/-! ## between operations -/

/-- Documents are open at one lifecycle only, each of them once, and until the client is shut down
its writer goes on. -/
structure Tidy (life : Lifecycle) (held : List (String × Nat)) (k : Connection) : Prop where
  docs : life ≠ .initialized → held = []
  keys : (held.map (·.1)).Nodup
  /-- without a writer from the start there is no handshake -/
  writes : life ≠ .shutDown → k.Writes ∨ life = .uninitialized ∧ k.writing = false

namespace Tidy
variable {held : List (String × Nat)} {k : Connection}

theorem calm {w w' : World} (h : Calm w w') (ht : Tidy life w.1.openDocs w.1.connection) :
    Tidy life w'.1.openDocs w'.1.connection := by
  rw [h.openDocs]
  exact ⟨ht.docs, ht.keys, fun hl => (ht.writes hl).imp h.link.writes (.imp_right h.link.writing)⟩

theorem message (ht : Tidy life held k) (v : Json) :
    Tidy life held { k with outbox := k.outbox ++ [.message v] } :=
  ⟨ht.docs, ht.keys, fun hl => (ht.writes hl).imp (fun hw => hw.message v) id⟩

theorem initialized (ht : Tidy .uninitialized held k) (hw : k.writing = true) :
    Tidy .initialized held k :=
  ⟨fun hl => absurd rfl hl, ht.keys, fun _ => .inl ((ht.writes nofun).resolve_right fun h =>
    nomatch hw.symm.trans h.2)⟩

theorem amends {c c' : Client} (h : Client.Amends c c')
    (ht : Tidy .initialized c.openDocs c.connection) :
    Tidy .initialized c'.openDocs c'.connection := by
  rw [h.link]
  exact ⟨fun hl => absurd rfl hl, h.keys ht.keys, ht.writes⟩

theorem shutDown (hheld : held = []) : Tidy .shutDown held k :=
  ⟨fun _ => hheld, hheld ▸ List.nodup_nil, fun hl => absurd rfl hl⟩

end Tidy

/-- The client is at a lifecycle, and so are the messages. -/
def Stands (before : List Item) (step : ClientStep) (life : Lifecycle) (w : World) : Prop :=
  w.1.lifecycle = life ∧ Tidy life w.1.openDocs w.1.connection ∧
    Phase life (before ++ .begun step :: w.2)

/-- As long as the client is not shut down the table is empty between calls. -/
def Clean (life : Lifecycle) (u : Link) : Prop := life ≠ .shutDown → Only (fun _ => False) u.1

theorem lasting_clean (life : Lifecycle) : Lasting (Clean life) := fun _ _ h hc hl => h.only (hc hl)

theorem phase_calm {w w' : World} (h : Calm w w') (hp : Phase life (before ++ .begun step :: w.2)) :
    Phase life (before ++ .begun step :: w'.2) := by
  obtain ⟨more, e, ho⟩ := h.link.notes
  have hmore := hp.append (tolds_eq_nil more ho) (not_begun_of_others ho)
  rw [List.append_assoc, List.cons_append] at hmore
  rwa [show w'.2 = w.2 ++ more from e]

theorem steady_stands (before : List Item) (step : ClientStep) (life : Lifecycle) :
    Steady (Stands before step life) := fun _ _ h hs =>
  ⟨h.lifecycle.trans hs.1, hs.2.1.calm h, phase_calm h hs.2.2⟩

/-- An operation has come to its end at this lifecycle. -/
def stays (before : List Item) (step : ClientStep) (line : List Nat) (life : Lifecycle) :
    Assertion (pact (protocol before step)) :=
  knows line (steady_stands before step life) (lasting_clean life)

/-- Or at some other. -/
def settles (before : List Item) (step : ClientStep) (line : List Nat) :
    Assertion (pact (protocol before step)) := .any (stays before step line)

theorem settled_posted {m : Json} {w : World}
    (h : Phase .initialized (before ++ .begun step :: w.2)) (hs : ¬ Names m "shutdown")
    (he : ¬ Names m "exit") : Phase .initialized (before ++ .begun step :: (posted m w).2) := by
  have htold := h.told hs he
  rwa [List.append_assoc, List.cons_append] at htold

/-- A message that leaves the lifecycle alone. -/
structure Plain (m : Json) : Prop where
  opens : ¬ Names m "initialized"
  shuts : ¬ Names m "shutdown"
  exits : ¬ Names m "exit"

theorem Stands.posted {m : Json} (hm : Plain m) {w : World}
    (hlaw : (protocol before step).Allows w.2) (h : Stands before step .initialized w) :
    (protocol before step).Allows (w.2 ++ [.told m]) ∧
      Stands before step .initialized (Course.posted m w) :=
  ⟨protocol_told hlaw (h.2.2.allows hm.opens), h.1, h.2.1.message m,
    settled_posted h.2.2 hm.shuts hm.exits⟩

/-- Whatever becomes of the connection of a client that is shut down. -/
theorem Stands.moved {w : World} {k : Connection} (h : Stands before step .shutDown w) :
    Stands before step .shutDown (w.1.setConnection k, w.2) :=
  ⟨h.1, .shutDown (h.2.1.docs nofun), h.2.2⟩

theorem plain_request {id : UInt64} {method : String} {params : Option Json}
    (h : method ≠ "initialized" ∧ method ≠ "shutdown" ∧ method ≠ "exit") :
    Plain (Message.request id method params) :=
  ⟨fun hn => h.1 (names_request.mp hn), fun hn => h.2.1 (names_request.mp hn),
    fun hn => h.2.2 (names_request.mp hn)⟩

theorem plain_notification {method : String} {params : Option Json}
    (h : method ≠ "initialized" ∧ method ≠ "shutdown" ∧ method ≠ "exit") :
    Plain (Message.notification method params) :=
  ⟨fun hn => h.1 (names_notification.mp hn), fun hn => h.2.1 (names_notification.mp hn),
    fun hn => h.2.2 (names_notification.mp hn)⟩

/-! ## parts -/

section
variable {law : Law} {P : Assertion (pact law)}

theorem owes_of_imp {P' : Assertion (pact law)} {r : Routine Client α} {Q : α → Assertion (pact law)}
    (h : Owes P r Q) (hp : ∀ w, P'.Holds w → P.Holds w) : Owes P' r Q :=
  ⟨fun w hw hp' => h.keeps w hw (hp w hp')⟩

theorem owes_andThen {ε β : Type} {r : Routine Client (Except ε α)}
    {next : α → Routine Client (Except ε β)} {Q : Except ε α → Assertion (pact law)}
    {R : Except ε β → Assertion (pact law)} (h : Owes P r Q)
    (hnext : ∀ a, Owes (Q (.ok a)) (next a) R)
    (hfail : ∀ e w, (Q (.error e)).Holds w → (R (.error e)).Holds w) :
    Owes P (Client.andThen r next) R := by
  refine h.bind fun result => ?_
  cases result with
  | ok a => exact hnext a
  | error e => exact owes_done fun w _ hq => hfail e w hq

end

theorem owes_find {line : List Nat} {f : Client → α} {φ : α → Prop}
    (h : ∀ c, c.lifecycle = life → (life ≠ .initialized → c.openDocs = []) → φ (f c)) :
    Owes (stays before step line life) (.read f) fun a =>
      (Assertion.fact (φ a)).and (stays before step line life) :=
  owes_look fun w _ hp => ⟨h w.1 hp.2.1.1 hp.2.1.2.1.docs, hp⟩

theorem owes_lockedFind {f : Client → α} {φ : α → Prop} (h : ∀ c, c.lifecycle = life → φ (f c)) :
    Owes (stays before step [] life) (Client.locked (.read f)) fun a =>
      (Assertion.fact (φ a)).and (stays before step [] life) := by
  have hlocked : Owes (stays before step [] life) (Client.locked (.read f)) fun a =>
      knows [] ((steady_const (φ a)).and (steady_stands before step life)) (lasting_clean life) :=
    owes_locked fun n => owes_look fun w _ hp => ⟨hp.1, ⟨h w.1 hp.2.1.1, hp.2.1⟩, hp.2.2⟩
  exact hlocked.mono fun a w _ hp => ⟨hp.2.1.1, hp.1, hp.2.1.2, hp.2.2⟩

theorem owes_lockedRead {f : Client → α} :
    Owes (stays before step [] life) (Client.locked (.read f)) fun _ => stays before step [] life :=
  (owes_lockedFind (φ := fun _ => True) fun _ _ => trivial).mono fun _ _ _ hp => hp.2

theorem durable_docs (docs : List (String × Nat)) : Durable fun w => w.1.openDocs = docs :=
  ⟨fun _ _ h hw => h.openDocs.trans hw, fun _ _ hw => hw⟩

/-- An operation at a lifecycle knows the list of documents. -/
def lists (before : List Item) (step : ClientStep) (line : List Nat) (life : Lifecycle)
    (docs : List (String × Nat)) : Assertion (pact (protocol before step)) :=
  knows line ((steady_stands before step life).and (durable_docs docs).steady) (lasting_clean life)

theorem stays_of_lists {line : List Nat} {docs : List (String × Nat)} {w : World}
    (h : (lists before step line life docs).Holds w) : (stays before step line life).Holds w :=
  ⟨h.1, h.2.1.1, h.2.2⟩

theorem lists_of_stays {line : List Nat} {w : World} (h : (stays before step line life).Holds w) :
    (lists before step line life w.1.openDocs).Holds w := ⟨h.1, ⟨h.2.1, rfl⟩, h.2.2⟩

theorem owes_of_lists {line : List Nat} {r : Routine Client α}
    {Q : α → Assertion (pact (protocol before step))}
    (h : ∀ docs, Owes (lists before step line life docs) r Q) :
    Owes (stays before step line life) r Q :=
  owes_of_imp (owes_any h) fun w hp => ⟨w.1.openDocs, lists_of_stays hp⟩

theorem owes_inform {line : List Nat} {docs : List (String × Nat)} {method : String}
    {params : Option Json} (h : method ≠ "initialized" ∧ method ≠ "shutdown" ∧ method ≠ "exit") :
    Owes (lists before step line .initialized docs) (Client.notify method params) fun _ =>
      lists before step line .initialized docs := by
  refine owes_notify (R := lists before step line .initialized docs) (fun _ hp _ => hp)
    (fun _ hp _ => hp) (fun w hlaw hp _ => ?_) fun _ hp _ => hp
  obtain ⟨hlaw', hstands⟩ := hp.2.1.1.posted (plain_notification h) hlaw
  exact ⟨hlaw', hp.1, ⟨hstands, (durable_docs docs).posted _ w hp.2.1.2⟩,
    lasting_clean _ _ _ (tabled_posted _ w) hp.2.2⟩

theorem owes_inquire {line : List Nat} {method : String} {params : Option Json}
    (h : method ≠ "initialized" ∧ method ≠ "shutdown" ∧ method ≠ "exit") :
    Owes (stays before step line .initialized) (Client.call method params) fun _ =>
      stays before step line .initialized := by
  have hsteady := steady_stands before step .initialized
  have hcall (id : UInt64) : Owes (knows line hsteady (lasting_next (fun _ => False) id) :
      Assertion (pact (protocol before step)))
      (Client.call method params) fun _ => stays before step line .initialized := by
    refine (owes_call hsteady hsteady hsteady not_false (fun _ hs _ => hs) (fun _ hs => hs)
      fun w hlaw hs _ => hs.posted (plain_request h) hlaw).mono fun result w _ hp =>
        ⟨hp.1, ?_, fun _ => hp.2.2⟩
    have hcalled : Called method id (Stands before step .initialized)
      (Stands before step .initialized) result w := hp.2.1
    unfold Called at hcalled
    split at hcalled
    · exact hcalled.1
    · exact hcalled.2.1
    · exact hcalled.2.1
    · exact hcalled.1.elim (fun hs => hs) fun hs => hs
    · exact hcalled.elim
  refine owes_of_imp (owes_any hcall) fun w hp => ⟨w.1.connection.nextId, hp.1, hp.2.1, rfl, ?_⟩
  exact hp.2.2 nofun

/-- A change of the list of documents, at a lifecycle where there is one. -/
theorem owes_list {line : List Nat} {docs : List (String × Nat)} {f : Client → Client}
    (hf : ∀ c, c.openDocs = docs → Client.Amends c (f c)) :
    Owes (lists before step line .initialized docs) (.change f) fun _ =>
      stays before step line .initialized := by
  refine owes_change fun w _ hp => ?_
  have hamends := hf w.1 hp.2.1.2
  refine ⟨?_, Nat.le_of_eq ?_, ?_, ⟨?_, hp.2.1.1.2.1.amends hamends, hp.2.1.1.2.2⟩, ?_⟩
  · rw [hamends.link]
    exact ⟨rfl, rfl, rfl, rfl⟩
  · rw [hamends.life]
  · show (f w.1).lock.line = line
    rw [hamends.lock]
    exact hp.1
  · exact hamends.life.trans hp.2.1.1.1
  · show Clean .initialized ((f w.1).connection, w.2)
    rw [hamends.link]
    exact hp.2.2

/-! ## requests -/

theorem owes_request {method : String} {params : Json} {read : Json → Decoded α}
    (h : method ≠ "initialized" ∧ method ≠ "shutdown" ∧ method ≠ "exit") :
    Owes (stays before step [] life) (Client.request method params read) fun _ =>
      stays before step [] life := by
  refine (owes_lockedFind (φ := fun l => l = life) fun _ hl => hl).bind fun l => owes_fact fun hl => ?_
  subst hl
  cases l with
  | uninitialized => exact owes_done fun _ _ hp => hp
  | shutDown => exact owes_done fun _ _ hp => hp
  | initialized =>
    exact owes_andThen (owes_inquire h) (fun _ => owes_done fun _ _ hp => hp) fun _ _ hp => hp

theorem owes_rename {uri newName : String} {position : Position} :
    Owes (stays before step [] life) (Client.rename uri position newName) fun _ =>
      stays before step [] life := by
  have hrename (prepared : Option PrepareRename) : Owes (stays before step [] life)
      (Client.andThen (Client.request "textDocument/rename" (Params.rename uri position newName)
        readWorkspaceEdit) fun edit => .done (.ok ⟨prepared, edit⟩ : Except ClientError Client.RenameOutcome))
      fun _ => stays before step [] life :=
    owes_andThen (owes_request (by decide)) (fun _ => owes_done fun _ _ hp => hp) fun _ _ hp => hp
  have hprepare : Owes (stays before step [] life) (Client.request "textDocument/prepareRename"
      (Params.atPosition uri position) readPrepareRename) fun _ => stays before step [] life :=
    owes_request (by decide)
  refine hprepare.bind fun prepared => ?_
  cases prepared with
  | ok prepared => exact hrename prepared
  | error fault =>
    show Owes _ (if fault.isLifecycle = true then _ else _) _
    split
    · exact owes_done fun _ _ hp => hp
    · exact hrename none

theorem owes_format {uri : String} :
    Owes (stays before step [] life) (Client.format uri) fun _ => stays before step [] life :=
  (owes_find (φ := fun _ => True) fun _ _ _ => trivial).bind fun _ => owes_fact fun _ =>
    owes_request (by decide)

/-! ## documents -/

theorem owes_takeHold {line : List Nat} {uri text : String} :
    Owes (stays before step line life) (Client.takeHold uri text) fun _ =>
      stays before step line life := by
  have hlook : Owes (stays before step line life) (.read id) fun c : Client =>
      (Assertion.fact (c.lifecycle = life)).and (lists before step line life c.openDocs) :=
    owes_look fun w _ hp => ⟨hp.2.1.1, lists_of_stays hp⟩
  refine hlook.bind fun c => owes_fact fun hl => ?_
  rw [hl]
  cases life with
  | uninitialized => exact owes_done fun _ _ => stays_of_lists
  | shutDown => exact owes_done fun _ _ => stays_of_lists
  | initialized =>
    cases hc : c.holders uri with
    | some n =>
      have hset : Owes (lists before step line .initialized c.openDocs)
          (.change (Client.setHolders uri (n + 1))) fun _ => stays before step line .initialized :=
        owes_list fun _ _ => Client.amends_setHolders (Nat.le_add_left 1 n)
      exact hset.bind fun _ => owes_done fun _ _ hp => hp
    | none =>
      have hadd : Owes (lists before step line .initialized c.openDocs)
          (.change (Client.addDocument uri)) fun _ => stays before step line .initialized :=
        owes_list fun d hd => Client.amends_addDocument ((Client.holders_congr hd uri).trans hc)
      exact owes_andThen (owes_inform (by decide))
        (fun _ => hadd.bind fun _ => owes_done fun _ _ hp => hp) fun _ _ => stays_of_lists

theorem owes_letGo {line : List Nat} {uri : String} :
    Owes (stays before step line life) (Client.letGo uri) fun _ => stays before step line life := by
  have hfind : Owes (stays before step line life) (.read id) fun c : Client =>
      (Assertion.fact (life ≠ .initialized → c.holders uri = none)).and
        (stays before step line life) := by
    refine owes_find fun c _ hdocs hl => ?_
    show ((id c).openDocs.find? _).map _ = none
    rw [show (id c).openDocs = [] from hdocs hl]
    rfl
  refine hfind.bind fun c => owes_fact fun hnone => ?_
  cases hholders : c.holders uri with
  | none => exact owes_done fun _ _ hp => hp
  | some n =>
    obtain rfl : life = .initialized :=
      Decidable.byContradiction fun hl => nomatch (hnone hl).symm.trans hholders
    have hlist {f : Client → Client} (hf : ∀ c, Client.Amends c (f c)) :
        Owes (stays before step line .initialized) (.change f) fun _ =>
          stays before step line .initialized :=
      owes_of_lists fun _ => owes_list fun c _ => hf c
    have hinform : Owes (stays before step line .initialized)
        (Client.notify "textDocument/didClose" (some (Params.ofDocument uri))) fun _ =>
          stays before step line .initialized :=
      owes_of_lists fun _ => (owes_inform (by decide)).mono fun _ _ _ => stays_of_lists
    show Owes _ (if n > 1 then _ else _) _
    split
    next hn =>
      exact (hlist fun _ => Client.amends_setHolders (Nat.le_sub_one_of_lt hn)).bind
        fun _ => owes_done fun _ _ hp => hp
    · exact (hlist fun _ => Client.amends_removeDocument).bind fun _ => hinform

/-! ## the lifecycle -/

def Hushed (before : List Item) (step : ClientStep) (w : World) : Prop :=
  Stands before step .uninitialized w ∧ tolds w.2 = []

def Asked (before : List Item) (step : ClientStep) (id : UInt64) (params : Option Json)
    (w : World) : Prop :=
  Stands before step .uninitialized w ∧ tolds w.2 = [Message.request id "initialize" params]

theorem steady_hushed (before : List Item) (step : ClientStep) : Steady (Hushed before step) :=
  fun _ _ h hw => ⟨steady_stands _ _ _ _ _ h hw.1, h.link.tolds_eq.trans hw.2⟩

theorem steady_asked (before : List Item) (step : ClientStep) (id : UInt64)
    (params : Option Json) : Steady (Asked before step id params) :=
  fun _ _ h hw => ⟨steady_stands _ _ _ _ _ h hw.1, h.link.tolds_eq.trans hw.2⟩

/-- The server has been told that it is initialized, the client does not know it yet. -/
def Agreed (before : List Item) (step : ClientStep) (w : World) : Prop :=
  w.1.lifecycle = .uninitialized ∧ Tidy .initialized w.1.openDocs w.1.connection ∧
    Phase .initialized (before ++ .begun step :: w.2)

theorem steady_agreed (before : List Item) (step : ClientStep) : Steady (Agreed before step) :=
  fun _ _ h hw => ⟨h.lifecycle.trans hw.1, hw.2.1.calm h, phase_calm h hw.2.2⟩

section
variable {line : List Nat} {id : UInt64} {uri : String}

def welcomed (before : List Item) (uri : String) (line : List Nat) (id : UInt64)
    (params : Option Json) (value : Json) : Assertion (pact (protocol before (.handshake uri))) :=
  knows line ((steady_asked before (.handshake uri) id params).and (steady_got id (.result value)))
    (lasting_only fun _ => False)

def answered (before : List Item) (uri : String) (line : List Nat) :
    Except ClientError Unit → Assertion (pact (protocol before (.handshake uri)))
  | .ok () => knows line (steady_agreed before (.handshake uri)) (lasting_only fun _ => False)
  | .error _ => stays before (.handshake uri) line .uninitialized

/-- The end of a handshake whose request has been answered with success. -/
theorem owes_agree {params : Option Json} {value : Json} :
    Owes (welcomed before uri line id params value)
      (Client.andThen (Client.notify "initialized" (some (.obj []))) fun _ =>
        (Routine.change Client.markInitialized).bind fun _ => .done (.ok ()))
      fun _ => settles before (.handshake uri) line := by
  have hnotify : Owes (welcomed before uri line id params value)
      (Client.notify "initialized" (some (.obj []))) (answered before uri line) := by
    refine owes_notify (R := welcomed before uri line id params value)
      (fun w hp _ => ⟨hp.1, hp.2.1.1.1, fun _ => hp.2.2⟩) (fun _ hp _ => hp) (fun w hlaw hp hw => ?_)
      fun w hp _ => ⟨hp.1, hp.2.1.1.1, fun _ => hp.2.2⟩
    obtain ⟨hline, ⟨⟨hstands, htold⟩, hgot⟩, honly⟩ := hp
    have haccepted : Accepted (before ++ .begun (.handshake uri) :: w.2) :=
      ⟨before, uri, w.2, id, params, value, rfl, hlaw.1, htold, hgot⟩
    obtain ⟨hallowed, hphase⟩ := hstands.2.2.agrees haccepted (some (.obj []))
    rw [List.append_assoc, List.cons_append] at hphase
    exact ⟨protocol_told hlaw hallowed, hline,
      ⟨hstands.1, (hstands.2.1.initialized hw).message _, hphase⟩, honly.pending, honly.answers⟩
  refine owes_andThen hnotify (fun u => ?_) fun e w hp => ⟨.uninitialized, hp⟩
  have hmark : Owes (answered before uri line (.ok ())) (.change Client.markInitialized) fun _ =>
      stays before (.handshake uri) line .initialized := by
    refine owes_change fun w _ hp => ⟨⟨rfl, rfl, rfl, rfl⟩, ?_, hp.1,
      ⟨rfl, hp.2.1.2⟩, fun _ => hp.2.2⟩
    rw [show w.1.lifecycle = .uninitialized from hp.2.1.1]
    exact Nat.zero_le 1
  exact hmark.bind fun _ => owes_done fun w _ hp => ⟨.initialized, hp⟩

theorem owes_greet :
    Owes (knows line (steady_hushed before (.handshake uri)) (lasting_next (fun _ => False) id) :
        Assertion (pact (protocol before (.handshake uri))))
      (Client.greet uri) fun _ => settles before (.handshake uri) line := by
  have hhushed := steady_hushed before (.handshake uri)
  have hlook : Owes (knows line hhushed (lasting_next (fun _ => False) id) :
      Assertion (pact (protocol before (.handshake uri))))
      (.read fun c => c) fun c => (Assertion.fact (c.lifecycle = .uninitialized)).and
        (knows line hhushed (lasting_next (fun _ => False) id)) :=
    owes_look fun w _ hp => ⟨hp.2.1.1.1, hp⟩
  refine hlook.bind fun c => owes_fact fun hl => ?_
  rw [hl]
  let params := some (Params.handshake c.processId uri)
  have hasked := steady_asked before (.handshake uri) id params
  have hcall : Owes (knows line hhushed (lasting_next (fun _ => False) id) :
      Assertion (pact (protocol before (.handshake uri)))) (Client.call "initialize" params)
      fun result => knows line (steady_called "initialize" id hhushed hasked result)
        (lasting_only fun _ => False) := by
    refine owes_call hhushed hasked hhushed not_false (fun _ hw _ => hw) (fun _ hw => hw)
      fun w hlaw hw _ => ?_
    obtain ⟨hallowed, hphase⟩ := hw.1.2.2.opens ⟨id, params, rfl⟩
    rw [List.append_assoc, List.cons_append] at hphase
    refine ⟨protocol_told hlaw hallowed, ⟨hw.1.1, hw.1.2.1.message _, hphase⟩, ?_⟩
    show tolds (w.2 ++ [.told _]) = _
    rw [tolds_concat, hw.2]
    rfl
  refine hcall.bind fun result => ?_
  cases result with
  | ok value =>
    have hset : Owes (knows line (steady_called "initialize" id hhushed hasked (.ok value))
        (lasting_only fun _ => False) : Assertion (pact (protocol before (.handshake uri))))
        (.change (Client.setCapabilities value)) fun _ => welcomed before uri line id params value :=
      owes_change fun w _ hp => ⟨⟨rfl, rfl, rfl, rfl⟩, Nat.le_refl _, hp⟩
    exact hset.bind fun _ => owes_agree
  | error fault =>
    refine owes_done fun w _ hp => ⟨.uninitialized, hp.1, ?_, fun _ => hp.2.2⟩
    have hcalled : Called "initialize" id (Hushed before (.handshake uri))
      (Asked before (.handshake uri) id params) (.error fault) w := hp.2.1
    cases fault with
    | server m code message => exact hcalled.2.1.1
    | timeout m limit => exact hcalled.2.1.1
    | connectionClosed => exact hcalled.1.elim (fun hw => hw.1) fun hw => hw.1
    | _ => exact hcalled.elim

end

/-! ## leaving -/

/-- What the messages of a shutdown are, by their places. -/
theorem getElem?_goodbye {docs : List String} {id : UInt64} {k : Nat} {m : Json}
    (h : (goodbye docs id)[k]? = some m) :
    k < docs.length ∧ (∃ uri, m = Message.notification "textDocument/didClose"
        (some (Params.ofDocument uri))) ∨
      k = docs.length ∧ m = Message.request id "shutdown" none ∨
      k = docs.length + 1 ∧ m = Message.notification "exit" none := by
  rcases Nat.lt_trichotomy k docs.length with hk | rfl | hk
  · rw [getElem_goodbye id hk] at h
    exact .inl ⟨hk, _, (Option.some.inj h).symm⟩
  · rw [getElem_goodbye_shutdown] at h
    exact .inr (.inl ⟨rfl, (Option.some.inj h).symm⟩)
  · have hlt : k < docs.length + 2 := by
      obtain ⟨hlt, -⟩ := List.getElem?_eq_some_iff.mp h
      simpa [goodbye] using hlt
    obtain rfl : k = docs.length + 1 := by omega
    rw [getElem_goodbye_exit] at h
    exact .inr (.inr ⟨rfl, (Option.some.inj h).symm⟩)

theorem mem_take_goodbye {docs : List String} {id : UInt64} {j : Nat} {m : Json}
    (h : m ∈ (goodbye docs id).take j) : ∃ k < j, (goodbye docs id)[k]? = some m := by
  obtain ⟨k, hk⟩ := List.mem_iff_getElem?.mp h
  rw [List.getElem?_take] at hk
  split at hk
  next hlt => exact ⟨k, hlt, hk⟩
  · cases hk

/-- Every message of a shutdown may follow those before it. -/
theorem allowed_goodbye {docs : List String} {id : UInt64} {items : List Item} {j : Nat} {m : Json}
    {earlier : List Json} (hphase : ∃ m' ∈ earlier, Names m' "initialized")
    (hnone : ∀ m' ∈ earlier, ¬ Names m' "shutdown" ∧ ¬ Names m' "exit")
    (hbegun : .begun .terminate ∉ items) (ht : tolds items = earlier ++ (goodbye docs id).take j)
    (hm : (goodbye docs id)[j]? = some m) : Allowed items m := by
  have hmem {m' : Json} (hm' : m' ∈ tolds items) :
      m' ∈ earlier ∨ ∃ k < j, (goodbye docs id)[k]? = some m' := by
    rw [ht] at hm'
    exact (List.mem_append.mp hm').imp_right mem_take_goodbye
  have hopens : ¬ Names m "initialized" := by
    rcases getElem?_goodbye hm with ⟨-, uri, rfl⟩ | ⟨-, rfl⟩ | ⟨-, rfl⟩
    · exact fun hn => absurd (names_notification.mp hn) (by decide)
    · exact fun hn => absurd (names_request.mp hn) (by decide)
    · exact fun hn => absurd (names_notification.mp hn) (by decide)
  refine ⟨fun hno => ?_, fun hn => absurd hn hopens, fun ⟨m', hm', hn⟩ => ?_, fun m' hm' hn => ?_, hbegun⟩
  · obtain ⟨m₀, hm₀, hn₀⟩ := hphase
    exact absurd hn₀ (hno m₀ (by rw [ht]; exact List.mem_append_left _ hm₀))
  · obtain ⟨k, hk, hget⟩ := (hmem hm').resolve_left fun he => (hnone m' he).1 hn
    have hplace : k = docs.length := by
      rcases getElem?_goodbye hget with ⟨-, uri, rfl⟩ | ⟨e, -⟩ | ⟨-, rfl⟩
      · exact absurd (names_notification.mp hn) (by decide)
      · exact e
      · exact absurd (names_notification.mp hn) (by decide)
    rcases getElem?_goodbye hm with ⟨hj, -⟩ | ⟨hj, -⟩ | ⟨-, rfl⟩
    · omega
    · omega
    · rfl
  · obtain ⟨k, hk, hget⟩ := (hmem hm').resolve_left fun he => (hnone m' he).2 hn
    have hplace : k = docs.length + 1 := by
      rcases getElem?_goodbye hget with ⟨-, uri, rfl⟩ | ⟨-, rfl⟩ | ⟨e, -⟩
      · exact absurd (names_notification.mp hn) (by decide)
      · exact absurd (names_request.mp hn) (by decide)
      · exact e
    rcases getElem?_goodbye hm with ⟨hj, -⟩ | ⟨hj, -⟩ | ⟨hj, -⟩ <;> omega

/-- A shutdown keeps to the order of messages. -/
theorem owes_leave {open_ : List (String × Nat)} {id : UInt64} {line : List Nat}
    (hphase : Phase .initialized (before ++ [.begun .shutdown])) {φ : World → Prop} (hφ : Steady φ)
    (hinit : ∀ w, φ w → w.1.lifecycle = .initialized ∧ w.1.openDocs = open_ ∧ tolds w.2 = []) :
    Owes (knows line hφ (lasting_next (fun _ => False) id) :
        Assertion (pact (protocol before .shutdown))) Client.farewell fun _ =>
      stays before .shutdown line .shutDown := by
  have hlaw (g : List Item) (j : Nat) (m : Json)
      (ht : tolds g = (goodbye (inOrder open_) id).take j)
      (hm : (goodbye (inOrder open_) id)[j]? = some m)
      (h : (protocol before .shutdown).Allows g) :
      (protocol before .shutdown).Allows (g ++ [.told m]) := by
    obtain ⟨hinitialized, hnone, hbegun⟩ := hphase
    refine protocol_told h (allowed_goodbye hinitialized hnone (fun hm => ?_) ?_ hm)
    · rcases List.mem_append.mp hm with hm | hm
      · exact hbegun (List.mem_append_left _ hm)
      · rcases List.mem_cons.mp hm with hm | hm
        · cases hm
        · obtain ⟨m', e⟩ := h.1 _ hm rfl
          cases e
    · rw [← ht, ← tolds_append, List.append_assoc]
      rfl
  have hfarewell : Owes (knows line hφ (lasting_next (fun _ => False) id) :
      Assertion (pact (protocol before .shutdown))) Client.farewell fun result =>
        knows line (steady_parted True (inOrder open_) id result) lasting_empty :=
    owes_farewell hlaw rfl not_false hφ fun w hw =>
      ⟨(hinit w hw).1, (hinit w hw).2.1, (hinit w hw).2.2, .inl trivial⟩
  exact hfarewell.mono fun _ w _ hp =>
    ⟨hp.1, ⟨hp.2.1.1.1.1, .shutDown hp.2.1.1.1.2, trivial⟩, fun hl => absurd rfl hl⟩

/-- Whatever the lifecycle, a client that is terminated says nothing and is shut down. -/
theorem owes_terminate :
    Owes (knows [] (steady_const True) (lasting_only fun _ => True) :
        Assertion (pact (protocol before step))) Client.terminate fun _ =>
      stays before step [] .shutDown := by
  have hmark : Owes (knows [] (steady_const True) (lasting_only fun _ => True) :
      Assertion (pact (protocol before step))) (Client.locked (.change Client.markTerminated))
      fun _ => stays before step [] .shutDown := by
    refine owes_locked fun n => owes_change fun w _ hp => ⟨⟨rfl, rfl, rfl, rfl⟩, ?_, hp.1,
        ⟨rfl, .shutDown rfl, trivial⟩, fun hl => absurd rfl hl⟩
    show w.1.lifecycle.rank ≤ 2
    cases w.1.lifecycle <;> decide
  have hclose : Owes (stays before step [] .shutDown) (Client.onConnection (close 0)) fun result =>
      (stays before step [] .shutDown).and (seenOff result) :=
    owes_close 0 (R := stays before step [] .shutDown)
      (fun w hp => ⟨hp.1, hp.2.1.moved, fun hl => absurd rfl hl⟩)
      fun w hp => ⟨hp.1, hp.2.1.moved, fun hl => absurd rfl hl⟩
  exact hmark.bind fun _ => hclose.mono fun _ _ _ hp => hp.1

/-! ## any operation -/

theorem owes_report {law : Law} {P Q : Assertion (pact law)} {r : Routine Client α}
    {f : α → Report} (h : Owes P r fun _ => Q) : Owes P (r.report f) fun _ => Q :=
  h.bind fun _ => owes_done fun _ _ hq => hq

theorem settles_leave {n : Nat} {w : World} (h : (settles before step [n]).Holds w) :
    (settles before step []).Holds (w.1.setLock (w.1.lock.leave n), w.2) := by
  obtain ⟨life, hstays⟩ := h
  have hleave := knows_leave hstays
  exact ⟨life, hleave⟩

theorem settles_of_stays {line : List Nat} {r : Routine Client α} {P : Assertion (pact (protocol before step))}
    (h : Owes P r fun _ => stays before step line life) :
    Owes P r fun _ => settles before step line :=
  h.mono fun _ _ _ hp => ⟨life, hp⟩

/-- What is done with the lock comes to nothing when the lifecycle does not allow it. -/
theorem owes_gate {next : Client → Routine Client (Except ClientError α)}
    (h : ∀ c, c.lifecycle = life → ∃ fault, next c = .done (.error fault)) :
    Owes (stays before step [] life) (Client.locked ((Routine.read id).bind next)) fun _ =>
      settles before step [] := by
  refine owes_locked_of (fun n => ?_) fun _ _ _ hp => settles_leave hp
  refine (owes_find (φ := fun c : Client => c.lifecycle = life) fun _ hl _ => hl).bind
    fun c => owes_fact fun hc => ?_
  obtain ⟨fault, hfault⟩ := h c hc
  rw [hfault]
  exact owes_done fun _ _ hp => ⟨life, hp⟩

theorem owes_awaitDiagnostics {uri : String} {limit : Nat} :
    Owes (stays before step [] life) (Client.awaitDiagnostics uri limit) fun _ =>
      stays before step [] life := by
  have hmoves : (Client.awaitDiagnostics uri limit).MovesBy
      fun c c' => ∃ published, c' = c.setPublished published :=
    (Routine.movesBy_any _).zoom fun _ published _ => ⟨published, rfl⟩
  refine owes_movesBy hmoves (fun _ _ hg => hg) fun c c' g hc hfine hp => ?_
  obtain ⟨published, rfl⟩ := hc
  have hunsaid : Unsaid c.connection (c.setPublished published).connection := ⟨rfl, rfl, rfl, rfl⟩
  exact ⟨g, hfine, hunsaid.move (Nat.le_refl _) g, hp⟩

/-- What is neither the handshake nor the end leaves the lifecycle as it is. -/
theorem owes_ordinary (h : step.isHandshake = false) (hs : step ≠ .shutdown)
    (ht : step ≠ .terminate) :
    Owes (stays before step [] life) step.routine fun _ => stays before step [] life := by
  cases step with
  | handshake uri => cases h
  | shutdown => exact absurd rfl hs
  | terminate => exact absurd rfl ht
  | openDocument uri text => exact owes_report (owes_locked fun _ => owes_takeHold)
  | closeDocument uri => exact owes_report (owes_locked fun _ => owes_letGo)
  | rename uri position newName => exact owes_report owes_rename
  | format uri => exact owes_report owes_format
  | diagnostics uri => exact owes_report (owes_look fun _ _ hp => hp)
  | awaitDiagnostics uri ms => exact owes_report owes_awaitDiagnostics
  | _ => first
    | exact owes_report owes_lockedRead
    | exact owes_report (owes_request (by decide))

/-- What an operation may find when it begins. -/
structure Begins (before : List Item) (c : Client) : Prop where
  line : c.lock.line = []
  tidy : Tidy c.lifecycle c.openDocs c.connection
  phase : Phase c.lifecycle before
  clean : Clean c.lifecycle (c.connection, [])

theorem Begins.stays {c : Client} (h : Begins before c) (step : ClientStep) (ht : step ≠ .terminate) :
    (stays before step [] c.lifecycle).Holds (c, []) :=
  ⟨h.line, ⟨rfl, h.tidy, h.phase.append rfl fun hm => ht (Item.begun.inj (List.mem_singleton.mp hm)).symm⟩,
    h.clean⟩

section
variable {c : Client}

theorem Begins.writes (h : Begins before c) (hl : c.lifecycle = .initialized) :
    c.connection.Writes :=
  (h.tidy.writes (hl ▸ nofun)).resolve_right fun hfresh => nomatch hl.symm.trans hfresh.1

theorem Begins.only (h : Begins before c) (hl : c.lifecycle = .initialized) (S : UInt64 → Prop) :
    Only S c.connection :=
  have hnone := h.clean (hl ▸ nofun)
  ⟨fun id hm => (hnone.pending id hm).elim, fun a hm => (hnone.answers a hm).elim⟩

end

theorem owes_handshake (uri : String) {c : Client} (h : Begins before c) :
    ∃ P : Assertion (pact (protocol before (.handshake uri))), P.Holds (c, []) ∧
      Owes P (Client.handshake uri) fun _ => settles before (.handshake uri) [] := by
  have hstays := h.stays (.handshake uri) nofun
  have hrefused (hl : c.lifecycle ≠ .uninitialized) :
      Owes (stays before (.handshake uri) [] c.lifecycle) (Client.handshake uri) fun _ =>
        settles before (.handshake uri) [] := owes_gate fun d hd => by
    rw [hd]
    cases h : c.lifecycle with
    | uninitialized => exact absurd h hl
    | _ => exact ⟨_, rfl⟩
  cases hl : c.lifecycle with
  | uninitialized =>
    rw [hl] at hstays
    exact ⟨knows [] (steady_hushed before (.handshake uri)) (lasting_next (fun _ => False) c.connection.nextId),
      ⟨hstays.1, ⟨hstays.2.1, rfl⟩, rfl, hstays.2.2 nofun⟩,
      owes_locked_of (fun _ => owes_greet) fun _ _ _ hp => settles_leave hp⟩
  | _ => exact ⟨_, hstays, hrefused (by rw [hl]; nofun)⟩

theorem owes_shutdown {c : Client} (h : Begins before c) :
    ∃ P : Assertion (pact (protocol before .shutdown)), P.Holds (c, []) ∧
      Owes P Client.shutdown fun _ => settles before .shutdown [] := by
  have hstays := h.stays .shutdown nofun
  have hrefused (hl : c.lifecycle ≠ .initialized) :
      Owes (stays before .shutdown [] c.lifecycle) Client.shutdown fun _ =>
        settles before .shutdown [] := owes_gate fun d hd => by
    rw [hd]
    cases h : c.lifecycle with
    | initialized => exact absurd h hl
    | _ => exact ⟨_, rfl⟩
  cases hl : c.lifecycle with
  | initialized =>
    rw [hl] at hstays
    let φ (w : World) : Prop :=
      (w.1.lifecycle = .initialized ∧ w.1.openDocs = c.openDocs) ∧ tolds w.2 = []
    have hφ : Steady φ := fun w w' hc hw =>
      ⟨⟨hc.lifecycle.trans hw.1.1, hc.openDocs.trans hw.1.2⟩, hc.link.tolds_eq.trans hw.2⟩
    have hphase : Phase .initialized (before ++ [.begun .shutdown]) := hstays.2.1.2.2
    exact ⟨knows [] hφ (lasting_next (fun _ => False) c.connection.nextId),
      ⟨hstays.1, ⟨⟨hl, rfl⟩, rfl⟩, rfl, hstays.2.2 nofun⟩,
      settles_of_stays (owes_locked fun _ => owes_leave hphase hφ fun w hw =>
        ⟨hw.1.1, hw.1.2, hw.2⟩)⟩
  | _ => exact ⟨_, hstays, hrefused (by rw [hl]; nofun)⟩

/-- Every operation keeps to the order of messages, and lets the next one begin. -/
theorem owes_step (step : ClientStep) {c : Client} (h : Begins before c) :
    ∃ P : Assertion (pact (protocol before step)), P.Holds (c, []) ∧
      Owes P step.routine fun _ => settles before step [] := by
  cases hs : step.isHandshake with
  | true =>
    obtain ⟨uri, rfl⟩ := ClientStep.exists_of_isHandshake hs
    obtain ⟨P, hp, howes⟩ := owes_handshake uri h
    exact ⟨P, hp, owes_report howes⟩
  | false =>
    by_cases hshut : step = .shutdown
    · subst hshut
      obtain ⟨P, hp, howes⟩ := owes_shutdown h
      exact ⟨P, hp, owes_report howes⟩
    · by_cases hterminate : step = .terminate
      · subst hterminate
        exact ⟨knows [] (steady_const True) (lasting_only fun _ => True),
          ⟨h.line, trivial, fun _ _ => trivial, fun _ _ => trivial⟩,
          settles_of_stays (owes_report owes_terminate)⟩
      · exact ⟨_, h.stays step hterminate, settles_of_stays (owes_ordinary hs hshut hterminate)⟩

end Course

end CodeBridge
