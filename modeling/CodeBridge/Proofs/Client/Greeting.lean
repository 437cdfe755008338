import CodeBridge.Proofs.Client.Operations

/-!
# A handshake that fails

The handshake asks the server to initialize, keeps what the server answers that it can do, and tells
it that all is well.  It can fail at the request and at the notification.

* `Unmet`        a client that has not been initialized, while no operation is under way;
* `Rebuffed`     what a handshake that fails leaves: the lifecycle and the documents as they were,
                 and what is known of the server, too, unless the request was answered with success
                 and only then the connection went down;
* `owes_greet_rebuffed`, `handshake_rebuffed`   the operation, and every course of it;
* `handshake_keeps_answer`   that exception does occur.
-/

namespace CodeBridge

namespace Course

open Connection Pact

/-! ## what is to be shown -/

structure Unmet (c : Client) : Prop where
  lifecycle : c.lifecycle = .uninitialized
  line : c.lock.line = []
  /-- the next number is free -/
  number : Only (· ≠ c.connection.nextId) c.connection

/-- What is so of a client after a handshake that has failed. -/
structure Rebuffed (c : Client) (fault : ClientError) (w : World) : Prop where
  lifecycle : w.1.lifecycle = c.lifecycle
  openDocs : w.1.openDocs = c.openDocs
  capabilities : w.1.capabilities = c.capabilities ∨ fault = .connectionClosed ∧
    ∃ value, Got c.connection.nextId (.result value) w.2 ∧
      w.1.capabilities = value.get? "capabilities"

theorem steady_rebuffed (c : Client) (fault : ClientError) : Steady (Rebuffed c fault) := by
  refine fun w w' h hw => ⟨h.lifecycle.trans hw.lifecycle, h.openDocs.trans hw.openDocs, ?_⟩
  refine hw.capabilities.imp h.capabilities.trans (And.imp_right ?_)
  rintro ⟨value, hgot, hcap⟩
  exact ⟨value, steady_got _ _ w w' h hgot, h.capabilities.trans hcap⟩

/-! ## the operation -/

/-- Nothing but the end of an operation may not be noted. -/
def unended : Law where
  Allows recent := ∀ step report, .ended step report ∉ recent
  outside {a b} ho h step report hm := by
    rcases List.mem_append.mp hm with hm | hm
    · exact h step report hm
    · exact Bool.noConfusion (ho _ hm)

theorem unended_told {recent : List Item} (h : unended.Allows recent) (m : Json) :
    unended.Allows (recent ++ [.told m]) := by
  intro step report hm
  rcases List.mem_append.mp hm with hm | hm
  · exact h step report hm
  · cases List.mem_singleton.mp hm

section
variable (c : Client)

def Same (w : World) : Prop :=
  (w.1.lifecycle = c.lifecycle ∧ w.1.openDocs = c.openDocs) ∧ w.1.capabilities = c.capabilities

theorem steady_same : Steady (Same c) := fun _ _ h hw =>
  ⟨⟨h.lifecycle.trans hw.1.1, h.openDocs.trans hw.1.2⟩, h.capabilities.trans hw.2⟩

variable {c}

theorem Same.rebuffed {fault : ClientError} {w : World} (h : Same c w) : Rebuffed c fault w :=
  ⟨h.1.1, h.1.2, .inl h.2⟩

/-- The server has answered, and what it can do is kept. -/
def Told (c : Client) (value : Json) (w : World) : Prop :=
  ((w.1.lifecycle = c.lifecycle ∧ w.1.openDocs = c.openDocs) ∧
    w.1.capabilities = value.get? "capabilities") ∧ Got c.connection.nextId (.result value) w.2

theorem steady_told (c : Client) (value : Json) : Steady (Told c value) :=
  Steady.and (fun _ _ h hw => ⟨⟨h.lifecycle.trans hw.1.1, h.openDocs.trans hw.1.2⟩,
    h.capabilities.trans hw.2⟩) (steady_got _ _)

/-- The server has been told that all is well, or the connection went down. -/
def Confirmed (c : Client) (value : Json) (result : Except ClientError Unit) (w : World) : Prop :=
  (∀ fault, result = .error fault → fault = .connectionClosed) ∧ Told c value w

theorem steady_confirmed (c : Client) (value : Json) (result : Except ClientError Unit) :
    Steady (Confirmed c value result) := (steady_const _).and (steady_told c value)

def Greeted (c : Client) (result : Except ClientError Unit) (w : World) : Prop :=
  ∀ fault, result = .error fault → Rebuffed c fault w

theorem steady_greeted (c : Client) (result : Except ClientError Unit) :
    Steady (Greeted c result) := fun w w' h hw fault e =>
  steady_rebuffed c fault w w' h (hw fault e)

theorem Called.same {w : World} {fault : ClientError}
    (h : Called "initialize" c.connection.nextId (Same c) (Same c) (.error fault) w) :
    Same c w := by
  cases fault with
  | server m code message => exact h.2.1
  | timeout m limit => exact h.2.1
  | connectionClosed => exact h.1.elim id id
  | _ => exact h.elim

abbrev unasked (c : Client) (line : List Nat) : Assertion (pact unended) :=
  knows line (steady_same c) (lasting_next (· ≠ c.connection.nextId) c.connection.nextId)

/-- What is known when it has its answer, or when none comes. -/
abbrev onceAsked (c : Client) (line : List Nat) {φ : World → Prop} (h : Steady φ) :
    Assertion (pact unended) := knows line h (lasting_only (· ≠ c.connection.nextId))

variable {line : List Nat} {uri : String}

theorem owes_confirm (value : Json) : Owes (onceAsked c line (steady_told c value))
    (Client.notify "initialized" (some (.obj []))) fun result =>
      onceAsked c line (steady_confirmed c value result) := by
  refine owes_notify (R := onceAsked c line (steady_told c value))
    (fun w hp _ => ⟨hp.1, ⟨?_, hp.2.1⟩, hp.2.2⟩) (fun _ hp _ => hp)
    (fun w hlaw hp _ => ⟨unended_told hlaw _, hp.1, ⟨nofun, ?_⟩, ?_⟩)
    fun w hp _ => ⟨hp.1, ⟨?_, hp.2.1⟩, hp.2.2⟩
  · exact fun fault e => (Except.error.inj e).symm
  · exact ⟨hp.2.1.1, hp.2.1.2.mono fun i hi => List.mem_append_left _ hi⟩
  · exact ⟨hp.2.2.pending, hp.2.2.answers⟩
  · exact fun fault e => (Except.error.inj e).symm

/-- The answer is kept before the server is told that all is well. -/
theorem owes_keep (hlife : c.lifecycle = .uninitialized) (value : Json) :
    Owes (onceAsked c line (steady_called "initialize" c.connection.nextId (steady_same c)
        (steady_same c) (.ok value)))
      ((Routine.change (Client.setCapabilities value)).bind fun _ =>
        Client.andThen (Client.notify "initialized" (some (.obj []))) fun _ =>
          (Routine.change Client.markInitialized).bind fun _ =>
            .done (.ok () : Except ClientError Unit))
      fun result => onceAsked c line (steady_greeted c result) := by
  have hset : Owes (onceAsked c line (steady_called "initialize" c.connection.nextId
        (steady_same c) (steady_same c) (.ok value)))
      (.change (Client.setCapabilities value)) fun _ => onceAsked c line (steady_told c value) :=
    owes_change fun w _ hp => ⟨⟨rfl, rfl, rfl, rfl⟩, Nat.le_refl _, hp.1,
      ⟨⟨hp.2.1.1.1, rfl⟩, hp.2.1.2⟩, hp.2.2⟩
  refine hset.bind fun _ => ?_
  refine owes_andThen (owes_confirm value) (fun _ => ?_) fun fault w hp =>
    ⟨hp.1, fun e he => ?_, hp.2.2⟩
  · have hmark : Owes (onceAsked c line (steady_confirmed c value (.ok ())))
        (.change Client.markInitialized) fun _ => onceAsked c line (steady_greeted c (.ok ())) := by
      refine owes_change fun w _ hp => ⟨⟨rfl, rfl, rfl, rfl⟩, ?_, hp.1, nofun, hp.2.2⟩
      rw [show w.1.lifecycle = .uninitialized from hp.2.1.2.1.1.1.trans hlife]
      exact Nat.zero_le 1
    exact hmark.bind fun _ => owes_done fun _ _ hp => hp
  · obtain rfl := Except.error.inj he
    obtain ⟨⟨hsame, hcap⟩, hgot⟩ := hp.2.1.2
    exact ⟨hsame.1, hsame.2, .inr ⟨hp.2.1.1 _ rfl, value, hgot, hcap⟩⟩

theorem owes_greet_rebuffed (hlife : c.lifecycle = .uninitialized) :
    Owes (unasked c line) (Client.greet uri) fun result =>
      onceAsked c line (steady_greeted c result) := by
  have hlook : Owes (unasked c line) (.read fun c => c) fun d =>
      (Assertion.fact (d.lifecycle = .uninitialized)).and (unasked c line) :=
    owes_look fun w _ hp => ⟨hp.2.1.1.1.trans hlife, hp⟩
  refine hlook.bind fun d => owes_fact fun hl => ?_
  rw [hl]
  have hcall : Owes (unasked c line)
      (Client.call "initialize" (some (Params.handshake d.processId uri))) fun result =>
        onceAsked c line (steady_called "initialize" c.connection.nextId (steady_same c)
          (steady_same c) result) :=
    owes_call (steady_same c) (steady_same c) (steady_same c) (fun h => h rfl) (fun _ hw _ => hw)
      (fun _ hw => hw) fun w hlaw hw _ => ⟨unended_told hlaw _, hw⟩
  exact owes_andThen hcall (owes_keep hlife) fun fault w hp =>
    ⟨hp.1, fun e he => (Except.error.inj he) ▸ (Called.same hp.2.1).rebuffed, hp.2.2⟩

/-! ## along its course -/

def greetings (c : Client) (report : Report) : Assertion (pact unended) :=
  .any fun result => (Assertion.fact (report = .nothing result)).and
    (onceAsked c [] (steady_greeted c result))

theorem along_handshake (hc : Unmet c) (uri : String) {events : List Event}
    (he : ∀ e ∈ events, e.isBegin = false) :
    Along unended (greetings c) [] (.handshake uri)
      ((start c).run (.begin (.handshake uri) :: events)) := by
  have howes : Owes (unasked c []) (ClientStep.handshake uri).routine (greetings c) := by
    have hlocked : Owes (unasked c []) (Client.handshake uri) fun result =>
        onceAsked c [] (steady_greeted c result) :=
      owes_locked fun _ => owes_greet_rebuffed hc.lifecycle
    exact hlocked.bind fun result => owes_done fun _ _ hp => ⟨result, rfl, hp⟩
  have hbegin := (along_begin (w := start c) rfl howes (fun _ _ => List.not_mem_nil)
    ⟨hc.line, ⟨⟨rfl, rfl⟩, rfl⟩, rfl, hc.number⟩).1
  show Along unended (greetings c) [] (.handshake uri) (((start c).apply _).run events)
  generalize (start c).apply (.begin (.handshake uri)) = w at hbegin
  induction events generalizing w with
  | nil => exact hbegin
  | cons e events ih =>
    exact ih (fun e hm => he e (List.mem_cons_of_mem _ hm)) _
      (along_apply hbegin (he e List.mem_cons_self)).1

/-- Whatever the server does: when a handshake fails, the lifecycle and the open documents are as
they were before it, and so is what is known of the server, unless the request was answered with
success and the connection went down before the server could be told. -/
theorem handshake_rebuffed (hc : Unmet c) {uri : String} {events : List Event}
    (he : ∀ e ∈ events, e.isBegin = false) {fault : ClientError}
    (hf : .ended (.handshake uri) (.fault fault) ∈
      ((start c).run (.begin (.handshake uri) :: events)).items) :
    Rebuffed c fault (((start c).run (.begin (.handshake uri) :: events)).client,
      ((start c).run (.begin (.handshake uri) :: events)).items) := by
  have halong := along_handshake hc uri he
  generalize (start c).run (.begin (.handshake uri) :: events) = w at hf halong
  cases halong with
  | going r recent current items allows keeps =>
    rw [items] at hf
    rcases List.mem_cons.mp hf with h | h
    · cases h
    · exact absurd h (allows _ _)
  | ended report recent more current items others allows holds =>
    have hreport : report = .fault fault := by
      rw [items, List.nil_append] at hf
      rcases List.mem_append.mp hf with h | h
      · rcases List.mem_cons.mp h with h | h
        · cases h
        · exact absurd (List.mem_append_left more h) (allows _ _)
      · rcases List.mem_cons.mp h with h | h
        · exact (Item.ended.inj h).2.symm
        · exact absurd (List.mem_append_right recent h) (allows _ _)
    obtain ⟨result, hresult, -, hgreeted, -⟩ := holds
    cases result with
    | ok u => cases hresult.symm.trans hreport
    | error fault' =>
      obtain rfl := Report.fault.inj (hresult.symm.trans hreport)
      obtain ⟨hlife, hdocs, hcap⟩ := hgreeted fault' rfl
      refine ⟨hlife, hdocs, hcap.imp_right (And.imp_right ?_)⟩
      rintro ⟨value, hgot, hcap⟩
      refine ⟨value, hgot.mono fun i hi => ?_, hcap⟩
      rw [items]
      rcases List.mem_append.mp hi with hi | hi
      · exact List.mem_append_left _ (List.mem_cons_of_mem _ hi)
      · exact List.mem_append_right _ (List.mem_cons_of_mem _ hi)

end

/-- The server answers the handshake and hangs up at once. -/
def cutShort : List Event :=
  [List.replicate 12 (.go 0),
    [.deliver (Frame.write (.obj [("id", .ofUInt32 1),
      ("result", .obj [("capabilities", .obj [("x", .ofUInt32 1)])])])), .hangUp, .read, .read],
    List.replicate 16 (.go 0)].flatten

def failsWith (uri : String) (fault : ClientError) (items : List Item) : Bool :=
  items.any fun
    | .ended (.handshake uri') (.fault fault') => uri' = uri ∧ fault' = fault
    | _ => false

theorem mem_of_failsWith {uri : String} {fault : ClientError} {items : List Item}
    (h : failsWith uri fault items = true) : .ended (.handshake uri) (.fault fault) ∈ items := by
  obtain ⟨i, hi, h⟩ := List.any_eq_true.mp h
  split at h
  · obtain ⟨rfl, rfl⟩ := of_decide_eq_true h
    exact hi
  · exact absurd h Bool.false_ne_true

theorem unmet_new (settings : ServerSettings) (processId : UInt32) :
    Unmet (Client.new settings processId) :=
  ⟨rfl, rfl, nofun, nofun⟩

theorem handshake_rebuffed_cutShort :
    let w := (start (Client.new {} 1)).run (.begin (.handshake "file:///w") :: cutShort)
    Unmet (Client.new {} 1) ∧ (∀ e ∈ cutShort, e.isBegin = false) ∧
      .ended (.handshake "file:///w") (.fault .connectionClosed) ∈ w.items ∧
        Rebuffed (Client.new {} 1) .connectionClosed (w.client, w.items) := by
  have hothers : ∀ e ∈ cutShort, e.isBegin = false := by decide
  have hfails : .ended (.handshake "file:///w") (.fault .connectionClosed) ∈
      ((start (Client.new {} 1)).run (.begin (.handshake "file:///w") :: cutShort)).items :=
    mem_of_failsWith (by decide +kernel)
  exact ⟨unmet_new {} 1, hothers, hfails, handshake_rebuffed (unmet_new {} 1) hothers hfails⟩

/-- What is known of the server is kept although the handshake has failed. -/
theorem handshake_keeps_answer :
    ¬ ∀ (c : Client) (uri : String) (events : List Event) (fault : ClientError), Unmet c →
      (∀ e ∈ events, e.isBegin = false) →
        let w := (start c).run (.begin (.handshake uri) :: events)
        .ended (.handshake uri) (.fault fault) ∈ w.items →
          w.client.lifecycle = c.lifecycle ∧ w.client.openDocs = c.openDocs ∧
            w.client.capabilities = c.capabilities := by
  intro h
  have hkept := (h (Client.new {} 1) "file:///w" cutShort .connectionClosed (unmet_new {} 1)
    (by decide) (mem_of_failsWith (by decide +kernel))).2.2
  exact absurd hkept (by decide +kernel)

end Course

end CodeBridge
