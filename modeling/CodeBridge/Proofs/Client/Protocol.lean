import CodeBridge.Proofs.Client.Talk

/-!
# The order of messages

What the protocol asks of the messages of a client, by what was noted before each of them.

* `Accepted`   the handshake under way has asked to initialize, and the server has agreed;
* `Allowed`    a message may follow what is noted;
* `Conforms`   so may every message that is noted;
* `Phase`      what is so of the messages at each lifecycle: `Phase.opens`, `Phase.told` are what may
               follow.
-/

namespace CodeBridge

namespace Course

open Pact

def Names (m : Json) (method : String) : Prop := m.get? "method" = some (.str method)

instance (m : Json) (method : String) : Decidable (Names m method) :=
  inferInstanceAs (Decidable (m.get? "method" = some (.str method)))

theorem names_request {id : UInt64} {method other : String} {params : Option Json} :
    Names (Message.request id method params) other ↔ method = other :=
  ⟨fun h => Json.str.inj (Option.some.inj h), fun h => h ▸ rfl⟩

theorem names_notification {method other : String} {params : Option Json} :
    Names (Message.notification method params) other ↔ method = other :=
  ⟨fun h => Json.str.inj (Option.some.inj h), fun h => h ▸ rfl⟩

def Initialize (m : Json) : Prop := ∃ id params, m = Message.request id "initialize" params

/-- Nothing but messages of one operation, and what came around it. -/
def Within (recent : List Item) : Prop := ∀ i ∈ recent, i.isOwn = true → ∃ m, i = .told m

/-- A handshake is under way that has said one thing, which is the request to initialize, and it has
been answered with success. -/
def Accepted (items : List Item) : Prop :=
  ∃ before uri recent id params value, items = before ++ .begun (.handshake uri) :: recent ∧
    Within recent ∧ tolds recent = [Message.request id "initialize" params] ∧
      Got id (.result value) recent

structure Allowed (before : List Item) (m : Json) : Prop where
  opening : (∀ m' ∈ tolds before, ¬ Names m' "initialized") → ¬ Names m "initialized" → Initialize m
  once : Names m "initialized" →
    (∀ m' ∈ tolds before, ¬ Names m' "initialized") ∧ Accepted before
  parting : (∃ m' ∈ tolds before, Names m' "shutdown") → Names m "exit"
  ending : ∀ m' ∈ tolds before, ¬ Names m' "exit"
  terminated : .begun .terminate ∉ before

def Conforms (items : List Item) : Prop :=
  ∀ before m after, items = before ++ .told m :: after → Allowed before m

section
variable {items more : List Item}

theorem Conforms.cut (h : Conforms (items ++ more)) : Conforms items := fun before m after e =>
  h before m (after ++ more) (by rw [e, List.append_assoc, List.cons_append])

theorem conforms_concat (h : Conforms items) {i : Item} (hi : ∀ m, i = .told m → Allowed items m) :
    Conforms (items ++ [i]) := by
  intro before m after e
  rcases List.eq_nil_or_concat after with rfl | ⟨rest, last, rfl⟩
  · obtain ⟨rfl, hlast⟩ := List.append_inj' e rfl
    exact hi m (List.cons.inj hlast).1
  · have e' : items ++ [i] = (before ++ .told m :: rest) ++ [last] := by
      rw [e, List.concat_eq_append, List.append_assoc, List.cons_append]
    exact h before m rest (List.append_inj' e' rfl).1

theorem conforms_append (h : Conforms items) (hmore : ∀ i ∈ more, ∀ m, i ≠ .told m) :
    Conforms (items ++ more) := by
  induction more generalizing items with
  | nil => exact (List.append_nil items).symm ▸ h
  | cons i more ih =>
    have hi : Conforms (items ++ [i]) :=
      conforms_concat h fun m e => absurd e (hmore i List.mem_cons_self m)
    have hrest := ih hi fun j hj => hmore j (List.mem_cons_of_mem _ hj)
    rwa [List.append_assoc] at hrest

theorem ne_told_of_others (ho : ∀ i ∈ more, i.isOwn = false) : ∀ i ∈ more, ∀ m, i ≠ .told m := by
  rintro i hi m rfl
  exact nomatch ho _ hi

end

/-! ## by lifecycle -/

def Phase : Lifecycle → List Item → Prop
  | .uninitialized, items => (∀ m ∈ tolds items, Initialize m) ∧ .begun .terminate ∉ items
  | .initialized, items =>
    (∃ m ∈ tolds items, Names m "initialized") ∧
      (∀ m ∈ tolds items, ¬ Names m "shutdown" ∧ ¬ Names m "exit") ∧ .begun .terminate ∉ items
  | .shutDown, _ => True

section
variable {items more : List Item} {m : Json}

theorem Phase.congr {life : Lifecycle} {items' : List Item} (h : Phase life items)
    (ht : tolds items' = tolds items)
    (hb : .begun .terminate ∈ items' → .begun .terminate ∈ items) : Phase life items' := by
  cases life with
  | uninitialized => exact ⟨ht ▸ h.1, fun hm => h.2 (hb hm)⟩
  | initialized => exact ⟨ht ▸ h.1, ht ▸ h.2.1, fun hm => h.2.2 (hb hm)⟩
  | shutDown => trivial

theorem Phase.append {life : Lifecycle} (h : Phase life items) (ht : tolds more = [])
    (hb : .begun .terminate ∉ more) : Phase life (items ++ more) :=
  h.congr (by rw [tolds_append, ht, List.append_nil]) fun hm =>
    (List.mem_append.mp hm).resolve_right hb

theorem not_begun_of_others (ho : ∀ i ∈ more, i.isOwn = false) : .begun .terminate ∉ more :=
  fun hm => nomatch ho _ hm

theorem not_begun_told {step : ClientStep} (h : .begun step ∉ items) :
    .begun step ∉ items ++ [.told m] :=
  fun hm => (List.mem_append.mp hm).elim h fun hm => nomatch List.mem_singleton.mp hm

theorem Initialize.names {method : String} (h : Initialize m) (hm : Names m method) :
    method = "initialize" := by
  obtain ⟨id, params, rfl⟩ := h
  exact (names_request.mp hm).symm

theorem Phase.opens (h : Phase .uninitialized items) (hm : Initialize m) :
    Allowed items m ∧ Phase .uninitialized (items ++ [.told m]) := by
  refine ⟨⟨fun _ _ => hm, fun hn => absurd (hm.names hn) (by decide), fun ⟨m', hm', hn⟩ => ?_,
    fun m' hm' hn => ?_, h.2⟩, fun m' hm' => ?_, not_begun_told h.2⟩
  · exact absurd ((h.1 m' hm').names hn) (by decide)
  · exact absurd ((h.1 m' hm').names hn) (by decide)
  · rw [tolds_concat] at hm'
    exact (List.mem_append.mp hm').elim (h.1 m') fun hm' => List.mem_singleton.mp hm' ▸ hm

/-- When the server has agreed it is told so. -/
theorem Phase.agrees (h : Phase .uninitialized items) (ha : Accepted items) (params : Option Json) :
    Allowed items (Message.notification "initialized" params) ∧
      Phase .initialized (items ++ [.told (Message.notification "initialized" params)]) := by
  have hself : Names (Message.notification "initialized" params) "initialized" := rfl
  refine ⟨⟨fun _ hn => absurd hself hn, fun _ => ⟨fun m' hm' hn => ?_, ha⟩, fun ⟨m', hm', hn⟩ => ?_,
    fun m' hm' hn => ?_, h.2⟩, ?_, fun m' hm' => ?_, not_begun_told h.2⟩
  · exact absurd ((h.1 m' hm').names hn) (by decide)
  · exact absurd ((h.1 m' hm').names hn) (by decide)
  · exact absurd ((h.1 m' hm').names hn) (by decide)
  · rw [tolds_concat]
    exact ⟨_, List.mem_append_right _ List.mem_cons_self, hself⟩
  · rw [tolds_concat] at hm'
    rcases List.mem_append.mp hm' with hm' | hm'
    · exact ⟨fun hn => absurd ((h.1 m' hm').names hn) (by decide),
        fun hn => absurd ((h.1 m' hm').names hn) (by decide)⟩
    · rw [List.mem_singleton.mp hm']
      exact ⟨fun hn => absurd (names_notification.mp hn) (by decide),
        fun hn => absurd (names_notification.mp hn) (by decide)⟩

/-- A server that is initialized may be told all but that it is initialized. -/
theorem Phase.allows (h : Phase .initialized items) (hm : ¬ Names m "initialized") :
    Allowed items m := by
  obtain ⟨⟨m₀, hm₀, hn₀⟩, hnone, hbegun⟩ := h
  exact ⟨fun hno => absurd hn₀ (hno m₀ hm₀), fun hn => absurd hn hm,
    fun ⟨m', hm', hn⟩ => absurd hn (hnone m' hm').1, fun m' hm' => (hnone m' hm').2, hbegun⟩

/-- It goes on being initialized unless it is told to shut down or to exit. -/
theorem Phase.told (h : Phase .initialized items) (hs : ¬ Names m "shutdown")
    (he : ¬ Names m "exit") : Phase .initialized (items ++ [.told m]) := by
  obtain ⟨⟨m₀, hm₀, hn₀⟩, hnone, hbegun⟩ := h
  refine ⟨⟨m₀, ?_, hn₀⟩, fun m' hm' => ?_, not_begun_told hbegun⟩
  · rw [tolds_concat]
    exact List.mem_append_left _ hm₀
  · rw [tolds_concat] at hm'
    refine (List.mem_append.mp hm').elim (hnone m') fun hm' => ?_
    rw [List.mem_singleton.mp hm']
    exact ⟨hs, he⟩

end

/-! ## the law of an operation -/

/-- An operation begun after these notes says what it may. -/
def protocol (before : List Item) (step : ClientStep) : Law where
  Allows recent := Within recent ∧ Conforms (before ++ .begun step :: recent)
  outside {a b} ho h := by
    refine ⟨fun i hi hown => ?_, ?_⟩
    · exact (List.mem_append.mp hi).elim (fun hi => h.1 i hi hown) fun hi =>
        absurd ((ho i hi).symm.trans hown) nofun
    · have hconforms := conforms_append h.2 (ne_told_of_others ho)
      rwa [List.append_assoc, List.cons_append] at hconforms

theorem protocol_told {before : List Item} {step : ClientStep} {recent : List Item} {m : Json}
    (h : (protocol before step).Allows recent)
    (ha : Allowed (before ++ .begun step :: recent) m) :
    (protocol before step).Allows (recent ++ [.told m]) := by
  refine ⟨fun i hi hown => ?_, ?_⟩
  · exact (List.mem_append.mp hi).elim (fun hi => h.1 i hi hown) fun hi =>
      ⟨m, List.mem_singleton.mp hi⟩
  · have hconforms := conforms_concat h.2 (i := .told m) fun m' e => Item.told.inj e ▸ ha
    rwa [List.append_assoc, List.cons_append] at hconforms

end Course

end CodeBridge
