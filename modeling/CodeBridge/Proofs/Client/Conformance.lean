import CodeBridge.Proofs.Client.Operations

/-!
# A client keeps to the protocol

Operations are run one after another, each of them any, and the server does what it likes.  What
they queue keeps to the order of the protocol and is written in that order, the lifecycle never goes
back, and an operation out of its time comes to nothing.

* `Unused`     a client as it is made;
* `Orderly`    what is to be shown of a course: `run_orderly`;
* `Apace`      what is so between the events of a course: `apace_apply` is one event;
* `begins_of_idle`   how the client is found between operations.
-/

namespace CodeBridge

namespace Course

open Pact

/-- A client that has done nothing yet. -/
structure Unused (c : Client) : Prop where
  lifecycle : c.lifecycle = .uninitialized
  docs : c.openDocs = []
  line : c.lock.line = []
  pending : c.connection.pending = []
  answers : c.connection.answers = []
  outbox : c.connection.outbox = []
  outbound : c.connection.outbound = []
  withheld : c.connection.withheld = none

theorem unused_new (settings : ServerSettings) (processId : UInt32) :
    Unused (Client.new settings processId) := ⟨rfl, rfl, rfl, rfl, rfl, rfl, rfl, rfl⟩

structure Orderly (w : Course) : Prop where
  /-- whatever is queued may follow what was noted before -/
  conforms : Conforms w.items
  /-- what is written, replies to the server aside, is a beginning of what is queued -/
  wired : asked w.written <+: tolds w.items
  bytes : w.client.connection.outbound = w.written.flatMap Frame.write
  onward : ∀ more, w.client.lifecycle.rank ≤ (w.run more).client.lifecycle.rank
  refuses : w.idle = true → ∀ step fault, step.refusal? w.client.lifecycle = some fault →
    Refuses w step fault

/-! ## events -/

section
variable (past earlier : List Item)

/-- No operation is under way, and any may begin; of what was noted earlier the order of messages is
to take account only as `past` says. -/
structure Free (w : Course) : Prop where
  current : w.current = none
  notes : ∃ items, w.items = earlier ++ items ∧ Conforms (past ++ items) ∧
    Begins (past ++ items) w.client

/-- An operation may begin, or one is under way that keeps to the protocol. -/
inductive Apace (w : Course) : Prop where
  | free (h : Free past earlier w)
  | busy (items : List Item) (step : ClientStep) (r : Routine Client Report)
      (current : w.current = some (step, r))
      (along : Along (protocol (past ++ items) step) (fun _ => settles (past ++ items) step [])
        (earlier ++ items) step w)

end

section
variable {past earlier : List Item} {w : Course} {e : Event}

theorem Free.around (h : Free past earlier w) (hb : e.isBegin = false) (hg : e.isGo = false) :
    Free past earlier (w.apply e) := by
  obtain ⟨hcurrent, items, hitems, hconforms, hbegins⟩ := h
  rw [apply_around hb hg]
  have hkept := kept_happen w.client [] e
  have hothers : ∀ i ∈ e.notes w.client, i.isOwn = false := fun _ => isOwn_notes
  have hlife : (e.happen w.client).lifecycle = w.client.lifecycle := hkept.lifecycle
  have hnext : Begins (past ++ items ++ e.notes w.client) (e.happen w.client) := by
    refine ⟨(congrArg Lock.line hkept.lock).trans hbegins.line, ?_, ?_, ?_⟩
    · rw [hlife]
      exact hbegins.tidy.calm hkept.toCalm
    · rw [hlife]
      exact hbegins.phase.append (tolds_notes w.client e) (not_begun_of_others hothers)
    · rw [hlife]
      exact fun hl => hkept.table.only (hbegins.clean hl)
  refine ⟨hcurrent, items ++ e.notes w.client, ?_, ?_, ?_⟩
  · show w.items ++ _ = _
    rw [hitems, List.append_assoc]
  · rw [← List.append_assoc]
    exact conforms_append hconforms (ne_told_of_others hothers)
  · rw [← List.append_assoc]
    exact hnext

/-- What an operation leaves at its end lets the next one begin. -/
theorem free_of_ended {items : List Item} {step : ClientStep} {report : Report}
    {recent more : List Item} (current : w.current = none)
    (hitems : w.items = earlier ++ items ++ .begun step :: recent ++ .ended step report :: more)
    (others : ∀ i ∈ more, i.isOwn = false)
    (allows : (protocol (past ++ items) step).Allows (recent ++ more))
    (holds : (settles (past ++ items) step []).Holds (w.client, recent ++ more)) :
    Free past earlier w := by
  obtain ⟨life, hline, ⟨hlife, htidy, hphase⟩, hclean⟩ := holds
  subst hlife
  have hconforms := allows.2
  rw [← List.cons_append, ← List.append_assoc] at hconforms hphase
  have hnotes : past ++ (items ++ .begun step :: recent ++ .ended step report :: more) =
      past ++ items ++ .begun step :: recent ++ .ended step report :: more := by
    simp only [List.append_assoc]
  refine ⟨current, items ++ .begun step :: recent ++ .ended step report :: more, ?_, ?_, hline,
    htidy, ?_, hclean⟩
  · rw [hitems]
    simp only [List.append_assoc]
  · rw [hnotes]
    refine conforms_append hconforms.cut fun i hi m => ?_
    rcases List.mem_cons.mp hi with rfl | hi
    · nofun
    · exact ne_told_of_others others i hi m
  · rw [hnotes]
    refine hphase.congr ?_ fun hm => ?_
    · rw [tolds_append, tolds_append _ more]
      rfl
    · refine (List.mem_append.mp hm).elim (List.mem_append_left _) fun hm => ?_
      exact (List.mem_cons.mp hm).elim nofun (List.mem_append_right _)

theorem apace_of_along {items : List Item} {step : ClientStep}
    (h : Along (protocol (past ++ items) step) (fun _ => settles (past ++ items) step [])
      (earlier ++ items) step w) : Apace past earlier w := by
  cases h with
  | going r recent current hitems allows keeps =>
    exact .busy items step r current (.going r recent current hitems allows keeps)
  | ended report recent more current hitems others allows holds =>
    exact .free (free_of_ended current hitems others allows holds)

theorem apace_apply (h : Apace past earlier w) (e : Event) :
    Apace past earlier (w.apply e) ∧ Onward w (w.apply e) := by
  cases e with
  | begin step =>
    cases h with
    | free h =>
      obtain ⟨hcurrent, items, hitems, hconforms, hbegins⟩ := h
      obtain ⟨P, hp, howes⟩ := owes_step step hbegins
      have hlaw : (protocol (past ++ items) step).Allows [] := ⟨nofun, conforms_concat hconforms nofun⟩
      have halong := along_begin hcurrent howes hlaw hp
      rw [hitems] at halong
      exact halong.imp_left apace_of_along
    | busy items step' r current along =>
      have hsame : w.apply (.begin step) = w := by
        show w.begin step = w
        unfold begin
        rw [current]
      rw [hsame]
      exact ⟨.busy items step' r current along, .refl w⟩
  | go elapsed =>
    cases h with
    | free h =>
      have hsame : w.apply (.go elapsed) = w := go_of_idle h.current elapsed
      rw [hsame]
      exact ⟨.free h, .refl w⟩
    | busy items step r current along =>
      exact (along_apply along (e := .go elapsed) rfl).imp_left apace_of_along
  | _ =>
    cases h with
    | free h => exact ⟨.free (h.around rfl rfl), onward_around rfl rfl⟩
    | busy items step r current along => exact (along_apply along rfl).imp_left apace_of_along

theorem apace_run (h : Apace past earlier w) (events : List Event) :
    Apace past earlier (w.run events) ∧ Onward w (w.run events) := by
  induction events generalizing w with
  | nil => exact ⟨h, .refl w⟩
  | cons e events ih =>
    obtain ⟨hnext, hfirst⟩ := apace_apply h e
    exact (ih hnext).imp_right hfirst.trans

theorem Apace.conforms (h : Apace past earlier w) :
    ∃ items, w.items = earlier ++ items ∧ Conforms (past ++ items) := by
  cases h with
  | free h =>
    obtain ⟨-, items, hitems, hconforms, -⟩ := h
    exact ⟨items, hitems, hconforms⟩
  | busy items step r current along =>
    cases along with
    | going r recent current hitems allows keeps =>
      refine ⟨items ++ .begun step :: recent, ?_, ?_⟩
      · rw [hitems, List.append_assoc]
      · rw [← List.append_assoc]
        exact allows.2
    | ended report recent more current' => exact nomatch current.symm.trans current'

theorem Apace.of_idle (h : Apace past earlier w) (hidle : w.idle = true) : Free past earlier w := by
  cases h with
  | free h => exact h
  | busy items step r current along =>
    unfold idle at hidle
    rw [current] at hidle
    cases hidle

theorem Apace.refuses (h : Apace past earlier w) (hidle : w.idle = true) {step : ClientStep}
    {fault : ClientError} (hrefusal : step.refusal? w.client.lifecycle = some fault) :
    Refuses w step fault := by
  obtain ⟨hcurrent, items, -, -, hbegins⟩ := h.of_idle hidle
  exact Course.refuses hcurrent hbegins.line hrefusal

end

/-! ## from the start -/

theorem conforms_nil : Conforms [] := fun before m after e => by cases before <;> cases e

theorem Unused.tidy {c : Client} (h : Unused c) : Tidy c.lifecycle c.openDocs c.connection := by
  rw [h.lifecycle, h.docs]
  refine ⟨fun _ => rfl, List.nodup_nil, fun _ => ?_⟩
  cases hw : c.connection.writing with
  | true => exact .inl fun _ => ⟨hw, by rw [h.outbox]; exact List.not_mem_nil⟩
  | false => exact .inr ⟨rfl, rfl⟩

theorem Unused.free {c : Client} (h : Unused c) : Free [] [] (start c) := by
  refine ⟨rfl, [], rfl, conforms_nil, h.line, h.tidy, ?_, fun _ => ⟨?_, ?_⟩⟩
  · show Phase c.lifecycle []
    rw [h.lifecycle]
    exact ⟨nofun, List.not_mem_nil⟩
  · show ∀ id ∈ c.connection.pending, False
    rw [h.pending]
    nofun
  · show ∀ a ∈ c.connection.answers, False
    rw [h.answers]
    nofun

theorem Unused.wired {c : Client} (h : Unused c) : Wired [] [] c.connection where
  gave := h.outbound
  replies ticket m hm := nomatch h.withheld.symm.trans hm
  up _ := by
    show asked c.connection.queued = _
    unfold Connection.queued
    rw [h.outbox]
    rfl
  down _ := List.prefix_rfl

/-- Between operations the next one may begin, and finds the client in order. -/
theorem begins_of_idle {c : Client} (hc : Unused c) {events : List Event}
    (hidle : ((start c).run events).idle = true) :
    ∃ before, Begins before ((start c).run events).client := by
  have hapace := (apace_run (.free hc.free) events).1
  obtain ⟨-, items, -, -, hbegins⟩ := hapace.of_idle hidle
  exact ⟨_, hbegins⟩

/-- Whatever operations are run one after another, and whatever the server does meanwhile, the
messages of a client keep to the protocol. -/
theorem run_orderly {c : Client} (hc : Unused c) (events : List Event) :
    Orderly ((start c).run events) := by
  obtain ⟨hapace, honward⟩ := apace_run (.free hc.free) events
  obtain ⟨items, hitems, hconforms⟩ := hapace.conforms
  have hwired : Wired _ _ _ := honward.wired hc.wired
  refine ⟨hitems ▸ hconforms, ?_, hwired.gave, fun more => (apace_run hapace more).2.rank,
    fun hidle _ _ h => hapace.refuses hidle h⟩
  cases hw : ((start c).run events).client.connection.writing with
  | false => exact hwired.down hw
  | true =>
    rw [← hwired.up hw, asked_append]
    exact List.prefix_append _ _

/-- Too early a shutdown, then the handshake, one document, and the shutdown that is never answered. -/
def visit : List Event :=
  [[.begin .shutdown], List.replicate 5 (.go 0),
    [.begin (.handshake "file:///w")], List.replicate 12 (.go 0),
    [.deliver (Frame.write (.obj [("id", .ofUInt32 1), ("result", .obj [])])), .read],
    List.replicate 16 (.go 0), [.write, .write],
    [.begin (.openDocument "file:///w/a" "x")], List.replicate 12 (.go 0), [.write],
    [.begin .shutdown], List.replicate 16 (.go 0), List.replicate 20 (.go 100000)].flatten

theorem visit_orderly :
    let w := (start (Client.new {} 1)).run visit
    Unused (Client.new {} 1) ∧ w.idle = true ∧ asked w.written <+: tolds w.items ∧
      Conforms w.items ∧ (tolds w.items).map (·.get? "method") =
        ["initialize", "initialized", "textDocument/didOpen", "textDocument/didClose", "shutdown",
          "exit"].map (some ∘ Json.str) ∧ Refuses w (.handshake "file:///w") .shutDown := by
  intro w
  have hidle : w.idle = true := by decide +kernel
  have hlife : w.client.lifecycle = .shutDown := by decide +kernel
  have htold : (tolds w.items).map (·.get? "method") =
      ["initialize", "initialized", "textDocument/didOpen", "textDocument/didClose", "shutdown",
        "exit"].map (some ∘ Json.str) := by decide +kernel
  have h : Orderly w := run_orderly (unused_new {} 1) visit
  clear_value w
  refine ⟨unused_new {} 1, hidle, h.wired, h.conforms, htold, h.refuses hidle _ _ ?_⟩
  rw [hlife]
  rfl

end Course

end CodeBridge
