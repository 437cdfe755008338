import CodeBridge.Proofs.Client.Conformance
import CodeBridge.Proofs.Client.Ending

/-!
# A client takes its leave

An initialized client that shuts down tries every step, whatever the server does meanwhile, and is
shut down afterwards.

* `Serving`     a client that may be shut down; one that is initialized may: `serving_of_idle`;
* `Departing`   what is to be shown of its shutdown: `shutdown_departs`;
* `Under`       what is so between the events, how many moves are left, and what comes of the end.
-/

namespace CodeBridge

namespace Course

open Connection Pact Routine

/-! ## documents in order -/

/-- A client in use, while no operation is under way. -/
structure Serving (c : Client) : Prop where
  lifecycle : c.lifecycle = .initialized
  line : c.lock.line = []
  docs : (c.openDocs.map (·.1)).Nodup
  writes : c.connection.Writes
  /-- the next number is free -/
  number : Only (· ≠ c.connection.nextId) c.connection

/-- Between operations an initialized client is in use, whatever has been done with it. -/
theorem serving_of_idle {c : Client} (hc : Unused c) {events : List Event}
    (hidle : ((start c).run events).idle = true)
    (hlife : ((start c).run events).client.lifecycle = .initialized) :
    Serving ((start c).run events).client := by
  obtain ⟨before, hbegins⟩ := begins_of_idle hc hidle
  exact ⟨hlife, hbegins.line, hbegins.tidy.keys, hbegins.writes hlife, hbegins.only hlife _⟩

def beginning (seq : List Json) : Law where
  Allows recent := tolds recent <+: seq
  outside {a b} ho h := by
    rw [tolds_append, tolds_eq_nil b ho, List.append_nil]
    exact h

section
variable (c : Client)

def parts (report : Report) : Assertion (pact (beginning (goodbye (inOrder c.openDocs) c.connection.nextId))) :=
  .any fun result => (Assertion.fact (report = .nothing result)).and
    (knows [] (steady_parted (c.connection.closed = true) (inOrder c.openDocs) c.connection.nextId
      result) lasting_empty)

end

/-! ## along its course -/

structure Under (c : Client) (w : Course) : Prop where
  along : Along (beginning (goodbye (inOrder c.openDocs) c.connection.nextId)) (parts c) []
    .shutdown w
  /-- so many moves are left -/
  bounded : ∀ step r, w.current = some (step, r) → (∀ report, r ≠ .done report) ∧
    Bounded Aside (fun c => Full c.connection) (fun _ => Holding [] c.openDocs.length) r
      (5 * c.openDocs.length + 29 - w.moves) w.client

section
variable {c : Client} {w : Course} {e : Event}

theorem Under.told (h : Under c w) :
    tolds w.items <+: goodbye (inOrder c.openDocs) c.connection.nextId := by
  cases h.along with
  | going r recent current items allows keeps =>
    rw [items]
    exact allows
  | ended report recent more current items others allows holds =>
    rw [items]
    have htold : tolds (.begun .shutdown :: recent ++ .ended .shutdown report :: more) =
        tolds (recent ++ more) := by
      rw [List.cons_append, tolds_append recent more]
      exact tolds_append recent (.ended .shutdown report :: more)
    show tolds (.begun .shutdown :: recent ++ .ended .shutdown report :: more) <+: _
    rw [htold]
    exact allows

theorem Under.goes (h : Under c w) : w.idle = true ∨
    (∃ elapsed, (w.go elapsed).moves = w.moves + 1) ∨ Full w.client.connection := by
  cases hcurrent : w.current with
  | none =>
    left
    unfold idle
    rw [hcurrent]
    rfl
  | some running =>
    obtain ⟨step, r⟩ := running
    refine .inr (((h.bounded step r hcurrent).2.goes aside_refl).imp_left fun ⟨elapsed, hr⟩ =>
      ⟨elapsed, ?_⟩)
    rw [go_of_current hcurrent]
    show (if r.stays elapsed w.client then _ else _) = _
    rw [hr]
    rfl

theorem Under.ends (h : Under c w) (hmoves : 5 * c.openDocs.length + 29 ≤ w.moves) :
    w.idle = true := by
  cases hcurrent : w.current with
  | none =>
    unfold idle
    rw [hcurrent]
    rfl
  | some running =>
    obtain ⟨step, r⟩ := running
    obtain ⟨hrunning, hbounded⟩ := h.bounded step r hcurrent
    rw [Nat.sub_eq_zero_of_le hmoves] at hbounded
    obtain ⟨report, hr⟩ := hbounded.eq_done
    exact absurd hr (hrunning report)

theorem Under.ended (h : Under c w) (hidle : w.idle = true) :
    w.client.lock.line = [] ∧ w.client.connection.pending = [] ∧
      ∃ result, .ended .shutdown (.nothing result) ∈ w.items ∧
        Parted (c.connection.closed = true) (inOrder c.openDocs) c.connection.nextId result
          (w.client, w.items) := by
  cases h.along with
  | going r recent current items allows keeps =>
    unfold idle at hidle
    rw [current] at hidle
    cases hidle
  | ended report recent more current items others allows holds =>
    obtain ⟨result, rfl, hline, hparted, hpending⟩ := holds
    refine ⟨hline, hpending, result, ?_, hparted.notes ?_ fun i hi => ?_⟩
    · rw [items]
      exact List.mem_append_right _ List.mem_cons_self
    · rw [items, List.nil_append, List.cons_append, tolds_append recent more]
      exact tolds_append recent (.ended .shutdown (.nothing result) :: more)
    · rw [items]
      refine (List.mem_append.mp hi).elim (fun hi => ?_) fun hi => ?_
      · exact List.mem_append_left _ (List.mem_cons_of_mem _ hi)
      · exact List.mem_append_right _ (List.mem_cons_of_mem _ hi)

theorem Under.whole (h : Under c w) (hidle : w.idle = true) (hclosed : c.connection.closed = false)
    (hlost : .lost ∉ w.items) :
    tolds w.items = goodbye (inOrder c.openDocs) c.connection.nextId := by
  obtain ⟨-, -, result, -, -, queued, -, htold, hall, -⟩ := h.ended hidle
  have hqueued : queued = (inOrder c.openDocs).length + 2 := by
    refine hall.resolve_right fun hgone => hgone.elim (fun hdown => ?_) hlost
    exact Bool.noConfusion (hclosed.symm.trans hdown)
  rw [show tolds w.items = _ from htold, hqueued]
  refine List.take_of_length_le ?_
  unfold goodbye
  simp

/-- A client that is shut down may be asked for more: as if it had been terminated. -/
theorem free_of_parted {down : Prop} {docs : List String} {id : UInt64}
    {result : Except ClientError Unit} (hidle : w.idle = true) (hline : w.client.lock.line = [])
    (h : Parted down docs id result (w.client, w.items)) :
    Free [.begun .terminate] w.items w := by
  obtain ⟨⟨⟨hlife, hdocs⟩, -⟩, -⟩ := h
  have hshut : w.client.lifecycle = .shutDown := hlife
  have hconforms : Conforms ([] ++ [.begun .terminate]) := conforms_concat conforms_nil nofun
  refine ⟨Option.isNone_iff_eq_none.mp hidle, [], (List.append_nil _).symm, hconforms, hline,
    hshut ▸ .shutDown hdocs, ?_, fun hl => absurd hshut hl⟩
  rw [hshut]
  exact True.intro

theorem tolds_of_terminated {items : List Item} (h : Conforms (.begun .terminate :: items)) :
    tolds items = [] := by
  refine List.eq_nil_iff_forall_not_mem.mpr fun m hm => ?_
  obtain ⟨i, hi, hm⟩ := List.mem_filterMap.mp hm
  obtain rfl : i = .told m := by
    cases i with
    | told m' => exact congrArg Item.told (Option.some.inj hm)
    | _ => cases hm
  obtain ⟨a, b, rfl⟩ := List.append_of_mem hi
  exact (h (.begun .terminate :: a) m b rfl).terminated List.mem_cons_self

theorem Under.later (h : Under c w) (hidle : w.idle = true) (more : List Event) :
    (w.run more).client.lifecycle = .shutDown ∧ tolds (w.run more).items = tolds w.items ∧
      ((w.run more).idle = true → Refuses (w.run more) .shutdown .shutDown) := by
  obtain ⟨hline, -, result, -, hparted⟩ := h.ended hidle
  obtain ⟨hapace, honward⟩ := apace_run (.free (free_of_parted hidle hline hparted)) more
  have hlife : (w.run more).client.lifecycle = .shutDown := by
    have hrank := honward.rank
    rw [show w.client.lifecycle = .shutDown from hparted.1.1.1] at hrank
    cases hl : (w.run more).client.lifecycle with
    | shutDown => rfl
    | _ =>
      rw [hl] at hrank
      exact absurd hrank (by decide)
  obtain ⟨items, hitems, hconforms⟩ := hapace.conforms
  refine ⟨hlife, ?_, fun hidle => hapace.refuses hidle ?_⟩
  · have hnone : tolds items = [] := tolds_of_terminated hconforms
    rw [hitems, tolds_append, hnone, List.append_nil]
  · rw [hlife]
    rfl

end

def silence : List Event := List.replicate 30 (.go 0) ++ List.replicate 14 (.go 30000)

end Course

end CodeBridge
