import CodeBridge.Proofs.Client.Wire

/-!
# An operation on its way

* `Along`     an operation has begun and keeps to its pact, or has come to its end;
* `Onward`    the lifecycle does not go back, and the wire carries what is queued;
* `along_begin`, `along_apply`   the first event and any other.
-/

namespace CodeBridge

namespace Course

open Pact

/-- The lifecycle does not go back, and what is written is what has been queued. -/
structure Onward (w w' : Course) : Prop where
  rank : w.client.lifecycle.rank ≤ w'.client.lifecycle.rank
  wired : Wired w.written w.items w.client.connection →
    Wired w'.written w'.items w'.client.connection

theorem Onward.refl (w : Course) : Onward w w := ⟨Nat.le_refl _, fun h => h⟩

theorem Onward.trans {u v w : Course} (h : Onward u v) (h' : Onward v w) : Onward u w :=
  ⟨Nat.le_trans h.rank h'.rank, fun hu => h'.wired (h.wired hu)⟩

theorem onward_around {w : Course} {e : Event} (hb : e.isBegin = false) (hg : e.isGo = false) :
    Onward w (w.apply e) := by
  rw [apply_around hb hg]
  refine ⟨?_, fun h => wired_happen h e⟩
  have hlife : (e.happen w.client).lifecycle = w.client.lifecycle :=
    (kept_happen w.client [] e).lifecycle
  show w.client.lifecycle.rank ≤ (e.happen w.client).lifecycle.rank
  rw [hlife]

/-- An operation has begun with these notes before it; what comes of it is promised by `Q`. -/
inductive Along (law : Law) (Q : Report → Assertion (pact law)) (before : List Item)
    (step : ClientStep) (w : Course) : Prop where
  | going (r : Routine Client Report) (recent : List Item) (current : w.current = some (step, r))
      (items : w.items = before ++ .begun step :: recent) (allows : law.Allows recent)
      (keeps : r.Keeps (pact law).terms Routine.dropAny
        (fun a u => (pact law).Fine u ∧ (Q a).Holds u) (w.client, recent))
  | ended (report : Report) (recent more : List Item) (current : w.current = none)
      (items : w.items = before ++ .begun step :: recent ++ .ended step report :: more)
      (others : ∀ i ∈ more, i.isOwn = false) (allows : law.Allows (recent ++ more))
      (holds : (Q report).Holds (w.client, recent ++ more))

section
variable {law : Law} {Q : Report → Assertion (pact law)} {before : List Item} {step : ClientStep}
  {w : Course}

theorem begin_of_idle (h : w.current = none) : w.apply (.begin step) =
    { w with items := w.items ++ [.begun step], current := some (step, step.routine), moves := 0 } := by
  show w.begin step = _
  unfold begin
  rw [h]

theorem along_begin (h : w.current = none) {P : Assertion (pact law)}
    (howes : Owes P step.routine Q) (hlaw : law.Allows []) (hp : P.Holds (w.client, [])) :
    Along law Q w.items step (w.apply (.begin step)) ∧ Onward w (w.apply (.begin step)) := by
  rw [begin_of_idle h]
  refine ⟨.going step.routine [] rfl rfl hlaw (howes.keeps _ hlaw hp), Nat.le_refl _, ?_⟩
  exact fun hw => hw.note rfl

theorem keeps_poll {r : Routine Client Report} {c : Client} {recent : List Item}
    (hlaw : law.Allows recent)
    (h : r.Keeps (pact law).terms Routine.dropAny
      (fun a u => (pact law).Fine u ∧ (Q a).Holds u) (c, recent)) (elapsed : Nat) :
    ∃ g, law.Allows g ∧ Move (c, recent) ((r.poll elapsed c).1, g) ∧
      (r.poll elapsed c).2.Keeps (pact law).terms Routine.dropAny
        (fun a u => (pact law).Fine u ∧ (Q a).Holds u) ((r.poll elapsed c).1, g) := by
  have hstay : Move (c, recent) (c, recent) :=
    Unsaid.move ⟨rfl, rfl, rfl, rfl⟩ (Nat.le_refl _) recent
  cases he : r.expired elapsed c with
  | true =>
    obtain ⟨hc, hk⟩ := h.expired elapsed he rfl
    rw [hc]
    exact ⟨recent, hlaw, hstay, hk⟩
  | false =>
    obtain ⟨g, hmove, hk⟩ := h.poll elapsed he
    refine ⟨g, ?_, ?_, hk⟩
    · exact hmove.elim (fun e => e.2 ▸ hlaw) fun hm => (hm hlaw).1
    · rcases hmove with ⟨hc, rfl⟩ | hm
      · rw [hc]
        exact hstay
      · exact (hm hlaw).2

theorem go_of_current {r : Routine Client Report} (h : w.current = some (step, r)) (elapsed : Nat) :
    w.go elapsed = { w with
      client := (r.poll elapsed w.client).1
      items := w.items ++ (added w.client (r.poll elapsed w.client).1).map .told ++
        (outcome step (r.poll elapsed w.client).2).2
      current := (outcome step (r.poll elapsed w.client).2).1
      moves := if r.stays elapsed w.client then w.moves else w.moves + 1 } := by
  unfold go
  rw [h]

theorem outcome_of_ne_done {r : Routine Client Report} (h : ∀ report, r ≠ .done report) :
    outcome step r = (some (step, r), []) := by
  cases r with
  | done report => exact absurd rfl (h report)
  | _ => rfl

theorem go_of_idle (h : w.current = none) (elapsed : Nat) : w.go elapsed = w := by
  unfold go
  rw [h]

theorem along_go {r : Routine Client Report} {recent : List Item}
    (hcur : w.current = some (step, r)) (hitems : w.items = before ++ .begun step :: recent)
    (hlaw : law.Allows recent)
    (h : r.Keeps (pact law).terms Routine.dropAny
      (fun a u => (pact law).Fine u ∧ (Q a).Holds u) (w.client, recent)) (elapsed : Nat) :
    Along law Q before step (w.go elapsed) ∧ Onward w (w.go elapsed) := by
  obtain ⟨g, hg, hmove, hk⟩ := keeps_poll hlaw h elapsed
  have hnotes : w.items ++ (added w.client (r.poll elapsed w.client).1).map .told =
      before ++ .begun step :: g := by
    rw [hitems, List.append_assoc, List.cons_append]
    exact congrArg (before ++ .begun step :: ·) hmove.items.symm
  have hwired (hw : Wired w.written w.items w.client.connection) :=
    hw.move hmove
  rw [go_of_current hcur]
  cases hr : (r.poll elapsed w.client).2 with
  | done report =>
    rw [hr] at hk
    obtain ⟨-, hq⟩ := hk _ ((pact law).terms.refl _)
    refine ⟨.ended report g [] rfl ?_ nofun ?_ ?_, hmove.rank, fun hw => ?_⟩
    · show w.items ++ _ ++ [Item.ended step report] = _
      rw [hnotes]
    · rwa [List.append_nil]
    · show (Q report).Holds ((r.poll elapsed w.client).1, g ++ [])
      rw [List.append_nil]
      exact hq
    · exact (hwired hw).note rfl
  | _ =>
    rw [hr] at hk
    refine ⟨.going _ g rfl ?_ hg hk, hmove.rank, fun hw => (hwired hw).note rfl⟩
    show w.items ++ _ ++ [] = _
    rw [hnotes, List.append_nil]

theorem along_apply (h : Along law Q before step w) {e : Event} (hb : e.isBegin = false) :
    Along law Q before step (w.apply e) ∧ Onward w (w.apply e) := by
  cases hg : e.isGo with
  | true =>
    cases e with
    | go elapsed =>
      cases h with
      | going r recent current items allows keeps => exact along_go current items allows keeps elapsed
      | ended report recent more current items others allows holds =>
        show Along law Q before step (w.go elapsed) ∧ Onward w (w.go elapsed)
        rw [go_of_idle current]
        exact ⟨.ended report recent more current items others allows holds, .refl w⟩
    | _ => cases hg
  | false =>
    refine ⟨?_, onward_around hb hg⟩
    rw [apply_around hb hg]
    have hothers : ∀ i ∈ e.notes w.client, i.isOwn = false := fun _ => isOwn_notes
    cases h with
    | going r recent current items allows keeps =>
      refine .going r (recent ++ e.notes w.client) current ?_ (law.outside hothers allows) ?_
      · show w.items ++ _ = _
        rw [items, List.append_assoc, List.cons_append]
      · exact keeps.rely fun hfine => ⟨law.outside hothers hfine, kept_happen w.client recent e⟩
    | ended report recent more current items others allows holds =>
      have hallows : law.Allows (recent ++ (more ++ e.notes w.client)) := by
        rw [← List.append_assoc]
        exact law.outside hothers allows
      refine .ended report recent (more ++ e.notes w.client) current ?_ ?_ hallows ?_
      · show w.items ++ _ = _
        rw [items, List.append_assoc, List.cons_append]
      · exact fun i hi => (List.mem_append.mp hi).elim (others i) (hothers i)
      · have hkept := kept_happen w.client (recent ++ more) e
        rw [List.append_assoc] at hkept
        exact (Q report).stable hallows hkept holds

end

end Course

end CodeBridge
