import CodeBridge.Proofs.Concurrency.Ends
import CodeBridge.Proofs.Json.RoundTrip
import CodeBridge.Proofs.Service.Counter
import CodeBridge.Proofs.Service.Lines

/-!
# Every request is answered once

However the calls that answer the requests of an input overtake each other, when the service returns
its output has taken one reply for each line that is not blank.

* `Answered`       lines, the calls that the requests among them got, and the replies;
* `exists_answered`   calls that have ended, and the lines that are no requests, make up the replies;
* `At.returned`, `At.goes`   what has been when the loop returns, and why it does;
* `run_serves`     the service, from its first move to its return.
-/

namespace CodeBridge

/-- The id of a line, which a line that is not JSON or has none lacks. -/
def Service.idOf (line : List Char) : Json :=
  match Json.parse (Utf8.encode line) with
  | .ok v => (v.get? "id").getD .null
  | .error _ => .null

namespace Counter

/-! ## lines and their replies -/

/-- Every line that is not blank has its reply: the reason why it is no request, or what the
dispatch of the request has come to in the call that the line got. -/
inductive Answered : List Call → List (List Char) → List Reply → Prop where
  | nil : Answered [] [] []
  | blank {calls : List Call} {lines : List (List Char)} {replies : List Reply} {line : List Char} :
      allBlank line = true → Answered calls lines replies → Answered calls (line :: lines) replies
  | notJson {calls : List Call} {lines : List (List Char)} {replies : List Reply}
      {line : List Char} {fault : Json.SyntaxError} :
      allBlank line = false → Json.parse (Utf8.encode line) = .error fault →
      Answered calls lines replies →
      Answered calls (line :: lines) (⟨.null, .error s!"invalid JSON: {fault.message}"⟩ :: replies)
  | notRequest {calls : List Call} {lines : List (List Char)} {replies : List Reply}
      {line : List Char} {v : Json} {fault : DecodeError} :
      allBlank line = false → Json.parse (Utf8.encode line) = .ok v →
      ToolRequest.ofJson v = .error fault → Answered calls lines replies →
      Answered calls (line :: lines)
        (⟨(v.get? "id").getD .null, .error s!"invalid request: {fault.message}"⟩ :: replies)
  | request {calls : List Call} {lines : List (List Char)} {replies : List Reply}
      {line : List Char} {v : Json} {c : Call} {result : Except ToolError Json} :
      allBlank line = false → Json.parse (Utf8.encode line) = .ok v →
      ToolRequest.ofJson v = .ok c.request → c.id = (v.get? "id").getD .null →
      (Tool.dispatch c.request).along c.moments = .done result → Answered calls lines replies →
      Answered (c :: calls) (line :: lines)
        (⟨(v.get? "id").getD .null, result.mapError ToolError.message⟩ :: replies)

theorem Answered.ids {calls : List Call} {lines : List (List Char)} {replies : List Reply}
    (h : Answered calls lines replies) :
    replies.map (·.id) = (lines.filter fun line => !allBlank line).map Service.idOf := by
  induction h with
  | nil => rfl
  | blank hblank _ ih => rw [List.filter_cons, hblank]; exact ih
  | notJson hshown hparse _ ih =>
    rw [List.filter_cons, hshown]
    simp [ih, Service.idOf, hparse]
  | notRequest hshown hparse _ _ ih =>
    rw [List.filter_cons, hshown]
    simp [ih, Service.idOf, hparse]
  | request hshown hparse _ _ _ _ ih =>
    rw [List.filter_cons, hshown]
    simp [ih, Service.idOf, hparse]

/-- A call replies what its dispatch comes to. -/
theorem Call.result {c : Call} {r : Reply} (h : c.answer.along c.moments = .done r) :
    ∃ result, (Tool.dispatch c.request).along c.moments = .done result ∧
      r = ⟨c.id, result.mapError ToolError.message⟩ := by
  unfold Call.answer Service.answer at h
  rw [Routine.along_bind_done] at h
  obtain ⟨result, hresult, hr⟩ := Routine.bind_eq_done h
  exact ⟨result, hresult, (Routine.done.inj hr).symm⟩

theorem Call.In.ended_iff {c : Call} {p : Phase} (h : c.In p) : c.Ended ↔ ¬p.atWork = true := by
  cases p with
  | working =>
    refine iff_of_false (fun hended => ?_) (not_not_intro rfl)
    have hrest : (Stage.onHost (c.answer.along c.moments)).bind Stage.deliver = .done () :=
      (show c.rest = _ from h).symm.trans hended
    obtain ⟨r, -, hdeliver⟩ := Routine.bind_eq_done hrest
    cases hdeliver
  | sent r =>
    refine iff_of_false (fun hended => ?_) (not_not_intro rfl)
    have hrest : Routine.change Stage.finishRequest = .done () := h.2.1.symm.trans hended
    cases hrest
  | ended r => exact iff_of_true h.2 Bool.false_ne_true
  | dropped => exact iff_of_true h Bool.false_ne_true

theorem exists_answered (lines : List (List Char)) {calls : List Call} {phases : List Phase}
    (hcalls : (calls.map fun c => (c.id, c.request)) = requests (lines.map Service.entryOfText))
    (hprogress : List.Forall₂ Call.In calls phases) (hended : ∀ c ∈ calls, c.Ended)
    (hkept : Phase.dropped ∉ phases) : ∃ replies, Answered calls lines replies ∧
      (rejections (lines.map Service.entryOfText) ++ phases.flatMap Phase.given).Perm replies := by
  induction lines generalizing calls phases with
  | nil =>
    obtain rfl : calls = [] := List.map_eq_nil_iff.mp hcalls
    obtain rfl := List.forall₂_nil_left_iff.mp hprogress
    exact ⟨[], .nil, .nil⟩
  | cons line lines ih =>
    cases hblank : allBlank line with
    | true =>
      have hentry : Service.entryOfText line = .blank := if_pos hblank
      rw [List.map_cons, hentry] at hcalls ⊢
      obtain ⟨replies, h, hperm⟩ := ih hcalls hprogress hended hkept
      exact ⟨replies, .blank hblank h, hperm⟩
    | false =>
      have hshown : ¬allBlank line = true := by simp [hblank]
      cases hparse : Json.parse (Utf8.encode line) with
      | error fault =>
        have hentry : Service.entryOfText line =
            .rejected ⟨.null, .error s!"invalid JSON: {fault.message}"⟩ := by
          unfold Service.entryOfText
          rw [if_neg hshown, hparse]
        rw [List.map_cons, hentry] at hcalls ⊢
        obtain ⟨replies, h, hperm⟩ := ih hcalls hprogress hended hkept
        exact ⟨_, .notJson hblank hparse h, hperm.cons _⟩
      | ok v =>
        have hvalue : Service.entryOfText line = Service.entryOfJson v := by
          unfold Service.entryOfText
          rw [if_neg hshown, hparse]
        cases hrequest : ToolRequest.ofJson v with
        | error fault =>
          have hentry : Service.entryOfText line = .rejected
              ⟨(v.get? "id").getD .null, .error s!"invalid request: {fault.message}"⟩ := by
            rw [hvalue]
            unfold Service.entryOfJson
            rw [hrequest]
          rw [List.map_cons, hentry] at hcalls ⊢
          obtain ⟨replies, h, hperm⟩ := ih hcalls hprogress hended hkept
          exact ⟨_, .notRequest hblank hparse hrequest h, hperm.cons _⟩
        | ok request =>
          have hentry : Service.entryOfText line =
              .accepted ((v.get? "id").getD .null) request := by
            rw [hvalue]
            unfold Service.entryOfJson
            rw [hrequest]
          rw [List.map_cons, hentry] at hcalls ⊢
          obtain ⟨c, others, rfl, hc, hothers⟩ := List.map_eq_cons_iff.mp hcalls
          obtain ⟨hid, rfl⟩ := Prod.mk.inj hc
          obtain ⟨p, phases, hp, hphases, rfl⟩ := List.forall₂_cons_left_iff.mp hprogress
          obtain ⟨hc, hrest⟩ := List.forall_mem_cons.mp hended
          obtain ⟨hp', hphases'⟩ := not_or.mp (mt List.mem_cons.mpr hkept)
          obtain ⟨replies, h, hperm⟩ := ih hothers hphases hrest hphases'
          have hover := hp.ended_iff.mp hc
          cases p with
          | working => exact absurd rfl hover
          | sent r => exact absurd rfl hover
          | dropped => exact absurd rfl hp'
          | ended r =>
            obtain ⟨result, hresult, rfl⟩ := Call.result hp.1
            refine ⟨_, .request hblank hparse hrequest hid hresult h, ?_⟩
            rw [hid, List.flatMap_cons]
            exact List.perm_middle.trans (hperm.cons _)

/-! ## the end of a run -/

variable {fault : Option Utf8.Error} {taken left entries : List Service.Entry}
  {phases : List Phase} {w : Counter}

/-- When the loop has returned, everything has been taken up; and unless a line has ended the
service, everything is done with and written. -/
theorem At.returned (h : At fault taken left phases w) {outcome : Option Utf8.Error}
    (hdone : w.loop = .done outcome) : outcome = fault ∧ left = [] ∧ (fault = none →
      w.stage.dismissed = false ∧ w.stage.inFlight = 0 ∧ w.stage.outgoing = []) := by
  rcases h.loop with ⟨-, hl⟩ | ⟨-, -, -, -, hl⟩ | ⟨rfl, hleft, hlive, hflight, hout, hl⟩ |
    ⟨hsome, hleft, -, hl⟩
  · rw [hdone] at hl
    cases left with
    | nil => cases fault <;> cases hl
    | cons => cases hl
  · rw [hdone] at hl
    cases hl
  · rw [hdone] at hl
    exact ⟨Routine.done.inj hl, hleft, fun _ => ⟨hlive, hflight, hout⟩⟩
  · rw [hdone] at hl
    refine ⟨Routine.done.inj hl, hleft, fun hnone => ?_⟩
    rw [hnone] at hsome
    cases hsome

theorem ended_iff {calls : List Call} (h : List.Forall₂ Call.In calls phases) :
    (∀ c ∈ calls, c.Ended) ↔ phases.countP Phase.atWork = 0 := by
  rw [List.countP_eq_zero]
  induction h with
  | nil => exact iff_of_true nofun nofun
  | cons hin _ ih =>
    rw [List.forall_mem_cons, List.forall_mem_cons, hin.ended_iff, ih]

/-- The loop has returned or can go on, unless there is a reply for the output or a call at work. -/
theorem At.goes (h : At fault taken left phases w) (hout : w.stage.outgoing = [])
    (hcalls : ∀ c ∈ w.calls, c.Ended) :
    (∃ outcome, w.loop = .done outcome) ∨ w.loop.stays 0 w.stage = false := by
  rcases h.loop with ⟨hlive, hl⟩ | ⟨-, -, -, -, hl⟩ | ⟨-, -, -, -, -, hl⟩ | ⟨-, -, -, hl⟩
  · right
    rw [hl]
    cases left with
    | cons entry left => rfl
    | nil =>
      cases fault with
      | some fault => rfl
      | none =>
        have hflight : w.stage.inFlight = 0 := by
          rw [h.inFlight hlive]
          exact (ended_iff h.progress).mp hcalls
        show (!decide (w.stage.inFlight = 0) && _) = false
        rw [hflight]
        rfl
  · right
    rw [hl]
    show (!w.stage.outgoing.isEmpty && _) = false
    rw [hout]
    rfl
  · exact .inl ⟨none, hl⟩
  · exact .inl ⟨fault, hl⟩

/-! ## the whole service -/

/-- Nothing is under way on the stage that the service would have to see to. -/
structure Idle (s : Stage) : Prop where
  asked : s.asked = []
  inFlight : s.inFlight = 0
  dismissed : s.dismissed = false
  outgoing : s.outgoing = []
  replies : s.replies = []

/-- The service takes up what its lines ask for, one after the other. -/
theorem serveLines_eq {lines : List Bytes} (h : Service.planOf lines = ⟨entries, fault⟩) :
    Stage.serveLines lines = (takeUpAll entries).bind fun _ => ending fault := by
  induction lines generalizing entries with
  | nil =>
    cases h
    rfl
  | cons line lines ih =>
    unfold Stage.serveLines
    cases hread : Service.readLine line with
    | error e =>
      rw [Service.planOf, hread] at h
      cases h
      rfl
    | ok entry =>
      rw [Service.planOf_cons hread] at h
      obtain ⟨rfl, hfault⟩ := Service.Plan.mk.inj h
      dsimp only
      rw [ih (congrArg (Service.Plan.mk _) hfault)]
      rfl

theorem serve_eq {input : Bytes} (h : Service.plan input = ⟨entries, fault⟩) :
    Stage.serve input = (takeUpAll entries).bind fun _ => ending fault := serveLines_eq h

theorem sound_begin {input : Bytes} {s : Stage} (hplan : Service.plan input = ⟨entries, fault⟩)
    (h : Idle s) : Sound fault entries (start input s) := by
  refine ⟨[], _, [], rfl, ⟨.reading h.dismissed (serve_eq hplan), h.asked, rfl, .nil,
    fun _ => h.inFlight, fun _ => List.not_mem_nil, ?_⟩⟩
  show (s.replies ++ s.outgoing).Perm []
  rw [h.replies, h.outgoing]
  exact .nil

theorem sound_start (text : List Char) {s : Stage} (h : Idle s) :
    Sound none ((rows text).map Service.entryOfText) (start (Utf8.encode text) s) :=
  sound_begin (Service.plan_encode text) h

structure Served (text : List Char) (w : Counter) : Prop where
  replies : ∃ replies, Answered w.calls (rows text) replies ∧ w.stage.replies.Perm replies
  ids : (w.stage.replies.map (·.id)).Perm
    (((rows text).filter fun line => !allBlank line).map Service.idOf)
  ended : ∀ c ∈ w.calls, c.Ended
  outgoing : w.stage.outgoing = []

theorem Sound.served {text : List Char} {outcome : Option Utf8.Error}
    (h : Sound none ((rows text).map Service.entryOfText) w) (hdone : w.loop = .done outcome) :
    outcome = none ∧ Served text w := by
  obtain ⟨taken, left, phases, hentries, h⟩ := h
  obtain ⟨rfl, rfl, hwritten⟩ := h.returned hdone
  obtain ⟨hlive, hflight, hout⟩ := hwritten rfl
  obtain rfl : taken = _ := (List.append_nil taken).symm.trans hentries
  have hended : ∀ c ∈ w.calls, c.Ended :=
    (ended_iff h.progress).mpr ((h.inFlight hlive).symm.trans hflight)
  obtain ⟨replies, hanswered, hperm⟩ :=
    exists_answered (rows text) h.calls h.progress hended (h.kept hlive)
  have hreplies := h.replies
  rw [hout, List.append_nil] at hreplies
  have hall := hreplies.trans hperm
  exact ⟨rfl, ⟨replies, hanswered, hall⟩, hanswered.ids ▸ hall.map _, hended, hout⟩

/-! ## how long it goes on -/

theorem length_entries (lines : List (List Char)) :
    (rejections (lines.map Service.entryOfText)).length +
        (requests (lines.map Service.entryOfText)).length =
      (lines.filter fun line => !allBlank line).length := by
  induction lines with
  | nil => rfl
  | cons line lines ih =>
    have hblank : Service.entryOfText line = .blank ↔ allBlank line = true := by
      unfold Service.entryOfText Service.entryOfJson
      split
      next h => exact iff_of_true rfl h
      next h =>
        refine iff_of_false ?_ h
        split
        · dsimp only
          split <;> nofun
        · nofun
    rw [List.map_cons, List.filter_cons]
    cases hentry : Service.entryOfText line with
    | blank =>
      rw [hblank.mp hentry]
      exact ih
    | rejected r =>
      have hshown : allBlank line = false :=
        Bool.eq_false_iff.mpr fun h => by rw [hblank.mpr h] at hentry; cases hentry
      rw [hshown]
      exact (Nat.succ_add ..).trans (congrArg Nat.succ ih)
    | accepted id request =>
      have hshown : allBlank line = false :=
        Bool.eq_false_iff.mpr fun h => by rw [hblank.mpr h] at hentry; cases hentry
      rw [hshown]
      exact congrArg Nat.succ ih

theorem Sound.length_le (h : Sound fault entries w) :
    (w.stage.replies ++ w.stage.outgoing).length ≤
      (rejections entries).length + (requests entries).length := by
  obtain ⟨taken, left, phases, rfl, h⟩ := h
  have hgiven : (phases.flatMap Phase.given).length ≤ phases.length := by
    clear h
    induction phases with
    | nil => exact Nat.le_refl 0
    | cons p phases ih =>
      have hp : p.given.length ≤ 1 := by cases p <;> simp [Phase.given]
      rw [List.flatMap_cons, List.length_append, List.length_cons]
      omega
  have hcalls : phases.length = (requests taken).length := by
    rw [← h.progress.length_eq, ← h.calls, List.length_map]
  have hmore : (rejections (taken ++ left)).length = (rejections taken).length +
      (rejections left).length := by
    rw [rejections, List.filterMap_append, List.length_append]
    rfl
  have hmore' : (requests (taken ++ left)).length = (requests taken).length +
      (requests left).length := by
    rw [requests, List.filterMap_append, List.length_append]
    rfl
  rw [h.replies.length_eq, List.length_append]
  omega

theorem endsWithin_takeUpAll (entries : List Service.Entry) {P : Stage → Prop} :
    (takeUpAll entries).EndsWithin P entries.length := by
  induction entries with
  | nil => trivial
  | cons entry entries ih => exact ⟨Nat.succ_pos _, fun _ _ => ih⟩

/-- The loop moves once for each line, and then waits twice. -/
theorem endsWithin_serve (text : List Char) {P : Stage → Prop} :
    (Stage.serve (Utf8.encode text)).EndsWithin P ((rows text).length + 2) := by
  rw [serve_eq (Service.plan_encode text)]
  have hread := endsWithin_takeUpAll ((rows text).map Service.entryOfText) (P := P)
  rw [List.length_map] at hread
  exact hread.bind fun _ => Routine.EndsWithin.bind (m := 0)
    (Routine.endsWithin_until.bind (m := 1) fun _ => Routine.endsWithin_until) fun _ => trivial

/-- **Whatever order the calls end in, when the service returns every line that is not blank has had
one reply, its own; and it does return, once the calls have ended.** -/
theorem run_serves (text : List Char) (s : Stage) (hidle : Idle s) (events : List Event) :
    let w := (start (Utf8.encode text) s).run events
    (∀ outcome, w.loop = .done outcome → outcome = none ∧ Served text w) ∧
      ((∃ outcome, w.loop = .done outcome) ∨ w.loop.stays 0 w.stage = false ∨
        w.stage.outgoing ≠ [] ∨ ∃ c ∈ w.calls, ¬c.Ended) ∧
      (Stage.serve (Utf8.encode text)).EndsWithin (fun _ => True) ((rows text).length + 2) ∧
      (w.stage.replies ++ w.stage.outgoing).length ≤
        ((rows text).filter fun line => !allBlank line).length ∧
      ∀ r ∈ w.stage.replies, r.line = r.toJson.bytes ++ [Service.newline] ∧
        Service.newline ∉ r.toJson.bytes := by
  intro w
  have h : Sound none ((rows text).map Service.entryOfText) w :=
    sound_run (sound_start text hidle) events
  refine ⟨fun outcome hdone => h.served hdone, ?_, endsWithin_serve text,
    length_entries (rows text) ▸ h.length_le, fun r _ => r.line_eq⟩
  by_cases hout : w.stage.outgoing = []
  · by_cases hcalls : ∀ c ∈ w.calls, c.Ended
    · obtain ⟨taken, left, phases, -, hat⟩ := h
      exact (hat.goes hout hcalls).imp_right .inl
    · simp only [not_forall] at hcalls
      obtain ⟨c, hc, hwork⟩ := hcalls
      exact .inr (.inr (.inr ⟨c, hc, hwork⟩))
  · exact .inr (.inr (.inl hout))

def lookup (id : Json) (query : String) : Json :=
  .obj [("id", id), ("query", .str query), ("tool", .str "search_symbol")]

/-- A line that is no request, one that is blank, and two requests. -/
def fourLines : List Char :=
  unlines ["no".toList, [], (lookup (.ofNat 7) "Foo").render, (lookup (.str "a") "").render]

def fourEntries : List Service.Entry :=
  [.rejected ⟨.null, .error "invalid JSON: expected ident at line 1 column 2"⟩, .blank,
    .accepted (.ofNat 7) (.searchSymbol "Foo"), .accepted (.str "a") (.searchSymbol "")]

theorem entryOfText_lookup (id : Json) (query : String) (hcanonical : Json.Canonical id)
    (hwhole : Json.Whole id) (hdepth : id.depth = 0) :
    Service.entryOfText (lookup id query).render = Service.entryOfJson (lookup id query) := by
  have hshown : ¬allBlank (lookup id query).render = true := Bool.false_ne_true
  have hkeys : ["id", "query", "tool"].Pairwise (· < ·) := by decide
  have hparse : Json.parse (Utf8.encode (lookup id query).render) = .ok (lookup id query) := by
    refine Json.parse_bytes _ ?_ ?_ ?_
    · exact ⟨List.pairwise_map.mp hkeys, hcanonical, trivial, trivial, trivial⟩
    · exact ⟨hwhole, trivial, trivial, trivial⟩
    · simp [lookup, Json.depth, Json.depthMembers, Json.depthMember, hdepth, Json.maxDepth]
  unfold Service.entryOfText
  rw [if_neg hshown, hparse]

theorem entries_fourLines : (rows fourLines).map Service.entryOfText = fourEntries := by
  have hrows : rows fourLines =
      ["no".toList, [], (lookup (.ofNat 7) "Foo").render, (lookup (.str "a") "").render] := rfl
  have hno : Service.entryOfText "no".toList =
      .rejected ⟨.null, .error "invalid JSON: expected ident at line 1 column 2"⟩ := by rfl
  rw [hrows]
  simp only [List.map_cons, List.map_nil, hno]
  rw [entryOfText_lookup (.ofNat 7) "Foo" trivial trivial rfl,
    entryOfText_lookup (.str "a") "" trivial trivial rfl]
  rfl

def bareStage : Stage := { host := { disk := ⟨⟨[]⟩, some []⟩, root := ⟨Utf8.ofString "/"⟩ } }

/-- The second request is answered before the first one. -/
def overtaking : List Event :=
  List.replicate 4 (.loop 0) ++ [.write] ++ List.replicate 2 (.call 1 0) ++
    List.replicate 6 (.call 0 0) ++ List.replicate 2 .write ++ List.replicate 2 (.loop 0)

theorem fourLines_served :
    let w := (start (Utf8.encode fourLines) bareStage).run overtaking
    w.loop = .done none ∧ Served fourLines w ∧
      w.stage.replies.map (·.id) = [.null, .str "a", .ofNat 7] := by
  have hstart : start (Utf8.encode fourLines) bareStage =
      ⟨bareStage, (takeUpAll fourEntries).bind fun _ => ending none, []⟩ := by
    unfold start
    rw [serve_eq (Service.plan_encode fourLines), entries_fourLines]
  have hdone : ((start (Utf8.encode fourLines) bareStage).run overtaking).loop = .done none := by
    rw [hstart]
    rfl
  refine ⟨hdone, ?_, ?_⟩
  · exact ((run_serves fourLines bareStage ⟨rfl, rfl, rfl, rfl, rfl⟩ overtaking).1 none hdone).2
  · rw [hstart]
    rfl

end Counter

end CodeBridge
