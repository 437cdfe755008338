import Mathlib.Data.List.Forall2
import CodeBridge.Proofs.Concurrency.Kinds
import CodeBridge.Proofs.Concurrency.Moments
import CodeBridge.Stage.Play

/-!
# Requests being answered

Everything that can happen while the service works through its input: the loop over the lines makes
a move, a call that answers a request does, the output takes a reply, or something else happens on
the stage, in any order.

* `Stage.Doing`      something else: whatever it does, it leaves the service alone, as servers and
                     their connections do (`Stage.outside_react`, `Stage.movesBy_act`);
* `Counter.run`      what a list of events does; once the service has been ended by a line that cannot
                     be read, a call is dropped where it stays;
* `Counter.Phase`    how far a call is;
* `Counter.At`       what is so when some entries of the input have been taken up and others are left;
* `Counter.sound_run`   it is so all along a run.
-/

namespace CodeBridge

namespace Stage

/-! ## what else happens -/

/-- The requests that the stage asks to be answered. -/
def asked (s : Stage) : List (Json × ToolRequest) :=
  s.errands.filterMap fun
    | .answer id request => some (id, request)
    | _ => none

structure Outside (s s' : Stage) : Prop where
  asked : s'.asked = s.asked
  inFlight : s'.inFlight = s.inFlight
  dismissed : s'.dismissed = s.dismissed
  outgoing : s'.outgoing = s.outgoing
  replies : s'.replies = s.replies

theorem Outside.trans {s s' s'' : Stage} (h : Outside s s') (h' : Outside s' s'') :
    Outside s s'' :=
  ⟨h'.asked.trans h.asked, h'.inFlight.trans h.inFlight, h'.dismissed.trans h.dismissed,
    h'.outgoing.trans h.outgoing, h'.replies.trans h.replies⟩

theorem outside_setHost (h : Host) (s : Stage) : Outside s { s with host := h } :=
  ⟨rfl, rfl, rfl, rfl, rfl⟩

theorem outside_noErrands {s : Stage} (h : s.asked = []) : Outside s { s with errands := [] } :=
  ⟨h.symm, rfl, rfl, rfl, rfl⟩

theorem outside_startAction (k : Nat) (id : Option Json) (action : Action) (s : Stage) :
    Outside s (s.startAction k id action) := by
  have hcues : ∀ (cues : Action) (s : Stage),
      Outside s (cues.foldl (fun s cue => s.perform k id cue) s) := by
    intro cues
    induction cues with
    | nil => exact fun s => ⟨rfl, rfl, rfl, rfl, rfl⟩
    | cons cue cues ih => exact fun s => (outside_setHost _ s).trans (ih (s.perform k id cue))
  unfold startAction
  dsimp only
  split
  · exact hcues _ s
  · refine (hcues _ s).trans ⟨?_, rfl, rfl, rfl, rfl⟩
    exact (List.filterMap_append ..).trans (List.append_nil _)

theorem outside_hear (k : Nat) (a : Actor) (s : Stage) : Outside s (s.hear k a) := by
  have hset : ∀ c p, Outside s ((s.setConnection k c).setPartner k p) := fun _ _ =>
    ⟨rfl, rfl, rfl, rfl, rfl⟩
  unfold hear
  dsimp only
  split
  · exact (hset _ _).trans (outside_startAction k _ _ _)
  · exact outside_setHost _ s

/-- Of all that acts on the stage only the output touches the service. -/
theorem outside_react {i : Nat} (h : Part.ofIndex i ≠ .output) (s : Stage) :
    Outside s (s.react i) := by
  unfold react
  cases hpart : Part.ofIndex i with
  | output => exact absurd hpart h
  | writer k => exact outside_setHost _ s
  | reader k => exact outside_setHost _ s
  | partner k =>
    dsimp only
    cases s.partnerAt k with
    | actor a => exact outside_hear k a s
    | process p => exact ⟨rfl, rfl, rfl, rfl, rfl⟩
    | nobody => exact ⟨rfl, rfl, rfl, rfl, rfl⟩

theorem movesBy_act (k : Nat) (id : Option Json) (action : Action) :
    (act k id action).MovesBy Outside := by
  induction action with
  | nil => exact Routine.movesBy_done ()
  | cons cue rest ih =>
    cases cue with
    | delay ms =>
      exact Routine.MovesBy.bind ⟨fun s => ⟨rfl, rfl, rfl, rfl, rfl⟩, fun _ _ => trivial⟩ fun _ => ih
    | _ => exact (Routine.movesBy_change fun s => outside_setHost _ s).bind fun _ => ih

structure Doing where
  change : Stage → Stage
  outside : ∀ s, Outside s (change s)

/-! ## a reply written out -/

def withOutput (outgoing replies : List Reply) (s : Stage) : Stage :=
  { s with outgoing := outgoing, replies := replies }

theorem writeReply_nil {s : Stage} (h : s.outgoing = []) : s.writeReply = s := by
  unfold writeReply
  rw [h]

theorem writeReply_cons {s : Stage} {r : Reply} {rest : List Reply} (h : s.outgoing = r :: rest) :
    s.writeReply = s.withOutput rest (s.replies ++ [r]) := by
  unfold writeReply
  rw [h]
  rfl

end Stage

namespace Counter

/-! ## calls -/

/-- A request, and the call that answers it. -/
structure Call where
  id : Json
  request : ToolRequest
  /-- the clock and the host at each of its moves so far -/
  moments : List (Nat × Host) := []
  rest : Routine Stage Unit

namespace Call

def start (q : Json × ToolRequest) : Call :=
  { id := q.1, request := q.2, rest := Stage.errand (.answer q.1 q.2) }

def Ended (c : Call) : Prop := c.rest = .done ()

/-- It has not begun, or it stays somewhere. -/
def halts (c : Call) : Bool :=
  match c.rest with
  | .done _ => false
  | .step .. => c.moments.isEmpty
  | .wait .. | .pause .. => true

/-- What the call would reply, move after move. -/
def answer (c : Call) : Routine Host Reply := Service.answer c.id c.request

end Call

end Counter

structure Counter where
  stage : Stage
  loop : Routine Stage (Option Utf8.Error)
  calls : List Counter.Call := []

namespace Counter

/-! ## events -/

def start (input : Bytes) (s : Stage) : Counter := { stage := s, loop := Stage.serve input }

/-- What the stage asks to be answered gets calls. -/
def adopt (w : Counter) : Counter :=
  { w with
    stage := { w.stage with errands := [] }
    calls := w.calls ++ w.stage.asked.map Call.start }

inductive Event where
  /-- the loop moves, `elapsed` milliseconds after it came where it is -/
  | loop (elapsed : Nat)
  | call (index elapsed : Nat)
  /-- the output takes a reply -/
  | write
  | other (doing : Stage.Doing)

def moveLoop (elapsed : Nat) (w : Counter) : Counter :=
  let (stage, loop) := w.loop.poll elapsed w.stage
  { w with stage := stage, loop := loop }.adopt

def moveCall (index elapsed : Nat) (w : Counter) : Counter :=
  match w.calls[index]? with
  | none => w
  | some c =>
    if w.stage.dismissed && c.halts then
      let stage := c.rest.abandon w.stage
      { w with stage := stage, calls := w.calls.set index { c with rest := .done () } }.adopt
    else
      let (stage, rest) := c.rest.poll elapsed w.stage
      let c := { c with rest := rest, moments := c.moments ++ [(elapsed, w.stage.host)] }
      { w with stage := stage, calls := w.calls.set index c }.adopt

def apply (w : Counter) : Event → Counter
  | .loop elapsed => w.moveLoop elapsed
  | .call index elapsed => w.moveCall index elapsed
  | .write => { w with stage := w.stage.writeReply }
  | .other doing => { w with stage := doing.change w.stage }.adopt

def run (w : Counter) (events : List Event) : Counter := events.foldl apply w

/-! ## how far a call is -/

inductive Phase where
  | working
  /-- the reply is out -/
  | sent (reply : Reply)
  | ended (reply : Reply)
  | dropped

namespace Phase

/-- the request is in flight -/
def atWork : Phase → Bool
  | .working | .sent _ => true
  | .ended _ | .dropped => false

def given : Phase → List Reply
  | .working => []
  | .sent r => [r]
  | .ended r => [r]
  | .dropped => []

end Phase

/-- The call is that far: it has given out what its own answer comes to at its own moments, once. -/
def Call.In (c : Call) : Phase → Prop
  | .working => c.rest = (Stage.onHost (c.answer.along c.moments)).bind Stage.deliver
  | .sent r => c.answer.along c.moments = .done r ∧ c.rest = Routine.change Stage.finishRequest ∧
    c.moments ≠ []
  | .ended r => c.answer.along c.moments = .done r ∧ c.Ended
  | .dropped => c.Ended

theorem Call.in_start (q : Json × ToolRequest) : (Call.start q).In .working := rfl

section
variable {c : Call} {p : Phase}

def Call.moved (c : Call) (elapsed : Nat) (s : Stage) : Call :=
  { c with
    rest := (c.rest.poll elapsed s).2
    moments := c.moments ++ [(elapsed, s.host)] }

theorem Call.along_moved (c : Call) (elapsed : Nat) (s : Stage) :
    (c.moved elapsed s).answer.along (c.moved elapsed s).moments =
      ((c.answer.along c.moments).poll elapsed s.host).2 :=
  Routine.along_concat c.answer c.moments (elapsed, s.host)

/-- A call moves on the host, or gives its reply out, or comes to its end. -/
theorem Call.In.moved (h : c.In p) (elapsed : Nat) (s : Stage) :
    (∃ host, (c.rest.poll elapsed s).1 = { s with host := host } ∧ (c.moved elapsed s).In p) ∨
    (∃ r, p = .working ∧ (c.rest.poll elapsed s).1 = s.send r ∧ (c.moved elapsed s).In (.sent r)) ∨
    (∃ r, p = .sent r ∧ (c.rest.poll elapsed s).1 = s.finishRequest ∧
      (c.moved elapsed s).In (.ended r)) := by
  have halong := c.along_moved elapsed s
  cases p with
  | working =>
    by_cases hdone : ∃ r, c.answer.along c.moments = .done r
    · obtain ⟨r, hr⟩ := hdone
      replace h : c.rest = Stage.deliver r := by
        rw [show c.rest = _ from h, hr]
        rfl
      refine .inr (.inl ⟨r, rfl, ?_, ?_, ?_, List.concat_ne_nil _ _⟩)
      · rw [h]
        rfl
      · rw [halong, hr]
        rfl
      · show (c.rest.poll elapsed s).2 = _
        rw [h]
        rfl
    · have hrest : ∀ r, Stage.onHost (c.answer.along c.moments) ≠ .done r := fun r e =>
        hdone ⟨r, Routine.zoom_eq_done e⟩
      have hpoll : c.rest.poll elapsed s =
          ({ s with host := ((c.answer.along c.moments).poll elapsed s.host).1 },
            (Stage.onHost ((c.answer.along c.moments).poll elapsed s.host).2).bind
              Stage.deliver) := by
        rw [show c.rest = _ from h, Routine.poll_bind hrest]
        unfold Stage.onHost
        rw [Routine.poll_zoom fun _ => rfl]
      refine .inl ⟨_, congrArg Prod.fst hpoll, ?_⟩
      show (c.rest.poll elapsed s).2 = _
      rw [hpoll, halong]
  | sent r =>
    obtain ⟨hr, hrest, -⟩ := h
    refine .inr (.inr ⟨r, rfl, ?_, ?_, ?_⟩)
    · rw [hrest]
      rfl
    · rw [halong, hr]
      rfl
    · show (c.rest.poll elapsed s).2 = _
      rw [hrest]
      rfl
  | ended r =>
    obtain ⟨hr, hrest⟩ := h
    refine .inl ⟨s.host, ?_, ?_, ?_⟩
    · rw [show c.rest = _ from hrest]
      rfl
    · rw [halong, hr]
      rfl
    · show (c.rest.poll elapsed s).2 = _
      rw [show c.rest = _ from hrest]
      rfl
  | dropped =>
    refine .inl ⟨s.host, ?_, ?_⟩
    · rw [show c.rest = _ from h]
      rfl
    · show (c.rest.poll elapsed s).2 = _
      rw [show c.rest = _ from h]
      rfl

/-- Only a call at work can be dropped; it leaves its trace on the host. -/
theorem Call.In.abandon (h : c.In p) (hhalts : c.halts = true) : p = .working ∧
    ∀ s : Stage, ∃ host, ∀ s' : Stage, s'.host = s.host → c.rest.abandon s' = { s' with host := host } := by
  cases p with
  | working =>
    refine ⟨rfl, fun s => ?_⟩
    rw [show c.rest = _ from h]
    unfold Stage.onHost
    cases c.answer.along c.moments with
    | done r => exact ⟨s.host, fun s' hs => hs ▸ rfl⟩
    | step update next => exact ⟨s.host, fun s' hs => hs ▸ rfl⟩
    | wait ready limit abandon next => exact ⟨abandon s.host, fun s' hs => hs ▸ rfl⟩
    | pause abandon next => exact ⟨abandon s.host, fun s' hs => hs ▸ rfl⟩
  | sent r =>
    obtain ⟨-, hrest, hbegun⟩ := h
    unfold Call.halts at hhalts
    rw [hrest] at hhalts
    exact absurd (List.isEmpty_iff.mp hhalts) hbegun
  | ended r =>
    unfold Call.halts at hhalts
    rw [show c.rest = _ from h.2] at hhalts
    cases hhalts
  | dropped =>
    unfold Call.halts at hhalts
    rw [show c.rest = _ from h] at hhalts
    cases hhalts

end

/-! ## what is so all along -/

def requests (entries : List Service.Entry) : List (Json × ToolRequest) :=
  entries.filterMap fun
    | .accepted id request => some (id, request)
    | _ => none

/-- The replies to entries that are no requests. -/
def rejections (entries : List Service.Entry) : List Reply :=
  entries.filterMap fun
    | .rejected r => some r
    | _ => none

/-- Take up what some lines ask for. -/
def takeUpAll : List Service.Entry → Routine Stage Unit
  | [] => .done ()
  | entry :: entries => (Routine.change (Stage.takeUp entry)).bind fun _ => takeUpAll entries

/-- After the last line, or at the line that cannot be read. -/
def ending : Option Utf8.Error → Routine Stage (Option Utf8.Error)
  | none => Stage.seeThrough.bind fun _ => .done none
  | some fault => (Routine.change Stage.dismiss).bind fun _ => .done (some fault)

/-- Where the loop is when some entries are left. -/
inductive LoopAt (fault : Option Utf8.Error) (left : List Service.Entry) (w : Counter) : Prop where
  | reading : w.stage.dismissed = false → w.loop = ((takeUpAll left).bind fun _ => ending fault) →
      LoopAt fault left w
  | writing : fault = none → left = [] → w.stage.dismissed = false → w.stage.inFlight = 0 →
      w.loop = ((Routine.until_ fun s => s.outgoing.isEmpty).bind fun _ => .done none) →
      LoopAt fault left w
  | returned : fault = none → left = [] → w.stage.dismissed = false → w.stage.inFlight = 0 →
      w.stage.outgoing = [] → w.loop = .done none → LoopAt fault left w
  | broken : fault.isSome = true → left = [] → w.stage.dismissed = true → w.loop = .done fault →
      LoopAt fault left w

/-- Some entries have been taken up, others are left, and each call is in its phase. -/
structure At (fault : Option Utf8.Error) (taken left : List Service.Entry) (phases : List Phase)
    (w : Counter) : Prop where
  loop : LoopAt fault left w
  asked : w.stage.asked = []
  calls : (w.calls.map fun c => (c.id, c.request)) = requests taken
  progress : List.Forall₂ Call.In w.calls phases
  inFlight : w.stage.dismissed = false → w.stage.inFlight = phases.countP Phase.atWork
  kept : w.stage.dismissed = false → Phase.dropped ∉ phases
  replies : (w.stage.replies ++ w.stage.outgoing).Perm
    (rejections taken ++ phases.flatMap Phase.given)

variable {fault : Option Utf8.Error} {taken left : List Service.Entry} {phases : List Phase}
  {w : Counter}

/-- Where the loop is does not depend on the calls, nor on what the output still has to take. -/
theorem LoopAt.congr (h : LoopAt fault left w) {w' : Counter} (hloop : w'.loop = w.loop)
    (hdismissed : w'.stage.dismissed = w.stage.dismissed)
    (hflight : w'.stage.inFlight = w.stage.inFlight)
    (hout : w.stage.outgoing = [] → w'.stage.outgoing = []) : LoopAt fault left w' := by
  rcases h with ⟨hlive, hl⟩ | ⟨hnone, hleft, hlive, hzero, hl⟩ |
    ⟨hnone, hleft, hlive, hzero, hempty, hl⟩ | ⟨hsome, hleft, hlive, hl⟩
  · exact .reading (hdismissed.trans hlive) (hloop.trans hl)
  · exact .writing hnone hleft (hdismissed.trans hlive) (hflight.trans hzero) (hloop.trans hl)
  · exact .returned hnone hleft (hdismissed.trans hlive) (hflight.trans hzero) (hout hempty)
      (hloop.trans hl)
  · exact .broken hsome hleft (hdismissed.trans hlive) (hloop.trans hl)

theorem perm_concat {s : Stage} {as bs : List Reply}
    (h : (s.replies ++ s.outgoing).Perm (as ++ bs)) (r : Reply) :
    ((s.send r).replies ++ (s.send r).outgoing).Perm (as ++ r :: bs) := by
  show (s.replies ++ (s.outgoing ++ [r])).Perm _
  rw [← List.append_assoc]
  exact ((h.append_right [r]).trans (List.perm_append_singleton r _)).trans List.perm_middle.symm

/-- Others leave it so. -/
theorem At.outside (h : At fault taken left phases w) {s : Stage} (hs : Stage.Outside w.stage s) :
    At fault taken left phases { w with stage := s } where
  loop := h.loop.congr rfl hs.dismissed hs.inFlight hs.outgoing.trans
  asked := hs.asked.trans h.asked
  calls := h.calls
  progress := h.progress
  inFlight hlive := hs.inFlight.trans (h.inFlight (hs.dismissed.symm.trans hlive))
  kept hlive := h.kept (hs.dismissed.symm.trans hlive)
  replies := by
    rw [hs.replies, hs.outgoing]
    exact h.replies

theorem adopt_of_asked (h : w.stage.asked = []) :
    w.adopt = { w with stage := { w.stage with errands := [] } } := by
  unfold Counter.adopt
  rw [h, List.map_nil, List.append_nil]

theorem At.adopt (h : At fault taken left phases w) : At fault taken left phases w.adopt := by
  rw [adopt_of_asked h.asked]
  exact h.outside (Stage.outside_noErrands h.asked)

/-! ## the output -/

theorem At.write (h : At fault taken left phases w) :
    At fault taken left phases { w with stage := w.stage.writeReply } := by
  cases hout : w.stage.outgoing with
  | nil =>
    rw [Stage.writeReply_nil hout]
    exact h
  | cons r rest =>
    rw [Stage.writeReply_cons hout]
    refine ⟨?_, h.asked, h.calls, h.progress, h.inFlight, h.kept, ?_⟩
    · exact h.loop.congr rfl rfl rfl fun hnone => absurd (hout.symm.trans hnone) (List.cons_ne_nil r rest)
    · show ((w.stage.replies ++ [r]) ++ rest).Perm _
      rw [List.append_assoc, List.singleton_append, ← hout]
      exact h.replies

/-! ## the calls -/

theorem forall₂_middle {α β : Type} {R : α → β → Prop} {as bs : List α} {c : α} {ps : List β}
    (h : List.Forall₂ R (as ++ c :: bs) ps) :
    ∃ ps₁ p ps₂, ps = ps₁ ++ p :: ps₂ ∧ List.Forall₂ R as ps₁ ∧ R c p ∧ List.Forall₂ R bs ps₂ := by
  induction as generalizing ps with
  | nil =>
    obtain ⟨p, ps₂, hc, hbs, rfl⟩ := List.forall₂_cons_left_iff.mp h
    exact ⟨[], p, ps₂, rfl, .nil, hc, hbs⟩
  | cons a as ih =>
    obtain ⟨q, qs, ha, hrest, rfl⟩ := List.forall₂_cons_left_iff.mp h
    obtain ⟨ps₁, p, ps₂, rfl, has, hc, hbs⟩ := ih hrest
    exact ⟨q :: ps₁, p, ps₂, rfl, .cons ha has, hc, hbs⟩

/-- While a call is at work the loop is not about to return, unless the service has been ended. -/
theorem At.loop_of_atWork {as bs : List Phase} {p : Phase} (h : At fault taken left (as ++ p :: bs) w)
    (hp : p.atWork = true) {w' : Counter} (hloop : w'.loop = w.loop)
    (hdismissed : w'.stage.dismissed = w.stage.dismissed) : LoopAt fault left w' := by
  have hpos (hlive : w.stage.dismissed = false) : w.stage.inFlight ≠ 0 := by
    rw [h.inFlight hlive, List.countP_append, List.countP_cons_of_pos hp]
    omega
  rcases h.loop with ⟨hlive, hl⟩ | ⟨-, -, hlive, hzero, -⟩ | ⟨-, -, hlive, hzero, -, -⟩ |
    ⟨hsome, hleft, hlive, hl⟩
  · exact .reading (hdismissed.trans hlive) (hloop.trans hl)
  · exact absurd hzero (hpos hlive)
  · exact absurd hzero (hpos hlive)
  · exact .broken hsome hleft (hdismissed.trans hlive) (hloop.trans hl)

def Call.ending (c : Call) : Call := { c with rest := .done () }

theorem moveCall_eq {index elapsed : Nat} {c : Call} (hc : w.calls[index]? = some c) :
    w.moveCall index elapsed =
      if w.stage.dismissed && c.halts then
        Counter.adopt { w with stage := c.rest.abandon w.stage, calls := w.calls.set index c.ending }
      else
        Counter.adopt { w with stage := (c.rest.poll elapsed w.stage).1
                               calls := w.calls.set index (c.moved elapsed w.stage) } := by
  unfold Counter.moveCall
  rw [hc]
  rfl

/-- One of the calls is in its phase, and may come to another one. -/
structure Placed (w : Counter) (taken : List Service.Entry) (index : Nat) (c : Call)
    (as : List Phase) (p : Phase) (bs : List Phase) : Prop where
  phase : c.In p
  calls : ∀ c' : Call, (c'.id, c'.request) = (c.id, c.request) →
    ((w.calls.set index c').map fun c => (c.id, c.request)) = requests taken
  progress : ∀ (c' : Call) (p' : Phase), c'.In p' →
    List.Forall₂ Call.In (w.calls.set index c') (as ++ p' :: bs)

section
variable {index : Nat} {c : Call} {as bs : List Phase} {p : Phase}

theorem At.exists_placed (h : At fault taken left phases w) (hc : w.calls[index]? = some c) :
    ∃ as p bs, phases = as ++ p :: bs ∧ Placed w taken index c as p bs := by
  obtain ⟨hlt, hcall⟩ := List.getElem?_eq_some_iff.mp hc
  obtain ⟨cs, ds, hcalls, hlen⟩ : ∃ cs ds, w.calls = cs ++ c :: ds ∧ cs.length = index :=
    ⟨w.calls.take index, w.calls.drop (index + 1), by
      rw [← hcall, List.getElem_cons_drop, List.take_append_drop], by
      rw [List.length_take]; omega⟩
  have hset (c' : Call) : w.calls.set index c' = cs ++ c' :: ds := by
    rw [hcalls, ← hlen, List.set_append_right _ _ (Nat.le_refl _), Nat.sub_self]
    rfl
  obtain ⟨as, p, bs, hphases, has, hin, hbs⟩ := forall₂_middle (hcalls ▸ h.progress)
  refine ⟨as, p, bs, hphases, hin, fun c' hc' => ?_, fun c' p' hp' => ?_⟩
  · rw [hset, ← h.calls, hcalls, List.map_append, List.map_append, List.map_cons, hc']
    rfl
  · rw [hset]
    exact List.rel_append has (.cons hp' hbs)

theorem At.drop (h : At fault taken left (as ++ p :: bs) w) (hc : Placed w taken index c as p bs)
    (hdismissed : w.stage.dismissed = true) (hhalts : c.halts = true) :
    At fault taken left (as ++ .dropped :: bs)
      { w with stage := c.rest.abandon w.stage, calls := w.calls.set index c.ending } := by
  obtain ⟨rfl, habandon⟩ := hc.phase.abandon hhalts
  obtain ⟨host, hhost⟩ := habandon w.stage
  rw [hhost w.stage rfl]
  have hgone (hlive : w.stage.dismissed = false) : False :=
    Bool.noConfusion (hdismissed.symm.trans hlive)
  refine ⟨h.loop.congr rfl rfl rfl id, h.asked, hc.calls c.ending rfl, hc.progress c.ending .dropped rfl,
    fun hlive => (hgone hlive).elim, fun hlive => (hgone hlive).elim, ?_⟩
  have hreplies := h.replies
  rw [List.flatMap_append, List.flatMap_cons] at hreplies ⊢
  exact hreplies

theorem At.not_dropped (h : At fault taken left (as ++ p :: bs) w) {p' : Phase} (hp' : p' ≠ .dropped)
    (hlive : w.stage.dismissed = false) : Phase.dropped ∉ as ++ p' :: bs := fun hmem => by
  refine h.kept hlive (List.mem_append.mpr ((List.mem_append.mp hmem).imp_right fun hmem => ?_))
  exact (List.mem_cons.mp hmem).elim (fun heq => absurd heq.symm hp') (List.mem_cons_of_mem p)

theorem At.poll (h : At fault taken left (as ++ p :: bs) w) (hc : Placed w taken index c as p bs)
    (elapsed : Nat) : ∃ p', At fault taken left (as ++ p' :: bs)
      { w with stage := (c.rest.poll elapsed w.stage).1
               calls := w.calls.set index (c.moved elapsed w.stage) } := by
  have hcalls := hc.calls (c.moved elapsed w.stage) rfl
  rcases hc.phase.moved elapsed w.stage with ⟨host, hstage, hp⟩ | ⟨r, rfl, hstage, hp⟩ |
    ⟨r, rfl, hstage, hp⟩
  · refine ⟨p, ?_⟩
    rw [hstage]
    exact ⟨h.loop.congr rfl rfl rfl id, h.asked, hcalls, hc.progress _ _ hp, h.inFlight, h.kept,
      h.replies⟩
  · refine ⟨.sent r, ?_⟩
    rw [hstage]
    refine ⟨h.loop_of_atWork rfl rfl rfl, h.asked, hcalls, hc.progress _ _ hp, fun hlive => ?_,
      h.not_dropped nofun, ?_⟩
    · have hflight := h.inFlight hlive
      rw [List.countP_append, List.countP_cons_of_pos rfl] at hflight ⊢
      exact hflight
    · have hreplies := h.replies
      rw [List.flatMap_append, List.flatMap_cons, ← List.append_assoc] at hreplies ⊢
      exact perm_concat hreplies r
  · refine ⟨.ended r, ?_⟩
    rw [hstage]
    refine ⟨h.loop_of_atWork rfl rfl rfl, h.asked, hcalls, hc.progress _ _ hp, fun hlive => ?_,
      h.not_dropped nofun, ?_⟩
    · have hflight := h.inFlight hlive
      show w.stage.inFlight - 1 = _
      rw [hflight, List.countP_append, List.countP_append, List.countP_cons_of_pos rfl,
        List.countP_cons_of_neg Bool.false_ne_true]
      omega
    · have hreplies := h.replies
      rw [List.flatMap_append, List.flatMap_cons] at hreplies ⊢
      exact hreplies

end

theorem moveCall_of_none {index : Nat} (hc : w.calls[index]? = none) (elapsed : Nat) :
    w.moveCall index elapsed = w := by
  unfold Counter.moveCall
  rw [hc]

theorem At.moveCall (h : At fault taken left phases w) (index elapsed : Nat) :
    ∃ phases', At fault taken left phases' (w.moveCall index elapsed) := by
  cases hc : w.calls[index]? with
  | none => exact ⟨phases, (moveCall_of_none hc elapsed).symm ▸ h⟩
  | some c =>
    obtain ⟨as, p, bs, rfl, hplaced⟩ := h.exists_placed hc
    rw [moveCall_eq hc]
    split
    next hdrop =>
      obtain ⟨hdismissed, hhalts⟩ := Bool.and_eq_true_iff.mp hdrop
      exact ⟨_, (h.drop hplaced hdismissed hhalts).adopt⟩
    next =>
      obtain ⟨p', h'⟩ := h.poll hplaced elapsed
      exact ⟨_, h'.adopt⟩

/-! ## the loop -/

theorem At.takeUp {entry : Service.Entry} (h : At fault taken (entry :: left) phases w)
    (hlive : w.stage.dismissed = false) :
    ∃ phases', At fault (taken ++ [entry]) left phases' (Counter.adopt
      { w with stage := Stage.takeUp entry w.stage
               loop := (takeUpAll left).bind fun _ => ending fault }) := by
  cases entry with
  | blank =>
    refine ⟨phases, At.adopt
      ⟨.reading hlive rfl, h.asked, ?_, h.progress, h.inFlight, h.kept, ?_⟩⟩
    · rw [requests, List.filterMap_append]
      exact h.calls.trans (List.append_nil _).symm
    · rw [rejections, List.filterMap_append]
      exact h.replies.trans (by simp [rejections])
  | rejected r =>
    refine ⟨phases, At.adopt
      ⟨.reading hlive rfl, h.asked, ?_, h.progress, h.inFlight, h.kept, ?_⟩⟩
    · rw [requests, List.filterMap_append]
      exact h.calls.trans (List.append_nil _).symm
    · rw [rejections, List.filterMap_append, List.append_assoc]
      exact perm_concat h.replies r
  | accepted id request =>
    have hasked : (Stage.takeUp (.accepted id request) w.stage).asked = [(id, request)] := by
      have happend : (Stage.takeUp (.accepted id request) w.stage).asked =
          w.stage.asked ++ [(id, request)] := List.filterMap_append ..
      rw [happend, h.asked]
      rfl
    refine ⟨phases ++ [.working], ?_⟩
    unfold Counter.adopt
    rw [hasked]
    refine ⟨.reading hlive rfl, rfl, ?_, ?_, fun _ => ?_, fun _ hmem => ?_, ?_⟩
    · rw [List.map_append, h.calls, requests, requests, List.filterMap_append]
      rfl
    · exact List.rel_append h.progress (.cons (Call.in_start (id, request)) .nil)
    · show w.stage.inFlight + 1 = _
      rw [h.inFlight hlive, List.countP_append]
      rfl
    · exact (List.mem_append.mp hmem).elim (h.kept hlive) fun hmem => by
        cases List.mem_singleton.mp hmem
    · show (w.stage.replies ++ w.stage.outgoing).Perm _
      rw [rejections, List.filterMap_append, List.flatMap_append]
      exact h.replies.trans (by simp [rejections, Phase.given])

theorem moveLoop_of_poll {elapsed : Nat} {stage : Stage} {loop : Routine Stage (Option Utf8.Error)}
    (h : w.loop.poll elapsed w.stage = (stage, loop)) :
    w.moveLoop elapsed = Counter.adopt { w with stage := stage, loop := loop } := by
  unfold Counter.moveLoop
  rw [h]

theorem At.stays (h : At fault taken left phases w) {elapsed : Nat}
    (hpoll : w.loop.poll elapsed w.stage = (w.stage, w.loop)) :
    At fault taken left phases (w.moveLoop elapsed) := by
  rw [moveLoop_of_poll hpoll]
  exact h.adopt

theorem At.finish (h : At none taken [] phases w) (hlive : w.stage.dismissed = false)
    (hl : w.loop = ending none) (elapsed : Nat) : At none taken [] phases (w.moveLoop elapsed) := by
  by_cases hflight : w.stage.inFlight = 0
  · have hpoll : w.loop.poll elapsed w.stage =
        (w.stage, (Routine.until_ fun s => s.outgoing.isEmpty).bind fun _ => .done none) := by
      rw [hl]
      exact Routine.poll_of_ready (decide_eq_true hflight)
    rw [moveLoop_of_poll hpoll]
    exact At.adopt ⟨.writing rfl rfl hlive hflight rfl, h.asked, h.calls, h.progress, h.inFlight,
      h.kept, h.replies⟩
  · refine h.stays ?_
    rw [hl]
    exact Routine.poll_of_neither (decide_eq_false hflight) rfl

theorem At.moveLoop (h : At fault taken left phases w) (elapsed : Nat) :
    ∃ taken' left' phases', taken' ++ left' = taken ++ left ∧
      At fault taken' left' phases' (w.moveLoop elapsed) := by
  rcases h.loop with ⟨hlive, hl⟩ | ⟨rfl, rfl, hlive, hflight, hl⟩ | ⟨-, -, -, -, -, hl⟩ | ⟨-, -, -, hl⟩
  · cases left with
    | cons entry left =>
      obtain ⟨phases', h'⟩ := h.takeUp hlive
      have hpoll : w.loop.poll elapsed w.stage = (Stage.takeUp entry w.stage,
          (takeUpAll left).bind fun _ => ending fault) := by
        rw [hl]
        rfl
      refine ⟨taken ++ [entry], left, phases', List.append_assoc .., ?_⟩
      rw [moveLoop_of_poll hpoll]
      exact h'
    | nil =>
      refine ⟨taken, [], phases, rfl, ?_⟩
      cases fault with
      | none => exact h.finish hlive hl elapsed
      | some fault =>
        have hpoll : w.loop.poll elapsed w.stage = (w.stage.dismiss, .done (some fault)) := by
          rw [hl]
          rfl
        rw [moveLoop_of_poll hpoll]
        exact At.adopt ⟨.broken rfl rfl rfl rfl, h.asked, h.calls, h.progress, nofun, nofun, h.replies⟩
  · refine ⟨taken, [], phases, rfl, ?_⟩
    cases hout : w.stage.outgoing with
    | nil =>
      have hpoll : w.loop.poll elapsed w.stage = (w.stage, .done none) := by
        rw [hl]
        exact Routine.poll_of_ready (by rw [hout]; rfl)
      rw [moveLoop_of_poll hpoll]
      exact At.adopt ⟨.returned rfl rfl hlive hflight hout rfl, h.asked, h.calls, h.progress,
        h.inFlight, h.kept, h.replies⟩
    | cons r rest =>
      refine h.stays ?_
      rw [hl]
      exact Routine.poll_of_neither (by rw [hout]; rfl) rfl
  · refine ⟨taken, left, phases, rfl, h.stays ?_⟩
    rw [hl]
    rfl
  · refine ⟨taken, left, phases, rfl, h.stays ?_⟩
    rw [hl]
    rfl

/-! ## along a run -/

/-- What is so of the service at work on some entries. -/
def Sound (fault : Option Utf8.Error) (entries : List Service.Entry) (w : Counter) : Prop :=
  ∃ taken left phases, taken ++ left = entries ∧ At fault taken left phases w

theorem sound_apply {entries : List Service.Entry} (h : Sound fault entries w) (e : Event) :
    Sound fault entries (w.apply e) := by
  obtain ⟨taken, left, phases, rfl, h⟩ := h
  cases e with
  | loop elapsed => exact h.moveLoop elapsed
  | call index elapsed =>
    obtain ⟨phases', h'⟩ := h.moveCall index elapsed
    exact ⟨taken, left, phases', rfl, h'⟩
  | write => exact ⟨taken, left, phases, rfl, h.write⟩
  | other doing => exact ⟨taken, left, phases, rfl, (h.outside (doing.outside w.stage)).adopt⟩

theorem sound_run {entries : List Service.Entry} (h : Sound fault entries w) (events : List Event) :
    Sound fault entries (w.run events) := by
  induction events generalizing w with
  | nil => exact h
  | cons e events ih => exact ih (sound_apply h e)

end Counter

end CodeBridge
