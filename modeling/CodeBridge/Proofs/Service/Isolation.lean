import CodeBridge.Proofs.Service.Answered

/-!
# A line that is no request

Two services work through one input, except that the input of the first has a line more, which is no
request.  The first one gives out one reply more, the error that answers this line.  Whatever either
of them does, the other one can do as well, and then all else about them is the same: the calls and
what these have found and come to, the replies, and when the service returns.

* `Call.In.poll`     a call sees of the stage only its host;
* `Ahead`, `Apart`   how far the two services are apart;
* `Apart.follow`, `Apart.precede`   what one of them does, the other one can do as well;
* `run_spares`       so it is of all that they do;
* `invalid_line_not_spared`   a line that is not text is another matter.
-/

namespace CodeBridge

namespace Service

theorem entryOfText_rejected {line : List Char} (hshown : allBlank line = false)
    (hbad : ∀ v request, Json.parse (Utf8.encode line) = .ok v →
      ToolRequest.ofJson v ≠ .ok request) :
    ∃ message, entryOfText line = .rejected ⟨idOf line, .error message⟩ := by
  unfold entryOfText idOf
  rw [hshown]
  cases hparse : Json.parse (Utf8.encode line) with
  | error fault => exact ⟨_, rfl⟩
  | ok v =>
    cases hrequest : ToolRequest.ofJson v with
    | ok request => exact absurd hrequest (hbad v request hparse)
    | error fault =>
      refine ⟨s!"invalid request: {fault.message}", ?_⟩
      show entryOfJson v = _
      unfold entryOfJson
      rw [hrequest]

end Service

/-! ## stages that differ in their output -/

namespace Stage

def silent (s : Stage) : Stage := s.withOutput [] []

/-- What is done to a stage with another output. -/
def Doing.seeing (doing : Doing) (outgoing replies : List Reply) : Doing where
  change s := (doing.change (s.withOutput outgoing replies)).withOutput s.outgoing s.replies
  outside s :=
    have h := doing.outside (s.withOutput outgoing replies)
    ⟨h.asked, h.inFlight, h.dismissed, rfl, rfl⟩

variable {s s' : Stage} {r : Reply}

theorem withOutput_of_silent (h : s.silent = s'.silent) :
    s'.withOutput s.outgoing s.replies = s :=
  (congrArg (withOutput s.outgoing s.replies) h).symm

theorem silent_writeReply (s : Stage) : s.writeReply.silent = s.silent := by
  cases hout : s.outgoing with
  | nil => rw [writeReply_nil hout]
  | cons r rest =>
    rw [writeReply_cons hout]
    rfl

theorem silent_takeUp (h : s.silent = s'.silent) (entry : Service.Entry) :
    (takeUp entry s).silent = (takeUp entry s').silent := by
  cases entry with
  | blank => exact h
  | rejected r => exact h
  | accepted id request =>
    exact congrArg (fun s : Stage => { s with
      errands := s.errands ++ [Errand.answer id request], inFlight := s.inFlight + 1 }) h

end Stage

namespace Counter

/-! ## calls on such stages -/

/-- What a call does depends on the host alone, and so does what is left of it. -/
theorem Call.In.poll {c : Call} {p : Phase} (h : c.In p) (elapsed : Nat) (host : Host) :
    ∃ effect rest, (∀ s : Stage, s.host = host → c.rest.poll elapsed s = (effect s, rest)) ∧
      ((∃ host', effect = fun s => { s with host := host' }) ∨ (∃ r, effect = Stage.send r) ∨
        effect = Stage.finishRequest) := by
  cases p with
  | working =>
    by_cases hdone : ∃ r, c.answer.along c.moments = .done r
    · obtain ⟨r, hr⟩ := hdone
      refine ⟨Stage.send r, Routine.change Stage.finishRequest, fun s _ => ?_, .inr (.inl ⟨r, rfl⟩)⟩
      rw [show c.rest = _ from h, hr]
      rfl
    · have hrest : ∀ r, Stage.onHost (c.answer.along c.moments) ≠ .done r := fun r e =>
        hdone ⟨r, Routine.zoom_eq_done e⟩
      refine ⟨_, (Stage.onHost ((c.answer.along c.moments).poll elapsed host).2).bind
        Stage.deliver, fun s hs => ?_,
        .inl ⟨((c.answer.along c.moments).poll elapsed host).1, rfl⟩⟩
      rw [show c.rest = _ from h, Routine.poll_bind hrest]
      unfold Stage.onHost
      rw [Routine.poll_zoom fun _ => rfl, hs]
  | sent r =>
    refine ⟨Stage.finishRequest, .done (), fun s _ => ?_, .inr (.inr rfl)⟩
    rw [h.2.1]
    rfl
  | ended r =>
    refine ⟨_, .done (), fun s hs => ?_, .inl ⟨host, rfl⟩⟩
    rw [show c.rest = _ from h.2, ← hs]
    rfl
  | dropped =>
    refine ⟨_, .done (), fun s hs => ?_, .inl ⟨host, rfl⟩⟩
    rw [show c.rest = _ from h, ← hs]
    rfl

/-! ## how far apart two services are -/

inductive Ahead (r : Reply) (s s' : Stage) : Prop where
  | waiting (front back : List Reply) : s.outgoing = front ++ r :: back →
      s'.outgoing = front ++ back → s'.replies = s.replies → Ahead r s s'
  | written (front back : List Reply) : s.replies = front ++ r :: back →
      s'.replies = front ++ back → s'.outgoing = s.outgoing → Ahead r s s'

/-- The line has not been read, or it has its reply. -/
inductive Extra (r : Reply) (w w' : Counter) : Prop where
  | unread {fault : Option Utf8.Error} (front back : List Service.Entry) :
      w.loop = ((takeUpAll (front ++ .rejected r :: back)).bind fun _ => ending fault) →
      w'.loop = ((takeUpAll (front ++ back)).bind fun _ => ending fault) →
      w'.stage.outgoing = w.stage.outgoing → w'.stage.replies = w.stage.replies → Extra r w w'
  | read : w'.loop = w.loop → Ahead r w.stage w'.stage → Extra r w w'

/-- The first service has a line more, which is answered by `r`. -/
structure Apart (r : Reply) (w w' : Counter) : Prop where
  calls : w'.calls = w.calls
  stage : w.stage.silent = w'.stage.silent
  errands : w.stage.errands = []
  extra : Extra r w w'

variable {r : Reply} {s s' t t' : Stage} {w w' u u' : Counter} {fault : Option Utf8.Error}
  {left entries : List Service.Entry}

theorem Ahead.congr (h : Ahead r s s') (hout : t.outgoing = s.outgoing)
    (hreplies : t.replies = s.replies) (hout' : t'.outgoing = s'.outgoing)
    (hreplies' : t'.replies = s'.replies) : Ahead r t t' := by
  rcases h with ⟨front, back, h, h', hsame⟩ | ⟨front, back, h, h', hsame⟩
  · exact .waiting front back (hout.trans h) (hout'.trans h')
      (hreplies'.trans (hsame.trans hreplies.symm))
  · exact .written front back (hreplies.trans h) (hreplies'.trans h')
      (hout'.trans (hsame.trans hout.symm))

theorem Ahead.send (h : Ahead r s s') (r' : Reply) : Ahead r (s.send r') (s'.send r') := by
  rcases h with ⟨front, back, h, h', hsame⟩ | ⟨front, back, h, h', hsame⟩
  · refine .waiting front (back ++ [r']) ?_ ?_ hsame
    · show s.outgoing ++ [r'] = _
      rw [h, List.append_assoc, List.cons_append]
    · show s'.outgoing ++ [r'] = _
      rw [h', List.append_assoc]
  · exact .written front back h h' (congrArg (· ++ [r']) hsame)

theorem Ahead.takeUp (h : Ahead r s s') (entry : Service.Entry) :
    Ahead r (Stage.takeUp entry s) (Stage.takeUp entry s') := by
  cases entry with
  | blank => exact h
  | rejected r' => exact h.send r'
  | accepted id request => exact h.congr rfl rfl rfl rfl

theorem ahead_give (hout : s.outgoing = r :: s'.outgoing) (hreplies : s'.replies = s.replies) :
    Ahead r s.writeReply s' := by
  rw [Stage.writeReply_cons hout]
  exact .written s.replies [] rfl (hreplies.trans (List.append_nil _).symm) rfl

/-- Both outputs take the same reply, unless the one more is the next to be taken. -/
theorem Ahead.write (h : Ahead r s s') :
    Ahead r s.writeReply s'.writeReply ∨
      (s.outgoing = r :: s'.outgoing ∧ s'.replies = s.replies) := by
  rcases h with ⟨front, back, h, h', hsame⟩ | ⟨front, back, h, h', hsame⟩
  · cases front with
    | nil => exact .inr ⟨h.trans (congrArg (r :: ·) h'.symm), hsame⟩
    | cons r' front =>
      rw [Stage.writeReply_cons h, Stage.writeReply_cons h']
      exact .inl (.waiting front back rfl rfl (congrArg (· ++ [r']) hsame))
  · left
    cases hout : s.outgoing with
    | nil =>
      rw [Stage.writeReply_nil hout, Stage.writeReply_nil (hsame.trans hout)]
      exact .written front back h h' hsame
    | cons r' rest =>
      rw [Stage.writeReply_cons hout, Stage.writeReply_cons (hsame.trans hout)]
      refine .written front (back ++ [r']) ?_ ?_ rfl
      · show s.replies ++ [r'] = _
        rw [h, List.append_assoc, List.cons_append]
      · show s'.replies ++ [r'] = _
        rw [h', List.append_assoc]

theorem Extra.congr (h : Extra r w w') (hloop : u.loop = w.loop) (hloop' : u'.loop = w'.loop)
    (hout : u.stage.outgoing = w.stage.outgoing) (hreplies : u.stage.replies = w.stage.replies)
    (hout' : u'.stage.outgoing = w'.stage.outgoing)
    (hreplies' : u'.stage.replies = w'.stage.replies) : Extra r u u' := by
  rcases h with ⟨front, back, h, h', hsame, hsame'⟩ | ⟨h, hahead⟩
  · exact .unread front back (hloop.trans h) (hloop'.trans h')
      (hout'.trans (hsame.trans hout.symm)) (hreplies'.trans (hsame'.trans hreplies.symm))
  · exact .read (hloop'.trans (h.trans hloop.symm)) (hahead.congr hout hreplies hout' hreplies')

theorem Apart.host (h : Apart r w w') : w'.stage.host = w.stage.host :=
  (congrArg Stage.host h.stage).symm

theorem Apart.dismissed (h : Apart r w w') : w'.stage.dismissed = w.stage.dismissed :=
  (congrArg Stage.dismissed h.stage).symm

theorem Apart.inFlight (h : Apart r w w') : w'.stage.inFlight = w.stage.inFlight :=
  (congrArg Stage.inFlight h.stage).symm

theorem apart_adopt (hcalls : w'.calls = w.calls) (hstage : w.stage.silent = w'.stage.silent)
    (hextra : Extra r w w') : Apart r w.adopt w'.adopt where
  calls := by
    have hasked : w.stage.silent.asked = w'.stage.silent.asked := by rw [hstage]
    replace hasked : w.stage.asked = w'.stage.asked := hasked
    show w'.calls ++ w'.stage.asked.map Call.start = w.calls ++ w.stage.asked.map Call.start
    rw [hcalls, hasked]
  stage := congrArg (fun s : Stage => { s with errands := [] }) hstage
  errands := rfl
  extra := hextra.congr rfl rfl rfl rfl rfl rfl

theorem adopt_of_errands (h : w.stage.errands = []) : w.adopt = w := by
  cases w with
  | mk stage loop calls =>
    cases stage
    obtain rfl := h
    exact congrArg (Counter.mk _ loop) (List.append_nil calls)

theorem moveLoop_of_waits {elapsed : Nat} (h : w.stage.errands = [])
    (hpoll : w.loop.poll elapsed w.stage = (w.stage, w.loop)) : w.moveLoop elapsed = w := by
  rw [moveLoop_of_poll hpoll]
  exact adopt_of_errands h

/-! ## what both do -/

theorem Apart.other (h : Apart r w w') (hs : Stage.Outside w.stage s)
    (hs' : Stage.Outside w'.stage s') (hsame : s.silent = s'.silent) :
    Apart r (Counter.adopt { w with stage := s }) (Counter.adopt { w' with stage := s' }) :=
  apart_adopt h.calls hsame
    (h.extra.congr rfl rfl hs.outgoing hs.replies hs'.outgoing hs'.replies)

theorem Sound.in_of_mem (h : Sound fault entries w) {c : Call} (hc : c ∈ w.calls) :
    ∃ p, c.In p := by
  obtain ⟨_, _, phases, -, hat⟩ := h
  have hin : List.Forall₂ (fun c p => (∃ p, c.In p) ∧ c.In p) w.calls phases :=
    hat.progress.imp fun c p h => ⟨⟨p, h⟩, h⟩
  exact ((List.forall₂_and_left w.calls phases).mp hin).1 c hc

theorem Apart.setHost (h : Apart r w w') (host : Host) (calls : List Call) :
    Apart r (Counter.adopt { w with stage := { w.stage with host := host }, calls := calls })
      (Counter.adopt { w' with stage := { w'.stage with host := host }, calls := calls }) :=
  apart_adopt rfl (congrArg (fun s : Stage => { s with host := host }) h.stage)
    (h.extra.congr rfl rfl rfl rfl rfl rfl)

theorem Apart.call (h : Apart r w w') (hsound : Sound fault entries w) (index elapsed : Nat) :
    Apart r (w.moveCall index elapsed) (w'.moveCall index elapsed) := by
  cases hc : w.calls[index]? with
  | none =>
    rw [moveCall_of_none hc, moveCall_of_none (h.calls ▸ hc)]
    exact h
  | some c =>
    obtain ⟨p, hin⟩ := hsound.in_of_mem (List.mem_of_getElem? hc)
    rw [moveCall_eq hc, moveCall_eq (h.calls ▸ hc), h.dismissed, h.calls]
    split
    next hdrop =>
      obtain ⟨-, habandon⟩ := hin.abandon (Bool.and_eq_true_iff.mp hdrop).2
      obtain ⟨host, hhost⟩ := habandon w.stage
      rw [hhost w.stage rfl, hhost w'.stage h.host]
      exact h.setHost host _
    next =>
      have hmoved : c.moved elapsed w'.stage = c.moved elapsed w.stage := by
        obtain ⟨effect, rest, hpoll, -⟩ := hin.poll elapsed w.stage.host
        unfold Call.moved
        rw [hpoll w.stage rfl, hpoll w'.stage h.host, h.host]
      obtain ⟨effect, rest, hpoll, heffect⟩ := hin.poll elapsed w.stage.host
      rw [hmoved, hpoll w.stage rfl, hpoll w'.stage h.host]
      obtain ⟨host, rfl⟩ | ⟨r', rfl⟩ | rfl := heffect
      · exact h.setHost host _
      · refine apart_adopt rfl h.stage ?_
        rcases h.extra with ⟨front, back, hl, hl', hout, hreplies⟩ | ⟨hl, hahead⟩
        · exact .unread front back hl hl' (congrArg (· ++ [r']) hout) hreplies
        · exact .read hl (hahead.send r')
      · exact apart_adopt rfl (congrArg Stage.finishRequest h.stage)
          (h.extra.congr rfl rfl rfl rfl rfl rfl)

/-- Both outputs take a reply, unless the one more is the next to be taken. -/
theorem Apart.write (h : Apart r w w') :
    Apart r (w.apply .write) (w'.apply .write) ∨
      (w'.loop = w.loop ∧ w.stage.outgoing = r :: w'.stage.outgoing ∧
        w'.stage.replies = w.stage.replies) := by
  have hsilent := Stage.silent_writeReply w.stage
  have herrands := (congrArg Stage.errands hsilent).trans h.errands
  have hboth := (hsilent.trans h.stage).trans (Stage.silent_writeReply w'.stage).symm
  rcases h.extra with ⟨front, back, hl, hl', hout, hreplies⟩ | ⟨hl, hahead⟩
  · left
    have hsame : w'.stage = w.stage := by
      rw [← Stage.withOutput_of_silent h.stage, ← hout, ← hreplies]
      rfl
    exact ⟨h.calls, hboth, herrands, .unread front back hl hl'
      (congrArg (fun s : Stage => s.writeReply.outgoing) hsame)
      (congrArg (fun s : Stage => s.writeReply.replies) hsame)⟩
  · rcases hahead.write with hahead | hnext
    · exact .inl ⟨h.calls, hboth, herrands, .read hl hahead⟩
    · exact .inr ⟨hl, hnext⟩

theorem Apart.give (h : Apart r w w') (hloop : w'.loop = w.loop)
    (hout : w.stage.outgoing = r :: w'.stage.outgoing)
    (hreplies : w'.stage.replies = w.stage.replies) : Apart r (w.apply .write) w' :=
  have hsilent := Stage.silent_writeReply w.stage
  ⟨h.calls, hsilent.trans h.stage, (congrArg Stage.errands hsilent).trans h.errands,
    .read hloop (ahead_give hout hreplies)⟩

theorem Apart.polled (h : Apart r w w') {elapsed : Nat}
    {loop loop' : Routine Stage (Option Utf8.Error)}
    (hpoll : w.loop.poll elapsed w.stage = (s, loop))
    (hpoll' : w'.loop.poll elapsed w'.stage = (s', loop')) (hsilent : s.silent = s'.silent)
    (hextra : Extra r { w with stage := s, loop := loop } { w' with stage := s', loop := loop' }) :
    Apart r (w.moveLoop elapsed) (w'.moveLoop elapsed) := by
  rw [moveLoop_of_poll hpoll, moveLoop_of_poll hpoll']
  exact apart_adopt h.calls hsilent hextra

/-- The first one alone reads the line. -/
theorem Apart.refuse (h : Apart r w w') {entries : List Service.Entry}
    (hloop : w.loop = (takeUpAll (.rejected r :: entries)).bind fun _ => ending fault)
    (hloop' : w'.loop = (takeUpAll entries).bind fun _ => ending fault)
    (hout : w'.stage.outgoing = w.stage.outgoing) (hreplies : w'.stage.replies = w.stage.replies)
    (elapsed : Nat) : Apart r (w.moveLoop elapsed) w' ∧ w'.loop = (w.moveLoop elapsed).loop ∧
      Ahead r (w.moveLoop elapsed).stage w'.stage := by
  have hpoll : w.loop.poll elapsed w.stage =
      (w.stage.send r, (takeUpAll entries).bind fun _ => ending fault) := by
    rw [hloop]
    rfl
  have herrands : (w.stage.send r).errands = [] := h.errands
  have hahead : Ahead r (w.stage.send r) w'.stage :=
    .waiting w.stage.outgoing [] rfl (hout.trans (List.append_nil _).symm) hreplies
  rw [moveLoop_of_poll hpoll,
    adopt_of_errands (w := ⟨w.stage.send r, _, w.calls⟩) herrands]
  exact ⟨⟨h.calls, h.stage, herrands, .read hloop' hahead⟩, hloop', hahead⟩

/-- Both take up a line before it. -/
theorem Apart.takeUp (h : Apart r w w') {entry : Service.Entry} {front back : List Service.Entry}
    (hloop : w.loop =
      (takeUpAll (entry :: (front ++ .rejected r :: back))).bind fun _ => ending fault)
    (hloop' : w'.loop = (takeUpAll (entry :: (front ++ back))).bind fun _ => ending fault)
    (hout : w'.stage.outgoing = w.stage.outgoing) (hreplies : w'.stage.replies = w.stage.replies)
    (elapsed : Nat) : Apart r (w.moveLoop elapsed) (w'.moveLoop elapsed) := by
  refine h.polled (by rw [hloop]; rfl) (by rw [hloop']; rfl) (Stage.silent_takeUp h.stage entry)
    (.unread front back rfl rfl ?_ ?_)
  · cases entry with
    | rejected r' => exact congrArg (· ++ [r']) hout
    | _ => exact hout
  · cases entry <;> exact hreplies

theorem Apart.still (h : Apart r w w') {elapsed : Nat}
    (hpoll : w.loop.poll elapsed w.stage = (w.stage, w.loop))
    (hpoll' : w'.loop.poll elapsed w'.stage = (w'.stage, w'.loop)) :
    Apart r (w.moveLoop elapsed) (w'.moveLoop elapsed) :=
  h.polled hpoll hpoll' h.stage h.extra

/-- Both take up a line after it, or wait for the calls, or end. -/
theorem Apart.reading (h : Apart r w w') (hahead : Ahead r w.stage w'.stage)
    (hloop : w.loop = (takeUpAll left).bind fun _ => ending fault)
    (hloop' : w'.loop = (takeUpAll left).bind fun _ => ending fault) (elapsed : Nat) :
    Apart r (w.moveLoop elapsed) (w'.moveLoop elapsed) := by
  cases left with
  | cons entry left =>
    exact h.polled (by rw [hloop]; rfl) (by rw [hloop']; rfl) (Stage.silent_takeUp h.stage entry)
      (.read rfl (hahead.takeUp entry))
  | nil =>
    cases fault with
    | some fault =>
      have hpoll {u : Counter} (hu : u.loop = ending (some fault)) :
          u.loop.poll elapsed u.stage = (u.stage.dismiss, .done (some fault)) := by
        rw [hu]
        rfl
      exact h.polled (hpoll hloop) (hpoll hloop') (congrArg Stage.dismiss h.stage)
        (.read rfl (hahead.congr rfl rfl rfl rfl))
    | none =>
      by_cases hflight : w.stage.inFlight = 0
      · have hpoll {u : Counter} (hu : u.loop = ending none) (hzero : u.stage.inFlight = 0) :
            u.loop.poll elapsed u.stage =
              (u.stage, (Routine.until_ fun s => s.outgoing.isEmpty).bind fun _ => .done none) := by
          rw [hu]
          exact Routine.poll_of_ready (decide_eq_true hzero)
        exact h.polled (hpoll hloop hflight) (hpoll hloop' (h.inFlight.trans hflight)) h.stage
          (.read rfl hahead)
      · have hpoll {u : Counter} (hu : u.loop = ending none) (hsome : u.stage.inFlight ≠ 0) :
            u.loop.poll elapsed u.stage = (u.stage, u.loop) := by
          rw [hu]
          exact Routine.poll_of_neither (decide_eq_false hsome) rfl
        exact h.still (hpoll hloop hflight)
          (hpoll hloop' fun e => hflight (h.inFlight.symm.trans e))

theorem poll_writing (elapsed : Nat)
    (hloop : w.loop = (Routine.until_ fun s => s.outgoing.isEmpty).bind fun _ => .done none) :
    w.loop.poll elapsed w.stage =
      (w.stage, if w.stage.outgoing = [] then .done none else w.loop) := by
  rw [hloop]
  by_cases hout : w.stage.outgoing = []
  · rw [if_pos hout]
    exact Routine.poll_of_ready (List.isEmpty_iff.mpr hout)
  · rw [if_neg hout]
    exact Routine.poll_of_neither (by simpa using hout) rfl

theorem Apart.ended (h : Apart r w w') {outcome : Option Utf8.Error} (hloop : w.loop = .done outcome)
    (hloop' : w'.loop = .done outcome) (elapsed : Nat) :
    Apart r (w.moveLoop elapsed) (w'.moveLoop elapsed) :=
  h.still (by rw [hloop]; rfl) (by rw [hloop']; rfl)

/-- When the reply has been written, both loops do the same. -/
theorem Apart.wrote (h : Apart r w w') (hloop : w'.loop = w.loop)
    (hahead : Ahead r w.stage w'.stage) (hout : w'.stage.outgoing = w.stage.outgoing)
    (hat : LoopAt fault left w) (elapsed : Nat) :
    Apart r (w.moveLoop elapsed) (w'.moveLoop elapsed) := by
  rcases hat with ⟨-, hl⟩ | ⟨-, -, -, -, hl⟩ | ⟨-, -, -, -, -, hl⟩ | ⟨-, -, -, hl⟩
  · exact h.reading hahead hl (hloop.trans hl) elapsed
  · refine h.polled (poll_writing elapsed hl) (poll_writing elapsed (hloop.trans hl)) h.stage ?_
    rw [hout, hloop]
    exact .read rfl hahead
  · exact h.ended hl (hloop.trans hl) elapsed
  · exact h.ended hl (hloop.trans hl) elapsed

/-! ## what one does, the other one does, too -/

theorem Apart.follow (h : Apart r w w') (hsound : Sound fault entries w) (e : Event) :
    ∃ events, Apart r (w.apply e) (w'.run events) := by
  cases e with
  | loop elapsed =>
    rcases h.extra with ⟨front, back, hl, hl', hout, hreplies⟩ | ⟨hloop, hahead⟩
    · cases front with
      | nil =>
        exact ⟨[], (h.refuse hl hl' hout hreplies elapsed).1⟩
      | cons entry front =>
        exact ⟨[.loop elapsed], h.takeUp hl hl' hout hreplies elapsed⟩
    · obtain ⟨_, left, _, -, hat⟩ := hsound
      rcases hahead with ⟨front, back, hfront, hfront', hsame⟩ | ⟨front, back, hback, hback', hsame⟩
      · have hahead : Ahead r w.stage w'.stage := .waiting front back hfront hfront' hsame
        have hsome : w.stage.outgoing ≠ [] := by simp [hfront]
        rcases hat.loop with ⟨-, hl⟩ | ⟨-, -, -, -, hl⟩ | ⟨-, -, -, -, hnone, -⟩ | ⟨-, -, -, hl⟩
        · exact ⟨[.loop elapsed], h.reading hahead hl (hloop.trans hl) elapsed⟩
        · refine ⟨[], ?_⟩
          show Apart r (w.moveLoop elapsed) w'
          rw [moveLoop_of_waits h.errands]
          · exact h
          · rw [poll_writing elapsed hl, if_neg hsome]
        · exact absurd hnone hsome
        · exact ⟨[.loop elapsed], h.ended hl (hloop.trans hl) elapsed⟩
      · exact ⟨[.loop elapsed], h.wrote hloop (.written front back hback hback' hsame) hsame
          hat.loop elapsed⟩
  | call index elapsed => exact ⟨[.call index elapsed], h.call hsound index elapsed⟩
  | write =>
    rcases h.write with hboth | ⟨hloop, hout, hreplies⟩
    · exact ⟨[.write], hboth⟩
    · exact ⟨[], h.give hloop hout hreplies⟩
  | other doing =>
    refine ⟨[.other (doing.seeing w.stage.outgoing w.stage.replies)],
      h.other (doing.outside _) (Stage.Doing.outside _ _) ?_⟩
    show (doing.change w.stage).silent =
      (doing.change (w'.stage.withOutput w.stage.outgoing w.stage.replies)).silent
    rw [Stage.withOutput_of_silent h.stage]

/-- The second service makes a move of its loop; the first one has read the line. -/
theorem Apart.precede_read (h : Apart r w w') (hsound : Sound fault entries w)
    (hloop : w'.loop = w.loop) (hahead : Ahead r w.stage w'.stage) (elapsed : Nat) :
    ∃ events, Apart r (w.run events) (w'.moveLoop elapsed) := by
  obtain ⟨_, left, _, -, hat⟩ := hsound
  have herrands : w'.stage.errands = [] := (congrArg Stage.errands h.stage).symm.trans h.errands
  rcases hahead with ⟨front, back, hfront, hfront', hsame⟩ | ⟨front, back, hback, hback', hsame⟩
  · have hahead : Ahead r w.stage w'.stage := .waiting front back hfront hfront' hsame
    rcases hat.loop with ⟨-, hl⟩ | ⟨hfault, hleft, hlive, hflight, hl⟩ | ⟨-, -, -, -, hnone, -⟩ |
      ⟨-, -, -, hl⟩
    · exact ⟨[.loop elapsed], h.reading hahead hl (hloop.trans hl) elapsed⟩
    · by_cases hnone : w'.stage.outgoing = []
      · -- only the reply that is one more keeps the first service from returning
        obtain ⟨rfl, rfl⟩ := List.append_eq_nil_iff.mp (hfront'.symm.trans hnone)
        replace hfront : w.stage.outgoing = r :: w'.stage.outgoing := by
          rw [hfront, hfront']
          rfl
        have hgiven := h.give hloop hfront hsame
        have hout : w'.stage.outgoing = (w.apply .write).stage.outgoing := by
          show _ = w.stage.writeReply.outgoing
          rw [Stage.writeReply_cons hfront]
          rfl
        have hflight' : w.stage.writeReply.inFlight = 0 :=
          (congrArg Stage.inFlight (Stage.silent_writeReply w.stage)).trans hflight
        have hlive' : w.stage.writeReply.dismissed = false :=
          (congrArg Stage.dismissed (Stage.silent_writeReply w.stage)).trans hlive
        exact ⟨[.write, .loop elapsed], hgiven.wrote hloop (ahead_give hfront hsame) hout
          (.writing hfault hleft hlive' hflight' hl) elapsed⟩
      · refine ⟨[], ?_⟩
        rw [moveLoop_of_waits herrands]
        · exact h
        · rw [poll_writing elapsed (hloop.trans hl), if_neg hnone]
    · exact absurd hnone (by simp [hfront])
    · exact ⟨[.loop elapsed], h.ended hl (hloop.trans hl) elapsed⟩
  · exact ⟨[.loop elapsed], h.wrote hloop (.written front back hback hback' hsame) hsame
      hat.loop elapsed⟩

theorem Apart.precede (h : Apart r w w') (hsound : Sound fault entries w) (e : Event) :
    ∃ events, Apart r (w.run events) (w'.apply e) := by
  cases e with
  | loop elapsed =>
    rcases h.extra with ⟨front, back, hl, hl', hout, hreplies⟩ | ⟨hloop, hahead⟩
    · cases front with
      | nil =>
        obtain ⟨h', hloop, hahead⟩ := h.refuse hl hl' hout hreplies elapsed
        obtain ⟨events, hevents⟩ :=
          h'.precede_read (sound_apply hsound (.loop elapsed)) hloop hahead elapsed
        exact ⟨.loop elapsed :: events, hevents⟩
      | cons entry front =>
        exact ⟨[.loop elapsed], h.takeUp hl hl' hout hreplies elapsed⟩
    · exact h.precede_read hsound hloop hahead elapsed
  | call index elapsed => exact ⟨[.call index elapsed], h.call hsound index elapsed⟩
  | write =>
    rcases h.write with hboth | ⟨hloop, hout, hreplies⟩
    · exact ⟨[.write], hboth⟩
    · rcases (h.give hloop hout hreplies).write with hboth | ⟨-, hmore, -⟩
      · exact ⟨[.write, .write], hboth⟩
      · have hone : w.stage.writeReply.outgoing = w'.stage.outgoing := by
          rw [Stage.writeReply_cons hout]
          rfl
        exact absurd (hone.symm.trans hmore).symm (List.cons_ne_self r _)
  | other doing =>
    refine ⟨[.other (doing.seeing w'.stage.outgoing w'.stage.replies)],
      h.other (Stage.Doing.outside _ _) (doing.outside _) ?_⟩
    show (doing.change (w.stage.withOutput w'.stage.outgoing w'.stage.replies)).silent =
      (doing.change w'.stage).silent
    rw [Stage.withOutput_of_silent h.stage.symm]

theorem run_append (w : Counter) (events more : List Event) :
    w.run (events ++ more) = (w.run events).run more := List.foldl_append

theorem Apart.follow_run (h : Apart r w w') (hsound : Sound fault entries w)
    (events : List Event) : ∃ events', Apart r (w.run events) (w'.run events') := by
  induction events generalizing w w' with
  | nil => exact ⟨[], h⟩
  | cons e events ih =>
    obtain ⟨first, hfirst⟩ := h.follow hsound e
    obtain ⟨rest, hrest⟩ := ih hfirst (sound_apply hsound e)
    exact ⟨first ++ rest, run_append w' first rest ▸ hrest⟩

theorem Apart.precede_run (h : Apart r w w') (hsound : Sound fault entries w)
    (events : List Event) : ∃ events', Apart r (w.run events') (w'.run events) := by
  induction events generalizing w w' with
  | nil => exact ⟨[], h⟩
  | cons e events ih =>
    obtain ⟨first, hfirst⟩ := h.precede hsound e
    obtain ⟨rest, hrest⟩ := ih hfirst (sound_run hsound first)
    exact ⟨first ++ rest, run_append w first rest ▸ hrest⟩

/-! ## the whole service -/

/-- The first service has given out at most one reply more, and exactly one when it has returned; and
the output has taken it then, unless a line after it has ended the service.  All else is the same. -/
structure Spared (r : Reply) (w w' : Counter) : Prop where
  calls : w'.calls = w.calls
  stage : w'.stage.silent = w.stage.silent
  given : (w.stage.replies ++ w.stage.outgoing = w'.stage.replies ++ w'.stage.outgoing) ∨
    ∃ front back, w.stage.replies ++ w.stage.outgoing = front ++ r :: back ∧
      w'.stage.replies ++ w'.stage.outgoing = front ++ back
  returned : ∀ outcome, w.loop = .done outcome ↔ w'.loop = .done outcome
  replied : ∀ outcome, w.loop = .done outcome → ∃ front back,
    w.stage.replies ++ w.stage.outgoing = front ++ r :: back ∧
      w'.stage.replies ++ w'.stage.outgoing = front ++ back
  written : w.loop = .done none →
    ∃ front back, w.stage.replies = front ++ r :: back ∧ w'.stage.replies = front ++ back

theorem reading_ne_done (entries : List Service.Entry) (outcome : Option Utf8.Error) :
    ((takeUpAll entries).bind fun _ => ending fault) ≠ .done outcome := by
  cases entries with
  | cons => nofun
  | nil => cases fault <;> nofun

theorem Ahead.given (h : Ahead r s s') : ∃ front back,
    s.replies ++ s.outgoing = front ++ r :: back ∧ s'.replies ++ s'.outgoing = front ++ back := by
  rcases h with ⟨front, back, hf, hf', hsame⟩ | ⟨front, back, hb, hb', hsame⟩
  · refine ⟨s.replies ++ front, back, ?_, ?_⟩
    · rw [hf, List.append_assoc]
    · rw [hf', hsame, List.append_assoc]
  · refine ⟨front, back ++ s.outgoing, ?_, ?_⟩
    · rw [hb, List.append_assoc, List.cons_append]
    · rw [hb', hsame, List.append_assoc]

theorem Apart.spared (h : Apart r w w') (hsound : Sound fault entries w) : Spared r w w' := by
  obtain ⟨_, _, _, -, hat⟩ := hsound
  rcases h.extra with ⟨front, back, hl, hl', hout, hreplies⟩ | ⟨hl, hahead⟩
  · have hreads (outcome : Option Utf8.Error) : w.loop ≠ .done outcome := fun hdone =>
      reading_ne_done _ outcome (hl.symm.trans hdone)
    refine ⟨h.calls, h.stage.symm, .inl (by rw [hout, hreplies]), fun outcome => ?_,
      fun outcome hdone => absurd hdone (hreads outcome), fun hdone => absurd hdone (hreads none)⟩
    exact iff_of_false (hreads outcome) fun hdone => reading_ne_done _ outcome (hl'.symm.trans hdone)
  · refine ⟨h.calls, h.stage.symm, .inr hahead.given, fun outcome => by rw [hl],
      fun _ _ => hahead.given, fun hdone => ?_⟩
    obtain ⟨rfl, -, hwritten⟩ := hat.returned hdone
    obtain ⟨-, -, hnone⟩ := hwritten rfl
    rcases hahead with ⟨front, back, hf, -, -⟩ | ⟨front, back, hb, hb', -⟩
    · exact absurd (hf.symm.trans hnone) (by simp)
    · exact ⟨front, back, hb, hb'⟩

theorem apart_start {input input' : Bytes} {front back : List Service.Entry}
    (hplan : Service.plan input = ⟨front ++ .rejected r :: back, fault⟩)
    (hplan' : Service.plan input' = ⟨front ++ back, fault⟩) (h : s.errands = []) :
    Apart r (start input s) (start input' s) :=
  ⟨rfl, rfl, h, .unread _ _ (serve_eq hplan) (serve_eq hplan') rfl rfl⟩

/-- **A line of text that is no request costs one error reply, and the service does all else as it
can do without it: nothing that it can do is lost, and nothing is added.** -/
theorem run_spares (before line after : Bytes) (text : List Char) (s : Stage)
    (hbefore : Service.Complete before) (hreadable : (Service.plan before).fault = none)
    (hline : Service.newline ∉ line.dropLast) (hafter : Service.Complete line ∨ after = [])
    (htext : Utf8.decode line = .ok text) (hshown : allBlank (Service.dropEnd text) = false)
    (hbad : ∀ v request, Json.parse (Utf8.encode (Service.dropEnd text)) = .ok v →
      ToolRequest.ofJson v ≠ .ok request)
    (hidle : Idle s) (herrands : s.errands = []) :
    ∃ message,
      let r : Reply := ⟨Service.idOf (Service.dropEnd text), .error message⟩
      let w := start (before ++ (line ++ after)) s
      let w' := start (before ++ after) s
      (∀ events, ∃ events', Spared r (w.run events) (w'.run events')) ∧
        ∀ events', ∃ events, Spared r (w.run events) (w'.run events') := by
  obtain ⟨message, hentry⟩ := Service.entryOfText_rejected hshown hbad
  have hread : Service.readLine line =
      .ok (.rejected ⟨Service.idOf (Service.dropEnd text), .error message⟩) := by
    unfold Service.readLine
    rw [htext, ← hentry]
    rfl
  have hne : line ≠ [] := by
    rintro rfl
    cases htext
    cases hshown
  have hplan := Service.plan_between hbefore hreadable hne hline hafter hread
  have hsound := sound_begin hplan hidle
  have h := apart_start hplan (Service.plan_append after hbefore hreadable) herrands
  refine ⟨message, fun events => ?_, fun events' => ?_⟩
  · obtain ⟨events', h'⟩ := h.follow_run hsound events
    exact ⟨events', h'.spared (sound_run hsound events)⟩
  · obtain ⟨events, h'⟩ := h.precede_run hsound events'
    exact ⟨events, h'.spared (sound_run hsound events)⟩

def ended (text : List Char) : Bytes := Utf8.encode (text ++ ['\n'])

theorem complete_ended (text : List Char) : Service.Complete (ended text) := by
  have hlast : Utf8.encode ['\n'] = [Service.newline] := by decide
  intro b hb
  unfold ended at hb
  rw [Utf8.encode_append, hlast, List.getLast?_concat] at hb
  exact (Option.some.inj hb).symm

theorem plan_ended (text : List Char) :
    Service.plan (ended text) = ⟨(rows (text ++ ['\n'])).map Service.entryOfText, none⟩ :=
  Service.plan_encode _

/-- Two requests, and between them a line that is none. -/
theorem noise_spared :
    let before := ended (lookup (.ofNat 7) "Foo").render
    let after := Utf8.encode (lookup (.str "a") "").render
    ∃ message,
      let r : Reply := ⟨.null, .error message⟩
      let w := start (before ++ (ended "no".toList ++ after)) bareStage
      let w' := start (before ++ after) bareStage
      (∀ events, ∃ events', Spared r (w.run events) (w'.run events')) ∧
        ∀ events', ∃ events, Spared r (w.run events) (w'.run events') := by
  intro before after
  obtain ⟨fault, hparse⟩ : ∃ fault, Json.parse (Utf8.encode "no".toList) = .error fault := ⟨_, rfl⟩
  refine run_spares before (ended "no".toList) after "no\n".toList bareStage (complete_ended _)
    ?_ (by decide) (.inl (complete_ended _)) (Utf8.decode_encode _) rfl (fun v request h => ?_)
    ⟨rfl, rfl, rfl, rfl, rfl⟩ rfl
  · rw [plan_ended]
  · cases hparse.symm.trans h

def blankLookup (id : Json) : Bytes := ended (lookup id "").render

theorem plan_blankLookup (id : Json) (hcanonical : Json.Canonical id) (hwhole : Json.Whole id)
    (hdepth : id.depth = 0) (hrows : rows ((lookup id "").render ++ ['\n']) =
      [(lookup id "").render])
    (hentry : Service.entryOfJson (lookup id "") = .accepted id (.searchSymbol "")) :
    Service.plan (blankLookup id) = ⟨[.accepted id (.searchSymbol "")], none⟩ := by
  unfold blankLookup
  rw [plan_ended, hrows, ← hentry, ← entryOfText_lookup id "" hcanonical hwhole hdepth]
  rfl

/-! ## a line that is not text -/

theorem exists_call_of_given {calls : List Call} {phases : List Phase}
    (h : List.Forall₂ Call.In calls phases) (hr : r ∈ phases.flatMap Phase.given) :
    ∃ c ∈ calls, c.answer.along c.moments = .done r := by
  induction h with
  | nil => cases hr
  | @cons c p _ _ hin _ ih =>
    rw [List.flatMap_cons] at hr
    rcases List.mem_append.mp hr with hr | hr
    · refine ⟨c, List.mem_cons_self, ?_⟩
      cases p with
      | sent r' => exact List.mem_singleton.mp hr ▸ hin.1
      | ended r' => exact List.mem_singleton.mp hr ▸ hin.1
      | _ => cases hr
    · obtain ⟨c, hc, halong⟩ := ih hr
      exact ⟨c, List.mem_cons_of_mem _ hc, halong⟩

/-- Whoever gets a reply is on a line that has been read. -/
theorem Sound.of_mem (h : Sound fault entries w)
    (hr : r ∈ w.stage.replies ++ w.stage.outgoing) :
    .rejected r ∈ entries ∨ ∃ request, .accepted r.id request ∈ entries := by
  obtain ⟨taken, left, phases, rfl, hat⟩ := h
  rcases List.mem_append.mp (hat.replies.mem_iff.mp hr) with hrejected | hgiven
  · obtain ⟨entry, hentry, heq⟩ := List.mem_filterMap.mp hrejected
    cases entry with
    | rejected r' =>
      obtain rfl := Option.some.inj heq
      exact .inl (List.mem_append_left left hentry)
    | _ => cases heq
  · obtain ⟨c, hc, halong⟩ := exists_call_of_given hat.progress hgiven
    obtain ⟨result, -, rfl⟩ := Call.result halong
    have hrequest : (c.id, c.request) ∈ requests taken :=
      hat.calls ▸ List.mem_map_of_mem (f := fun c : Call => (c.id, c.request)) hc
    obtain ⟨entry, hentry, heq⟩ := List.mem_filterMap.mp hrequest
    cases entry with
    | accepted id request =>
      obtain ⟨rfl, -⟩ := Prod.mk.inj (Option.some.inj heq)
      exact .inr ⟨request, List.mem_append_left left hentry⟩
    | _ => cases heq

/-- The service has returned, and nothing is left of its calls. -/
structure Over (w : Counter) : Prop where
  loop : ∃ outcome, w.loop = .done outcome
  calls : ∀ c ∈ w.calls, c.Ended
  asked : w.stage.asked = []

theorem Over.adopt (h : Over w) : Over w.adopt := by
  rw [adopt_of_asked h.asked]
  exact ⟨h.loop, h.calls, (Stage.outside_noErrands h.asked).asked.trans h.asked⟩

theorem Over.moveLoop (h : Over w) (elapsed : Nat) : w.moveLoop elapsed = w.adopt := by
  obtain ⟨outcome, hloop⟩ := h.loop
  refine moveLoop_of_poll ?_
  rw [hloop]
  rfl

theorem Over.moveCall (h : Over w) (index elapsed : Nat) : Over (w.moveCall index elapsed) ∧
    (w.moveCall index elapsed).stage.replies = w.stage.replies ∧
      (w.moveCall index elapsed).stage.outgoing = w.stage.outgoing := by
  cases hc : w.calls[index]? with
  | none =>
    rw [moveCall_of_none hc]
    exact ⟨h, rfl, rfl⟩
  | some c =>
    have hended : c.rest = .done () := h.calls c (List.mem_of_getElem? hc)
    have hmove : w.moveCall index elapsed =
        Counter.adopt { w with calls := w.calls.set index (c.moved elapsed w.stage) } := by
      rw [moveCall_eq hc, if_neg (by simp [Call.halts, hended]), hended]
      rfl
    rw [hmove]
    refine ⟨Over.adopt ⟨h.loop, fun c' hc' => ?_, h.asked⟩, rfl, rfl⟩
    rcases List.mem_or_eq_of_mem_set hc' with hc' | rfl
    · exact h.calls c' hc'
    · show (c.rest.poll elapsed w.stage).2 = _
      rw [hended]
      rfl

theorem written_or_waits (s : Stage) :
    s.writeReply.replies ++ s.writeReply.outgoing = s.replies ++ s.outgoing := by
  cases hout : s.outgoing with
  | nil => rw [Stage.writeReply_nil hout, hout]
  | cons r rest =>
    rw [Stage.writeReply_cons hout]
    exact List.append_assoc ..

theorem Over.apply (h : Over w) (e : Event) : Over (w.apply e) ∧
    (w.apply e).stage.replies ++ (w.apply e).stage.outgoing =
      w.stage.replies ++ w.stage.outgoing := by
  cases e with
  | loop elapsed =>
    rw [show w.apply (.loop elapsed) = w.adopt from h.moveLoop elapsed]
    exact ⟨h.adopt, rfl⟩
  | call index elapsed =>
    obtain ⟨hover, hreplies, houtgoing⟩ := h.moveCall index elapsed
    exact ⟨hover, congrArg₂ _ hreplies houtgoing⟩
  | write =>
    refine ⟨⟨h.loop, h.calls, ?_⟩, written_or_waits w.stage⟩
    exact (congrArg Stage.asked (Stage.silent_writeReply w.stage)).trans h.asked
  | other doing =>
    have hdoing := doing.outside w.stage
    refine ⟨Over.adopt ⟨h.loop, h.calls, hdoing.asked.trans h.asked⟩, ?_⟩
    show (doing.change w.stage).replies ++ (doing.change w.stage).outgoing = _
    rw [hdoing.replies, hdoing.outgoing]

theorem Over.run (h : Over w) (events : List Event) :
    (w.run events).stage.replies ++ (w.run events).stage.outgoing =
      w.stage.replies ++ w.stage.outgoing := by
  induction events generalizing w with
  | nil => rfl
  | cons e events ih =>
    obtain ⟨hnext, hsame⟩ := h.apply e
    exact (ih hnext).trans hsame

/-- When a line between two requests is not text, neither it nor the second request is ever answered;
the service ends with a fault, and the first request may be dropped.  Without that line both are
answered. -/
theorem invalid_line_not_spared :
    let w := start (blankLookup (.ofNat 1) ++ ([0xFF, Service.newline] ++ blankLookup (.ofNat 2))) bareStage
    let w' := start (blankLookup (.ofNat 1) ++ blankLookup (.ofNat 2)) bareStage
    (∀ events, ∀ r ∈ (w.run events).stage.replies ++ (w.run events).stage.outgoing, r.id = .ofNat 1) ∧
      (∃ events, (w.run events).loop = .done (some ⟨0, some 1⟩) ∧
        ∀ more, ((w.run events).run more).stage.replies = []) ∧
      ∃ events, (w'.run events).loop = .done none ∧
        (w'.run events).stage.replies.map (·.id) = [.ofNat 1, .ofNat 2] := by
  have hfirst := plan_blankLookup (.ofNat 1) trivial trivial rfl rfl rfl
  have hsecond := plan_blankLookup (.ofNat 2) trivial trivial rfl rfl rfl
  have hreadable : (Service.plan (blankLookup (.ofNat 1))).fault = none := by rw [hfirst]
  have hcomplete : Service.Complete (blankLookup (.ofNat 1)) := complete_ended _
  have hbroken : Service.plan ([0xFF, Service.newline] ++ blankLookup (.ofNat 2)) =
      ⟨[], some ⟨0, some 1⟩⟩ := by
    have hended : Service.Complete [0xFF, Service.newline] := fun b hb => by
      cases hb
      rfl
    unfold Service.plan
    rw [Service.inputLines_append hended]
    rfl
  have hplan := Service.plan_append ([0xFF, Service.newline] ++ blankLookup (.ofNat 2))
    hcomplete hreadable
  have hplan' := Service.plan_append (blankLookup (.ofNat 2)) hcomplete hreadable
  rw [hfirst, hbroken] at hplan
  rw [hfirst, hsecond] at hplan'
  intro w w'
  have hidle : Idle bareStage := ⟨rfl, rfl, rfl, rfl, rfl⟩
  refine ⟨fun events r hr => ?_, ?_, ?_⟩
  · rcases (sound_run (sound_begin hplan hidle) events).of_mem hr with hm | ⟨request, hm⟩
    · cases List.mem_singleton.mp hm
    · exact (Service.Entry.accepted.inj (List.mem_singleton.mp hm)).1
  · have hstart : w = ⟨bareStage, (takeUpAll [.accepted (.ofNat 1) (.searchSymbol "")]).bind
        fun _ => ending (some ⟨0, some 1⟩), []⟩ :=
      congrArg (Counter.mk bareStage · []) (serve_eq hplan)
    rw [hstart]
    refine ⟨[.loop 0, .loop 0, .call 0 0], rfl, fun more => ?_⟩
    refine (List.append_eq_nil_iff.mp (Over.run ⟨⟨_, rfl⟩, fun c hc => ?_, rfl⟩ more)).1
    rw [List.mem_singleton.mp hc]
    rfl
  · have hstart : w' = ⟨bareStage, (takeUpAll
        [.accepted (.ofNat 1) (.searchSymbol ""), .accepted (.ofNat 2) (.searchSymbol "")]).bind
          fun _ => ending none, []⟩ :=
      congrArg (Counter.mk bareStage · []) (serve_eq hplan')
    rw [hstart]
    exact ⟨List.replicate 2 (.loop 0) ++ List.replicate 2 (.call 0 0) ++
      List.replicate 2 (.call 1 0) ++ List.replicate 2 .write ++ List.replicate 2 (.loop 0),
      rfl, rfl⟩

end Counter

end CodeBridge
