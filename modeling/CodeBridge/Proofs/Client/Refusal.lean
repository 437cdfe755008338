import CodeBridge.Proofs.Client.Along
import CodeBridge.Proofs.Concurrency.Prompt

/-!
# Operations out of their time

An operation that needs a client in another state of its lifecycle is refused: it comes to its end
after a few moves, says nothing and changes nothing.

* `refusal?`           what an operation is refused with;
* `promptly_refused`   it takes the lock, looks at the lifecycle and lets go of the lock;
* `Refuses`            nothing comes of the operation but its fault: `refuses`.
-/

namespace CodeBridge

namespace ClientStep

def isHandshake : ClientStep → Bool
  | handshake _ => true
  | _ => false

def needsInitialized : ClientStep → Bool
  | handshake _ | terminate | lifecycle | capabilities | closeDocument _ | isOpen _ | openDocuments
  | diagnostics _ | awaitDiagnostics .. => false
  | _ => true

def refusal? (step : ClientStep) (life : Lifecycle) : Option ClientError :=
  if step.isHandshake then
    match life with
    | .uninitialized => none
    | .initialized => some .alreadyInitialized
    | .shutDown => some .shutDown
  else if step.needsInitialized then
    match life with
    | .uninitialized => some .notInitialized
    | .initialized => none
    | .shutDown => some .shutDown
  else none

variable {step : ClientStep} {life : Lifecycle} {fault : ClientError}

theorem exists_of_isHandshake (h : step.isHandshake = true) : ∃ uri, step = .handshake uri := by
  cases step with
  | handshake uri => exact ⟨uri, rfl⟩
  | _ => exact nomatch h

theorem requireFresh_of_refusal (hs : step.isHandshake = true)
    (h : step.refusal? life = some fault) : life.requireFresh = .error fault := by
  unfold refusal? at h
  rw [if_pos hs] at h
  cases life with
  | uninitialized => cases h
  | initialized =>
    obtain rfl := Option.some.inj h
    rfl
  | shutDown =>
    obtain rfl := Option.some.inj h
    rfl

/-- Only what needs an initialized client is refused besides the handshake. -/
theorem requireInitialized_of_refusal (hs : step.isHandshake = false)
    (h : step.refusal? life = some fault) :
    step.needsInitialized = true ∧ life.requireInitialized = .error fault := by
  unfold refusal? at h
  rw [if_neg (Bool.eq_false_iff.mp hs)] at h
  split at h
  next hneeds =>
    refine ⟨hneeds, ?_⟩
    cases life with
    | initialized => cases h
    | uninitialized =>
      obtain rfl := Option.some.inj h
      rfl
    | shutDown =>
      obtain rfl := Option.some.inj h
      rfl
  · cases h

end ClientStep

namespace Course

open Routine

/-! ## the moves of a refused operation -/

/-- What others do: they leave the lifecycle and the lock alone. -/
def Aloof (c c' : Client) : Prop := c'.lifecycle = c.lifecycle ∧ c'.lock = c.lock

/-- Only the lock is changed. -/
def LocksOnly (c c' : Client) : Prop := c'.setLock {} = c.setLock {}

theorem aloof_refl (c : Client) : Aloof c c := ⟨rfl, rfl⟩

theorem locksOnly_refl (c : Client) : LocksOnly c c := rfl

section
variable {α : Type} {life : Lifecycle} {fault : ClientError}

def Line (life : Lifecycle) (line : List Nat) (c : Client) : Prop :=
  c.lifecycle = life ∧ c.lock.line = line

theorem Line.aloof {line : List Nat} {c c' : Client} (h : Line life line c) (ha : Aloof c c') :
    Line life line c' :=
  ⟨ha.1.trans h.1, (congrArg Lock.line ha.2).trans h.2⟩

theorem promptly_locked {body : Routine Client α} {φ : α → Prop} {n : Nat} {c : Client}
    (hbody : ∀ ticket u, Line life [ticket] u →
      Promptly Aloof LocksOnly (fun a u => φ a ∧ Line life [ticket] u) body n u)
    (hc : Line life [] c) :
    Promptly Aloof LocksOnly (fun a u => φ a ∧ Line life [] u) (Client.locked body)
      (1 + (n + 1) + 1) c := by
  have hjoin : Promptly Aloof LocksOnly (fun ticket => Line life [ticket])
      (act fun c : Client => (c.lock.join.1, c.setLock c.lock.join.2)) 1 c := by
    refine promptly_act fun u hu => ⟨rfl, fun v hv => ?_⟩
    have hline : Line life [u.lock.issued] (u.setLock u.lock.join.2) := by
      refine ⟨(hc.aloof hu).1, ?_⟩
      show u.lock.line ++ _ = _
      rw [(hc.aloof hu).2]
      rfl
    exact hline.aloof hv
  refine hjoin.bind aloof_refl fun ticket u hu => ?_
  have hturn : Promptly Aloof LocksOnly (fun _ => Line life [ticket])
      (until_ fun c : Client => c.lock.holds ticket) 1 u := by
    refine promptly_until fun v hv => ⟨?_, fun w hw => (hu.aloof hv).aloof hw⟩
    exact (Lock.holds_iff _ _).mpr ⟨[], (hu.aloof hv).2⟩
  refine (hturn.bind aloof_refl fun _ v hv => hbody ticket v hv).ensure aloof_refl
    fun a v hv w hw => ⟨rfl, fun x hx => ⟨hv.1, ?_⟩⟩
  have hleave : Line life [] (w.setLock (w.lock.leave ticket)) := by
    refine ⟨(hv.2.aloof hw).1, ?_⟩
    show w.lock.line.filter (· ≠ ticket) = []
    rw [(hv.2.aloof hw).2]
    exact List.filter_cons_of_neg (by simp)
  exact hleave.aloof hx

theorem promptly_look {f : Client → α} {φ : α → Prop}
    (h : ∀ u, u.lifecycle = life → φ (f u)) {line : List Nat} {c : Client} (hc : Line life line c) :
    Promptly Aloof LocksOnly (fun a u => φ a ∧ Line life line u) (Routine.read f) 1 c :=
  promptly_read locksOnly_refl fun u hu _ hv =>
    ⟨h u (hc.aloof hu).1, (hc.aloof hu).aloof hv⟩

theorem promptly_result {a : α} {φ : α → Prop} (h : φ a) {line : List Nat} {c : Client}
    (hc : Line life line c) :
    Promptly Aloof LocksOnly (fun a u => φ a ∧ Line life line u) (.done a) 0 c :=
  promptly_done fun _ hu => ⟨h, hc.aloof hu⟩

def Refused (fault : ClientError) (result : Except ClientError α) : Prop := result = .error fault

/-- What is done with the lock comes to nothing when the lifecycle does not allow it. -/
theorem promptly_gate {next : Client → Routine Client (Except ClientError α)}
    (hnext : ∀ u, u.lifecycle = life → next u = .done (.error fault)) {c : Client}
    (hc : Line life [] c) :
    Promptly Aloof LocksOnly (fun a u => Refused fault a ∧ Line life [] u)
      (Client.locked ((Routine.read id).bind next)) (1 + ((0 + 1) + 1) + 1) c := by
  refine promptly_locked (fun ticket u hu => ?_) hc
  refine (promptly_look (φ := fun v => v.lifecycle = life) (fun _ h => h) hu).bind aloof_refl
    fun v w hw => ?_
  rw [hnext v hw.1]
  exact promptly_result rfl hw.2

theorem promptly_request (hlife : life.requireInitialized = .error fault) (method : String)
    (params : Json) (read : Json → Decoded α) {c : Client} (hc : Line life [] c) :
    Promptly Aloof LocksOnly (fun a u => Refused fault a ∧ Line life [] u)
      (Client.request method params read) (0 + (1 + (1 + 1) + 1)) c := by
  have hlook : Promptly Aloof LocksOnly (fun l u => l = life ∧ Line life [] u)
      (Client.locked (.read (·.lifecycle))) (1 + (1 + 1) + 1) c :=
    promptly_locked (fun _ _ hu => promptly_look (fun _ h => h) hu) hc
  refine hlook.bind aloof_refl fun l u hu => ?_
  rw [hu.1, hlife]
  exact promptly_result rfl hu.2

theorem promptly_rename (hlife : life.requireInitialized = .error fault) (uri : String)
    (position : Position) (newName : String) {c : Client} (hc : Line life [] c) :
    Promptly Aloof LocksOnly (fun a u => Refused fault a ∧ Line life [] u)
      (Client.rename uri position newName) (0 + (0 + (1 + (1 + 1) + 1))) c := by
  refine (promptly_request hlife "textDocument/prepareRename" (Params.atPosition uri position)
    readPrepareRename hc).bind aloof_refl fun prepared u hu => ?_
  have hfault : fault.isLifecycle = true := by
    cases life with
    | initialized => cases hlife
    | uninitialized =>
      obtain rfl := Except.error.inj hlife
      rfl
    | shutDown =>
      obtain rfl := Except.error.inj hlife
      rfl
  rw [show prepared = .error fault from hu.1]
  show Promptly _ _ _ (if fault.isLifecycle = true then Routine.done (Except.error fault) else _) 0 u
  rw [if_pos hfault]
  exact promptly_result rfl hu.2

theorem promptly_format (hlife : life.requireInitialized = .error fault) (uri : String) {c : Client}
    (hc : Line life [] c) :
    Promptly Aloof LocksOnly (fun a u => Refused fault a ∧ Line life [] u)
      (Client.format uri) (0 + (1 + (1 + 1) + 1) + 1) c :=
  (promptly_look (φ := fun _ => True) (fun _ _ => trivial) hc).bind aloof_refl fun _ _ hu =>
    promptly_request hlife _ _ _ hu.2

theorem promptly_report {r : Routine Client (Except ClientError α)} {toJson : α → Json} {n : Nat}
    {c : Client}
    (h : Promptly Aloof LocksOnly (fun a u => Refused fault a ∧ Line life [] u) r n c) :
    Promptly Aloof LocksOnly (fun a u => a = .fault fault ∧ Line life [] u)
      (r.report (.ofExcept toJson)) (0 + n) c := by
  refine h.bind aloof_refl fun a u hu => promptly_result ?_ hu.2
  rw [show a = .error fault from hu.1]
  rfl

end

/-- Whoever is refused takes the lock, looks at the lifecycle and lets go of the lock. -/
theorem promptly_refused {step : ClientStep} {life : Lifecycle} {fault : ClientError}
    (h : step.refusal? life = some fault) : ∃ n, 0 < n ∧ n ≤ 5 ∧ ∀ c, Line life [] c →
      Promptly Aloof LocksOnly (fun a u => a = .fault fault ∧ Line life [] u) step.routine n c := by
  cases hs : step.isHandshake with
  | true =>
    obtain ⟨uri, rfl⟩ := ClientStep.exists_of_isHandshake hs
    have hlife := ClientStep.requireFresh_of_refusal hs h
    refine ⟨4, by decide, by decide, fun c hc => promptly_report (promptly_gate (fun u hu => ?_) hc)⟩
    rw [hu, hlife]
    rfl
  | false =>
    obtain ⟨hneeds, hlife⟩ := ClientStep.requireInitialized_of_refusal hs h
    cases step with
    | shutdown =>
      refine ⟨4, by decide, by decide, fun c hc => promptly_report (promptly_gate (fun u hu => ?_) hc)⟩
      rw [hu, hlife]
      rfl
    | openDocument uri text =>
      refine ⟨4, by decide, by decide, fun c hc => promptly_report (promptly_gate (fun u hu => ?_) hc)⟩
      rw [hu, hlife]
      rfl
    | rename uri position newName =>
      exact ⟨4, by decide, by decide, fun c hc => promptly_report (promptly_rename hlife _ _ _ hc)⟩
    | format uri =>
      exact ⟨5, by decide, by decide, fun c hc => promptly_report (promptly_format hlife _ hc)⟩
    | _ =>
      first
        | exact ⟨4, by decide, by decide, fun c hc =>
            promptly_report (promptly_request hlife _ _ _ hc)⟩
        | exact nomatch hneeds

/-! ## what comes of it -/

/-- Nothing comes of the operation but its fault, after at most five moves: apart from that all is
as if it had not been begun. -/
def Refuses (w : Course) (step : ClientStep) (fault : ClientError) : Prop :=
  ∃ n ≤ 5, ∀ events : List Event, (∀ e ∈ events, e.isBegin = false) →
    (w.run (.begin step :: events)).client.setLock {} = (w.run events).client.setLock {} ∧
    (w.run (.begin step :: events)).written = (w.run events).written ∧
    (w.run (.begin step :: events)).own = w.own ++ .begun step ::
      if n ≤ events.countP Event.isGo then [.ended step (.fault fault)] else []

/-- A course with a refused operation that has so many moves left, and the same without it. -/
structure Shadow (before : List Item) (step : ClientStep) (life : Lifecycle) (fault : ClientError)
    (n : Nat) (w v : Course) : Prop where
  idle : v.current = none
  client : LocksOnly v.client w.client
  written : w.written = v.written
  ended : n = 0 → w.current = none ∧ w.own = before ++ [.begun step, .ended step (.fault fault)]
  going : ∀ m, n = m + 1 → w.own = before ++ [.begun step] ∧ ∃ r, w.current = some (step, r) ∧
    Promptly Aloof LocksOnly (fun a u => a = .fault fault ∧ Line life [] u) r n w.client

theorem happen_setLock (c : Client) (l : Lock) (e : Event) :
    e.happen (c.setLock l) = (e.happen c).setLock l := by
  cases e with
  | read =>
    show (if c.connection.canRead then _ else _) = (if c.connection.canRead then _ else _ : Client).setLock l
    split
    · rw [readNext_eq, readNext_eq]
      rfl
    · rfl
  | write =>
    show (if c.connection.canWrite then _ else _) =
      (if c.connection.canWrite then _ else _ : Client).setLock l
    split <;> rfl
  | _ => rfl

theorem aloof_happen (c : Client) (e : Event) : Aloof c (e.happen c) :=
  have h := kept_happen c [] e
  ⟨h.lifecycle, h.lock⟩

theorem own_notes (w : Course) (e : Event) :
    (w.items ++ e.notes w.client).filter Item.isOwn = w.own := by
  have hnone : (e.notes w.client).filter Item.isOwn = [] :=
    List.filter_eq_nil_iff.mpr fun i hi => Bool.eq_false_iff.mp (isOwn_notes hi)
  rw [List.filter_append, hnone, List.append_nil]
  rfl

section
variable {before : List Item} {step : ClientStep} {life : Lifecycle} {fault : ClientError} {n : Nat}
  {w v : Course}

theorem aloof_trans (c c' c'' : Client) (h : Aloof c c') (h' : Aloof c' c'') : Aloof c c'' :=
  ⟨h'.1.trans h.1, h'.2.trans h.2⟩

theorem Shadow.around (h : Shadow before step life fault n w v) {e : Event}
    (hb : e.isBegin = false) (hg : e.isGo = false) :
    Shadow before step life fault n (w.apply e) (v.apply e) := by
  rw [apply_around hb hg, apply_around hb hg]
  have hlock : LocksOnly (e.happen v.client) (e.happen w.client) := by
    unfold LocksOnly
    rw [← happen_setLock, ← happen_setLock]
    exact congrArg e.happen h.client
  have hconnection : w.client.connection = v.client.connection :=
    (congrArg Client.connection (show _ = _ from h.client) :)
  refine ⟨h.idle, hlock, ?_, fun hn => ?_, fun m hn => ?_⟩
  · show w.written ++ _ = v.written ++ _
    rw [h.written, hconnection]
  · exact ⟨(h.ended hn).1, (own_notes w e).trans (h.ended hn).2⟩
  · obtain ⟨hown, r, hcur, hr⟩ := h.going m hn
    exact ⟨(own_notes w e).trans hown, r, hcur, hr.rely aloof_trans (aloof_happen _ e)⟩

theorem Shadow.go (h : Shadow before step life fault n w v) (elapsed : Nat) :
    Shadow before step life fault (n - 1) (w.go elapsed) v := by
  cases n with
  | zero =>
    rw [go_of_idle (h.ended rfl).1]
    exact h
  | succ n =>
    obtain ⟨hown, r, hcur, hr⟩ := h.going n rfl
    obtain ⟨hlock, hrest⟩ := hr.poll aloof_refl locksOnly_refl elapsed
    have hconnection : (r.poll elapsed w.client).1.connection = w.client.connection :=
      (congrArg Client.connection (show _ = _ from hlock) :)
    have houtbox : (r.poll elapsed w.client).1.connection.outbox = w.client.connection.outbox ++ [] := by
      rw [hconnection, List.append_nil]
    have hadded : added w.client (r.poll elapsed w.client).1 = [] := added_append houtbox
    rw [go_of_current hcur, hadded, Nat.add_sub_cancel]
    refine ⟨h.idle, hlock.trans h.client, h.written, fun hn => ?_, fun m hn => ?_⟩
    · subst hn
      obtain ⟨a, ha, hq⟩ := hrest.eq_done aloof_refl
      rw [ha, hq.1]
      refine ⟨rfl, ?_⟩
      show (w.items ++ [] ++ [Item.ended step (.fault fault)]).filter Item.isOwn = _
      rw [List.append_nil, List.filter_append, show w.items.filter _ = _ from hown,
        List.append_assoc]
      rfl
    · subst hn
      rw [outcome_of_ne_done hrest.ne_done]
      refine ⟨?_, _, rfl, hrest⟩
      show (w.items ++ [] ++ []).filter Item.isOwn = _
      rw [List.append_nil, List.append_nil]
      exact hown

theorem Shadow.run (h : Shadow before step life fault n w v) {events : List Event}
    (he : ∀ e ∈ events, e.isBegin = false) :
    Shadow before step life fault (n - events.countP Event.isGo) (w.run events) (v.run events) := by
  induction events generalizing n w v with
  | nil => exact h
  | cons e events ih =>
    have hb := he e List.mem_cons_self
    have hrest : ∀ e ∈ events, e.isBegin = false := fun e hm => he e (List.mem_cons_of_mem _ hm)
    cases hg : e.isGo with
    | false =>
      rw [List.countP_cons_of_neg (Bool.eq_false_iff.mp hg)]
      exact ih (h.around hb hg) hrest
    | true =>
      rw [List.countP_cons_of_pos hg, Nat.add_comm, Nat.sub_add_eq]
      cases e with
      | go elapsed =>
        have hidle : v.apply (.go elapsed) = v := go_of_idle h.idle elapsed
        show Shadow _ _ _ _ _ ((w.go elapsed).run events) ((v.apply (.go elapsed)).run events)
        rw [hidle]
        exact ih (h.go elapsed) hrest
      | _ => cases hg

theorem refuses (hidle : w.current = none) (hline : w.client.lock.line = [])
    (h : step.refusal? w.client.lifecycle = some fault) : Refuses w step fault := by
  obtain ⟨n, hpos, hle, hprompt⟩ := promptly_refused h
  obtain ⟨m, rfl⟩ := Nat.exists_eq_succ_of_ne_zero (Nat.pos_iff_ne_zero.mp hpos)
  refine ⟨m + 1, hle, fun events he => ?_⟩
  have hbegin : Shadow w.own step w.client.lifecycle fault (m + 1) (w.apply (.begin step)) w := by
    rw [begin_of_idle hidle]
    refine ⟨hidle, rfl, rfl, nofun, fun k _ => ⟨?_, _, rfl, hprompt _ ⟨rfl, hline⟩⟩⟩
    exact List.filter_append ..
  have hrun := hbegin.run he
  refine ⟨hrun.client, hrun.written, ?_⟩
  show ((w.apply (.begin step)).run events).own = _
  by_cases hn : m + 1 ≤ events.countP Event.isGo
  · rw [if_pos hn]
    exact (hrun.ended (Nat.sub_eq_zero_of_le hn)).2
  · rw [if_neg hn]
    exact (hrun.going (m - events.countP Event.isGo) (by omega)).1

end

end Course

end CodeBridge
