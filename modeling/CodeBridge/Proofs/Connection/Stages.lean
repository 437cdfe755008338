import CodeBridge.Connection.Call
import CodeBridge.Proofs.Concurrency.Ends

/-!
# The stages of a call

A call that has its entry in the table of pending calls looks whether the connection is dead, takes
its turn among the senders, queues its request, waits, and takes its entry away.

* `Stage`        how far a call is;
* `Stage.rest`   what is left of `call` there;
* `poll_rest`    a move leads to the next stage: `act` is what it does, `next` where it leads to.
-/

namespace CodeBridge.Connection

open Routine

inductive Stage where
  /-- it has its entry and nothing more -/
  | entered
  /-- the connection was not dead -/
  | sending
  /-- it stays among the senders -/
  | posting (ticket : Nat)
  | queueing (ticket : Nat)
  | posted (ticket : Nat) (queued : Bool)
  | timing
  /-- it stays until there is an answer -/
  | waiting (limit : UInt64)
  | settled
  /-- it has a result, and its entry still -/
  | leaving (result : Except ClientError Json)
  | finished (result : Except ClientError Json)

namespace Stage

section
variable (id : UInt64) (method : String) (params : Option Json)

def outgoing : Outgoing := .message (Message.request id method params)

/-- What follows the queueing. -/
def answered (queued : Bool) : Routine Connection (Except ClientError Json) :=
  if queued then await id method else .done (.error .connectionClosed)

/-- What follows the wait. -/
def concluded (limit : UInt64) (isSettled : Bool) : Routine Connection (Except ClientError Json) :=
  if isSettled then Routine.read (outcome id method) else .done (.error (.timeout method limit))

/-- What follows the look at the connection. -/
def checked (closed : Bool) : Routine Connection (Except ClientError Json) :=
  if closed then .done (.error .connectionClosed)
  else (post (outgoing id method params)).bind (answered id method)

def rest : Stage → Routine Connection (Except ClientError Json)
  | entered => ensure (forget id) (exchange id method params)
  | sending => ensure (forget id) ((post (outgoing id method params)).bind (answered id method))
  | posting ticket =>
    ensure (forget id) <| Routine.bind
      (ensure (leaveSenders ticket) <| Routine.bind (until_ (admits ticket)) fun _ =>
        Routine.act (enqueue (outgoing id method params)))
      (answered id method)
  | queueing ticket =>
    ensure (forget id) <| Routine.bind
      (ensure (leaveSenders ticket) (Routine.act (enqueue (outgoing id method params))))
      (answered id method)
  | posted ticket queued =>
    ensure (forget id) <| Routine.bind (ensure (leaveSenders ticket) (.done queued))
      (answered id method)
  | timing => ensure (forget id) (await id method)
  | waiting limit =>
    ensure (forget id) <| Routine.bind (untilWithin (·.settled id) (milliseconds limit))
      (concluded id method limit)
  | settled => ensure (forget id) (Routine.read (outcome id method))
  | leaving result => ensure (forget id) (.done result)
  | finished result => .done result

def act (c : Connection) : Stage → Connection
  | sending => c.joinSenders.2
  | queueing _ => (c.enqueue (outgoing id method params)).2
  | posted ticket _ => c.leaveSenders ticket
  | leaving _ => c.forget id
  | _ => c

def next (elapsed : Nat) (c : Connection) : Stage → Stage
  | entered => if c.closed then leaving (.error .connectionClosed) else sending
  | sending => posting c.joinSenders.1
  | posting ticket => if c.admits ticket then queueing ticket else posting ticket
  | queueing ticket => posted ticket (c.enqueue (outgoing id method params)).1
  | posted _ queued => if queued then timing else leaving (.error .connectionClosed)
  | timing => waiting c.callLimit
  | waiting limit =>
    if c.settled id then settled
    else if milliseconds limit ≤ elapsed then leaving (.error (.timeout method limit))
    else waiting limit
  | settled => leaving (outcome id method c)
  | leaving result => finished result
  | finished result => finished result

theorem poll_rest (elapsed : Nat) (c : Connection) (s : Stage) :
    (s.rest id method params).poll elapsed c =
      (s.act id method params c, (s.next id method params elapsed c).rest id method params) := by
  cases s with
  | entered =>
    have hpoll : (rest id method params entered).poll elapsed c =
        (c, ensure (forget id) (checked id method params c.closed)) := rfl
    rw [hpoll]
    unfold checked next
    split <;> rfl
  | posting ticket =>
    cases ha : c.admits ticket with
    | true =>
      have hnext : next id method params elapsed c (posting ticket) = queueing ticket := if_pos ha
      rw [hnext]
      exact poll_of_ready ha
    | false =>
      have hnext : next id method params elapsed c (posting ticket) = posting ticket :=
        if_neg (Bool.eq_false_iff.mp ha)
      rw [hnext]
      exact poll_of_neither ha rfl
  | posted ticket queued => cases queued <;> rfl
  | waiting limit =>
    cases ha : c.settled id with
    | true =>
      have hnext : next id method params elapsed c (waiting limit) = settled := if_pos ha
      rw [hnext]
      exact poll_of_ready ha
    | false =>
      have hready : ¬ c.settled id = true := Bool.eq_false_iff.mp ha
      by_cases hlate : milliseconds limit ≤ elapsed
      · have hnext : next id method params elapsed c (waiting limit) =
            leaving (.error (.timeout method limit)) := (if_neg hready).trans (if_pos hlate)
        rw [hnext]
        exact (if_neg hready).trans (if_pos hlate)
      · have hnext : next id method params elapsed c (waiting limit) = waiting limit :=
          (if_neg hready).trans (if_neg hlate)
        rw [hnext]
        exact (if_neg hready).trans (if_neg hlate)
  | _ => rfl

theorem abandoned_rest {c c' : Connection} {s : Stage}
    (h : (s.rest id method params).abandoned c = some c') :
    (∃ ticket, s = posting ticket ∧ c' = (c.leaveSenders ticket).forget id) ∨
      (∃ limit, s = waiting limit ∧ c' = c.forget id) := by
  cases s with
  | posting ticket => exact .inl ⟨ticket, rfl, (Option.some.inj h).symm⟩
  | waiting limit => exact .inr ⟨limit, rfl, (Option.some.inj h).symm⟩
  | _ => cases h

end

end Stage

/-! ## how long it takes -/

section
variable {P : Connection → Prop}

theorem endsWithin_post (message : Outgoing) : (post message).EndsWithin P 4 := by
  refine endsWithin_act.bind (m := 3) fun ticket => ?_
  have hbody : (Routine.bind (until_ (admits ticket)) fun _ =>
      Routine.act (enqueue message)).EndsWithin P 2 :=
    endsWithin_until.bind fun _ => endsWithin_act
  exact hbody.ensure

theorem endsWithin_await (id : UInt64) (method : String) : (await id method).EndsWithin P 3 := by
  refine endsWithin_read.bind (m := 2) fun limit => ?_
  refine endsWithin_untilWithin.bind (m := 1) fun isSettled => ?_
  cases isSettled with
  | true => exact endsWithin_read
  | false => exact endsWithin_done _

theorem endsWithin_exchange (id : UInt64) (method : String) (params : Option Json) :
    (exchange id method params).EndsWithin P 8 := by
  refine endsWithin_read.bind (m := 7) fun closed => ?_
  cases closed with
  | true => exact endsWithin_done _
  | false =>
    refine (endsWithin_post _).bind (m := 3) fun queued => ?_
    cases queued with
    | true => exact endsWithin_await id method
    | false => exact endsWithin_done _

end

end CodeBridge.Connection
