import CodeBridge.Connection.Basic

/-!
# Messages in the queue

* `queued`    the messages that wait for the writer;
* `passing`   what the writer will have written when it has taken its turn;
* `exited_eq`, `kill_eq`   the queue is left as it is when the process goes.
-/

namespace CodeBridge

def Outgoing.message? : Outgoing → Option Json
  | .message v => some v
  | .stop => none

namespace Connection

def queued (c : Connection) : List Json := c.outbox.filterMap Outgoing.message?

/-- What the writer will have written when it has taken its turn. -/
def passing (c : Connection) : List Json :=
  match c.outbox with
  | .message v :: _ => if c.listening then [v] else []
  | _ => []

theorem outbox_enqueue (message : Outgoing) (c : Connection) :
    (c.enqueue message).2.outbox = c.outbox ++ if c.writing then [message] else [] := by
  unfold enqueue
  cases c.writing with
  | true => rfl
  | false => exact (List.append_nil _).symm

theorem enqueue_rest (message : Outgoing) (c : Connection) :
    { (c.enqueue message).2 with outbox := c.outbox } = c := by
  unfold enqueue
  split <;> rfl

theorem queued_append {c c' : Connection} {more : List Outgoing}
    (h : c'.outbox = c.outbox ++ more) :
    c'.queued = c.queued ++ more.filterMap Outgoing.message? := by
  unfold queued
  rw [h, List.filterMap_append]

/-! ## the end of the process -/

theorem exited_eq (c : Connection) :
    c.exited = { c with inboundEnded := true, listening := false, alive := false } := rfl

theorem kill_eq (c : Connection) : c.kill =
    { c with inboundEnded := true, listening := false, alive := false, killed := true } := rfl

end Connection

end CodeBridge
