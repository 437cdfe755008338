import CodeBridge.Connection.Call
import CodeBridge.Proofs.Concurrency.Kinds

/-!
# What the moves on a connection have in common

A relation that every smallest operation of a call, a notification or a closing respects is respected
by all of its moves, and when it is dropped.
-/

namespace CodeBridge.Connection

open Routine

/-- What a sender does until it has its turn respects `R`. -/
structure Queues (R : Connection → Connection → Prop) : Prop where
  refl : ∀ c, R c c
  trans : ∀ {c c' c''}, R c c' → R c' c'' → R c c''
  join : ∀ c, R c c.joinSenders.2
  leave : ∀ ticket c, R c (c.leaveSenders ticket)

section
variable {R : Connection → Connection → Prop} (h : Queues R)
include h

theorem movesBy_post {message : Outgoing} (hq : ∀ c, R c (c.enqueue message).2) :
    (post message).MovesBy R := by
  refine (movesBy_act h.join).bind fun ticket => ?_
  have hbody : ((until_ (admits ticket)).bind fun _ => act (enqueue message)).MovesBy R :=
    (movesBy_until h.refl).bind fun _ => movesBy_act hq
  exact hbody.ensure h.refl fun _ c' hc => h.trans hc (h.leave ticket c')

theorem movesBy_notify {method : String} {params : Option Json}
    (hq : ∀ c, R c (c.enqueue (.message (Message.notification method params))).2) :
    (notify method params).run.MovesBy R := by
  refine (movesBy_read h.refl).bind fun closed => ?_
  cases closed with
  | true => exact movesBy_done _
  | false =>
    refine (movesBy_post h hq).bind fun queued => ?_
    cases queued with
    | true => exact movesBy_done _
    | false => exact movesBy_done _

theorem movesBy_await (id : UInt64) (method : String) : (await id method).MovesBy R := by
  refine (movesBy_read h.refl).bind fun limit => ?_
  refine (movesBy_untilWithin h.refl).bind fun settled => ?_
  cases settled with
  | true => exact movesBy_read h.refl
  | false => exact movesBy_done _

theorem movesBy_exchange {id : UInt64} {method : String} {params : Option Json}
    (hq : ∀ c, R c (c.enqueue (.message (Message.request id method params))).2) :
    (exchange id method params).MovesBy R := by
  refine (movesBy_read h.refl).bind fun closed => ?_
  cases closed with
  | true => exact movesBy_done _
  | false =>
    refine (movesBy_post h hq).bind fun queued => ?_
    cases queued with
    | true => exact movesBy_await h id method
    | false => exact movesBy_done _

theorem movesBy_reap (grace : Nat) (hclaim : ∀ c, R c c.claimProcess.2)
    (hkill : ∀ c, R c c.tryKill.2) : (reap grace).MovesBy R := by
  refine (movesBy_act hclaim).bind fun mine => ?_
  cases mine with
  | false => exact movesBy_done _
  | true =>
    refine (movesBy_untilWithin h.refl).bind fun gone => ?_
    cases gone with
    | false => exact movesBy_act hkill
    | true =>
      refine (movesBy_read h.refl).bind fun result => ?_
      cases result with
      | ok u => exact movesBy_done _
      | error fault => exact (movesBy_act hkill).bind fun _ => movesBy_done _

theorem movesBy_close (grace : Nat) (hstop : ∀ c, R c (c.enqueue .stop).2)
    (hclaim : ∀ c, R c c.claimProcess.2) (hkill : ∀ c, R c c.tryKill.2)
    (hshut : ∀ c, R c c.shut) : (close grace).MovesBy R := by
  refine (movesBy_post h hstop).bind fun _ => ?_
  refine (movesBy_reap h grace hclaim hkill).bind fun result => ?_
  exact (movesBy_change hshut).bind fun _ => movesBy_done result

end

end CodeBridge.Connection
