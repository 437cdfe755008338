import CodeBridge.Proofs.Client.Along
import CodeBridge.Proofs.Concurrency.Bounded

/-!
# How long a shutdown goes on

A shutdown comes to its end after a number of moves that the open documents tell.  Where it stays it
waits for no longer than some time, unless there is no room for what it has to say.

* `Full`     a message has to wait until the writer makes room for it;
* `Soon`     what is done on a connection, from its parts on;
* `bounded_shutdown`, `Ending`   a shutdown, and what is left of it along a course.
-/

namespace CodeBridge

namespace Course

open Connection Routine

variable {α β : Type} {n m : Nat}

/-! ## on the connection -/

def Full (c : Connection) : Prop :=
  c.writing = true ∧ capacity ≤ c.senders.line.length + c.outbox.length

theorem full_of_not_admits {c : Connection} {ticket : Nat} (h : c.admits ticket = false) :
    Full c := by
  obtain ⟨hwriting, hroom⟩ := Bool.or_eq_false_iff.mp h
  have hahead : c.senders.ahead ticket ≤ c.senders.line.length :=
    (List.takeWhile_sublist _).length_le
  have := of_decide_eq_false hroom
  exact ⟨by simpa using hwriting, by omega⟩

/-- At most so many moves, whatever others do. -/
def Soon (r : Routine Connection α) (n : Nat) : Prop :=
  ∀ s, Bounded (fun _ _ => True) Full (fun _ _ => True) r n s

theorem Soon.bind {r : Routine Connection α} {f : α → Routine Connection β} (h : Soon r n)
    (hf : ∀ a, Soon (f a) m) : Soon (r.bind f) (n + m) := fun s =>
  (h s).bind (fun _ => trivial) fun a u _ => hf a u

theorem soon_done (a : α) : Soon (.done a) n := fun _ _ _ => trivial

theorem soon_act (f : Connection → α × Connection) : Soon (.act f) 1 := fun _ =>
  bounded_act fun _ _ _ _ => trivial

theorem soon_read (f : Connection → α) : Soon (.read f) 1 := fun _ =>
  bounded_read fun _ _ _ _ => trivial

theorem soon_untilWithin (ready : Connection → Bool) (limit : Nat) :
    Soon (.untilWithin ready limit) 1 := fun _ => bounded_untilWithin fun _ _ _ _ _ => trivial

theorem Soon.ensure {cleanup : Connection → Connection} {r : Routine Connection α} (h : Soon r n) :
    Soon (r.ensure cleanup) (n + 1) := fun s =>
  (h s).ensure (fun _ => trivial) fun _ _ _ _ _ _ _ => trivial

theorem soon_post (message : Outgoing) : Soon (post message) 4 := by
  refine (soon_act joinSenders).bind (m := 3) fun ticket => ?_
  have hturn : Soon (.until_ (admits ticket)) 1 := fun _ =>
    bounded_until fun _ _ => ⟨full_of_not_admits, fun _ _ => trivial⟩
  exact (hturn.bind fun _ => soon_act (enqueue message)).ensure

theorem soon_await (id : UInt64) (method : String) : Soon (await id method) 3 := by
  refine (soon_read (·.callLimit)).bind (m := 2) fun limit => ?_
  refine (soon_untilWithin _ _).bind (m := 1) fun settled => ?_
  cases settled with
  | true => exact soon_read _
  | false => exact soon_done _

theorem soon_exchange (id : UInt64) (method : String) (params : Option Json) :
    Soon (exchange id method params) 8 := by
  refine (soon_read (·.closed)).bind (m := 7) fun closed => ?_
  cases closed with
  | true => exact soon_done _
  | false =>
    refine (soon_post _).bind (m := 3) fun queued => ?_
    cases queued with
    | true => exact soon_await id method
    | false => exact soon_done _

theorem soon_call (method : String) (params : Option Json) :
    Soon (Connection.call method params).run 10 :=
  (soon_act register).bind fun id => (soon_exchange id method params).ensure

/-- What others do: they leave the lock and the documents alone. -/
def Aside (c c' : Client) : Prop := c'.lock = c.lock ∧ c'.openDocs = c.openDocs

theorem aside_refl (c : Client) : Aside c c := ⟨rfl, rfl⟩

theorem aside_trans (c c' c'' : Client) (h : Aside c c') (h' : Aside c' c'') : Aside c c'' :=
  ⟨h'.1.trans h.1, h'.2.trans h.2⟩

/-- Who is in the line of the lock, and how many documents are open at most. -/
def Holding (line : List Nat) (docs : Nat) (c : Client) : Prop :=
  c.lock.line = line ∧ c.openDocs.length ≤ docs

/-- So many moves of a client, when so many documents are open. -/
def Brief (line line' : List Nat) (docs : Nat) (r : Routine Client α) (n : Nat) : Prop :=
  ∀ c, Holding line docs c →
    Bounded Aside (fun c => Full c.connection) (fun _ => Holding line' docs) r n c

section
variable {line line' line'' : List Nat} {docs : Nat}

theorem Holding.aside {c c' : Client} (h : Holding line docs c) (ha : Aside c c') :
    Holding line docs c' :=
  ⟨(congrArg Lock.line ha.1).trans h.1, (congrArg List.length ha.2).trans_le h.2⟩

theorem Brief.bind {r : Routine Client α} {f : α → Routine Client β}
    (h : Brief line line' docs r n) (hf : ∀ a, Brief line' line'' docs (f a) m) :
    Brief line line'' docs (r.bind f) (n + m) := fun c hc =>
  (h c hc).bind aside_refl fun a u hu => hf a u hu

theorem brief_done (a : α) : Brief line line docs (.done a) n := fun _ hc =>
  bounded_done fun _ => hc.aside

theorem brief_look (f : Client → α) : Brief line line docs (.read f) 1 := fun _ hc =>
  bounded_read fun _ hu _ hv => (hc.aside hu).aside hv

theorem brief_link {r : Routine Connection α} (h : Soon r n) :
    Brief line line docs (Client.onConnection r) n := by
  have hset (k : Connection) (c : Client) (hc : Holding line docs c) :
      Holding line docs (c.setConnection k) := hc
  have hrely (c c' : Client) (hc : Holding line docs c) (ha : Aside c c') : Holding line docs c' :=
    hc.aside ha
  exact fun c hc => Bounded.zoom (h c.connection) hrely hset hc

theorem brief_locked {body : Routine Client α} (h : ∀ ticket, Brief [ticket] [ticket] docs body n) :
    Brief [] [] docs (Client.locked body) (1 + (1 + n + 1)) := by
  have hjoin (c : Client) (hc : Holding [] docs c) :
      Bounded Aside (fun c => Full c.connection) (fun ticket => Holding [ticket] docs)
        (act fun c : Client => (c.lock.join.1, c.setLock c.lock.join.2)) 1 c := by
    refine bounded_act fun u hu v hv => ?_
    have hline : Holding [u.lock.issued] docs (u.setLock u.lock.join.2) := by
      refine ⟨?_, (hc.aside hu).2⟩
      show u.lock.line ++ _ = _
      rw [(hc.aside hu).1]
      rfl
    exact hline.aside hv
  have hturn (ticket : Nat) : Brief [ticket] [ticket] docs
      (until_ fun c : Client => c.lock.holds ticket) 1 := fun c hc => by
    refine bounded_until fun u hu => ⟨fun hr => ?_, fun v hv => (hc.aside hu).aside hv⟩
    have hholds := (Lock.holds_iff _ ticket).mpr ⟨[], (hc.aside hu).1⟩
    exact absurd (hholds.symm.trans hr) nofun
  refine fun c hc => (hjoin c hc).bind aside_refl fun ticket u hu => ?_
  refine (((hturn ticket).bind fun _ => h ticket) u hu).ensure aside_refl fun a v hv w hw x hx => ?_
  have hleave : Holding [] docs (w.setLock (w.lock.leave ticket)) := by
    refine ⟨?_, (hv.aside hw).2⟩
    show w.lock.line.filter (· ≠ ticket) = []
    rw [(hv.aside hw).1]
    exact List.filter_cons_of_neg (by simp)
  exact hleave.aside hx

end

end Course

end CodeBridge
