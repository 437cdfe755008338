import CodeBridge.Proofs.Client.Around

/-!
# What an operation says

The parts that operations are made of, with what each of them queues and what it ends in, whatever
goes on around it.

* `Law`, `pact`     what may be noted, and what an operation keeps to;
* `knows`           who is in the line of the lock, what is so of the client, and what of the table;
* `owes_say`, `owes_notify`, `owes_call`   messages, `Called` being what the result of a call says;
* `owes_close`, `owes_locked`              the end of the connection, and parts with the lock.
-/

namespace CodeBridge

namespace Course

open Connection Pact

variable {α β : Type}

/-! ## moves -/

/-- Which notes are allowed; those that are no operation's own always are. -/
structure Law where
  Allows : List Item → Prop
  outside : ∀ {a b : List Item}, (∀ i ∈ b, i.isOwn = false) → Allows a → Allows (a ++ b)

structure Move (w w' : World) : Prop where
  items : w'.2 = w.2 ++ (added w.1 w'.1).map .told
  rank : w.1.lifecycle.rank ≤ w'.1.lifecycle.rank
  writing : w'.1.connection.writing = w.1.connection.writing
  withheld : w'.1.connection.withheld = w.1.connection.withheld
  outbound : w'.1.connection.outbound = w.1.connection.outbound
  outbox : ∃ more, w'.1.connection.outbox = w.1.connection.outbox ++ more ∧
    (w.1.connection.writing = false → more = [])
  named : ∀ m ∈ added w.1 w'.1, m.isReply = false

def pact (law : Law) : Pact Client (List Item) where
  Fine w := law.Allows w.2
  Kept := Kept
  May := Move
  refl := .refl
  trans _ _ _ := .trans

theorem added_append {c c' : Client} {more : List Outgoing}
    (h : c'.connection.outbox = c.connection.outbox ++ more) :
    added c c' = more.filterMap Outgoing.message? := by
  unfold added
  rw [queued_append h, List.drop_left]

/-- A message goes to the writer that goes on writing. -/
def posted (v : Json) (w : World) : World :=
  (w.1.setConnection { w.1.connection with outbox := w.1.connection.outbox ++ [.message v] },
    w.2 ++ [.told v])

theorem tabled_posted (v : Json) (w : World) : Tabled (World.link w) (World.link (posted v w)) := by
  have hsame : SameTable w.1.connection (posted v w).1.connection := ⟨rfl, rfl, rfl⟩
  exact tabled_same hsame (fun hc => hc) [.told v]

theorem move_posted {v : Json} {w : World} (hv : v.isReply = false)
    (hw : w.1.connection.writing = true) : Move w (posted v w) := by
  have houtbox : (posted v w).1.connection.outbox = w.1.connection.outbox ++ [.message v] := rfl
  have hadded : added w.1 (posted v w).1 = [v] := added_append houtbox
  refine ⟨by rw [hadded]; rfl, Nat.le_refl _, rfl, rfl, rfl, ⟨[.message v], rfl, ?_⟩, fun m hm => ?_⟩
  · exact fun h => absurd (hw.symm.trans h) nofun
  · rw [hadded] at hm
    rwa [List.mem_singleton.mp hm]

structure Unsaid (c c' : Connection) : Prop where
  writing : c'.writing = c.writing
  withheld : c'.withheld = c.withheld
  outbound : c'.outbound = c.outbound
  outbox : c'.outbox = c.outbox

theorem Unsaid.move {c c' : Client} (h : Unsaid c.connection c'.connection)
    (hrank : c.lifecycle.rank ≤ c'.lifecycle.rank) (g : List Item) : Move (c, g) (c', g) := by
  have houtbox : c'.connection.outbox = c.connection.outbox ++ [] :=
    h.outbox.trans (List.append_nil _).symm
  have hadded : added c c' = [] := added_append houtbox
  refine ⟨?_, hrank, h.writing, h.withheld, h.outbound, ⟨[], houtbox, fun _ => rfl⟩, fun m hm => ?_⟩
  · show g = g ++ _
    rw [hadded]
    exact (List.append_nil g).symm
  · rw [show added c c' = [] from hadded] at hm
    cases hm

theorem unsaid_tryKill (c : Connection) : Unsaid c c.tryKill.2 := by
  unfold tryKill
  split <;> exact ⟨rfl, rfl, rfl, rfl⟩

theorem around_tryKill (c : Connection) (g : List Item) : Around (c, g) (c.tryKill.2, g) := by
  refine .of_same (same_tryKill c) ?_ ?_ ?_ ?_
  all_goals
    unfold tryKill
    split <;> rfl

/-! ## assertions -/

/-- Something that goes on being so while the client is left alone. -/
def Steady (φ : World → Prop) : Prop := ∀ w w', Calm w w' → φ w → φ w'

/-- Something that goes on being so while calls are answered or given up. -/
def Lasting (τ : Link → Prop) : Prop := ∀ u u', Tabled u u' → τ u → τ u'

theorem Steady.and {φ ψ : World → Prop} (h : Steady φ) (h' : Steady ψ) :
    Steady fun w => φ w ∧ ψ w := fun w w' hc hw => ⟨h w w' hc hw.1, h' w w' hc hw.2⟩

theorem Steady.or {φ ψ : World → Prop} (h : Steady φ) (h' : Steady ψ) :
    Steady fun w => φ w ∨ ψ w := fun w w' hc hw => hw.imp (h w w' hc) (h' w w' hc)

theorem steady_const (p : Prop) : Steady fun _ => p := fun _ _ _ h => h

theorem steady_got (id : UInt64) (answer : Answer) : Steady fun w => Got id answer w.2 :=
  fun _ _ h hg => hg.mono fun _ => h.link.mem

theorem steady_constants (p : UInt64 × Option IoError × Option IoError → Prop) :
    Steady fun w => p w.1.connection.constants := fun w w' h hp => by
  have e : w'.1.connection.constants = w.1.connection.constants := h.link.constants
  show p w'.1.connection.constants
  rw [e]
  exact hp

/-- Nothing can be queued any more, or nobody tries to. -/
def Muted (w : World) : Prop := w.1.connection.closed = true ∨ w.1.connection.writing = false

theorem steady_closed : Steady fun w => w.1.connection.closed = true := fun _ _ h => h.link.closed

theorem steady_unwritten : Steady fun w => w.1.connection.writing = false :=
  fun _ _ h => h.link.writing

theorem steady_muted : Steady Muted := steady_closed.or steady_unwritten

/-- The table has numbers from among some only, and the next one is not among them. -/
def Next (S : UInt64 → Prop) (id : UInt64) (u : Link) : Prop := u.1.nextId = id ∧ Only S u.1

theorem lasting_only (S : UInt64 → Prop) : Lasting fun u => Only S u.1 := fun _ _ h => h.only

theorem lasting_empty : Lasting fun u => u.1.pending = [] := fun _ _ h he =>
  List.eq_nil_iff_forall_not_mem.mpr fun id hm => List.not_mem_nil (he ▸ h.pending id hm)

theorem lasting_next (S : UInt64 → Prop) (id : UInt64) : Lasting (Next S id) :=
  fun _ _ h hn => ⟨h.nextId.trans hn.1, h.only hn.2⟩

/-- A call has its entry, or its answer. -/
def Entered (S : UInt64 → Prop) (id : UInt64) (u : Link) : Prop :=
  Waits id u ∧ Only (fun n => S n ∨ n = id) u.1

theorem lasting_entered (S : UInt64 → Prop) (id : UInt64) : Lasting (Entered S id) :=
  fun _ _ h hw => ⟨h.waits id hw.1, h.only hw.2⟩

def Settled (S : UInt64 → Prop) (id : UInt64) (u : Link) : Prop :=
  Concluded id u ∧ Only (fun n => S n ∨ n = id) u.1

theorem lasting_settled (S : UInt64 → Prop) (id : UInt64) : Lasting (Settled S id) :=
  fun _ _ h hw => ⟨h.concluded id hw.1, h.only hw.2⟩

section
variable {law : Law}

/-- Who stands in the line of the lock, what is so of the client, and what of the table. -/
def knows (line : List Nat) {φ : World → Prop} (hφ : Steady φ) {τ : Link → Prop}
    (hτ : Lasting τ) : Assertion (pact law) where
  Holds w := w.1.lock.line = line ∧ φ w ∧ τ (w.1.connection, w.2)
  stable _ hk h := ⟨(congrArg Lock.line hk.lock).trans h.1, hφ _ _ hk.toCalm h.2.1,
    hτ _ _ hk.table h.2.2⟩

/-! ## the smallest parts -/

variable {P : Assertion (pact law)} {Q : α → Assertion (pact law)}

theorem owes_unsaid {f : Client → α × Client}
    (h : ∀ w, law.Allows w.2 → P.Holds w → Unsaid w.1.connection (f w.1).2.connection ∧
      w.1.lifecycle.rank ≤ (f w.1).2.lifecycle.rank ∧ (Q (f w.1).1).Holds ((f w.1).2, w.2)) :
    Owes P (.act f) Q := by
  refine owes_act fun c g hfine hp => ?_
  obtain ⟨hunsaid, hrank, hq⟩ := h (c, g) hfine hp
  exact ⟨g, hfine, hunsaid.move hrank g, hq⟩

theorem owes_change {f : Client → Client} {Q : Assertion (pact law)}
    (h : ∀ w, law.Allows w.2 → P.Holds w → Unsaid w.1.connection (f w.1).connection ∧
      w.1.lifecycle.rank ≤ (f w.1).lifecycle.rank ∧ Q.Holds (f w.1, w.2)) :
    Owes P (.change f) fun _ => Q := owes_unsaid (f := fun c => ((), f c)) h

theorem owes_look {f : Client → α}
    (h : ∀ w, law.Allows w.2 → P.Holds w → (Q (f w.1)).Holds w) : Owes P (.read f) Q :=
  owes_unsaid (f := fun c => (f c, c)) fun w hfine hp =>
    ⟨⟨rfl, rfl, rfl, rfl⟩, Nat.le_refl _, h w hfine hp⟩

/-! ### on the connection -/

theorem owes_link_act {f : Connection → α × Connection}
    (h : ∀ (c : Client) g, law.Allows g → P.Holds (c, g) → ∃ g', law.Allows g' ∧
      Move (c, g) (c.setConnection (f c.connection).2, g') ∧
        (Q (f c.connection).1).Holds (c.setConnection (f c.connection).2, g')) :
    Owes P (Client.onConnection (.act f)) Q :=
  owes_act (f := fun c : Client => ((f c.connection).1, c.setConnection (f c.connection).2)) h

theorem owes_link {f : Connection → α × Connection}
    (h : ∀ w, law.Allows w.2 → P.Holds w → Unsaid w.1.connection (f w.1.connection).2 ∧
      (Q (f w.1.connection).1).Holds (w.1.setConnection (f w.1.connection).2, w.2)) :
    Owes P (Client.onConnection (.act f)) Q :=
  owes_unsaid (f := fun c => ((f c.connection).1, c.setConnection (f c.connection).2))
    fun w hfine hp => ⟨(h w hfine hp).1, Nat.le_refl _, (h w hfine hp).2⟩

/-- A change that might as well be made by others. -/
theorem owes_link_around {f : Connection → α × Connection}
    (hunsaid : ∀ c, Unsaid c (f c).2) (haround : ∀ c g, Around (c, g) ((f c).2, g))
    (h : ∀ w, law.Allows w.2 → P.Holds w →
      (Q (f w.1.connection).1).Holds w) : Owes P (Client.onConnection (.act f)) Q := by
  refine owes_link fun w hfine hp => ⟨hunsaid _, ?_⟩
  exact (Q _).stable hfine (kept_link (haround w.1.connection w.2)) (h w hfine hp)

theorem owes_link_look {f : Connection → α}
    (h : ∀ w, law.Allows w.2 → P.Holds w → (Q (f w.1.connection)).Holds w) :
    Owes P (Client.onConnection (.read f)) Q :=
  owes_link_around (f := fun c => (f c, c)) (fun _ => ⟨rfl, rfl, rfl, rfl⟩) (fun _ _ => .refl _) h

theorem owes_link_bind {R : β → Assertion (pact law)} {r : Routine Connection α}
    {f : α → Routine Connection β} (h : Owes P (Client.onConnection r) Q)
    (hf : ∀ a, Owes (Q a) (Client.onConnection (f a)) R) :
    Owes P (Client.onConnection (r.bind f)) R := h.zoom_bind hf

theorem owes_link_wait {ready : Connection → Bool} {limit : Option Nat}
    {abandon : Connection → Connection} {f : Bool → α}
    (hready : ∀ w, P.Holds w → ready w.1.connection = true → (Q (f true)).Holds w)
    (hlate : ∀ w, P.Holds w → (Q (f false)).Holds w) :
    Owes P (Client.onConnection (.wait ready limit abandon fun b _ => .done (f b))) Q :=
  owes_wait (fun _ _ h => h) (fun w _ => hready w) fun w _ hp _ => hlate w hp

/-! ## messages -/

theorem owes_post {Q : Bool → Assertion (pact law)} {message : Outgoing}
    (h : Owes P (Client.onConnection (.act (enqueue message))) Q) :
    Owes P (Client.onConnection (post message)) Q := by
  have hsenders (c : Connection) (g : List Item) (l : Lock) : Around (c, g) ({ c with senders := l }, g) :=
    .of_same ⟨rfl, rfl, rfl⟩ rfl rfl rfl rfl
  have hjoin : Owes P (Client.onConnection (.act joinSenders)) fun _ => P :=
    owes_link_around (fun _ => ⟨rfl, rfl, rfl, rfl⟩) (fun c g => hsenders c g _) fun _ _ hp => hp
  refine owes_link_bind hjoin fun ticket => ?_
  have hturn : Owes P (Client.onConnection (.until_ (admits ticket))) fun _ => P :=
    owes_link_wait (f := fun _ => ()) (fun _ hp _ => hp) fun _ hp => hp
  have hbody : Owes P (Client.onConnection (Routine.bind (.until_ (admits ticket)) fun _ =>
      .act (enqueue message))) Q := owes_link_bind hturn fun _ => h
  refine hbody.zoom_ensure fun b => ?_
  exact owes_link_around (f := fun c => (b, c.leaveSenders ticket)) (fun _ => ⟨rfl, rfl, rfl, rfl⟩)
    (fun c g => hsenders c g _) fun _ _ hq => hq

theorem owes_say {Q : Bool → Assertion (pact law)} {v : Json} (hv : v.isReply = false)
    (hsent : ∀ w, law.Allows w.2 → P.Holds w → w.1.connection.writing = true →
      law.Allows (w.2 ++ [.told v]) ∧ (Q true).Holds (posted v w))
    (hfailed : ∀ w, law.Allows w.2 → P.Holds w → w.1.connection.writing = false →
      (Q false).Holds w) :
    Owes P (Client.onConnection (post (.message v))) Q := by
  refine owes_post (owes_link_act fun c g hfine hp => ?_)
  cases hw : c.connection.writing with
  | true =>
    have he : c.connection.enqueue (.message v) =
        (true, { c.connection with outbox := c.connection.outbox ++ [.message v] }) := if_pos hw
    rw [he]
    obtain ⟨hlaw, hq⟩ := hsent (c, g) hfine hp hw
    exact ⟨_, hlaw, move_posted hv hw, hq⟩
  | false =>
    have he : c.connection.enqueue (.message v) = (false, c.connection) :=
      if_neg (Bool.eq_false_iff.mp hw)
    rw [he]
    have hsame : Unsaid c.connection c.connection := ⟨rfl, rfl, rfl, rfl⟩
    exact ⟨g, hfine, hsame.move (Nat.le_refl _) g, hfailed (c, g) hfine hp hw⟩

theorem owes_notify {R : Assertion (pact law)} {method : String} {params : Option Json}
    {Q : Except ClientError Unit → Assertion (pact law)}
    (hclosed : ∀ w, P.Holds w → w.1.connection.closed = true →
      (Q (.error .connectionClosed)).Holds w)
    (hopen : ∀ w, P.Holds w → w.1.connection.closed = false → R.Holds w)
    (hsent : ∀ w, law.Allows w.2 → R.Holds w → w.1.connection.writing = true →
      law.Allows (w.2 ++ [.told (Message.notification method params)]) ∧
        (Q (.ok ())).Holds (posted (Message.notification method params) w))
    (hfailed : ∀ w, R.Holds w → w.1.connection.writing = false →
      (Q (.error .connectionClosed)).Holds w) :
    Owes P (Client.notify method params) Q := by
  have hlook : Owes P (Client.onConnection (.read (·.closed))) fun b =>
      if b then Q (.error .connectionClosed) else R := by
    refine owes_link_look fun w _ hp => ?_
    cases hc : w.1.connection.closed with
    | true => exact hclosed w hp hc
    | false => exact hopen w hp hc
  refine owes_link_bind hlook fun b => ?_
  cases b with
  | true => exact owes_done fun _ _ hq => hq
  | false =>
    have hsay : Owes R (Client.onConnection
        (post (.message (Message.notification method params)))) fun b =>
        if b then Q (.ok ()) else Q (.error .connectionClosed) :=
      owes_say rfl hsent fun w _ => hfailed w
    refine owes_link_bind hsay fun queued => ?_
    cases queued with
    | true => exact owes_done fun _ _ hq => hq
    | false => exact owes_done fun _ _ hq => hq

/-! ## calls -/

end

/-- What the result of a call says, `asked` being so once the request is queued, and `unasked` as
long as it is not. -/
def Called (method : String) (id : UInt64) (unasked asked : World → Prop)
    (result : Except ClientError Json) (w : World) : Prop :=
  match result with
  | .ok value => asked w ∧ Got id (.result value) w.2
  | .error (.server m code message) => m = method ∧ asked w ∧ Got id (.refused ⟨code, message⟩) w.2
  | .error (.timeout m limit) => m = method ∧ asked w ∧ limit = w.1.connection.callLimit
  | .error .connectionClosed => (unasked w ∨ asked w) ∧ Muted w
  | .error _ => False

theorem steady_called (method : String) (id : UInt64) {unasked asked : World → Prop}
    (hu : Steady unasked) (ha : Steady asked) (result : Except ClientError Json) :
    Steady (Called method id unasked asked result) := by
  cases result with
  | ok value => exact ha.and (steady_got id _)
  | error fault =>
    cases fault with
    | server m code message => exact (steady_const _).and (ha.and (steady_got id _))
    | timeout m limit =>
      exact (steady_const _).and (ha.and (steady_constants fun k => limit = k.1))
    | connectionClosed => exact (hu.or ha).and steady_muted
    | _ => exact steady_const False

theorem called_outcome {method : String} {id : UInt64} {unasked asked : World → Prop} {w : World}
    (hw : Concluded id w.link) (ha : asked w) :
    Called method id unasked asked (w.1.connection.outcome id method) w := by
  unfold Connection.outcome
  rcases hw.2 with ⟨hnone, hclosed⟩ | ⟨answer, hsome, hgot⟩
  · rw [show w.1.connection.answer? id = none from hnone]
    exact ⟨.inr ha, .inl hclosed⟩
  · rw [show w.1.connection.answer? id = some answer from hsome]
    cases answer with
    | result value => exact ⟨ha, hgot⟩
    | refused refusal => exact ⟨rfl, ha, hgot⟩

section
variable {law : Law} {line : List Nat} {φ χ ψ : World → Prop} (hφ : Steady φ) (hψ : Steady ψ) {S : UInt64 → Prop} {id : UInt64} {method : String} {params : Option Json}

theorem owes_await :
    Owes (knows line hψ (lasting_entered S id) : Assertion (pact law))
      (Client.onConnection (await id method)) fun result =>
        knows line (steady_called method id hφ hψ result)
          (lasting_only fun n => S n ∨ n = id) := by
  have hlimit : Owes (knows line hψ (lasting_entered S id) : Assertion (pact law))
      (Client.onConnection (.read (·.callLimit))) fun limit =>
        knows line (hψ.and (steady_constants fun k => limit = k.1)) (lasting_entered S id) :=
    owes_link_look fun w _ hp => ⟨hp.1, ⟨hp.2.1, rfl⟩, hp.2.2⟩
  refine owes_link_bind hlimit fun limit => ?_
  have hwait : Owes (knows line (hψ.and (steady_constants fun k => limit = k.1))
      (lasting_entered S id) : Assertion (pact law))
      (Client.onConnection (.untilWithin (·.settled id) (milliseconds limit))) fun b =>
        if b then knows line hψ (lasting_settled S id)
        else knows line (hψ.and (steady_constants fun k => limit = k.1)) (lasting_entered S id) := by
    refine owes_link_wait (f := fun b => b) (fun w hp hready => ?_) fun w hp => hp
    have hgone : id ∉ w.1.connection.pending := by
      simpa [Connection.settled] using hready
    exact ⟨hp.1, hp.2.1.1, hp.2.2.1.resolve_left fun h => hgone h.1, hp.2.2.2⟩
  refine owes_link_bind hwait fun b => ?_
  cases b with
  | true => exact owes_link_look fun w _ hp => ⟨hp.1, called_outcome hp.2.2.1 hp.2.1, hp.2.2.2⟩
  | false => exact owes_done fun w _ hp => ⟨hp.1, ⟨rfl, hp.2.1.1, hp.2.1.2⟩, hp.2.2.2⟩

theorem owes_exchange (hχ : Steady χ)
    (hopen : ∀ w, φ w → w.1.connection.closed = false → χ w)
    (hback : ∀ w, χ w → φ w)
    (hsent : ∀ w, law.Allows w.2 → χ w → w.1.connection.writing = true →
      law.Allows (w.2 ++ [.told (Message.request id method params)]) ∧
        ψ (posted (Message.request id method params) w)) :
    Owes (knows line hφ (lasting_entered S id) : Assertion (pact law))
      (Client.onConnection (exchange id method params)) fun result =>
        knows line (steady_called method id hφ hψ result)
          (lasting_only fun n => S n ∨ n = id) := by
  have hlook : Owes (knows line hφ (lasting_entered S id) : Assertion (pact law))
      (Client.onConnection (.read (·.closed))) fun b =>
        if b then knows line (hφ.and steady_closed) (lasting_entered S id)
        else knows line hχ (lasting_entered S id) := by
    refine owes_link_look fun w _ hp => ?_
    cases hc : w.1.connection.closed with
    | true => exact ⟨hp.1, ⟨hp.2.1, hc⟩, hp.2.2⟩
    | false => exact ⟨hp.1, hopen w hp.2.1 hc, hp.2.2⟩
  refine owes_link_bind hlook fun closed => ?_
  cases closed with
  | true =>
    exact owes_done fun w _ hp => ⟨hp.1, ⟨.inl hp.2.1.1, .inl hp.2.1.2⟩, hp.2.2.2⟩
  | false =>
    have hsay : Owes (knows line hχ (lasting_entered S id) : Assertion (pact law))
        (Client.onConnection (post (.message (Message.request id method params)))) fun b =>
          if b then knows line hψ (lasting_entered S id)
          else knows line (hχ.and steady_unwritten) (lasting_entered S id) := by
      refine owes_say rfl (fun w hfine hp hw => ?_) fun w _ hp hw =>
        ⟨hp.1, ⟨hp.2.1, hw⟩, hp.2.2⟩
      obtain ⟨hlaw, hsaid⟩ := hsent w hfine hp.2.1 hw
      exact ⟨hlaw, hp.1, hsaid, lasting_entered S id _ _ (tabled_posted _ w) hp.2.2⟩
    refine owes_link_bind hsay fun queued => ?_
    cases queued with
    | true => exact owes_await hφ hψ
    | false =>
      exact owes_done fun w _ hp => ⟨hp.1, ⟨.inl (hback w hp.2.1.1), .inr hp.2.1.2⟩, hp.2.2.2⟩

/-- A call ends in an answer that came for it, or when its time is over, or nothing can be asked any
more; it leaves nothing in the table. -/
theorem owes_call (hχ : Steady χ) (hid : ¬ S id)
    (hopen : ∀ w, φ w → w.1.connection.closed = false → χ w)
    (hback : ∀ w, χ w → φ w)
    (hsent : ∀ w, law.Allows w.2 → χ w → w.1.connection.writing = true →
      law.Allows (w.2 ++ [.told (Message.request id method params)]) ∧
        ψ (posted (Message.request id method params) w)) :
    Owes (knows line hφ (lasting_next S id) : Assertion (pact law)) (Client.call method params)
      fun result => knows line (steady_called method id hφ hψ result)
        (lasting_only S) := by
  have hregister : Owes (knows line hφ (lasting_next S id) : Assertion (pact law))
      (Client.onConnection (.act register)) fun n =>
        (Assertion.fact (n = id)).and (knows line hφ (lasting_entered S id)) := by
    refine owes_link fun w _ hp => ⟨⟨rfl, rfl, rfl, rfl⟩, hp.2.2.1, hp.1, ?_, ?_⟩
    · exact hφ w _ ⟨rfl, rfl, rfl, rfl, .of_same rfl rfl rfl rfl⟩ hp.2.1
    · have he : w.1.connection.nextId = id := hp.2.2.1
      have h := waits_register (g := w.2) hp.2.2.2 (he ▸ hid)
      rw [he] at h
      exact h
  refine owes_link_bind hregister fun n => owes_fact fun hn => ?_
  subst hn
  refine (owes_exchange hφ hψ hχ hopen hback hsent).zoom_ensure fun result => ?_
  refine owes_link (f := fun c => (result, c.forget n)) fun w _ hp => ⟨⟨rfl, rfl, rfl, rfl⟩,
    hp.1, ?_, only_forget hp.2.2⟩
  exact steady_called method n hφ hψ result w _ ⟨rfl, rfl, rfl, rfl, .of_same rfl rfl rfl rfl⟩ hp.2.1

end

/-! ## the end of the connection -/

def SeenOff (result : Except ClientError Unit) (w : World) : Prop :=
  result = .ok () ∨ ∃ fault, result = .error (.processWait fault) ∧
    (w.1.connection.waitFault = some fault ∨ w.1.connection.killFault = some fault)

theorem steady_seenOff (result : Except ClientError Unit) : Steady (SeenOff result) :=
  steady_constants fun k => result = .ok () ∨ ∃ fault, result = .error (.processWait fault) ∧
    (k.2.1 = some fault ∨ k.2.2 = some fault)

section
variable {law : Law} {P R : Assertion (pact law)}

def seenOff (result : Except ClientError Unit) : Assertion (pact law) where
  Holds := SeenOff result
  stable _ hk h := steady_seenOff result _ _ hk.toCalm h

theorem owes_reap (grace : Nat) : Owes P (Client.onConnection (reap grace)) fun result =>
    P.and (seenOff result) := by
  have hclaim : Owes P (Client.onConnection (.act claimProcess)) fun _ => P :=
    owes_link_around (fun _ => ⟨rfl, rfl, rfl, rfl⟩)
      (fun _ _ => .of_same ⟨rfl, rfl, rfl⟩ rfl rfl rfl rfl) fun _ _ hp => hp
  refine owes_link_bind hclaim fun mine => ?_
  cases mine with
  | false => exact owes_done fun w _ hp => ⟨hp, .inl rfl⟩
  | true =>
    have hwait : Owes P (Client.onConnection (.untilWithin parted grace)) fun _ => P :=
      owes_link_wait (f := fun b => b) (fun _ hp _ => hp) fun _ hp => hp
    refine owes_link_bind hwait fun gone => ?_
    cases gone with
    | false =>
      refine owes_link_around (fun c => unsaid_tryKill c) around_tryKill fun w _ hp => ⟨hp, ?_⟩
      unfold tryKill
      split
      · exact .inl rfl
      next fault hf => exact .inr ⟨fault, rfl, .inr hf⟩
    | true =>
      have hlook : Owes P (Client.onConnection (.read waited)) fun result =>
          P.and (seenOff result) := by
        refine owes_link_look fun w _ hp => ⟨hp, ?_⟩
        unfold waited
        split
        · exact .inl rfl
        next fault hf => exact .inr ⟨fault, rfl, .inl hf⟩
      refine owes_link_bind hlook fun result => ?_
      cases result with
      | ok u => exact owes_done fun _ _ hp => hp
      | error fault =>
        have hkill : Owes (P.and (seenOff (.error fault))) (Client.onConnection (.act tryKill))
            fun _ => P.and (seenOff (.error fault)) :=
          owes_link_around (fun c => unsaid_tryKill c) around_tryKill fun _ _ hp => hp
        exact owes_link_bind hkill fun _ => owes_done fun _ _ hp => hp

theorem owes_close (grace : Nat) {Q : Assertion (pact law)}
    (hstop : ∀ w, P.Holds w → R.Holds (w.1.setConnection (w.1.connection.enqueue .stop).2, w.2))
    (hshut : ∀ w, R.Holds w → Q.Holds (w.1.setConnection w.1.connection.shut, w.2)) :
    Owes P (Client.onConnection (close grace)) fun result => Q.and (seenOff result) := by
  have hpost : Owes P (Client.onConnection (post .stop)) fun _ => R := by
    refine owes_post (owes_link_act fun c g hfine hp => ⟨g, hfine, ?_, hstop (c, g) hp⟩)
    have houtbox : (c.connection.enqueue .stop).2.outbox = c.connection.outbox ++ _ :=
      outbox_enqueue .stop c.connection
    have hadded : added c (c.setConnection (c.connection.enqueue .stop).2) = [] := by
      have hmore : added c (c.setConnection (c.connection.enqueue .stop).2) = _ :=
        added_append houtbox
      rw [hmore]
      split <;> rfl
    have hrest := enqueue_rest .stop c.connection
    refine ⟨?_, Nat.le_refl _, (congrArg Connection.writing hrest :),
      (congrArg Connection.withheld hrest :), (congrArg Connection.outbound hrest :),
      ⟨_, houtbox, fun hw => ?_⟩, fun m hm => ?_⟩
    · show g = g ++ _
      rw [show added c _ = [] from hadded]
      exact (List.append_nil g).symm
    · rw [show c.connection.writing = false from hw]
      rfl
    · rw [show added c _ = [] from hadded] at hm
      cases hm
  refine owes_link_bind hpost fun _ => owes_link_bind (owes_reap grace) fun result => ?_
  have hend : Owes (R.and (seenOff result)) (Client.onConnection (.change shut)) fun _ =>
      Q.and (seenOff result) :=
    owes_link (f := fun c => ((), c.shut)) fun w _ hp =>
      ⟨⟨rfl, rfl, rfl, rfl⟩, hshut w hp.1, hp.2⟩
  exact owes_link_bind hend fun _ => owes_done fun _ _ hq => hq

end

/-! ## the lock -/

section
variable {law : Law} {φ : World → Prop} {hφ : Steady φ} {τ : Link → Prop} {hτ : Lasting τ}

theorem calm_setLock (w : World) (l : Lock) : Calm w (w.1.setLock l, w.2) :=
  ⟨rfl, rfl, rfl, rfl, .refl _⟩

theorem knows_leave {line : List Nat} {n : Nat} {w : World} {φ : World → Prop} {hφ : Steady φ}
    (h : (knows (n :: line) hφ hτ : Assertion (pact law)).Holds w) :
    (knows (line.filter (· ≠ n)) hφ hτ : Assertion (pact law)).Holds
      (w.1.setLock (w.1.lock.leave n), w.2) := by
  refine ⟨?_, hφ w _ (calm_setLock w _) h.2.1, h.2.2⟩
  show w.1.lock.line.filter (· ≠ n) = _
  rw [h.1]
  exact List.filter_cons_of_neg (by simp)

/-- Nobody else is in the line of the lock. -/
theorem owes_locked_of {body : Routine Client α} {Q : Nat → α → Assertion (pact law)}
    {R : α → Assertion (pact law)} (h : ∀ n, Owes (knows [n] hφ hτ) body (Q n))
    (hleave : ∀ n a w, (Q n a).Holds w → (R a).Holds (w.1.setLock (w.1.lock.leave n), w.2)) :
    Owes (knows [] hφ hτ) (Client.locked body) R := by
  have hjoin : Owes (knows [] hφ hτ : Assertion (pact law))
      (.act fun c => (c.lock.join.1, c.setLock c.lock.join.2)) fun n => knows [n] hφ hτ := by
    refine owes_unsaid fun w _ hp => ⟨⟨rfl, rfl, rfl, rfl⟩, Nat.le_refl _, ?_,
      hφ w _ (calm_setLock w _) hp.2.1, hp.2.2⟩
    show w.1.lock.line ++ [w.1.lock.issued] = _
    rw [hp.1]
    rfl
  refine hjoin.bind fun n => ?_
  have hturn : Owes (knows [n] hφ hτ : Assertion (pact law))
      (.until_ fun c => c.lock.holds n) fun _ => knows [n] hφ hτ :=
    owes_until fun _ _ hp _ => hp
  refine (hturn.bind fun _ => h n).ensure fun a => ?_
  exact owes_unsaid (f := fun c => (a, c.setLock (c.lock.leave n))) fun w _ hp =>
    ⟨⟨rfl, rfl, rfl, rfl⟩, Nat.le_refl _, hleave n a w hp⟩

theorem owes_locked {ψ : α → World → Prop} {hψ : ∀ a, Steady (ψ a)} {τ' : α → Link → Prop}
    {hτ' : ∀ a, Lasting (τ' a)} {body : Routine Client α}
    (h : ∀ n, Owes (knows [n] hφ hτ : Assertion (pact law)) body fun a => knows [n] (hψ a) (hτ' a)) :
    Owes (knows [] hφ hτ : Assertion (pact law)) (Client.locked body) fun a =>
      knows [] (hψ a) (hτ' a) :=
  owes_locked_of h fun _ _ _ hp => knows_leave hp

end

end Course

end CodeBridge
