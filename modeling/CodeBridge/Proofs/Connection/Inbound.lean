import CodeBridge.Proofs.Connection.Queue
import CodeBridge.Proofs.Connection.Traffic

/-!
# What the server says

Every value that the reader takes is a request of the server, the answer to a call, a notification
or nothing of these, and has the one effect that goes with it.

* `Json.Asks`, `Json.Answers`, `Json.Tells`   what a value is, by the members that it has;
* `RepliesTo`      what a request of the server is replied with;
* `Effect`         all that a value does to a connection: `effect_dispatch`;
* `Adds`           which messages are still to be written after a turn of the reader.
-/

namespace CodeBridge

open Connection

/-! ## what a value is -/

namespace Json

/-- A request of the server: a number that is not null, and a method. -/
def Asks (v id : Json) (method : String) : Prop :=
  v.get? "id" = some id ∧ id ≠ .null ∧ v.get? "method" = some (.str method)

def Answers (v : Json) (id : UInt64) : Prop :=
  v.get? "id" = some (.ofUInt64 id) ∧ (∀ method, v.get? "method" ≠ some (.str method)) ∧
    ((v.get? "result").isSome = true ∨ (v.get? "error").isSome = true)

/-- A notification: no number, or null, and a method. -/
def Tells (v : Json) (method : String) : Prop :=
  (v.get? "id" = none ∨ v.get? "id" = some .null) ∧ v.get? "method" = some (.str method)

/-- A message is a reply when it names no method. -/
def isReply (m : Json) : Bool := (m.get? "method").isNone

theorem str?_eq_some {v : Json} {s : String} (h : v.str? = some s) : v = .str s := by
  cases v with
  | str t => exact congrArg Json.str (Option.some.inj h)
  | _ => cases h

theorem word?_ofUInt64 (n : UInt64) : (ofUInt64 n).word? = some n := by
  show (if (0 : Int) ≤ n.toNat then some (UInt64.ofNat (n.toNat : Int).toNat) else none) = some n
  rw [if_pos (Int.natCast_nonneg _), Int.toNat_natCast, UInt64.ofNat_toNat]

theorem word?_eq_some {v : Json} {n : UInt64} (h : v.word? = some n) : v = ofUInt64 n := by
  unfold word? at h
  split at h
  next i hi =>
    split at h
    next h0 =>
      obtain rfl := Option.some.inj h
      have hlt : i.toNat < 2 ^ 64 := by
        have := hi.2
        omega
      have he : ((UInt64.ofNat i.toNat).toNat : Int) = i := by
        rw [UInt64.toNat_ofNat_of_lt' hlt, Int.toNat_of_nonneg h0]
      unfold ofUInt64
      simp only [he]
    · cases h
  · cases h

theorem ofUInt64_ne_null (n : UInt64) : ofUInt64 n ≠ .null := nofun

theorem ne_null_iff (v : Json) : v ≠ .null ↔ (!v.isNull) = true := by
  cases v <;> simp [isNull]

end Json

namespace Incoming
variable {v : Json} {method : String}

theorem method_eq_none (h : ∀ method, v.get? "method" ≠ some (.str method)) :
    (v.get? "method").bind Json.str? = none := by
  refine Option.bind_eq_none_iff.mpr fun w hw => ?_
  cases hs : w.str? with
  | none => rfl
  | some s => exact absurd (Json.str?_eq_some hs ▸ hw) (h s)

theorem method_eq_some (h : v.get? "method" = some (.str method)) :
    (v.get? "method").bind Json.str? = some method := by
  rw [h]
  rfl

theorem ofJson?_of_asks {id : Json} (h : v.Asks id method) :
    ofJson? v = some (.request id method (v.get? "params")) := by
  obtain ⟨hid, hnull, hmethod⟩ := h
  unfold ofJson?
  rw [method_eq_some hmethod, hid, Option.filter_some, if_pos ((Json.ne_null_iff id).mp hnull)]

theorem ofJson?_of_answers {id : UInt64} (h : v.Answers id) :
    ofJson? v = some (.answer id v) := by
  obtain ⟨hid, hmethod, hbody⟩ := h
  unfold ofJson?
  rw [method_eq_none hmethod, hid, Option.filter_some,
    if_pos ((Json.ne_null_iff _).mp (Json.ofUInt64_ne_null id))]
  show (if _ then _ else none) = _
  rw [if_pos (Bool.or_eq_true_iff.mpr hbody), Json.word?_ofUInt64]
  rfl

theorem id_eq_none (h : v.get? "id" = none ∨ v.get? "id" = some .null) :
    (v.get? "id").filter (!·.isNull) = none := by
  rcases h with h | h
  · rw [h]
    rfl
  · rw [h]
    rfl

theorem ofJson?_of_tells (h : v.Tells method) :
    ofJson? v = some (.notification ⟨method, v.get? "params"⟩) := by
  unfold ofJson?
  rw [method_eq_some h.2, id_eq_none h.1]

theorem ofJson?_cases (v : Json) :
    (∃ id method, v.Asks id method) ∨ (∃ id, v.Answers id) ∨ (∃ method, v.Tells method) ∨
      ofJson? v = none := by
  by_cases hm : ∃ method, v.get? "method" = some (.str method)
  · obtain ⟨method, hm⟩ := hm
    cases hid : v.get? "id" with
    | none => exact .inr (.inr (.inl ⟨method, .inl hid, hm⟩))
    | some id =>
      by_cases hnull : id = .null
      · exact .inr (.inr (.inl ⟨method, .inr (hnull ▸ hid), hm⟩))
      · exact .inl ⟨id, method, hid, hnull, hm⟩
  · have hnone : ∀ method, v.get? "method" ≠ some (.str method) := fun method h => hm ⟨method, h⟩
    by_cases ha : ∃ id, v.Answers id
    · exact .inr (.inl ha)
    refine .inr (.inr (.inr ?_))
    unfold ofJson?
    rw [method_eq_none hnone]
    cases hid : (v.get? "id").filter (!·.isNull) with
    | none => rfl
    | some id =>
      show (if _ then _ else none) = none
      split
      next hbody =>
        refine Option.map_eq_none_iff.mpr ?_
        cases hw : id.word? with
        | none => rfl
        | some n =>
          have hget : v.get? "id" = some (.ofUInt64 n) :=
            (Option.filter_eq_some_iff.mp hid).1.trans (congrArg some (Json.word?_eq_some hw))
          exact absurd ⟨n, hget, hnone, Bool.or_eq_true_iff.mp hbody⟩ ha
      · rfl

def replyTo? (v : Json) : Option Json :=
  match ofJson? v with
  | some (.request id method params) => some (reply id method params)
  | _ => none

def told? (v : Json) : Option Notification :=
  match ofJson? v with
  | some (.notification n) => some n
  | _ => none

end Incoming

/-! ## replies -/

/-- The methods that are accepted without a word. -/
def acceptedMethods : List String :=
  ["client/registerCapability", "client/unregisterCapability", "window/workDoneProgress/create"]

structure RepliesTo (id : Json) (method : String) (params : Option Json) (m : Json) : Prop where
  id : m.get? "id" = some id
  isReply : m.isReply = true
  settings : ∀ items, method = "workspace/configuration" →
    params.bind (·.get? "items") = some (.arr items) →
      m.get? "result" = some (.arr (List.replicate items.length .null)) ∧ m.get? "error" = none
  noSettings : method = "workspace/configuration" →
    (∀ items, params.bind (·.get? "items") ≠ some (.arr items)) →
      m.get? "result" = some (.arr []) ∧ m.get? "error" = none
  accepted : method ∈ acceptedMethods → m.get? "result" = some .null ∧ m.get? "error" = none
  refused : method ≠ "workspace/configuration" → method ∉ acceptedMethods →
    m.get? "result" = none ∧ ∃ refusal, m.get? "error" = some refusal ∧
      refusal.get? "code" = some (.ofInt32 (-32601))

theorem repliesTo_reply (id : Json) (method : String) (params : Option Json) :
    RepliesTo id method params (Incoming.reply id method params) := by
  have hitems (items : List Json) (h : params.bind (·.get? "items") = some (.arr items)) :
      Incoming.itemCount params = items.length := by
    unfold Incoming.itemCount
    rw [h]
    rfl
  have hnoItems (h : ∀ items, params.bind (·.get? "items") ≠ some (.arr items)) :
      Incoming.itemCount params = 0 := by
    unfold Incoming.itemCount
    cases hi : params.bind (·.get? "items") with
    | none => rfl
    | some v =>
      cases v with
      | arr items => exact absurd hi (h items)
      | _ => rfl
  unfold Incoming.reply
  split
  · refine ⟨rfl, rfl, fun items _ h => ?_, fun _ h => ?_, fun h => ?_, fun h => absurd rfl h⟩
    · rw [hitems items h]
      exact ⟨rfl, rfl⟩
    · rw [hnoItems h]
      exact ⟨rfl, rfl⟩
    · exact absurd h (by decide)
  · exact ⟨rfl, rfl, nofun, nofun, fun _ => ⟨rfl, rfl⟩, fun _ h => absurd (by decide) h⟩
  · exact ⟨rfl, rfl, nofun, nofun, fun _ => ⟨rfl, rfl⟩, fun _ h => absurd (by decide) h⟩
  · exact ⟨rfl, rfl, nofun, nofun, fun _ => ⟨rfl, rfl⟩, fun _ h => absurd (by decide) h⟩
  next h1 h2 h3 h4 =>
    refine ⟨rfl, rfl, fun _ h => absurd h h1, fun h => absurd h h1, fun h => ?_,
      fun _ _ => ⟨rfl, _, rfl, rfl⟩⟩
    rcases List.mem_cons.mp h with h | h
    · exact absurd h h2
    rcases List.mem_cons.mp h with h | h
    · exact absurd h h3
    · exact absurd (List.mem_singleton.mp h) h4

theorem Incoming.isReply_replyTo? {v m : Json} (h : Incoming.replyTo? v = some m) :
    m.isReply = true := by
  unfold replyTo? at h
  split at h
  next id method params _ =>
    obtain rfl := Option.some.inj h
    exact (repliesTo_reply id method params).isReply
  · cases h

/-! ## effects -/

namespace Connection

/-- The messages that are queued and the one that is withheld. -/
def toWrite (c : Connection) : List Json := c.queued ++ (c.withheld.map (·.2)).toList

/-- The value that the reader takes next. -/
def taken? (c : Connection) : Option Json :=
  if c.withheld.isSome then none
  else
    match Frame.next c.inboundEnded c.inbound with
    | some (.frame v, _) => some v
    | _ => none

structure Replied (m : Json) (c c' : Connection) : Prop where
  rest : { c' with outbox := c.outbox, withheld := c.withheld, senders := c.senders } = c
  up : c.writing = true → c'.toWrite = c.toWrite ++ [m]
  placed : c'.withheld = none ∧
      c'.outbox = c.outbox ++ (if c.writing then [.message m] else []) ∧
      c'.senders.line = c.senders.line.filter (· ≠ c.senders.issued) ∨
    c'.outbox = c.outbox ∧ ∃ ticket, c'.withheld = some (ticket, m) ∧
      c'.admits ticket = false ∧ c'.senders.line = c.senders.line ++ [ticket]

/-- The entry of one call goes, with its answer kept, if there is such an entry; nothing else is
changed. -/
structure Settled (id : UInt64) (answer : Answer) (c c' : Connection) : Prop where
  rest : { c' with pending := c.pending, answers := c.answers } = c
  pending : c'.pending = c.pending.filter (· ≠ id)
  answers : c'.answers = c.answers ++ if id ∈ c.pending then [(id, answer)] else []

end Connection

/-- All that a value from the server does: there may be a reply to it, it may be handed over, and
the connection may be changed. -/
structure Effect (v : Json) (reply : Option Json) (handed : Option Notification)
    (c c' : Connection) : Prop where
  asks : ∀ id method, v.Asks id method → handed = none ∧
    ∃ m, reply = some m ∧ RepliesTo id method (v.get? "params") m ∧ Replied m c c'
  answers : ∀ id, v.Answers id → reply = none ∧ handed = none ∧
    Settled id (Answer.ofBody v) c c'
  tells : ∀ method, v.Tells method → reply = none ∧
    handed = some ⟨method, v.get? "params"⟩ ∧ c' = c
  other : (∀ id method, ¬ v.Asks id method) → (∀ id, ¬ v.Answers id) →
    (∀ method, ¬ v.Tells method) → reply = none ∧ handed = none ∧ c' = c

namespace Connection

/-- A reply is queued, or withheld as long as there is no room for it. -/
theorem replied_reply (m : Json) (c : Connection) (hw : c.withheld = none) :
    Replied m c (c.reply m) := by
  have hbefore : c.toWrite = c.queued := by
    unfold toWrite
    rw [hw]
    exact List.append_nil _
  let c₁ : Connection := { c.joinSenders.2 with withheld := some (c.joinSenders.1, m) }
  have hreply : c.reply m = if c₁.admits c.joinSenders.1 then
      { (c₁.enqueue (.message m)).2.leaveSenders c.joinSenders.1 with withheld := none }
      else c₁ := rfl
  rw [hreply]
  split
  next hturn =>
    have hout : (c₁.enqueue (.message m)).2.outbox =
        c.outbox ++ if c.writing then [.message m] else [] := outbox_enqueue _ c₁
    have hline : ((c₁.enqueue (.message m)).2.leaveSenders c.joinSenders.1).senders.line =
        c.senders.line.filter (· ≠ c.senders.issued) := by
      have hsenders : (c₁.enqueue (.message m)).2.senders = c.senders.join.2 := by
        unfold enqueue
        split <;> rfl
      show (c₁.enqueue (.message m)).2.senders.line.filter (· ≠ c.senders.issued) = _
      rw [hsenders]
      show (c.senders.line ++ [c.senders.issued]).filter (· ≠ c.senders.issued) = _
      have hlast : [c.senders.issued].filter (· ≠ c.senders.issued) = [] :=
        List.filter_cons_of_neg (by simp)
      rw [List.filter_append, hlast, List.append_nil]
    refine ⟨?_, fun hup => ?_, .inl ⟨rfl, hout, hline⟩⟩
    · have hrest := enqueue_rest (.message m) c₁
      exact congrArg (fun d : Connection =>
        { d with withheld := c.withheld, senders := c.senders }) hrest
    · rw [if_pos hup] at hout
      have hqueued : (c₁.enqueue (.message m)).2.queued = c.queued ++ [m] := queued_append hout
      rw [hbefore, ← hqueued]
      exact List.append_nil _
  next hturn =>
    refine ⟨rfl, fun _ => ?_, .inr ⟨rfl, _, rfl, Bool.eq_false_iff.mpr hturn, rfl⟩⟩
    rw [hbefore]
    rfl

theorem settled_complete (id : UInt64) (answer : Answer) (c : Connection) :
    Settled id answer c (c.complete id answer) := by
  unfold complete
  by_cases h : id ∈ c.pending
  · rw [if_pos (List.contains_iff_mem.mpr h)]
    exact ⟨rfl, rfl, by rw [if_pos h]⟩
  · rw [if_neg (fun hc => h (List.contains_iff_mem.mp hc))]
    refine ⟨rfl, (List.filter_eq_self.mpr fun other ho => ?_).symm, ?_⟩
    · exact decide_eq_true fun e => h (e ▸ ho)
    · rw [if_neg h]
      exact (List.append_nil _).symm

theorem effect_dispatch (v : Json) (c : Connection) (hw : c.withheld = none) :
    Effect v (Incoming.replyTo? v) (Incoming.told? v) c (c.dispatch v).1 := by
  unfold dispatch Incoming.replyTo? Incoming.told?
  refine ⟨fun id method h => ?_, fun id h => ?_, fun method h => ?_, fun h1 h2 h3 => ?_⟩
  · rw [Incoming.ofJson?_of_asks h]
    exact ⟨rfl, _, rfl, repliesTo_reply id method _, replied_reply _ c hw⟩
  · rw [Incoming.ofJson?_of_answers h]
    exact ⟨rfl, rfl, settled_complete id _ c⟩
  · rw [Incoming.ofJson?_of_tells h]
    exact ⟨rfl, rfl, rfl⟩
  · have hnone : Incoming.ofJson? v = none := by
      rcases Incoming.ofJson?_cases v with ⟨id, method, h⟩ | ⟨id, h⟩ | ⟨method, h⟩ | h
      · exact absurd h (h1 id method)
      · exact absurd h (h2 id)
      · exact absurd h (h3 method)
      · exact h
    rw [hnone]
    exact ⟨rfl, rfl, rfl⟩

/-- The reader takes a value only when it withholds nothing, and then does with it what is said
above. -/
theorem readNext_of_taken {v : Json} {c : Connection} (h : c.taken? = some v) :
    c.withheld = none ∧ ∃ rest, c.readNext = { c with inbound := rest }.dispatch v := by
  unfold taken? at h
  unfold readNext
  by_cases hw : c.withheld.isSome = true
  · rw [if_pos hw] at h
    cases h
  · rw [if_neg hw] at h ⊢
    refine ⟨Option.not_isSome_iff_eq_none.mp hw, ?_⟩
    split at h
    next v' rest hf =>
      obtain rfl := Option.some.inj h
      rw [hf]
      exact ⟨rest, rfl⟩
    · cases h

/-- What a connection keeps of what it has to write, and adds to it. -/
structure Adds (more : List Json) (c c' : Connection) : Prop where
  writing : c'.writing = c.writing
  outbound : c'.outbound = c.outbound
  toWrite : c.writing = true → c'.toWrite = c.toWrite ++ more

theorem adds_nothing {c c' : Connection} (hwriting : c'.writing = c.writing)
    (houtbound : c'.outbound = c.outbound) (htoWrite : c'.toWrite = c.toWrite) :
    Adds [] c c' :=
  ⟨hwriting, houtbound, fun _ => by rw [htoWrite, List.append_nil]⟩

theorem Replied.adds {m : Json} {c c' : Connection} (h : Replied m c c') : Adds [m] c c' :=
  ⟨(congrArg Connection.writing h.rest :), (congrArg Connection.outbound h.rest :), h.up⟩

theorem adds_complete (id : UInt64) (answer : Answer) (c : Connection) :
    Adds [] c (c.complete id answer) := by
  unfold complete
  split <;> exact adds_nothing rfl rfl rfl

theorem adds_dispatch (v : Json) (c : Connection) (hw : c.withheld = none) :
    Adds (Incoming.replyTo? v).toList c (c.dispatch v).1 ∧
      (c.dispatch v).2 = Incoming.told? v := by
  unfold dispatch Incoming.replyTo? Incoming.told?
  cases hv : Incoming.ofJson? v with
  | none => exact ⟨adds_nothing rfl rfl rfl, rfl⟩
  | some incoming =>
    cases incoming with
    | answer id body => exact ⟨adds_complete id _ c, rfl⟩
    | request id method params => exact ⟨(replied_reply _ c hw).adds, rfl⟩
    | notification n => exact ⟨adds_nothing rfl rfl rfl, rfl⟩

theorem adds_release (c : Connection) : Adds [] c c.release := by
  unfold release
  split
  · exact adds_nothing rfl rfl rfl
  next ticket m hw =>
    split
    · have hsame : (c.enqueue (.message m)).2.writing = c.writing ∧
          (c.enqueue (.message m)).2.outbound = c.outbound := by
        unfold enqueue
        split <;> exact ⟨rfl, rfl⟩
      refine ⟨hsame.1, hsame.2, fun hup => ?_⟩
      have hout := outbox_enqueue (.message m) c
      rw [if_pos hup] at hout
      have hqueued : (c.enqueue (.message m)).2.queued = c.queued ++ [m] := queued_append hout
      unfold toWrite
      rw [hw, List.append_nil]
      exact (List.append_nil _).trans hqueued
    · exact adds_nothing rfl rfl rfl

/-- What a turn of the reader adds to what is to be written, and what it hands over. -/
theorem adds_readNext (c : Connection) :
    Adds (c.taken?.toList.filterMap Incoming.replyTo?) c c.readNext.1 ∧
      c.readNext.2.toList = c.taken?.toList.filterMap Incoming.told? := by
  unfold taken? readNext
  by_cases hw : c.withheld.isSome = true
  · rw [if_pos hw, if_pos hw]
    exact ⟨adds_release c, rfl⟩
  rw [if_neg hw, if_neg hw]
  cases hf : Frame.next c.inboundEnded c.inbound with
  | none => exact ⟨adds_nothing rfl rfl rfl, rfl⟩
  | some next =>
    obtain ⟨item, rest⟩ := next
    cases item with
    | frame v =>
      obtain ⟨hadds, htold⟩ := adds_dispatch v { c with inbound := rest }
        (Option.not_isSome_iff_eq_none.mp hw)
      have hreply : (Incoming.replyTo? v).toList = [v].filterMap Incoming.replyTo? := by
        cases h : Incoming.replyTo? v <;> simp [h]
      have hhanded : ({ c with inbound := rest }.dispatch v).2.toList =
          [v].filterMap Incoming.told? := by
        rw [htold]
        cases h : Incoming.told? v <;> simp [h]
      rw [hreply] at hadds
      exact ⟨⟨hadds.writing, hadds.outbound, hadds.toWrite⟩, hhanded⟩
    | fault f =>
      show Adds [] c (if f.recoverable then _ else _ : Connection × Option Notification).1 ∧
        (if f.recoverable then _ else _ : Connection × Option Notification).2.toList = []
      split <;> exact ⟨adds_nothing rfl rfl rfl, rfl⟩
    | finished => exact ⟨adds_nothing rfl rfl rfl, rfl⟩

end Connection

end CodeBridge
