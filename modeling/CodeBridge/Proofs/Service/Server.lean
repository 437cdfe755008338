import CodeBridge.Connection.Call

/-!
# A server that goes by what it was told

A server at the other end of a connection, on the level of messages.  It keeps every text that a
`didOpen` gave it and answers a request about a document from the text given last, as it stands when
the request comes; the answer may be sent at any time after.

* `Response`       what a request is answered with, and what a call makes of it;
* `Answering`      how a server answers, by method, parameters and text;
* `Server.hear`    what a server does with a message;
* `Server.after`   the server when it will have heard all that is queued for it.  Hearing the next
                   message does not change it, so what is queued counts as heard.
-/

namespace CodeBridge

/-! ## answers -/

inductive Response where
  | result (value : Json)
  /-- the value under the key `error` -/
  | refusal (value : Json)
  deriving DecidableEq, Repr

namespace Response

def toJson (id : UInt64) : Response → Json
  | .result value => Message.answer (.ofUInt64 id) value
  | .refusal value => .obj [("error", value), ("id", .ofUInt64 id), Message.version]

def answer (r : Response) : Answer := Answer.ofBody (r.toJson 0)

def outcome (method : String) (r : Response) : Except ClientError Json :=
  match r.answer with
  | .result value => .ok value
  | .refused r => .error (.server method r.code r.message)

/-- A call that is refused does not end as it does when the client is out of its time. -/
theorem not_isLifecycle (method : String) (r : Response) (fault : ClientError)
    (h : r.outcome method = .error fault) : fault.isLifecycle = false := by
  unfold outcome at h
  split at h
  · cases h
  · obtain rfl := Except.error.inj h
    rfl

end Response

theorem word?_ofUInt64 (id : UInt64) : (Json.ofUInt64 id).word? = some id := by
  show (if 0 ≤ (id.toNat : Int) then some (UInt64.ofNat (id.toNat : Int).toNat) else none) = _
  rw [if_pos (Int.natCast_nonneg _), Int.toNat_natCast, UInt64.ofNat_toNat]

theorem ofJson?_toJson (id : UInt64) (r : Response) :
    Incoming.ofJson? (r.toJson id) = some (.answer id (r.toJson id)) := by
  have h : ((Json.ofUInt64 id).word?.map fun n => Incoming.answer n (r.toJson id)) =
      some (.answer id (r.toJson id)) := by
    rw [word?_ofUInt64]
    rfl
  cases r with
  | result value => exact h
  | refusal value => exact h

theorem ofBody_toJson (id : UInt64) (r : Response) : Answer.ofBody (r.toJson id) = r.answer := by
  cases r with
  | result value => rfl
  | refusal value => rfl

theorem dispatch_toJson (id : UInt64) (r : Response) (c : Connection) :
    (c.dispatch (r.toJson id)).1 = c.complete id r.answer := by
  unfold Connection.dispatch
  rw [ofJson?_toJson, ← ofBody_toJson id r]

/-! ## the server -/

/-- How a server answers: by the method, the parameters, and the text of the document that they
are about, if it was given one. -/
abbrev Answering := String → Option Json → Option String → Response

def documentOf? (params : Option Json) : Option String :=
  ((params.bind (·.get? "textDocument")).bind (·.get? "uri")).bind Json.str?

def textOf? (params : Option Json) : Option String :=
  ((params.bind (·.get? "textDocument")).bind (·.get? "text")).bind Json.str?

structure Server where
  /-- documents and their texts, the one given last first -/
  texts : List (String × String) := []
  /-- answers that have not been sent yet, with the numbers of their requests -/
  replies : List (UInt64 × Response) := []
  deriving DecidableEq, Repr

namespace Server

/-- The text of a document that was given last. -/
def text? (uri : String) (s : Server) : Option String :=
  (s.texts.find? fun t => t.1 = uri).map (·.2)

def hearRequest (answering : Answering) (id : UInt64) (method : String) (params : Option Json)
    (s : Server) : Server :=
  let text := (documentOf? params).bind fun uri => s.text? uri
  { s with replies := s.replies ++ [(id, answering method params text)] }

def hearNotification (method : String) (params : Option Json) (s : Server) : Server :=
  match method, documentOf? params, textOf? params with
  | "textDocument/didOpen", some uri, some text => { s with texts := (uri, text) :: s.texts }
  | _, _, _ => s

/-- A message with a method is a request if it has a number, else a notification. -/
def hearValue (answering : Answering) (method : Option String) (id : Option UInt64)
    (params : Option Json) (s : Server) : Server :=
  match method, id with
  | some method, some id => s.hearRequest answering id method params
  | some method, none => s.hearNotification method params
  | none, _ => s

def hear (answering : Answering) (s : Server) : Outgoing → Server
  | .stop => s
  | .message v =>
    s.hearValue answering ((v.get? "method").bind Json.str?) ((v.get? "id").bind Json.word?)
      (v.get? "params")

variable (answering : Answering) (s : Server)

theorem hear_request (id : UInt64) (method : String) (params : Json) :
    s.hear answering (.message (Message.request id method (some params))) =
      s.hearRequest answering id method (some params) := by
  show s.hearValue answering (some method) (Json.ofUInt64 id).word? (some params) = _
  rw [word?_ofUInt64]
  rfl

theorem hear_didOpen (uri languageId text : String) (version : Int32) :
    s.hear answering (.message (Message.notification "textDocument/didOpen"
      (some (Params.didOpen uri languageId version text)))) =
      { s with texts := (uri, text) :: s.texts } := rfl

theorem hear_didClose (uri : String) :
    s.hear answering (.message (Message.notification "textDocument/didClose"
      (some (Params.ofDocument uri)))) = s := rfl

theorem text?_didOpen (uri text : String) :
    ({ s with texts := (uri, text) :: s.texts } : Server).text? uri = some text := by
  simp [text?]

/-! ## what is queued counts as heard -/

/-- The server when it will have heard all that is queued. -/
def after (queue : List Outgoing) (s : Server) : Server := queue.foldl (hear answering) s

theorem after_cons (message : Outgoing) (queue : List Outgoing) :
    s.after answering (message :: queue) = (s.hear answering message).after answering queue := rfl

theorem after_concat (queue : List Outgoing) (message : Outgoing) :
    s.after answering (queue ++ [message]) = (s.after answering queue).hear answering message :=
  List.foldl_append

theorem hearNotification_replies (method : String) (params : Option Json)
    (replies : List (UInt64 × Response)) :
    ({ s with replies := replies } : Server).hearNotification method params =
      ⟨(s.hearNotification method params).texts, replies⟩ := by
  unfold hearNotification
  split <;> rfl

theorem hearValue_replies (method : Option String) (id : Option UInt64) (params : Option Json) :
    ∃ texts more, ∀ replies,
      ({ s with replies := replies } : Server).hearValue answering method id params =
        ⟨texts, replies ++ more⟩ := by
  cases method with
  | none => exact ⟨s.texts, [], fun replies => by rw [List.append_nil]; rfl⟩
  | some method =>
    cases id with
    | some id =>
      let text := (documentOf? params).bind fun uri => s.text? uri
      exact ⟨s.texts, [(id, answering method params text)], fun _ => rfl⟩
    | none =>
      refine ⟨(s.hearNotification method params).texts, [], fun replies => ?_⟩
      rw [List.append_nil]
      exact hearNotification_replies s method params replies

/-- Hearing adds answers behind those that are there, and asks nothing of those. -/
theorem hear_replies (message : Outgoing) : ∃ texts more, ∀ replies,
    ({ s with replies := replies } : Server).hear answering message =
      ⟨texts, replies ++ more⟩ := by
  cases message with
  | stop => exact ⟨s.texts, [], fun replies => by rw [List.append_nil]; rfl⟩
  | message v => exact hearValue_replies answering s _ _ _

theorem after_replies (queue : List Outgoing) : ∃ texts more, ∀ replies,
    ({ s with replies := replies } : Server).after answering queue = ⟨texts, replies ++ more⟩ := by
  induction queue generalizing s with
  | nil => exact ⟨s.texts, [], fun replies => by rw [List.append_nil]; rfl⟩
  | cons message queue ih =>
    obtain ⟨texts, more, hhear⟩ := hear_replies answering s message
    obtain ⟨texts', more', hafter⟩ := ih ⟨texts, []⟩
    refine ⟨texts', more ++ more', fun replies => ?_⟩
    rw [after_cons, hhear, ← List.append_assoc]
    exact hafter (replies ++ more)

theorem after_send (queue : List Outgoing) (i : Nat) :
    (({ s with replies := s.replies.eraseIdx i } : Server).after answering queue).texts =
        (s.after answering queue).texts ∧
      (∀ p ∈ s.replies, p ∈ (s.after answering queue).replies) ∧
      ∀ p ∈ (({ s with replies := s.replies.eraseIdx i } : Server).after answering queue).replies,
        p ∈ (s.after answering queue).replies := by
  obtain ⟨texts, more, h⟩ := after_replies answering s queue
  have hs : s.after answering queue = ⟨texts, s.replies ++ more⟩ := h s.replies
  rw [hs, h (s.replies.eraseIdx i)]
  refine ⟨rfl, fun p hp => List.mem_append_left more hp, fun p hp => ?_⟩
  exact (List.mem_append.mp hp).elim
    (fun hp => List.mem_append_left more (List.mem_of_mem_eraseIdx hp))
    fun hp => List.mem_append_right _ hp

end Server

end CodeBridge
