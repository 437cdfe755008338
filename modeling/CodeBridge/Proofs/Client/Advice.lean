import CodeBridge.Proofs.Client.Asking
import CodeBridge.Proofs.Client.Conformance
import CodeBridge.Proofs.Except

/-!
# Asking before a rename

A rename asks the server first whether something can be renamed.  Whatever the server does with that
question, the rename is asked for all the same, and ends as it would have ended.

* `Poised`           a client in use, on an open connection, as any initialized one is: `poised_of_idle`;
* `prepared`, `renamed`   what the question and the rename end in, by the conduct of the server;
* `owes_question`, `owes_demand`, `owes_rename`   the two calls, and the operation;
* `Alike`            two servers that differ in what they do with the question only;
* `Renames`, `rename_advisory`   what is so of any rename, and of two at such servers.
-/

namespace CodeBridge

namespace Course

namespace Inquiry

open Connection Pact

/-- A client in use, on an open connection, while no operation has its lock. -/
structure Poised (c : Client) : Prop where
  lifecycle : c.lifecycle = .initialized
  line : c.lock.line = []
  opened : c.connection.closed = false
  writes : c.connection.Writes
  /-- the next two numbers are free -/
  numbers : Only (fun id => id ≠ c.connection.nextId ∧ id ≠ c.connection.nextId + 1) c.connection

/-- Between operations an initialized client is ready for a rename, unless it has lost its connection. -/
theorem poised_of_idle {c : Client} (hc : Unused c) {events : List Course.Event}
    (hidle : ((Course.start c).run events).idle = true)
    (hlife : ((Course.start c).run events).client.lifecycle = .initialized)
    (hopened : ((Course.start c).run events).client.connection.closed = false) :
    Poised ((Course.start c).run events).client := by
  obtain ⟨before, hbegins⟩ := begins_of_idle hc hidle
  exact ⟨hlife, hbegins.line, hopened, hbegins.writes hlife, hbegins.only hlife _⟩

/-! ## the operation -/

section
variable (c : Client) (uri : String) (position : Position) (newName : String)

/-- What the server is asked first. -/
def question : Json :=
  Message.request c.connection.nextId "textDocument/prepareRename"
    (some (Params.atPosition uri position))

def demand : Json :=
  Message.request (c.connection.nextId + 1) "textDocument/rename"
    (some (Params.rename uri position newName))

def prepared (S : Conduct) : Except ClientError (Option PrepareRename) :=
  requested "textDocument/prepareRename" c.connection.callLimit readPrepareRename
    (S [question c uri position])

def renamed (S : Conduct) : Except ClientError WorkspaceEdit :=
  requested "textDocument/rename" c.connection.callLimit readWorkspaceEdit
    (S [question c uri position, demand c uri position newName])

def outcome (S : Conduct) : Except ClientError Client.RenameOutcome :=
  (renamed c uri position newName S).map fun edit =>
    ⟨(prepared c uri position S).toOption.join, edit⟩

end

section
variable {c : Client} {uri : String} {position : Position} {newName : String} {S T : Conduct}

/-- What is known before, between and after the calls. -/
abbrev inUse (S : Conduct) (c : Client) (told : List Json) (id : UInt64) :
    Assertion (pact S c.connection.pending) :=
  stands [] c.connection.callLimit
    (fun id => id ≠ c.connection.nextId ∧ id ≠ c.connection.nextId + 1) told id

theorem owes_question (hc : Poised c) :
    Owes (inUse S c [] c.connection.nextId) (Client.prepareRename uri position) fun result =>
      (Assertion.fact (result = prepared c uri position S)).and
        (inUse S c [question c uri position] (c.connection.nextId + 1)) := by
  have hbefore : c.connection.nextId ∉ c.connection.pending := fun h =>
    (hc.numbers.pending _ h).1 rfl
  exact owes_request hbefore (fun h => h.1 rfl) nofun

/-- The rename goes the same way, whatever has been found. -/
theorem owes_demand (hc : Poised c) (found : Option PrepareRename) :
    Owes (inUse S c [question c uri position] (c.connection.nextId + 1))
      (Client.andThen (Client.request "textDocument/rename" (Params.rename uri position newName)
        readWorkspaceEdit) fun edit =>
          .done (.ok ⟨found, edit⟩ : Except ClientError Client.RenameOutcome))
      fun result => (Assertion.fact (result =
          (renamed c uri position newName S).map fun edit => ⟨found, edit⟩)).and
        (inUse S c [question c uri position, demand c uri position newName]
          (c.connection.nextId + 1 + 1)) := by
  have hbefore : c.connection.nextId + 1 ∉ c.connection.pending := fun h =>
    (hc.numbers.pending _ h).2 rfl
  have hlast : ∀ m ∈ [question c uri position].getLast?,
      m.get? "id" ≠ some (.ofUInt64 (c.connection.nextId + 1)) := by
    rintro m hm he
    obtain rfl := Option.some.inj hm
    have hnumber := congrArg Json.word? (Option.some.inj he)
    rw [Json.word?_ofUInt64, Json.word?_ofUInt64] at hnumber
    exact absurd (UInt64.left_eq_add.mp (Option.some.inj hnumber)) (by decide)
  refine (owes_request hbefore (fun h => h.2 rfl) hlast).bind fun result =>
    owes_fact fun hresult => ?_
  have hrenamed : renamed c uri position newName S = result := hresult.symm
  rw [hrenamed]
  cases result with
  | ok edit => exact owes_done fun _ _ hp => ⟨rfl, hp⟩
  | error fault => exact owes_done fun _ _ hp => ⟨rfl, hp⟩

theorem owes_rename (hc : Poised c) :
    Owes (inUse S c [] c.connection.nextId) (Client.rename uri position newName) fun result =>
      (Assertion.fact (result = outcome c uri position newName S)).and
        (inUse S c [question c uri position, demand c uri position newName]
          (c.connection.nextId + 1 + 1)) := by
  refine (owes_question hc).bind fun result => owes_fact fun hresult => ?_
  unfold outcome
  rw [← hresult]
  cases result with
  | ok found => exact owes_demand hc found
  | error fault =>
    have hfault : fault.isLifecycle = false := not_isLifecycle hresult.symm
    show Owes _ (if fault.isLifecycle = true then _ else _) _
    rw [hfault]
    exact owes_demand hc none

theorem brief_request {α : Type} {docs : Nat} {method : String} {params : Json}
    {read : Json → Decoded α} : Brief [] [] docs (Client.request method params read) 14 := by
  have hlook : Brief [] [] docs Client.readLifecycle (1 + (1 + 1 + 1)) :=
    brief_locked fun _ => brief_look _
  refine hlook.bind (m := 10) fun l => ?_
  have hcall : Brief [] [] docs (Client.call method (some params)) 10 := brief_link (soon_call _ _)
  cases l with
  | initialized =>
    refine hcall.bind (m := 0) fun result => ?_
    cases result with
    | ok value => exact brief_done _
    | error fault => exact brief_done _
  | _ => exact brief_done _

theorem brief_rename {docs : Nat} :
    Brief [] [] docs (Client.rename uri position newName) 28 := by
  have hrename (found : Option PrepareRename) : Brief [] [] docs
      (Client.andThen (Client.request "textDocument/rename" (Params.rename uri position newName)
        readWorkspaceEdit) fun edit =>
          .done (.ok ⟨found, edit⟩ : Except ClientError Client.RenameOutcome)) 14 := by
    refine brief_request.bind (m := 0) fun result => ?_
    cases result with
    | ok edit => exact brief_done _
    | error fault => exact brief_done _
  have hprepare : Brief [] [] docs (Client.prepareRename uri position) 14 := brief_request
  refine hprepare.bind (m := 14) fun result => ?_
  cases result with
  | ok found => exact hrename found
  | error fault =>
    show Brief _ _ _ (if fault.isLifecycle = true then _ else _) _
    split
    · exact brief_done _
    · exact hrename none

/-! ## two servers -/

/-- Two servers do the same with all but one kind of request. -/
def Alike (S T : Conduct) : Prop :=
  ∀ ms m, ¬ Names m "textDocument/prepareRename" → S (ms ++ [m]) = T (ms ++ [m])

structure Renames (S : Conduct) (c : Client) (uri : String) (position : Position) (newName : String)
    (q : Inquiry (Except ClientError Client.RenameOutcome)) : Prop where
  /-- it can go on, if it waits long enough, unless there is no room for a message -/
  goes : (∃ elapsed, (q.go elapsed).moves = q.moves + 1) ∨ Full q.client.connection
  ends : 28 ≤ q.moves → q.result?.isSome = true
  told : q.result?.isSome = true →
    q.said.told = [question c uri position, demand c uri position newName]
  /-- nothing is said to have been prepared when the question has failed -/
  unprepared : (∀ found, prepared c uri position S ≠ .ok found) →
    ∀ o, q.result? = some (.ok o) → o.prepared = none
  /-- no edit is an empty edit -/
  empty : S [question c uri position, demand c uri position newName] = some (.result .null) →
    ∀ result, q.result? = some result → ∃ o, result = .ok o ∧ o.edit.isEmpty = true

theorem result_rename (hc : Poised c) {events : List Event}
    (hS : Follows S c.connection.pending (start c (Client.rename uri position newName)) events)
    {result : Except ClientError Client.RenameOutcome}
    (hr : ((start c (Client.rename uri position newName)).run events).result? = some result) :
    result = outcome c uri position newName S ∧
      ((start c (Client.rename uri position newName)).run events).said.told =
        [question c uri position, demand c uri position newName] := by
  have hstands : Stands [] c.connection.callLimit
      (fun id => id ≠ c.connection.nextId ∧ id ≠ c.connection.nextId + 1) [] c.connection.nextId
      (c, {}) := ⟨hc.lifecycle, hc.line, rfl, hc.numbers, rfl, rfl⟩
  have hunder := (under_start (owes_rename hc) ⟨hc.opened, hc.writes⟩ hstands).run hS
  exact (hunder.result hr).imp_right Stands.told

theorem renames (hc : Poised c) {events : List Event}
    (hS : Follows S c.connection.pending (start c (Client.rename uri position newName)) events) :
    Renames S c uri position newName
      ((start c (Client.rename uri position newName)).run events) := by
  have hholding : Holding [] c.openDocs.length c := ⟨hc.line, Nat.le_refl _⟩
  have hstart : Lasts c.openDocs.length 28 (start c (Client.rename uri position newName)) :=
    lasts_start brief_rename hholding
  have hlasts := hstart.run events
  refine ⟨hlasts.goes, hlasts.ends, fun hr => ?_, fun hnone o hr => ?_, fun hnull result hr => ?_⟩
  · obtain ⟨result, hr⟩ := Option.isSome_iff_exists.mp hr
    exact (result_rename hc hS hr).2
  · obtain ⟨edit, -, rfl⟩ := map_eq_ok_iff.mp (result_rename hc hS hr).1.symm
    show (prepared c uri position S).toOption.join = none
    cases hprepared : prepared c uri position S with
    | ok found => exact absurd hprepared (hnone found)
    | error fault => rfl
  · obtain ⟨rfl, -⟩ := result_rename hc hS hr
    unfold outcome renamed
    rw [hnull]
    exact ⟨_, rfl, rfl⟩

/-- **Whatever two servers do when they are asked first, if they do the same with all else: the
rename is asked for in the same words, and gives the same edit or the same fault.** -/
theorem rename_advisory (h : Alike S T) (hc : Poised c) {events events' : List Event}
    (hS : Follows S c.connection.pending (start c (Client.rename uri position newName)) events)
    (hT : Follows T c.connection.pending (start c (Client.rename uri position newName)) events') :
    let q := (start c (Client.rename uri position newName)).run events
    let p := (start c (Client.rename uri position newName)).run events'
    Renames S c uri position newName q ∧ Renames T c uri position newName p ∧
      ∀ result result', q.result? = some result → p.result? = some result' →
        result.map (·.edit) = result'.map (·.edit) := by
  refine ⟨renames hc hS, renames hc hT, fun result result' hr hr' => ?_⟩
  have hsame : S [question c uri position, demand c uri position newName] =
      T [question c uri position, demand c uri position newName] :=
    h [question c uri position] _ fun hn => absurd (names_request.mp hn) (by decide)
  have hrenamed : renamed c uri position newName S = renamed c uri position newName T := by
    unfold renamed
    rw [hsame]
  rw [(result_rename hc hS hr).1, (result_rename hc hT hr').1]
  unfold outcome
  rw [hrenamed]
  cases renamed c uri position newName T with
  | ok edit => rfl
  | error fault => rfl

end

/-- What a server does that has nothing to change, and does this when it is asked first. -/
def nothingToChange (first : Option Answer) : Conduct := fun ms =>
  if ms.getLast?.any (Names · "textDocument/prepareRename") then first else some (.result .null)

theorem alike_nothingToChange (first first' : Option Answer) :
    Alike (nothingToChange first) (nothingToChange first') := by
  intro ms m hm
  have hlast : (ms ++ [m]).getLast?.any (Names · "textDocument/prepareRename") = false := by
    rw [List.getLast?_append_of_ne_nil _ (List.cons_ne_nil m [])]
    exact decide_eq_false hm
  unfold nothingToChange
  rw [hlast]
  rfl

def ready : Client := { Client.new {} 1 with lifecycle := .initialized }

def reply (id : UInt64) (result : Json) : Event :=
  .deliver (Frame.write (Message.answer (.ofUInt64 id) result))

/-- The question is answered when its time is over, together with the rename. -/
def tooLate : List Event :=
  [List.replicate 12 (.go 0), [.go 30000], List.replicate 12 (.go 0),
    [reply 1 (.obj [("defaultBehavior", .bool true)]), reply 2 .null, .read, .read],
    List.replicate 4 (.go 0)].flatten

def atOnce : List Event :=
  [List.replicate 12 (.go 0), [reply 1 (.obj [("defaultBehavior", .bool true)]), .read],
    List.replicate 16 (.go 0), [reply 2 .null, .read], List.replicate 4 (.go 0)].flatten

theorem rename_advisory_tooLate :
    let never := nothingToChange none
    let yes := nothingToChange (some (.result (.obj [("defaultBehavior", .bool true)])))
    let r := Client.rename "file:///a" ⟨0, 0⟩ "b"
    let q := (start ready r).run tooLate
    let p := (start ready r).run atOnce
    Alike never yes ∧ Poised ready ∧ Follows never [] (start ready r) tooLate ∧
      Follows yes [] (start ready r) atOnce ∧
        q.result? = some (.ok ⟨none, ⟨none, none⟩⟩) ∧
          p.result? = some (.ok ⟨some ⟨none, none, true⟩, ⟨none, none⟩⟩) ∧
            Renames never ready "file:///a" ⟨0, 0⟩ "b" q ∧
              Renames yes ready "file:///a" ⟨0, 0⟩ "b" p := by
  intro never yes r q p
  have halike : Alike never yes := alike_nothingToChange _ _
  have hpoised : Poised ready := ⟨rfl, rfl, rfl, fun _ => ⟨rfl, List.not_mem_nil⟩, nofun, nofun⟩
  have hnever : Follows never [] (start ready r) tooLate := by decide +kernel
  have hyes : Follows yes [] (start ready r) atOnce := by decide +kernel
  have hq : q.result? = some (.ok ⟨none, ⟨none, none⟩⟩) := by decide +kernel
  have hp : p.result? = some (.ok ⟨some ⟨none, none, true⟩, ⟨none, none⟩⟩) := by decide +kernel
  obtain ⟨hrenames, hrenames', -⟩ := rename_advisory halike hpoised hnever hyes
  exact ⟨halike, hpoised, hnever, hyes, hq, hp, hrenames, hrenames'⟩

end Inquiry

end Course

end CodeBridge
