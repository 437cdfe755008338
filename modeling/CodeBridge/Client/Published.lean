import CodeBridge.Concurrency.Routine
import CodeBridge.Connection.Incoming
import CodeBridge.Protocol.Diagnostic
import CodeBridge.Uri.Basic

/-!
# Published diagnostics

The server publishes what it finds about a document whenever it likes; what it publishes last is
what counts.  Documents are told apart by the canonical form of their URI, and every publication
about one, an empty one too, moves its generation on.

Whoever waits for a publication has a ticket.  A publication about any document calls all tickets,
so who has been called looks at the generation again, with a new ticket taken before the look.
-/

namespace CodeBridge

/-- What is known of one document. -/
structure Findings where
  generation : Nat := 0
  items : List Diagnostic := []
  deriving DecidableEq, Repr

structure Published where
  entries : List (String × Findings) := []
  /-- the next ticket -/
  issued : Nat := 0
  /-- tickets that have not been called -/
  waiting : List Nat := []
  deriving DecidableEq, Repr, Inhabited

namespace Published

/-- The findings under a canonical URI. -/
def at_ (p : Published) (key : String) : Findings :=
  match p.entries.find? fun e => e.1 = key with
  | some (_, f) => f
  | none => {}

def generation (p : Published) (uri : String) : Nat := (p.at_ (canonicalUri uri)).generation

/-- The last publication about a document. -/
def read (p : Published) (uri : String) : List Diagnostic := (p.at_ (canonicalUri uri)).items

def set (p : Published) (key : String) (f : Findings) : Published :=
  { p with entries := (key, f) :: p.entries.filter fun e => e.1 ≠ key }

/-- Keep what was published about a document. -/
def record (p : Published) (uri : String) (items : List Diagnostic) : Published :=
  let key := canonicalUri uri
  p.set key ⟨(p.at_ key).generation + 1, items⟩

/-- Call all who wait. -/
def callAll (p : Published) : Published := { p with waiting := [] }

def update (p : Published) (uri : String) (items : List Diagnostic) : Published :=
  (p.record uri items).callAll

/-- the method of a publication -/
def method : String := "textDocument/publishDiagnostics"

/-- The publication that a notification is, if it can be read. -/
def publication? (n : Notification) : Option Publication :=
  if n.method = method then n.params.bind fun v => (Publication.ofJson v).toOption else none

/-- Take in a notification; all but publications change nothing. -/
def ingest (p : Published) (n : Notification) : Published :=
  match publication? n with
  | some publication => p.update publication.uri publication.diagnostics
  | none => p

/-! ## waiting -/

/-- Take a ticket. -/
def register (p : Published) : Nat × Published :=
  (p.issued, { p with issued := p.issued + 1, waiting := p.waiting ++ [p.issued] })

def isCalled (ticket : Nat) (p : Published) : Bool := !p.waiting.contains ticket

def leave (ticket : Nat) (p : Published) : Published :=
  { p with waiting := p.waiting.filter (· ≠ ticket) }

/-- Wait in turns until the generation of a document is not `before`, for `left` milliseconds.  In
each turn the ticket comes before the look at the generation, so no call can fall between the look
and the wait. -/
def awaitTurns (uri : String) (before : Nat) : Nat → Nat → Routine Published Unit
  | 0, _ => .done ()
  | turns + 1, left =>
    (Routine.act register).bind fun ticket =>
      (Routine.read fun p => p.generation uri).bind fun found =>
        if found ≠ before then Routine.change (leave ticket)
        else
          .wait (isCalled ticket) (some left) (leave ticket) fun called spent =>
            if called then awaitTurns uri before turns (left - spent)
            else Routine.change (leave ticket)

/-- Wait for the next publication about a document, for some milliseconds and with so many turns to
spare, then read. -/
def await (turns : Nat) (uri : String) (limit : Nat) : Routine Published (List Diagnostic) :=
  (Routine.read fun p => p.generation uri).bind fun before =>
    (awaitTurns uri before turns limit).bind fun _ => Routine.read fun p => p.read uri

/-! ## what is set -/

theorem at_set_self (p : Published) (key : String) (f : Findings) : (p.set key f).at_ key = f := by
  simp [at_, set]

theorem at_set_ne (p : Published) (key other : String) (f : Findings) (h : other ≠ key) :
    (p.set key f).at_ other = p.at_ other := by
  have hk : (key = other) = False := by simp [Ne.symm h]
  have hf : (p.entries.filter fun e => e.1 ≠ key).find? (fun e => e.1 = other) =
      p.entries.find? fun e => e.1 = other := by
    induction p.entries with
    | nil => rfl
    | cons e es ih =>
      by_cases he : e.1 = key
      · have : e.1 ≠ other := fun h' => h (h'.symm.trans he)
        simp_all
      · by_cases ho : e.1 = other <;> simp_all
  simp only [at_, set, List.find?_cons, hk, decide_false, hf]

theorem at_update (p : Published) (uri key : String) (items : List Diagnostic) :
    (p.update uri items).at_ key = (p.record uri items).at_ key := rfl

end Published

end CodeBridge
