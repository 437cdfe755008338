import CodeBridge.Client.Published
import CodeBridge.Concurrency.Lock
import CodeBridge.Connection.Call
import CodeBridge.Settings.Server

/-!
# The client of a server

A client has one connection and goes through a lifecycle: not initialized, initialized, shut down.
Lifecycle, open documents and what the server can do are kept under one lock; diagnostics are not,
so what the server publishes never waits for a caller.

* `handshake`, `shutdown`, `terminate`   the ways through the lifecycle;
* `openDocument`, `closeDocument`         a document is open on the server while anybody holds it;
* `request`                               any other call, which runs without the lock.
-/

namespace CodeBridge

inductive Lifecycle where
  | uninitialized
  | initialized
  | shutDown
  deriving DecidableEq, Repr, Inhabited

/-- What an operation that needs an initialized client finds. -/
def Lifecycle.requireInitialized : Lifecycle → Except ClientError Unit
  | .uninitialized => .error .notInitialized
  | .initialized => .ok ()
  | .shutDown => .error .shutDown

/-- What the handshake finds. -/
def Lifecycle.requireFresh : Lifecycle → Except ClientError Unit
  | .uninitialized => .ok ()
  | .initialized => .error .alreadyInitialized
  | .shutDown => .error .shutDown

structure Client where
  connection : Connection := {}
  lock : Lock := {}
  lifecycle : Lifecycle := .uninitialized
  /-- open documents and how many callers hold each, in the order of their opening -/
  openDocs : List (String × Nat) := []
  capabilities : Option Json := none
  published : Published := {}
  settings : ServerSettings := {}
  /-- number by which the server knows the client's process -/
  processId : UInt32 := 1
  deriving DecidableEq, Inhabited

namespace Client

/-- A client over a connection that has just been made. -/
def new (settings : ServerSettings) (processId : UInt32) : Client :=
  { connection := { callLimit := settings.requestTimeout }
    settings := settings
    processId := processId }

/-! ## parts -/

def setConnection (connection : Connection) (c : Client) : Client :=
  { c with connection := connection }

def setLock (lock : Lock) (c : Client) : Client := { c with lock := lock }

def onConnection {α : Type} (r : Routine Connection α) : Routine Client α :=
  r.zoom connection setConnection

def locked {α : Type} (body : Routine Client α) : Routine Client α :=
  Lock.hold lock setLock body

def call (method : String) (params : Option Json) : Routine Client (Except ClientError Json) :=
  onConnection (Connection.call method params).run

def notify (method : String) (params : Option Json) : Routine Client (Except ClientError Unit) :=
  onConnection (Connection.notify method params).run

/-- Go on only when nothing has failed. -/
def andThen {σ ε α β : Type} (r : Routine σ (Except ε α)) (next : α → Routine σ (Except ε β)) :
    Routine σ (Except ε β) :=
  r.bind fun
    | .ok a => next a
    | .error e => .done (.error e)

/-! ## reading -/

/-- What the reader does with the next frame. -/
def readNext (c : Client) : Client :=
  let (connection, notification) := c.connection.readNext
  let c := { c with connection := connection }
  match notification with
  | some n => { c with published := c.published.ingest n }
  | none => c

/-! ## lifecycle -/

def readLifecycle : Routine Client Lifecycle := locked (Routine.read lifecycle)

def setCapabilities (result : Json) (c : Client) : Client :=
  { c with capabilities := result.get? "capabilities" }

def markInitialized (c : Client) : Client := { c with lifecycle := .initialized }

/-- The handshake, with the lock held. -/
def greet (rootUri : String) : Routine Client (Except ClientError Unit) := do
  let c ← Routine.read id
  match c.lifecycle.requireFresh with
  | .error fault => return .error fault
  | .ok () =>
    andThen (call "initialize" (some (Params.handshake c.processId rootUri))) fun result => do
      Routine.change (setCapabilities result)
      andThen (notify "initialized" (some (.obj []))) fun _ => do
        Routine.change markInitialized
        return .ok ()

/-- Make the server ready to work on the workspace under `rootUri`. -/
def handshake (rootUri : String) : Routine Client (Except ClientError Unit) :=
  locked (greet rootUri)

/-- The first fault, and the one that came after it if there was none. -/
def keepFirst {α : Type} (first : Option ClientError) (result : Except ClientError α) :
    Option ClientError :=
  match first, result with
  | some e, _ => some e
  | none, .ok _ => none
  | none, .error e => some e

/-- Close every document, one after the other; the first fault is kept. -/
def closeAll : List String → Option ClientError → Routine Client (Option ClientError)
  | [], first => .done first
  | uri :: rest, first =>
    (notify "textDocument/didClose" (some (Params.ofDocument uri))).bind fun result =>
      closeAll rest (keepFirst first result)

/-- From here on the client is shut down; gives the documents that are still open, in order. -/
def beginShutdown (c : Client) : List String × Client :=
  ((c.openDocs.map (·.1)).mergeSort (· ≤ ·), { c with lifecycle := .shutDown, openDocs := [] })

/-- Every step of a shutdown, with the lock held. -/
def farewell : Routine Client (Except ClientError Unit) := do
  let c ← Routine.read id
  match c.lifecycle.requireInitialized with
  | .error fault => return .error fault
  | .ok () =>
    let docs ← Routine.act beginShutdown
    let first ← closeAll docs none
    let answered ← call "shutdown" none
    let first := keepFirst first answered
    let left ← notify "exit" none
    let first := keepFirst first left
    let closed ← onConnection (Connection.close (Connection.milliseconds c.settings.shutdownTimeout))
    match keepFirst first closed with
    | none => return .ok ()
    | some fault => return .error fault

def shutdown : Routine Client (Except ClientError Unit) := locked farewell

def markTerminated (c : Client) : Client := { c with lifecycle := .shutDown, openDocs := [] }

/-- Leave the server without a word. -/
def terminate : Routine Client (Except ClientError Unit) := do
  locked (Routine.change markTerminated)
  onConnection (Connection.close 0)

def readCapabilities : Routine Client (Option Json) := locked (Routine.read capabilities)

/-! ## documents -/

def holders (c : Client) (uri : String) : Option Nat :=
  (c.openDocs.find? fun d => d.1 = uri).map (·.2)

def setHolders (uri : String) (count : Nat) (c : Client) : Client :=
  { c with openDocs := c.openDocs.map fun d => if d.1 = uri then (uri, count) else d }

def addDocument (uri : String) (c : Client) : Client :=
  { c with openDocs := c.openDocs ++ [(uri, 1)] }

def removeDocument (uri : String) (c : Client) : Client :=
  { c with openDocs := c.openDocs.filter fun d => d.1 ≠ uri }

/-- Take hold of a document, with the lock held. -/
def takeHold (uri text : String) : Routine Client (Except ClientError Unit) := do
  let c ← Routine.read id
  match c.lifecycle.requireInitialized, c.holders uri with
  | .error fault, _ => return .error fault
  | .ok (), some n =>
    Routine.change (setHolders uri (n + 1))
    return .ok ()
  | .ok (), none =>
    let params := Params.didOpen uri c.settings.languageId 1 text
    andThen (notify "textDocument/didOpen" (some params)) fun _ => do
      Routine.change (addDocument uri)
      return .ok ()

/-- Hold a document open; the first holder opens it on the server. -/
def openDocument (uri text : String) : Routine Client (Except ClientError Unit) :=
  locked (takeHold uri text)

/-- Let go of a document, with the lock held. -/
def letGo (uri : String) : Routine Client (Except ClientError Unit) := do
  let c ← Routine.read id
  match c.holders uri with
  | none => return .ok ()
  | some n =>
    if n > 1 then
      Routine.change (setHolders uri (n - 1))
      return .ok ()
    else
      Routine.change (removeDocument uri)
      notify "textDocument/didClose" (some (Params.ofDocument uri))

/-- Let go of a document; the last holder closes it on the server. -/
def closeDocument (uri : String) : Routine Client (Except ClientError Unit) := locked (letGo uri)

def isOpen (uri : String) : Routine Client Bool :=
  locked (Routine.read fun c => (c.holders uri).isSome)

def openDocuments : Routine Client (List String) :=
  locked (Routine.read fun c => (c.openDocs.map (·.1)).mergeSort (· ≤ ·))

/-! ## requests -/

/-- A call whose result is read as `α`; only the look at the lifecycle needs the lock. -/
def request {α : Type} (method : String) (params : Json) (read : Json → Decoded α) :
    Routine Client (Except ClientError α) := do
  let lifecycle ← readLifecycle
  match lifecycle.requireInitialized with
  | .error fault => return .error fault
  | .ok () =>
    andThen (call method (some params)) fun result =>
      .done ((read result).mapError (ClientError.decode method))

def definition (uri : String) (position : Position) :
    Routine Client (Except ClientError (List Location)) :=
  request "textDocument/definition" (Params.atPosition uri position) readLocations

def implementation (uri : String) (position : Position) :
    Routine Client (Except ClientError (List Location)) :=
  request "textDocument/implementation" (Params.atPosition uri position) readLocations

def references (uri : String) (position : Position) (includeDeclaration : Bool) :
    Routine Client (Except ClientError (List Location)) :=
  request "textDocument/references" (Params.references uri position includeDeclaration)
    readLocations

def hover (uri : String) (position : Position) :
    Routine Client (Except ClientError (Option Hover)) :=
  request "textDocument/hover" (Params.atPosition uri position) readHover

def prepareRename (uri : String) (position : Position) :
    Routine Client (Except ClientError (Option PrepareRename)) :=
  request "textDocument/prepareRename" (Params.atPosition uri position) readPrepareRename

/-- A rename, and what the server said before it. -/
structure RenameOutcome where
  prepared : Option PrepareRename
  edit : WorkspaceEdit
  deriving DecidableEq, Repr

/-- Ask before a rename; a refusal does not keep from trying, only a client out of its time does. -/
def rename (uri : String) (position : Position) (newName : String) :
    Routine Client (Except ClientError RenameOutcome) := do
  let prepared ← prepareRename uri position
  let go (prepared : Option PrepareRename) : Routine Client (Except ClientError RenameOutcome) :=
    andThen (request "textDocument/rename" (Params.rename uri position newName) readWorkspaceEdit)
      fun edit => .done (.ok ⟨prepared, edit⟩)
  match prepared with
  | .ok prepared => go prepared
  | .error fault => if fault.isLifecycle then return .error fault else go none

def documentSymbols (uri : String) :
    Routine Client (Except ClientError (List DocumentSymbol)) :=
  request "textDocument/documentSymbol" (Params.ofDocument uri) readOutline

def workspaceSymbol (query : String) :
    Routine Client (Except ClientError (List SymbolInformation)) :=
  request "workspace/symbol" (Params.workspaceSymbol query) readWorkspaceSymbols

def format (uri : String) : Routine Client (Except ClientError (List TextEdit)) := do
  let c ← Routine.read id
  request "textDocument/formatting" (Params.formatting uri c.settings.formatting) readTextEdits

def organizeActions (uri : String) (range : Range) :
    Routine Client (Except ClientError (List CodeAction)) :=
  request "textDocument/codeAction" (Params.organize uri range) readOrganizeImports

/-! ## diagnostics -/

/-- What was published last about a document. -/
def diagnostics (uri : String) : Routine Client (List Diagnostic) :=
  Routine.read fun c => c.published.read uri

def setPublished (published : Published) (c : Client) : Client :=
  { c with published := published }

/-- more turns of a wait than there are publications -/
def maxTurns : Nat := 2 ^ 64

/-- Wait for the next publication about a document, for some milliseconds, then read. -/
def awaitDiagnostics (uri : String) (limit : Nat) : Routine Client (List Diagnostic) :=
  (Published.await maxTurns uri limit).zoom published setPublished

end Client

end CodeBridge
