import CodeBridge.Stage.Basic

/-!
# Plays

* `Step.routine`   what a step does and what it reports;
* `play`           steps one after another, each followed by a millisecond in which all that is on
                   its way arrives, and by a scene that says what it led to;
* `serve`          the service on its input, line after line;
* `finish`         a routine on a stage, to its end.
-/

namespace CodeBridge

def Lifecycle.name : Lifecycle → String
  | .uninitialized => "Uninitialized"
  | .initialized => "Initialized"
  | .shutDown => "ShutDown"

def Client.RenameOutcome.toJson (r : Client.RenameOutcome) : Json :=
  .obj [("edit", r.edit.toJson),
    ("prepared", Json.ofOption (r.prepared.map PrepareRename.toJson))]

namespace Report

def nothing : Except ClientError Unit → Report := ofExcept fun _ => .null

def list {α : Type} (toJson : α → Json) : Except ClientError (List α) → Report :=
  ofExcept fun xs => .arr (xs.map toJson)

def option {α : Type} (toJson : α → Json) : Except ClientError (Option α) → Report :=
  ofExcept fun x => Json.ofOption (x.map toJson)

def texts (xs : List String) : Report := value (.arr (xs.map .str))

def diagnostics (ds : List Diagnostic) : Report := value (.arr (ds.map Diagnostic.toJson))

end Report

/-- The report of a routine. -/
def Routine.report {σ α : Type} (r : Routine σ α) (f : α → Report) : Routine σ Report :=
  r.bind fun a => .done (f a)

/-! ## steps -/

namespace ClientStep

/-- Ask a client. -/
def routine : ClientStep → Routine Client Report
  | handshake uri => (Client.handshake uri).report .nothing
  | shutdown => Client.shutdown.report .nothing
  | terminate => Client.terminate.report .nothing
  | lifecycle => Client.readLifecycle.report fun l => .value (.str l.name)
  | capabilities => Client.readCapabilities.report fun c => .value (Json.ofOption c)
  | openDocument uri text => (Client.openDocument uri text).report .nothing
  | closeDocument uri => (Client.closeDocument uri).report .nothing
  | isOpen uri => (Client.isOpen uri).report fun b => .value (.bool b)
  | openDocuments => Client.openDocuments.report .texts
  | definition uri p => (Client.definition uri p).report (.list Location.toJson)
  | implementation uri p => (Client.implementation uri p).report (.list Location.toJson)
  | references uri p d => (Client.references uri p d).report (.list Location.toJson)
  | hover uri p => (Client.hover uri p).report (.option Hover.toJson)
  | prepareRename uri p => (Client.prepareRename uri p).report (.option PrepareRename.toJson)
  | rename uri p name => (Client.rename uri p name).report (.ofExcept Client.RenameOutcome.toJson)
  | documentSymbols uri => (Client.documentSymbols uri).report (.list DocumentSymbol.toJson)
  | workspaceSymbol query => (Client.workspaceSymbol query).report (.list SymbolInformation.toJson)
  | format uri => (Client.format uri).report (.list TextEdit.toJson)
  | organizeActions uri range => (Client.organizeActions uri range).report (.list CodeAction.toJson)
  | diagnostics uri => (Client.diagnostics uri).report .diagnostics
  | awaitDiagnostics uri ms => (Client.awaitDiagnostics uri ms).report .diagnostics

end ClientStep

namespace Stage

/-- Ask the client that client steps are about. -/
def askClient (step : ClientStep) : Routine Stage Report :=
  (Routine.read fixedClient).bind fun
    | some k => onHost (Host.onClient k step.routine)
    | none => (onHost Session.client).bind fun
      | .ok k => onHost (Host.onClient k step.routine)
      | .error fault => .done (.fault fault)

/-- Begin steps in order; gives the place of the first report. -/
def begin_ (steps : List Step) (s : Stage) : Nat × Stage :=
  let first := s.reports.length
  (first, { s with
    reports := s.reports ++ steps.map fun _ => none
    errands := s.errands ++ steps.mapIdx fun i step => .step (first + i) step })

def reportsFrom (first count : Nat) (s : Stage) : List (Option Report) :=
  (s.reports.drop first).take count

def fileReport (place : Nat) (r : Report) (s : Stage) : Stage :=
  { s with reports := s.reports.set place (some r) }

def info (s : Stage) : Json :=
  .obj [("config", s.host.settings.toJson), ("root", .str s.host.root.display)]

/-- The actor of the first client acts unasked, and without delays. -/
def push (action : Action) (s : Stage) : Stage :=
  (Actor.effective action).foldl (fun s cue => s.perform 0 (some .null) cue) s

end Stage

def Step.routine : Step → Routine Stage Report
  | client step => Stage.askClient step
  | start => (Stage.onHost Session.start).report .nothing
  | isRunning => (Stage.onHost Session.isRunning).report fun b => .value (.bool b)
  | findClient => (Stage.onHost Session.client).report (.ofExcept fun _ => .null)
  | stop => (Stage.onHost Session.shutdown).report .nothing
  | info => (Routine.read Stage.info).report .value
  | tool (.error fault) => .done (.badRequest fault)
  | tool (.ok request) =>
    (Stage.onHost (Tool.dispatch request)).report fun
      | .ok v => .value v
      | .error fault => .toolFault fault
  | push action => (Routine.change (Stage.push action)).report fun _ => .done
  | sleep ms => (Routine.sleep ms).report fun _ => .done
  | within ms step => (Routine.within ms step.routine).report fun r => r.getD .dropped
  | together steps =>
    (Routine.act (Stage.begin_ steps)).bind fun first =>
      let reports (s : Stage) := s.reportsFrom first steps.length
      (Routine.until_ fun s => (reports s).all (·.isSome)).bind fun _ =>
        Routine.read fun s => .all ((reports s).filterMap id)

/-! ## a stage at work -/

namespace Stage

/-- Give the reply to a request out, and be done with the request. -/
def deliver (r : Reply) : Routine Stage Unit :=
  (Routine.change (send r)).bind fun _ => Routine.change finishRequest

/-- What an errand asks for. -/
def errand : Errand → Routine Stage Unit
  | .action k id rest => act k id rest
  | .answer id request => (onHost (Service.answer id request)).bind deliver
  | .step place step => step.routine.bind fun r => Routine.change (fileReport place r)

/-- An errand that nobody waits for any more. -/
def isDropped : Errand → Stage → Bool
  | .answer .., s => s.dismissed
  | _, _ => false

def machine : Machine Stage where
  reactors s := 3 * s.host.clients.length + 1
  ready := isReady
  react := react
  spawned s :=
    let s := s.castPartners
    (s.errands.map fun e => ⟨errand e, isDropped e⟩, { s with errands := [] })

/-- most turns of a play -/
def maxTurns : Nat := 1000000

/-- What a routine comes to, and the stage after it; the output goes on by itself. -/
def finish {α : Type} (r : Routine Stage α) (s : Stage) : Option α × Stage :=
  let (result, s) := machine.finish maxTurns r s
  (result, s.writeAll)

/-! ## plays -/

/-- What the actor of the first client has got and not shown yet. -/
def received (s : Stage) : List Json :=
  match s.partnerAt 0 with
  | .actor a => a.received.reverse
  | _ => []

def forgetReceived (s : Stage) : Stage :=
  match s.partnerAt 0 with
  | .actor a => s.setPartner 0 (.actor { a with received := [] })
  | _ => s

/-- Add a scene. -/
def record (r : Report) (s : Stage) : Stage :=
  { s.forgetReceived with
    scenes := s.scenes ++ [⟨r, s.received, s.host.disk.system⟩] }

/-- milliseconds between two steps -/
def pauseLength : Nat := 1

def play : List Step → Routine Stage Unit
  | [] => .done ()
  | step :: steps =>
    step.routine.bind fun r =>
      (Routine.sleep pauseLength).bind fun _ =>
        (Routine.change (record r)).bind fun _ => play steps

/-! ## the service -/

/-- Take up what one line of the input asks for. -/
def takeUp (entry : Service.Entry) (s : Stage) : Stage :=
  match entry with
  | .blank => s
  | .rejected reply => s.send reply
  | .accepted id request =>
    { s with errands := s.errands ++ [.answer id request], inFlight := s.inFlight + 1 }

/-- The end of the input has come: see the requests through, then the replies. -/
def seeThrough : Routine Stage Unit :=
  (Routine.until_ fun s => s.inFlight = 0).bind fun _ => Routine.until_ fun s => s.outgoing.isEmpty

/-- Take up what the lines ask for, one after the other as they are read; the requests are answered
meanwhile.  A line that cannot be read ends the service there, and what is in flight is dropped. -/
def serveLines : List Bytes → Routine Stage (Option Utf8.Error)
  | [] => seeThrough.bind fun _ => .done none
  | line :: lines =>
    match Service.readLine line with
    | .ok entry => (Routine.change (takeUp entry)).bind fun _ => serveLines lines
    | .error fault => (Routine.change dismiss).bind fun _ => .done (some fault)

def serve (input : Bytes) : Routine Stage (Option Utf8.Error) :=
  serveLines (Service.inputLines input)

end Stage

end CodeBridge
