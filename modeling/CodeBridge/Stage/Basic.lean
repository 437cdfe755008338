import CodeBridge.Concurrency.Scheduler
import CodeBridge.Service.Basic
import CodeBridge.Shell.Run
import CodeBridge.Stage.Step

/-!
# The stage

On a stage a host works with servers that are there: every client has a partner at the other end of
its connection, an actor that plays a script or a program that is run.  Writers, readers and
partners act whenever they can, and so does the output of the service, which takes one reply at a
time; whatever else goes on are the stage's tasks.
-/

namespace CodeBridge

/-! ## partners -/

/-- A program that is run, on the disk as it was when it was started. -/
structure Process where
  program : Launch.Program
  disk : Disk
  environment : Environment
  /-- input so far -/
  taken : Bytes := []
  /-- all the input has come -/
  complete : Bool := false
  /-- bytes of the output that have been sent -/
  sent : Nat := 0
  /-- it has been looked at -/
  begun : Bool := false
  ended : Bool := false
  deriving DecidableEq

namespace Process

/-- What the program has written so far, and whether it has ended. -/
def run (p : Process) : Bytes × Bool :=
  Shell.execute p.disk p.environment p.program.name (p.program.args.map Utf8.ofString) p.taken
    p.complete

/-- There is something new for the program. -/
def isReady (p : Process) (c : Connection) : Bool :=
  c.alive && !p.ended && (!p.begun || !c.outbound.isEmpty || (!c.writing && !p.complete))

/-- Hand the program what there is for it, and take what it writes. -/
def advance (p : Process) (c : Connection) : Process × Connection :=
  let p := { p with
    taken := p.taken ++ c.outbound
    complete := p.complete || !c.writing
    begun := true }
  let (output, ended) := p.run
  let c := { c with outbound := [] }.deliver (output.drop p.sent)
  ({ p with sent := output.length, ended := ended }, if ended then c.exited else c)

end Process

inductive Partner where
  | actor (a : Actor)
  | process (p : Process)
  /-- nobody at all -/
  | nobody
  deriving Inhabited

/-! ## the stage -/

/-- What a stage is asked to do beside what is going on. -/
inductive Errand where
  /-- the rest of an action of a client's actor, for the message with this id -/
  | action (client : Nat) (id : Option Json) (rest : Action)
  /-- a request to the service -/
  | answer (id : Json) (request : ToolRequest)
  /-- a step whose report is due at a place -/
  | step (place : Nat) (step : Step)

structure Stage where
  host : Host
  partners : List Partner := []
  errands : List Errand := []
  /-- requests to the service that have been taken up and are not done with -/
  inFlight : Nat := 0
  /-- the service is over, and with it the requests in flight -/
  dismissed : Bool := false
  /-- replies on their way to the output of the service -/
  outgoing : List Reply := []
  /-- replies that the output of the service has taken, the first one first -/
  replies : List Reply := []
  /-- places for reports of steps that go on side by side -/
  reports : List (Option Report) := []
  scenes : List Scene := []
  /-- the client that client steps are about; else it is the session's -/
  fixedClient : Option Nat := none

namespace Stage

def onHost {α : Type} (r : Routine Host α) : Routine Stage α :=
  r.zoom host fun h s => { s with host := h }

def clientAt (k : Nat) (s : Stage) : Client := s.host.clientAt k

def setConnection (k : Nat) (c : Connection) (s : Stage) : Stage :=
  { s with host := s.host.setClient k ((s.clientAt k).setConnection c) }

def connectionAt (k : Nat) (s : Stage) : Connection := (s.clientAt k).connection

def partnerAt (k : Nat) (s : Stage) : Partner := s.partners[k]?.getD .nobody

def setPartner (k : Nat) (p : Partner) (s : Stage) : Stage :=
  { s with partners := s.partners.set k p }

/-! ## actors -/

/-- Let the actor of a client act on one cue. -/
def perform (k : Nat) (id : Option Json) (cue : Cue) (s : Stage) : Stage :=
  s.setConnection k (cue.perform id (s.connectionAt k))

/-- Act on cues one after the other. -/
def act (k : Nat) (id : Option Json) : Action → Routine Stage Unit
  | [] => .done ()
  | .delay ms :: rest => (Routine.sleep ms).bind fun _ => act k id rest
  | cue :: rest => (Routine.change (perform k id cue)).bind fun _ => act k id rest

/-- Act at once on the cues before a delay; the rest is an errand. -/
def startAction (k : Nat) (id : Option Json) (action : Action) (s : Stage) : Stage :=
  let s := (action.takeWhile (!·.isDelay)).foldl (fun s cue => s.perform k id cue) s
  match action.dropWhile (!·.isDelay) with
  | [] => s
  | rest => { s with errands := s.errands ++ [.action k id rest] }

/-- The actor of a client takes in the next message. -/
def hear (k : Nat) (a : Actor) (s : Stage) : Stage :=
  let c := s.connectionAt k
  match Frame.next false c.outbound with
  | some (.frame message, rest) =>
    let (id, action, a) := a.attend message
    ((s.setConnection k { c with outbound := rest }).setPartner k (.actor a)).startAction k id
      action
  | _ => s.setConnection k { c with outbound := [] }

/-! ## replies of the service -/

def send (r : Reply) (s : Stage) : Stage := { s with outgoing := s.outgoing ++ [r] }

/-- A request is done with. -/
def finishRequest (s : Stage) : Stage := { s with inFlight := s.inFlight - 1 }

/-- The service ends here and now. -/
def dismiss (s : Stage) : Stage := { s with dismissed := true }

/-- The output takes the next reply. -/
def writeReply (s : Stage) : Stage :=
  match s.outgoing with
  | [] => s
  | r :: rest => { s with outgoing := rest, replies := s.replies ++ [r] }

/-- The output takes every reply that is on its way. -/
def writeAll (s : Stage) : Stage :=
  { s with outgoing := [], replies := s.replies ++ s.outgoing }

/-! ## who acts -/

/-- What acts beside the tasks: the output of the service, and for each client a writer, a reader
and a partner. -/
inductive Part where
  | output
  | writer (client : Nat)
  | reader (client : Nat)
  | partner (client : Nat)
  deriving DecidableEq, Repr

def Part.ofIndex : Nat → Part
  | 0 => .output
  | i + 1 =>
    if i % 3 = 0 then .writer (i / 3) else if i % 3 = 1 then .reader (i / 3) else .partner (i / 3)

def isReady (i : Nat) (s : Stage) : Bool :=
  match Part.ofIndex i with
  | .output => !s.outgoing.isEmpty
  | .writer k => (s.connectionAt k).canWrite
  | .reader k => (s.connectionAt k).canRead
  | .partner k =>
    let c := s.connectionAt k
    match s.partnerAt k with
    | .actor _ => c.listening && !c.outbound.isEmpty
    | .process p => p.isReady c
    | .nobody => false

def react (i : Nat) (s : Stage) : Stage :=
  match Part.ofIndex i with
  | .output => s.writeReply
  | .writer k => s.setConnection k (s.connectionAt k).writeNext
  | .reader k => { s with host := s.host.setClient k (s.clientAt k).readNext }
  | .partner k =>
    match s.partnerAt k with
    | .actor a => s.hear k a
    | .process p =>
      let (p, c) := p.advance (s.connectionAt k)
      (s.setConnection k c).setPartner k (.process p)
    | .nobody => s

/-! ## servers -/

/-- The partner of a client that the host has started a program for. -/
def partnerOf (h : Host) (program : Option Launch.Program) : Partner :=
  match program with
  | some program => .process ⟨program, h.disk, h.environment, [], false, 0, false, false⟩
  | none => .nobody

/-- Give every client a partner. -/
def castPartners (s : Stage) : Stage :=
  let fresh := s.host.programs.drop s.partners.length
  if fresh.isEmpty then s
  else { s with partners := s.partners ++ fresh.map (partnerOf s.host) }

end Stage

end CodeBridge
