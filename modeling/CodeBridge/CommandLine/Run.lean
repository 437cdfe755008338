import CodeBridge.CommandLine.Arguments
import CodeBridge.CommandLine.Help
import CodeBridge.CommandLine.Log
import CodeBridge.Stage.Play

/-!
# A run of the command

A run reads the arguments and the settings, starts the server, answers the requests on its input and
sees the server off.  What goes wrong before that ends the run with one line of complaint.
-/

namespace CodeBridge.CommandLine

/-- Why a run fails. -/
inductive Failure where
  | settings (fault : SettingsError)
  | noSettings (path : Path)
  | noDirectory
  | notStarted (fault : ClientError)
  | unreadableInput (fault : Utf8.Error)
  deriving DecidableEq, Repr

/-- The messages of a settings error and of what it carries; a fault in the text of a file is named by
its place. -/
def settingsChain (e : SettingsError) : List String :=
  match e.fault with
  | .read fault => [s!"failed to read config at {e.path.display}: {fault.message}", fault.message]
  | .malformed mark | .wrongType _ mark =>
    [s!"failed to parse config at {e.path.display}: TOML parse error at line {mark.line}, " ++
      s!"column {mark.column}"]

def Failure.chain : Failure → List String
  | .settings fault => settingsChain fault
  | .noSettings path => [s!"config file {path.display} does not exist"]
  | .noDirectory => ["failed to resolve current directory", IoError.notFound.message]
  | .notStarted fault => "failed to start language server" :: fault.chain
  | .unreadableInput fault => [fault.message]

def Failure.message (f : Failure) : String := ": ".intercalate f.chain

/-- What a run leaves behind. -/
structure Outcome where
  exitCode : Nat
  output : Bytes := []
  complaints : List String := []
  disk : Disk

/-- The settings with what the arguments say put over them. -/
def settings (d : Disk) (env : Environment) (args : Arguments) : Except Failure Settings := do
  let loaded ← match args.settings with
    | some path => do
      match ← (Settings.load d env path).mapError .settings with
      | some s => pure s
      | none => throw (.noSettings path)
    | none => do
      let loaded ← (Settings.load d env (settingsPath env)).mapError .settings
      pure (loaded.getD {})
  return {
    workspaceRoot := args.workspace <|> loaded.workspaceRoot
    server := { loaded.server with command := args.server.getD loaded.server.command } }

/-- The root of the workspace: the working directory when nothing else is said. -/
def root (d : Disk) (s : Settings) : Except Failure Path :=
  match s.workspaceRoot, d.cwd with
  | some path, _ => .ok path
  | none, some cwd => .ok (Path.ofNames cwd)
  | none, none => .error .noDirectory

/-- Start the server, answer the requests, see the server off. -/
def session (input : Bytes) : Routine Stage (Option Failure) :=
  (Stage.onHost Session.start).bind fun
    | .error fault => .done (some (.notStarted fault))
    | .ok () =>
      (Stage.serve input).bind fun fault =>
        (Stage.onHost Session.shutdown).bind fun _ => .done (fault.map .unreadableInput)

/-- What is left of a run that has started its session. -/
def outcome (failure : Option Failure) (s : Stage) : Outcome where
  exitCode := if failure.isSome then 1 else 0
  output := s.replies.flatMap Reply.line
  complaints := failure.toList.map fun f => s!"Error: {f.message}"
  disk := s.host.disk

/-- A run with arguments that could be read. -/
def runWith (d : Disk) (env : Environment) (args : Arguments) (input : Bytes) : Outcome :=
  let prepared : Except Failure Stage := do
    let s ← settings d env args
    let root ← root d s
    return { host := { disk := d, environment := env, settings := s.server, root := root } }
  match prepared with
  | .error failure => { exitCode := 1, complaints := [s!"Error: {failure.message}"], disk := d }
  | .ok stage =>
    let (failure, stage) := stage.finish (session input)
    outcome (failure.getD none) stage

/-- The text that is asked for instead of a run. -/
def text : ArgumentError → String
  | .help true => Help.longText
  | .help false => Help.shortText
  | .version => Help.versionText
  | _ => ""

/-- A run from its arguments on. -/
def run (d : Disk) (env : Environment) (args : List String) (input : Bytes) : Outcome :=
  match Arguments.parse args with
  | .error fault => { exitCode := fault.exitCode, output := Utf8.ofString (text fault), disk := d }
  | .ok args => runWith (Log.open_ d env) env args input

end CodeBridge.CommandLine
