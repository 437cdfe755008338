import CodeBridge.File.Path

/-!
# Arguments

Three options take a value, which follows as the next argument or after an equals sign; two flags
ask for a text instead of a run.

* `Word.ofText`       what an argument looks like, whatever stands before it;
* `Arguments.parse`   the arguments read from left to right; the first thing wrong counts.

A value that stands in an argument of its own is looked at when the next option comes.
-/

namespace CodeBridge

structure Arguments where
  /-- settings file to read instead of the usual one -/
  settings : Option Path := none
  workspace : Option Path := none
  /-- program to start as the server -/
  server : Option String := none
  deriving DecidableEq, Repr

/-- Why there is no run. -/
inductive ArgumentError where
  | help (long : Bool)
  | version
  | missingValue
  | unexpected
  | repeated
  | needlessValue
  deriving DecidableEq, Repr

/-- asking for a text is no failure -/
def ArgumentError.exitCode : ArgumentError → Nat
  | .help _ | .version => 0
  | _ => 2

/-- An option that takes a value. -/
inductive Setting where
  | settings | workspace | server
  deriving DecidableEq, Repr

namespace Arguments

/-! ## words -/

/-- What an argument looks like. -/
inductive Word where
  /-- only operands follow -/
  | rest
  | setting (setting : Setting) (value : Option String)
  | help (long : Bool)
  | version
  /-- a flag with a value -/
  | needlessValue
  | unknown
  | operand (text : String)
  deriving DecidableEq, Repr

/-- A flag, which takes no value. -/
def flag (value : Option String) (word : Word) : Word :=
  if value.isSome then .needlessValue else word

/-- The option with this name. -/
def ofName (name : String) (value : Option String) : Word :=
  match name with
  | "config" => .setting .settings value
  | "workspace" => .setting .workspace value
  | "gopls" => .setting .server value
  | "help" => flag value (.help true)
  | "version" => flag value .version
  | _ => .unknown

/-- The name before an equals sign, and the value after it. -/
def splitValue (cs : List Char) : String × Option String :=
  let value := cs.dropWhile (· ≠ '=')
  (String.ofList (cs.takeWhile (· ≠ '=')),
    if value.isEmpty then none else some (String.ofList value.tail))

def Word.ofChars : List Char → Word
  | ['-', '-'] => .rest
  | '-' :: '-' :: cs => let (name, value) := splitValue cs; ofName name value
  | '-' :: 'h' :: _ => .help false
  | '-' :: 'V' :: _ => .version
  | '-' :: _ :: _ => .unknown
  | cs => .operand (String.ofList cs)

/-! ## reading -/

/-- Take in the value of an option; paths are not empty. -/
def take (s : Setting) (value : String) (a : Arguments) : Except ArgumentError Arguments :=
  let path : Except ArgumentError Path :=
    if value = "" then .error .missingValue else .ok (Path.ofString value)
  match s with
  | .settings =>
    if a.settings.isSome then .error .repeated
    else path.map fun p => { a with settings := some p }
  | .workspace =>
    if a.workspace.isSome then .error .repeated
    else path.map fun p => { a with workspace := some p }
  | .server =>
    if a.server.isSome then .error .repeated else .ok { a with server := some value }

/-- An option that has been named last, with its value if that has been read. -/
inductive Pending where
  | nothing
  | awaiting (setting : Setting)
  | given (setting : Setting) (value : String)
  deriving DecidableEq, Repr

/-- Be done with the option that has been named last. -/
def settle (a : Arguments) : Pending → Except ArgumentError Arguments
  | .nothing => .ok a
  | .awaiting _ => .error .missingValue
  | .given s value => a.take s value

/-- Read the arguments after those that gave `a` and `pending`. -/
def parseFrom (a : Arguments) (pending : Pending) : List Word → Except ArgumentError Arguments
  | [] => a.settle pending
  | .rest :: [] => a.settle pending
  | .rest :: _ => .error .unexpected
  | .unknown :: _ => .error .unexpected
  | .needlessValue :: _ => .error .needlessValue
  | .help long :: _ => (a.settle pending).bind fun _ => .error (.help long)
  | .version :: _ => (a.settle pending).bind fun _ => .error .version
  | .setting s none :: words => (a.settle pending).bind fun a => parseFrom a (.awaiting s) words
  | .setting s (some value) :: words =>
    (a.settle pending).bind fun a => (a.take s value).bind fun a => parseFrom a .nothing words
  | .operand text :: words =>
    match pending with
    | .awaiting s => parseFrom a (.given s text) words
    | _ => .error .unexpected

def parse (args : List String) : Except ArgumentError Arguments :=
  parseFrom {} .nothing (args.map fun a => Word.ofChars a.toList)

end Arguments

end CodeBridge
