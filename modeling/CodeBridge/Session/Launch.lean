import CodeBridge.Client.Error
import CodeBridge.Settings.Basic

/-!
# Finding and starting a program

A command with a separator in it is a path; any other is looked for in the directories of `PATH`,
and the first file there that may be run is it.  A file that begins with `#!` is run by the program
that its first line names.
-/

namespace CodeBridge.Launch

/-- directories that are searched when nothing else is said -/
def defaultPath : Bytes :=
  Utf8.ofString "/usr/local/sbin:/usr/local/bin:/usr/sbin:/usr/bin:/sbin:/bin"

def colon : UInt8 := 0x3A

/-- The directories that are searched. -/
def searchPath (env : Environment) : List Path :=
  (piecesAt colon ((env.get? "PATH").getD defaultPath)).map Path.mk

/-- A file that somebody may run. -/
def isProgram (d : Disk) (p : Path) : Bool :=
  match d.stat p with
  | .ok (_, .file _ mode) => mode % 2 = 1 || mode / 8 % 2 = 1 || mode / 64 % 2 = 1
  | _ => false

/-- The file that a command stands for. -/
def find? (d : Disk) (env : Environment) (command : String) : Option Path :=
  let p := Path.ofString command
  if p.components.length > 1 then
    let whole := match d.cwd with
      | some dir => (Path.ofNames dir).join p
      | none => p
    if isProgram d whole then some whole else none
  else ((searchPath env).map (·.join p)).find? (isProgram d)

/-- The program that the first line of a script names, and one argument for it. -/
def interpreter? (script : Bytes) : Option (Path × Option String) :=
  match script with
  | 0x23 :: 0x21 :: rest =>
    let line := (Utf8.decodeLossy (rest.takeWhile (· ≠ 0x0A))).toList
    let blank (c : Char) := c = ' ' || c = '\t'
    let words := line.dropWhile blank
    let argument := (words.dropWhile (!blank ·)).dropWhile blank
    let argument := (argument.reverse.dropWhile blank).reverse
    some (Path.ofString (String.ofList (words.takeWhile (!blank ·))),
      if argument.isEmpty then none else some (String.ofList argument))
  | _ => none

/-- What is run in the end: a program by its name, and its arguments. -/
structure Program where
  name : String
  args : List String
  deriving DecidableEq, Repr

/-- how the file of a program begins; the program's name follows -/
def nativeMark : Bytes := [0x7F, 0x45, 0x4C, 0x46]

/-- The contents of a program's file. -/
def native (name : String) : Bytes := nativeMark ++ Utf8.ofString name

def native? (bytes : Bytes) : Option String :=
  if nativeMark.isPrefixOf bytes then some (Utf8.decodeLossy (bytes.drop nativeMark.length))
  else none

/-- An interpreter has to be there and to be a program. -/
def checkInterpreter (d : Disk) (file : Path) : Except IoError Unit := do
  let _ ← d.stat file
  if !isProgram d file then throw .denied

/-- how many interpreters may run one another -/
def maxInterpreters : Nat := 5

/-- Start a file; a script is started by its interpreter, which may be a script itself. -/
def startWithin (d : Disk) : Nat → Path → List String → Except IoError Program
  | 0, _, _ => .error .badFormat
  | fuel + 1, file, args => do
    let bytes ← d.read file
    match interpreter? bytes, native? bytes with
    | some (by_, argument), _ =>
      if by_.bytes.isEmpty then throw .badFormat
      checkInterpreter d by_
      startWithin d fuel by_ (argument.toList ++ file.display :: args)
    | none, some name => return ⟨name, args⟩
    | none, none => throw .badFormat

def start (d : Disk) (file : Path) (args : List String) : Except IoError Program :=
  startWithin d maxInterpreters file args

/-- The program that the settings of a server stand for. -/
def ofSettings (d : Disk) (env : Environment) (s : ServerSettings) :
    Except ClientError Program :=
  match find? d env s.command with
  | none => .error (.commandNotFound s.command)
  | some file => (start d file s.args).mapError (ClientError.spawn s.command)

end CodeBridge.Launch
