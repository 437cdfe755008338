import CodeBridge.File.System
import CodeBridge.Settings.Document
import CodeBridge.Settings.Server

/-!
# Settings

What a settings file says: the root of the workspace and the settings of the server.

* `expand`   a text with its references `${NAME}` replaced by values of the environment, in one
             pass from left to right; a value is not looked at again;
* `load`     the settings of a file, none when there is no such file.
-/

namespace CodeBridge

/-- Variables and their values, which may not be text. -/
abbrev Environment := List (String × Bytes)

namespace Environment

/-- What follows the name and an equals sign in some `NAME=value`; so a name that holds equals signs
also asks for the rest of a value. -/
def get? (env : Environment) (name : String) : Option Bytes :=
  let wanted := Utf8.ofString name ++ [0x3D]
  env.findSome? fun (known, value) =>
    let entry := Utf8.ofString known ++ 0x3D :: value
    if wanted.isPrefixOf entry then some (entry.drop wanted.length) else none

/-- The value of a variable; empty when it is unset or not text. -/
def textOf (env : Environment) (name : List Char) : List Char :=
  match (env.get? (String.ofList name)).bind Utf8.text? with
  | some s => s.toList
  | none => []

end Environment

/-! ## references -/

/-- Split a text at its first `c`. -/
def splitAtFirst? (c : Char) : List Char → Option (List Char × List Char)
  | [] => none
  | x :: xs => if x = c then some ([], xs) else (splitAtFirst? c xs).map fun (a, b) => (x :: a, b)

theorem length_of_splitAtFirst? {c : Char} {cs a b : List Char}
    (h : splitAtFirst? c cs = some (a, b)) : b.length < cs.length := by
  induction cs generalizing a with
  | nil => simp [splitAtFirst?] at h
  | cons x xs ih =>
    simp only [splitAtFirst?] at h
    split at h
    · cases h; simp
    · simp only [Option.map_eq_some_iff] at h
      obtain ⟨⟨a', b'⟩, h1, h2⟩ := h
      simp only [Prod.mk.injEq] at h2
      obtain ⟨_, rfl⟩ := h2
      exact Nat.lt_succ_of_lt (ih h1)

/-- The text with its references replaced, from left to right. -/
def expandChars (env : Environment) : List Char → List Char
  | '$' :: '\x7b' :: rest =>
    match h : splitAtFirst? '\x7d' rest with
    | some (name, after) =>
      have : after.length < rest.length := length_of_splitAtFirst? h
      (if name.isEmpty then [] else env.textOf name) ++ expandChars env after
    | none => '$' :: '\x7b' :: rest
  | c :: rest => c :: expandChars env rest
  | [] => []
termination_by cs => cs.length

def expand (env : Environment) (text : String) : String :=
  String.ofList (expandChars env text.toList)

/-- The names in the references of a text. -/
def referencedChars : List Char → List (List Char)
  | '$' :: '\x7b' :: rest =>
    match h : splitAtFirst? '\x7d' rest with
    | some (name, after) =>
      have : after.length < rest.length := length_of_splitAtFirst? h
      name :: referencedChars after
    | none => []
  | _ :: rest => referencedChars rest
  | [] => []
termination_by cs => cs.length

def referencedNames (text : String) : List String :=
  (referencedChars text.toList).map String.ofList

/-! ## the settings -/

structure Settings where
  /-- directory handed to the server as its root -/
  workspaceRoot : Option Path := none
  server : ServerSettings := {}
  deriving DecidableEq, Repr

namespace Settings

def ofValue : Document.Reading Settings :=
  .record "TetherConfig"
    [Document.field "workspace_root" (.textAs "path string") fun s t =>
        { s with workspaceRoot := some (Path.ofString t) },
      Document.field "lsp" ServerSettings.ofValue fun s server => { s with server }]
    {}

/-- References in the command and in the root replaced. -/
def expanded (env : Environment) (s : Settings) : Settings :=
  { workspaceRoot := s.workspaceRoot.map fun p => Path.ofString (expand env p.display)
    server := { s.server with command := expand env s.server.command } }

end Settings

/-! ## files -/

inductive SettingsFault where
  | read (fault : IoError)
  /-- the text describes no map -/
  | malformed (mark : Document.Mark)
  | wrongType (fault : DecodeError) (mark : Document.Mark)
  deriving DecidableEq, Repr

structure SettingsError where
  path : Path
  fault : SettingsFault
  deriving DecidableEq, Repr

/-- The settings that a text describes.  A number that no type holds is a fault of the text, and so
is one that 64 bits do not hold when anything else is wrong. -/
def Settings.ofText (env : Environment) (text : String) : Except SettingsFault Settings :=
  let mark := Document.markOf text.toList
  match Document.parse text.toList with
  | .error place => .error (.malformed (mark place))
  | .ok v =>
    match v.huge?, Settings.ofValue v with
    | some place, _ => .error (.malformed (mark place))
    | none, .ok s => .ok (s.expanded env)
    | none, .error misfit =>
      .error (if v.hasWide then .malformed (mark misfit.place)
        else .wrongType misfit.error (mark misfit.place))

/-- The settings of a file; none when there is no such file. -/
def Settings.load (d : Disk) (env : Environment) (path : Path) :
    Except SettingsError (Option Settings) :=
  match d.readText path with
  | .error .notFound => .ok none
  | .error fault => .error ⟨path, .read fault⟩
  | .ok text =>
    match Settings.ofText env text with
    | .error fault => .error ⟨path, fault⟩
    | .ok s => .ok (some s)

/-! ## where settings are kept -/

/-- the directory of a user without `HOME` -/
def defaultHome : Path := Path.ofString "/root"

def homeDirectory (env : Environment) : Path :=
  match env.get? "HOME" with
  | some (b :: bs) => ⟨b :: bs⟩
  | _ => defaultHome

/-- directory of the settings and of the log -/
def settingsDirectory (env : Environment) : Path :=
  (homeDirectory env).join (Path.ofString ".tether")

def settingsPath (env : Environment) : Path :=
  (settingsDirectory env).join (Path.ofString "config.toml")

end CodeBridge
