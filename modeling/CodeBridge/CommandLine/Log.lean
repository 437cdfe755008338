import CodeBridge.Edit.Files
import CodeBridge.Settings.Basic

/-!
# The log

The log stands beside the settings, in a directory of its own that is made when it is not there.
When that cannot be done there is no log, and nothing else changes.
-/

namespace CodeBridge

/-- Make a directory below one that is there, with all directories on the way to it. -/
def Disk.makeDirectories (d : Disk) (here : List Name) : List Name → Option Disk
  | [] => some d
  | n :: ns =>
    let next := here ++ [n]
    match d.get? next with
    | some (.dir _) => makeDirectories d next ns
    | some (.file ..) => none
    | none => makeDirectories (d.update fun fs => fs.set next (.dir FileSystem.openMode)) next ns

namespace Log

def directory (env : Environment) : Path :=
  (settingsDirectory env).join (Path.ofString "logs")

def file (env : Environment) : Path := (directory env).join (Path.ofString "tether.log")

/-- mode of a log that has just been made -/
def mode : Nat := 0o644

/-- The disk with the log on it, if it can be made. -/
def open_ (d : Disk) (env : Environment) : Disk :=
  match resolvePath d.cwd (directory env) with
  | .error _ => d
  | .ok names =>
    match d.makeDirectories [] names with
    | none => d
    | some made =>
      match made.stat (file env) with
      | .ok _ => made
      | .error _ => (made.write (file env) [] mode).toOption.getD made

end Log

end CodeBridge
