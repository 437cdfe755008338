import CodeBridge.File.Path

/-!
# A file system

Files with their bytes and permission bits, and directories, each under the list of names that
leads to it from the root.  The links of a process to its root are the only ones, so two paths may
lead to one file although they have different names.

* `get?` is the view of a file system; `set`, `erase`, `move` are described through it;
* `Disk.locate` takes the steps of a path past the links, which needs every directory on the way to
  exist;
* `Disk.read`, `stat?`, `create`, `rename`, `unlink`, `chmod` fail as the system calls do.
-/

namespace CodeBridge

/-! ## what can go wrong -/

inductive IoError where
  | notFound
  | notDirectory
  | isDirectory
  | notEmpty
  | nameTooLong
  | busy
  | denied
  | badFormat
  | nul
  | notText
  deriving DecidableEq, Repr

namespace IoError

def message : IoError → String
  | notFound => "No such file or directory (os error 2)"
  | notDirectory => "Not a directory (os error 20)"
  | isDirectory => "Is a directory (os error 21)"
  | notEmpty => "Directory not empty (os error 39)"
  | nameTooLong => "File name too long (os error 36)"
  | denied => "Permission denied (os error 13)"
  | badFormat => "Exec format error (os error 8)"
  | busy => "Device or resource busy (os error 16)"
  | nul => "file name contained an unexpected NUL byte"
  | notText => "stream did not contain valid UTF-8"

end IoError

/-! ## nodes -/

inductive Node where
  | file (bytes : Bytes) (mode : Nat)
  | dir (mode : Nat)
  deriving DecidableEq, Repr

namespace Node

def mode : Node → Nat
  | file _ m => m
  | dir m => m

def withMode (m : Nat) : Node → Node
  | file bytes _ => file bytes m
  | dir _ => dir m

def isDir : Node → Bool
  | dir _ => true
  | file .. => false

end Node

/-- Nodes under the names that lead to them; the root is always there. -/
structure FileSystem where
  nodes : List (List Name × Node)
  deriving DecidableEq, Repr, Inhabited

namespace FileSystem

def lookup (names : List Name) : List (List Name × Node) → Option Node
  | [] => none
  | (k, v) :: rest => if k = names then some v else lookup names rest

/-- permission bits of a directory that everybody may read -/
def openMode : Nat := 0o755

def get? (fs : FileSystem) (names : List Name) : Option Node :=
  if names = [] then some (.dir openMode) else lookup names fs.nodes

def erase (fs : FileSystem) (names : List Name) : FileSystem :=
  ⟨fs.nodes.filter fun (k, _) => k ≠ names⟩

def set (fs : FileSystem) (names : List Name) (node : Node) : FileSystem :=
  ⟨(names, node) :: (fs.erase names).nodes⟩

/-- The entries below a directory. -/
def below (fs : FileSystem) (dir : List Name) : List (List Name × Node) :=
  fs.nodes.filter fun (k, _) => dir.isPrefixOf k && k ≠ dir

/-- Move a node and everything below it. -/
def move (fs : FileSystem) (source target : List Name) : FileSystem :=
  let kept := fs.nodes.filter fun (k, _) => !(source.isPrefixOf k) && k ≠ target
  let moved := fs.nodes.filterMap fun (k, v) =>
    if source.isPrefixOf k then some (target ++ k.drop source.length, v) else none
  ⟨moved ++ kept⟩

theorem lookup_filter_ne (l : List (List Name × Node)) (a b : List Name) (h : b ≠ a) :
    lookup b (l.filter fun (k, _) => k ≠ a) = lookup b l := by
  induction l with
  | nil => rfl
  | cons x l ih =>
    obtain ⟨k, v⟩ := x
    by_cases hk : k = a
    · subst hk
      simp [lookup, Ne.symm h] at ih ⊢
      exact ih
    · by_cases hb : k = b
      · simp [lookup, hb, h]
      · simp [lookup, hk, hb] at ih ⊢
        exact ih

theorem get?_set_self (fs : FileSystem) (a : List Name) (node : Node) (h : a ≠ []) :
    (fs.set a node).get? a = some node := by
  simp [get?, set, lookup, h]

theorem get?_set_ne (fs : FileSystem) (a b : List Name) (node : Node) (h : b ≠ a) :
    (fs.set a node).get? b = fs.get? b := by
  simp only [get?, set, erase, lookup]
  split
  · rfl
  · rw [if_neg (Ne.symm h), lookup_filter_ne _ _ _ h]

theorem get?_erase_ne (fs : FileSystem) (a b : List Name) (h : b ≠ a) :
    (fs.erase a).get? b = fs.get? b := by
  simp only [get?, erase]
  split
  · rfl
  · rw [lookup_filter_ne _ _ _ h]

end FileSystem

/-! ## a disk -/

/-- A file system seen from a working directory, which may have been removed. -/
structure Disk where
  system : FileSystem
  cwd : Option (List Name)
  deriving DecidableEq, Repr, Inhabited

/-- Where a path leads: the names of its last step taken or left to take. -/
structure Place where
  names : List Name
  /-- the path asks for a directory -/
  asDir : Bool
  /-- the path ends in a step, so its last name cannot be changed -/
  fixed : Bool
  deriving DecidableEq, Repr

namespace Disk

def get? (d : Disk) (names : List Name) : Option Node := d.system.get? names

def update (d : Disk) (f : FileSystem → FileSystem) : Disk := { d with system := f d.system }

/-- bytes of the longest name -/
def maxName : Nat := 255

/-- bytes of the longest path -/
def maxPath : Nat := 4095

/-- What has to be so before the next step is taken. -/
def entered (d : Disk) (here : List Name) : Except IoError Unit :=
  if (here.head?.map fun n => decide (n.length > maxName)).getD false then .error .nameTooLong
  else
    match d.get? here.reverse with
    | none => .error .notFound
    | some (.file ..) => .error .notDirectory
    | some (.dir _) => .ok ()

/-- Take the steps of a path; `here` holds the names so far, the last one first. -/
def walk (d : Disk) (here : List Name) : List Path.Component → Except IoError (List Name)
  | [] => .ok here
  | c :: cs => do
    d.entered here
    d.walk (Path.step here c) cs

def locate (d : Disk) (p : Path) : Except IoError Place :=
  if p.bytes.contains 0 then .error .nul
  else if p.bytes.isEmpty then .error .notFound
  else if p.bytes.length > maxPath then .error .nameTooLong
  else
    match if p.isAbsolute then some [] else d.cwd with
    | none => .error .notFound
    | some start => do
      let here ← d.walk start.reverse p.route
      if (here.head?.map fun n => decide (n.length > maxName)).getD false then throw .nameTooLong
      let last := (Path.parts p.bytes).getLast?
      let asDir := last = some [] || last = some [Path.dot] || last = some [Path.dot, Path.dot]
      let fixed := match p.route.getLast? with
        | some (.name _) => last = some [Path.dot]
        | _ => true
      return ⟨here.reverse, asDir, fixed⟩

/-- The node that a path leads to. -/
def stat (d : Disk) (p : Path) : Except IoError (List Name × Node) := do
  let place ← d.locate p
  match d.get? place.names with
  | none => throw .notFound
  | some node => if place.asDir && !node.isDir then throw .notDirectory else return (place.names, node)

def read (d : Disk) (p : Path) : Except IoError Bytes := do
  match ← d.stat p with
  | (_, .file bytes _) => return bytes
  | (_, .dir _) => throw .isDirectory

/-- The text of a file. -/
def readText (d : Disk) (p : Path) : Except IoError String := do
  match Utf8.text? (← d.read p) with
  | some text => return text
  | none => throw .notText

/-- A directory that a path leads to. -/
def directory (d : Disk) (p : Path) : Except IoError (List Name) := do
  match ← d.stat p with
  | (names, .dir _) => return names
  | _ => throw .notDirectory

/-- Move a node under the name that a path leads to, over what is there. -/
def renameTo (d : Disk) (source : List Name) (target : Path) : Except IoError Disk := do
  let place ← d.locate target
  if place.fixed then throw .busy
  match d.get? source with
  | none => throw .notFound
  | some (.file ..) =>
    if place.asDir then throw .notDirectory
    match d.get? place.names with
    | some (.dir _) => throw .isDirectory
    | _ => pure ()
  | some (.dir _) =>
    match d.get? place.names with
    | some (.file ..) => throw .notDirectory
    | some (.dir _) =>
      if place.names ≠ source && !(d.system.below place.names).isEmpty then throw .notEmpty
    | none => pure ()
  if place.names = source then return d
  return d.update fun fs => fs.move source place.names

def rename (d : Disk) (source target : Path) : Except IoError Disk := do
  let place ← d.locate source
  if place.fixed then throw .busy
  let (names, _) ← d.stat source
  d.renameTo names target

/-- Remove a file. -/
def unlink (d : Disk) (p : Path) : Except IoError Disk := do
  match ← d.stat p with
  | (names, .file ..) => return d.update fun fs => fs.erase names
  | (_, .dir _) => throw .isDirectory

def chmod (d : Disk) (p : Path) (mode : Nat) : Except IoError Disk := do
  let (names, node) ← d.stat p
  return d.update fun fs => fs.set names (node.withMode mode)

/-- Write a file, a new one with the mode that is given. -/
def write (d : Disk) (p : Path) (bytes : Bytes) (mode : Nat) : Except IoError Disk := do
  let place ← d.locate p
  match d.get? place.names with
  | some (.dir _) => throw .isDirectory
  | some (.file _ m) =>
    if place.asDir then throw .notDirectory
    return d.update fun fs => fs.set place.names (.file bytes m)
  | none =>
    if place.asDir then throw .isDirectory
    return d.update fun fs => fs.set place.names (.file bytes mode)

end Disk

end CodeBridge
