import CodeBridge.File.System

/-!
# Staged files

New contents are first written to a fresh file beside the target, which is all that can fail for
want of room or of a directory, and then moved over the target in one step:

* `stage`     write the fresh file and note the mode of the target;
* `commit`    move it over the target and give it that mode;
* `discard`   remove it.

A directory in the way of a commit is moved aside, under the extension `bak`, and stays there.
-/

namespace CodeBridge

/-- Contents that wait to replace their target. -/
structure Staged where
  /-- the fresh file; it is lost when a directory that its path goes through is moved -/
  temp : Path
  target : Path
  /-- mode of the target when the contents were staged -/
  mode : Option Nat
  deriving DecidableEq, Repr

namespace Staged

/-- how the name of a fresh file begins -/
def tempStem : Name := Utf8.ofString ".tmp"

/-- A number in letters, the last place first; nothing for zero. -/
def letters (n : Nat) : Bytes :=
  if n = 0 then [] else UInt8.ofNat (0x61 + n % 26) :: letters (n / 26)

/-- The first number from `n` on whose letters make no name in use. -/
def freeNumber (used : List Name) (n : Nat) : Nat :=
  let name := tempStem ++ letters n
  if name ∈ used then freeNumber (used.erase name) (n + 1) else n
termination_by used.length
decreasing_by
  rename_i h
  have := List.length_pos_of_mem h
  rw [List.length_erase_of_mem h]
  omega

/-- A name that is no part of any path in use, nor one of those that are taken. -/
def freshName (taken : List Name) (fs : FileSystem) : Name :=
  tempStem ++ letters (freeNumber (taken ++ fs.nodes.flatMap (·.1)) 0)

/-- mode of a fresh file -/
def tempMode : Nat := 0o600

/-- Write contents beside their target, under a name that is not taken. -/
def stageApart (taken : List Name) (d : Disk) (target : Path) (bytes : Bytes) :
    Except IoError (Staged × Disk) := do
  let mode := match d.stat target with
    | .ok (_, node) => some node.mode
    | .error _ => none
  let dir ← match target.parent.isAbsolute, d.cwd with
    | true, _ => pure target.parent
    | false, some cwd => pure ((Path.ofNames cwd).join target.parent)
    | false, none => throw .notFound
  let temp := dir.join ⟨freshName taken d.system⟩
  let d ← d.write temp bytes tempMode
  return (⟨temp, target, mode⟩, d)

def stage (d : Disk) (target : Path) (bytes : Bytes) : Except IoError (Staged × Disk) :=
  stageApart [] d target bytes

/-- The disk without the fresh file, if it can be found. -/
def discard (d : Disk) (s : Staged) : Disk := (d.unlink s.temp).toOption.getD d

/-- the extension of what a commit moves aside -/
def backup : Bytes := Utf8.ofString "bak"

/-- Move the fresh file over its target, moving what is in the way aside. -/
def persist (d : Disk) (s : Staged) : Except IoError Unit × Disk :=
  match d.rename s.temp s.target with
  | .ok d => (.ok (), d)
  | .error fault =>
    match d.stat s.target with
    | .error _ => (.error fault, s.discard d)
    | .ok _ =>
      let aside := s.target.withExtension backup
      let d := (d.unlink aside).toOption.getD d
      match d.rename s.target aside with
      | .error fault => (.error fault, s.discard d)
      | .ok moved =>
        match moved.rename s.temp s.target with
        | .error fault =>
          let back := (moved.rename aside s.target).toOption.getD moved
          (.error fault, s.discard back)
        | .ok done => (.ok (), (done.unlink aside).toOption.getD done)

def commit (d : Disk) (s : Staged) : Except IoError Unit × Disk :=
  match s.persist d with
  | (.error fault, d) => (.error fault, d)
  | (.ok (), d) =>
    match s.mode with
    | none => (.ok (), d)
    | some mode => (.ok (), (d.chmod s.target mode).toOption.getD d)

end Staged

/-- Replace a file in one step. -/
def atomicWrite (d : Disk) (target : Path) (bytes : Bytes) : Except IoError Unit × Disk :=
  match Staged.stage d target bytes with
  | .error fault => (.error fault, d)
  | .ok (s, d) => s.commit d

end CodeBridge
