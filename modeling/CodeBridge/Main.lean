import CodeBridge.CommandLine.Run

/-!
# The program

The program takes the working directory and the settings into memory, makes a run of the command on
them, and puts back what the run has changed.  Servers are the small programs that the library can
run by itself, and scripts for them.
-/

namespace CodeBridge.Program

/-- Names of the programs that a run can start. -/
def programs : List String := Shell.programs

/-- A file as it is taken into memory; a script may be run. -/
def fileNode (bytes : Bytes) : Node :=
  .file bytes (if (Launch.interpreter? bytes).isSome then 0o755 else 0o644)

abbrev Nodes := List (List Name × Node)

def namesOf (path : String) : List Name := Path.resolve (Path.ofString path).components

/-- An entry of a directory and all that is below it. -/
partial def take (entry : IO.FS.DirEntry) : IO Nodes := do
  let names := namesOf entry.path.toString
  if ← entry.path.isDir then
    let below ← (← entry.path.readDir).toList.mapM take
    return (names, .dir FileSystem.openMode) :: below.flatten
  else
    let bytes ← IO.FS.readBinFile entry.path
    return [(names, fileNode bytes.toList)]

/-- A directory that may not be there, with all that is below it. -/
def takeBelow (path : String) (entries : IO (Array IO.FS.DirEntry)) : IO Nodes := do
  try
    let below ← (← entries).toList.mapM take
    return (namesOf path, .dir FileSystem.openMode) :: below.flatten
  catch _ => return []

/-- The directories above a directory. -/
def above (names : List Name) : Nodes :=
  (List.range names.length).map fun i => (names.take i, .dir FileSystem.openMode)

/-- The files of the programs. -/
def programNodes : Nodes :=
  let dir := namesOf "/usr/bin"
  above dir ++ (dir, .dir FileSystem.openMode) ::
    programs.map fun p => (dir ++ [Utf8.ofString p], .file (Launch.native p) 0o755)

/-- The values of readVariables. -/
def readVariables (names : List String) : IO Environment := do
  let values ← names.mapM fun name => do
    return (← IO.getEnv name).map fun value => (name, Utf8.ofString value)
  return values.filterMap id

def toArray (bytes : Bytes) : ByteArray := ⟨bytes.toArray⟩

/-- Put back the files that a run has changed. -/
def putBack (before after : FileSystem) : IO Unit := do
  for (names, node) in after.nodes.reverse do
    if before.get? names ≠ some node then
      let path := (Path.ofNames names).display
      match node with
      | .file bytes _ => IO.FS.writeBinFile path (toArray bytes)
      | .dir _ => IO.FS.createDirAll path
  for (names, node) in before.nodes do
    if !node.isDir && (after.get? names).isNone then IO.FS.removeFile (Path.ofNames names).display

/-- All bytes of a stream. -/
partial def readAll (stream : IO.FS.Stream) (soFar : ByteArray) : IO Bytes := do
  let chunk ← stream.read 65536
  if chunk.isEmpty then return soFar.toList else readAll stream (soFar ++ chunk)

end CodeBridge.Program

open CodeBridge CodeBridge.Program in
def main (args : List String) : IO UInt32 := do
  let cwd ← IO.currentDir
  let home ← readVariables ["HOME"]
  let settings := (settingsDirectory home).display
  let here ← takeBelow cwd.toString cwd.readDir
  let kept ← takeBelow settings (do
    let files ← (cwd / settings).readDir
    return files)
  let system : FileSystem := ⟨here ++ kept ++ above (namesOf cwd.toString) ++
    above (namesOf settings) ++ programNodes⟩
  let texts := system.nodes.filterMap fun (_, node) =>
    match node with
    | .file bytes _ => Utf8.text? bytes
    | .dir _ => none
  let environment ← readVariables ("HOME" :: (texts.flatMap referencedNames).eraseDups)
  let input ← readAll (← IO.getStdin) ByteArray.empty
  let outcome := CommandLine.run ⟨system, some (namesOf cwd.toString)⟩ environment args input
  putBack system outcome.disk.system
  (← IO.getStdout).write (toArray outcome.output)
  for line in outcome.complaints do IO.eprintln line
  return UInt32.ofNat outcome.exitCode
