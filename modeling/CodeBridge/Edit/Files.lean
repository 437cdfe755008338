import CodeBridge.Edit.Apply
import CodeBridge.File.Staging
import CodeBridge.Uri.Basic

/-!
# Applying edits to files

The new contents of every file are computed and staged before the first file is replaced, so a
batch that fails leaves all files as they were:

* `applyTextEdits`          a batch of edits of one file;
* `applyToTarget`           the part of a workspace edit that is about one file;
* `applyWorkspaceEdit`      all of it, the entries of one file being one batch.
-/

namespace CodeBridge

/-! ## what can go wrong -/

/-- Why a path or a URI leads nowhere. -/
inductive PlaceError where
  /-- a relative path, and no working directory to see it from -/
  | noWorkingDirectory (path : Path)
  | uri (fault : UriError)
  deriving DecidableEq, Repr

def PlaceError.message : PlaceError → String
  | .noWorkingDirectory path =>
    s!"cannot resolve working directory for relative path {path.display}: " ++
      IoError.notFound.message
  | .uri fault => fault.message

inductive EditError where
  | read (path : Path) (fault : IoError)
  | write (path : Path) (fault : IoError)
  | edits (fault : EditFault)
  | place (fault : PlaceError)
  deriving DecidableEq, Repr

def EditError.message : EditError → String
  | .read path fault => s!"failed to read {path.display}: {fault.message}"
  | .write path fault => s!"failed to write {path.display}: {fault.message}"
  | .edits fault => fault.message
  | .place fault => fault.message

/-! ## places -/

/-- The names of a path, seen from a working directory that may be gone. -/
def resolvePath (cwd : Option (List Name)) (p : Path) : Except PlaceError (List Name) :=
  if p.isAbsolute then .ok (Path.resolve p.components)
  else
    match cwd with
    | some dir => .ok (Path.names (Path.ofNames dir) p)
    | none => .error (.noWorkingDirectory p)

/-- The path in normal form. -/
def normalizePath (cwd : Option (List Name)) (p : Path) : Except PlaceError Path :=
  (resolvePath cwd p).map Path.ofNames

/-- The URI of a path. -/
def uriOfPath (cwd : Option (List Name)) (p : Path) : Except PlaceError String :=
  (resolvePath cwd p).map Uri.ofNames

/-! ## one file -/

/-- The edited contents of a file, staged under a name that is not taken. -/
def stageEdits (taken : List Name) (d : Disk) (path : Path) (edits : List TextEdit) :
    Except EditError (Staged × Disk) := do
  let text ← (d.readText path).mapError (EditError.read path)
  let edited ← (applyEditsToText text edits).mapError EditError.edits
  (Staged.stageApart taken d path (Utf8.ofString edited)).mapError (EditError.write path)

def commitEdits (d : Disk) (s : Staged) : Except EditError Unit × Disk :=
  let (result, d) := s.commit d
  (result.mapError (EditError.write s.target), d)

/-- A batch of edits of one file; an empty one does not even read it. -/
def applyTextEdits (d : Disk) (path : Path) (edits : List TextEdit) : Except EditError Unit × Disk :=
  if edits.isEmpty then (.ok (), d)
  else
    match stageEdits [] d path edits with
    | .error fault => (.error fault, d)
    | .ok (s, d) => commitEdits d s

/-- The edits of the entries whose URI names the file. -/
def editsFor (target : List Name) (edit : WorkspaceEdit) : List TextEdit :=
  edit.documents.flatMap fun (uri, edits) =>
    match pathOfUri uri with
    | .ok path => if path.Same (Path.ofNames target) then edits else []
    | .error _ => []

/-- The part of an edit that is about one file, and whether there was any. -/
def applyToTarget (d : Disk) (target : Path) (edit : WorkspaceEdit) : Except EditError Bool × Disk :=
  match resolvePath d.cwd target with
  | .error fault => (.error (.place fault), d)
  | .ok names =>
    match editsFor names edit with
    | [] => (.ok false, d)
    | edits =>
      let (result, d) := applyTextEdits d (Path.ofNames names) edits
      (result.map fun _ => true, d)

/-! ## all files -/

/-- Add edits to those of a file; files are in order of their names. -/
def addEdits (file : List Name) (edits : List TextEdit) :
    List (List Name × List TextEdit) → List (List Name × List TextEdit)
  | [] => [(file, edits)]
  | (f, es) :: rest =>
    if f = file then (f, es ++ edits) :: rest
    else if namesBefore file f then (file, edits) :: (f, es) :: rest
    else (f, es) :: addEdits file edits rest

/-- The edits of every file, from entries that carry any. -/
def groupByFile : List (String × List TextEdit) → List (List Name × List TextEdit) →
    Except EditError (List (List Name × List TextEdit))
  | [], groups => .ok groups
  | (_, []) :: rest, groups => groupByFile rest groups
  | (uri, e :: es) :: rest, groups =>
    match pathOfUri uri with
    | .error fault => .error (.place (.uri fault))
    | .ok path => groupByFile rest (addEdits (Path.resolve path.components) (e :: es) groups)

/-- Stage every file, or none. -/
def stageAll (taken : List Name) (d : Disk) : List (List Name × List TextEdit) → List Staged →
    Except EditError (List Staged) × Disk
  | [], staged => (.ok staged.reverse, d)
  | (file, edits) :: rest, staged =>
    match stageEdits taken d (Path.ofNames file) edits with
    | .ok (s, d) => stageAll taken d rest (s :: staged)
    | .error fault => (.error fault, staged.foldl Staged.discard d)

/-- Commit files in turn; after a failure the rest are discarded. -/
def commitAll (d : Disk) : List Staged → Except EditError Unit × Disk
  | [] => (.ok (), d)
  | s :: rest =>
    match commitEdits d s with
    | (.ok (), d) => commitAll d rest
    | (.error fault, d) => (.error fault, rest.foldl Staged.discard d)

/-- All documents of an edit, and the files that were changed. -/
def applyWorkspaceEdit (d : Disk) (edit : WorkspaceEdit) : Except EditError (List Path) × Disk :=
  match groupByFile edit.documents [] with
  | .error fault => (.error fault, d)
  | .ok groups =>
    match stageAll (groups.flatMap (·.1)) d groups [] with
    | (.error fault, d) => (.error fault, d)
    | (.ok staged, d) =>
      let (result, d) := commitAll d staged
      (result.map fun _ => staged.map (·.target), d)

end CodeBridge
