import CodeBridge.Tool.Document

/-!
# Tools that change files

Rename, format, put imports in order.  The server computes the edits; the files are changed here,
after the document has been let go of.  A tool that fails has changed nothing.

Files are changed step by step, and others may change them between any two steps:

* `stageFile`, `commitFile`   read a file and stage its edited contents, and commit them;
* `changeFile`, `changeTarget`, `changeFiles`   `applyTextEdits`, `applyToTarget` and
                              `applyWorkspaceEdit`, step by step.
-/

namespace CodeBridge.Tool

/-- Files that were changed; none when there was nothing to change. -/
structure Changed where
  files : List Path := []
  deriving DecidableEq, Repr

def Changed.toJson (r : Changed) : Json :=
  .obj [("modified_files", .arr (r.files.map fun p => .str p.display))]

/-- The range from the start of a text to the start of its last line. -/
def wholeDocument (text : String) : Range :=
  ⟨.origin, ⟨UInt32.ofNat (text.toList.count '\n'), 0⟩⟩

/-! ## files, step by step -/

/-- What edits make of what has been read of a file. -/
def edited (path : Path) (edits : List TextEdit) (read : Except IoError String) :
    Except EditError String := do
  let text ← read.mapError (EditError.read path)
  (applyEditsToText text edits).mapError EditError.edits

def stageText (taken : List Name) (path : Path) (text : String) :
    Routine Disk (Except EditError Staged) :=
  .act fun d =>
    match Staged.stageApart taken d path (Utf8.ofString text) with
    | .error fault => (.error (.write path fault), d)
    | .ok (s, d) => (.ok s, d)

/-- Read a file, and then stage its edited contents. -/
def stageFile (taken : List Name) (path : Path) (edits : List TextEdit) :
    Routine Disk (Except EditError Staged) :=
  Client.andThen ((Routine.read fun d => d.readText path).bind fun read =>
    .done (edited path edits read)) (stageText taken path)

/-- Commit a file; what comes after the move is about its mode alone. -/
def commitFile (s : Staged) : Routine Disk (Except EditError Unit) := .act fun d => commitEdits d s

def discardFiles : List Staged → Routine Disk Unit
  | [] => .done ()
  | s :: rest => (Routine.change fun d => s.discard d).bind fun _ => discardFiles rest

/-- Fail, with the files that are staged discarded. -/
def giveUp {α : Type} (staged : List Staged) (fault : EditError) :
    Routine Disk (Except EditError α) :=
  (discardFiles staged).bind fun _ => .done (.error fault)

/-- Stage every file, or none. -/
def stageFiles (taken : List Name) : List (List Name × List TextEdit) → List Staged →
    Routine Disk (Except EditError (List Staged))
  | [], staged => .done (.ok staged.reverse)
  | (file, edits) :: rest, staged =>
    (stageFile taken (.ofNames file) edits).bind fun
      | .ok s => stageFiles taken rest (s :: staged)
      | .error fault => giveUp staged fault

/-- Commit files in turn; after a failure the rest are discarded. -/
def commitFiles : List Staged → Routine Disk (Except EditError Unit)
  | [] => .done (.ok ())
  | s :: rest =>
    (commitFile s).bind fun
      | .ok () => commitFiles rest
      | .error fault => giveUp rest fault

/-- A batch of edits of one file; an empty one does not even read it. -/
def changeFile (path : Path) (edits : List TextEdit) : Routine Disk (Except EditError Unit) :=
  if edits.isEmpty then .done (.ok ())
  else Client.andThen (stageFile [] path edits) commitFile

/-- The part of an edit that is about one file, and whether there was any. -/
def changeTarget (target : Path) (edit : WorkspaceEdit) : Routine Disk (Except EditError Bool) :=
  (Routine.read fun d => d.cwd).bind fun cwd =>
    match resolvePath cwd target with
    | .error fault => .done (.error (.place fault))
    | .ok names =>
      match editsFor names edit with
      | [] => .done (.ok false)
      | edits => (changeFile (.ofNames names) edits).bind fun result =>
          .done (result.map fun _ => true)

/-- All documents of an edit, and the files that were changed. -/
def changeFiles (edit : WorkspaceEdit) : Routine Disk (Except EditError (List Path)) :=
  match groupByFile edit.documents [] with
  | .error fault => .done (.error fault)
  | .ok groups =>
    Client.andThen (stageFiles (groups.flatMap (·.1)) groups []) fun staged =>
      (commitFiles staged).bind fun result => .done (result.map fun _ => staged.map (·.target))

/-! ## the tools -/

/-- The same routine on the disk of a host. -/
def onFiles {α : Type} (work : Routine Disk α) : Routine Host α :=
  work.zoom Host.disk fun disk h => { h with disk := disk }

/-- Work on the disk, handed over: others go on between its pieces, and it is done to its end. -/
def onDisk {α : Type} (work : Routine Disk α) : Routine Host α := do
  let result ← onFiles work.handedOver
  Routine.offload
  return result

def renameSymbol (file : Path) (line column : UInt32) (newName : String) :
    ToolRoutine Changed :=
  let newName := trimText newName
  if newName = "" then .done (.error .blankName)
  else
    andThen (ofExcept (position line column)) fun p =>
      andThen (ask file "rename request" fun doc => Client.rename doc.uri p newName)
        fun (_, outcome) =>
          if outcome.edit.isEmpty then .done (.ok {})
          else
            (onDisk (changeFiles outcome.edit)).bind fun files =>
              .done ((files.mapError (ToolError.notApplied "rename edits")).map Changed.mk)

def formatCode (file : Path) : ToolRoutine Changed :=
  andThen (ask file "formatting request" fun doc => Client.format doc.uri) fun (doc, edits) =>
    if edits.isEmpty then .done (.ok {})
    else
      (onDisk (changeFile doc.path edits)).bind fun result =>
        .done ((result.mapError (ToolError.notApplied "formatting edits")).map
          fun _ => ⟨[doc.path]⟩)

/-- The first action that puts imports in order; only what it changes in the file is written. -/
def organizeImports (file : Path) : ToolRoutine Changed :=
  andThen (ask file "code action request" fun doc =>
      Client.organizeActions doc.uri (wholeDocument doc.text)) fun (doc, actions) =>
    match actions with
    | [] => .done (.ok {})
    | action :: _ =>
      match action.edit, action.command with
      | some edit, _ =>
        (onDisk (changeTarget doc.path edit)).bind fun changed =>
          .done ((changed.mapError (ToolError.notApplied "organize imports edits")).map
            fun changed => ⟨if changed then [doc.path] else []⟩)
      | none, some command => .done (.error (.needsCommand action.title command.command))
      | none, none => .done (.ok {})

end CodeBridge.Tool
