import CodeBridge.Proofs.Edit.Groups
import CodeBridge.Proofs.File.Staged
import CodeBridge.Proofs.Service.Server
import CodeBridge.Tool.Dispatch

/-!
# What a rewriting call leaves

A call of one of the tools that change files has the server compute edits on a text, and applies them
to whatever the disk holds later.  Here is what comes of that, without the steps between:

* `Rewriting`           a call of such a tool;
* `Site.formatted`, `Site.organized`, `Site.renamed`
                        a disk after the edits for a text have been applied to it;
* `Rewriting.leaves`    the same for any call;
* `Rewriting.alone`     the same when the text is that of the file on the disk;
* `Rewriting.batches`   the files that are named by the edits for a text, each with its edits;
* `Proper`              batches of which no two are about one file;
* `Rewriting.Turns`     what the edits for one text make of another.
-/

namespace CodeBridge

inductive Rewriting where
  | format (file : Path)
  | organize (file : Path)
  | rename (file : Path) (line column : UInt32) (newName : String)
  deriving DecidableEq, Repr

namespace Rewriting

def file : Rewriting → Path
  | format file => file
  | organize file => file
  | rename file .. => file

def request : Rewriting → ToolRequest
  | format file => .formatCode file
  | organize file => .organizeImports file
  | rename file line column newName => .renameSymbol file line column newName

end Rewriting

/-- A file, and the server that is asked about it. -/
structure Site where
  answering : Answering
  formatting : Formatting
  path : Path

namespace Site

def uri (s : Site) : String := Uri.ofNames (Path.resolve s.path.components)

/-- The result of a method for a text, as a client reads it. -/
def answered {α : Type} (s : Site) (method : String) (params : Json) (read : Json → Decoded α)
    (text : String) : Except ClientError α :=
  ((s.answering method (some params) (some text)).outcome method).bind fun result =>
    (read result).mapError (ClientError.decode method)

variable (s : Site) (text : String) (d : Disk)

def formatEdits : Except ClientError (List TextEdit) :=
  s.answered "textDocument/formatting" (Params.formatting s.uri s.formatting) readTextEdits text

def organizeActions : Except ClientError (List CodeAction) :=
  s.answered "textDocument/codeAction" (Params.organize s.uri (Tool.wholeDocument text))
    readOrganizeImports text

def renameEdit (position : Position) (newName : String) : Except ClientError WorkspaceEdit :=
  s.answered "textDocument/rename" (Params.rename s.uri position newName) readWorkspaceEdit text

/-! ## the edits for a text applied to a disk -/

def formatted : Disk :=
  match s.formatEdits text with
  | .ok edits => (applyTextEdits d s.path edits).2
  | .error _ => d

def organized : Disk :=
  match s.organizeActions text with
  | .ok (action :: _) =>
    match action.edit with
    | some edit => (applyToTarget d s.path edit).2
    | none => d
  | _ => d

def renamedAt (position : Position) (newName : String) : Disk :=
  match s.renameEdit text position newName with
  | .ok edit => if edit.isEmpty then d else (applyWorkspaceEdit d edit).2
  | .error _ => d

def renamed (line column : UInt32) (newName : String) : Disk :=
  if trimText newName = "" then d
  else
    match toProtocol? line column with
    | some position => s.renamedAt text d position (trimText newName)
    | none => d

section
variable {s text}

theorem formatted_of_ok {edits : List TextEdit} (h : s.formatEdits text = .ok edits) :
    s.formatted text d = (applyTextEdits d s.path edits).2 := by
  simp only [formatted, h]

theorem formatted_of_error {fault : ClientError} (h : s.formatEdits text = .error fault) :
    s.formatted text d = d := by
  simp only [formatted, h]

theorem organized_of_error {fault : ClientError} (h : s.organizeActions text = .error fault) :
    s.organized text d = d := by
  simp only [organized, h]

theorem organized_of_nil (h : s.organizeActions text = .ok []) : s.organized text d = d := by
  simp only [organized, h]

theorem organized_of_some {action : CodeAction} {actions : List CodeAction} {edit : WorkspaceEdit}
    (h : s.organizeActions text = .ok (action :: actions)) (he : action.edit = some edit) :
    s.organized text d = (applyToTarget d s.path edit).2 := by
  simp only [organized, h, he]

theorem organized_of_none {action : CodeAction} {actions : List CodeAction}
    (h : s.organizeActions text = .ok (action :: actions)) (he : action.edit = none) :
    s.organized text d = d := by
  simp only [organized, h, he]

theorem renamedAt_of_error {position : Position} {newName : String} {fault : ClientError}
    (h : s.renameEdit text position newName = .error fault) :
    s.renamedAt text d position newName = d := by
  simp only [renamedAt, h]

theorem renamedAt_of_ok {position : Position} {newName : String} {edit : WorkspaceEdit}
    (h : s.renameEdit text position newName = .ok edit) :
    s.renamedAt text d position newName =
      if edit.isEmpty then d else (applyWorkspaceEdit d edit).2 := by
  simp only [renamedAt, h]

theorem renamed_of_blank {line column : UInt32} {newName : String} (h : trimText newName = "") :
    s.renamed text d line column newName = d := if_pos h

theorem renamed_of_none {line column : UInt32} {newName : String}
    (h : toProtocol? line column = none) : s.renamed text d line column newName = d := by
  simp only [renamed, h, ite_self]

theorem renamed_of_some {line column : UInt32} {newName : String} {position : Position}
    (hn : trimText newName ≠ "") (h : toProtocol? line column = some position) :
    s.renamed text d line column newName = s.renamedAt text d position (trimText newName) := by
  simp only [renamed, h, if_neg hn]

end

end Site

namespace Rewriting

/-- The disk after the edits for a text have been applied to it. -/
def leaves (s : Site) (text : String) (d : Disk) : Rewriting → Disk
  | format _ => s.formatted text d
  | organize _ => s.organized text d
  | rename _ line column newName => s.renamed text d line column newName

/-- Nothing comes of a file that has no text. -/
def leavesRead (s : Site) (read : Except IoError String) (d : Disk) (r : Rewriting) : Disk :=
  match read with
  | .ok text => r.leaves s text d
  | .error _ => d

/-- What a call leaves when nobody else is about. -/
def alone (s : Site) (r : Rewriting) (d : Disk) : Disk := r.leavesRead s (d.readText s.path) d

end Rewriting

/-! ## the edits for a text, file by file -/

structure Batches (batches : List (List Name × List TextEdit)) : Prop where
  sorted : batches.Pairwise (·.1 < ·.1)
  plain : ∀ b ∈ batches, ∀ n ∈ b.1, Path.Plain n
  nonempty : ∀ b ∈ batches, b.2 ≠ []

theorem Batches.nil : Batches [] := ⟨.nil, nofun, nofun⟩

/-- The files that batches are about, by their names past the links. -/
def filesOf (batches : List (List Name × List TextEdit)) : List (List Name) :=
  batches.map fun b => Path.real b.1

def editsAt (file : List Name) (batches : List (List Name × List TextEdit)) : List TextEdit :=
  editsIn file (batches.map fun b => (Path.real b.1, b.2))

/-- No file goes by two names, and none is there only as a fresh file. -/
structure Proper (d : Disk) (batches : List (List Name × List TextEdit)) : Prop where
  distinct : (filesOf batches).Nodup
  spared : ∀ b ∈ batches, d.Spares (Path.real b.1)

section
variable {batches : List (List Name × List TextEdit)} {file : List Name}

theorem editsAt_of_mem (h : (filesOf batches).Nodup) {b : List Name × List TextEdit}
    (hb : b ∈ batches) : editsAt (Path.real b.1) batches = b.2 := by
  induction batches with
  | nil => cases hb
  | cons c rest ih =>
    obtain ⟨hc, hrest⟩ := List.nodup_cons.mp h
    rcases List.mem_cons.mp hb with rfl | hb
    · exact if_pos rfl
    · have hne : ¬ Path.real c.1 = Path.real b.1 := fun e => hc (List.mem_map.mpr ⟨b, hb, e.symm⟩)
      exact (if_neg hne).trans (ih hrest hb)

theorem editsAt_of_not_mem (h : file ∉ filesOf batches) : editsAt file batches = [] := by
  refine Decidable.of_not_not fun hne => h ?_
  have hmem := mem_of_editsIn file _ hne
  rwa [List.map_map] at hmem

end

namespace Site
variable (s : Site) (text : String)

/-- The names that the file is asked for by. -/
def names : List Name := Path.resolve s.path.components

def file : List Name := Path.real s.names

def batch (edits : List TextEdit) : List (List Name × List TextEdit) :=
  if edits.isEmpty then [] else [(s.names, edits)]

def formatBatches : List (List Name × List TextEdit) :=
  match s.formatEdits text with
  | .ok edits => s.batch edits
  | .error _ => []

def organizeBatches : List (List Name × List TextEdit) :=
  match s.organizeActions text with
  | .ok (action :: _) =>
    match action.edit with
    | some edit => s.batch (editsFor s.names edit)
    | none => []
  | _ => []

def renameBatchesAt (position : Position) (newName : String) : List (List Name × List TextEdit) :=
  match s.renameEdit text position newName with
  | .ok edit => (groupByFile edit.documents []).toOption.getD []
  | .error _ => []

def renameBatches (line column : UInt32) (newName : String) : List (List Name × List TextEdit) :=
  if trimText newName = "" then []
  else
    match toProtocol? line column with
    | some position => s.renameBatchesAt text position (trimText newName)
    | none => []

section
variable {s text}

theorem formatBatches_of_ok {edits : List TextEdit} (h : s.formatEdits text = .ok edits) :
    s.formatBatches text = s.batch edits := by
  simp only [formatBatches, h]

theorem organizeBatches_of_nil (h : s.organizeActions text = .ok []) :
    s.organizeBatches text = [] := by
  simp only [organizeBatches, h]

theorem organizeBatches_of_some {action : CodeAction} {actions : List CodeAction}
    {edit : WorkspaceEdit} (h : s.organizeActions text = .ok (action :: actions))
    (he : action.edit = some edit) :
    s.organizeBatches text = s.batch (editsFor s.names edit) := by
  simp only [organizeBatches, h, he]

theorem organizeBatches_of_none {action : CodeAction} {actions : List CodeAction}
    (h : s.organizeActions text = .ok (action :: actions)) (he : action.edit = none) :
    s.organizeBatches text = [] := by
  simp only [organizeBatches, h, he]

theorem renameBatchesAt_of_ok {position : Position} {newName : String} {edit : WorkspaceEdit}
    (h : s.renameEdit text position newName = .ok edit) :
    s.renameBatchesAt text position newName =
      (groupByFile edit.documents []).toOption.getD [] := by
  simp only [renameBatchesAt, h]

theorem renameBatches_of_some {line column : UInt32} {newName : String} {position : Position}
    (hn : trimText newName ≠ "") (h : toProtocol? line column = some position) :
    s.renameBatches text line column newName =
      s.renameBatchesAt text position (trimText newName) := by
  simp only [renameBatches, h, if_neg hn]

end

theorem batches_batch (edits : List TextEdit) : Batches (s.batch edits) := by
  unfold batch
  split
  · exact .nil
  next h =>
    refine ⟨List.pairwise_singleton _ _, fun b hb => ?_, fun b hb => ?_⟩
    · rw [List.mem_singleton.mp hb]
      exact Path.plain_of_mem_resolve s.path
    · rw [List.mem_singleton.mp hb]
      exact fun e => h (List.isEmpty_iff.mpr e)

/-- A format is about no file but its own. -/
theorem proper_format {d : Disk} (h : d.Spares s.file) : Proper d (s.formatBatches text) := by
  unfold formatBatches batch
  split
  · split
    · exact ⟨.nil, nofun⟩
    · exact ⟨List.pairwise_singleton _ _, fun b hb => List.mem_singleton.mp hb ▸ h⟩
  · exact ⟨.nil, nofun⟩

theorem editsAt_batch (edits : List TextEdit) : editsAt s.file (s.batch edits) = edits := by
  unfold batch
  split
  next h => exact (List.isEmpty_iff.mp h).symm
  · exact if_pos rfl

theorem batches_format : Batches (s.formatBatches text) := by
  unfold formatBatches
  split
  · exact s.batches_batch _
  · exact .nil

theorem batches_organize : Batches (s.organizeBatches text) := by
  unfold organizeBatches
  split
  · split
    · exact s.batches_batch _
    · exact .nil
  · exact .nil

theorem batches_renameAt (position : Position) (newName : String) :
    Batches (s.renameBatchesAt text position newName) := by
  unfold renameBatchesAt
  split
  next edit _ =>
    cases hg : groupByFile edit.documents [] with
    | error fault => exact .nil
    | ok groups =>
      -- the working directory is of no account: a URI names an absolute path
      have hgrouped : Grouped none edit.documents groups := groupByFile_grouped _ groups hg
      exact ⟨hgrouped.sorted, hgrouped.plain, hgrouped.nonempty⟩
  · exact .nil

theorem batches_rename (line column : UInt32) (newName : String) :
    Batches (s.renameBatches text line column newName) := by
  unfold renameBatches
  split
  · exact .nil
  · split
    · exact s.batches_renameAt text _ _
    · exact .nil

end Site

namespace Rewriting
variable (s : Site) (text : String) (r : Rewriting)

/-- The files that the edits for a text name, each with its edits. -/
def batches : Rewriting → List (List Name × List TextEdit)
  | format _ => s.formatBatches text
  | organize _ => s.organizeBatches text
  | rename _ line column newName => s.renameBatches text line column newName

def edits : List TextEdit := editsAt s.file (r.batches s text)

/-- The edits for the text `seen`, and there are some, make `new` of the text `base`. -/
def Turns (seen base new : String) : Prop :=
  r.edits s seen ≠ [] ∧ applyEditsToText base (r.edits s seen) = .ok new

theorem batches_spec : Batches (r.batches s text) := by
  cases r with
  | format file => exact s.batches_format text
  | organize file => exact s.batches_organize text
  | rename file line column newName => exact s.batches_rename text line column newName

end Rewriting

end CodeBridge
