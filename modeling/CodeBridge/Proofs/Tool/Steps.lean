import CodeBridge.Proofs.Concurrency.Moments
import CodeBridge.Tool.Change

/-!
# Files that are changed step by step

Between any two steps of a tool others may change the files that it has read and staged.  When
nobody does, the steps come to what is done at once: `stageEdits`, `stageAll`, `commitAll`,
`applyTextEdits`, `applyToTarget` and `applyWorkspaceEdit`.
-/

namespace CodeBridge.Tool

open Routine

section
variable {σ ε α β : Type}

theorem through_andThen (r : Routine σ (Except ε α)) (next : α → Routine σ (Except ε β)) (s : σ) :
    (Client.andThen r next).through s = (r.through s).bind fun out =>
      match out.1 with
      | .ok a => (next a).through out.2
      | .error e => some (.error e, out.2) := by
  unfold Client.andThen
  rw [through_bind]
  congr 1
  funext out
  cases out.1 with
  | ok a => rfl
  | error e => rfl

end

theorem through_stageFile (taken : List Name) (path : Path) (edits : List TextEdit) (d : Disk) :
    (stageFile taken path edits).through d =
      match stageEdits taken d path edits with
      | .ok (s, d') => some (.ok s, d')
      | .error fault => some (.error fault, d) := by
  have hedited : stageEdits taken d path edits = (edited path edits (d.readText path)).bind
      fun text => (Staged.stageApart taken d path (Utf8.ofString text)).mapError
        (EditError.write path) := by
    unfold stageEdits edited
    cases (d.readText path).mapError (EditError.read path) with
    | error fault => rfl
    | ok text => rfl
  have hread : ((Routine.read fun d : Disk => d.readText path).bind fun read =>
      Routine.done (edited path edits read)).through d =
        some (edited path edits (d.readText path), d) := rfl
  unfold stageFile
  rw [through_andThen, hread, hedited]
  cases edited path edits (d.readText path) with
  | error fault => rfl
  | ok text =>
    show (stageText taken path text).through d = _
    unfold stageText Routine.act
    simp only [through, Except.bind]
    cases Staged.stageApart taken d path (Utf8.ofString text) with
    | error fault => rfl
    | ok out => rfl

theorem through_discardFiles (staged : List Staged) (d : Disk) :
    (discardFiles staged).through d = some ((), staged.foldl Staged.discard d) := by
  induction staged generalizing d with
  | nil => rfl
  | cons s staged ih => exact ih (s.discard d)

theorem through_giveUp {α : Type} (staged : List Staged) (fault : EditError) (d : Disk) :
    (giveUp staged fault : Routine Disk (Except EditError α)).through d =
      some (.error fault, staged.foldl Staged.discard d) := by
  unfold giveUp
  rw [through_bind, through_discardFiles]
  rfl

theorem through_stageFiles (taken : List Name) (groups : List (List Name × List TextEdit))
    (staged : List Staged) (d : Disk) :
    (stageFiles taken groups staged).through d = some (stageAll taken d groups staged) := by
  induction groups generalizing d staged with
  | nil => rfl
  | cons group groups ih =>
    obtain ⟨file, edits⟩ := group
    unfold stageFiles stageAll
    rw [through_bind, through_stageFile]
    cases stageEdits taken d (.ofNames file) edits with
    | ok out => exact ih (out.1 :: staged) out.2
    | error fault => exact through_giveUp staged fault d

theorem through_commitFiles (staged : List Staged) (d : Disk) :
    (commitFiles staged).through d = some (commitAll d staged) := by
  induction staged generalizing d with
  | nil => rfl
  | cons s staged ih =>
    unfold commitFiles commitAll
    have hcommit : (commitFile s).through d = some (commitEdits d s) := rfl
    rw [through_bind, hcommit, Option.bind_some]
    obtain ⟨result, d'⟩ := commitEdits d s
    cases result with
    | ok _ => exact ih d'
    | error fault => exact through_giveUp staged fault d'

theorem through_changeFile (path : Path) (edits : List TextEdit) (d : Disk) :
    (changeFile path edits).through d = some (applyTextEdits d path edits) := by
  unfold changeFile applyTextEdits
  split
  · rfl
  · rw [through_andThen, through_stageFile]
    cases stageEdits [] d path edits with
    | ok out => rfl
    | error fault => rfl

theorem through_changeTarget (target : Path) (edit : WorkspaceEdit) (d : Disk) :
    (changeTarget target edit).through d = some (applyToTarget d target edit) := by
  unfold changeTarget applyToTarget
  have hcwd : (Routine.read fun d : Disk => d.cwd).through d = some (d.cwd, d) := rfl
  rw [through_bind, hcwd, Option.bind_some]
  dsimp only
  cases resolvePath d.cwd target with
  | error fault => rfl
  | ok names =>
    dsimp only
    cases editsFor names edit with
    | nil => rfl
    | cons e edits =>
      dsimp only
      rw [through_bind, through_changeFile]
      rfl

theorem through_changeFiles (edit : WorkspaceEdit) (d : Disk) :
    (changeFiles edit).through d = some (applyWorkspaceEdit d edit) := by
  unfold changeFiles applyWorkspaceEdit
  cases groupByFile edit.documents [] with
  | error fault => rfl
  | ok groups =>
    dsimp only
    rw [through_andThen, through_stageFiles]
    generalize stageAll (groups.flatMap (·.1)) d groups [] = out
    obtain ⟨result, d'⟩ := out
    cases result with
    | error fault => rfl
    | ok staged =>
      show ((commitFiles staged).bind fun result =>
        Routine.done (result.map fun _ => staged.map (·.target))).through d' = _
      rw [through_bind, through_commitFiles]
      rfl

end CodeBridge.Tool
