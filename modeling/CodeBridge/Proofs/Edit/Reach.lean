import CodeBridge.Proofs.Edit.Batch

/-!
# What edits of files reach

Applying edits leaves a disk as it was when it fails, and when it does not, all but the files that
it is about:

* `SameOutside`               two disks that differ in some files at most;
* `applyTextEdits_reach`      edits of one file;
* `applyToTarget_reach`       what a workspace edit says of one file;
* `applyWorkspaceEdit_reach`  all of it, with the files that are returned.
-/

namespace CodeBridge

/-- Two disks that differ in these files at most: contents, mode or being there at all.  A file has
the names past the links. -/
structure SameOutside (files : List (List Name)) (d d' : Disk) : Prop where
  cwd : d'.cwd = d.cwd
  other : ∀ names, names ∉ files → d'.get? names = d.get? names

theorem SameOutside.refl (files : List (List Name)) (d : Disk) : SameOutside files d d :=
  ⟨rfl, fun _ _ => rfl⟩

theorem Change.Fits.sameOutside {c : Change} {d : Disk} (h : c.Fits c.file d) :
    ∃ d', c.staged.commit (c.onto d) = (.ok (), d') ∧ SameOutside [c.file] d d' := by
  obtain ⟨d', hcommit, hmade⟩ := h.pending.commit
  refine ⟨d', hcommit, hmade.cwd, fun names hn => ?_⟩
  have hfile : names ≠ c.file := fun e => hn (e ▸ List.mem_cons_self)
  by_cases htemp : names = c.temp
  · rw [htemp, hmade.temp, h.get?_temp]
  · rw [hmade.other names hfile htemp, get?_onto names htemp]

section
variable {d : Disk} {file : List Name}

theorem applyTextEdits_reach (hp : ∀ n ∈ file, Path.Plain n) (edits : List TextEdit) :
    match applyTextEdits d (.ofNames file) edits with
    | (.error _, d') => d' = d
    | (.ok _, d') => SameOutside [Path.real file] d d' := by
  unfold applyTextEdits
  by_cases hempty : edits.isEmpty = true
  · rw [if_pos hempty]
    exact .refl [Path.real file] d
  · rw [if_neg hempty]
    cases hstage : stageEdits [] d (.ofNames file) edits with
    | error fault => rfl
    | ok out =>
      obtain ⟨s, d₁⟩ := out
      obtain ⟨c, rfl, -, rfl, rfl, hc, -⟩ := stageEdits_fits hp hstage
      obtain ⟨d', hcommit, hsame⟩ := hc.sameOutside
      dsimp only
      unfold commitEdits
      rw [hcommit]
      exact hsame

theorem resolvePath_ofNames (hp : ∀ n ∈ file, Path.Plain n) (cwd : Option (List Name)) :
    resolvePath cwd (.ofNames file) = .ok file := by
  unfold resolvePath
  rw [if_pos (Path.isAbsolute_ofNames file), Path.resolve_ofNames file hp]

theorem applyToTarget_reach (hp : ∀ n ∈ file, Path.Plain n) (edit : WorkspaceEdit) :
    match applyToTarget d (.ofNames file) edit with
    | (.error _, d') => d' = d
    | (.ok changed, d') => SameOutside (if changed then [Path.real file] else []) d d' := by
  unfold applyToTarget
  rw [resolvePath_ofNames hp]
  dsimp only
  cases hedits : editsFor file edit with
  | nil => exact .refl [] d
  | cons e es =>
    have h := applyTextEdits_reach (d := d) hp (e :: es)
    obtain ⟨⟨result, d'⟩, happly⟩ : ∃ out, applyTextEdits d (.ofNames file) (e :: es) = out :=
      ⟨_, rfl⟩
    rw [happly] at h
    dsimp only
    rw [happly]
    cases result with
    | error fault => exact h
    | ok _ => exact h

theorem applyWorkspaceEdit_reach (d : Disk) (edit : WorkspaceEdit) :
    match applyWorkspaceEdit d edit with
    | (.error _, d') => d' = d
    | (.ok paths, d') => ∃ files : List (List Name), paths = files.map .ofNames ∧
        SameOutside (files.map Path.real) d d' := by
  unfold applyWorkspaceEdit
  cases hgroups : groupByFile edit.documents [] with
  | error fault => rfl
  | ok groups =>
    have hg : Grouped d.cwd edit.documents groups := groupByFile_grouped _ groups hgroups
    have hlisted : ∀ g ∈ groups, ∀ n ∈ g.1, n ∈ groups.flatMap (·.1) := fun g hm n hn =>
      List.mem_flatMap.mpr ⟨g, hm, hn⟩
    obtain ⟨⟨result, d₁⟩, hstage⟩ : ∃ out, stageAll (groups.flatMap (·.1)) d groups [] = out :=
      ⟨_, rfl⟩
    have hspec := stageAll_spec groups [] result hg.plain hlisted .start hstage
    dsimp only
    rw [hstage]
    cases result with
    | error fault => exact hspec
    | ok staged =>
      obtain ⟨cs, rfl, hs, hcs⟩ := hspec
      rw [List.append_nil] at hs
      obtain ⟨d', hcommit, hdone⟩ := commitAll_rewritten edit cs hg hs hcs
      rw [List.reverse_nil, List.nil_append]
      dsimp only
      rw [hcommit]
      refine ⟨groups.map (·.1), ?_, hdone.cwd, hdone.other⟩
      show (cs.map Change.staged).map (·.target) = _
      rw [← hcs.paths, List.map_map, List.map_map]
      rfl

end

end CodeBridge
