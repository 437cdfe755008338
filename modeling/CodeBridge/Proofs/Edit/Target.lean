import Mathlib
import CodeBridge.Proofs.Edit.Reach
import CodeBridge.Proofs.Uri.Naming

/-!
# One file of a workspace edit

What a workspace edit says of one file can be applied by itself (`applyToTarget`), or be taken out
of the edit and applied as a workspace edit of its own (`WorkspaceEdit.only`).

* `freshName_among`       names that are in use anyhow do not change what name is fresh, so both ways
                          stage the file under the same name;
* `same_iff_named`        a path that takes no step up is spelled as the file that it names;
* `applyToTarget_agrees`  both ways do the same, unless an entry goes to the file through `..`;
* `applyToTarget_passes_over_steps`   such an entry is passed over.
-/

namespace CodeBridge

/-! ## a fresh name -/

namespace Staged

/-- Only names that a fresh file could have matter. -/
theorem freeNumber_congr (used used' : List Name) (n : Nat)
    (h : ∀ k, n ≤ k → (tempStem ++ letters k ∈ used ↔ tempStem ++ letters k ∈ used')) :
    freeNumber used n = freeNumber used' n := by
  induction used, n using freeNumber.induct generalizing used' with
  | case1 used n name hm ih =>
    have hm' : tempStem ++ letters n ∈ used' := (h n (Nat.le_refl n)).mp hm
    rw [freeNumber, freeNumber.eq_def used']
    simp only [if_pos hm', if_pos (show tempStem ++ letters n ∈ used from hm)]
    refine ih _ fun k hk => ?_
    have hne : tempStem ++ letters k ≠ name := fun e => by
      have := letters_inj k n (List.append_cancel_left e)
      omega
    rw [List.mem_erase_of_ne hne, List.mem_erase_of_ne hne]
    exact h k (by omega)
  | case2 used n name hm =>
    have hm' : tempStem ++ letters n ∉ used' := fun hm' => hm ((h n (Nat.le_refl n)).mpr hm')
    rw [freeNumber, freeNumber.eq_def used']
    simp only [if_neg hm', if_neg (show tempStem ++ letters n ∉ used from hm)]

theorem freshName_among {taken : List Name} {fs : FileSystem}
    (h : ∀ n ∈ taken, TempName n → n ∈ fs.nodes.flatMap (·.1)) :
    freshName taken fs = freshName [] fs := by
  unfold freshName
  rw [freeNumber_congr (taken ++ fs.nodes.flatMap (·.1)) ([] ++ fs.nodes.flatMap (·.1)) 0
    fun k _ => ⟨fun hm => ?_, List.mem_append_right taken⟩]
  exact (List.mem_append.mp hm).elim (h _ · ⟨k, rfl⟩) id

end Staged

/-- The names of a file that is there are no further names to avoid. -/
theorem stageEdits_own {d : Disk} {file : List Name} (hp : ∀ n ∈ file, Path.Plain n)
    (edits : List TextEdit) :
    stageEdits file d (.ofNames file) edits = stageEdits [] d (.ofNames file) edits := by
  unfold stageEdits
  cases hread : d.readText (.ofNames file) with
  | error fault => rfl
  | ok text =>
    obtain ⟨hn, -, old, mode, hf, -⟩ := Disk.readText_eq_ok hp hread
    have hkey : Path.real file ∈ d.system.keys := FileSystem.mem_keys_of_get? _ _ _ hn hf
    obtain ⟨x, hx, hfile⟩ := List.mem_map.mp hkey
    have hfresh : Staged.freshName file d.system = Staged.freshName [] d.system :=
      Staged.freshName_among fun n hm ht => List.mem_flatMap.mpr
        ⟨x, hx, hfile ▸ (Path.mem_real_or_link file n hm).resolve_right ht.not_link⟩
    unfold Staged.stageApart
    rw [hfresh]

/-! ## the entries of one file -/

/-- The part of an edit that is about documents of some URIs, in the encoding of the edit. -/
def WorkspaceEdit.only (p : String → Bool) (e : WorkspaceEdit) : WorkspaceEdit :=
  match e.documentChanges with
  | some (d :: ds) => { documentChanges := some ((d :: ds).filter fun d => p d.textDocument.uri) }
  | _ => { changes := e.changes.map fun cs => cs.filter fun c => p c.1 }

theorem WorkspaceEdit.documents_only (p : String → Bool) (e : WorkspaceEdit) :
    (e.only p).documents = e.documents.filter fun entry => p entry.1 := by
  have hchanges : WorkspaceEdit.documents
      { changes := e.changes.map fun cs => cs.filter fun c => p c.1 } =
      (e.changes.getD []).filter fun entry => p entry.1 := by
    cases e.changes <;> rfl
  unfold only
  split
  next d ds hd =>
    have he : e.documents = (d :: ds).map fun d => (d.textDocument.uri, d.edits) := by
      unfold documents
      rw [hd]
    rw [he, List.filter_map]
    show WorkspaceEdit.documents _ =
      ((d :: ds).filter fun d => p d.textDocument.uri).map fun d => (d.textDocument.uri, d.edits)
    cases (d :: ds).filter fun d => p d.textDocument.uri <;> rfl
  next hd =>
    have he : e.documents = e.changes.getD [] := by
      unfold documents
      split
      next d ds hs => exact absurd hs (hd d ds)
      · rfl
    rw [he]
    exact hchanges

theorem WorkspaceEdit.isEmpty_eq (edit : WorkspaceEdit) :
    edit.isEmpty = (edit.documents.flatMap (·.2)).isEmpty := by
  rw [Bool.eq_iff_iff, isEmpty_iff, List.isEmpty_iff, List.flatMap_eq_nil_iff]

def names? (cwd : Option (List Name)) (file : List Name) (uri : String) : Bool :=
  fileNamed? cwd uri = some file

theorem names?_iff {cwd : Option (List Name)} {file : List Name} {uri : String} :
    names? cwd file uri = true ↔ fileNamed? cwd uri = some file :=
  decide_eq_true_iff

theorem names_of_no_parent (parts : List Bytes)
    (h : .parent ∉ parts.filterMap Path.component?) :
    ∃ names : List Name, parts.filterMap Path.component? = names.map .name := by
  induction parts with
  | nil => exact ⟨[], rfl⟩
  | cons part parts ih =>
    rw [List.filterMap_cons] at h ⊢
    unfold Path.component? at h ⊢
    split at h
    · exact ih h
    next c hc =>
      obtain ⟨names, hnames⟩ := ih fun hm => h (List.mem_cons_of_mem _ hm)
      split at hc
      · cases hc
      · split at hc
        · exact absurd (Option.some.inj hc ▸ List.mem_cons_self) h
        · obtain rfl := Option.some.inj hc
          exact ⟨part :: names, congrArg (_ :: ·) hnames⟩

theorem same_iff_named {cwd : Option (List Name)} {uri : String} {path : Path} {file : List Name}
    (hfile : ∀ n ∈ file, Path.Plain n) (hpath : pathOfUri uri = .ok path)
    (hsteps : fileNamed? cwd uri = some file → .parent ∉ path.components) :
    path.Same (.ofNames file) ↔ fileNamed? cwd uri = some file := by
  have hnamed := fileNamed?_of_path cwd uri path hpath
  constructor
  · intro hsame
    rw [hnamed, show path.components = _ from hsame, Path.resolve_ofNames file hfile]
  · intro hname
    have habs : path.isAbsolute = true := Uri.isAbsolute_of_pathOfUri uri path hpath
    have hcomponents :
        path.components = .root :: (Path.parts path.bytes).filterMap Path.component? := if_pos habs
    obtain ⟨names, hnames⟩ := names_of_no_parent (Path.parts path.bytes) fun hm =>
      hsteps hname (hcomponents ▸ List.mem_cons_of_mem _ hm)
    have hresolve : Path.resolve path.components = names := by
      rw [hcomponents, hnames]
      show ((names.map Path.Component.name).foldl Path.step []).reverse = names
      rw [Path.foldl_step_names, List.append_nil, List.reverse_reverse]
    rw [hnamed, hresolve] at hname
    obtain rfl := Option.some.inj hname
    show path.components = _
    rw [Path.components_ofNames names hfile, hcomponents, hnames]

/-- The edits of the entries that name a file, when none of them takes a step up. -/
theorem editsFor_eq {cwd : Option (List Name)} {file : List Name} {edit : WorkspaceEdit}
    (hfile : ∀ n ∈ file, Path.Plain n)
    (hsteps : ∀ entry ∈ edit.documents, entry.2 ≠ [] → fileNamed? cwd entry.1 = some file →
      ∀ path, pathOfUri entry.1 = .ok path → .parent ∉ path.components) :
    editsFor file edit = (edit.only (names? cwd file)).documents.flatMap (·.2) := by
  rw [WorkspaceEdit.documents_only]
  unfold editsFor
  generalize edit.documents = entries at hsteps ⊢
  induction entries with
  | nil => rfl
  | cons entry rest ih =>
    obtain ⟨uri, edits⟩ := entry
    have hrest := ih fun e he => hsteps e (List.mem_cons_of_mem _ he)
    rw [List.flatMap_cons, List.filter_cons, hrest]
    dsimp only
    cases hpath : pathOfUri uri with
    | error fault =>
      have hnone : fileNamed? cwd uri = none := by
        unfold fileNamed?
        rw [hpath]
        rfl
      have hname : names? cwd file uri = false :=
        decide_eq_false fun h => absurd (h.symm.trans hnone) (Option.some_ne_none file)
      rw [hname]
      rfl
    | ok path =>
      by_cases hempty : edits = []
      · -- an entry without edits adds nothing, whatever it names
        subst hempty
        cases names? cwd file uri <;> exact congrArg (· ++ _) (ite_self _)
      · have hiff : path.Same (.ofNames file) ↔ fileNamed? cwd uri = some file :=
          same_iff_named hfile hpath fun hname =>
            hsteps (uri, edits) List.mem_cons_self hempty hname path hpath
        dsimp only
        by_cases hname : fileNamed? cwd uri = some file
        · rw [if_pos (hiff.mpr hname), if_pos (names?_iff.mpr hname), List.flatMap_cons]
        · rw [if_neg (mt hiff.mp hname), if_neg (mt names?_iff.mp hname), List.nil_append]

/-! ## grouping them -/

def oneGroup (file : List Name) : List TextEdit → List (List Name × List TextEdit)
  | [] => []
  | e :: es => [(file, e :: es)]

theorem groupByFile_one {cwd : Option (List Name)} (file : List Name)
    (entries : List (String × List TextEdit))
    (h : ∀ entry ∈ entries, fileNamed? cwd entry.1 = some file) (seen : List TextEdit) :
    groupByFile entries (oneGroup file seen) =
      .ok (oneGroup file (seen ++ entries.flatMap (·.2))) := by
  induction entries generalizing seen with
  | nil =>
    rw [List.flatMap_nil, List.append_nil]
    rfl
  | cons entry rest ih =>
    obtain ⟨uri, edits⟩ := entry
    have hrest := ih fun e he => h e (List.mem_cons_of_mem _ he)
    rw [List.flatMap_cons]
    cases edits with
    | nil => exact hrest seen
    | cons e es =>
      have hname := h (uri, e :: es) List.mem_cons_self
      cases hpath : pathOfUri uri with
      | error fault =>
        unfold fileNamed? at hname
        rw [hpath] at hname
        cases hname
      | ok path =>
        rw [fileNamed?_of_path cwd uri path hpath] at hname
        have hadd : addEdits file (e :: es) (oneGroup file seen) =
            oneGroup file (seen ++ e :: es) := by
          cases seen with
          | nil => rfl
          | cons s ss => exact if_pos rfl
        unfold groupByFile
        rw [hpath]
        show groupByFile rest (addEdits (Path.resolve path.components) (e :: es) _) = _
        rw [Option.some.inj hname, hadd, hrest, List.append_assoc]

/-! ## both ways -/

/-- The edits of a file as a batch, and whether there were any. -/
def applyBatch (d : Disk) (file : List Name) (edits : List TextEdit) :
    Except EditError Bool × Disk :=
  ((applyTextEdits d (.ofNames file) edits).1.map fun _ => !edits.isEmpty,
    (applyTextEdits d (.ofNames file) edits).2)

theorem applyToTarget_eq {d : Disk} {target : Path} {file : List Name} {edit : WorkspaceEdit}
    (hname : resolvePath d.cwd target = .ok file) :
    applyToTarget d target edit = applyBatch d file (editsFor file edit) := by
  unfold applyToTarget
  rw [hname]
  dsimp only
  cases editsFor file edit <;> rfl

theorem applyWorkspaceEdit_one {d : Disk} {file : List Name} {edit : WorkspaceEdit}
    (hfile : ∀ n ∈ file, Path.Plain n)
    (h : ∀ entry ∈ edit.documents, fileNamed? d.cwd entry.1 = some file) :
    ((applyWorkspaceEdit d edit).1.map fun _ => !edit.isEmpty, (applyWorkspaceEdit d edit).2) =
      applyBatch d file (edit.documents.flatMap (·.2)) := by
  have hgroups : groupByFile edit.documents [] =
      .ok (oneGroup file (edit.documents.flatMap (·.2))) := groupByFile_one file _ h []
  rw [WorkspaceEdit.isEmpty_eq]
  unfold applyWorkspaceEdit
  rw [hgroups]
  cases edit.documents.flatMap (·.2) with
  | nil => rfl
  | cons e es =>
    have htaken : [(file, e :: es)].flatMap (·.1) = file := List.append_nil file
    simp only [oneGroup, htaken, stageAll, stageEdits_own hfile, applyBatch, applyTextEdits,
      List.isEmpty_cons, Bool.false_eq_true, if_false]
    cases hstage : stageEdits [] d (.ofNames file) (e :: es) with
    | error fault => rfl
    | ok out =>
      obtain ⟨s, d₁⟩ := out
      simp only [List.reverse_singleton, commitAll]
      cases commitEdits d₁ s with
      | mk result d₂ => cases result <;> rfl

/-- **What a workspace edit says of a file is applied alike by itself and as a workspace edit of its
own, unless an entry goes to the file through `..`.** -/
theorem applyToTarget_agrees (d : Disk) (target : Path) (file : List Name) (edit : WorkspaceEdit)
    (hname : resolvePath d.cwd target = .ok file)
    (hsteps : ∀ entry ∈ edit.documents, entry.2 ≠ [] → fileNamed? d.cwd entry.1 = some file →
      ∀ path, pathOfUri entry.1 = .ok path → .parent ∉ path.components) :
    let part := edit.only (names? d.cwd file)
    applyToTarget d target edit =
        ((applyWorkspaceEdit d part).1.map fun _ => !part.isEmpty, (applyWorkspaceEdit d part).2) ∧
      ∀ other, other ≠ Path.real file →
        (applyToTarget d target edit).2.get? other = d.get? other := by
  intro part
  have hfile : ∀ n ∈ file, Path.Plain n := plain_of_resolvePath hname
  have hpart : ∀ entry ∈ part.documents, fileNamed? d.cwd entry.1 = some file := fun entry he => by
    rw [WorkspaceEdit.documents_only] at he
    exact names?_iff.mp (List.mem_filter.mp he).2
  constructor
  · rw [applyToTarget_eq hname, applyWorkspaceEdit_one hfile hpart, editsFor_eq hfile hsteps]
  · have hplain : applyToTarget d target edit = applyToTarget d (.ofNames file) edit := by
      rw [applyToTarget_eq hname, applyToTarget_eq (resolvePath_ofNames hfile d.cwd)]
    have hreach := applyToTarget_reach (d := d) hfile edit
    intro other hother
    rw [hplain]
    cases happly : applyToTarget d (.ofNames file) edit with
    | mk result after =>
      rw [happly] at hreach
      cases result with
      | error fault => exact congrArg (Disk.get? · other) hreach
      | ok changed =>
        refine hreach.other other fun hm => hother ?_
        cases changed with
        | true => exact List.mem_singleton.mp hm
        | false => cases hm

def twoFiles : Disk where
  system := ⟨[([Utf8.ofString "a"], .file (Utf8.ofString "x") 0o644),
    ([Utf8.ofString "b"], .file (Utf8.ofString "z") 0o644)]⟩
  cwd := some []

def inFront (text : String) : TextEdit := ⟨⟨⟨0, 0⟩, ⟨0, 0⟩⟩, text⟩

/-- The file "a" spelled in two ways, and the file "b". -/
def threeDocuments : WorkspaceEdit where
  changes := some [("file:///%61", [inFront "1"]), ("file:///b", [inFront "2"]),
    ("file:///b/../a", [inFront "3"])]

theorem applyToTarget_threeDocuments :
    applyToTarget twoFiles ⟨Utf8.ofString "b/../a"⟩ threeDocuments =
        (.ok true, twoFiles.update fun fs =>
          fs.set [Utf8.ofString "a"] (.file (Utf8.ofString "13x") 0o644)) ∧
      (applyToTarget twoFiles ⟨Utf8.ofString "b/../a"⟩ threeDocuments).2.get? [Utf8.ofString "b"] =
        twoFiles.get? [Utf8.ofString "b"] := by
  have hname : resolvePath twoFiles.cwd ⟨Utf8.ofString "b/../a"⟩ = .ok [Utf8.ofString "a"] := rfl
  have hpart : threeDocuments.only (names? twoFiles.cwd [Utf8.ofString "a"]) =
      { changes := some [("file:///%61", [inFront "1"]), ("file:///b/../a", [inFront "3"])] } :=
    rfl
  have hsteps : ∀ entry ∈ threeDocuments.documents, entry.2 ≠ [] →
      fileNamed? twoFiles.cwd entry.1 = some [Utf8.ofString "a"] →
      ∀ path, pathOfUri entry.1 = .ok path → .parent ∉ path.components := by
    have ha : pathOfUri "file:///%61" = .ok ⟨Utf8.ofString "/a"⟩ := rfl
    have hb : pathOfUri "file:///b" = .ok ⟨Utf8.ofString "/b"⟩ := rfl
    have hba : pathOfUri "file:///b/../a" = .ok ⟨Utf8.ofString "/a"⟩ := rfl
    intro entry he _ _ path hpath
    obtain rfl | rfl | rfl : entry = ("file:///%61", [inFront "1"]) ∨
        entry = ("file:///b", [inFront "2"]) ∨ entry = ("file:///b/../a", [inFront "3"]) := by
      simpa [WorkspaceEdit.documents, threeDocuments] using he
    · obtain rfl := Except.ok.inj (ha.symm.trans hpath)
      decide
    · obtain rfl := Except.ok.inj (hb.symm.trans hpath)
      decide
    · obtain rfl := Except.ok.inj (hba.symm.trans hpath)
      decide
  have h := applyToTarget_agrees twoFiles ⟨Utf8.ofString "b/../a"⟩ [Utf8.ofString "a"]
    threeDocuments hname hsteps
  rw [hpart] at h
  have hwhole : applyWorkspaceEdit twoFiles
      { changes := some [("file:///%61", [inFront "1"]), ("file:///b/../a", [inFront "3"])] } =
      (.ok [.ofNames [Utf8.ofString "a"]], twoFiles.update fun fs =>
        fs.set [Utf8.ofString "a"] (.file (Utf8.ofString "13x") 0o644)) := by cbv
  dsimp only at h
  rw [hwhole] at h
  exact ⟨h.1, h.2 [Utf8.ofString "b"] (by decide)⟩

def stepUp : WorkspaceEdit where
  changes := some [("file:///b%2F..%2Fa", [inFront "1"])]

theorem applyToTarget_passes_over_steps :
    fileNamed? twoFiles.cwd "file:///b%2F..%2Fa" = some [Utf8.ofString "a"] ∧
      stepUp.only (names? twoFiles.cwd [Utf8.ofString "a"]) = stepUp ∧
      (applyWorkspaceEdit twoFiles stepUp).1 = .ok [⟨Utf8.ofString "/a"⟩] ∧
      (applyWorkspaceEdit twoFiles stepUp).2.get? [Utf8.ofString "a"] =
        some (.file (Utf8.ofString "1x") 0o644) ∧
      applyToTarget twoFiles ⟨Utf8.ofString "/a"⟩ stepUp = (.ok false, twoFiles) := by
  refine ⟨?_, ?_, ?_, ?_, ?_⟩ <;> cbv

end CodeBridge
