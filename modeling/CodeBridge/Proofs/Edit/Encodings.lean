import CodeBridge.Proofs.Edit.Reach
import CodeBridge.Proofs.Edit.Target

/-!
# Encodings of a workspace edit

A workspace edit is applied file by file, and what it does depends on the groups of edits alone.
The groups are the same in whatever order the entries come when no two of them are about one file,
and when the edits of an entry are handed in by two.

* `applyWorkspaceEdit_congr`   the groups decide what is done;
* `Separate`                   entries with a file each, all of this machine;
* `Grouped.unique`             groups are determined by the edits of each file;
* `groupByFile_perm`           the groups of separate entries do not depend on their order;
* `groupByFile_split`          nor do groups on how often the edits of a file are handed in;
* `applyWorkspaceEdit_encodings`   both encodings, any order and any split do the same.
-/

namespace CodeBridge

theorem applyWorkspaceEdit_congr (d : Disk) {e e' : WorkspaceEdit}
    (h : groupByFile e.documents [] = groupByFile e'.documents []) :
    applyWorkspaceEdit d e = applyWorkspaceEdit d e' := by
  unfold applyWorkspaceEdit
  rw [h]

section
variable {cwd : Option (List Name)}

/-! ## entries in another order -/

/-- Every entry names a file of this machine, and no two of them the same one. -/
structure Separate (cwd : Option (List Name)) (entries : List (String × List TextEdit)) : Prop where
  named : ∀ entry ∈ entries, ∃ file, fileNamed? cwd entry.1 = some file
  apart : entries.Pairwise fun a b => fileNamed? cwd a.1 ≠ fileNamed? cwd b.1

theorem exists_path {uri : String} {file : List Name} (h : fileNamed? cwd uri = some file) :
    ∃ path, pathOfUri uri = .ok path ∧ Path.resolve path.components = file := by
  cases hpath : pathOfUri uri with
  | error fault =>
    unfold fileNamed? at h
    rw [hpath] at h
    cases h
  | ok path =>
    rw [fileNamed?_of_path cwd uri path hpath] at h
    exact ⟨path, rfl, Option.some.inj h⟩

/-- Entries that name files of this machine can be grouped. -/
theorem exists_groups {entries : List (String × List TextEdit)}
    (h : ∀ entry ∈ entries, ∃ file, fileNamed? cwd entry.1 = some file)
    (groups : List (List Name × List TextEdit)) :
    ∃ out, groupByFile entries groups = .ok out := by
  induction entries generalizing groups with
  | nil => exact ⟨groups, rfl⟩
  | cons entry rest ih =>
    obtain ⟨⟨file, hfile⟩, hrest⟩ := List.forall_mem_cons.mp h
    obtain ⟨uri, edits⟩ := entry
    cases edits with
    | nil => exact ih hrest groups
    | cons e es =>
      obtain ⟨path, hpath, -⟩ := exists_path hfile
      unfold groupByFile
      rw [hpath]
      exact ih hrest _

theorem editsOf_perm {a b : List (String × List TextEdit)} (h : a.Perm b)
    (ha : a.Pairwise fun x y => fileNamed? cwd x.1 ≠ fileNamed? cwd y.1) (file : List Name) :
    editsOf cwd a file = editsOf cwd b file := by
  unfold editsOf
  induction h with
  | nil => rfl
  | cons x _ ih =>
    rw [List.flatMap_cons, List.flatMap_cons, ih (List.pairwise_cons.mp ha).2]
  | swap x y l =>
    have hne := (List.pairwise_cons.mp ha).1 x List.mem_cons_self
    simp only [List.flatMap_cons, ← List.append_assoc]
    refine congrArg (· ++ _) ?_
    by_cases hx : fileNamed? cwd x.1 = some file
    · have hy : ¬ fileNamed? cwd y.1 = some file := fun hy => hne (hy.trans hx.symm)
      rw [if_neg hy, List.append_nil, List.nil_append]
    · rw [if_neg hx, List.append_nil, List.nil_append]
  | trans hab _ ih₁ ih₂ =>
    exact (ih₁ ha).trans (ih₂ ((hab.pairwise_iff fun h => Ne.symm h).mp ha))

/-- A group is there whenever its file has these edits. -/
theorem Grouped.mem_of_editsOf {entries : List (String × List TextEdit)}
    {groups : List (List Name × List TextEdit)} (h : Grouped cwd entries groups)
    {g : List Name × List TextEdit} (hedits : editsOf cwd entries g.1 = g.2) (hne : g.2 ≠ []) :
    g ∈ groups := by
  have hin : editsIn g.1 groups ≠ [] := by
    rw [h.edits g.1, hedits]
    exact hne
  obtain ⟨k, hk, hfile⟩ := List.mem_map.mp (mem_of_editsIn g.1 groups hin)
  have heq : k = g := Prod.ext hfile (by rw [h.edits_of_mem k hk, hfile, hedits])
  exact heq ▸ hk

/-- **Groups are determined by the edits of each file.** -/
theorem Grouped.unique {a b : List (String × List TextEdit)}
    {ga gb : List (List Name × List TextEdit)} (ha : Grouped cwd a ga) (hb : Grouped cwd b gb)
    (h : ∀ file, editsOf cwd a file = editsOf cwd b file) : ga = gb := by
  have hmem : ∀ g, g ∈ ga ↔ g ∈ gb := fun g =>
    ⟨fun hg => hb.mem_of_editsOf ((h g.1).symm.trans (ha.edits_of_mem g hg).symm)
        (ha.nonempty g hg),
      fun hg => ha.mem_of_editsOf ((h g.1).trans (hb.edits_of_mem g hg).symm) (hb.nonempty g hg)⟩
  have hnodup : ∀ groups : List (List Name × List TextEdit),
      groups.Pairwise (·.1 < ·.1) → groups.Nodup := fun groups hs => hs.imp fun hlt e => by
    subst e
    exact List.lt_irrefl _ hlt
  have hperm : ga.Perm gb :=
    (List.perm_ext_iff_of_nodup (hnodup ga ha.sorted) (hnodup gb hb.sorted)).mpr hmem
  exact hperm.eq_of_pairwise
    (fun x y _ _ hxy hyx => absurd (List.lt_trans hxy hyx) (List.lt_irrefl _)) ha.sorted hb.sorted

theorem groupByFile_perm {a b : List (String × List TextEdit)} (h : a.Perm b)
    (ha : Separate cwd a) : groupByFile a [] = groupByFile b [] := by
  obtain ⟨ga, hga⟩ := exists_groups ha.named []
  obtain ⟨gb, hgb⟩ := exists_groups (fun entry he => ha.named entry (h.mem_iff.mpr he)) []
  have hgroupedA : Grouped cwd a ga := groupByFile_grouped a ga hga
  have hgroupedB : Grouped cwd b gb := groupByFile_grouped b gb hgb
  rw [hga, hgb, hgroupedA.unique hgroupedB (editsOf_perm h ha.apart)]

/-! ## entries that are split -/

theorem addEdits_addEdits (file : List Name) (es fs : List TextEdit)
    (groups : List (List Name × List TextEdit)) :
    addEdits file fs (addEdits file es groups) = addEdits file (es ++ fs) groups := by
  induction groups with
  | nil => exact if_pos rfl
  | cons g rest ih =>
    obtain ⟨f, old⟩ := g
    by_cases hf : f = file
    · simp only [addEdits, if_pos hf, List.append_assoc]
    · by_cases hb : namesBefore file f = true
      · simp only [addEdits, if_neg hf, if_pos hb, if_true]
      · simp only [addEdits, if_neg hf, if_neg hb, ih]

theorem groupByFile_cons {uri : String} {file : List Name} (h : fileNamed? cwd uri = some file)
    (es : List TextEdit) (rest : List (String × List TextEdit))
    (groups : List (List Name × List TextEdit)) :
    groupByFile ((uri, es) :: rest) groups =
      groupByFile rest (if es = [] then groups else addEdits file es groups) := by
  cases es with
  | nil => rfl
  | cons e es =>
    obtain ⟨path, hpath, rfl⟩ := exists_path h
    rw [groupByFile, hpath, if_neg (List.cons_ne_nil e es)]

theorem groupByFile_append (xs ys : List (String × List TextEdit))
    (groups : List (List Name × List TextEdit)) :
    groupByFile (xs ++ ys) groups = groupByFile xs groups >>= groupByFile ys := by
  induction xs generalizing groups with
  | nil => rfl
  | cons entry rest ih =>
    obtain ⟨uri, edits⟩ := entry
    cases edits with
    | nil => exact ih groups
    | cons e es =>
      rw [List.cons_append, groupByFile, groupByFile]
      cases pathOfUri uri with
      | error fault => rfl
      | ok path => exact ih _

/-- The edits of an entry can be handed in by two entries that name its file. -/
theorem groupByFile_split {uri uri₁ uri₂ : String} {file : List Name}
    (h : fileNamed? cwd uri = some file) (h₁ : fileNamed? cwd uri₁ = some file)
    (h₂ : fileNamed? cwd uri₂ = some file) (es fs : List TextEdit)
    (before after : List (String × List TextEdit)) :
    groupByFile (before ++ (uri, es ++ fs) :: after) [] =
      groupByFile (before ++ (uri₁, es) :: (uri₂, fs) :: after) [] := by
  rw [groupByFile_append, groupByFile_append]
  refine bind_congr fun groups => ?_
  rw [groupByFile_cons h, groupByFile_cons h₁, groupByFile_cons h₂]
  refine congrArg (groupByFile after) ?_
  by_cases hes : es = []
  · subst hes
    rfl
  · rw [if_neg hes, if_neg (List.append_ne_nil_of_left_ne_nil hes fs)]
    by_cases hfs : fs = []
    · rw [if_pos hfs, hfs, List.append_nil]
    · rw [if_neg hfs, addEdits_addEdits]

end

/-! ## both encodings -/

/-- What an entry of the list says, as an entry of the map. -/
def TextDocumentEdit.entry (e : TextDocumentEdit) : String × List TextEdit :=
  (e.textDocument.uri, e.edits)

/-- The list counts when it is not empty, whatever the map says. -/
theorem WorkspaceEdit.documents_listed (changes : Option (List (String × List TextEdit)))
    {listed : List TextDocumentEdit} (h : listed ≠ []) :
    WorkspaceEdit.documents ⟨changes, some listed⟩ = listed.map (·.entry) := by
  obtain ⟨e, es, rfl⟩ := List.exists_cons_of_ne_nil h
  rfl

/-- **Entries about different files do the same as a map and as a list in any order; the edits of an
entry of the list can be split among two entries for its file, however they write its URI; and
where these fail, nothing is written.** -/
theorem applyWorkspaceEdit_encodings (d : Disk) :
    (∀ (changes : List (String × List TextEdit)) (listed : List TextDocumentEdit)
        (unused : Option (List (String × List TextEdit))),
      listed ≠ [] → (listed.map (·.entry)).Perm changes → Separate d.cwd changes →
        applyWorkspaceEdit d ⟨unused, some listed⟩ = applyWorkspaceEdit d ⟨some changes, none⟩) ∧
      (∀ (unused : Option (List (String × List TextEdit))) (before after : List TextDocumentEdit)
          (whole first second : TextDocumentEdit) (file : List Name),
        whole.edits = first.edits ++ second.edits →
        (∀ e ∈ [whole, first, second], fileNamed? d.cwd e.textDocument.uri = some file) →
          applyWorkspaceEdit d ⟨unused, some (before ++ whole :: after)⟩ =
            applyWorkspaceEdit d ⟨unused, some (before ++ first :: second :: after)⟩) ∧
      ∀ (edit : WorkspaceEdit) (fault : EditError),
        (applyWorkspaceEdit d edit).1 = .error fault → (applyWorkspaceEdit d edit).2 = d := by
  refine ⟨fun changes listed unused hne hperm hseparate => ?_,
    fun unused before after whole first second file hedits hnamed => ?_,
    fun edit fault hfault => ?_⟩
  · refine applyWorkspaceEdit_congr d ?_
    rw [WorkspaceEdit.documents_listed unused hne]
    exact (groupByFile_perm hperm.symm hseparate).symm
  · obtain ⟨hwhole, hparts⟩ := List.forall_mem_cons.mp hnamed
    have hfirst := hparts first List.mem_cons_self
    have hsecond := hparts second (List.mem_cons_of_mem _ List.mem_cons_self)
    refine applyWorkspaceEdit_congr d ?_
    rw [WorkspaceEdit.documents_listed unused (by simp),
      WorkspaceEdit.documents_listed unused (by simp)]
    simp only [List.map_append, List.map_cons]
    have hentry : whole.entry = (whole.textDocument.uri, first.edits ++ second.edits) :=
      congrArg (Prod.mk _) hedits
    rw [hentry]
    exact groupByFile_split hwhole hfirst hsecond first.edits second.edits _ _
  · have hreach := applyWorkspaceEdit_reach d edit
    cases happly : applyWorkspaceEdit d edit with
    | mk result after =>
      rw [happly] at hreach hfault
      obtain rfl : result = .error fault := hfault
      exact hreach

def unversioned (uri : String) (edits : List TextEdit) : TextDocumentEdit := ⟨⟨uri, none⟩, edits⟩

def twoEntries : List (String × List TextEdit) :=
  [("file:///%61", [inFront "1", inFront "2"]), ("file:///b", [inFront "3"])]

/-- Both files come out the same from the map, from the list turned round, and from the list with
the edits of "a" in two entries; an insertion where "b" has no line keeps "a" as it was, too. -/
theorem twoEntries_encodings :
    applyWorkspaceEdit twoFiles ⟨none, some [unversioned "file:///b" [inFront "3"],
        unversioned "file:///%61" [inFront "1", inFront "2"]]⟩ =
      applyWorkspaceEdit twoFiles ⟨some twoEntries, none⟩ ∧
    applyWorkspaceEdit twoFiles ⟨none, some [unversioned "file:///b" [inFront "3"],
        unversioned "file:///%61" [inFront "1", inFront "2"]]⟩ =
      applyWorkspaceEdit twoFiles ⟨none, some [unversioned "file:///b" [inFront "3"],
        unversioned "file:///a" [inFront "1"], unversioned "file:///b/../a" [inFront "2"]]⟩ ∧
    (applyWorkspaceEdit twoFiles ⟨some [("file:///a", [inFront "1"]),
        ("file:///b", [⟨⟨⟨1, 0⟩, ⟨1, 0⟩⟩, "4"⟩])], none⟩).2 = twoFiles := by
  have ha : fileNamed? twoFiles.cwd "file:///%61" = some [Utf8.ofString "a"] := rfl
  have hb : fileNamed? twoFiles.cwd "file:///b" = some [Utf8.ofString "b"] := rfl
  have hseparate : Separate twoFiles.cwd twoEntries := by
    refine ⟨fun entry he => ?_, ?_⟩
    · simp only [twoEntries, List.mem_cons, List.not_mem_nil, or_false] at he
      rcases he with rfl | rfl
      · exact ⟨_, ha⟩
      · exact ⟨_, hb⟩
    · refine List.pairwise_pair.mpr ?_
      rw [ha, hb]
      decide
  have hnamed : ∀ e ∈ [unversioned "file:///%61" [inFront "1", inFront "2"],
      unversioned "file:///a" [inFront "1"], unversioned "file:///b/../a" [inFront "2"]],
      fileNamed? twoFiles.cwd e.textDocument.uri = some [Utf8.ofString "a"] := fun e he => by
    simp only [List.mem_cons, List.not_mem_nil, or_false] at he
    rcases he with rfl | rfl | rfl <;> rfl
  have hfault : (applyWorkspaceEdit twoFiles ⟨some [("file:///a", [inFront "1"]),
      ("file:///b", [⟨⟨⟨1, 0⟩, ⟨1, 0⟩⟩, "4"⟩])], none⟩).1 =
        .error (.edits (.lineOutOfBounds 1 1 1)) := by cbv
  exact ⟨(applyWorkspaceEdit_encodings twoFiles).1 twoEntries _ none (List.cons_ne_nil _ _)
      (.swap _ _ _) hseparate,
    (applyWorkspaceEdit_encodings twoFiles).2.1 none [unversioned "file:///b" [inFront "3"]] []
      _ _ _ _ rfl hnamed,
    (applyWorkspaceEdit_encodings twoFiles).2.2 _ _ hfault⟩

end CodeBridge
