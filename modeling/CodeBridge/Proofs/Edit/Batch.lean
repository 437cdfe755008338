import Mathlib
import CodeBridge.Proofs.Edit.Groups
import CodeBridge.Proofs.File.Staged

/-!
# A workspace edit is applied as a whole or not at all

Files are staged one after another, so a batch can fail when fresh files lie beside some of them
already; they are committed only once all are staged.

* `Staging`          the disk as it was, and the changes that have been staged on it, the last one
                     first: every fresh file can be taken back (`Staging.discardAll`) and every
                     change can still be made (`Staging.pending`);
* `stageAll_spec`    staging leaves either the disk as it was or a change for each file;
* `commitAll_spec`   pending changes are made, one after another;
* `Rewritten`        what a batch leaves: the files with their new contents, and nothing else.
-/

namespace CodeBridge

/-! ## one file -/

/-- The contents of a file with edits applied, and its mode. -/
def Edited (d : Disk) (file : List Name) (edits : List TextEdit) (bytes : Bytes) (mode : Nat) :
    Prop :=
  ∃ old text new, d.get? file = some (.file old mode) ∧ Utf8.text? old = some text ∧
    applyEditsToText text edits = .ok new ∧ bytes = Utf8.ofString new

/-- Staging the edits of a file, when it succeeds, is staging a change that fits. -/
theorem stageEdits_fits {taken : List Name} {d d' : Disk} {path : List Name}
    {edits : List TextEdit} {s : Staged} (hp : ∀ n ∈ path, Path.Plain n)
    (h : stageEdits taken d (.ofNames path) edits = .ok (s, d')) :
    ∃ c : Change, c.path = path ∧ Edited d c.file edits c.bytes c.mode ∧ s = c.staged ∧
      d' = c.onto d ∧ c.Fits c.file d ∧ c.name = Staged.freshName taken d.system := by
  obtain ⟨text, hread, h⟩ := bind_eq_ok h
  obtain ⟨new, hnew, h⟩ := bind_eq_ok h
  obtain ⟨hn, hl, old, mode, hf, ht⟩ := Disk.readText_eq_ok hp (mapError_eq_ok hread)
  obtain ⟨c, rfl, rfl, hb, hs, hd, hc, hname⟩ :=
    Change.stageApart_fits hn hp hl hf (mapError_eq_ok h)
  exact ⟨c, rfl, ⟨old, text, new, hf, ht, mapError_eq_ok hnew, hb⟩, hs, hd, hc, hname⟩

/-! ## staging all files -/

inductive Staging (taken : List Name) (d₀ : Disk) : List Change → Disk → Prop
  | start : Staging taken d₀ [] d₀
  | stage {cs : List Change} {d : Disk} (c : Change) :
      Staging taken d₀ cs d → c.Fits taken d → Staging taken d₀ (c :: cs) (c.onto d)

namespace Staging
variable {taken : List Name} {d₀ d : Disk} {cs : List Change}

theorem discardAll (h : Staging taken d₀ cs d) :
    (cs.map (·.staged)).foldl Staged.discard d = d₀ := by
  induction h with
  | start => rfl
  | stage c _ hc ih =>
    rw [List.map_cons, List.foldl_cons, hc.discard_onto]
    exact ih

theorem pending (h : Staging taken d₀ cs d) : ∀ c ∈ cs, c.Pending taken d := by
  induction h with
  | start => exact nofun
  | stage c _ hc ih =>
    intro b hb
    rcases List.mem_cons.mp hb with rfl | hb
    · exact hc.pending
    · exact (hc.pending_onto (ih b hb)).2

theorem temps_ne (h : Staging taken d₀ cs d) : cs.Pairwise fun a b => a.temp ≠ b.temp := by
  induction h with
  | start => exact .nil
  | stage c hs hc ih =>
    exact List.pairwise_cons.mpr ⟨fun b hb => Ne.symm (hc.pending_onto (hs.pending b hb)).1, ih⟩

theorem cwd (h : Staging taken d₀ cs d) : d.cwd = d₀.cwd := by
  induction h with
  | start => rfl
  | stage c _ _ ih => exact ih

theorem get?_eq (h : Staging taken d₀ cs d) (names : List Name)
    (hn : ∀ c ∈ cs, names ≠ c.temp) : d.get? names = d₀.get? names := by
  induction h with
  | start => rfl
  | stage c _ _ ih =>
    rw [Change.Fits.get?_onto names (hn c List.mem_cons_self)]
    exact ih fun b hb => hn b (List.mem_cons_of_mem _ hb)

theorem get?_temp (h : Staging taken d₀ cs d) : ∀ c ∈ cs, d₀.get? c.temp = none := by
  induction h with
  | start => exact nofun
  | stage c hs hc ih =>
    intro b hb
    rcases List.mem_cons.mp hb with rfl | hb
    · rw [← hs.get?_eq b.temp fun a ha => Ne.symm (hc.pending_onto (hs.pending a ha)).1]
      exact hc.get?_temp
    · exact ih b hb

theorem get?_listed (h : Staging taken d₀ cs d) (file : List Name) (hf : ∀ n ∈ file, n ∈ taken) :
    d.get? file = d₀.get? file :=
  h.get?_eq file fun c hc e => (h.pending c hc).not_taken (hf c.name (e ▸ c.name_mem_temp))

end Staging

structure Changes (d : Disk) (groups : List (List Name × List TextEdit)) (cs : List Change) :
    Prop where
  paths : cs.map (·.path) = groups.map (·.1)
  edited : ∀ c ∈ cs, ∃ edits, (c.path, edits) ∈ groups ∧ Edited d c.file edits c.bytes c.mode

theorem Changes.cons {d : Disk} {groups : List (List Name × List TextEdit)} {cs : List Change}
    (h : Changes d groups cs) (c : Change) (edits : List TextEdit)
    (hc : Edited d c.file edits c.bytes c.mode) : Changes d ((c.path, edits) :: groups) (c :: cs) where
  paths := congrArg (c.path :: ·) h.paths
  edited b hb := by
    rcases List.mem_cons.mp hb with rfl | hb
    · exact ⟨edits, List.mem_cons_self, hc⟩
    · obtain ⟨es, hes, hb⟩ := h.edited b hb
      exact ⟨es, List.mem_cons_of_mem _ hes, hb⟩

/-- Staging leaves the disk as it was, or a staged change for each file. -/
theorem stageAll_spec {taken : List Name} {d₀ d d' : Disk}
    (groups : List (List Name × List TextEdit)) (cs : List Change)
    (result : Except EditError (List Staged)) (hp : ∀ g ∈ groups, ∀ n ∈ g.1, Path.Plain n)
    (hlisted : ∀ g ∈ groups, ∀ n ∈ g.1, n ∈ taken) (hs : Staging taken d₀ cs d)
    (h : stageAll taken d groups (cs.map (·.staged)) = (result, d')) :
    match result with
    | .error _ => d' = d₀
    | .ok staged => ∃ new, staged = (cs.reverse ++ new).map (·.staged) ∧
        Staging taken d₀ (new.reverse ++ cs) d' ∧ Changes d₀ groups new := by
  induction groups generalizing cs d with
  | nil =>
    obtain ⟨rfl, rfl⟩ := Prod.mk.inj h
    refine ⟨[], ?_, hs, rfl, nofun⟩
    rw [List.append_nil, List.map_reverse]
  | cons g rest ih =>
    obtain ⟨file, edits⟩ := g
    unfold stageAll at h
    cases hstage : stageEdits taken d (.ofNames file) edits with
    | error fault =>
      rw [hstage] at h
      obtain ⟨rfl, rfl⟩ := Prod.mk.inj h
      exact hs.discardAll
    | ok out =>
      obtain ⟨s, d₁⟩ := out
      rw [hstage] at h
      obtain ⟨c, rfl, ⟨old, text, new, hf, hedit⟩, rfl, rfl, hc, hname⟩ :=
        stageEdits_fits (hp _ List.mem_cons_self) hstage
      have hnot : c.name ∉ taken := hname ▸ Staged.freshName_not_taken taken d.system
      have hfile : ∀ n ∈ c.file, n ∈ taken := fun n hn =>
        hlisted _ List.mem_cons_self n ((Path.real_suffix c.path).subset hn)
      replace hc := hc.among hfile hnot
      have hedited : Edited d₀ c.file edits c.bytes c.mode :=
        ⟨old, text, new, (hs.get?_listed c.file hc.listed).symm.trans hf, hedit⟩
      have hrest := ih (c :: cs) (fun g hg => hp g (List.mem_cons_of_mem _ hg))
        (fun g hg => hlisted g (List.mem_cons_of_mem _ hg)) (hs.stage c hc) h
      cases result with
      | error fault => exact hrest
      | ok staged =>
        obtain ⟨new, hstaged, hstaging, hnew⟩ := hrest
        refine ⟨c :: new, ?_, ?_, hnew.cons c edits hedited⟩
        · rw [hstaged, List.reverse_cons, List.append_assoc]
          rfl
        · rw [List.reverse_cons, List.append_assoc]
          exact hstaging

/-! ## committing all files -/

/-- Pending changes are made, one after another, and nothing else is; of those of one file the last
one stays. -/
theorem commitAll_spec {taken : List Name} (cs : List Change) (d : Disk)
    (hp : ∀ c ∈ cs, c.Pending taken d)
    (hne : cs.Pairwise fun a b => a.path < b.path ∧ a.temp ≠ b.temp) :
    ∃ d', commitAll d (cs.map (·.staged)) = (.ok (), d') ∧ d'.cwd = d.cwd ∧
      (∀ c ∈ cs, ((∀ b ∈ cs, b.file = c.file → b.path ≤ c.path) →
        d'.get? c.file = some (.file c.bytes c.mode)) ∧ d'.get? c.temp = none) ∧
      ∀ names, (∀ c ∈ cs, names ≠ c.file ∧ names ≠ c.temp) → d'.get? names = d.get? names := by
  induction cs generalizing d with
  | nil => exact ⟨d, rfl, rfl, nofun, fun _ _ => rfl⟩
  | cons c cs ih =>
    obtain ⟨hc, hcs⟩ := List.pairwise_cons.mp hne
    have hpc := hp c List.mem_cons_self
    obtain ⟨d₁, hcommit, hmade⟩ := hpc.commit
    have hrest : ∀ b ∈ cs, b.Pending taken d₁ := fun b hb =>
      hpc.pending_over (hp b (List.mem_cons_of_mem _ hb)) (Ne.symm (hc b hb).2) hmade.toOver
    obtain ⟨d', hall, hcwd, hdone, hother⟩ := ih d₁ hrest hcs
    refine ⟨d', ?_, hcwd.trans hmade.cwd, fun b hb => ?_, fun names hn => ?_⟩
    · have hfirst : commitEdits d c.staged = (.ok (), d₁) := by
        unfold commitEdits
        rw [hcommit]
        rfl
      rw [List.map_cons, commitAll, hfirst]
      exact hall
    · rcases List.mem_cons.mp hb with rfl | hb
      · have htemp := fun a (ha : a ∈ cs) =>
          And.intro (Ne.symm (hpc.file_ne_temp (hp a (List.mem_cons_of_mem _ ha)))) (hc a ha).2
        refine ⟨fun hlast => ?_, (hother b.temp htemp).trans hmade.temp⟩
        have hfile := fun a (ha : a ∈ cs) => And.intro
          (fun e => hlast a (List.mem_cons_of_mem _ ha) (Eq.symm e) (hc a ha).1)
          ((hp a (List.mem_cons_of_mem _ ha)).file_ne_temp hpc)
        exact (hother b.file hfile).trans hmade.made
      · exact ⟨fun hlast => (hdone b hb).1 fun a ha => hlast a (List.mem_cons_of_mem _ ha),
          (hdone b hb).2⟩
    · obtain ⟨h1, h2⟩ := hn c List.mem_cons_self
      rw [hother names fun b hb => hn b (List.mem_cons_of_mem _ hb), hmade.other names h1 h2]

/-! ## the batch -/

/-- What applying a workspace edit to files leaves; a file has the names past the links. -/
structure Rewritten (d : Disk) (edit : WorkspaceEdit) (files : List (List Name)) (d' : Disk) :
    Prop where
  /-- in strict order, so no names are there twice -/
  sorted : files.Pairwise (· < ·)
  named : ∀ names, names ∈ files ↔
    ∃ entry ∈ edit.documents, entry.2 ≠ [] ∧ fileNamed? d.cwd entry.1 = some names
  /-- the edits under the last names of a file are made -/
  edited : ∀ names ∈ files, ∃ bytes mode,
    Edited d (Path.real names) (editsOf d.cwd edit.documents names) bytes mode ∧
      ((∀ names' ∈ files, Path.real names' = Path.real names → names' ≤ names) →
        d'.get? (Path.real names) = some (.file bytes mode))
  other : ∀ file, file ∉ files.map Path.real → d'.get? file = d.get? file
  cwd : d'.cwd = d.cwd

/-- Committing what has been staged for the groups of an edit. -/
theorem commitAll_rewritten {taken : List Name} {d₀ d : Disk} (edit : WorkspaceEdit)
    {groups : List (List Name × List TextEdit)} (cs : List Change)
    (hg : Grouped d₀.cwd edit.documents groups) (hs : Staging taken d₀ cs.reverse d)
    (hcs : Changes d₀ groups cs) :
    ∃ d', commitAll d (cs.map (·.staged)) = (.ok (), d') ∧
      Rewritten d₀ edit (groups.map (·.1)) d' := by
  have hsorted : (groups.map (·.1)).Pairwise (· < ·) := List.pairwise_map.mpr hg.sorted
  have hpaths : cs.Pairwise fun a b => a.path < b.path :=
    List.pairwise_map.mp (hcs.paths ▸ hsorted)
  have htemps : cs.Pairwise fun a b => a.temp ≠ b.temp :=
    (List.pairwise_reverse.mp hs.temps_ne).imp Ne.symm
  obtain ⟨d', hcommit, hcwd, hdone, hother⟩ :=
    commitAll_spec cs d (fun c hc => hs.pending c (List.mem_reverse.mpr hc)) (hpaths.and htemps)
  refine ⟨d', hcommit, hsorted, hg.mem_iff, fun names hf => ?_, fun file hn => ?_,
    hcwd.trans hs.cwd⟩
  · rw [← hcs.paths] at hf ⊢
    obtain ⟨c, hc, rfl⟩ := List.mem_map.mp hf
    obtain ⟨edits, hedits, hedited⟩ := hcs.edited c hc
    have e : edits = editsOf d₀.cwd edit.documents c.path := hg.edits_of_mem _ hedits
    exact ⟨c.bytes, c.mode, e ▸ hedited, fun hlast =>
      (hdone c hc).1 fun b hb => hlast b.path (List.mem_map_of_mem hb)⟩
  · rw [← hcs.paths, List.map_map] at hn
    by_cases ht : file ∈ cs.map (·.temp)
    · obtain ⟨c, hc, rfl⟩ := List.mem_map.mp ht
      rw [(hdone c hc).2, hs.get?_temp c (List.mem_reverse.mpr hc)]
    · have htemp : ∀ c ∈ cs, file ≠ c.temp := fun c hc e => ht (e ▸ List.mem_map_of_mem hc)
      have hfile : ∀ c ∈ cs, file ≠ c.file := fun c hc e =>
        hn (e ▸ List.mem_map_of_mem (f := Path.real ∘ Change.path) hc)
      rw [hother file fun c hc => ⟨hfile c hc, htemp c hc⟩]
      exact hs.get?_eq file fun c hc => htemp c (List.mem_reverse.mp hc)

theorem WorkspaceEdit.isEmpty_iff (edit : WorkspaceEdit) :
    edit.isEmpty = true ↔ ∀ entry ∈ edit.documents, entry.2 = [] := by
  unfold isEmpty
  rw [List.all_eq_true]
  exact forall₂_congr fun _ _ => List.isEmpty_iff

/-- **A workspace edit that fails leaves the disk as it was; one that does not rewrites the files
that it names and nothing else, each with all the edits under its last names.** -/
theorem applyWorkspaceEdit_atomic (d : Disk) (edit : WorkspaceEdit) :
    match applyWorkspaceEdit d edit with
    | (.error _, d') => d' = d ∧ edit.isEmpty = false
    | (.ok paths, d') => (∃ files, paths = files.map Path.ofNames ∧ Rewritten d edit files d') ∧
        (paths = [] ↔ edit.isEmpty = true) := by
  cases hgroups : groupByFile edit.documents [] with
  | error fault =>
    have happly : applyWorkspaceEdit d edit = (.error fault, d) := by
      rw [applyWorkspaceEdit, hgroups]
    rw [happly]
    refine ⟨rfl, Bool.eq_false_iff.mpr fun he => ?_⟩
    rw [groupByFile_of_empty _ (edit.isEmpty_iff.mp he)] at hgroups
    cases hgroups
  | ok groups =>
    have hg : Grouped d.cwd edit.documents groups := groupByFile_grouped _ groups hgroups
    have hempty : groups = [] ↔ edit.isEmpty = true := hg.nil_iff.trans edit.isEmpty_iff.symm
    have hlisted : ∀ g ∈ groups, ∀ n ∈ g.1, n ∈ groups.flatMap (·.1) := fun g hm n hn =>
      List.mem_flatMap.mpr ⟨g, hm, hn⟩
    obtain ⟨⟨result, d₁⟩, hstage⟩ : ∃ out, stageAll (groups.flatMap (·.1)) d groups [] = out :=
      ⟨_, rfl⟩
    have hspec := stageAll_spec groups [] result hg.plain hlisted .start hstage
    cases result with
    | error fault =>
      have happly : applyWorkspaceEdit d edit = (.error fault, d₁) := by
        simp only [applyWorkspaceEdit, hgroups, hstage]
      rw [happly]
      refine ⟨hspec, Bool.eq_false_iff.mpr fun he => ?_⟩
      obtain rfl := hempty.mpr he
      cases hstage
    | ok staged =>
      obtain ⟨cs, rfl, hs, hcs⟩ := hspec
      rw [List.append_nil] at hs
      obtain ⟨d', hcommit, hdone⟩ := commitAll_rewritten edit cs hg hs hcs
      have hpaths : (cs.map Change.staged).map (·.target) = (groups.map (·.1)).map Path.ofNames := by
        rw [← hcs.paths, List.map_map, List.map_map]
        rfl
      have happly :
          applyWorkspaceEdit d edit = (.ok ((groups.map (·.1)).map Path.ofNames), d') := by
        rw [← hpaths]
        simp only [applyWorkspaceEdit, hgroups, hstage]
        rw [List.reverse_nil, List.nil_append, hcommit]
        rfl
      rw [happly]
      refine ⟨⟨groups.map (·.1), rfl, hdone⟩, ?_⟩
      rw [List.map_eq_nil_iff, List.map_eq_nil_iff]
      exact hempty

def loneFile : Disk :=
  ⟨⟨[([Utf8.ofString "a"], .file (Utf8.ofString "x") 0o644)]⟩, none⟩

/-- Two spellings of a URI, one file. -/
example :
    (applyWorkspaceEdit loneFile
      { changes := some [("file:///%61", [⟨⟨⟨0, 1⟩, ⟨0, 1⟩⟩, "y"⟩]),
          ("file:///a", [⟨⟨⟨0, 1⟩, ⟨0, 1⟩⟩, "z"⟩])] }).2.get? [Utf8.ofString "a"] =
      some (.file (Utf8.ofString "xyz") 0o644) := by
  cbv

/-- An edit of the file under each of two names. -/
def twoNames : WorkspaceEdit where
  changes := some [("file:///a", [⟨⟨⟨0, 0⟩, ⟨0, 0⟩⟩, "1"⟩]),
    ("file:///proc/self/root/a", [⟨⟨⟨0, 1⟩, ⟨0, 1⟩⟩, "2"⟩])]

/-- Under two names a file is staged twice, and the edit that is committed first is lost: the file
holds neither what the edits under its one name make of it nor what both make of it. -/
theorem applyWorkspaceEdit_twoNames :
    (applyWorkspaceEdit loneFile twoNames).1.toOption =
        some [.ofString "/a", .ofString "/proc/self/root/a"] ∧
      (loneFile.readText (.ofString "/a")).toOption = some "x" ∧
      (loneFile.readText (.ofString "/proc/self/root/a")).toOption = some "x" ∧
      ((applyWorkspaceEdit loneFile twoNames).2.readText (.ofString "/a")).toOption = some "x2" ∧
      (applyEditsToText "x" (editsOf none twoNames.documents [Utf8.ofString "a"])).toOption =
        some "1x" ∧
      (applyEditsToText "x" (twoNames.documents.flatMap (·.2))).toOption = some "1x2" := by
  have hshort : fileNamed? none "file:///a" = some [Utf8.ofString "a"] := by cbv
  have hlong : fileNamed? none "file:///proc/self/root/a" =
      some (["proc", "self", "root", "a"].map Utf8.ofString) := by cbv
  have hedits : editsOf none twoNames.documents [Utf8.ofString "a"] =
      [⟨⟨⟨0, 0⟩, ⟨0, 0⟩⟩, "1"⟩] := by
    show (if fileNamed? none "file:///a" = some [Utf8.ofString "a"] then _ else _) ++
      ((if fileNamed? none "file:///proc/self/root/a" = some [Utf8.ofString "a"] then _ else _) ++
        []) = _
    rw [if_pos hshort, if_neg (by rw [hlong]; decide)]
    rfl
  rw [hedits]
  refine ⟨?_, ?_, ?_, ?_, ?_, ?_⟩ <;> cbv

end CodeBridge
