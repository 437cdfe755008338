import CodeBridge.Proofs.File.Disks
import CodeBridge.Edit.Files

/-!
# The edits of a workspace edit, file by file

Several entries may name one file, in one spelling or in several; what `groupByFile` makes of them
has one group for each file.

* `fileNamed`      the file that a URI names;
* `editsOf`        the edits of all entries that name a file, in the order of the entries;
* `Grouped`        groups of some entries: in strict order of their files, each with all the edits
                   of its file;
* `groupByFile_grouped`   this is what grouping makes.
-/

namespace CodeBridge

/-! ## the path that a URI names -/

namespace Uri

theorem dropLeadingEmpty_ne_nil (segments : List (List Char)) : dropLeadingEmpty segments ≠ [] := by
  unfold dropLeadingEmpty
  split
  · exact List.cons_ne_nil _ _
  next rest hr => exact hr

theorem segments_eq {foreign remote : Bool} {w : Walk} {segments : List (List Char)}
    (h : (.ok (.file foreign w.segments) : Except UriFault Uri) = .ok (.file remote segments)) :
    segments ≠ [] := by
  obtain ⟨_, rfl⟩ := Uri.file.inj (Except.ok.inj h)
  exact dropLeadingEmpty_ne_nil w.kept.reverse

theorem segments_of_parseFile (cs : List Char) (remote : Bool) (segments : List (List Char))
    (h : parseFile cs = .ok (.file remote segments)) : segments ≠ [] := by
  simp only [parseFile] at h
  repeat' split at h
  all_goals first
    | exact segments_eq h
    | obtain ⟨isLocal, -, h⟩ := bind_eq_ok h
      split at h
      · exact segments_eq h
      · exact segments_eq h

theorem segments_of_parse (text : String) (remote : Bool) (segments : List (List Char))
    (h : parse text = .ok (.file remote segments)) : segments ≠ [] := by
  simp only [parse] at h
  split at h
  · cases h
  next scheme rest _ =>
    split at h
    · exact segments_of_parseFile _ remote segments h
    · simp only [parseOther] at h
      split at h
      · obtain ⟨_, _, h⟩ := bind_eq_ok h
        cases h
      · split at h
        · obtain ⟨_, _, h⟩ := bind_eq_ok h
          cases h
        · cases h

theorem head?_closeDrive (bs : Bytes) (b : UInt8) (h : bs.head? = some b) :
    (closeDrive bs).head? = some b := by
  unfold closeDrive
  split
  · split
    · rw [List.head?_append, h]
      rfl
    · exact h
  · exact h

theorem isAbsolute_of_pathOfUri (text : String) (path : Path) (h : pathOfUri text = .ok path) :
    path.isAbsolute = true := by
  unfold pathOfUri at h
  split at h
  · cases h
  · cases h
  next uri hu =>
    split at h
    next p hp =>
      obtain rfl := Except.ok.inj h
      unfold toPath? at hp
      split at hp
      next segments =>
        obtain rfl := Option.some.inj hp
        obtain ⟨s, rest, rfl⟩ := List.exists_cons_of_ne_nil (segments_of_parse text false segments hu)
        exact decide_eq_true (head?_closeDrive _ Path.separator rfl)
      · cases hp
    · cases h

end Uri

/-- A path in normal form consists of plain names. -/
theorem exists_names_of_normalizePath {cwd : Option (List Name)} {p normal : Path}
    (h : normalizePath cwd p = .ok normal) :
    ∃ names, normal = .ofNames names ∧ ∀ n ∈ names, Path.Plain n := by
  unfold normalizePath resolvePath at h
  split at h
  · exact ⟨_, (Except.ok.inj h).symm, fun n hn => Path.plain_of_mem_resolve _ n hn⟩
  · split at h
    · exact ⟨_, (Except.ok.inj h).symm, fun n hn => Path.plain_of_mem_resolve _ n hn⟩
    · cases h

/-- A path in normal form leads to its own names. -/
theorem eq_ofNames_of_normalizePath {cwd : Option (List Name)} {p normal : Path}
    (h : normalizePath cwd p = .ok normal) : normal = .ofNames (Path.resolve normal.components) := by
  obtain ⟨names, rfl, hplain⟩ := exists_names_of_normalizePath h
  rw [Path.resolve_ofNames names hplain]

def fileNamed? (cwd : Option (List Name)) (uri : String) : Option (List Name) :=
  (pathOfUri uri).toOption.bind fun path => (resolvePath cwd path).toOption

theorem fileNamed?_of_path (cwd : Option (List Name)) (uri : String) (path : Path)
    (h : pathOfUri uri = .ok path) : fileNamed? cwd uri = some (Path.resolve path.components) := by
  have hr : resolvePath cwd path = .ok (Path.resolve path.components) :=
    if_pos (Uri.isAbsolute_of_pathOfUri uri path h)
  unfold fileNamed?
  rw [h]
  show (resolvePath cwd path).toOption = _
  rw [hr]
  rfl

/-! ## the order of files -/

theorem nameBefore_iff (a b : Name) : nameBefore a b = true ↔ a < b := by
  induction a generalizing b with
  | nil => cases b <;> simp [nameBefore]
  | cons x xs ih =>
    cases b with
    | nil => simp [nameBefore]
    | cons y ys =>
      rw [List.cons_lt_cons_iff, nameBefore]
      split
      next e =>
        rw [ih ys]
        exact ⟨fun h => .inr ⟨e, h⟩, fun h => h.elim (fun h => absurd (e ▸ h) (UInt8.lt_irrefl y)) (·.2)⟩
      next e =>
        exact ⟨fun h => .inl (of_decide_eq_true h), fun h => h.elim decide_eq_true fun h => absurd h.1 e⟩

theorem namesBefore_iff (a b : List Name) : namesBefore a b = true ↔ a < b := by
  induction a generalizing b with
  | nil => cases b <;> simp [namesBefore]
  | cons x xs ih =>
    cases b with
    | nil => simp [namesBefore]
    | cons y ys =>
      rw [List.cons_lt_cons_iff, namesBefore]
      split
      next e =>
        rw [ih ys]
        exact ⟨fun h => .inr ⟨e, h⟩, fun h => h.elim (fun h => absurd (e ▸ h) (List.lt_irrefl y)) (·.2)⟩
      next e =>
        rw [nameBefore_iff]
        exact ⟨.inl, fun h => h.elim id fun h => absurd h.1 e⟩

theorem lt_of_not_namesBefore (a b : List Name) (hne : a ≠ b) (h : ¬ namesBefore a b = true) :
    b < a := by
  have hle : b ≤ a := fun hlt => h ((namesBefore_iff a b).mpr hlt)
  exact (List.le_iff_lt_or_eq.mp hle).resolve_right (Ne.symm hne)

/-! ## groups -/

def editsOf (cwd : Option (List Name)) (entries : List (String × List TextEdit))
    (file : List Name) : List TextEdit :=
  entries.flatMap fun (uri, edits) => if fileNamed? cwd uri = some file then edits else []

def editsIn (file : List Name) : List (List Name × List TextEdit) → List TextEdit
  | [] => []
  | (f, es) :: rest => if f = file then es else editsIn file rest

structure Grouped (cwd : Option (List Name)) (entries : List (String × List TextEdit))
    (groups : List (List Name × List TextEdit)) : Prop where
  sorted : groups.Pairwise (·.1 < ·.1)
  plain : ∀ g ∈ groups, ∀ n ∈ g.1, Path.Plain n
  nonempty : ∀ g ∈ groups, g.2 ≠ []
  /-- no entry that carries edits is left out -/
  named : ∀ entry ∈ entries, entry.2 ≠ [] → ∃ file, fileNamed? cwd entry.1 = some file
  edits : ∀ file, editsIn file groups = editsOf cwd entries file

section
variable (file : List Name) (es : List TextEdit)

theorem editsIn_of_lt (groups : List (List Name × List TextEdit)) (h : ∀ g ∈ groups, file < g.1) :
    editsIn file groups = [] := by
  induction groups with
  | nil => rfl
  | cons g rest ih =>
    have hne : ¬ g.1 = file := fun e => List.lt_irrefl file (e ▸ h g List.mem_cons_self)
    exact (if_neg hne).trans (ih fun k hk => h k (List.mem_cons_of_mem _ hk))

theorem editsIn_of_mem (groups : List (List Name × List TextEdit))
    (hs : groups.Pairwise (·.1 < ·.1)) (g : List Name × List TextEdit) (hg : g ∈ groups) :
    editsIn g.1 groups = g.2 := by
  induction groups with
  | nil => cases hg
  | cons k rest ih =>
    obtain ⟨hk, hs⟩ := List.pairwise_cons.mp hs
    rcases List.mem_cons.mp hg with rfl | hg
    · exact if_pos rfl
    · have hne : ¬ k.1 = g.1 := fun e => List.lt_irrefl k.1 (e ▸ hk g hg)
      exact (if_neg hne).trans (ih hs hg)

theorem mem_of_editsIn (groups : List (List Name × List TextEdit)) (h : editsIn file groups ≠ []) :
    file ∈ groups.map (·.1) := by
  induction groups with
  | nil => exact absurd rfl h
  | cons g rest ih =>
    unfold editsIn at h
    split at h
    next e => exact e ▸ List.mem_cons_self
    · exact List.mem_cons_of_mem _ (ih h)

theorem mem_addEdits (groups : List (List Name × List TextEdit)) (g : List Name × List TextEdit)
    (h : g ∈ addEdits file es groups) :
    (g.1 = file ∧ ∃ old, g.2 = old ++ es) ∨ g ∈ groups := by
  induction groups with
  | nil =>
    rw [List.mem_singleton.mp h]
    exact .inl ⟨rfl, [], rfl⟩
  | cons k rest ih =>
    obtain ⟨f, old⟩ := k
    unfold addEdits at h
    split at h
    next e =>
      rcases List.mem_cons.mp h with rfl | h
      · exact .inl ⟨e, old, rfl⟩
      · exact .inr (List.mem_cons_of_mem _ h)
    · split at h
      · rcases List.mem_cons.mp h with rfl | h
        · exact .inl ⟨rfl, [], rfl⟩
        · exact .inr h
      · rcases List.mem_cons.mp h with rfl | h
        · exact .inr List.mem_cons_self
        · exact (ih h).imp_right (List.mem_cons_of_mem _)

theorem sorted_addEdits (groups : List (List Name × List TextEdit))
    (hs : groups.Pairwise (·.1 < ·.1)) : (addEdits file es groups).Pairwise (·.1 < ·.1) := by
  induction groups with
  | nil => exact List.pairwise_singleton _ _
  | cons k rest ih =>
    obtain ⟨f, old⟩ := k
    obtain ⟨hk, hrest⟩ := List.pairwise_cons.mp hs
    unfold addEdits
    split
    · exact List.pairwise_cons.mpr ⟨hk, hrest⟩
    next hne =>
      split
      next hb =>
        have hlt : file < f := (namesBefore_iff file f).mp hb
        refine List.pairwise_cons.mpr ⟨fun g hg => ?_, hs⟩
        rcases List.mem_cons.mp hg with rfl | hg
        · exact hlt
        · exact List.lt_trans hlt (hk g hg)
      next hb =>
        refine List.pairwise_cons.mpr ⟨fun g hg => ?_, ih hrest⟩
        rcases mem_addEdits file es rest g hg with ⟨e, _⟩ | hg
        · rw [e]
          exact lt_of_not_namesBefore file f (Ne.symm hne) hb
        · exact hk g hg

theorem editsIn_addEdits (groups : List (List Name × List TextEdit))
    (hs : groups.Pairwise (·.1 < ·.1)) (f : List Name) :
    editsIn f (addEdits file es groups) =
      editsIn f groups ++ if file = f then es else [] := by
  induction groups with
  | nil => by_cases h : file = f <;> simp [addEdits, editsIn, h]
  | cons k rest ih =>
    obtain ⟨k, old⟩ := k
    obtain ⟨hk, hrest⟩ := List.pairwise_cons.mp hs
    unfold addEdits
    split
    next e =>
      subst e
      by_cases h : k = f <;> simp [editsIn, h]
    next hne =>
      split
      next hb =>
        have hlt : file < k := (namesBefore_iff file k).mp hb
        by_cases h : file = f
        · subst h
          have hnone : editsIn file ((k, old) :: rest) = [] :=
            editsIn_of_lt file _ fun g hg => (List.mem_cons.mp hg).elim (fun e => e ▸ hlt)
              fun hg => List.lt_trans hlt (hk g hg)
          rw [hnone]
          simp [editsIn]
        · simp [editsIn, h]
      · by_cases h : k = f
        · have hf : ¬ file = f := fun e => hne (h.trans e.symm)
          simp [editsIn, h, hf]
        · simp [editsIn, h, ih hrest]

end

/-! ## grouping -/

variable {cwd : Option (List Name)}

theorem editsOf_concat (seen : List (String × List TextEdit)) (uri : String) (es : List TextEdit)
    (file : List Name) :
    editsOf cwd (seen ++ [(uri, es)]) file =
      editsOf cwd seen file ++ if fileNamed? cwd uri = some file then es else [] := by
  unfold editsOf
  rw [List.flatMap_append, List.flatMap_singleton]

namespace Grouped
variable {seen : List (String × List TextEdit)} {groups : List (List Name × List TextEdit)}

theorem skip (h : Grouped cwd seen groups) (uri : String) :
    Grouped cwd (seen ++ [(uri, [])]) groups where
  sorted := h.sorted
  plain := h.plain
  nonempty := h.nonempty
  named entry he hne := by
    rcases List.mem_append.mp he with he | he
    · exact h.named entry he hne
    · exact absurd (congrArg Prod.snd (List.mem_singleton.mp he)) hne
  edits file := by
    rw [editsOf_concat, ite_self, List.append_nil]
    exact h.edits file

theorem add (h : Grouped cwd seen groups) (uri : String) (path : Path) (es : List TextEdit)
    (hp : pathOfUri uri = .ok path) (hes : es ≠ []) :
    Grouped cwd (seen ++ [(uri, es)]) (addEdits (Path.resolve path.components) es groups) where
  sorted := sorted_addEdits _ es groups h.sorted
  plain g hg := by
    rcases mem_addEdits _ es groups g hg with ⟨e, _⟩ | hg
    · rw [e]
      exact Path.plain_of_mem_resolve path
    · exact h.plain g hg
  nonempty g hg := by
    rcases mem_addEdits _ es groups g hg with ⟨_, old, e⟩ | hg
    · rw [e]
      exact List.append_ne_nil_of_right_ne_nil _ hes
    · exact h.nonempty g hg
  named entry he hne := by
    rcases List.mem_append.mp he with he | he
    · exact h.named entry he hne
    · rw [List.mem_singleton.mp he]
      exact ⟨_, fileNamed?_of_path cwd uri path hp⟩
  edits file := by
    rw [editsIn_addEdits _ es groups h.sorted, h.edits file, editsOf_concat,
      fileNamed?_of_path cwd uri path hp]
    simp only [Option.some.injEq]

/-- The edits of a group are those of the entries that name its file. -/
theorem edits_of_mem (h : Grouped cwd seen groups) (g : List Name × List TextEdit)
    (hg : g ∈ groups) : g.2 = editsOf cwd seen g.1 := by
  rw [← h.edits g.1, editsIn_of_mem groups h.sorted g hg]

/-- There is a group for each file that an entry with edits names, and no other. -/
theorem mem_iff (h : Grouped cwd seen groups) (file : List Name) :
    file ∈ groups.map (·.1) ↔ ∃ entry ∈ seen, entry.2 ≠ [] ∧ fileNamed? cwd entry.1 = some file := by
  constructor
  · intro hf
    obtain ⟨g, hg, rfl⟩ := List.mem_map.mp hf
    have hne : editsOf cwd seen g.1 ≠ [] := h.edits_of_mem g hg ▸ h.nonempty g hg
    obtain ⟨e, he⟩ := List.exists_mem_of_ne_nil _ hne
    obtain ⟨⟨uri, es⟩, hentry, he⟩ := List.mem_flatMap.mp he
    refine ⟨(uri, es), hentry, ?_⟩
    replace he : e ∈ if fileNamed? cwd uri = some g.1 then es else [] := he
    split at he
    next hname => exact ⟨List.ne_nil_of_mem he, hname⟩
    · cases he
  · rintro ⟨entry, hentry, hne, hname⟩
    refine mem_of_editsIn file groups ?_
    obtain ⟨e, he⟩ := List.exists_mem_of_ne_nil _ hne
    rw [h.edits file]
    have hmem : e ∈ if fileNamed? cwd entry.1 = some file then entry.2 else [] := by
      rw [if_pos hname]
      exact he
    exact List.ne_nil_of_mem (List.mem_flatMap.mpr ⟨entry, hentry, hmem⟩)

theorem nil_iff (h : Grouped cwd seen groups) : groups = [] ↔ ∀ entry ∈ seen, entry.2 = [] := by
  constructor
  · rintro rfl entry hentry
    refine Decidable.of_not_not fun hne => ?_
    obtain ⟨file, hname⟩ := h.named entry hentry hne
    exact absurd ((h.mem_iff file).mpr ⟨entry, hentry, hne, hname⟩) List.not_mem_nil
  · intro hall
    cases groups with
    | nil => rfl
    | cons g rest =>
      obtain ⟨entry, hentry, hne, _⟩ := (h.mem_iff g.1).mp List.mem_cons_self
      exact absurd (hall entry hentry) hne

end Grouped

theorem groupByFile_spec (entries seen : List (String × List TextEdit))
    (groups out : List (List Name × List TextEdit)) (hg : Grouped cwd seen groups)
    (h : groupByFile entries groups = .ok out) : Grouped cwd (seen ++ entries) out := by
  induction entries generalizing seen groups with
  | nil =>
    rw [List.append_nil, ← Except.ok.inj h]
    exact hg
  | cons entry rest ih =>
    obtain ⟨uri, es⟩ := entry
    rw [List.append_cons]
    cases es with
    | nil => exact ih _ groups (hg.skip uri) h
    | cons e es =>
      unfold groupByFile at h
      split at h
      · cases h
      next path hp => exact ih _ _ (hg.add uri path (e :: es) hp (List.cons_ne_nil e es)) h

theorem groupByFile_grouped (entries : List (String × List TextEdit))
    (groups : List (List Name × List TextEdit)) (h : groupByFile entries [] = .ok groups) :
    Grouped cwd entries groups :=
  groupByFile_spec entries [] [] groups ⟨.nil, nofun, nofun, nofun, fun _ => rfl⟩ h

/-- Entries that carry no edits are grouped whatever their URIs are. -/
theorem groupByFile_of_empty (entries : List (String × List TextEdit))
    (h : ∀ entry ∈ entries, entry.2 = []) : groupByFile entries [] = .ok [] := by
  induction entries with
  | nil => rfl
  | cons entry rest ih =>
    obtain ⟨uri, es⟩ := entry
    obtain rfl : es = [] := h (uri, es) List.mem_cons_self
    exact ih fun e he => h e (List.mem_cons_of_mem _ he)

end CodeBridge
