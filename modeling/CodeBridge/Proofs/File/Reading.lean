import CodeBridge.Proofs.File.Renames

/-!
# Paths that read alike

Paths that are the same lead to the same place, but one of them may ask for a directory there, or be
too long for the system to look at.  If they do not differ in that, what is read through one is read
through the other.

* `components_eq_nil_iff`, `mem_bytes_iff`   what components tell of the bytes of a path;
* `read_eq_ok_iff`   when a file is read through a path;
* `Path.Alike.readText`   paths that are alike read alike.
-/

namespace CodeBridge

theorem mem_joinWith_iff {α : Type} {sep x : α} (h : x ≠ sep) (ps : List (List α)) :
    x ∈ joinWith sep ps ↔ ∃ p ∈ ps, x ∈ p := by
  induction ps with
  | nil => simp [joinWith]
  | cons p ps ih =>
    cases ps with
    | nil => simp [joinWith]
    | cons q ps =>
      rw [joinWith_cons_cons, List.mem_append, List.mem_cons, ih, or_iff_right h]
      simp only [List.mem_cons, exists_eq_or_imp]

namespace Path

variable {p q : Path}

/-! ## bytes and components -/

/-- A byte other than a separator or a point is part of a name. -/
theorem mem_bytes_iff {b : UInt8} (hs : b ≠ separator) (hd : b ≠ dot) :
    b ∈ p.bytes ↔ ∃ n, .name n ∈ p.components ∧ b ∈ n := by
  have hparts : b ∈ p.bytes ↔ ∃ part ∈ parts p.bytes, b ∈ part := by
    rw [← mem_joinWith_iff hs, parts, joinWith_piecesAt]
  rw [hparts]
  constructor
  · rintro ⟨part, hpart, hb⟩
    refine ⟨part, name_mem_components_iff.mpr ⟨hpart, ?_, ?_, ?_⟩, hb⟩
    all_goals
      rintro rfl
      simp [hd] at hb
  · rintro ⟨n, hn, hb⟩
    exact ⟨n, (name_mem_components_iff.mp hn).1, hb⟩

theorem components_eq_nil_iff : p.components = [] ↔ p.bytes = [] := by
  obtain ⟨bytes⟩ := p
  cases bytes with
  | nil => exact iff_of_true rfl rfl
  | cons b bs =>
    suffices h : ∃ c, c ∈ components ⟨b :: bs⟩ from
      iff_of_false (List.ne_nil_of_mem h.choose_spec) nofun
    by_cases hb : b = separator
    · exact ⟨.root, isAbsolute_iff.mp (by rw [hb]; rfl)⟩
    obtain ⟨q, qs, hparts⟩ : ∃ q qs, parts (b :: bs) = (b :: q) :: qs := by
      unfold parts piecesAt
      rw [if_neg hb]
      split
      · exact ⟨[], [], rfl⟩
      next q qs _ => exact ⟨q, qs, rfl⟩
    by_cases hdot : b :: q = [dot]
    · refine ⟨.current, mem_components_iff.mpr (.inr (.inl ⟨rfl, ?_, ?_⟩))⟩
      · simpa [isAbsolute] using hb
      · rw [hparts, hdot]
        rfl
    · obtain ⟨c, hc⟩ : ∃ c, component? (b :: q) = some c := by
        unfold component?
        rw [if_neg (not_or.mpr ⟨nofun, hdot⟩)]
        split <;> exact ⟨_, rfl⟩
      exact ⟨c, mem_components_iff.mpr (.inr (.inr ⟨b :: q, hparts ▸ List.mem_cons_self, hc⟩))⟩

/-! ## paths that are alike -/

/-- The paths are the same, both of a directory or neither, and both short enough or neither. -/
structure Alike (p q : Path) : Prop where
  same : p.Same q
  directory : Disk.asksDir p = Disk.asksDir q
  length : p.bytes.length ≤ Disk.maxPath ↔ q.bytes.length ≤ Disk.maxPath

instance : Decidable (p.Alike q) :=
  decidable_of_iff (p.Same q ∧ Disk.asksDir p = Disk.asksDir q ∧
      (p.bytes.length ≤ Disk.maxPath ↔ q.bytes.length ≤ Disk.maxPath))
    ⟨fun ⟨hs, hd, hl⟩ => ⟨hs, hd, hl⟩, fun ⟨hs, hd, hl⟩ => ⟨hs, hd, hl⟩⟩

theorem Alike.symm (h : p.Alike q) : q.Alike p := ⟨h.same.symm, h.directory.symm, h.length.symm⟩

theorem Alike.isAbsolute (h : p.Alike q) : p.isAbsolute = q.isAbsolute := by
  rw [Bool.eq_iff_iff, isAbsolute_iff, isAbsolute_iff, show p.components = q.components from h.same]

theorem Alike.route (h : p.Alike q) : p.route = q.route := by
  unfold Path.route
  rw [show p.components = q.components from h.same]

theorem Alike.passable (h : p.Alike q) (hp : Disk.Passable p) : Disk.Passable q := by
  have hsame : p.components = q.components := h.same
  obtain ⟨hzero, hempty, hlong⟩ := hp
  refine ⟨?_, ?_, ?_⟩
  · rw [List.contains_iff_mem, mem_bytes_iff (by decide) (by decide)] at hzero ⊢
    rwa [← hsame]
  · rw [List.isEmpty_iff, ← components_eq_nil_iff] at hempty ⊢
    rwa [← hsame]
  · exact Nat.not_lt.mpr (h.length.mp (Nat.not_lt.mp hlong))

end Path

/-! ## reading -/

namespace Disk

variable {d : Disk} {p q : Path}

theorem read_eq_ok_iff {bytes : Bytes} : d.read p = .ok bytes ↔
    asksDir p = false ∧ Passable p ∧ ∃ start here mode,
      (if p.isAbsolute then some [] else d.cwd) = some start ∧
      d.walk start.reverse p.route = .ok here ∧ ShortName here ∧
      d.get? here.reverse = some (.file bytes mode) := by
  have hread : d.read p = .ok bytes ↔ ∃ names mode, d.stat p = .ok (names, .file bytes mode) := by
    unfold read
    rw [bind_eq_ok_iff]
    constructor
    · rintro ⟨⟨names, node⟩, hstat, hnode⟩
      cases node with
      | file found mode =>
        obtain rfl : found = bytes := pure_eq_ok_iff.mp hnode
        exact ⟨names, mode, hstat⟩
      | dir mode => cases hnode
    · rintro ⟨names, mode, hstat⟩
      exact ⟨_, hstat, rfl⟩
  rw [hread]
  constructor
  · rintro ⟨names, mode, hstat⟩
    obtain ⟨hlocate, hnode, hdir⟩ := (stat_eq_ok_iff d p names _).mp hstat
    obtain ⟨hpass, start, here, hstart, hwalk, hshort, hplace⟩ :=
      (locate_eq_ok_iff d p _).mp hlocate
    have hnames : names = here.reverse := congrArg Place.names hplace
    exact ⟨Bool.eq_false_iff.mpr fun hask => Bool.false_ne_true (hdir hask), hpass, start, here,
      mode, hstart, hwalk, hshort, hnames ▸ hnode⟩
  · rintro ⟨hdir, hpass, start, here, mode, hstart, hwalk, hshort, hnode⟩
    refine ⟨here.reverse, mode, (stat_eq_ok_iff d p _ _).mpr ⟨?_, hnode, fun hask => ?_⟩⟩
    · exact (locate_eq_ok_iff d p _).mpr ⟨hpass, start, here, hstart, hwalk, hshort, rfl⟩
    · rw [hdir] at hask
      cases hask

end Disk

namespace Path.Alike

variable {p q : Path}

theorem read (h : p.Alike q) {d : Disk} {bytes : Bytes} (hp : d.read p = .ok bytes) :
    d.read q = .ok bytes := by
  obtain ⟨hdir, hpass, start, here, mode, hstart, hwalk, hshort, hnode⟩ := Disk.read_eq_ok_iff.mp hp
  refine Disk.read_eq_ok_iff.mpr
    ⟨h.directory ▸ hdir, h.passable hpass, start, here, mode, ?_, ?_, hshort, hnode⟩
  · rwa [← h.isAbsolute]
  · rwa [← h.route]

/-- **What is read through a path is read through one that is alike**, if anything is. -/
theorem readText (h : p.Alike q) (d : Disk) :
    (d.readText p).toOption = (d.readText q).toOption := by
  have hread {p q : Path} (h : p.Alike q) {text : String} (hp : d.readText p = .ok text) :
      d.readText q = .ok text := by
    obtain ⟨bytes, hbytes, htext⟩ := bind_eq_ok hp
    exact bind_eq_ok_iff.mpr ⟨bytes, h.read hbytes, htext⟩
  refine Option.ext fun text => ?_
  rw [toOption_eq_some_iff, toOption_eq_some_iff]
  exact ⟨hread h, hread h.symm⟩

end Path.Alike

end CodeBridge
