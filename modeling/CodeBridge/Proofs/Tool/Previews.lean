import Mathlib.Data.List.Forall2
import CodeBridge.Proofs.Concurrency.Prompt
import CodeBridge.Proofs.File.Reading
import CodeBridge.Proofs.Text.Rows
import CodeBridge.Proofs.Tool.Reach

/-!
# Places that are found

A tool that looks places up reads each file once and shows the line that each place is on.  What has
been read of a file stands for every path that is the same, also for one that cannot be read, or
could be.

* `Previews.Holds`        what is known of files after some paths have been looked at;
* `promptly_foundPlaces`  the moves of the search, and what it finds;
* `lineOf`, `Shows`       a line of a file as it is on the disk, and a place that shows it;
* `foundPlaces_faithful`  along every run there is a place for each location in a local file, which
                          leads back to the location and shows its line as the first path of the
                          file does; paths that are alike show what each of them does.
-/

namespace CodeBridge.Tool

open Routine

/-! ## runs of routines that go on promptly -/

theorem Still.refl (h : Host) : Still h h := ⟨rfl, rfl⟩

theorem Still.trans {h₁ h₂ h₃ : Host} (h : Still h₁ h₂) (h' : Still h₂ h₃) : Still h₁ h₃ :=
  ⟨h'.disk.trans h.disk, h'.root.trans h.root⟩

def moves : List Moment → Nat
  | [] => 0
  | .move _ :: moments => moves moments + 1
  | .aside _ :: moments => moves moments

section
variable {α : Type} {Q : α → Host → Prop} {n : Nat}

/-- **Each move of a run brings the end nearer by one.** -/
theorem Promptly.run (moments : List Moment) (s : Host × Routine Host α)
    (h : Promptly Still Still Q s.2 n s.1) :
    Promptly Still Still Q (Tool.run moments s).2 (n - moves moments) (Tool.run moments s).1 := by
  induction moments generalizing s n with
  | nil => exact h
  | cons moment moments ih =>
    obtain ⟨host, r⟩ := s
    cases moment with
    | aside other =>
      have hother : Still host (other.change host) := ⟨other.disk host, other.root host⟩
      exact ih (other.change host, r) (h.rely (fun _ _ _ => Still.trans) hother)
    | move elapsed =>
      cases n with
      | zero =>
        obtain ⟨a, rfl, -⟩ := h.eq_done Still.refl
        have hrest := ih (host, done a) h
        rw [Nat.zero_sub] at hrest ⊢
        exact hrest
      | succ n =>
        rw [moves, Nat.add_sub_add_right]
        exact ih (r.poll elapsed host) (h.poll Still.refl Still.refl elapsed).2

end

/-- A file is read while others leave files alone. -/
theorem promptly_readText {d : Disk} (path : Path) {h : Host} (hd : h.disk = d) :
    Promptly Still Still (fun text u => text = d.readText path ∧ u.disk = d) (readText path) 2 h := by
  intro u hu
  have hread : u.disk = d := hu.disk.trans hd
  refine ⟨Still.refl u, fun v hv w hw => ⟨?_, ?_⟩⟩
  · rw [← hread]
  · exact hw.disk.trans (hv.disk.trans hread)

/-! ## what is known of files -/

/-- The lines of a file, nothing for one that cannot be read. -/
def linesOn (d : Disk) (path : Path) : Option (List (List Char)) :=
  (d.readText path).toOption.map fun t => rows t.toList

/-- The first of the paths that is the same. -/
def firstSame (paths : List Path) (path : Path) : Option Path :=
  paths.find? fun p => decide (p.Same path)

theorem firstSame_congr {path path' : Path} (h : path.Same path') (paths : List Path) :
    firstSame paths path = firstSame paths path' := by
  unfold firstSame
  rw [show (fun p : Path => decide (p.Same path)) = fun p => decide (p.Same path') from
    funext fun p => decide_eq_decide.mpr ⟨fun hp => hp.trans h, fun hp => hp.trans h.symm⟩]

theorem firstSame_concat (paths : List Path) (path other : Path) :
    firstSame (paths ++ [path]) other =
      (firstSame paths other).or (if path.Same other then some path else none) := by
  unfold firstSame
  rw [List.find?_append, List.find?_singleton]
  simp only [decide_eq_true_eq]

/-- After these paths have been looked at, a path is known by the first of them that is the same. -/
def Previews.Holds (d : Disk) (seen : List Path) (previews : Previews) : Prop :=
  ∀ path, previews.get? path = (firstSame seen path).map (linesOn d)

namespace Previews.Holds
variable {d : Disk} {seen : List Path} {previews : Previews} {path : Path}

theorem nil : Previews.Holds d [] [] := fun _ => rfl

theorem again (h : previews.Holds d seen) (hseen : (firstSame seen path).isSome = true) :
    previews.Holds d (seen ++ [path]) := by
  intro other
  rw [h other, firstSame_concat]
  by_cases hsame : path.Same other
  · rw [firstSame_congr hsame] at hseen
    rw [Option.or_of_isSome hseen]
  · rw [if_neg hsame, Option.or_none]

theorem read (h : previews.Holds d seen) (hseen : firstSame seen path = none) :
    Previews.Holds d (seen ++ [path]) ((path, linesOn d path) :: previews) := by
  intro other
  rw [firstSame_concat]
  by_cases hsame : path.Same other
  · rw [← firstSame_congr hsame, hseen, if_pos hsame, Option.none_or]
    simp [Previews.get?, hsame]
  · rw [if_neg hsame, Option.or_none, ← h other]
    simp [Previews.get?, hsame]

end Previews.Holds

/-! ## what is found -/

/-- The locations that are in files of this machine, with the paths of the files. -/
def localPlaces (locations : List Location) : List (Location × Path) :=
  locations.filterMap fun l => (pathOfUri l.uri).toOption.map fun path => (l, path)

def localPaths (locations : List Location) : List Path := (localPlaces locations).map Prod.snd

/-- The path that the lines of a file are read through. -/
def readThrough (paths : List Path) (path : Path) : Path := (firstSame paths path).getD path

/-- What is found of a location, when all these paths are looked at. -/
def placeOn (d : Disk) (paths : List Path) : Location × Path → FoundPlace
  | (l, path) => foundPlace path (toUser l.range.start) (linesOn d (readThrough paths path))

section
variable {l : Location} {ls : List Location}

theorem localPlaces_error {fault : UriError} (h : pathOfUri l.uri = .error fault) :
    localPlaces (l :: ls) = localPlaces ls := by
  unfold localPlaces
  rw [List.filterMap_cons, h]
  rfl

theorem localPlaces_ok {path : Path} (h : pathOfUri l.uri = .ok path) :
    localPlaces (l :: ls) = (l, path) :: localPlaces ls := by
  unfold localPlaces
  rw [List.filterMap_cons, h]
  rfl

end

theorem readThrough_split (seen : List Path) (path : Path) (rest : List Path) :
    readThrough (seen ++ path :: rest) path = (firstSame seen path).getD path := by
  have hself : firstSame (path :: rest) path = some path :=
    List.find?_cons_of_pos (decide_eq_true rfl)
  unfold readThrough firstSame at *
  rw [List.find?_append, hself]
  cases List.find? _ seen <;> rfl

/-- **The search moves at most twice for each location**, and finds each place as the first path of
its file shows it. -/
theorem promptly_foundPlaces {d : Disk} {paths seen : List Path} {previews : Previews}
    (locations : List Location) (hpaths : paths = seen ++ localPaths locations)
    (hholds : previews.Holds d seen) :
    ∃ n ≤ 2 * locations.length, ∀ h : Host, h.disk = d → Promptly Still Still
      (fun found _ => found = (localPlaces locations).map (placeOn d paths))
      (foundPlaces locations previews) n h := by
  induction locations generalizing seen previews with
  | nil => exact ⟨0, Nat.le_refl 0, fun _ _ _ _ => rfl⟩
  | cons l ls ih =>
    unfold foundPlaces
    cases hl : pathOfUri l.uri with
    | error fault =>
      rw [localPaths, localPlaces_error hl] at hpaths
      rw [localPlaces_error hl]
      obtain ⟨n, hn, hrest⟩ := ih hpaths hholds
      exact ⟨n, hn.trans (Nat.mul_le_mul_left 2 (Nat.le_succ ls.length)), hrest⟩
    | ok path =>
      rw [localPaths, localPlaces_ok hl, List.map_cons] at hpaths
      rw [localPlaces_ok hl, List.map_cons]
      have hnext : paths = (seen ++ [path]) ++ localPaths ls := by
        rw [hpaths, List.append_assoc]
        rfl
      have hplace {lines : Option (List (List Char))}
          (h : lines = linesOn d ((firstSame seen path).getD path)) :
          foundPlace path (toUser l.range.start) lines = placeOn d paths (l, path) := by
        rw [placeOn, hpaths, readThrough_split, h]
      dsimp only
      cases hget : previews.get? path with
      | some lines =>
        -- the lines are those of the first path that is the same, whatever this one would read
        rw [hholds path] at hget
        obtain ⟨first, hfirst, rfl⟩ := Option.map_eq_some_iff.mp hget
        obtain ⟨n, hn, hrest⟩ := ih hnext (hholds.again (by rw [hfirst]; rfl))
        refine ⟨0 + n, ?_, fun h hd => (hrest h hd).bind Still.refl fun found u hfound v _ => ?_⟩
        · rw [List.length_cons]
          omega
        · rw [hfound, hplace (by rw [hfirst]; rfl)]
      | none =>
        have hseen : firstSame seen path = none := by
          rw [hholds path, Option.map_eq_none_iff] at hget
          exact hget
        obtain ⟨n, hn, hrest⟩ := ih hnext (hholds.read hseen)
        refine ⟨0 + n + 2, ?_, fun h hd =>
          (promptly_readText path hd).bind Still.refl fun text u htext => ?_⟩
        · rw [List.length_cons]
          omega
        · obtain ⟨rfl, hd⟩ := htext
          refine (hrest u hd).bind Still.refl fun found v hfound w _ => ?_
          rw [hfound, hplace]
          rw [hseen]
          rfl

/-! ## positions and back -/

/-- Neither number of the position is the largest there is. -/
def Small (p : Position) : Prop := p.line < 0xFFFFFFFF ∧ p.character < 0xFFFFFFFF

instance (p : Position) : Decidable (Small p) :=
  inferInstanceAs (Decidable (p.line < 0xFFFFFFFF ∧ p.character < 0xFFFFFFFF))

theorem succSaturating_eq {n : UInt32} (h : n < 0xFFFFFFFF) : succSaturating n = n + 1 :=
  if_neg (UInt32.ne_of_lt h)

theorem toNat_succSaturating {n : UInt32} (h : n < 0xFFFFFFFF) :
    (succSaturating n).toNat = n.toNat + 1 := by
  have hn : n.toNat < 0xFFFFFFFF := UInt32.lt_iff_toNat_lt.mp h
  rw [succSaturating_eq h, UInt32.toNat_add]
  exact Nat.mod_eq_of_lt (Nat.succ_lt_succ hn)

theorem succSaturating_ne_zero {n : UInt32} (h : n < 0xFFFFFFFF) : succSaturating n ≠ 0 := by
  intro e
  have hzero := congrArg UInt32.toNat e
  rw [toNat_succSaturating h] at hzero
  cases hzero

/-- **A position is found again** from what it is called when lines and columns start at one. -/
theorem toProtocol?_toUser {p : Position} (h : Small p) :
    toProtocol? (toUser p).line (toUser p).column = some p := by
  unfold toProtocol? toUser
  rw [if_neg (not_or.mpr ⟨succSaturating_ne_zero h.1, succSaturating_ne_zero h.2⟩),
    succSaturating_eq h.1, succSaturating_eq h.2, UInt32.add_sub_cancel, UInt32.add_sub_cancel]

/-! ## what a place shows -/

/-- A line of a file, counted from zero, without white space at its ends; nothing for a file that
cannot be read or has no such line. -/
def lineOf (d : Disk) (path : Path) (line : Nat) : String :=
  match d.readText path with
  | .error _ => ""
  | .ok text =>
    match (pieces text.toList)[line]? with
    | none => ""
    | some piece => String.ofList (trim piece)

theorem previewOf_linesOn (d : Disk) (path : Path) {line : UInt32} (h : line < 0xFFFFFFFF) :
    previewOf (linesOn d path) (succSaturating line) = lineOf d path line.toNat := by
  unfold previewOf lineOf linesOn
  rw [if_neg (succSaturating_ne_zero h)]
  cases d.readText path with
  | error fault => rfl
  | ok text =>
    show String.ofList (trim ((rows text.toList)[(succSaturating line).toNat - 1]?.getD [])) = _
    rw [toNat_succSaturating h, Nat.add_sub_cancel, trim_rows]
    dsimp only
    cases (pieces text.toList)[line.toNat]? with
    | none => rfl
    | some piece => rfl

/-- The place is in the file of that path and leads back to where the location starts; it shows the
line there as it is read through the path `through`. -/
structure Shows (d : Disk) (through : Path) (l : Location) (path : Path) (found : FoundPlace) :
    Prop where
  file : found.file = path.display
  start : toProtocol? found.line found.column = some l.range.start
  preview : found.preview = lineOf d through l.range.start.line.toNat

theorem shows_placeOn (d : Disk) (paths : List Path) {l : Location} (path : Path)
    (h : Small l.range.start) :
    Shows d (readThrough paths path) l path (placeOn d paths (l, path)) where
  file := rfl
  start := toProtocol?_toUser h
  preview := previewOf_linesOn d _ h.1

/-! ## paths that read alike -/

def NoneDiffer (paths : List Path) : Prop := ∀ p ∈ paths, ∀ q ∈ paths, p.Same q → p.Alike q

instance (paths : List Path) : Decidable (NoneDiffer paths) :=
  inferInstanceAs (Decidable (∀ p ∈ paths, ∀ q ∈ paths, p.Same q → p.Alike q))

theorem lineOf_congr {d : Disk} {p q : Path} (h : p.Alike q) (line : Nat) :
    lineOf d p line = lineOf d q line := by
  have hread := h.readText d
  unfold lineOf
  cases hp : d.readText p with
  | error fault =>
    cases hq : d.readText q with
    | error fault' => rfl
    | ok text =>
      rw [hp, hq] at hread
      cases hread
  | ok text =>
    rw [hp] at hread
    rw [toOption_eq_some_iff.mp hread.symm]

theorem NoneDiffer.alike {paths : List Path} (h : NoneDiffer paths) {path : Path}
    (hpath : path ∈ paths) : (readThrough paths path).Alike path := by
  unfold readThrough firstSame
  cases hfirst : paths.find? fun p => decide (p.Same path) with
  | none =>
    have hself : ¬ decide (path.Same path) = true := List.find?_eq_none.mp hfirst path hpath
    exact absurd (decide_eq_true rfl) hself
  | some first =>
    have hsame := List.find?_some hfirst
    exact h first (List.mem_of_find?_eq_some hfirst) path hpath (of_decide_eq_true hsame)

theorem mem_localPlaces {locations : List Location} {l : Location} {path : Path}
    (h : (l, path) ∈ localPlaces locations) : l ∈ locations ∧ path ∈ localPaths locations := by
  refine ⟨?_, List.mem_map.mpr ⟨(l, path), h, rfl⟩⟩
  obtain ⟨l', hl, hp⟩ := List.mem_filterMap.mp h
  obtain ⟨path', -, he⟩ := Option.map_eq_some_iff.mp hp
  rwa [← (Prod.mk.inj he).1]

/-- **The places that are found are those of the locations in local files, in their order**, whatever
happens in between that leaves files alone, and no location takes more than two moves.  Each place
leads back to where its location starts and shows the line there, trimmed, as it is read through the
first of the paths that is the same; so it shows what its own path reads, if no two of the paths are
the same and not alike. -/
theorem foundPlaces_faithful (h₀ : Host) (locations : List Location)
    (hsmall : ∀ l ∈ locations, Small l.range.start) (moments : List Moment) :
    let s := run moments (h₀, foundPlaces locations [])
    (2 * locations.length ≤ moves moments → ∃ found, s.2 = .done found) ∧
    ∀ found, s.2 = .done found →
      List.Forall₂ (fun place f => Shows h₀.disk (readThrough (localPaths locations) place.2)
        place.1 place.2 f) (localPlaces locations) found ∧
      (NoneDiffer (localPaths locations) →
        List.Forall₂ (fun place f => Shows h₀.disk place.2 place.1 place.2 f)
          (localPlaces locations) found) := by
  intro s
  obtain ⟨n, hn, hprompt⟩ :=
    promptly_foundPlaces locations (List.nil_append (localPaths locations)).symm Previews.Holds.nil
  have hrun := Promptly.run moments (h₀, foundPlaces locations []) (hprompt h₀ rfl)
  refine ⟨fun hmoves => ?_, fun found hfound => ?_⟩
  · rw [Nat.sub_eq_zero_of_le (hn.trans hmoves)] at hrun
    obtain ⟨found, hdone, -⟩ := hrun.eq_done Still.refl
    exact ⟨found, hdone⟩
  · rw [show (run moments (h₀, foundPlaces locations [])).2 = done found from hfound] at hrun
    obtain rfl := hrun.of_done.2 _ (Still.refl _)
    have hshows (place : Location × Path) (hplace : place ∈ localPlaces locations) :=
      shows_placeOn h₀.disk (localPaths locations) place.2
        (hsmall place.1 (mem_localPlaces hplace).1)
    refine ⟨List.forall₂_map_right_iff.mpr (List.forall₂_same.mpr hshows), fun hdiffer => ?_⟩
    refine List.forall₂_map_right_iff.mpr (List.forall₂_same.mpr fun place hplace => ?_)
    obtain ⟨hfile, hstart, hpreview⟩ := hshows place hplace
    exact ⟨hfile, hstart, hpreview.trans (lineOf_congr (hdiffer.alike (mem_localPlaces hplace).2) _)⟩

def oneFile : Host where
  disk :=
    ⟨⟨[([Utf8.ofString "a.go"], .file (Utf8.ofString "x \n\ty\r\n") 0o644)]⟩, some []⟩
  root := ⟨[Path.separator]⟩

def startsAt (uri : String) (line character : UInt32) : Location :=
  ⟨uri, ⟨⟨line, character⟩, ⟨line, character⟩⟩⟩

/-- Two ways of writing one file, and a location elsewhere. -/
theorem foundPlaces_faithful_twice :
    let locations := [startsAt "file:///a.go" 1 4, startsAt "untitled:a.go" 0 0,
      startsAt "file:///%2Fa.go" 0 0, startsAt "file:///a.go" 2 0]
    let found := [⟨"/a.go", 2, 5, "y"⟩, ⟨"//a.go", 1, 1, "x"⟩, ⟨"/a.go", 3, 1, ""⟩]
    (∀ l ∈ locations, Small l.range.start) ∧ NoneDiffer (localPaths locations) ∧
      (run (List.replicate 8 (.move 0)) (oneFile, foundPlaces locations [])).2 = .done found ∧
      List.Forall₂ (fun place f => Shows oneFile.disk place.2 place.1 place.2 f)
        (localPlaces locations) found := by
  intro locations found
  have hsmall : ∀ l ∈ locations, Small l.range.start := by decide
  have hdiffer : NoneDiffer (localPaths locations) := by decide
  have hrun : (run (List.replicate 8 (.move 0)) (oneFile, foundPlaces locations [])).2 =
      .done found := rfl
  exact ⟨hsmall, hdiffer, hrun,
    ((foundPlaces_faithful oneFile locations hsmall _).2 found hrun).2 hdiffer⟩

/-- A file is shown as one that cannot be read, when a path that is the same asks for a directory. -/
theorem foundPlaces_stale :
    let locations := [startsAt "file:///a.go/" 0 0, startsAt "file:///a.go" 0 0]
    (∀ l ∈ locations, Small l.range.start) ∧
      ∃ found, (run [.move 0, .move 0] (oneFile, foundPlaces locations [])).2 = .done found ∧
        ¬ List.Forall₂ (fun place f => Shows oneFile.disk place.2 place.1 place.2 f)
          (localPlaces locations) found := by
  intro locations
  refine ⟨by decide, [⟨"/a.go/", 1, 1, ""⟩, ⟨"/a.go", 1, 1, ""⟩], rfl, fun h => ?_⟩
  have hplaces : localPlaces locations =
      [(startsAt "file:///a.go/" 0 0, .ofString "/a.go/"),
        (startsAt "file:///a.go" 0 0, .ofString "/a.go")] := rfl
  rw [hplaces] at h
  obtain ⟨-, h⟩ := List.forall₂_cons.mp h
  obtain ⟨hshows, -⟩ := List.forall₂_cons.mp h
  have hline : lineOf oneFile.disk (.ofString "/a.go") 0 = "x" := rfl
  exact absurd (hshows.preview.trans hline) (by decide)

end CodeBridge.Tool
