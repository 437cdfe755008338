import Mathlib
import CodeBridge.File.Staging
import CodeBridge.Proofs.File.Renames

/-!
# What a commit leaves of the other files

A file, or nothing, at the target makes way for the fresh file at once.  A directory there is moved
aside first, under the extension `bak`, and comes back when the fresh file cannot take its place.

* `Waits`           the fresh file is there;
* `Clear`           a directory at the target can be moved aside and back: no file has its new name,
                    and no path that is used passes through it;
* `commit_file`     a commit over a file or over nothing;
* `commit_spares`   a commit that succeeds keeps every other file, below a directory that was moved
                    aside in its new place, and one that fails takes nothing but the fresh file.

When a file has the name that the directory is to get, it is removed.
-/

namespace CodeBridge

namespace Staged
variable {s : Staged} {d d' : Disk} {temp target : List Name} {bytes : Bytes} {mode : Nat}

/-! ## the fresh file -/

structure Waits (s : Staged) (d : Disk) (temp : List Name) (bytes : Bytes) (mode : Nat) : Prop where
  leads : d.Leads s.temp temp
  file : d.get? temp = some (.file bytes mode)

namespace Waits

theorem nonempty (h : s.Waits d temp bytes mode) : temp ≠ [] := by
  rintro rfl
  have := h.file
  cases this

theorem of_agree (h : s.Waits d temp bytes mode) (hcwd : d'.cwd = d.cwd)
    (hsame : ∀ names, d'.get? names = d.get? names) : s.Waits d' temp bytes mode where
  leads := Disk.locate_of_way hcwd h.leads fun _ _ _ _ hd => hsame _ ▸ hd
  file := (hsame temp).trans h.file

theorem cwd_discard (h : s.Waits d temp bytes mode) : (s.discard d).cwd = d.cwd := by
  unfold discard
  rw [Disk.unlink_of_leads h.leads h.file]
  rfl

theorem get?_discard (h : s.Waits d temp bytes mode) (names : List Name) :
    (s.discard d).get? names = if names = temp then none else d.get? names := by
  unfold discard
  rw [Disk.unlink_of_leads h.leads h.file]
  show (d.system.erase temp).get? names = _
  split
  next e =>
    rw [e]
    exact d.system.get?_erase_self temp h.nonempty
  next hne => exact d.system.get?_erase_ne temp names hne

end Waits

/-! ## a file, or nothing, in the way -/

/-- The contents stand at the target, and the mode that was noted. -/
theorem commit_of_persist (hp : s.persist d = (.ok (), d')) (ht : d'.Leads s.target target)
    (hf : d'.get? target = some (.file bytes mode)) :
    ∃ done, s.commit d = (.ok (), done) ∧ d'.KeepsDirs done ∧
      done.get? target = some (.file bytes (s.mode.getD mode)) ∧
      ∀ names, names ≠ target → done.get? names = d'.get? names := by
  have hne : target ≠ [] := by
    rintro rfl
    cases hf
  unfold commit
  rw [hp]
  cases hm : s.mode with
  | none => exact ⟨d', rfl, ⟨rfl, fun _ _ h => h⟩, hf, fun _ _ => rfl⟩
  | some m =>
    let done := d'.update fun fs => fs.set target (.file bytes m)
    have hset : ∀ names, names ≠ target → done.get? names = d'.get? names := fun names h =>
      d'.system.get?_set_ne target names _ h
    refine ⟨done, ?_, .of_agree [target] rfl (fun names hn m' => ?_) fun names hn => ?_,
      d'.system.get?_set_self target _ hne, hset⟩
    · show (Except.ok (), (d'.chmod s.target m).toOption.getD d') = _
      rw [Disk.chmod_of_leads m ht hf]
      rfl
    · rw [List.mem_singleton.mp hn, hf]
      exact nofun
    · exact hset names fun e => hn (e ▸ List.mem_cons_self)

/-- A commit over a file, or over nothing, changes no other entry. -/
theorem commit_file (hw : s.Waits d temp bytes mode)
    (hleaf : ∀ rest, rest ≠ [] → d.get? (temp ++ rest) = none)
    (ht : d.Leads s.target target) (hg : ∀ m, d.get? target ≠ some (.dir m)) :
    ∃ done, s.commit d = (.ok (), done) ∧ d.KeepsDirs done ∧
      done.get? target = some (.file bytes (s.mode.getD mode)) ∧
      (temp ≠ target → done.get? temp = none) ∧
      ∀ names, names ≠ temp → names ≠ target → done.get? names = d.get? names := by
  have hr := Disk.rename_file hw.leads hw.file ht hg
  have htook := Disk.took_of_rename_file hw.file hleaf hg
  have hkeeps := htook.keepsDirs hw.file hg
  revert hr htook hkeeps
  generalize (if target = temp then d else d.moved temp target) = d₁
  intro hr htook hkeeps
  have hp : s.persist d = (.ok (), d₁) := by
    unfold persist
    rw [hr]
  obtain ⟨done, hc, hk, hf, ho⟩ :=
    commit_of_persist hp (hkeeps.leads ht) (htook.here.trans hw.file)
  refine ⟨done, hc, hkeeps.trans hk, hf, fun hne => (ho temp hne).trans (htook.gone hne),
    fun names h1 h2 => ?_⟩
  exact (ho names h2).trans (htook.other names h1 h2)

theorem commit_of_error {fault : IoError} (hp : s.persist d = (.error fault, d')) :
    s.commit d = (.error fault, d') := by
  unfold commit
  rw [hp]

/-- Without a directory at the target the contents replace what is there, or they are discarded. -/
theorem commit_of_no_dir (hw : s.Waits d temp bytes mode)
    (hleaf : ∀ rest, rest ≠ [] → d.get? (temp ++ rest) = none)
    (hnd : ∀ names m, d.stat s.target ≠ .ok (names, .dir m)) :
    (∃ target done, d.Leads s.target target ∧ (∀ m, d.get? target ≠ some (.dir m)) ∧
      s.commit d = (.ok (), done) ∧ d.KeepsDirs done ∧
      done.get? target = some (.file bytes (s.mode.getD mode)) ∧
      (temp ≠ target → done.get? temp = none) ∧
      ∀ names, names ≠ temp → names ≠ target → done.get? names = d.get? names) ∨
    ∃ fault, s.commit d = (.error fault, s.discard d) := by
  rcases Disk.rename_file_cases hw.leads hw.file s.target with ⟨target, hl, hg⟩ | ⟨fault, hr⟩
  · obtain ⟨done, hdone⟩ := commit_file hw hleaf hl hg
    exact .inl ⟨target, done, hl, hg, hdone⟩
  · refine .inr ⟨fault, commit_of_error ?_⟩
    cases hs : d.stat s.target with
    | error fault' =>
      unfold persist
      rw [hr]
      dsimp only
      rw [hs]
    | ok found =>
      obtain ⟨names, node⟩ := found
      obtain ⟨m, rfl⟩ := Disk.dir_of_rename_file hw.leads hw.file hr hs
      exact absurd hs (hnd names m)

/-! ## a directory in the way -/

/-- the path that a directory is moved aside to -/
def aside (s : Staged) : Path := s.target.withExtension backup

/-- What a directory at the target needs to be moved aside and, if need be, back. -/
structure Clear (s : Staged) (d : Disk) (target : List Name) : Prop where
  /-- no file has the name that it is moved to -/
  no_file : ∀ names bytes mode, d.stat s.aside ≠ .ok (names, .file bytes mode)
  /-- that name is free when the fresh file cannot take the place of a directory -/
  free : Disk.asksDir s.target = true → Disk.endsInStep s.target = false →
    ∀ names node, d.stat s.aside = .ok (names, node) → names = target
  /-- the paths lead to it and not through it -/
  apart : ∀ p ∈ [s.temp, s.target, s.aside], ¬ d.Passes p target

/-- The contents have replaced what was at the target, and no other file is lost. -/
structure Replaced (s : Staged) (d d' : Disk) (temp target : List Name) (node : Node) : Prop where
  stat : d'.stat s.target = .ok (target, node)
  gone : temp ≠ target → d'.get? temp = none
  kept : ∀ names bytes mode, names ≠ temp → ¬ target <+: names →
    d.get? names = some (.file bytes mode) → d'.get? names = some (.file bytes mode)
  /-- what was below a directory is where that has been moved to -/
  moved : ∀ rest bytes mode, rest ≠ [] → d.get? (target ++ rest) = some (.file bytes mode) →
    ∃ names m, d'.stat s.aside = .ok (names, .dir m) ∧
      d'.get? (names ++ rest) = some (.file bytes mode)

/-- Every entry but the fresh file is as it was. -/
def Undone (d d' : Disk) (temp : List Name) : Prop :=
  ∀ names, d'.get? names = if names = temp then none else d.get? names

/-- A directory at the target that can be moved to a vacant place. -/
structure Shift (s : Staged) (d : Disk) (temp target away : List Name) (bytes : Bytes)
    (mode : Nat) : Prop where
  rooted : d.system.Rooted
  waits : s.Waits d temp bytes mode
  clear : s.Clear d target
  dir : ∃ m, d.get? target = some (.dir m)
  named : Disk.endsInStep s.target = false
  leads : d.locate s.target = .ok ⟨target, Disk.asksDir s.target, Disk.endsInStep s.target⟩
  aside_named : Disk.endsInStep s.aside = false
  aside : d.locate s.aside = .ok ⟨away, Disk.asksDir s.aside, Disk.endsInStep s.aside⟩
  ne : away ≠ target
  vacant : d.system.Vacant away

namespace Shift
variable {away : List Name} (h : s.Shift d temp target away bytes mode)
include h

theorem away_outside : ¬ target <+: away := by
  intro hp
  obtain ⟨dir, n, hn, -, hway⟩ := Disk.exists_parent h.aside h.aside_named
  rw [show away = dir ++ [n] from hn] at hp
  rcases List.prefix_concat_iff.mp hp with e | hp
  · exact h.ne (hn.trans e.symm)
  · exact h.clear.apart s.aside (by simp) (hway target hp)

theorem temp_outside : ¬ target <+: temp := by
  intro hp
  obtain ⟨dir, n, hn, -, hway⟩ := Disk.exists_parent h.waits.leads rfl
  rw [show temp = dir ++ [n] from hn] at hp
  rcases List.prefix_concat_iff.mp hp with e | hp
  · obtain ⟨m, hd⟩ := h.dir
    rw [e, ← show temp = dir ++ [n] from hn, h.waits.file] at hd
    cases hd
  · exact h.clear.apart s.temp (by simp) (hway target hp)

theorem temp_ne_away : temp ≠ away := fun e =>
  h.vacant.no_file bytes mode (e ▸ h.waits.file)

theorem temp_not_below : ¬ away <+: temp :=
  h.vacant.not_prefix h.temp_ne_away h.waits.file

theorem target_not_below : ¬ away <+: target := by
  obtain ⟨m, hd⟩ := h.dir
  exact h.vacant.not_prefix (Ne.symm h.ne) hd

theorem away_not_below : ¬ temp <+: away := by
  intro hp
  obtain ⟨dir, n, hn, ⟨m, hd⟩, -⟩ := Disk.exists_parent h.aside h.aside_named
  rw [show away = dir ++ [n] from hn] at hp
  rcases List.prefix_concat_iff.mp hp with e | ⟨rest, rfl⟩
  · exact h.temp_ne_away (e.trans hn.symm)
  · by_cases hr : rest = []
    · rw [hr, List.append_nil, h.waits.file] at hd
      cases hd
    · rw [show d.get? _ = none from h.rooted.nothing_below h.waits.file hr] at hd
      cases hd

theorem target_ne_nil : target ≠ [] := by
  rintro rfl
  exact h.temp_outside List.nil_prefix

theorem away_ne_nil : away ≠ [] := by
  rintro rfl
  exact h.temp_not_below List.nil_prefix

theorem get?_moved (names : List Name) :
    (d.moved target away).get? names =
      if away <+: names then d.get? (target ++ names.drop away.length)
      else if target <+: names then none else d.get? names :=
  d.system.get?_move_vacant target away names h.target_ne_nil h.away_ne_nil h.vacant

theorem keeps_outside (k : List Name) (m : Nat) (hk : ¬ target <+: k)
    (hd : d.get? k = some (.dir m)) : ∃ m, (d.moved target away).get? k = some (.dir m) := by
  rw [h.get?_moved]
  by_cases hp : away <+: k
  · obtain ⟨m', ht⟩ := h.dir
    have hsame : k = away := Decidable.byContradiction fun hne => h.vacant.not_prefix hne hd hp
    rw [hsame, if_pos (List.prefix_refl _), List.drop_length, List.append_nil]
    exact ⟨m', ht⟩
  · rw [if_neg hp, if_neg hk]
    exact ⟨m, hd⟩

/-- The paths that are used lead where they led. -/
theorem locate_moved {p : Path} {place : Place} (hp : p ∈ [s.temp, s.target, s.aside])
    (hl : d.locate p = .ok place) : (d.moved target away).locate p = .ok place :=
  Disk.locate_of_spared (d := d) rfl hl (h.clear.apart p hp) h.keeps_outside

theorem waits_moved : s.Waits (d.moved target away) temp bytes mode where
  leads := h.locate_moved (by simp) h.waits.leads
  file := by
    rw [h.get?_moved, if_neg h.temp_not_below, if_neg h.temp_outside]
    exact h.waits.file

theorem get?_away (rest : List Name) :
    (d.moved target away).get? (away ++ rest) = d.get? (target ++ rest) := by
  rw [h.get?_moved, if_pos (List.prefix_append away rest), List.drop_left]

theorem get?_target : (d.moved target away).get? target = none := by
  rw [h.get?_moved, if_neg h.target_not_below, if_pos (List.prefix_refl target)]

theorem nothing_below_temp (rest : List Name) (hr : rest ≠ []) :
    (d.moved target away).get? (temp ++ rest) = none := by
  have hp : ¬ away <+: temp ++ rest := fun hp =>
    (List.prefix_or_prefix_of_prefix hp (List.prefix_append temp rest)).elim h.temp_not_below
      h.away_not_below
  rw [h.get?_moved, if_neg hp]
  split
  · rfl
  · exact h.rooted.nothing_below h.waits.file hr

/-- Once the directory is aside, the fresh file takes its place. -/
theorem took (hask : Disk.asksDir s.target = false) :
    ∃ done, (d.moved target away).rename s.temp s.target = .ok done ∧
      (d.moved target away).Took done temp target ∧ (d.moved target away).KeepsDirs done ∧
      done.Leads s.target target := by
  have hleads : (d.moved target away).Leads s.target target := by
    have hl := h.locate_moved (by simp) h.leads
    rw [hask, h.named] at hl
    exact hl
  have hnodir : ∀ m, (d.moved target away).get? target ≠ some (.dir m) := fun m => by
    rw [h.get?_target]
    exact nofun
  have htook := Disk.took_of_rename_file h.waits_moved.file h.nothing_below_temp hnodir
  have hkeeps := htook.keepsDirs h.waits_moved.file hnodir
  exact ⟨_, Disk.rename_file h.waits_moved.leads h.waits_moved.file hleads hnodir, htook, hkeeps,
    hkeeps.leads hleads⟩

/-- The directory is found aside for as long as directories stay. -/
theorem stat_aside (hk : (d.moved target away).KeepsDirs d') :
    ∃ m, d'.stat s.aside = .ok (away, .dir m) := by
  obtain ⟨m, hd⟩ := h.dir
  have haway : (d.moved target away).get? away = some (.dir m) := by
    have := h.get?_away []
    rw [List.append_nil, List.append_nil] at this
    exact this.trans hd
  exact ⟨m, (Disk.stat_eq_ok_iff d' _ _ _).mpr ⟨hk.locate _ _ (h.locate_moved (by simp) h.aside),
    hk.dir _ m haway, fun _ => rfl⟩⟩

/-- Nothing is there when the fresh file cannot take the place of a directory. -/
theorem free (hask : Disk.asksDir s.target = true) : d.get? away = none := by
  cases hg : d.get? away with
  | none => rfl
  | some node =>
    cases node with
    | file bytes m => exact absurd hg (h.vacant.no_file bytes m)
    | dir m =>
      have hs : d.stat s.aside = .ok (away, .dir m) :=
        (Disk.stat_eq_ok_iff d _ _ _).mpr ⟨h.aside, hg, fun _ => rfl⟩
      exact absurd (h.clear.free hask h.named _ _ hs) h.ne

theorem rename_asksDir (hask : Disk.asksDir s.target = true) :
    ∃ fault, (d.moved target away).rename s.temp s.target = .error fault := by
  refine (Disk.rename_file_cases h.waits_moved.leads h.waits_moved.file s.target).resolve_left ?_
  rintro ⟨names, hl, -⟩
  have := (Disk.place_of_locate hl).1
  rw [hask] at this
  cases this

/-- The directory comes back, and everything is where it was. -/
theorem restored (hfree : d.get? away = none) :
    ∃ back, (d.moved target away).rename s.aside s.target = .ok back ∧ back.cwd = d.cwd ∧
      ∀ names, back.get? names = d.get? names := by
  obtain ⟨m, hs⟩ := h.stat_aside ⟨rfl, fun _ _ h => h⟩
  have hl := h.locate_moved (by simp) h.leads
  refine ⟨_, Disk.rename_dir hs h.aside_named hl h.named h.get?_target, rfl, fun names => ?_⟩
  have hempty : ∀ rest, (d.moved target away).system.get? (target ++ rest) = none := by
    intro rest
    have hp : ¬ away <+: target ++ rest := fun hp =>
      (List.prefix_or_prefix_of_prefix hp (List.prefix_append target rest)).elim
        h.target_not_below h.away_outside
    exact (h.get?_moved _).trans (by rw [if_neg hp, if_pos (List.prefix_append target rest)])
  have hv : (d.moved target away).system.Vacant target := by
    refine ⟨fun rest _ => hempty rest, fun bytes m => ?_⟩
    have := hempty []
    rw [List.append_nil] at this
    rw [this]
    exact nofun
  refine ((d.moved target away).system.get?_move_vacant away target names h.away_ne_nil
    h.target_ne_nil hv).trans ?_
  by_cases ht : target <+: names
  · obtain ⟨rest, rfl⟩ := ht
    rw [if_pos (List.prefix_append target rest), List.drop_left]
    exact h.get?_away rest
  rw [if_neg ht]
  by_cases ha : away <+: names
  · obtain ⟨rest, rfl⟩ := ha
    rw [if_pos (List.prefix_append away rest)]
    by_cases hr : rest = []
    · rw [hr, List.append_nil, hfree]
    · exact (h.vacant.empty rest hr).symm
  · rw [if_neg ha]
    exact (h.get?_moved names).trans (by rw [if_neg ha, if_neg ht])

end Shift

/-! ## the whole commit -/

theorem unlink_of_no_file {p : Path} (h : ∀ names bytes m, d.stat p ≠ .ok (names, .file bytes m)) :
    (d.unlink p).toOption.getD d = d := by
  cases hu : d.unlink p with
  | error fault => rfl
  | ok d' =>
    obtain ⟨⟨names, node⟩, hs, hu⟩ := bind_eq_ok hu
    cases node with
    | dir m => cases hu
    | file bytes m => exact absurd hs (h names bytes m)

/-- What a commit does about a directory. -/
theorem persist_of_dir {fault : IoError} {m : Nat} (hr : d.rename s.temp s.target = .error fault)
    (hs : d.stat s.target = .ok (target, .dir m)) (hc : s.Clear d target) :
    s.persist d =
      match d.rename s.target s.aside with
      | .error fault => (.error fault, s.discard d)
      | .ok moved =>
        match moved.rename s.temp s.target with
        | .error fault =>
          (.error fault, s.discard ((moved.rename s.aside s.target).toOption.getD moved))
        | .ok done => (.ok (), (done.unlink s.aside).toOption.getD done) := by
  unfold persist
  rw [hr]
  dsimp only
  rw [hs]
  dsimp only
  rw [show (d.unlink (s.target.withExtension backup)).toOption.getD d = d from
    unlink_of_no_file hc.no_file]
  rfl

/-- A directory that has the name already stays where it is. -/
theorem rename_aside_self {m : Nat} (hroot : d.system.Rooted)
    (hs : d.stat s.target = .ok (target, .dir m))
    (hl : d.locate s.aside = .ok ⟨target, Disk.asksDir s.aside, Disk.endsInStep s.aside⟩) :
    (d.rename s.aside s.target).toOption.getD d = d := by
  obtain ⟨hlead, hd, -⟩ := (Disk.stat_eq_ok_iff d _ _ _).mp hs
  have hs' : d.stat s.aside = .ok (target, .dir m) :=
    (Disk.stat_eq_ok_iff d _ _ _).mpr ⟨hl, hd, fun _ => rfl⟩
  cases hr : d.rename s.aside s.target with
  | error fault => rfl
  | ok d' =>
    obtain ⟨-, place, hp, -, ⟨-, rfl⟩ | ⟨hne, -⟩⟩ := Disk.rename_dir_eq_ok hroot hs' hr
    · rfl
    · obtain rfl := Except.ok.inj (hlead.symm.trans hp)
      exact absurd rfl hne

theorem persist_dir {fault : IoError} {m : Nat} (hroot : d.system.Rooted)
    (hw : s.Waits d temp bytes mode) (hr : d.rename s.temp s.target = .error fault)
    (hs : d.stat s.target = .ok (target, .dir m)) (hc : s.Clear d target) :
    (∃ away done, s.Shift d temp target away bytes mode ∧ s.persist d = (.ok (), done) ∧
      (d.moved target away).Took done temp target ∧ (d.moved target away).KeepsDirs done ∧
      done.Leads s.target target) ∨
    ∃ fault d', s.persist d = (.error fault, d') ∧ Undone d d' temp := by
  have hdiscard : Undone d (s.discard d) temp := hw.get?_discard
  obtain ⟨hlead, hd, -⟩ := (Disk.stat_eq_ok_iff d _ _ _).mp hs
  rw [persist_of_dir hr hs hc]
  cases hm : d.rename s.target s.aside with
  | error fault => exact .inr ⟨fault, _, rfl, hdiscard⟩
  | ok moved =>
    obtain ⟨hnamed, ⟨away, asDir, fixed⟩, hl, hfix, hcases⟩ := Disk.rename_dir_eq_ok hroot hs hm
    obtain ⟨rfl, rfl⟩ := Disk.place_of_locate hl
    rcases hcases with ⟨rfl, rfl⟩ | ⟨hne, hvacant, rfl⟩
    · dsimp only
      rw [hr, rename_aside_self hroot hs hl]
      exact .inr ⟨_, _, rfl, hdiscard⟩
    have h : s.Shift d temp target away bytes mode :=
      ⟨hroot, hw, hc, ⟨m, hd⟩, hnamed, hlead, hfix, hl, hne, hvacant⟩
    dsimp only
    by_cases hask : Disk.asksDir s.target = true
    · obtain ⟨fault', hr'⟩ := h.rename_asksDir hask
      obtain ⟨back, hb, hcwd, hsame⟩ := h.restored (h.free hask)
      rw [hr', hb]
      refine .inr ⟨_, _, rfl, fun names => ?_⟩
      exact ((hw.of_agree hcwd hsame).get?_discard names).trans (by rw [hsame])
    · obtain ⟨done, hr', htook, hkeeps, hleads⟩ := h.took (Bool.not_eq_true _ ▸ hask)
      obtain ⟨m', haside⟩ := h.stat_aside hkeeps
      rw [hr']
      refine .inl ⟨away, done, h, congrArg (Prod.mk _) ?_, htook, hkeeps, hleads⟩
      refine unlink_of_no_file fun names bytes m hs => ?_
      rw [haside] at hs
      cases hs

theorem Shift.replaced {away : List Name} {done d' : Disk}
    (h : s.Shift d temp target away bytes mode)
    (htook : (d.moved target away).Took done temp target)
    (hkeeps : (d.moved target away).KeepsDirs d') {node : Node}
    (hs : d'.stat s.target = .ok (target, node))
    (ho : ∀ names, names ≠ target → d'.get? names = done.get? names) :
    s.Replaced d d' temp target node := by
  have hother : ∀ names, names ≠ temp → names ≠ target →
      d'.get? names = (d.moved target away).get? names := fun names h1 h2 =>
    (ho names h2).trans (htook.other names h1 h2)
  refine ⟨hs, fun hne => (ho temp hne).trans (htook.gone hne), fun names bytes m h1 h2 hf => ?_,
    fun rest bytes m hr hf => ?_⟩
  · have hp : ¬ away <+: names :=
      h.vacant.not_prefix (fun e => h.vacant.no_file bytes m (e ▸ hf)) hf
    have hne : names ≠ target := fun e => h2 (e ▸ List.prefix_refl target)
    rw [hother names h1 hne, h.get?_moved, if_neg hp, if_neg h2]
    exact hf
  · obtain ⟨m', ha⟩ := h.stat_aside hkeeps
    refine ⟨away, m', ha, ?_⟩
    have h1 : away ++ rest ≠ temp := fun e => h.temp_not_below ⟨rest, e⟩
    have h2 : away ++ rest ≠ target := fun e => h.target_not_below ⟨rest, e⟩
    rw [hother _ h1 h2, h.get?_away]
    exact hf

/-- Replacing a file loses no other: when the commit succeeds, every other file is where it was or,
below a directory that was in the way, where that has been moved to; when it fails, nothing but the
fresh file is gone. -/
theorem commit_spares (hroot : d.system.Rooted) (hw : s.Waits d temp bytes mode)
    (hclear : ∀ target m, d.stat s.target = .ok (target, .dir m) → s.Clear d target) :
    (∃ d' target, s.commit d = (.ok (), d') ∧
      s.Replaced d d' temp target (.file bytes (s.mode.getD mode))) ∨
    ∃ fault d', s.commit d = (.error fault, d') ∧ Undone d d' temp := by
  have hleaf : ∀ rest, rest ≠ [] → d.get? (temp ++ rest) = none := fun rest hr =>
    hroot.nothing_below hw.file hr
  by_cases hdir : ∃ target m, d.stat s.target = .ok (target, .dir m)
  · obtain ⟨target, m, hs⟩ := hdir
    obtain ⟨fault, hr⟩ : ∃ fault, d.rename s.temp s.target = .error fault := by
      refine (Disk.rename_file_cases hw.leads hw.file s.target).resolve_left ?_
      rintro ⟨target', hl, hg⟩
      obtain ⟨hlead, hd, -⟩ := (Disk.stat_eq_ok_iff d _ _ _).mp hs
      obtain rfl := congrArg Place.names (Except.ok.inj (hlead.symm.trans hl))
      exact hg m hd
    rcases persist_dir hroot hw hr hs (hclear target m hs) with
      ⟨away, done, h, hp, htook, hkeeps, hl⟩ | ⟨fault', d', hp, hu⟩
    · obtain ⟨d', hc, hk, hf, ho⟩ :=
        commit_of_persist hp hl (htook.here.trans h.waits_moved.file)
      refine .inl ⟨d', target, hc, h.replaced htook ?_ (Disk.stat_of_leads (hk.leads hl) hf) ho⟩
      exact hkeeps.trans hk
    · exact .inr ⟨fault', d', commit_of_error hp, hu⟩
  · have hnd : ∀ names m, d.stat s.target ≠ .ok (names, .dir m) := fun names m h =>
      hdir ⟨names, m, h⟩
    rcases commit_of_no_dir hw hleaf hnd with
      ⟨target, done, hl, hg, hc, hkeeps, hf, hgone, ho⟩ | ⟨fault, hc⟩
    · refine .inl ⟨done, target, hc, Disk.stat_of_leads (hkeeps.leads hl) hf, hgone,
        fun names bytes m h1 h2 h3 => ?_, fun rest bytes m hr h3 => ?_⟩
      · rw [ho names h1 fun e => h2 (e ▸ List.prefix_refl target), h3]
      · exact nomatch (hroot.empty_below hg hr).symm.trans h3
    · exact .inr ⟨fault, _, hc, hw.get?_discard⟩

/-- A directory "d" with a file "a" in it, and the contents "n" staged for it. -/
def overDirectory : Disk where
  system := ⟨[([Utf8.ofString ".tmp"], .file (Utf8.ofString "n") tempMode),
    ([Utf8.ofString "d"], .dir 0o755),
    ([Utf8.ofString "d", Utf8.ofString "a"], .file (Utf8.ofString "x") 0o644)]⟩
  cwd := some []

def stagedOver : Staged := ⟨⟨Utf8.ofString "/.tmp"⟩, ⟨Utf8.ofString "/d"⟩, some 0o755⟩

theorem commit_spares_directory :
    ∃ d', stagedOver.commit overDirectory = (.ok (), d') ∧
      d'.stat stagedOver.target = .ok ([Utf8.ofString "d"], .file (Utf8.ofString "n") 0o755) ∧
      ∃ names m, d'.stat stagedOver.aside = .ok (names, .dir m) ∧
        d'.get? (names ++ [Utf8.ofString "a"]) = some (.file (Utf8.ofString "x") 0o644) := by
  have hstat : overDirectory.stat stagedOver.target = .ok ([Utf8.ofString "d"], .dir 0o755) := rfl
  have haside : overDirectory.stat stagedOver.aside = .error .notFound := rfl
  have hclear : ∀ target m, overDirectory.stat stagedOver.target = .ok (target, .dir m) →
      stagedOver.Clear overDirectory target := by
    intro target m hs
    obtain ⟨rfl, -⟩ := Prod.mk.inj (Except.ok.inj (hstat.symm.trans hs))
    refine ⟨fun names bytes m h => ?_, fun h => ?_, by decide⟩
    · rw [haside] at h
      cases h
    · cases h
  have hwaits : stagedOver.Waits overDirectory [Utf8.ofString ".tmp"] (Utf8.ofString "n")
      tempMode := ⟨by cbv, by cbv⟩
  have hrooted : overDirectory.system.Rooted := by decide
  rcases commit_spares hrooted hwaits hclear with ⟨d', target, hc, h⟩ | ⟨fault, d', hc, -⟩
  · have ht : d'.stat stagedOver.target =
        .ok ([Utf8.ofString "d"], .file (Utf8.ofString "n") 0o755) := by
      rw [← (Prod.mk.inj hc).2]
      cbv
    obtain ⟨rfl, -⟩ := Prod.mk.inj (Except.ok.inj (h.stat.symm.trans ht))
    exact ⟨d', hc, ht, h.moved [Utf8.ofString "a"] _ _ (List.cons_ne_nil _ _) rfl⟩
  · have hok : (stagedOver.commit overDirectory).1 = .ok () := by cbv
    rw [hc] at hok
    cases hok

def besideBackup : Disk where
  system := ⟨[([Utf8.ofString "d"], .dir 0o755),
    ([Utf8.ofString "d.bak"], .file (Utf8.ofString "f") 0o644)]⟩
  cwd := some []

/-- The file that has the name to which a directory is moved is lost. -/
theorem atomicWrite_loses_backup :
    besideBackup.get? [Utf8.ofString "d.bak"] = some (.file (Utf8.ofString "f") 0o644) ∧
      (atomicWrite besideBackup ⟨Utf8.ofString "/d"⟩ (Utf8.ofString "n")).1 = .ok () ∧
      (atomicWrite besideBackup ⟨Utf8.ofString "/d"⟩ (Utf8.ofString "n")).2.get?
        [Utf8.ofString "d.bak"] = some (.dir 0o755) := by
  refine ⟨?_, ?_, ?_⟩ <;> cbv

end Staged

end CodeBridge
