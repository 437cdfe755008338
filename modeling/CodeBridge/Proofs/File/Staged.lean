import CodeBridge.Proofs.File.Disks
import CodeBridge.File.Staging

/-!
# Staging, discarding, committing

* `freshName_not_mem`  a fresh name is no part of any path in use;
* `Change`             the names that a file is asked for by and the contents that are to replace its
                       own, with the name of the fresh file that holds them until then;
* `Change.Fits`        the change can be staged, `discard_onto` takes it back;
* `Change.Pending`     the change has been staged, `Pending.commit` makes it and `Pending.discard`
                       drops it.  Nothing of this disturbs another change that is pending;
* `Change.Waits`       the same of changes whose files are not known to each other: no file may be
                       there only as the fresh file of another change (`Spared`).
-/

namespace CodeBridge

namespace Staged

/-! ## fresh names -/

theorem letters_zero : letters 0 = [] := by
  rw [letters, if_pos rfl]

theorem letters_of_pos (n : Nat) (h : 0 < n) :
    letters n = UInt8.ofNat (0x61 + n % 26) :: letters (n / 26) := by
  rw [letters, if_neg (by omega)]

theorem toNat_letter (n : Nat) : (UInt8.ofNat (0x61 + n % 26)).toNat = 0x61 + n % 26 := by
  have h : n % 26 < 26 := Nat.mod_lt n (by decide)
  rw [UInt8.toNat_ofNat']
  omega

theorem letters_inj (m n : Nat) (h : letters m = letters n) : m = n := by
  induction m using Nat.strongRecOn generalizing n with
  | ind m ih =>
    rcases Nat.eq_zero_or_pos m with rfl | hm
    · rcases Nat.eq_zero_or_pos n with rfl | hn
      · rfl
      · rw [letters_zero, letters_of_pos n hn] at h
        cases h
    · rcases Nat.eq_zero_or_pos n with rfl | hn
      · rw [letters_zero, letters_of_pos m hm] at h
        cases h
      · rw [letters_of_pos m hm, letters_of_pos n hn] at h
        obtain ⟨hd, ht⟩ := List.cons.inj h
        have hq : m / 26 = n / 26 := ih (m / 26) (by omega) (n / 26) ht
        have hr : 0x61 + m % 26 = 0x61 + n % 26 := by
          rw [← toNat_letter m, hd, toNat_letter n]
        omega

theorem freeNumber_spec (used : List Name) (n : Nat) :
    n ≤ freeNumber used n ∧ tempStem ++ letters (freeNumber used n) ∉ used := by
  induction used, n using freeNumber.induct with
  | case1 used n name hm ih =>
    obtain ⟨hle, hnot⟩ := ih
    have he : freeNumber used n = freeNumber (used.erase name) (n + 1) := by
      rw [freeNumber]
      exact if_pos hm
    rw [he]
    refine ⟨by omega, fun h => ?_⟩
    have hne : tempStem ++ letters (freeNumber (used.erase name) (n + 1)) ≠ name := fun e => by
      have := letters_inj _ n (List.append_cancel_left e)
      omega
    exact hnot ((List.mem_erase_of_ne hne).mpr h)
  | case2 used n name hm =>
    have he : freeNumber used n = n := by
      rw [freeNumber]
      exact if_neg hm
    rw [he]
    exact ⟨Nat.le_refl n, hm⟩

variable (taken : List Name) (fs : FileSystem)

theorem freshName_not_taken : freshName taken fs ∉ taken := fun h =>
  (freeNumber_spec (taken ++ fs.nodes.flatMap (·.1)) 0).2 (List.mem_append_left _ h)

theorem freshName_not_mem (k : List Name) (hk : k ∈ fs.keys) : freshName taken fs ∉ k := by
  obtain ⟨x, hx, rfl⟩ := List.mem_map.mp hk
  refine fun h => (freeNumber_spec (taken ++ fs.nodes.flatMap (·.1)) 0).2 ?_
  exact List.mem_append_right _ (List.mem_flatMap.mpr ⟨x, hx, h⟩)

theorem separator_not_mem_letters (n : Nat) : Path.separator ∉ letters n := by
  induction n using Nat.strongRecOn with
  | ind n ih =>
    rcases Nat.eq_zero_or_pos n with rfl | hn
    · rw [letters_zero]
      exact List.not_mem_nil
    · rw [letters_of_pos n hn]
      intro h
      rcases List.mem_cons.mp h with e | h
      · have hl := toNat_letter n
        rw [← e, show Path.separator.toNat = 0x2F from rfl] at hl
        omega
      · exact ih (n / 26) (by omega) h

theorem plain_freshName : Path.Plain (freshName taken fs) := by
  have hlen : 4 ≤ (freshName taken fs).length := by
    rw [freshName, List.length_append]
    exact Nat.le_add_right 4 _
  refine ⟨fun e => ?_, fun e => ?_, fun e => ?_, fun h => ?_⟩
  · rw [e] at hlen
    exact absurd hlen (by decide)
  · rw [e] at hlen
    exact absurd hlen (by decide)
  · rw [e] at hlen
    exact absurd hlen (by decide)
  · rcases List.mem_append.mp h with h | h
    · exact absurd h (by decide)
    · exact separator_not_mem_letters _ h

def TempName (n : Name) : Prop := ∃ k, n = tempStem ++ letters k

theorem tempName_freshName : TempName (freshName taken fs) := ⟨_, rfl⟩

/-- Links are not made of such names, which begin with a point. -/
theorem TempName.not_link {n : Name} (h : TempName n) : n ∉ Path.linkNames := by
  obtain ⟨k, rfl⟩ := h
  have hpoint : ∀ m ∈ Path.linkNames, m.head? ≠ some Path.dot := by decide
  exact fun hm => hpoint _ hm rfl

end Staged

/-- A file that is no fresh file: it was there before, or has no name of one on its way. -/
def Disk.Spares (before : Disk) (file : List Name) : Prop :=
  before.get? file ≠ none ∨ ∀ n ∈ file, ¬ Staged.TempName n

/-! ## changes -/

/-- A file and what is to replace it. -/
structure Change where
  /-- the names that the file is asked for by -/
  path : List Name
  /-- the name of the fresh file -/
  name : Name
  /-- the mode of the file -/
  mode : Nat
  bytes : Bytes
  deriving DecidableEq, Repr

namespace Change

def file (c : Change) : List Name := Path.real c.path

/-- the fresh file, in the directory of the file -/
def temp (c : Change) : List Name := c.file.dropLast ++ [c.name]

def staged (c : Change) : Staged :=
  ⟨.ofNames (c.path.dropLast ++ [c.name]), .ofNames c.path, some c.mode⟩

def onto (c : Change) (d : Disk) : Disk :=
  d.update fun fs => ⟨(c.temp, .file c.bytes Staged.tempMode) :: fs.nodes⟩

/-- The change can be staged: its name is not in use, and both files can be reached. -/
structure Fits (taken : List Name) (d : Disk) (c : Change) : Prop where
  nonempty : c.file ≠ []
  listed : ∀ n ∈ c.file, n ∈ taken
  not_taken : c.name ∉ taken
  fresh : ∀ k ∈ d.system.keys, c.name ∉ k
  leads_file : d.Leads c.staged.target c.file
  leads_temp : d.Leads c.staged.temp c.temp
  file : ∃ old, d.get? c.file = some (.file old c.mode)

/-- The change has been staged and waits to be made. -/
structure Pending (taken : List Name) (d : Disk) (c : Change) : Prop where
  nonempty : c.file ≠ []
  listed : ∀ n ∈ c.file, n ∈ taken
  not_taken : c.name ∉ taken
  /-- nothing else goes by the fresh name -/
  alone : ∀ k ∈ d.system.keys, c.name ∈ k → k = c.temp
  leads_file : d.Leads c.staged.target c.file
  leads_temp : d.Leads c.staged.temp c.temp
  file : ∃ old, d.get? c.file = some (.file old c.mode)
  temp : d.get? c.temp = some (.file c.bytes Staged.tempMode)

theorem temp_ne_nil (c : Change) : c.temp ≠ [] :=
  List.append_ne_nil_of_right_ne_nil _ (List.cons_ne_nil _ _)

theorem name_mem_temp (c : Change) : c.name ∈ c.temp := List.mem_concat_self

variable {taken : List Name} {d : Disk} {b c : Change}

theorem mem_temp (n : Name) (h : n ∈ c.temp) : n ∈ c.file ∨ n = c.name := by
  rcases List.mem_append.mp h with h | h
  · exact .inl (List.dropLast_subset c.file h)
  · exact .inr (List.mem_singleton.mp h)

/-! ## staging -/

namespace Fits

theorem temp_not_mem (h : c.Fits taken d) : c.temp ∉ d.system.keys := fun hm =>
  h.fresh c.temp hm c.name_mem_temp

theorem get?_temp (h : c.Fits taken d) : d.get? c.temp = none :=
  d.system.get?_of_not_mem c.temp c.temp_ne_nil h.temp_not_mem

theorem get?_onto (names : List Name) (hne : names ≠ c.temp) :
    (c.onto d).get? names = d.get? names := by
  by_cases hn : names = []
  · rw [hn]
    rfl
  · show FileSystem.get? _ _ = FileSystem.get? _ _
    unfold FileSystem.get?
    rw [if_neg hn, if_neg hn]
    exact if_neg (Ne.symm hne)

theorem get?_onto_temp : (c.onto d).get? c.temp = some (.file c.bytes Staged.tempMode) := by
  show FileSystem.get? _ _ = _
  unfold FileSystem.get?
  rw [if_neg c.temp_ne_nil]
  exact if_pos rfl

theorem keepsDirs (h : c.Fits taken d) : d.KeepsDirs (c.onto d) := by
  refine .of_agree [c.temp] rfl (fun names hm mode => ?_) fun names hm =>
    get?_onto names fun e => hm (e ▸ List.mem_cons_self)
  rw [List.mem_singleton.mp hm, h.get?_temp]
  exact nofun

theorem discard_onto (h : c.Fits taken d) : c.staged.discard (c.onto d) = d := by
  have hl := h.keepsDirs.leads h.leads_temp
  unfold Staged.discard
  rw [show (c.onto d).unlink c.staged.temp = _ from Disk.unlink_of_leads hl get?_onto_temp]
  show Disk.update (c.onto d) (fun fs => fs.erase c.temp) = d
  have he := FileSystem.erase_cons d.system c.temp (.file c.bytes Staged.tempMode) h.temp_not_mem
  exact congrArg (Disk.mk · d.cwd) he

theorem file_ne_temp (h : c.Fits taken d) : c.file ≠ c.temp := fun e =>
  h.not_taken (h.listed c.name (e ▸ c.name_mem_temp))

theorem pending (h : c.Fits taken d) : c.Pending taken (c.onto d) where
  nonempty := h.nonempty
  listed := h.listed
  not_taken := h.not_taken
  alone k hk hm := (List.mem_cons.mp hk).resolve_right fun hk => h.fresh k hk hm
  leads_file := h.keepsDirs.leads h.leads_file
  leads_temp := h.keepsDirs.leads h.leads_temp
  file := by
    obtain ⟨old, hf⟩ := h.file
    exact ⟨old, (get?_onto c.file h.file_ne_temp).trans hf⟩
  temp := get?_onto_temp

theorem pending_onto (h : c.Fits taken d) (hb : b.Pending taken d) :
    b.temp ≠ c.temp ∧ b.Pending taken (c.onto d) := by
  obtain ⟨old, hf⟩ := hb.file
  have hkey : b.temp ∈ d.system.keys := d.system.mem_keys_of_get? b.temp _ b.temp_ne_nil hb.temp
  have htemp : b.temp ≠ c.temp := fun e => h.temp_not_mem (e ▸ hkey)
  have hfile : b.file ≠ c.temp := fun e => h.temp_not_mem
    (e ▸ d.system.mem_keys_of_get? b.file _ hb.nonempty hf)
  refine ⟨htemp, hb.nonempty, hb.listed, hb.not_taken, fun k hk hm => ?_,
    h.keepsDirs.leads hb.leads_file, h.keepsDirs.leads hb.leads_temp,
    ⟨old, (get?_onto b.file hfile).trans hf⟩, (get?_onto b.temp htemp).trans hb.temp⟩
  rcases List.mem_cons.mp hk with rfl | hk
  · rcases mem_temp b.name hm with hm | hm
    · exact absurd (h.listed b.name hm) hb.not_taken
    · exact absurd (hm ▸ b.name_mem_temp) (h.fresh b.temp hkey)
  · exact hb.alone k hk hm

end Fits

/-- A change that fits alone fits among others that do not take its fresh name. -/
theorem Fits.among (h : c.Fits c.file d) (hlisted : ∀ n ∈ c.file, n ∈ taken)
    (hnot : c.name ∉ taken) : c.Fits taken d :=
  ⟨h.nonempty, hlisted, hnot, h.fresh, h.leads_file, h.leads_temp, h.file⟩

/-- The path of a fresh file leads past the links as that of its target does. -/
theorem real_temp {path : List Name} {n : Name} (hn : Path.real path ≠ [])
    (ht : Staged.TempName n) :
    Path.real (path.dropLast ++ [n]) = (Path.real path).dropLast ++ [n] := by
  have hne : path ≠ [] := by
    rintro rfl
    exact hn rfl
  have hlast := List.dropLast_concat_getLast hne
  have hreal : Path.real (path.dropLast ++ [path.getLast hne]) =
      Path.real path.dropLast ++ [path.getLast hne] :=
    Path.real_concat_of_ne_nil (hlast.symm ▸ hn)
  rw [hlast] at hreal
  rw [hreal, List.dropLast_concat]
  exact (Path.real_concat path.dropLast n).resolve_right fun e => ht.not_link e.2

theorem stageApart_fits {path : List Name} {old bytes : Bytes} {mode : Nat} {s : Staged}
    {d' : Disk} (hn : Path.real path ≠ []) (hp : ∀ n ∈ path, Path.Plain n)
    (hl : d.Leads (.ofNames path) (Path.real path))
    (hf : d.get? (Path.real path) = some (.file old mode))
    (h : Staged.stageApart taken d (.ofNames path) bytes = .ok (s, d')) :
    ∃ c : Change, c.path = path ∧ c.mode = mode ∧ c.bytes = bytes ∧ s = c.staged ∧ d' = c.onto d ∧
      c.Fits c.file d ∧ c.name = Staged.freshName taken d.system := by
  let c : Change := ⟨path, Staged.freshName taken d.system, mode, bytes⟩
  have hplain : Path.Plain c.name := Staged.plain_freshName taken d.system
  have hfresh : ∀ k ∈ d.system.keys, c.name ∉ k := Staged.freshName_not_mem taken d.system
  have hkey : c.temp ∉ d.system.keys := fun hm => hfresh c.temp hm c.name_mem_temp
  have hdir : ∀ n ∈ path.dropLast, Path.Plain n := fun n hm => hp n (List.dropLast_subset path hm)
  have htemp : ∀ n ∈ path.dropLast ++ [c.name], Path.Plain n := fun n hm =>
    (List.mem_append.mp hm).elim (hdir n) fun hm => List.mem_singleton.mp hm ▸ hplain
  have hreal : Path.real (path.dropLast ++ [c.name]) = c.temp :=
    real_temp hn (Staged.tempName_freshName taken d.system)
  have hparent : (Path.ofNames path).parent = .ofNames path.dropLast := by
    have hne : path ≠ [] := by
      rintro rfl
      exact hn rfl
    have e := List.dropLast_concat_getLast hne
    rw [← Path.parent_ofNames path.dropLast (path.getLast hne) (e.symm ▸ hp), e]
  have hjoin : (Path.ofNames path.dropLast).join ⟨c.name⟩ = c.staged.temp :=
    Path.join_ofNames path.dropLast c.name hdir hplain
  unfold Staged.stageApart at h
  rw [Disk.stat_of_leads hl hf, hparent, Path.isAbsolute_ofNames] at h
  obtain ⟨dir, hd, h⟩ := bind_eq_ok h
  obtain rfl := Except.ok.inj hd
  obtain ⟨written, hw, h⟩ := bind_eq_ok h
  rw [show (Path.ofNames path.dropLast).join ⟨Staged.freshName taken d.system⟩ = _ from hjoin] at hw h
  obtain ⟨hlead, rfl⟩ := Disk.write_eq_ok (hreal ▸ c.temp_ne_nil) htemp
    (hreal ▸ d.system.get?_of_not_mem c.temp c.temp_ne_nil hkey) hw
  rw [hreal] at hlead h
  have hset : d.system.set c.temp (.file bytes Staged.tempMode) =
      ⟨(c.temp, .file bytes Staged.tempMode) :: d.system.nodes⟩ := by
    unfold FileSystem.set
    rw [d.system.erase_of_not_mem c.temp hkey]
  obtain ⟨rfl, rfl⟩ := Prod.mk.inj (Except.ok.inj h)
  have hnot : c.name ∉ c.file := hfresh c.file (d.system.mem_keys_of_get? c.file _ hn hf)
  exact ⟨c, rfl, rfl, rfl, rfl, congrArg (Disk.mk · d.cwd) hset,
    ⟨hn, fun _ hm => hm, hnot, hfresh, hl, hlead, old, hf⟩, rfl⟩

/-! ## committing and discarding -/

/-- What a change leaves once its fresh file is gone. -/
structure Over (c : Change) (d d' : Disk) : Prop where
  cwd : d'.cwd = d.cwd
  keys : ∀ k ∈ d'.system.keys, k ∈ d.system.keys
  file : ∃ bytes, d'.get? c.file = some (.file bytes c.mode)
  temp : d'.get? c.temp = none
  other : ∀ names, names ≠ c.file → names ≠ c.temp → d'.get? names = d.get? names

structure Made (c : Change) (d d' : Disk) : Prop extends c.Over d d' where
  made : d'.get? c.file = some (.file c.bytes c.mode)

structure Dropped (c : Change) (d d' : Disk) : Prop extends c.Over d d' where
  same : d'.get? c.file = d.get? c.file

namespace Pending

theorem file_ne_temp (h : c.Pending taken d) (hb : b.Pending taken d) : b.file ≠ c.temp := fun e =>
  h.not_taken (hb.listed c.name (e ▸ c.name_mem_temp))

theorem nothing_below (h : c.Pending taken d) (k : List Name) (hk : k ∈ d.system.keys)
    (hp : c.temp.isPrefixOf k = true) : k = c.temp :=
  h.alone k hk ((List.isPrefixOf_iff_prefix.mp hp).subset c.name_mem_temp)

theorem get?_move (h : c.Pending taken d) (names : List Name) (hn : names ≠ []) :
    (d.update fun fs => fs.move c.temp c.file).get? names =
      if names = c.file then d.get? c.temp
      else if names = c.temp then none else d.get? names :=
  d.system.get?_move_leaf c.temp c.file names hn c.temp_ne_nil h.nothing_below

theorem keepsDirs_of_agree {d' : Disk} (h : c.Pending taken d) (hcwd : d'.cwd = d.cwd)
    (hd : ∀ names, names ≠ c.file → names ≠ c.temp → d'.get? names = d.get? names) :
    d.KeepsDirs d' := by
  obtain ⟨old, hf⟩ := h.file
  refine .of_agree [c.file, c.temp] hcwd (fun names hm mode => ?_) fun names hm => ?_
  · rcases List.mem_cons.mp hm with rfl | hm
    · rw [hf]
      exact nofun
    · rw [List.mem_singleton.mp hm, h.temp]
      exact nofun
  · exact hd names (fun e => hm (e ▸ List.mem_cons_self))
      fun e => hm (e ▸ List.mem_cons_of_mem _ List.mem_cons_self)

theorem keepsDirs {d' : Disk} (h : c.Pending taken d) (hd : c.Over d d') : d.KeepsDirs d' :=
  h.keepsDirs_of_agree hd.cwd hd.other

/-- A pending change is made: its fresh file takes the place of the file, and then its mode. -/
theorem commit (h : c.Pending taken d) :
    ∃ d', c.staged.commit d = (.ok (), d') ∧ c.Made d d' := by
  obtain ⟨old, hf⟩ := h.file
  have hne : c.file ≠ c.temp := h.file_ne_temp h
  let moved := d.update fun fs => fs.move c.temp c.file
  have hrename : d.rename c.staged.temp c.staged.target = .ok moved :=
    Disk.rename_of_leads h.leads_temp h.temp h.leads_file hf hne
  have hget : moved.get? c.file = some (.file c.bytes Staged.tempMode) :=
    (h.get?_move c.file h.nonempty).trans ((if_pos rfl).trans h.temp)
  have hother : ∀ names, names ≠ c.file → names ≠ c.temp → moved.get? names = d.get? names := by
    intro names h1 h2
    by_cases hn : names = []
    · rw [hn]
      rfl
    · rw [h.get?_move names hn, if_neg h1, if_neg h2]
  have hdirs : d.KeepsDirs moved := h.keepsDirs_of_agree rfl hother
  have hleads : moved.Leads c.staged.target c.file := hdirs.leads h.leads_file
  have hchmod := Disk.chmod_of_leads c.mode hleads hget
  let made := moved.update fun fs => fs.set c.file (.file c.bytes c.mode)
  have hset : ∀ names, names ≠ c.file → made.get? names = moved.get? names := fun names h1 =>
    FileSystem.get?_set_ne _ c.file names _ h1
  have hmade : made.get? c.file = some (.file c.bytes c.mode) :=
    FileSystem.get?_set_self _ c.file _ h.nonempty
  refine ⟨made, ?_, ⟨rfl, fun k hk => ?_, ⟨c.bytes, hmade⟩, ?_, fun names h1 h2 => ?_⟩, hmade⟩
  · unfold Staged.commit Staged.persist
    rw [hrename]
    show (Except.ok (), (moved.chmod c.staged.target c.mode).toOption.getD moved) = _
    rw [hchmod]
    rfl
  · rcases FileSystem.keys_set _ c.file k _ hk with rfl | hk
    · exact d.system.mem_keys_of_get? c.file _ h.nonempty hf
    · rcases d.system.keys_move c.temp c.file k h.nothing_below hk with rfl | hk
      · exact d.system.mem_keys_of_get? c.file _ h.nonempty hf
      · exact hk
  · rw [hset c.temp (Ne.symm hne), h.get?_move c.temp c.temp_ne_nil, if_neg (Ne.symm hne),
      if_pos rfl]
  · rw [hset names h1, hother names h1 h2]

/-- The fresh file of a pending change is taken away. -/
theorem discard (h : c.Pending taken d) : c.Dropped d (c.staged.discard d) := by
  have hdiscard : c.staged.discard d = d.update fun fs => fs.erase c.temp := by
    unfold Staged.discard
    rw [show d.unlink c.staged.temp = _ from Disk.unlink_of_leads h.leads_temp h.temp]
    rfl
  obtain ⟨old, hf⟩ := h.file
  have hother : ∀ names, names ≠ c.temp → (c.staged.discard d).get? names = d.get? names := by
    rw [hdiscard]
    exact fun names hn => FileSystem.get?_erase_ne d.system c.temp names hn
  have hsame := hother c.file (h.file_ne_temp h)
  refine ⟨⟨?_, fun k hk => ?_, ⟨old, hsame.trans hf⟩, ?_, fun names _ => hother names⟩, hsame⟩
  · rw [hdiscard]
    rfl
  · rw [hdiscard] at hk
    obtain ⟨x, hx, rfl⟩ := List.mem_map.mp hk
    exact List.mem_map_of_mem (List.mem_filter.mp hx).1
  · rw [hdiscard]
    exact FileSystem.get?_erase_self d.system c.temp c.temp_ne_nil

/-- When a change is over the others are still pending, those of its own file included. -/
theorem pending_over {d' : Disk} (h : c.Pending taken d) (hb : b.Pending taken d)
    (htemp : b.temp ≠ c.temp) (hd : c.Over d d') : b.Pending taken d' := by
  have hdirs := h.keepsDirs hd
  have hfile : ∃ old, d'.get? b.file = some (.file old b.mode) := by
    obtain ⟨old, hf⟩ := hb.file
    by_cases he : b.file = c.file
    · obtain ⟨old', hf'⟩ := h.file
      obtain ⟨bytes, hover⟩ := hd.file
      rw [he, hf'] at hf
      obtain ⟨-, hmode⟩ := Node.file.inj (Option.some.inj hf)
      exact ⟨bytes, he ▸ hmode ▸ hover⟩
    · exact ⟨old, (hd.other b.file he (h.file_ne_temp hb)).trans hf⟩
  refine ⟨hb.nonempty, hb.listed, hb.not_taken, fun k hk => hb.alone k (hd.keys k hk),
    hdirs.leads hb.leads_file, hdirs.leads hb.leads_temp, hfile, ?_⟩
  rw [hd.other b.temp (Ne.symm (hb.file_ne_temp h)) htemp, hb.temp]

end Pending

/-! ## changes that do not know of each other -/

/-- A change that has been staged since a disk was as it was before. -/
structure Waits (before d : Disk) (c : Change) : Prop where
  pending : c.Pending c.file d
  temp_name : Staged.TempName c.name
  /-- its fresh file was not there before -/
  new : before.get? c.temp = none
  spared : before.Spares c.file

namespace Waits
variable {before d' : Disk}

theorem ne_temp (h : c.Waits before d) {file : List Name} (hs : before.Spares file) :
    file ≠ c.temp := by
  rintro rfl
  rcases hs with hthere | hplain
  · exact hthere h.new
  · exact hplain c.name c.name_mem_temp h.temp_name

theorem name_not_mem (hb : b.Waits before d) (h : c.Waits before d) : b.name ∉ c.file := by
  intro hm
  obtain ⟨old, hf⟩ := h.pending.file
  have hkey := d.system.mem_keys_of_get? c.file _ h.pending.nonempty hf
  exact hb.ne_temp h.spared (hb.pending.alone c.file hkey hm)

/-- Changes of two that do not know of each other are changes of one that does. -/
theorem both (hb : b.Waits before d) (h : c.Waits before d) :
    b.Pending (b.file ++ c.file) d ∧ c.Pending (b.file ++ c.file) d := by
  refine ⟨{ hb.pending with listed := fun n hn => List.mem_append_left _ hn, not_taken := ?_ },
    { h.pending with listed := fun n hn => List.mem_append_right _ hn, not_taken := ?_ }⟩
  · exact fun hm => (List.mem_append.mp hm).elim hb.pending.not_taken (hb.name_not_mem h)
  · exact fun hm => (List.mem_append.mp hm).elim (h.name_not_mem hb) h.pending.not_taken

theorem onto (hc : c.Fits c.file d) (ht : Staged.TempName c.name) (hn : before.get? c.temp = none)
    (hs : before.Spares c.file) :
    c.Waits before (c.onto d) ∧
      ∀ b : Change, b.Waits before d → b.temp ≠ c.temp ∧ b.Waits before (c.onto d) := by
  have hself : c.Waits before (c.onto d) := ⟨hc.pending, ht, hn, hs⟩
  refine ⟨hself, fun b hb => ?_⟩
  obtain ⟨old, hf⟩ := hb.pending.file
  have hkey := d.system.mem_keys_of_get? b.file _ hb.pending.nonempty hf
  have hname : c.name ∉ b.file := hc.fresh b.file hkey
  have hfits : c.Fits (b.file ++ c.file) d := by
    refine hc.among (fun n hm => List.mem_append_right _ hm) fun hm => ?_
    exact (List.mem_append.mp hm).elim hname hc.not_taken
  have hpending : b.Pending (b.file ++ c.file) d := by
    refine { hb.pending with listed := fun n hm => List.mem_append_left _ hm, not_taken := ?_ }
    refine fun hm => (List.mem_append.mp hm).elim hb.pending.not_taken fun hm => ?_
    obtain ⟨old, hf⟩ := hc.file
    have hkey := d.system.mem_keys_of_get? c.file _ hc.nonempty hf
    exact hb.ne_temp hs (hb.pending.alone c.file hkey hm)
  obtain ⟨htemp, hp⟩ := hfits.pending_onto hpending
  exact ⟨htemp, { hp with listed := fun _ hm => hm, not_taken := hb.pending.not_taken },
    hb.temp_name, hb.new, hb.spared⟩

theorem after_over (h : c.Waits before d) (hb : b.Waits before d) (htemp : b.temp ≠ c.temp)
    (hd : c.Over d d') : b.Waits before d' := by
  obtain ⟨hpb, hpc⟩ := hb.both h
  have hp := hpc.pending_over hpb htemp hd
  exact ⟨{ hp with listed := fun _ hm => hm, not_taken := hb.pending.not_taken },
    hb.temp_name, hb.new, hb.spared⟩

end Waits

end Change

end CodeBridge
