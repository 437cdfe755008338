import CodeBridge.Proofs.File.Ways

/-!
# Renaming

A rename succeeds when the place that the new path leads to admits what is moved.

* `admits_of_renameTo`, `renameTo_of_admits`   when that is, and what it does;
* `rename_file`, `rename_file_cases`   a file takes any place but that of a directory, and nothing
                                       else is changed (`took_of_rename_file`);
* `rename_dir`, `rename_dir_eq_ok`     a directory takes a vacant place, where there is nothing or
                                       an empty directory, with all that it holds
                                       (`get?_move_vacant`).
-/

namespace CodeBridge

namespace FileSystem

/-- Nothing is there, or an empty directory. -/
structure Vacant (fs : FileSystem) (names : List Name) : Prop where
  empty : ∀ rest, rest ≠ [] → fs.get? (names ++ rest) = none
  no_file : ∀ bytes mode, fs.get? names ≠ some (.file bytes mode)

theorem Rooted.vacant_of_none {fs : FileSystem} {names : List Name} (h : fs.Rooted)
    (hn : fs.get? names = none) : fs.Vacant names := by
  exact ⟨fun rest hr => h.empty_below (fun m => by rw [hn]; exact nofun) hr,
    fun bytes mode => by rw [hn]; exact nofun⟩

theorem vacant_of_below {fs : FileSystem} {names : List Name} {mode : Nat}
    (hd : fs.get? names = some (.dir mode)) (hb : (fs.below names).isEmpty = true) :
    fs.Vacant names := by
  refine ⟨fun rest hr => ?_, fun bytes m => by rw [hd]; exact nofun⟩
  refine fs.get?_of_not_mem _ (List.append_ne_nil_of_right_ne_nil names hr) fun hm => hr ?_
  exact List.append_right_eq_self.mp
    ((fs.below_isEmpty_iff names).mp hb _ hm (List.prefix_append names rest))

theorem Vacant.not_prefix {fs : FileSystem} {names other : List Name} {node : Node}
    (h : fs.Vacant names) (hne : other ≠ names) (hg : fs.get? other = some node) :
    ¬ names <+: other := by
  rintro ⟨rest, rfl⟩
  rw [h.empty rest fun e => hne (by rw [e, List.append_nil])] at hg
  cases hg

theorem get?_move_vacant (fs : FileSystem) (source target names : List Name) (hs : source ≠ [])
    (ht : target ≠ []) (hv : fs.Vacant target) :
    (fs.move source target).get? names =
      if target <+: names then fs.get? (source ++ names.drop target.length)
      else if source <+: names then none else fs.get? names := by
  by_cases hn : names = []
  · subst hn
    rw [if_neg fun h => ht (List.prefix_nil.mp h), if_neg fun h => hs (List.prefix_nil.mp h)]
    rfl
  rw [fs.get?_move source target names hn hs]
  by_cases hp : target <+: names
  · rw [if_pos hp, if_pos hp]
    have hrest : (if source <+: names ∨ names = target then none else fs.get? names) = none := by
      split
      · rfl
      next h =>
        obtain ⟨rest, rfl⟩ := hp
        exact hv.empty rest fun e => (not_or.mp h).2 (by rw [e, List.append_nil])
    rw [hrest, Option.or_none]
  · have hne : names ≠ target := fun e => hp (e ▸ List.prefix_refl target)
    rw [if_neg hp, if_neg hp, Option.none_or]
    by_cases hq : source <+: names
    · rw [if_pos (.inl hq), if_pos hq]
    · rw [if_neg (not_or.mpr ⟨hq, hne⟩), if_neg hq]

end FileSystem

namespace Disk
variable {d d' : Disk} {p q : Path} {names target : List Name} {bytes : Bytes} {mode : Nat}

/-! ## nodes and places -/

theorem place_of_locate {place : Place} (h : d.locate p = .ok place) :
    place.asDir = asksDir p ∧ place.fixed = endsInStep p := by
  obtain ⟨-, start, here, -, -, -, rfl⟩ := (locate_eq_ok_iff d p place).mp h
  exact ⟨rfl, rfl⟩

theorem stat_eq_ok_iff (d : Disk) (p : Path) (names : List Name) (node : Node) :
    d.stat p = .ok (names, node) ↔
      d.locate p = .ok ⟨names, asksDir p, endsInStep p⟩ ∧ d.get? names = some node ∧
        (asksDir p = true → node.isDir = true) := by
  have hif : ∀ asDir isDir : Bool, (asDir && !isDir) = true ↔ ¬ (asDir = true → isDir = true) := by
    decide
  constructor
  · intro h
    obtain ⟨⟨place, asDir, fixed⟩, hl, h⟩ := bind_eq_ok h
    obtain ⟨rfl, rfl⟩ := place_of_locate hl
    cases hn : d.get? place with
    | none =>
      rw [hn] at h
      cases h
    | some found =>
      rw [hn] at h
      dsimp only at h
      split at h
      · cases h
      next hdir =>
        obtain ⟨rfl, rfl⟩ := Prod.mk.inj (Except.ok.inj h)
        exact ⟨hl, hn, Decidable.not_not.mp fun hd => hdir ((hif _ _).mpr hd)⟩
  · rintro ⟨hl, hn, hdir⟩
    refine bind_eq_ok_iff.mpr ⟨_, hl, ?_⟩
    dsimp only
    rw [hn]
    exact if_neg fun h => (hif _ _).mp h hdir

/-- The disk after a node has been moved with all that is below it. -/
abbrev moved (d : Disk) (source target : List Name) : Disk :=
  d.update fun fs => fs.move source target

def Admits (d : Disk) (source : List Name) (place : Place) : Node → Prop
  | .file .. => place.asDir = false ∧ ∀ m, d.get? place.names ≠ some (.dir m)
  | .dir _ => (∀ bytes m, d.get? place.names ≠ some (.file bytes m)) ∧
      (place.names ≠ source → (d.get? place.names).isSome = true →
        (d.system.below place.names).isEmpty = true)

theorem stay_or_move (d : Disk) (source : List Name) (place : Place) :
    (if place.names = source then (pure d : Except IoError Disk)
      else pure (d.moved source place.names)) =
      .ok (if place.names = source then d else d.moved source place.names) := by
  split <;> rfl

theorem admits_of_renameTo {source : List Name} (h : d.renameTo source q = .ok d') :
    ∃ place node, d.locate q = .ok place ∧ place.fixed = false ∧ d.get? source = some node ∧
      d.Admits source place node ∧
      d' = if place.names = source then d else d.moved source place.names := by
  obtain ⟨place, hl, h⟩ := bind_eq_ok h
  dsimp only at h
  split at h
  · cases h
  next hf =>
    replace hf := Bool.not_eq_true _ ▸ hf
    split at h
    · cases h
    next bytes mode hs =>
      split at h
      · cases h
      next ha =>
        split at h
        · cases h
        next hnd =>
          exact ⟨place, _, hl, hf, hs, ⟨Bool.not_eq_true _ ▸ ha, hnd⟩,
            Except.ok.inj (h.symm.trans (d.stay_or_move source place))⟩
    next mode hs =>
      split at h
      · cases h
      next m hd =>
        split at h
        · cases h
        next hb =>
          refine ⟨place, _, hl, hf, hs, ⟨fun bytes m => by rw [hd]; exact nofun, fun hne _ => ?_⟩,
            Except.ok.inj (h.symm.trans (d.stay_or_move source place))⟩
          simpa [hne] using hb
      next hn =>
        refine ⟨place, _, hl, hf, hs, ⟨fun bytes m => by rw [hn]; exact nofun, fun _ h => ?_⟩,
          Except.ok.inj (h.symm.trans (d.stay_or_move source place))⟩
        rw [hn] at h
        cases h

theorem renameTo_of_admits {source : List Name} {place : Place} {node : Node}
    (hl : d.locate q = .ok place) (hf : place.fixed = false) (hs : d.get? source = some node)
    (ha : d.Admits source place node) :
    d.renameTo source q =
      .ok (if place.names = source then d else d.moved source place.names) := by
  refine bind_eq_ok_iff.mpr ⟨place, hl, ?_⟩
  dsimp only
  rw [hf, hs]
  cases node with
  | file bytes mode =>
    obtain ⟨has, hnd⟩ := ha
    rw [has]
    cases hn : d.get? place.names with
    | none => exact d.stay_or_move source place
    | some found =>
      cases found with
      | dir m => exact absurd hn (hnd m)
      | file old m => exact d.stay_or_move source place
  | dir mode =>
    obtain ⟨hnf, hb⟩ := ha
    cases hn : d.get? place.names with
    | none => exact d.stay_or_move source place
    | some found =>
      cases found with
      | file old m => exact absurd hn (hnf old m)
      | dir m =>
        have hif : ¬ (decide (place.names ≠ source) &&
            !(d.system.below place.names).isEmpty) = true := by
          rw [Bool.and_eq_true, decide_eq_true_eq, not_and]
          intro hne h
          rw [hb hne (by rw [hn]; rfl)] at h
          cases h
        exact (if_neg hif).trans (d.stay_or_move source place)

theorem rename_eq_ok_iff (d d' : Disk) (p q : Path) :
    d.rename p q = .ok d' ↔
      endsInStep p = false ∧ ∃ found, d.stat p = .ok found ∧ d.renameTo found.1 q = .ok d' := by
  constructor
  · intro h
    obtain ⟨place, hl, h⟩ := bind_eq_ok h
    dsimp only at h
    split at h
    · cases h
    next hf =>
      rw [(place_of_locate hl).2] at hf
      exact ⟨Bool.not_eq_true _ ▸ hf, bind_eq_ok h⟩
  · rintro ⟨hf, found, hs, h⟩
    obtain ⟨hl, -, -⟩ := (stat_eq_ok_iff d p found.1 found.2).mp hs
    refine bind_eq_ok_iff.mpr ⟨_, hl, ?_⟩
    dsimp only
    rw [hf]
    exact bind_eq_ok_iff.mpr ⟨found, hs, h⟩

/-! ## a file -/

theorem endsInStep_of_leads (h : d.Leads p names) : endsInStep p = false :=
  (place_of_locate h).2.symm

theorem rename_file (h : d.Leads p names) (hf : d.get? names = some (.file bytes mode))
    (ht : d.Leads q target) (hg : ∀ m, d.get? target ≠ some (.dir m)) :
    d.rename p q = .ok (if target = names then d else d.moved names target) :=
  (rename_eq_ok_iff d _ p q).mpr ⟨endsInStep_of_leads h, _, stat_of_leads h hf,
    renameTo_of_admits ht rfl hf ⟨rfl, hg⟩⟩

/-- A file takes a place that the path leads to, with no directory there, or it stays. -/
theorem rename_file_cases (h : d.Leads p names) (hf : d.get? names = some (.file bytes mode))
    (q : Path) :
    (∃ target, d.Leads q target ∧ ∀ m, d.get? target ≠ some (.dir m)) ∨
      ∃ fault, d.rename p q = .error fault := by
  cases hr : d.rename p q with
  | error fault => exact .inr ⟨fault, rfl⟩
  | ok d' =>
    obtain ⟨-, found, hs, hr⟩ := (rename_eq_ok_iff d d' p q).mp hr
    obtain rfl := Except.ok.inj ((stat_of_leads h hf).symm.trans hs)
    obtain ⟨place, node, hl, hfix, hn, ha, -⟩ := admits_of_renameTo hr
    obtain rfl := Option.some.inj (hf.symm.trans hn)
    obtain ⟨hdir, hnd⟩ := ha
    obtain ⟨target, asDir, fixed⟩ := place
    obtain rfl : asDir = false := hdir
    obtain rfl : fixed = false := hfix
    exact .inl ⟨target, hl, hnd⟩

/-- What a file cannot take the place of, if the path leads to anything, is a directory. -/
theorem dir_of_rename_file {fault : IoError} {node : Node} (h : d.Leads p names)
    (hf : d.get? names = some (.file bytes mode)) (hr : d.rename p q = .error fault)
    (hs : d.stat q = .ok (target, node)) : ∃ m, node = .dir m := by
  obtain ⟨hl, hn, hdir⟩ := (stat_eq_ok_iff d q target node).mp hs
  cases node with
  | dir m => exact ⟨m, rfl⟩
  | file old m =>
    have hasks : asksDir q = false := Bool.eq_false_iff.mpr fun ha => nomatch hdir ha
    have hleads : d.Leads q target := by
      have hroot : target ≠ [] := by
        rintro rfl
        cases hn
      rw [hasks, (endsInStep_of_not_asksDir hasks hl).resolve_right hroot] at hl
      exact hl
    rw [rename_file h hf hleads fun m => by rw [hn]; exact nofun] at hr
    cases hr

/-- A file has taken a place; nothing else is changed. -/
structure Took (d d' : Disk) (names target : List Name) : Prop where
  cwd : d'.cwd = d.cwd
  here : d'.get? target = d.get? names
  gone : names ≠ target → d'.get? names = none
  other : ∀ k, k ≠ names → k ≠ target → d'.get? k = d.get? k

theorem took_of_rename_file (hf : d.get? names = some (.file bytes mode))
    (hleaf : ∀ rest, rest ≠ [] → d.get? (names ++ rest) = none)
    (hg : ∀ m, d.get? target ≠ some (.dir m)) :
    d.Took (if target = names then d else d.moved names target) names target := by
  have hnames : names ≠ [] := by
    rintro rfl
    cases hf
  have htarget : target ≠ [] := by
    rintro rfl
    exact hg _ rfl
  split
  next e =>
    subst e
    exact ⟨rfl, rfl, fun h => absurd rfl h, fun _ _ _ => rfl⟩
  next hne =>
    have hbelow : ∀ k, k ≠ names → names <+: k → d.get? k = none := by
      rintro k hk ⟨rest, rfl⟩
      exact hleaf rest fun e => hk (by rw [e, List.append_nil])
    have hmoved : ∀ k, k ≠ target → (if target <+: k then
        d.get? (names ++ k.drop target.length) else none) = none := by
      intro k hk
      split
      next hp =>
        obtain ⟨rest, rfl⟩ := hp
        rw [List.drop_left]
        exact hleaf rest fun e => hk (by rw [e, List.append_nil])
      · rfl
    have hmove : ∀ k, k ≠ [] → (d.moved names target).get? k =
        (if target <+: k then d.get? (names ++ k.drop target.length) else none).or
          (if names <+: k ∨ k = target then none else d.get? k) := fun k hk =>
      d.system.get?_move names target k hk hnames
    refine ⟨rfl, ?_, fun h => ?_, fun k h1 h2 => ?_⟩
    · rw [hmove target htarget, if_pos (List.prefix_refl target), List.drop_length,
        List.append_nil, hf]
      rfl
    · rw [hmove names hnames, hmoved names h, if_pos (.inl (List.prefix_refl names))]
      rfl
    · by_cases hk : k = []
      · rw [hk]
        rfl
      · rw [hmove k hk, hmoved k h2, Option.none_or]
        by_cases hp : names <+: k
        · rw [if_pos (.inl hp), hbelow k h1 hp]
        · rw [if_neg (not_or.mpr ⟨hp, h2⟩)]

/-- No directory goes when a file takes a place where there is none. -/
theorem Took.keepsDirs (h : d.Took d' names target) (hf : d.get? names = some (.file bytes mode))
    (hg : ∀ m, d.get? target ≠ some (.dir m)) : d.KeepsDirs d' := by
  refine .of_agree [names, target] h.cwd (fun k hk m => ?_) fun k hk => ?_
  · rcases List.mem_cons.mp hk with rfl | hk
    · rw [hf]
      exact nofun
    · rw [List.mem_singleton.mp hk]
      exact hg m
  · exact h.other k (fun e => hk (e ▸ List.mem_cons_self))
      fun e => hk (e ▸ List.mem_cons_of_mem _ List.mem_cons_self)

/-! ## a directory -/

theorem rename_dir {place : Place} (hs : d.stat p = .ok (names, .dir mode))
    (hf : endsInStep p = false) (hl : d.locate q = .ok place) (hf' : endsInStep q = false)
    (hn : d.get? place.names = none) :
    d.rename p q = .ok (d.moved names place.names) := by
  obtain ⟨-, hd, -⟩ := (stat_eq_ok_iff d p names _).mp hs
  have hne : place.names ≠ names := by
    intro e
    rw [← e, hn] at hd
    cases hd
  have hadmits : d.Admits names place (.dir mode) := by
    refine ⟨fun bytes m => ?_, fun _ h => ?_⟩
    · rw [hn]
      exact nofun
    · rw [hn] at h
      cases h
  have hr := renameTo_of_admits hl ((place_of_locate hl).2.trans hf') hd hadmits
  rw [if_neg hne] at hr
  exact (rename_eq_ok_iff d _ p q).mpr ⟨hf, _, hs, hr⟩

/-- When a directory has been renamed, it was there already or its new place was vacant. -/
theorem rename_dir_eq_ok (hroot : d.system.Rooted) (hs : d.stat p = .ok (names, .dir mode))
    (h : d.rename p q = .ok d') :
    endsInStep p = false ∧ ∃ place, d.locate q = .ok place ∧ place.fixed = false ∧
      (place.names = names ∧ d' = d ∨
        place.names ≠ names ∧ d.system.Vacant place.names ∧
          d' = d.moved names place.names) := by
  obtain ⟨hf, found, hs', h⟩ := (rename_eq_ok_iff d d' p q).mp h
  obtain rfl := Except.ok.inj (hs.symm.trans hs')
  obtain ⟨-, hd, -⟩ := (stat_eq_ok_iff d p names _).mp hs
  obtain ⟨place, node, hl, hfix, hn, ha, rfl⟩ := admits_of_renameTo h
  obtain rfl := Option.some.inj (hd.symm.trans hn)
  obtain ⟨hnf, hb⟩ := ha
  refine ⟨hf, place, hl, hfix, ?_⟩
  by_cases hne : place.names = names
  · exact .inl ⟨hne, if_pos hne⟩
  refine .inr ⟨hne, ?_, if_neg hne⟩
  cases hg : d.get? place.names with
  | none => exact hroot.vacant_of_none hg
  | some found =>
    cases found with
    | file bytes m => exact absurd hg (hnf bytes m)
    | dir m => exact FileSystem.vacant_of_below hg (hb hne (by rw [hg]; rfl))

end Disk

end CodeBridge
