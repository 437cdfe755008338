import CodeBridge.Proofs.Except
import CodeBridge.Proofs.File.Paths
import CodeBridge.File.System

/-!
# What the operations of a disk do

The paths are absolute and written plainly, so a path that leads anywhere leads to its own names
past the links.

* `KeepsDirs`         a change after which every directory is still there, so what could be
                      reached before it can be reached after it (`KeepsDirs.locate`);
* `readText_eq_ok`    text is read from a file;
* `unlink_ofNames`, `rename_ofNames`, `chmod_ofNames`   the changes, when they are made to files;
* `get?_move`         what is found after a node and all below it have been moved.
-/

namespace CodeBridge

namespace FileSystem

/-! ## entries -/

def keys (fs : FileSystem) : List (List Name) := fs.nodes.map (·.1)

theorem mem_keys_of_lookup (l : List (List Name × Node)) (names : List Name) (node : Node)
    (h : lookup names l = some node) : names ∈ l.map (·.1) := by
  induction l with
  | nil => cases h
  | cons x l ih =>
    obtain ⟨k, v⟩ := x
    unfold lookup at h
    split at h
    next hk => exact hk ▸ List.mem_cons_self
    · exact List.mem_cons_of_mem _ (ih h)

theorem mem_keys_of_get? (fs : FileSystem) (names : List Name) (node : Node) (hn : names ≠ [])
    (h : fs.get? names = some node) : names ∈ fs.keys := by
  unfold get? at h
  rw [if_neg hn] at h
  exact mem_keys_of_lookup fs.nodes names node h

theorem lookup_of_not_mem (l : List (List Name × Node)) (names : List Name)
    (h : names ∉ l.map (·.1)) : lookup names l = none :=
  Option.eq_none_iff_forall_ne_some.mpr fun node e => h (mem_keys_of_lookup l names node e)

theorem get?_of_not_mem (fs : FileSystem) (names : List Name) (hn : names ≠ [])
    (h : names ∉ fs.keys) : fs.get? names = none := by
  unfold get?
  rw [if_neg hn, lookup_of_not_mem fs.nodes names h]

theorem erase_of_not_mem (fs : FileSystem) (names : List Name) (h : names ∉ fs.keys) :
    fs.erase names = fs := by
  refine congrArg FileSystem.mk (List.filter_eq_self.mpr fun x hx => ?_)
  exact decide_eq_true fun e => h (e ▸ List.mem_map_of_mem hx)

theorem erase_cons (fs : FileSystem) (names : List Name) (node : Node) (h : names ∉ fs.keys) :
    FileSystem.erase ⟨(names, node) :: fs.nodes⟩ names = fs := by
  have he := erase_of_not_mem fs names h
  unfold erase at he ⊢
  rw [List.filter_cons_of_neg (by simp)]
  exact he

theorem keys_set (fs : FileSystem) (names k : List Name) (node : Node)
    (h : k ∈ (fs.set names node).keys) : k = names ∨ k ∈ fs.keys := by
  rcases List.mem_cons.mp h with rfl | h
  · exact .inl rfl
  · obtain ⟨x, hx, rfl⟩ := List.mem_map.mp h
    exact .inr (List.mem_map_of_mem (List.mem_filter.mp hx).1)

theorem lookup_append (l l' : List (List Name × Node)) (names : List Name) :
    lookup names (l ++ l') = (lookup names l).or (lookup names l') := by
  induction l with
  | nil => rfl
  | cons x l ih =>
    obtain ⟨k, v⟩ := x
    by_cases hk : k = names
    · simp only [List.cons_append, lookup, if_pos hk, Option.some_or]
    · simp only [List.cons_append, lookup, if_neg hk, ih]

theorem lookup_filter (p : List Name → Bool) (l : List (List Name × Node)) (names : List Name) :
    lookup names (l.filter fun x => p x.1) = if p names then lookup names l else none := by
  induction l with
  | nil => split <;> rfl
  | cons x l ih =>
    obtain ⟨k, v⟩ := x
    by_cases hk : k = names
    · subst hk
      by_cases hp : p k = true
      · simp only [List.filter_cons, hp, if_true, lookup]
      · simp [hp, ih]
    · by_cases hp : p k = true
      · simp only [List.filter_cons, hp, if_true, lookup, if_neg hk, ih]
      · simp [hp, lookup, hk, ih]

theorem get?_erase_self (fs : FileSystem) (names : List Name) (hn : names ≠ []) :
    (fs.erase names).get? names = none := by
  unfold get? erase
  rw [if_neg hn]
  exact (lookup_filter (fun k => k ≠ names) fs.nodes names).trans (by simp)

/-! ## a node moved -/

theorem lookup_moved (source target : List Name) (l : List (List Name × Node))
    (names : List Name) :
    lookup names (l.filterMap fun (k, v) =>
        if source.isPrefixOf k then some (target ++ k.drop source.length, v) else none) =
      if target <+: names then lookup (source ++ names.drop target.length) l else none := by
  induction l with
  | nil => split <;> rfl
  | cons x l ih =>
    obtain ⟨k, v⟩ := x
    by_cases hp : source.isPrefixOf k = true
    · obtain ⟨rest, rfl⟩ := List.isPrefixOf_iff_prefix.mp hp
      simp only [List.filterMap_cons, hp, if_true, lookup, List.drop_left, ih]
      by_cases ht : target <+: names
      · obtain ⟨tail, rfl⟩ := ht
        simp only [List.append_cancel_left_eq, List.drop_left, if_pos (List.prefix_append target tail)]
      · have hne : ¬ target ++ rest = names := fun e => ht (e ▸ List.prefix_append target rest)
        rw [if_neg ht, if_neg ht, if_neg hne]
    · have hk : ¬ k = source ++ names.drop target.length := fun e =>
        hp (List.isPrefixOf_iff_prefix.mpr (e ▸ List.prefix_append source _))
      simp only [List.filterMap_cons, if_neg hp, lookup, if_neg hk, ih]

theorem keys_move (fs : FileSystem) (source target k : List Name)
    (hl : ∀ k ∈ fs.keys, source.isPrefixOf k = true → k = source)
    (h : k ∈ (fs.move source target).keys) : k = target ∨ k ∈ fs.keys := by
  obtain ⟨x, hx, rfl⟩ := List.mem_map.mp h
  rcases List.mem_append.mp hx with hx | hx
  · obtain ⟨⟨k, v⟩, hy, hm⟩ := List.mem_filterMap.mp hx
    by_cases hp : source.isPrefixOf k = true
    · obtain rfl := hl k (List.mem_map_of_mem hy) hp
      simp only [hp, if_true, List.drop_length, List.append_nil] at hm
      exact .inl (by rw [← Option.some.inj hm])
    · simp [hp] at hm
  · exact .inr (List.mem_map_of_mem (List.mem_filter.mp hx).1)

/-- What is found under names after a move: what was moved there, or else what was there and
neither was moved nor made way. -/
theorem get?_move (fs : FileSystem) (source target names : List Name) (hn : names ≠ [])
    (hs : source ≠ []) :
    (fs.move source target).get? names =
      (if target <+: names then fs.get? (source ++ names.drop target.length) else none).or
        (if source <+: names ∨ names = target then none else fs.get? names) := by
  have hkept := lookup_filter (fun k => !(source.isPrefixOf k) && k ≠ target) fs.nodes names
  unfold get? move
  rw [if_neg hn, lookup_append, lookup_moved source target fs.nodes,
    if_neg (List.append_ne_nil_of_left_ne_nil hs _), if_neg hn]
  refine (congrArg _ hkept).trans (congrArg _ ?_)
  by_cases hp : source <+: names
  · simp [hp, List.isPrefixOf_iff_prefix.mpr hp]
  · by_cases ht : names = target
    · simp [ht]
    · simp [hp, ht]

/-- A node with nothing below it is found in its new place only. -/
theorem get?_move_leaf (fs : FileSystem) (source target names : List Name) (hn : names ≠ [])
    (hs : source ≠ []) (hl : ∀ k ∈ fs.keys, source.isPrefixOf k = true → k = source) :
    (fs.move source target).get? names =
      if names = target then fs.get? source
      else if names = source then none else fs.get? names := by
  have hbelow : ∀ rest, rest ≠ [] → fs.get? (source ++ rest) = none := by
    refine fun rest hr => fs.get?_of_not_mem _ (List.append_ne_nil_of_left_ne_nil hs _) fun hm => hr ?_
    refine List.append_right_eq_self.mp (hl _ hm ?_)
    exact List.isPrefixOf_iff_prefix.mpr (List.prefix_append source rest)
  rw [fs.get?_move source target names hn hs]
  by_cases ht : names = target
  · simp [ht]
  have hmoved : (if target <+: names then fs.get? (source ++ names.drop target.length) else none) =
      none := by
    split
    next hp =>
      obtain ⟨rest, rfl⟩ := hp
      rw [List.drop_left]
      exact hbelow rest fun e => ht (by rw [e, List.append_nil])
    · rfl
  rw [hmoved, Option.none_or, if_neg ht]
  by_cases hk : names = source
  · simp [hk]
  by_cases hp : source <+: names
  · obtain ⟨rest, rfl⟩ := hp
    rw [if_pos (.inl (List.prefix_append source rest)), if_neg hk,
      hbelow rest fun e => hk (by rw [e, List.append_nil])]
  · rw [if_neg (not_or.mpr ⟨hp, ht⟩), if_neg hk]

end FileSystem

namespace Disk

/-! ## where a path leads -/

def asksDir (p : Path) : Bool :=
  let last := (Path.parts p.bytes).getLast?
  last = some [] || last = some [Path.dot] || last = some [Path.dot, Path.dot]

/-- The path ends in a step, so its last name cannot be changed. -/
def endsInStep (p : Path) : Bool :=
  match p.route.getLast? with
  | some (.name _) => (Path.parts p.bytes).getLast? = some [Path.dot]
  | _ => true

/-- What a path has to be for its steps to be taken. -/
def Passable (p : Path) : Prop :=
  ¬ p.bytes.contains 0 = true ∧ ¬ p.bytes.isEmpty = true ∧ ¬ p.bytes.length > maxPath

/-- The last step does not lead to a name that is too long. -/
def ShortName (here : List Name) : Prop :=
  ¬ (here.head?.map fun n => decide (n.length > maxName)).getD false = true

theorem locate_eq_ok_iff (d : Disk) (p : Path) (place : Place) :
    d.locate p = .ok place ↔ Passable p ∧ ∃ start here,
      (if p.isAbsolute then some [] else d.cwd) = some start ∧
      d.walk start.reverse p.route = .ok here ∧ ShortName here ∧
      place = ⟨here.reverse, asksDir p, endsInStep p⟩ := by
  unfold locate Passable
  by_cases h0 : p.bytes.contains 0 = true
  · rw [if_pos h0]
    exact ⟨nofun, fun h => absurd h0 h.1.1⟩
  by_cases h1 : p.bytes.isEmpty = true
  · rw [if_neg h0, if_pos h1]
    exact ⟨nofun, fun h => absurd h1 h.1.2.1⟩
  by_cases h2 : p.bytes.length > maxPath
  · rw [if_neg h0, if_neg h1, if_pos h2]
    exact ⟨nofun, fun h => absurd h2 h.1.2.2⟩
  rw [if_neg h0, if_neg h1, if_neg h2]
  cases hs : (if p.isAbsolute then some [] else d.cwd) with
  | none => exact ⟨nofun, fun ⟨_, _, _, h, _⟩ => nomatch h⟩
  | some start =>
    cases hw : d.walk start.reverse p.route with
    | error e =>
      refine ⟨fun h => ?_, fun ⟨_, s, here, h, hr, _⟩ => ?_⟩
      · simp only [hw] at h
        cases h
      · rw [← Option.some.inj h, hw] at hr
        cases hr
    | ok here =>
      simp only [hw]
      by_cases h3 : ShortName here
      · have hplace : ((if (here.head?.map fun n => decide (n.length > maxName)).getD false then
              throw IoError.nameTooLong
            else pure ⟨here.reverse, asksDir p, endsInStep p⟩ : Except IoError Place) =
            .ok ⟨here.reverse, asksDir p, endsInStep p⟩) := if_neg h3
        refine ⟨fun h => ?_, fun ⟨_, s, r, e, hr, _, hp⟩ => ?_⟩
        · exact ⟨⟨h0, h1, h2⟩, start, here, rfl, hw, h3, Except.ok.inj (h.symm.trans hplace)⟩
        · obtain rfl := Option.some.inj e
          obtain rfl := Except.ok.inj (hw.symm.trans hr)
          exact hplace.trans (congrArg _ hp.symm)
      · refine ⟨fun h => ?_, fun ⟨_, s, r, e, hr, hn, _⟩ => ?_⟩
        · have hlong := h.symm.trans (if_pos (Decidable.of_not_not h3))
          cases hlong
        · obtain rfl := Option.some.inj e
          obtain rfl := Except.ok.inj (hw.symm.trans hr)
          exact absurd hn h3

/-! ## directories that stay -/

/-- Every directory of the first disk is a directory of the second. -/
structure KeepsDirs (d d' : Disk) : Prop where
  cwd : d'.cwd = d.cwd
  dir : ∀ names mode, d.get? names = some (.dir mode) → d'.get? names = some (.dir mode)

namespace KeepsDirs
variable {d d' : Disk}

theorem refl (d : Disk) : KeepsDirs d d := ⟨rfl, fun _ _ h => h⟩

theorem trans {d'' : Disk} (h : KeepsDirs d d') (h' : KeepsDirs d' d'') : KeepsDirs d d'' :=
  ⟨h'.cwd.trans h.cwd, fun names mode hd => h'.dir names mode (h.dir names mode hd)⟩

theorem entered (h : KeepsDirs d d') (here : List Name) (he : d.entered here = .ok ()) :
    d'.entered here = .ok () := by
  unfold Disk.entered at he ⊢
  split at he
  · cases he
  next hlen =>
    rw [if_neg hlen]
    split at he
    · cases he
    · cases he
    next mode hm => rw [h.dir _ mode hm]

theorem walk (h : KeepsDirs d d') (cs : List Path.Component) (here r : List Name)
    (hw : d.walk here cs = .ok r) : d'.walk here cs = .ok r := by
  induction cs generalizing here with
  | nil => exact hw
  | cons c cs ih =>
    unfold Disk.walk at hw ⊢
    cases he : d.entered here with
    | error e => rw [he] at hw; cases hw
    | ok u =>
      rw [he] at hw
      rw [h.entered here he]
      exact ih (Path.step here c) hw

theorem locate (h : KeepsDirs d d') (p : Path) (place : Place) (hl : d.locate p = .ok place) :
    d'.locate p = .ok place := by
  obtain ⟨hp, start, here, hs, hw, hn, e⟩ := (locate_eq_ok_iff d p place).mp hl
  refine (locate_eq_ok_iff d' p place).mpr ⟨hp, start, here, ?_, h.walk _ _ here hw, hn, e⟩
  rw [h.cwd, hs]

/-- A change of nodes that are no directories. -/
theorem of_agree (files : List (List Name)) (hcwd : d'.cwd = d.cwd)
    (hfiles : ∀ names ∈ files, ∀ mode, d.get? names ≠ some (.dir mode))
    (h : ∀ names, names ∉ files → d'.get? names = d.get? names) : KeepsDirs d d' :=
  ⟨hcwd, fun names mode hd =>
    (h names fun hm => hfiles names hm mode hd).trans hd⟩

end KeepsDirs

/-! ## paths written plainly -/

theorem walk_eq_ok (d : Disk) (cs : List Path.Component) (here r : List Name)
    (h : d.walk here cs = .ok r) : r = cs.foldl Path.step here := by
  induction cs generalizing here with
  | nil => exact (Except.ok.inj h).symm
  | cons c cs ih =>
    unfold Disk.walk at h
    cases he : d.entered here with
    | error e => rw [he] at h; cases h
    | ok u => rw [he] at h; exact ih (Path.step here c) h

theorem getLast?_parts_ofNames (names : List Name) (n : Name)
    (h : ∀ m ∈ names ++ [n], Path.Plain m) :
    (Path.parts (Path.ofNames (names ++ [n])).bytes).getLast? = some n := by
  cases names with
  | nil => rw [List.nil_append, Path.parts_ofNames n [] h]; rfl
  | cons k ks =>
    rw [List.cons_append, Path.parts_ofNames k (ks ++ [n]) h, ← List.cons_append, ← List.cons_append]
    exact List.getLast?_concat

theorem asksDir_ofNames (names : List Name) (n : Name) (h : ∀ m ∈ names ++ [n], Path.Plain m) :
    asksDir (.ofNames (names ++ [n])) = false := by
  have hn := h n List.mem_concat_self
  simp [asksDir, getLast?_parts_ofNames names n h, hn.nonempty, hn.not_dot, hn.not_dots]

theorem endsInStep_ofNames (names : List Name) (n : Name) (h : ∀ m ∈ names ++ [n], Path.Plain m)
    (hr : Path.real (names ++ [n]) ≠ []) : endsInStep (.ofNames (names ++ [n])) = false := by
  have hlast : (Path.ofNames (names ++ [n])).route.getLast? = some (.name n) := by
    rw [Path.route_ofNames _ h, Path.real_concat_of_ne_nil hr, List.map_append, ← List.cons_append]
    exact List.getLast?_concat
  simp [endsInStep, hlast, getLast?_parts_ofNames names n h, (h n List.mem_concat_self).not_dot]

/-- The path leads to the names, and not as to a directory. -/
def Leads (d : Disk) (p : Path) (names : List Name) : Prop := d.locate p = .ok ⟨names, false, false⟩

theorem KeepsDirs.leads {d d' : Disk} (h : KeepsDirs d d') {p : Path} {names : List Name}
    (hl : d.Leads p names) : d'.Leads p names := h.locate p _ hl

/-- A path leads to its names past the links, if it leads anywhere. -/
theorem names_of_locate (d : Disk) (names : List Name) (place : Place)
    (hp : ∀ n ∈ names, Path.Plain n) (h : d.locate (.ofNames names) = .ok place) :
    place.names = Path.real names := by
  obtain ⟨-, start, here, hs, hw, -, rfl⟩ := (locate_eq_ok_iff d _ place).mp h
  rw [Path.isAbsolute_ofNames, if_pos rfl] at hs
  obtain rfl := Option.some.inj hs
  have hr : here.reverse = Path.resolve (Path.ofNames names).route := by
    rw [walk_eq_ok d _ _ here hw]
    rfl
  exact hr.trans (Path.resolve_route_ofNames names hp)

/-- Where a path to a node other than the root leads, if it leads anywhere. -/
theorem leads_of_locate (d : Disk) (names : List Name) (place : Place) (hn : Path.real names ≠ [])
    (hp : ∀ n ∈ names, Path.Plain n) (h : d.locate (.ofNames names) = .ok place) :
    d.Leads (.ofNames names) (Path.real names) := by
  have hplace := names_of_locate d names place hp h
  obtain ⟨-, start, here, -, -, -, rfl⟩ := (locate_eq_ok_iff d _ place).mp h
  rw [show here.reverse = Path.real names from hplace] at h
  have hne : names ≠ [] := by
    rintro rfl
    exact hn rfl
  obtain ⟨init, n, rfl⟩ := (List.eq_nil_or_concat names).resolve_left hne
  rw [List.concat_eq_append] at hn hp h ⊢
  rw [asksDir_ofNames init n hp, endsInStep_ofNames init n hp hn] at h
  exact h

/-! ## operations on files -/

section
variable {d : Disk} {p : Path} {names : List Name} {bytes : Bytes} {mode : Nat}

theorem stat_of_leads {node : Node} (h : d.Leads p names) (hn : d.get? names = some node) :
    d.stat p = .ok (names, node) := by
  simp only [stat, show d.locate p = _ from h, bind, Except.bind, hn]
  rfl

theorem readText_eq_ok {text : String} (hp : ∀ n ∈ names, Path.Plain n)
    (h : d.readText (.ofNames names) = .ok text) :
    Path.real names ≠ [] ∧ d.Leads (.ofNames names) (Path.real names) ∧
      ∃ bytes mode, d.get? (Path.real names) = some (.file bytes mode) ∧
        Utf8.text? bytes = some text := by
  obtain ⟨bytes, hr, h⟩ := bind_eq_ok h
  obtain ⟨⟨names', node⟩, hs, hr⟩ := bind_eq_ok hr
  obtain ⟨place, hl, hs⟩ := bind_eq_ok hs
  have hplace := names_of_locate d names place hp hl
  rw [hplace] at hs
  cases hg : d.get? (Path.real names) with
  | none =>
    rw [hg] at hs
    cases hs
  | some found =>
    rw [hg] at hs
    dsimp only at hs
    split at hs
    · cases hs
    obtain ⟨rfl, rfl⟩ := Prod.mk.inj (Except.ok.inj hs)
    cases found with
    | dir m => cases hr
    | file old m =>
      have hn : Path.real names ≠ [] := by
        intro e
        rw [e] at hg
        cases hg
      obtain rfl := Except.ok.inj hr
      refine ⟨hn, leads_of_locate d names place hn hp hl, old, m, rfl, ?_⟩
      split at h
      next t ht => rw [ht, Except.ok.inj h]
      · cases h

def HasFile (d : Disk) (names : List Name) : Prop :=
  ∃ bytes mode, d.get? names = some (.file bytes mode)

theorem readText_of_leads {text : String} (h : d.Leads p names)
    (hf : d.get? names = some (.file bytes mode)) (ht : Utf8.text? bytes = some text) :
    d.readText p = .ok text := by
  simp only [readText, read, stat_of_leads h hf, bind, Except.bind, pure, Except.pure, ht]

theorem unlink_of_leads (h : d.Leads p names) (hf : d.get? names = some (.file bytes mode)) :
    d.unlink p = .ok (d.update fun fs => fs.erase names) := by
  rw [unlink, stat_of_leads h hf]
  rfl

theorem chmod_of_leads (m : Nat) (h : d.Leads p names) (hf : d.get? names = some (.file bytes mode)) :
    d.chmod p m = .ok (d.update fun fs => fs.set names (.file bytes m)) := by
  rw [chmod, stat_of_leads h hf]
  rfl

theorem write_eq_ok {d' : Disk} (hn : Path.real names ≠ []) (hp : ∀ n ∈ names, Path.Plain n)
    (hnone : d.get? (Path.real names) = none)
    (h : d.write (.ofNames names) bytes mode = .ok d') :
    d.Leads (.ofNames names) (Path.real names) ∧
      d' = d.update fun fs => fs.set (Path.real names) (.file bytes mode) := by
  obtain ⟨place, hl, h⟩ := bind_eq_ok h
  have hlead := leads_of_locate d names place hn hp hl
  obtain rfl := Except.ok.inj (hl.symm.trans hlead)
  rw [hnone] at h
  exact ⟨hlead, (Except.ok.inj h).symm⟩

theorem rename_of_leads {q : Path} {target : List Name} {bytes' : Bytes} {mode' : Nat}
    (h : d.Leads p names) (hf : d.get? names = some (.file bytes mode))
    (ht : d.Leads q target) (hg : d.get? target = some (.file bytes' mode')) (hne : target ≠ names) :
    d.rename p q = .ok (d.update fun fs => fs.move names target) := by
  have hto : d.renameTo names q = .ok (d.update fun fs => fs.move names target) := by
    simp only [renameTo, show d.locate q = _ from ht, bind, Except.bind, hf, hg]
    exact if_neg hne
  simp only [rename, show d.locate p = _ from h, bind, Except.bind, stat_of_leads h hf]
  exact hto

end

end Disk

end CodeBridge
