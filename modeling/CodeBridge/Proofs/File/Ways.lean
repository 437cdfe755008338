import CodeBridge.Proofs.File.Disks

/-!
# The way a path goes

The steps of a path are taken one after another, each from a directory.  Where they lead is a
matter of the path alone; whether they can be taken is a matter of the directories on the way.

* `walk_eq_ok_iff`      the steps can be taken when every place on the way is a directory;
* `locate_of_spared`    a path that does not pass through a directory leads where it led when only
                        that directory is gone;
* `exists_parent`       a path whose last name can be changed leads into a directory on its way;
* `Rooted.dir_of_append`   whatever has an entry lies in directories up to the root.
-/

namespace CodeBridge

/-! ## places on the way -/

/-- The places that steps are taken from, each with its last name first. -/
def Path.way (here : List Name) : List Path.Component → List (List Name)
  | [] => []
  | c :: cs => here :: Path.way (Path.step here c) cs

theorem Path.way_concat (here : List Name) (cs : List Path.Component) (c : Path.Component) :
    Path.way here (cs ++ [c]) = Path.way here cs ++ [cs.foldl Path.step here] := by
  induction cs generalizing here with
  | nil => rfl
  | cons k cs ih =>
    show here :: Path.way (Path.step here k) (cs ++ [c]) = _
    rw [ih]
    rfl

namespace Disk
variable {d d' : Disk} {p : Path} {names : List Name}

theorem walk_eq_ok_iff (d : Disk) (cs : List Path.Component) (here r : List Name) :
    d.walk here cs = .ok r ↔
      (∀ h ∈ Path.way here cs, d.entered h = .ok ()) ∧ r = cs.foldl Path.step here := by
  induction cs generalizing here with
  | nil =>
    refine ⟨fun h => ⟨nofun, (Except.ok.inj h).symm⟩, fun h => ?_⟩
    rw [h.2]
    rfl
  | cons c cs ih =>
    have hstep := ih (Path.step here c)
    constructor
    · intro h
      obtain ⟨u, he, h⟩ := bind_eq_ok h
      obtain ⟨hall, hr⟩ := hstep.mp h
      exact ⟨fun h hm => (List.mem_cons.mp hm).elim (fun e => e ▸ he) (hall h), hr⟩
    · rintro ⟨hall, hr⟩
      exact bind_eq_ok_iff.mpr ⟨(), hall here List.mem_cons_self,
        hstep.mpr ⟨fun h hm => hall h (List.mem_cons_of_mem _ hm), hr⟩⟩

theorem entered_eq_ok_iff (d : Disk) (here : List Name) :
    d.entered here = .ok () ↔ ShortName here ∧ ∃ mode, d.get? here.reverse = some (.dir mode) := by
  unfold entered ShortName
  by_cases hl : (here.head?.map fun n => decide (n.length > maxName)).getD false = true
  · rw [if_pos hl]
    exact ⟨nofun, fun h => absurd hl h.1⟩
  · rw [if_neg hl]
    cases d.get? here.reverse with
    | none => exact ⟨nofun, fun ⟨_, _, h⟩ => nomatch h⟩
    | some node =>
      cases node with
      | file bytes mode => exact ⟨nofun, fun ⟨_, _, h⟩ => nomatch h⟩
      | dir mode => exact ⟨fun _ => ⟨hl, mode, rfl⟩, fun _ => rfl⟩

/-- Where the first step of a path is taken from. -/
def start (d : Disk) (p : Path) : Option (List Name) := if p.isAbsolute then some [] else d.cwd

/-- A step of the path is taken from the directory, or from below it. -/
def Passes (d : Disk) (p : Path) (names : List Name) : Prop :=
  ∃ start, d.start p = some start ∧
    ∃ here ∈ Path.way start.reverse p.route, names <+: here.reverse

instance : Decidable (d.Passes p names) :=
  match h : d.start p with
  | none => isFalse fun ⟨_, hs, _⟩ => nomatch h.symm.trans hs
  | some start =>
    decidable_of_iff (∃ here ∈ Path.way start.reverse p.route, names <+: here.reverse)
      ⟨fun hp => ⟨start, h, hp⟩, fun ⟨_, hs, hp⟩ => Option.some.inj (h.symm.trans hs) ▸ hp⟩

/-- Where a path leads does not depend on what lies off its way. -/
theorem locate_of_way {place : Place} (hcwd : d'.cwd = d.cwd) (h : d.locate p = .ok place)
    (hway : ∀ start here, d.start p = some start → here ∈ Path.way start.reverse p.route →
      (∃ mode, d.get? here.reverse = some (.dir mode)) →
      ∃ mode, d'.get? here.reverse = some (.dir mode)) :
    d'.locate p = .ok place := by
  obtain ⟨hp, start, here, hs, hw, hn, e⟩ := (locate_eq_ok_iff d p place).mp h
  obtain ⟨hall, hr⟩ := (walk_eq_ok_iff d _ _ here).mp hw
  refine (locate_eq_ok_iff d' p place).mpr ⟨hp, start, here, hcwd ▸ hs, ?_, hn, e⟩
  refine (walk_eq_ok_iff d' _ _ here).mpr ⟨fun k hk => ?_, hr⟩
  obtain ⟨hshort, hdir⟩ := (entered_eq_ok_iff d k).mp (hall k hk)
  exact (entered_eq_ok_iff d' k).mpr ⟨hshort, hway start k hs hk hdir⟩

/-- A path keeps its place when only a directory goes that it does not pass through. -/
theorem locate_of_spared {place : Place} (hcwd : d'.cwd = d.cwd) (h : d.locate p = .ok place)
    (hpass : ¬ d.Passes p names)
    (hdirs : ∀ k mode, ¬ names <+: k → d.get? k = some (.dir mode) →
      ∃ mode, d'.get? k = some (.dir mode)) :
    d'.locate p = .ok place :=
  locate_of_way hcwd h fun start here hs hm ⟨mode, hd⟩ =>
    hdirs _ mode (fun hp => hpass ⟨start, hs, here, hm, hp⟩) hd

/-! ## the last step -/

theorem exists_name_of_not_endsInStep (h : endsInStep p = false) :
    ∃ cs n, p.route = cs ++ [.name n] := by
  unfold endsInStep at h
  split at h
  next n hn =>
    obtain ⟨cs, hc⟩ := List.getLast?_eq_some_iff.mp hn
    exact ⟨cs, n, hc⟩
  · cases h

/-- A path that does not ask for a directory ends in a name that can be changed, or it leads to the
root. -/
theorem endsInStep_of_not_asksDir {place : Place} (h : asksDir p = false)
    (hl : d.locate p = .ok place) : endsInStep p = false ∨ place.names = [] := by
  obtain ⟨init, last, hparts⟩ : ∃ init last, Path.parts p.bytes = init ++ [last] := by
    obtain ⟨init, last, e⟩ := (List.eq_nil_or_concat (Path.parts p.bytes)).resolve_left
      (piecesAt_ne_nil Path.separator p.bytes)
    exact ⟨init, last, e.trans (List.concat_eq_append)⟩
  have hlast : (Path.parts p.bytes).getLast? = some last := by
    rw [hparts]
    exact List.getLast?_concat
  simp only [asksDir, hlast, Option.some.injEq, Bool.or_eq_false_iff, decide_eq_false_iff_not] at h
  obtain ⟨⟨hnil, hdot⟩, hdots⟩ := h
  have hname : Path.component? last = some (.name last) :=
    Path.component?_eq_name_iff.mpr ⟨rfl, hnil, hdot, hdots⟩
  have hsteps : ((Path.parts p.bytes).filterMap Path.component?).getLast? = some (.name last) := by
    rw [hparts, List.filterMap_append, List.filterMap_cons_some hname]
    exact List.getLast?_concat
  have hcomp : p.components.getLast? = some (.name last) := by
    have hcons : ∀ c, (c :: (Path.parts p.bytes).filterMap Path.component?).getLast? =
        some (.name last) := fun c => by rw [List.getLast?_cons, hsteps]; rfl
    unfold Path.components
    dsimp only
    split
    · exact hcons _
    · split
      · exact hcons _
      · exact hsteps
  rcases Path.route_getLast? p with hroute | hroute
  · obtain ⟨-, start, here, hs, hw, -, rfl⟩ := (locate_eq_ok_iff d p place).mp hl
    have habs : p.isAbsolute = true := by
      refine Path.isAbsolute_iff.mpr ?_
      unfold Path.route at hroute
      split at hroute
      next cs hc => exact hc ▸ List.mem_cons_self
      · exact hroute ▸ List.mem_cons_self
    rw [if_pos habs] at hs
    obtain rfl := Option.some.inj hs
    rw [hroute] at hw
    exact .inr (congrArg List.reverse (walk_eq_ok d _ _ here hw))
  · unfold endsInStep
    rw [hroute, hcomp, hlast]
    exact .inl (decide_eq_false fun e => hdot (Option.some.inj e))

/-- A path whose last name can be changed leads into a directory on its way. -/
theorem exists_parent {place : Place} (h : d.locate p = .ok place) (hf : place.fixed = false) :
    ∃ dir n, place.names = dir ++ [n] ∧ (∃ mode, d.get? dir = some (.dir mode)) ∧
      ∀ names, names <+: dir → d.Passes p names := by
  obtain ⟨-, start, here, hs, hw, -, rfl⟩ := (locate_eq_ok_iff d p place).mp h
  obtain ⟨hall, rfl⟩ := (walk_eq_ok_iff d _ _ here).mp hw
  obtain ⟨cs, n, hc⟩ := exists_name_of_not_endsInStep hf
  have hmem : cs.foldl Path.step start.reverse ∈ Path.way start.reverse p.route := by
    rw [hc, Path.way_concat]
    exact List.mem_concat_self
  refine ⟨(cs.foldl Path.step start.reverse).reverse, n, ?_, ?_, fun names hp => ?_⟩
  · show (p.route.foldl Path.step start.reverse).reverse = _
    rw [hc, List.foldl_append]
    exact List.reverse_cons
  · exact ((entered_eq_ok_iff d _).mp (hall _ hmem)).2
  · exact ⟨start, hs, _, hmem, hp⟩

end Disk

/-! ## entries in directories -/

namespace FileSystem

/-- Every entry lies in a directory. -/
def Rooted (fs : FileSystem) : Prop :=
  ∀ k ∈ fs.keys, ((fs.get? k.dropLast).any Node.isDir) = true

instance (fs : FileSystem) : Decidable fs.Rooted := inferInstanceAs (Decidable (∀ k ∈ fs.keys, _))

theorem get?_of_mem_keys (fs : FileSystem) (names : List Name) (h : names ∈ fs.keys) :
    ∃ node, fs.get? names = some node := by
  unfold get?
  by_cases hn : names = []
  · exact ⟨_, if_pos hn⟩
  · rw [if_neg hn]
    revert h
    unfold keys
    induction fs.nodes with
    | nil => exact nofun
    | cons x l ih =>
      obtain ⟨k, v⟩ := x
      intro h
      by_cases hk : k = names
      · exact ⟨v, if_pos hk⟩
      · obtain ⟨node, hg⟩ := ih ((List.mem_cons.mp h).resolve_left (Ne.symm hk))
        exact ⟨node, (if_neg hk).trans hg⟩

theorem below_isEmpty_iff (fs : FileSystem) (dir : List Name) :
    (fs.below dir).isEmpty = true ↔ ∀ k ∈ fs.keys, dir <+: k → k = dir := by
  unfold below keys
  rw [List.isEmpty_iff, List.filter_eq_nil_iff, List.forall_mem_map]
  refine forall₂_congr fun x _ => ?_
  simp only [Bool.and_eq_true, List.isPrefixOf_iff_prefix, decide_eq_true_eq, not_and,
    Decidable.not_not]

namespace Rooted
variable {fs : FileSystem}

theorem dir_of_concat (h : fs.Rooted) (dir : List Name) (n : Name) (node : Node)
    (hg : fs.get? (dir ++ [n]) = some node) : ∃ mode, fs.get? dir = some (.dir mode) := by
  have hne : dir ++ [n] ≠ [] := List.append_ne_nil_of_right_ne_nil _ (List.cons_ne_nil n [])
  have hany := h _ (fs.mem_keys_of_get? _ node hne hg)
  rw [List.dropLast_concat] at hany
  cases ha : fs.get? dir with
  | none => rw [ha] at hany; cases hany
  | some above =>
    rw [ha] at hany
    cases above with
    | file bytes mode => cases hany
    | dir mode => exact ⟨mode, rfl⟩

theorem dir_of_append (h : fs.Rooted) (dir rest : List Name) (node : Node) (hr : rest ≠ [])
    (hg : fs.get? (dir ++ rest) = some node) : ∃ mode, fs.get? dir = some (.dir mode) := by
  induction rest generalizing dir with
  | nil => exact absurd rfl hr
  | cons n rest ih =>
    rw [← List.singleton_append, ← List.append_assoc] at hg
    by_cases hrest : rest = []
    · rw [hrest, List.append_nil] at hg
      exact h.dir_of_concat dir n node hg
    · obtain ⟨mode, hd⟩ := ih (dir ++ [n]) hrest hg
      exact h.dir_of_concat dir n _ hd

theorem empty_below {names rest : List Name} (h : fs.Rooted)
    (hn : ∀ m, fs.get? names ≠ some (.dir m)) (hr : rest ≠ []) :
    fs.get? (names ++ rest) = none := by
  cases hg : fs.get? (names ++ rest) with
  | none => rfl
  | some node =>
    obtain ⟨m, hd⟩ := h.dir_of_append names rest node hr hg
    exact absurd hd (hn m)

theorem nothing_below {names rest : List Name} {bytes : Bytes} {mode : Nat} (h : fs.Rooted)
    (hf : fs.get? names = some (.file bytes mode)) (hr : rest ≠ []) :
    fs.get? (names ++ rest) = none :=
  h.empty_below (fun m => by rw [hf]; exact nofun) hr

end Rooted

end FileSystem

end CodeBridge
