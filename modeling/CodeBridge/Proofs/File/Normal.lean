import CodeBridge.Proofs.File.Paths
import CodeBridge.Tool.Document

/-!
# Normal form

Taking the steps of a path is a walk from the root: a name leads down, `.` nowhere, and `..` up, but
never above the root.  A walk can be broken off anywhere and taken up again where it has led, and so
a path can be brought into normal form before another one is seen from it.

* `steps_join`, `names_join`   a path seen from another one is walked after it;
* `names_join_ofNames`   it may as well be seen from the normal form;
* `names_join_name`, `names_join_climb`   where one more name leads, and any number of `..`;
* `Settled`   absolute and without steps, as everything written plainly is (`settled_ofNames`);
* `LeadsOn`   where each kind of part leads from the place that a path has led to;
* `normalizePath_settles`   normal form is reached at once, and it stands for the path wherever
                            another one is seen from it, so also as the root of a workspace.
-/

namespace CodeBridge

namespace Path

variable {p q : Path}

/-! ## joining -/

theorem join_of_absolute (p : Path) (h : q.isAbsolute = true) : p.join q = q := if_pos h

/-- A path that is not absolute is written behind the other one, and between them stands a separator
unless the other one is empty. -/
theorem join_cases (p : Path) (h : q.isAbsolute = false) :
    (p.bytes = [] ∧ p.join q = q) ∨
      (∃ init, p.bytes = init ++ [separator] ∧ p.join q = ⟨init ++ separator :: q.bytes⟩) ∨
      (p.bytes ≠ [] ∧ p.join q = ⟨p.bytes ++ separator :: q.bytes⟩) := by
  have hq : ¬ q.isAbsolute = true := Bool.eq_false_iff.mp h
  unfold join
  rw [if_neg hq]
  by_cases hnil : p.bytes = []
  · exact .inl ⟨hnil, by rw [if_pos (.inl hnil), hnil, List.nil_append]⟩
  by_cases hlast : p.bytes.getLast? = some separator
  · obtain ⟨init, hinit⟩ := List.getLast?_eq_some_iff.mp hlast
    refine .inr (.inl ⟨init, hinit, ?_⟩)
    rw [if_pos (.inr hlast), hinit, List.append_assoc, List.singleton_append]
  · exact .inr (.inr ⟨hnil, if_neg (not_or.mpr ⟨hnil, hlast⟩)⟩)

theorem isAbsolute_append {bs : Bytes} (h : bs ≠ []) (rest : Bytes) :
    isAbsolute ⟨bs ++ rest⟩ = isAbsolute ⟨bs⟩ := by
  obtain ⟨b, bs, rfl⟩ := List.exists_cons_of_ne_nil h
  rfl

theorem isAbsolute_join (p : Path) (h : q.isAbsolute = false) :
    (p.join q).isAbsolute = p.isAbsolute := by
  obtain ⟨bytes⟩ := p
  rcases join_cases ⟨bytes⟩ h with ⟨hnil, hjoin⟩ | ⟨init, hinit, hjoin⟩ | ⟨hne, hjoin⟩
  · obtain rfl : bytes = [] := hnil
    rw [hjoin, h]
    rfl
  · obtain rfl : bytes = init ++ [separator] := hinit
    rw [hjoin, List.append_cons]
    exact isAbsolute_append (List.append_ne_nil_of_right_ne_nil init (List.cons_ne_nil _ _)) q.bytes
  · rw [hjoin]
    exact isAbsolute_append hne _

/-! ## walking -/

theorem foldl_step_components (p : Path) (above : List Name) :
    p.components.foldl step above = p.steps.foldl step above := by
  unfold components
  split
  · rfl
  · split <;> rfl

/-- A path seen from another one is walked after it. -/
theorem steps_join (p : Path) (h : q.isAbsolute = false) :
    (p.join q).steps = p.steps ++ q.steps := by
  obtain ⟨bytes⟩ := p
  rcases join_cases ⟨bytes⟩ h with ⟨hnil, hjoin⟩ | ⟨init, hinit, hjoin⟩ | ⟨-, hjoin⟩
  · obtain rfl : bytes = [] := hnil
    rw [hjoin]
    rfl
  · obtain rfl : bytes = init ++ [separator] := hinit
    have hnothing : steps ⟨[]⟩ = [] := rfl
    rw [hjoin, steps_append, steps_append, hnothing, List.append_nil]
  · rw [hjoin, steps_append]

/-- Where a walk leads: only what the path is made of matters, and where it starts. -/
theorem reverse_names (cwd p : Path) :
    (names cwd p).reverse =
      p.steps.foldl step (if p.isAbsolute then [] else cwd.steps.foldl step []) := by
  unfold names resolve
  rw [List.reverse_reverse, foldl_step_components]
  cases hp : p.isAbsolute with
  | true =>
    rw [join_of_absolute cwd hp]
    rfl
  | false =>
    rw [steps_join cwd hp, List.foldl_append]
    rfl

theorem names_join (cwd p : Path) (h : q.isAbsolute = false) :
    names cwd (p.join q) = (q.steps.foldl step (names cwd p).reverse).reverse := by
  rw [reverse_names cwd p, ← isAbsolute_join p h, ← List.foldl_append, ← steps_join p h,
    ← reverse_names, List.reverse_reverse]

theorem names_append (cwd : Path) (hp : p.bytes ≠ []) (hq : q.isAbsolute = false) :
    names cwd ⟨p.bytes ++ separator :: q.bytes⟩ = names cwd (p.join q) := by
  rw [← List.reverse_inj, reverse_names, reverse_names, steps_append, isAbsolute_append hp,
    steps_join p hq, isAbsolute_join p hq]

/-! ## from normal form -/

theorem plain_of_mem_names (cwd p : Path) : ∀ n ∈ names cwd p, Plain n :=
  plain_of_mem_resolve (cwd.join p)

/-- A path written plainly leads where it says, from everywhere. -/
theorem names_ofNames (cwd : Path) (ns : List Name) (h : ∀ n ∈ ns, Plain n) :
    names cwd (ofNames ns) = ns := by
  unfold names
  rw [join_of_absolute cwd (isAbsolute_ofNames ns), resolve_ofNames ns h]

/-- It makes no difference whether a path is seen from another one or from its normal form. -/
theorem names_join_ofNames (cwd p q : Path) :
    names cwd ((ofNames (names cwd p)).join q) = names cwd (p.join q) := by
  cases hq : q.isAbsolute with
  | true => rw [join_of_absolute _ hq, join_of_absolute _ hq]
  | false =>
    rw [names_join cwd _ hq, names_join cwd p hq,
      names_ofNames cwd _ (plain_of_mem_names cwd p)]

/-- A name leads into the directory that was reached. -/
theorem names_join_name (cwd p : Path) (n : Name) (h : Plain n) :
    names cwd (p.join ⟨n⟩) = names cwd p ++ [n] := by
  have hplain := plain_of_mem_names cwd p
  rw [← names_join_ofNames, join_ofNames _ n hplain h]
  refine names_ofNames cwd _ fun m hm => ?_
  rcases List.mem_append.mp hm with hm | hm
  · exact hplain m hm
  · exact List.mem_singleton.mp hm ▸ h

def climb : Nat → Path
  | 0 => ⟨[]⟩
  | k + 1 => (climb k).join ⟨[dot, dot]⟩

theorem isAbsolute_climb (k : Nat) : (climb k).isAbsolute = false := by
  induction k with
  | zero => rfl
  | succ k ih => exact (isAbsolute_join (climb k) rfl).trans ih

theorem steps_climb (k : Nat) : (climb k).steps = List.replicate k .parent := by
  induction k with
  | zero => rfl
  | succ k ih =>
    have hup : steps ⟨[dot, dot]⟩ = [.parent] := rfl
    unfold climb
    rw [steps_join (climb k) rfl, ih, hup, ← List.replicate_succ']

theorem foldl_step_parent (k : Nat) (above : List Name) :
    (List.replicate k Component.parent).foldl step above = above.drop k := by
  induction k generalizing above with
  | zero => rfl
  | succ k ih =>
    rw [List.replicate_succ, List.foldl_cons, ih]
    exact List.drop_tail

/-- As many names are left behind as there are `..`, and none when there are no more: the root is
above itself. -/
theorem names_join_climb (cwd p : Path) (k : Nat) :
    names cwd (p.join (climb k)) = (names cwd p).take ((names cwd p).length - k) := by
  rw [names_join cwd p (isAbsolute_climb k), steps_climb, foldl_step_parent, List.drop_reverse,
    List.reverse_reverse]

/-! ## what normal form looks like -/

/-- A path that is absolute and has no steps. -/
structure Settled (p : Path) : Prop where
  absolute : p.isAbsolute = true
  no_current : .current ∉ p.components
  no_parent : .parent ∉ p.components

theorem settled_ofNames (ns : List Name) (h : ∀ n ∈ ns, Plain n) : Settled (ofNames ns) where
  absolute := isAbsolute_ofNames ns
  no_current := by
    rw [components_ofNames ns h]
    simp
  no_parent := by
    rw [components_ofNames ns h]
    simp

/-- What a path that is not absolute is seen from. -/
def base (cwd : Option (List Name)) : Path := ofNames (cwd.getD [])

end Path

/-! ## the normal form of a path -/

section
variable {cwd : Option (List Name)} {p : Path}

theorem normalizePath_eq_ok (h : p.isAbsolute = true ∨ cwd.isSome = true) :
    normalizePath cwd p = .ok (.ofNames (Path.names (.base cwd) p)) := by
  unfold normalizePath resolvePath
  cases hp : p.isAbsolute with
  | true =>
    unfold Path.names
    rw [Path.join_of_absolute _ hp]
    rfl
  | false =>
    obtain ⟨dir, rfl⟩ := Option.isSome_iff_exists.mp (h.resolve_left (by rw [hp]; exact nofun))
    rfl

theorem seen_join (h : p.isAbsolute = true ∨ cwd.isSome = true) (q : Path) :
    (p.join q).isAbsolute = true ∨ cwd.isSome = true := by
  refine h.imp_left fun hp => ?_
  cases hq : q.isAbsolute with
  | true => rw [Path.join_of_absolute p hq, hq]
  | false => rw [Path.isAbsolute_join p hq, hp]

theorem resolve_eq_ok {host : Host} (hcwd : host.disk.cwd = cwd)
    (h : p.isAbsolute = true ∨ cwd.isSome = true) (file : Path) :
    Tool.resolve { host with root := p } file =
      .ok (.ofNames (Path.names (.base cwd) (p.join file))) := by
  show (normalizePath host.disk.cwd (p.join file)).mapError _ = _
  rw [hcwd, normalizePath_eq_ok (seen_join h file)]
  rfl

end

/-- Where one more part leads from the place that a path has led to. -/
structure LeadsOn (cwd : Option (List Name)) (p : Path) (names : List Name) : Prop where
  stay : normalizePath cwd (p.join ⟨[Path.dot]⟩) = .ok (.ofNames names)
  down : ∀ n, Path.Plain n → normalizePath cwd (p.join ⟨n⟩) = .ok (.ofNames (names ++ [n]))
  /-- no further than the root -/
  up : ∀ k, normalizePath cwd (p.join (.climb k)) =
    .ok (.ofNames (names.take (names.length - k)))
  /-- any number of separators says the same -/
  apart : p.bytes ≠ [] → ∀ q : Path, q.isAbsolute = false →
    normalizePath cwd ⟨p.bytes ++ Path.separator :: q.bytes⟩ = normalizePath cwd (p.join q)

theorem leadsOn {cwd : Option (List Name)} {p : Path}
    (h : p.isAbsolute = true ∨ cwd.isSome = true) :
    LeadsOn cwd p (Path.names (.base cwd) p) where
  stay := by
    have hdot : Path.steps ⟨[Path.dot]⟩ = [] := rfl
    rw [normalizePath_eq_ok (seen_join h _), Path.names_join _ _ rfl, hdot, List.foldl_nil,
      List.reverse_reverse]
  down n hn := by rw [normalizePath_eq_ok (seen_join h _), Path.names_join_name _ _ n hn]
  up k := by rw [normalizePath_eq_ok (seen_join h _), Path.names_join_climb]
  apart hp q hq := by
    have habs : Path.isAbsolute ⟨p.bytes ++ Path.separator :: q.bytes⟩ = p.isAbsolute :=
      Path.isAbsolute_append hp _
    rw [normalizePath_eq_ok (seen_join h q), normalizePath_eq_ok (h.imp_left habs.trans),
      Path.names_append _ hp hq]

/-- **A path that is absolute or seen from somewhere has a normal form, which is absolute, without
steps and its own normal form.  A path seen from it leads where it leads when seen from the path
itself: a name leads down, `.` nowhere, and `..` up, to the root at most.  So a tool finds the same
file whether the root of the workspace is in normal form or not.** -/
theorem normalizePath_settles (cwd : Option (List Name)) (p : Path)
    (h : p.isAbsolute = true ∨ cwd.isSome = true) :
    ∃ names, normalizePath cwd p = .ok (.ofNames names) ∧ Path.Settled (.ofNames names) ∧
      (∀ cwd', normalizePath cwd' (.ofNames names) = .ok (.ofNames names)) ∧
      (∀ q, ∃ place, normalizePath cwd (p.join q) = .ok place ∧
        normalizePath cwd ((Path.ofNames names).join q) = .ok place) ∧
      LeadsOn cwd p names ∧
      ∀ (host : Host) (file : Path), host.disk.cwd = cwd →
        ∃ place, Tool.resolve { host with root := p } file = .ok place ∧
          Tool.resolve { host with root := .ofNames names } file = .ok place := by
  have hplain := Path.plain_of_mem_names (.base cwd) p
  have habs := Path.isAbsolute_ofNames (Path.names (.base cwd) p)
  have hjoin (q : Path) := Path.names_join_ofNames (.base cwd) p q
  refine ⟨_, normalizePath_eq_ok h, Path.settled_ofNames _ hplain, fun cwd' => ?_, fun q => ?_,
    leadsOn h, fun host file hcwd => ?_⟩
  · rw [normalizePath_eq_ok (.inl habs), Path.names_ofNames _ _ hplain]
  · refine ⟨_, normalizePath_eq_ok (seen_join h q), ?_⟩
    rw [normalizePath_eq_ok (seen_join (.inl habs) q), hjoin q]
  · refine ⟨_, resolve_eq_ok hcwd h file, ?_⟩
    rw [resolve_eq_ok hcwd (.inl habs), hjoin file]

/-- A root with a step above it, an empty part and a name that is left again. -/
def windingRoot : Path := ⟨Utf8.ofString "/../w/./x//.."⟩

def emptyWorkspace (root : Path) : Host := { disk := ⟨⟨[]⟩, none⟩, root := root }

/-- From a winding root, and from the plain way of writing it, a path that climbs to the root of the
disk on its way leads to the same place, and so a tool finds one file. -/
theorem windingRoot_settles :
    windingRoot.isAbsolute = true ∧ Path.Settled ⟨Utf8.ofString "/w"⟩ ∧
      normalizePath none ⟨Utf8.ofString "/w"⟩ = .ok ⟨Utf8.ofString "/w"⟩ ∧
      normalizePath none (windingRoot.join ⟨Utf8.ofString "a/../..//../b"⟩) =
        .ok ⟨Utf8.ofString "/b"⟩ ∧
      normalizePath none (Path.join ⟨Utf8.ofString "/w"⟩ ⟨Utf8.ofString "a/../..//../b"⟩) =
        .ok ⟨Utf8.ofString "/b"⟩ ∧
      (∃ names, Path.ofNames names = ⟨Utf8.ofString "/w"⟩ ∧ LeadsOn none windingRoot names) ∧
      ∃ place, Tool.resolve (emptyWorkspace windingRoot) ⟨Utf8.ofString "a"⟩ = .ok place ∧
        Tool.resolve (emptyWorkspace ⟨Utf8.ofString "/w"⟩) ⟨Utf8.ofString "a"⟩ = .ok place := by
  have habs : windingRoot.isAbsolute = true := rfl
  have hroot : normalizePath none windingRoot = .ok ⟨Utf8.ofString "/w"⟩ := rfl
  obtain ⟨names, hnames, hsettled, hfixed, hseen, hleads, hfile⟩ :=
    normalizePath_settles none windingRoot (.inl habs)
  have hplain : Path.ofNames names = ⟨Utf8.ofString "/w"⟩ :=
    Except.ok.inj (hnames.symm.trans hroot)
  rw [hplain] at hsettled hfixed
  obtain ⟨place, hwinding, hstraight⟩ := hseen ⟨Utf8.ofString "a/../..//../b"⟩
  have hplace : normalizePath none (windingRoot.join ⟨Utf8.ofString "a/../..//../b"⟩) =
    .ok ⟨Utf8.ofString "/b"⟩ := rfl
  obtain rfl : place = ⟨Utf8.ofString "/b"⟩ := Except.ok.inj (hwinding.symm.trans hplace)
  rw [hplain] at hstraight
  have hfound := hfile (emptyWorkspace windingRoot) ⟨Utf8.ofString "a"⟩ rfl
  rw [hplain] at hfound
  exact ⟨habs, hsettled, hfixed none, hwinding, hstraight, ⟨names, hplain, hleads⟩, hfound⟩

end CodeBridge
