import CodeBridge.File.Path

/-!
# Paths written plainly

`ofNames` writes a list of names as an absolute path, and `components` reads the names back.  A
name that can be read back is `Plain`; the names that `resolve` leaves are.

* `mem_components_iff`, `name_mem_components_iff`   where the components of a path are from;
* `steps_append`   a path cut at a separator;
* `parts_ofNames`, `components_ofNames`   a path written plainly has its names as components;
* `resolve_ofNames`   it is in normal form;
* `real`, `route_ofNames`   the names that are left of it past the links;
* `parent_ofNames`, `join_ofNames`   its last name can be taken off and another one put there.
-/

namespace CodeBridge

/-! ## pieces of a joined list -/

theorem flatMap_cons_eq_joinWith {α : Type} (sep : α) (p : List α) (ps : List (List α)) :
    (p :: ps).flatMap (sep :: ·) = sep :: joinWith sep (p :: ps) := by
  induction ps generalizing p with
  | nil => simp [joinWith]
  | cons q ps ih => rw [List.flatMap_cons, ih q, joinWith_cons_cons, List.cons_append]

section
variable {α : Type} [DecidableEq α] (sep : α)

theorem piecesAt_append_separator (cs ds : List α) :
    piecesAt sep (cs ++ sep :: ds) = piecesAt sep cs ++ piecesAt sep ds := by
  induction cs with
  | nil => exact piecesAt_separator sep ds
  | cons c cs ih =>
    rw [List.cons_append]
    by_cases hc : c = sep
    · subst hc
      rw [piecesAt_separator, piecesAt_separator, ih, List.cons_append]
    · obtain ⟨p, ps, hp⟩ := List.exists_cons_of_ne_nil (piecesAt_ne_nil sep cs)
      rw [piecesAt, if_neg hc, piecesAt, if_neg hc, ih, hp]
      rfl

theorem piecesAt_of_not_mem (p : List α) (h : sep ∉ p) : piecesAt sep p = [p] := by
  induction p with
  | nil => rfl
  | cons c p ih =>
    have hc : ¬ c = sep := fun e => h (e ▸ List.mem_cons_self)
    rw [piecesAt, if_neg hc, ih fun hm => h (List.mem_cons_of_mem _ hm)]

theorem piecesAt_append (p rest : List α) (h : sep ∉ p) :
    piecesAt sep (p ++ sep :: rest) = p :: piecesAt sep rest := by
  rw [piecesAt_append_separator, piecesAt_of_not_mem sep p h, List.singleton_append]

theorem piecesAt_joinWith (p : List α) (ps : List (List α)) (h : ∀ q ∈ p :: ps, sep ∉ q) :
    piecesAt sep (joinWith sep (p :: ps)) = p :: ps := by
  induction ps generalizing p with
  | nil => exact piecesAt_of_not_mem sep p (h p List.mem_cons_self)
  | cons q ps ih =>
    rw [joinWith_cons_cons, piecesAt_append sep p _ (h p List.mem_cons_self),
      ih q fun r hr => h r (List.mem_cons_of_mem _ hr)]

theorem not_mem_of_mem_piecesAt (cs : List α) : ∀ p ∈ piecesAt sep cs, sep ∉ p := by
  induction cs with
  | nil =>
    intro p hp
    rw [List.mem_singleton.mp hp]
    exact List.not_mem_nil
  | cons c cs ih =>
    intro p hp
    unfold piecesAt at hp
    split at hp
    · rcases List.mem_cons.mp hp with rfl | hp
      · exact List.not_mem_nil
      · exact ih p hp
    next hc =>
      have hcs : ∀ q, sep ∉ q → sep ∉ c :: q := fun q hq hm =>
        (List.mem_cons.mp hm).elim (fun e => hc e.symm) hq
      split at hp
      · rw [List.mem_singleton.mp hp]
        exact hcs [] List.not_mem_nil
      next q qs hq =>
        rcases List.mem_cons.mp hp with rfl | hp
        · exact hcs q (ih q (hq ▸ List.mem_cons_self))
        · exact ih p (hq ▸ List.mem_cons_of_mem _ hp)

end

namespace Path

/-! ## components -/

theorem mem_components_iff {p : Path} {c : Component} : c ∈ p.components ↔
    (c = .root ∧ p.isAbsolute = true) ∨
      (c = .current ∧ p.isAbsolute = false ∧ (parts p.bytes).head? = some [dot]) ∨
      ∃ part ∈ parts p.bytes, component? part = some c := by
  unfold components
  by_cases ha : p.isAbsolute = true
  · rw [if_pos ha, List.mem_cons, List.mem_filterMap, ha]
    simp
  · rw [if_neg ha, Bool.eq_false_iff.mpr ha]
    by_cases hd : (parts p.bytes).head? = some [dot]
    · rw [if_pos hd, List.mem_cons, List.mem_filterMap]
      simp [hd]
    · rw [if_neg hd, List.mem_filterMap]
      simp [hd]

theorem component?_ne_root (part : Bytes) : component? part ≠ some .root := by
  unfold component?
  split
  · exact nofun
  · split <;> exact nofun

theorem isAbsolute_iff {p : Path} : p.isAbsolute = true ↔ .root ∈ p.components := by
  rw [mem_components_iff]
  refine ⟨fun h => .inl ⟨rfl, h⟩, ?_⟩
  rintro (⟨-, h⟩ | ⟨h, -⟩ | ⟨part, -, h⟩)
  · exact h
  · cases h
  · exact absurd h (component?_ne_root part)

theorem component?_eq_name_iff {part n : Bytes} :
    component? part = some (.name n) ↔ part = n ∧ n ≠ [] ∧ n ≠ [dot] ∧ n ≠ [dot, dot] := by
  unfold component?
  split
  next h => exact iff_of_false nofun fun ⟨he, h₀, h₁, _⟩ => h.elim (he ▸ h₀) (he ▸ h₁)
  next h =>
    split
    next h₂ => exact iff_of_false nofun fun ⟨he, _, _, h₃⟩ => h₃ (he ▸ h₂)
    next h₂ =>
      rw [Option.some.injEq, Component.name.injEq]
      exact ⟨fun he => he ▸ ⟨rfl, fun e => h (.inl e), fun e => h (.inr e), h₂⟩, And.left⟩

theorem name_mem_components_iff {p : Path} {n : Name} : .name n ∈ p.components ↔
    n ∈ parts p.bytes ∧ n ≠ [] ∧ n ≠ [dot] ∧ n ≠ [dot, dot] := by
  rw [mem_components_iff]
  constructor
  · rintro (⟨h, -⟩ | ⟨h, -⟩ | ⟨part, hpart, h⟩)
    · cases h
    · cases h
    · obtain ⟨rfl, hn⟩ := component?_eq_name_iff.mp h
      exact ⟨hpart, hn⟩
  · rintro ⟨hpart, hn⟩
    exact .inr (.inr ⟨n, hpart, component?_eq_name_iff.mpr ⟨rfl, hn⟩⟩)

/-- What a path is made of, wherever it starts. -/
def steps (p : Path) : List Component := (parts p.bytes).filterMap component?

theorem steps_append (bs rest : Bytes) :
    steps ⟨bs ++ separator :: rest⟩ = steps ⟨bs⟩ ++ steps ⟨rest⟩ := by
  unfold steps parts
  rw [piecesAt_append_separator, List.filterMap_append]

/-! ## names -/

/-- A part of a path that is neither empty nor a step. -/
structure Plain (n : Name) : Prop where
  nonempty : n ≠ []
  not_dot : n ≠ [dot]
  not_dots : n ≠ [dot, dot]
  undivided : separator ∉ n

theorem component?_of_plain (n : Name) (h : Plain n) : component? n = some (.name n) :=
  component?_eq_name_iff.mpr ⟨rfl, h.nonempty, h.not_dot, h.not_dots⟩

theorem plain_of_mem_components (p : Path) (n : Name) (h : .name n ∈ p.components) : Plain n := by
  obtain ⟨hpart, hnonempty, hdot, hdots⟩ := name_mem_components_iff.mp h
  exact ⟨hnonempty, hdot, hdots, not_mem_of_mem_piecesAt separator p.bytes n hpart⟩

theorem mem_foldl_step (cs : List Component) (above : List Name) (n : Name)
    (h : n ∈ cs.foldl step above) : n ∈ above ∨ .name n ∈ cs := by
  induction cs generalizing above with
  | nil => exact .inl h
  | cons c cs ih =>
    rcases ih (step above c) h with hm | hm
    · cases c with
      | root => exact .inl hm
      | current => exact .inl hm
      | parent => exact .inl (List.mem_of_mem_tail hm)
      | name k =>
        rcases List.mem_cons.mp hm with rfl | hm
        · exact .inr List.mem_cons_self
        · exact .inl hm
    · exact .inr (List.mem_cons_of_mem _ hm)

/-- Taking the steps of a path leaves names that are no steps. -/
theorem plain_of_mem_resolve (p : Path) (n : Name) (h : n ∈ resolve p.components) : Plain n := by
  have hm := mem_foldl_step p.components [] n (List.mem_reverse.mp h)
  exact plain_of_mem_components p n (hm.resolve_left List.not_mem_nil)

/-! ## paths of names -/

theorem bytes_ofNames (n : Name) (ns : List Name) :
    (ofNames (n :: ns)).bytes = separator :: joinWith separator (n :: ns) :=
  flatMap_cons_eq_joinWith separator n ns

theorem isAbsolute_ofNames (ns : List Name) : (ofNames ns).isAbsolute = true := by
  cases ns <;> rfl

theorem parts_ofNames (n : Name) (ns : List Name) (h : ∀ m ∈ n :: ns, Plain m) :
    parts (ofNames (n :: ns)).bytes = [] :: n :: ns := by
  rw [parts, bytes_ofNames, piecesAt_separator,
    piecesAt_joinWith separator n ns fun m hm => (h m hm).undivided]

theorem filterMap_component? (ns : List Name) (h : ∀ n ∈ ns, Plain n) :
    ns.filterMap component? = ns.map .name := by
  induction ns with
  | nil => rfl
  | cons n ns ih =>
    rw [List.filterMap_cons, component?_of_plain n (h n List.mem_cons_self)]
    show Component.name n :: ns.filterMap component? = _
    rw [ih fun m hm => h m (List.mem_cons_of_mem _ hm)]
    rfl

theorem components_ofNames (ns : List Name) (h : ∀ n ∈ ns, Plain n) :
    (ofNames ns).components = .root :: ns.map .name := by
  unfold components
  rw [if_pos (isAbsolute_ofNames ns)]
  cases ns with
  | nil => rfl
  | cons n ns =>
    rw [parts_ofNames n ns h]
    show Component.root :: (n :: ns).filterMap component? = _
    rw [filterMap_component? (n :: ns) h]

theorem foldl_step_names (ns above : List Name) :
    (ns.map Component.name).foldl step above = ns.reverse ++ above := by
  induction ns generalizing above with
  | nil => rfl
  | cons n ns ih =>
    show (ns.map Component.name).foldl step (n :: above) = _
    rw [ih, List.reverse_cons, List.append_assoc]
    rfl

theorem resolve_ofNames (ns : List Name) (h : ∀ n ∈ ns, Plain n) :
    resolve (ofNames ns).components = ns := by
  rw [components_ofNames ns h]
  show ((ns.map Component.name).foldl step []).reverse = ns
  rw [foldl_step_names, List.append_nil, List.reverse_reverse]

/-! ## links -/

theorem followLinks_suffix (cs : List Component) : followLinks cs <:+ cs := by
  fun_induction followLinks cs with
  | case1 a b c cs hlink ih =>
    exact ih.trans (List.suffix_append [Component.name a, .name b, .name c] cs)
  | case2 a b c cs hlink => exact List.suffix_rfl
  | case3 cs hshort => exact List.suffix_rfl

/-- The last step of a path is the last of its components, unless all of them are links. -/
theorem route_getLast? (p : Path) :
    p.route = [.root] ∨ p.route.getLast? = p.components.getLast? := by
  unfold route
  split
  next cs hc =>
    by_cases hf : followLinks cs = []
    · exact .inl (congrArg _ hf)
    · obtain ⟨links, e⟩ := followLinks_suffix cs
      have hlast : cs.getLast? = (followLinks cs).getLast? := by
        rw [← e, List.getLast?_append, e, List.getLast?_eq_some_getLast hf]
        rfl
      exact .inr (by rw [hc, List.getLast?_cons, List.getLast?_cons, hlast])
  · exact .inr rfl

/-- The names that are left once the links they begin with have been followed. -/
def real : List Name → List Name
  | a :: b :: c :: ns => if linksToRoot a b c then real ns else a :: b :: c :: ns
  | ns => ns

theorem followLinks_names (ns : List Name) :
    followLinks (ns.map .name) = (real ns).map .name := by
  fun_induction real ns with
  | case1 a b c ns hlink ih =>
    simp only [List.map_cons, followLinks, hlink, if_true]
    exact ih
  | case2 a b c ns hlink => simp only [List.map_cons, followLinks, if_neg hlink]
  | case3 ns hshort =>
    match ns, hshort with
    | [], _ => rfl
    | [_], _ => rfl
    | [_, _], _ => rfl
    | a :: b :: c :: ns, hshort => exact absurd rfl (hshort a b c ns)

theorem route_ofNames (ns : List Name) (h : ∀ n ∈ ns, Plain n) :
    (ofNames ns).route = .root :: (real ns).map .name := by
  unfold route
  rw [components_ofNames ns h]
  exact congrArg (Component.root :: ·) (followLinks_names ns)

theorem resolve_route_ofNames (ns : List Name) (h : ∀ n ∈ ns, Plain n) :
    resolve (ofNames ns).route = real ns := by
  rw [route_ofNames ns h]
  show (((real ns).map Component.name).foldl step []).reverse = real ns
  rw [foldl_step_names, List.append_nil, List.reverse_reverse]

/-- the names that links are made of -/
def linkNames : List Name := ["proc", "self", "thread-self", "root"].map Utf8.ofString

theorem mem_linkNames {a b c : Name} (h : linksToRoot a b c = true) :
    a ∈ linkNames ∧ b ∈ linkNames ∧ c ∈ linkNames := by
  simp only [linksToRoot, Bool.and_eq_true, Bool.or_eq_true, decide_eq_true_eq] at h
  obtain ⟨⟨rfl, rfl | rfl⟩, rfl⟩ := h <;> decide

theorem mem_real_or_link (ns : List Name) (n : Name) (h : n ∈ ns) :
    n ∈ real ns ∨ n ∈ linkNames := by
  fun_induction real ns with
  | case1 a b c ns hlink ih =>
    obtain ⟨ha, hb, hc⟩ := mem_linkNames hlink
    simp only [List.mem_cons] at h
    obtain rfl | rfl | rfl | h := h
    · exact .inr ha
    · exact .inr hb
    · exact .inr hc
    · exact ih h
  | case2 a b c ns hlink => exact .inl h
  | case3 ns hshort => exact .inl h

theorem real_suffix (ns : List Name) : real ns <:+ ns := by
  fun_induction real ns with
  | case1 a b c ns hlink ih => exact ih.trans (List.suffix_append [a, b, c] ns)
  | case2 a b c ns hlink => exact List.suffix_rfl
  | case3 ns hshort => exact List.suffix_rfl

/-- A name in a directory is the same name in what that directory is past the links, unless it is
the last of a link itself. -/
theorem real_concat (ns : List Name) (n : Name) :
    real (ns ++ [n]) = real ns ++ [n] ∨ real (ns ++ [n]) = [] ∧ n ∈ linkNames := by
  fun_induction real ns with
  | case1 a b c ns hlink ih =>
    simp only [List.cons_append, real, hlink, if_true]
    exact ih
  | case2 a b c ns hlink =>
    refine .inl ?_
    simp only [List.cons_append, real, if_neg hlink]
  | case3 ns hshort =>
    match ns, hshort with
    | [], _ => exact .inl rfl
    | [_], _ => exact .inl rfl
    | [a, b], _ =>
      by_cases hlink : linksToRoot a b n = true
      · refine .inr ⟨?_, ?_⟩
        · simp only [List.cons_append, List.nil_append, real, hlink, if_true]
        · exact (mem_linkNames hlink).2.2
      · refine .inl ?_
        simp only [List.cons_append, List.nil_append, real, if_neg hlink]
    | a :: b :: c :: ns, hshort => exact absurd rfl (hshort a b c ns)

theorem real_concat_of_ne_nil {ns : List Name} {n : Name} (h : real (ns ++ [n]) ≠ []) :
    real (ns ++ [n]) = real ns ++ [n] :=
  (real_concat ns n).resolve_right fun e => h e.1

theorem parent_ofNames (ns : List Name) (n : Name) (h : ∀ m ∈ ns ++ [n], Plain m) :
    (ofNames (ns ++ [n])).parent = ofNames ns := by
  have hc : (ofNames (ns ++ [n])).components.dropLast = .root :: ns.map .name := by
    rw [components_ofNames _ h, List.map_append, ← List.cons_append]
    exact List.dropLast_concat
  unfold parent
  rw [hc]
  cases ns with
  | nil => rfl
  | cons k ns =>
    have hm : (k :: ns).map (Component.part ∘ .name) = k :: ns := List.map_id (k :: ns)
    show (⟨joinWith separator ([] :: ((k :: ns).map .name).map Component.part)⟩ : Path) = _
    rw [List.map_map, hm, joinWith_cons_cons]
    exact congrArg Path.mk (bytes_ofNames k ns).symm

theorem ofNames_concat (ns : List Name) (n : Name) :
    ofNames (ns ++ [n]) = ⟨ns.flatMap (separator :: ·) ++ separator :: n⟩ := by
  have h : ofNames (ns ++ [n]) = ⟨(ns ++ [n]).flatMap (separator :: ·)⟩ := by cases ns <;> rfl
  rw [h, List.flatMap_append, List.flatMap_singleton]

theorem getLast?_ofNames_concat (ns : List Name) (n : Name) (h : Plain n) :
    (ofNames (ns ++ [n])).bytes.getLast? ≠ some separator := by
  obtain ⟨init, b, rfl⟩ := (List.eq_nil_or_concat n).resolve_left h.nonempty
  intro e
  rw [ofNames_concat, List.concat_eq_append, ← List.cons_append, ← List.append_assoc,
    List.getLast?_concat] at e
  refine h.undivided ?_
  rw [List.concat_eq_append, ← Option.some.inj e]
  exact List.mem_concat_self

theorem join_ofNames (ns : List Name) (n : Name) (hns : ∀ m ∈ ns, Plain m) (hn : Plain n) :
    (ofNames ns).join ⟨n⟩ = ofNames (ns ++ [n]) := by
  have habs : (⟨n⟩ : Path).isAbsolute = false := by
    refine Bool.eq_false_iff.mpr fun h => hn.undivided ?_
    exact List.mem_of_mem_head? (of_decide_eq_true h)
  unfold join
  rw [if_neg (by rw [habs]; exact Bool.false_ne_true)]
  rcases List.eq_nil_or_concat ns with rfl | ⟨init, k, rfl⟩
  · exact (ofNames_concat [] n).symm
  · rw [List.concat_eq_append] at hns ⊢
    have hk : Plain k := hns k List.mem_concat_self
    have hnil : (ofNames (init ++ [k])).bytes ≠ [] := by
      rw [ofNames_concat]
      exact List.append_ne_nil_of_right_ne_nil _ (List.cons_ne_nil _ _)
    rw [if_neg (not_or.mpr ⟨hnil, getLast?_ofNames_concat init k hk⟩), ofNames_concat,
      ofNames_concat, List.flatMap_append, List.flatMap_singleton]

end Path

end CodeBridge
