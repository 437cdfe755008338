import CodeBridge.Edit.Files
import CodeBridge.Proofs.File.Paths
import CodeBridge.Proofs.Uri.Escapes

/-!
# A file has one plain URI

`Uri.ofNames` writes the URI of a file name by name, and the whole grammar of URIs reads it back:
the text has nothing to strip or to leave out, its host is empty, no segment is a step, and behind
the slash of the root not even `C:` is taken for a drive.

* `parse_ofNames`, `pathOfUri_ofNames`   what is read back are the names;
* `canonicalUri_eq_iff`   two texts have one canonical form when they name one document;
* `pathOfUri_uriOfPath`   the URI of a path leads to the path.
-/

namespace CodeBridge

/-! ## the path again, with a separator at its end -/

namespace Path

theorem components_concat (bs : Bytes) (h : bs ≠ []) :
    components ⟨bs ++ [separator]⟩ = components ⟨bs⟩ := by
  obtain ⟨b, rest, rfl⟩ := List.exists_cons_of_ne_nil h
  obtain ⟨p, ps, hp⟩ := List.exists_cons_of_ne_nil (piecesAt_ne_nil separator (b :: rest))
  have hparts : parts ((b :: rest) ++ [separator]) = parts (b :: rest) ++ [[]] :=
    piecesAt_append_separator separator (b :: rest) []
  have hhead : (parts ((b :: rest) ++ [separator])).head? = (parts (b :: rest)).head? := by
    rw [hparts, parts, hp]
    rfl
  have hnames : (parts ((b :: rest) ++ [separator])).filterMap component? =
      (parts (b :: rest)).filterMap component? :=
    (steps_append (b :: rest) []).trans (List.append_nil _)
  unfold components
  rw [hhead, hnames]
  rfl

end Path

namespace Uri
open Percent

/-! ## the text of a URI -/

def written : List Name → List Char
  | [] => ['/']
  | names => names.flatMap fun n => '/' :: chars n

theorem toList_ofNames (names : List Name) :
    (ofNames names).toList = 'f' :: 'i' :: 'l' :: 'e' :: ':' :: '/' :: '/' :: written names := by
  unfold ofNames
  rw [String.toList_ofList]
  cases names with
  | nil => rfl
  | cons n names =>
    show (schemeBytes ++ (n :: names).flatMap fun n => Path.separator :: encode n).map _ = _
    rw [List.map_append, List.map_flatMap]
    rfl

theorem exists_written (names : List Name) : ∃ rest, written names = '/' :: rest := by
  cases names with
  | nil => exact ⟨[], rfl⟩
  | cons n names => exact ⟨_, rfl⟩

/-- Every character of the path is a slash or can stand in a segment. -/
theorem mem_written {names : List Name} {c : Char} (h : c ∈ written names) :
    c = '/' ∨ allowed c = true := by
  cases names with
  | nil => exact .inl (List.mem_singleton.mp h)
  | cons n names =>
    obtain ⟨m, -, hc⟩ := List.mem_flatMap.mp h
    exact (List.mem_cons.mp hc).imp id allowed_of_mem

/-- A character that neither frames nor breaks a text, nor ends a path. -/
def solid (c : Char) : Bool := 0x20 < c.toNat && !(c = '?' || c = '#')

theorem solid_of_allowed {c : Char} (h : allowed c = true) : solid c = true := by
  simp only [allowed, Bool.and_eq_true] at h
  exact Bool.and_eq_true_iff.mpr ⟨h.1.1.1, h.2⟩

theorem solid_of_mem {names : List Name} {c : Char} (h : c ∈ (ofNames names).toList) :
    solid c = true := by
  have hpath : ∀ d ∈ written names, solid d = true := fun d hd => by
    rcases mem_written hd with rfl | ha
    · rfl
    · exact solid_of_allowed ha
  rw [toList_ofNames] at h
  simp only [List.mem_cons] at h
  obtain rfl | rfl | rfl | rfl | rfl | rfl | rfl | h := h
  all_goals first | rfl | exact hpath c h

theorem strip_solid (cs : List Char) (h : ∀ c ∈ cs, solid c = true) : strip cs = cs := by
  have keep : ∀ l : List Char, (∀ c ∈ l, solid c = true) →
      l.dropWhile (fun c => decide (c.toNat ≤ 0x20)) = l := fun l hl => by
    cases l with
    | nil => rfl
    | cons c l =>
      have hc := hl c List.mem_cons_self
      simp only [solid, Bool.and_eq_true, decide_eq_true_eq] at hc
      exact List.dropWhile_cons_of_neg fun hle => Nat.not_le.mpr hc.1 (of_decide_eq_true hle)
  show ((cs.dropWhile fun c => decide (c.toNat ≤ 0x20)).reverse.dropWhile
    fun c => decide (c.toNat ≤ 0x20)).reverse = cs
  rw [keep cs h, keep cs.reverse fun c hc => h c (List.mem_reverse.mp hc), List.reverse_reverse]

theorem unbroken_solid (cs : List Char) (h : ∀ c ∈ cs, solid c = true) : unbroken cs = cs := by
  refine List.filter_eq_self.mpr fun c hc => ?_
  have hs := h c hc
  simp only [solid, Bool.and_eq_true, decide_eq_true_eq] at hs
  have hbreak : isBreak c = false := by
    refine Bool.eq_false_iff.mpr fun hb => ?_
    simp only [isBreak, Bool.or_eq_true, decide_eq_true_eq] at hb
    obtain (rfl | rfl) | rfl := hb
    all_goals exact absurd hs.1 (by decide)
  rw [hbreak]
  rfl

theorem pathPart_solid (cs : List Char) (h : ∀ c ∈ cs, solid c = true) : pathPart cs = cs := by
  induction cs with
  | nil => rfl
  | cons c cs ih =>
    have hc := (Bool.and_eq_true_iff.mp (h c List.mem_cons_self)).2
    show List.takeWhile (fun c => !(decide (c = '?') || decide (c = '#'))) (c :: cs) = c :: cs
    rw [List.takeWhile_cons, if_pos hc]
    exact congrArg (c :: ·) (ih fun d hd => h d (List.mem_cons_of_mem c hd))

/-! ## its segments -/

theorem splitSlashes_cons {c : Char} (cs : List Char) (h : isSlash c = false) :
    ∃ s rest, splitSlashes cs = s :: rest ∧ splitSlashes (c :: cs) = (c :: s) :: rest := by
  have hne : splitSlashes cs ≠ [] := by
    cases cs with
    | nil => exact List.cons_ne_nil _ _
    | cons d ds =>
      unfold splitSlashes
      split
      · exact List.cons_ne_nil _ _
      · split <;> exact List.cons_ne_nil _ _
  obtain ⟨s, rest, hs⟩ := List.exists_cons_of_ne_nil hne
  refine ⟨s, rest, hs, ?_⟩
  rw [splitSlashes, if_neg (by rw [h]; exact Bool.false_ne_true), hs]

theorem splitSlashes_append (s cs first : List Char) (rest : List (List Char))
    (h : ∀ c ∈ s, isSlash c = false) (hcs : splitSlashes cs = first :: rest) :
    splitSlashes (s ++ cs) = (s ++ first) :: rest := by
  induction s with
  | nil => exact hcs
  | cons c s ih =>
    obtain ⟨p, ps, hp, hc⟩ := splitSlashes_cons (s ++ cs) (h c List.mem_cons_self)
    rw [ih fun d hd => h d (List.mem_cons_of_mem c hd)] at hp
    obtain ⟨rfl, rfl⟩ := List.cons.inj hp
    exact hc

theorem not_slash_of_mem {bs : Bytes} {c : Char} (h : c ∈ chars bs) : isSlash c = false := by
  have ha := allowed_of_mem h
  simp only [allowed, Bool.and_eq_true, Bool.not_eq_true'] at ha
  exact ha.1.2

theorem splitSlashes_names (names : List Name) :
    splitSlashes (names.flatMap fun n => '/' :: chars n) = [] :: names.map chars := by
  induction names with
  | nil => rfl
  | cons n names ih =>
    rw [List.flatMap_cons, List.cons_append]
    show [] :: splitSlashes (chars n ++ _) = _
    rw [splitSlashes_append (chars n) _ [] _ (fun c hc => not_slash_of_mem hc) ih,
      List.append_nil, List.map_cons]

/-! ## the walk -/

theorem not_steps (n : Name) (h : Path.Plain n) :
    isDotDot (chars n) = false ∧ isDot (chars n) = false :=
  ⟨decide_eq_false fun e => h.not_dots (unescapePoints_chars_eq e),
    decide_eq_false fun e => h.not_dot (unescapePoints_chars_eq e)⟩

theorem unbroken_chars (bs : Bytes) : unbroken (chars bs) = chars bs :=
  unbroken_solid _ fun _ hc => solid_of_allowed (allowed_of_mem hc)

/-- Behind the slash of the root a name is kept, whatever it looks like. -/
theorem step_name (w : Walk) (n : Name) (h : Path.Plain n) (hw : w.kept ≠ []) :
    w.step (chars n) = { w with kept := chars n :: w.kept } := by
  obtain ⟨hdots, hdot⟩ := not_steps n h
  have hkept : w.kept.isEmpty = false := by
    rw [List.isEmpty_eq_false_iff]
    exact hw
  unfold Walk.step
  simp only [unbroken_chars, hdots, hdot, hkept, Bool.false_eq_true, if_false]

theorem last_name (w : Walk) (n : Name) (h : Path.Plain n) (hw : w.kept ≠ []) :
    w.last (chars n) = { w with kept := chars n :: w.kept } := by
  obtain ⟨hdots, hdot⟩ := not_steps n h
  unfold Walk.last
  simp only [unbroken_chars, hdots, hdot, step_name w n h hw, Bool.or_self, Bool.false_eq_true,
    if_false]

theorem walkFrom_names (names : List Name) (w : Walk) (h : ∀ n ∈ names, Path.Plain n)
    (hw : w.kept ≠ []) :
    (walkFrom w (names.map chars)).kept = (names.map chars).reverse ++ w.kept := by
  induction names generalizing w with
  | nil => rfl
  | cons n names ih =>
    have hn := h n List.mem_cons_self
    cases names with
    | nil =>
      show (w.last (chars n)).kept = _
      rw [last_name w n hn hw]
      rfl
    | cons m names =>
      show (walkFrom (w.step (chars n)) ((m :: names).map chars)).kept = _
      rw [step_name w n hn hw,
        ih _ (fun k hk => h k (List.mem_cons_of_mem n hk)) (List.cons_ne_nil _ _),
        List.map_cons (f := chars) (a := n), List.reverse_cons, List.append_assoc]
      rfl

/-- The segments of a file; the root has one without a name. -/
def segmentsOf : List Name → List (List Char)
  | [] => [[]]
  | names => names.map chars

theorem segments_walk (names : List Name) (h : ∀ n ∈ names, Path.Plain n) :
    (walk (written names)).segments = segmentsOf names := by
  have hsolid : ∀ c ∈ written names, solid c = true := fun c hc => by
    have hmem : c ∈ (ofNames names).toList := by
      rw [toList_ofNames]
      simp [hc]
    exact solid_of_mem hmem
  unfold walk
  rw [pathPart_solid _ hsolid]
  cases names with
  | nil => rfl
  | cons n names =>
    have hfirst : chars n ≠ [] := chars_ne_nil (h n List.mem_cons_self).nonempty
    have hkept := walkFrom_names (n :: names) ⟨[[]], false⟩ h (List.cons_ne_nil _ _)
    show (walkFrom {} (splitSlashes ((n :: names).flatMap fun n => '/' :: chars n))).segments = _
    rw [splitSlashes_names]
    show dropLeadingEmpty (walkFrom ⟨[[]], false⟩ ((n :: names).map chars)).kept.reverse = _
    rw [hkept, List.reverse_append, List.reverse_reverse]
    unfold dropLeadingEmpty
    have hdrop : ([[]].reverse ++ (n :: names).map chars).dropWhile (·.isEmpty) =
        (n :: names).map chars := by
      show (([] : List Char) :: chars n :: names.map chars).dropWhile (·.isEmpty) = _
      rw [List.dropWhile_cons_of_pos rfl, List.dropWhile_cons_of_neg]
      · rfl
      · rw [List.isEmpty_iff]
        exact hfirst
    rw [hdrop]
    rfl

/-- **The URI of a file is read as its names.** -/
theorem parse_ofNames (names : List Name) (h : ∀ n ∈ names, Path.Plain n) :
    parse (ofNames names) = .ok (.file false (segmentsOf names)) := by
  obtain ⟨rest, hrest⟩ := exists_written names
  have hsolid : ∀ c ∈ (ofNames names).toList, solid c = true := fun c => solid_of_mem
  unfold parse
  simp only [strip_solid _ hsolid, unbroken_solid _ hsolid]
  rw [toList_ofNames, hrest]
  show parseFile ('/' :: '/' :: '/' :: rest) = _
  rw [← segments_walk names h, hrest]
  rfl

end Uri

/-! ## documents -/

theorem Uri.closeDrive_cases (bs : Bytes) :
    Uri.closeDrive bs = bs ∨ Uri.closeDrive bs = bs ++ [Path.separator] := by
  unfold Uri.closeDrive
  split
  · split
    · exact .inr rfl
    · exact .inl rfl
  · exact .inl rfl

theorem Uri.pathBytes_segmentsOf (names : List Name) :
    (Uri.segmentsOf names).flatMap (fun s => Path.separator :: Uri.segmentBytes s) =
      (Path.ofNames names).bytes := by
  cases names with
  | nil => rfl
  | cons n names =>
    show ((n :: names).map Percent.chars).flatMap _ = (n :: names).flatMap (Path.separator :: ·)
    rw [List.flatMap_map]
    exact congrArg (List.flatMap · (n :: names)) (funext fun m =>
      congrArg (Path.separator :: ·) (Uri.segmentBytes_chars m))

theorem pathOfUri_ofNames (names : List Name) (h : ∀ n ∈ names, Path.Plain n) :
    ∃ path, pathOfUri (Uri.ofNames names) = .ok path ∧ path.Same (Path.ofNames names) := by
  refine ⟨⟨Uri.closeDrive (Path.ofNames names).bytes⟩, ?_, ?_⟩
  · unfold pathOfUri
    rw [Uri.parse_ofNames names h]
    show Except.ok (⟨Uri.closeDrive ((Uri.segmentsOf names).flatMap _)⟩ : Path) = _
    rw [Uri.pathBytes_segmentsOf]
  · show Path.components ⟨_⟩ = _
    rcases Uri.closeDrive_cases (Path.ofNames names).bytes with e | e
    · rw [e]
    · rw [e]
      refine Path.components_concat _ ?_
      cases names <;> exact List.cons_ne_nil _ _

/-! ## canonical form -/

theorem ofNames_inj {a b : List Name} (ha : ∀ n ∈ a, Path.Plain n) (hb : ∀ n ∈ b, Path.Plain n)
    (h : Uri.ofNames a = Uri.ofNames b) : a = b := by
  obtain ⟨p, hp, hpa⟩ := pathOfUri_ofNames a ha
  obtain ⟨q, hq, hqb⟩ := pathOfUri_ofNames b hb
  obtain rfl : p = q := Except.ok.inj (hp.symm.trans ((congrArg pathOfUri h).trans hq))
  have hsame : (Path.ofNames a).components = (Path.ofNames b).components := hpa.symm.trans hqb
  rw [← Path.resolve_ofNames a ha, hsame, Path.resolve_ofNames b hb]

/-- Two texts name one document: one file of this machine, whatever steps lead to it, or, when they
name no file, the same text. -/
def sameDocument (u v : String) : Bool :=
  match pathOfUri u, pathOfUri v with
  | .ok p, .ok q => Path.resolve p.components = Path.resolve q.components
  | .error _, .error _ => u = v
  | _, _ => false

/-- A text that names no file is not the canonical form of one that does. -/
theorem canonicalUri_ne {u v : String} {path : Path} {fault : UriError} (hu : pathOfUri u = .ok path)
    (hv : pathOfUri v = .error fault) : canonicalUri u ≠ canonicalUri v := by
  intro e
  obtain ⟨back, hback, -⟩ := pathOfUri_ofNames _ (Path.plain_of_mem_resolve path)
  unfold canonicalUri at e
  rw [hu, hv] at e
  replace e : Uri.ofNames (Path.resolve path.components) = v := e
  rw [e, hv] at hback
  cases hback

/-- **Two texts have one canonical form when they name one document.** -/
theorem canonicalUri_eq_iff (u v : String) :
    canonicalUri u = canonicalUri v ↔ sameDocument u v = true := by
  unfold sameDocument
  cases hu : pathOfUri u with
  | ok p =>
    cases hv : pathOfUri v with
    | ok q =>
      unfold canonicalUri
      rw [hu, hv, decide_eq_true_iff]
      exact ⟨ofNames_inj (Path.plain_of_mem_resolve p) (Path.plain_of_mem_resolve q),
        congrArg Uri.ofNames⟩
    | error fault => exact iff_of_false (canonicalUri_ne hu hv) Bool.false_ne_true
  | error fault =>
    cases hv : pathOfUri v with
    | ok q => exact iff_of_false (Ne.symm (canonicalUri_ne hv hu)) Bool.false_ne_true
    | error fault' =>
      unfold canonicalUri
      rw [hu, hv, decide_eq_true_iff]

/-! ## the round trip -/

theorem plain_of_resolvePath {cwd : Option (List Name)} {p : Path} {names : List Name}
    (h : resolvePath cwd p = .ok names) : ∀ n ∈ names, Path.Plain n := by
  unfold resolvePath at h
  split at h
  · rw [← Except.ok.inj h]
    exact Path.plain_of_mem_resolve p
  · split at h
    · rw [← Except.ok.inj h]
      exact Path.plain_of_mem_resolve _
    · cases h

/-- **Every path that is absolute or seen from somewhere has a URI, and the URI leads back to the
path in normal form.** -/
theorem pathOfUri_uriOfPath (cwd : Option (List Name)) (p : Path) :
    ((∃ uri, uriOfPath cwd p = .ok uri) ↔ p.isAbsolute = true ∨ cwd.isSome = true) ∧
      ∀ uri, uriOfPath cwd p = .ok uri →
        ∃ path normal, pathOfUri uri = .ok path ∧ normalizePath cwd p = .ok normal ∧
          path.Same normal := by
  constructor
  · unfold uriOfPath resolvePath
    cases p.isAbsolute <;> cases cwd <;> simp [Except.map]
  · intro uri h
    unfold uriOfPath at h
    cases hn : resolvePath cwd p with
    | error fault =>
      rw [hn] at h
      cases h
    | ok names =>
      rw [hn] at h
      obtain rfl := Except.ok.inj h
      obtain ⟨path, hpath, hsame⟩ := pathOfUri_ofNames names (plain_of_resolvePath hn)
      refine ⟨path, .ofNames names, hpath, ?_, hsame⟩
      unfold normalizePath
      rw [hn]
      rfl

/-- A path with names that look like a drive, an escaped step and the end of a path, and with bytes
that are no text. -/
def oddPath : Path := ⟨Utf8.ofString "./../C|/%2e%2E/a b#?\\/" ++ [0xFF, 0x01]⟩

theorem oddPath_leads_back :
    uriOfPath (some [Utf8.ofString "w"]) oddPath =
        .ok "file:///C|/%252e%252E/a%20b%23%3F%5C/%FF%01" ∧
      ∃ path normal, pathOfUri "file:///C|/%252e%252E/a%20b%23%3F%5C/%FF%01" = .ok path ∧
        normalizePath (some [Utf8.ofString "w"]) oddPath = .ok normal ∧ path.Same normal := by
  have h : uriOfPath (some [Utf8.ofString "w"]) oddPath =
      .ok "file:///C|/%252e%252E/a%20b%23%3F%5C/%FF%01" := rfl
  exact ⟨h, (pathOfUri_uriOfPath (some [Utf8.ofString "w"]) oddPath).2 _ h⟩

end CodeBridge
