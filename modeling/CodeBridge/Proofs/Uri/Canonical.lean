import CodeBridge.Client.Published
import CodeBridge.Proofs.Concurrency.Moments
import CodeBridge.Proofs.Uri.Naming
import CodeBridge.Tool.Document

/-!
# Canonical form

The URI written for a file is its own canonical form, so bringing a URI into that form twice is
bringing it there once.  Whoever writes the URI of a path holds the key of what is published about
it, and the tools do.

* `canonicalUri_ofNames`     the URI of a file is canonical;
* `canonicalUri_cases`       the canonical form of a text is the URI of a file, or the text;
* `IsKey`                    findings about a document are stored under this URI, and no others;
* `Routine.Gives`            every result of a routine is as promised, whatever happens meanwhile;
* `canonicalUri_canonical`   canonical form is reached at once, and what a tool opens has it.
-/

namespace CodeBridge

/-! ## the URI of a file -/

theorem canonicalUri_ofNames (names : List Name) (h : ∀ n ∈ names, Path.Plain n) :
    canonicalUri (Uri.ofNames names) = Uri.ofNames names := by
  obtain ⟨path, hpath, hsame⟩ := pathOfUri_ofNames names h
  have hnames : Path.resolve path.components = names :=
    (congrArg Path.resolve hsame).trans (Path.resolve_ofNames names h)
  unfold canonicalUri
  rw [hpath]
  exact congrArg Uri.ofNames hnames

theorem canonicalUri_cases (u : String) :
    (∃ names, (∀ n ∈ names, Path.Plain n) ∧ canonicalUri u = Uri.ofNames names) ∨
      canonicalUri u = u := by
  unfold canonicalUri
  cases pathOfUri u with
  | ok path => exact .inl ⟨_, Path.plain_of_mem_resolve path, rfl⟩
  | error fault => exact .inr rfl

theorem canonicalUri_canonicalUri (u : String) :
    canonicalUri (canonicalUri u) = canonicalUri u := by
  rcases canonicalUri_cases u with ⟨names, hplain, hform⟩ | hform
  · rw [hform, canonicalUri_ofNames names hplain]
  · rw [hform, hform]

theorem canonicalUri_uriOfPath {cwd : Option (List Name)} {p : Path} {uri : String}
    (h : uriOfPath cwd p = .ok uri) : canonicalUri uri = uri := by
  unfold uriOfPath at h
  cases hn : resolvePath cwd p with
  | error fault =>
    rw [hn] at h
    cases h
  | ok names =>
    rw [hn] at h
    obtain rfl := Except.ok.inj h
    exact canonicalUri_ofNames names (plain_of_resolvePath hn)

/-! ## keys -/

/-- The findings about a document are stored under this URI, and those about others are not. -/
structure IsKey (uri : String) : Prop where
  stored : ∀ (known : Published) (v : String) (items : List Diagnostic),
    sameDocument v uri = true →
      (known.update v items).at_ uri = ⟨(known.at_ uri).generation + 1, items⟩
  apart : ∀ (known : Published) (v : String) (items : List Diagnostic),
    sameDocument v uri = false → (known.update v items).at_ uri = known.at_ uri
  found : ∀ known : Published, known.read uri = (known.at_ uri).items

theorem isKey_of_canonical {uri : String} (h : canonicalUri uri = uri) : IsKey uri where
  stored known v items hsame := by
    have hkey : canonicalUri v = uri := ((canonicalUri_eq_iff v uri).mpr hsame).trans h
    rw [Published.at_update, Published.record, hkey, Published.at_set_self]
  apart known v items hother := by
    rw [Published.at_update, Published.record]
    refine Published.at_set_ne _ _ _ _ fun e => ?_
    have hsame := (canonicalUri_eq_iff v uri).mp (e.symm.trans h.symm)
    rw [hother] at hsame
    cases hsame
  found known := by
    unfold Published.read
    rw [h]

/-! ## results of routines -/

namespace Routine

variable {σ τ α β : Type} {post : α → Prop} {post' : β → Prop}

/-- Whatever the state is whenever the routine goes on, its result is as promised. -/
def Gives (post : α → Prop) : Routine σ α → Prop
  | done a => post a
  | step _ next => ∀ s, Gives post (next s)
  | wait _ _ _ next => ∀ b t, Gives post (next b t)
  | pause _ next => Gives post (next ())

theorem Gives.poll {r : Routine σ α} (h : r.Gives post) (elapsed : Nat) (s : σ) :
    (r.poll elapsed s).2.Gives post := by
  cases r with
  | done a => exact h
  | step update next => exact h s
  | wait ready limit abandon next =>
    by_cases hr : ready s = true
    · rw [poll_of_ready hr]
      exact h true elapsed
    · cases he : (wait ready limit abandon next).expired elapsed s with
      | true =>
        rw [(poll_of_expired he).2.2]
        exact h false elapsed
      | false =>
        rw [poll_of_neither (Bool.eq_false_iff.mpr hr) he]
        exact h
  | pause abandon next => exact h

theorem Gives.along {r : Routine σ α} (h : r.Gives post) (moments : List (Nat × σ)) :
    (r.along moments).Gives post := by
  induction moments generalizing r with
  | nil => exact h
  | cons m moments ih => exact ih (h.poll m.1 m.2)

/-- The moments of a routine while nobody else moves. -/
def alone : Nat → σ → Routine σ α → List (Nat × σ)
  | 0, _, _ => []
  | n + 1, s, r => (0, s) :: alone n (r.poll 0 s).1 (r.poll 0 s).2

theorem gives_trivial (r : Routine σ α) : r.Gives fun _ => True := by
  induction r with
  | done a => trivial
  | step update next ih => exact ih
  | wait ready limit abandon next ih => exact ih
  | pause abandon next ih => exact ih ()

theorem Gives.bind {r : Routine σ α} {f : α → Routine σ β} (h : r.Gives post)
    (hf : ∀ a, post a → (f a).Gives post') : (r.bind f).Gives post' := by
  induction r with
  | done a => exact hf a h
  | step update next ih => exact fun s => ih s (h s)
  | wait ready limit abandon next ih => exact fun b t => ih b t (h b t)
  | pause abandon next ih => exact ih () h

end Routine

/-! ## what a tool holds open -/

namespace Tool

open Routine

variable {α β : Type}

/-- Every document that the routine hands out is under its key. -/
def HandsOutKeys (r : ToolRoutine OpenDocument) : Prop :=
  r.Gives fun result => ∀ doc, result = .ok doc → IsKey doc.uri

theorem handsOutKeys_andThen {r : ToolRoutine α} {next : α → ToolRoutine OpenDocument}
    (h : ∀ a, HandsOutKeys (next a)) : HandsOutKeys (andThen r next) := by
  refine (gives_trivial r).bind fun result _ => ?_
  cases result with
  | ok a => exact h a
  | error fault => exact nofun

theorem handsOutKeys_holdOpen (path : Path) (text : String) (k : Nat) :
    HandsOutKeys (holdOpen path text k) := by
  refine (gives_trivial _).bind fun held _ doc hdoc => ?_
  cases held with
  | error fault => cases hdoc
  | ok _ =>
    obtain rfl := Except.ok.inj hdoc
    exact isKey_of_canonical (canonicalUri_ofNames _ (Path.plain_of_mem_resolve path))

theorem handsOutKeys_openDocument (file : Path) : HandsOutKeys (openDocument file) :=
  (gives_trivial (Routine.read id)).bind fun _ _ => handsOutKeys_andThen fun path =>
    (gives_trivial (readText path)).bind fun _ _ => handsOutKeys_andThen fun text =>
      handsOutKeys_andThen fun k => handsOutKeys_holdOpen path text k

end Tool

/-! ## canonical form is canonical -/

/-- **The canonical form of a text and the URI of a path are their own canonical forms.  Under the
URI of a path, and so under the one by which a tool holds a document open, whatever has happened
while it was opened, the findings about the document are stored.** -/
theorem canonicalUri_canonical :
    (∀ u, canonicalUri (canonicalUri u) = canonicalUri u) ∧
      (∀ (cwd : Option (List Name)) (p : Path) (uri : String), uriOfPath cwd p = .ok uri →
        canonicalUri uri = uri ∧ IsKey uri) ∧
      ∀ (file : Path) (moments : List (Nat × Host)) (doc : Tool.OpenDocument),
        (Tool.openDocument file).along moments = .done (.ok doc) → IsKey doc.uri := by
  refine ⟨canonicalUri_canonicalUri, fun cwd p uri h => ?_, fun file moments doc hdone => ?_⟩
  · have hform := canonicalUri_uriOfPath h
    exact ⟨hform, isKey_of_canonical hform⟩
  · have hgives := (Tool.handsOutKeys_openDocument file).along moments
    rw [hdone] at hgives
    exact hgives doc rfl

/-- A workspace whose root is written with a step, and a file in it that somebody holds open. -/
def heldBefore : Host where
  disk := { system := ⟨[([Utf8.ofString "a b"], .file (Utf8.ofString "x") 0o644)]⟩, cwd := none }
  root := ⟨Utf8.ofString "/c/.."⟩
  slot := .running 0
  clients := [{ lifecycle := .initialized, openDocs := [("file:///a%20b", 1)] }]

/-- Names that look like a drive, an escaped step and the end of a path stay as they are, and a file
that is opened while nobody else moves is found under its key. -/
theorem oddPath_canonical :
    (uriOfPath (some [Utf8.ofString "w"]) oddPath =
        .ok "file:///C|/%252e%252E/a%20b%23%3F%5C/%FF%01" ∧
      canonicalUri "file:///C|/%252e%252E/a%20b%23%3F%5C/%FF%01" =
        "file:///C|/%252e%252E/a%20b%23%3F%5C/%FF%01") ∧
      ∃ moments, (Tool.openDocument ⟨Utf8.ofString "a b"⟩).along moments =
          .done (.ok ⟨0, "file:///a%20b", ⟨Utf8.ofString "/a b"⟩, "x"⟩) ∧
        IsKey "file:///a%20b" := by
  have huri : uriOfPath (some [Utf8.ofString "w"]) oddPath =
      .ok "file:///C|/%252e%252E/a%20b%23%3F%5C/%FF%01" := rfl
  have hopened : (Tool.openDocument ⟨Utf8.ofString "a b"⟩).along
      ((Tool.openDocument ⟨Utf8.ofString "a b"⟩).alone 12 heldBefore) =
        .done (.ok ⟨0, "file:///a%20b", ⟨Utf8.ofString "/a b"⟩, "x"⟩) := rfl
  exact ⟨⟨huri, (canonicalUri_canonical.2.1 (some [Utf8.ofString "w"]) oddPath _ huri).1⟩,
    _, hopened, canonicalUri_canonical.2.2 _ _ _ hopened⟩

end CodeBridge
