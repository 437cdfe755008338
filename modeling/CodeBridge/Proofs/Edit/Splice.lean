import Mathlib.Data.List.Permutation
import CodeBridge.Proofs.Edit.Places

/-!
# A batch of edits is one replacement

`applyEdits` changes the lines of a text edit by edit, from the end of the batch to its start, and
each edit meets lines that the ones before it have changed.  What comes out is nevertheless the text
as it was with all ranges replaced at once:

* `span?`              the range of an edit as two offsets into the text;
* `inTextOrder`        spans by start, and by their places in the batch where two starts agree;
* `splice`             the text between the spans as it was, and the new texts in their places;
* `Spliced`            what the edits made so far have left: up to the first of their starts the
                       lines are those of the text, and what follows is spliced already.
-/

namespace CodeBridge

/-! ## spans -/

/-- A range of a text, in characters from its start, and what is to stand there. -/
structure Span where
  start : Nat
  stop : Nat
  newText : List Char
  deriving DecidableEq, Repr, Inhabited

def span? (text : List Char) (e : TextEdit) : Option Span :=
  match offset? text e.range.start, offset? text e.range.stop with
  | some start, some stop => some ⟨start, stop, e.newText.toList⟩
  | _, _ => none

/-- By start; of spans that start at one place the one that was given first comes first. -/
def inTextOrder (spans : List Span) : List Span :=
  (spans.zipIdx.mergeSort fun a b =>
    decide (a.1.start < b.1.start ∨ (a.1.start = b.1.start ∧ a.2 ≤ b.2))).map Prod.fst

/-- The text from an offset on, with each of the spans replaced. -/
def spliceFrom (text : List Char) (offset : Nat) : List Span → List Char
  | [] => text.drop offset
  | s :: ss => (text.take s.start).drop offset ++ s.newText ++ spliceFrom text s.stop ss

def splice (text : List Char) (spans : List Span) : List Char :=
  spliceFrom text 0 (inTextOrder spans)

/-- Spans of a text, each at or after the end of those before it. -/
structure Apart (text : List Char) (spans : List Span) : Prop where
  inside : ∀ s ∈ spans, s.start ≤ s.stop ∧ s.stop ≤ text.length
  ordered : spans.Pairwise fun a b => a.stop ≤ b.start

theorem spliceFrom_nil (text : List Char) (k : Nat) : spliceFrom text k [] = text.drop k := rfl
theorem spliceFrom_cons (text : List Char) (k : Nat) (s : Span) (ss : List Span) :
    spliceFrom text k (s :: ss) =
      (text.take s.start).drop k ++ s.newText ++ spliceFrom text s.stop ss := rfl

theorem span?_of_before? (text : List Char) (e : TextEdit) (x y : List Char)
    (hx : before? (pieces text) e.range.start = some x)
    (hy : before? (pieces text) e.range.stop = some y) :
    span? text e = some ⟨x.length, y.length, e.newText.toList⟩ := by
  simp only [span?, offset?, hx, hy, Option.map_some]

theorem start_of_span? (text : List Char) (e : TextEdit) (s : Span) (h : span? text e = some s) :
    ∃ x, before? (pieces text) e.range.start = some x ∧ s.start = x.length := by
  unfold span? offset? at h
  split at h
  next start stop hs _ =>
    obtain ⟨x, hx, rfl⟩ := Option.map_eq_some_iff.mp hs
    exact ⟨x, hx, by rw [← Option.some.inj h]⟩
  · cases h

/-- Spans start in the order in which their edits do. -/
theorem start_lt_iff_of_span? (text : List Char) (e f : TextEdit) (s t : Span)
    (hs : span? text e = some s) (ht : span? text f = some t) :
    s.start < t.start ↔ e.range.start < f.range.start := by
  obtain ⟨x, hx, ex⟩ := start_of_span? text e s hs
  obtain ⟨y, hy, ey⟩ := start_of_span? text f t ht
  rw [ex, ey]
  exact length_lt_iff_of_before? (pieces text) _ _ x y hx hy

/-! ## the order of a batch -/

def TextEdit.EndsBefore (a b : TextEdit) : Prop := ¬ b.range.start < a.range.stop

theorem inDocumentOrder_sorted (edits : List TextEdit) :
    (inDocumentOrder edits).Pairwise fun a b => ¬ b.range.start < a.range.start := by
  have h : (inDocumentOrder edits).Pairwise
      fun a b => (!decide (b.range.start < a.range.start)) = true := by
    apply List.pairwise_mergeSort
    · intro a b c hab hbc
      simp only [Bool.not_eq_true', decide_eq_false_iff_not, Position.lt_iff] at hab hbc ⊢
      omega
    · intro a b
      simp only [Bool.or_eq_true, Bool.not_eq_true', decide_eq_false_iff_not, Position.lt_iff]
      omega
  exact h.imp fun hab => by simpa using hab

theorem mem_inDocumentOrder (edits : List TextEdit) (e : TextEdit) :
    e ∈ inDocumentOrder edits ↔ e ∈ edits := (List.mergeSort_perm edits _).mem_iff

/-- In a batch in order it is enough to compare neighbours. -/
theorem endsBefore_of_overlap? (order : List TextEdit)
    (hs : order.Pairwise fun later earlier => ¬ later.range.start < earlier.range.start)
    (h : overlap? order = none) :
    order.Pairwise fun later earlier => earlier.EndsBefore later := by
  induction order with
  | nil => exact List.Pairwise.nil
  | cons later rest ih =>
    cases rest with
    | nil => exact List.pairwise_singleton _ _
    | cons earlier rest =>
      rw [overlap?] at h
      split at h
      · cases h
      next hlt =>
        obtain ⟨hfirst, hrest⟩ := List.pairwise_cons.mp hs
        have ih' := ih hrest h
        obtain ⟨hbefore, _⟩ := List.pairwise_cons.mp ih'
        refine List.pairwise_cons.mpr ⟨fun e he => ?_, ih'⟩
        rcases List.mem_cons.mp he with rfl | he
        · exact hlt
        · have h1 := hbefore e he
          have h2 := hfirst earlier List.mem_cons_self
          unfold TextEdit.EndsBefore at h1 ⊢
          rw [Position.lt_iff] at h1 h2 ⊢
          omega

theorem applicationOrder_eq_ok (edits order : List TextEdit)
    (h : applicationOrder edits = .ok order) :
    order = (inDocumentOrder edits).reverse ∧
      (∀ e ∈ edits, ¬ e.range.stop < e.range.start) ∧
      (inDocumentOrder edits).Pairwise TextEdit.EndsBefore := by
  simp only [applicationOrder] at h
  split at h
  · cases h
  next hinv =>
    split at h
    · cases h
    next hover =>
      refine ⟨(Except.ok.inj h).symm, fun e he => ?_, ?_⟩
      · have hf := List.find?_eq_none.mp (Option.map_eq_none_iff.mp hinv) e he
        simpa [Range.inverted] using hf
      · rw [← List.pairwise_reverse]
        apply endsBefore_of_overlap? _ _ hover
        rw [List.pairwise_reverse]
        exact inDocumentOrder_sorted edits

/-! ## edits from the end backwards -/

theorem replaceAll_append (lines : List (List Char)) (es fs : List TextEdit) :
    replaceAll lines (es ++ fs) = replaceAll lines es >>= fun l => replaceAll l fs := by
  induction es generalizing lines with
  | nil => rfl
  | cons e es ih =>
    show (replace lines e >>= fun l => replaceAll l (es ++ fs)) =
      (replace lines e >>= fun l => replaceAll l es) >>= _
    cases replace lines e with
    | error fault => rfl
    | ok l => exact ih l

theorem replaceAll_concat (lines : List (List Char)) (es : List TextEdit) (e : TextEdit) :
    replaceAll lines (es ++ [e]) = replaceAll lines es >>= fun l => replace l e := by
  have hone : ∀ l, replaceAll l [e] = replace l e := by
    intro l
    show (replace l e >>= fun l => replaceAll l []) = _
    cases replace l e with
    | error fault => rfl
    | ok l => rfl
  rw [replaceAll_append]
  simp only [hone]

/-- Edits in document order have all been made, the last one first, and these are their spans. -/
structure Spliced (text : List Char) (es : List TextEdit) (lines : List (List Char))
    (spans : List Span) : Prop where
  spans_eq : es.map (span? text) = spans.map some
  apart : Apart text spans
  text_eq : ∀ k ≤ text.length, (∀ s ∈ spans, k ≤ s.start) →
    (unlines lines).drop k = spliceFrom text k spans
  places : ∀ q, (∀ e ∈ es, ¬ e.range.start < q) → before? lines q = before? (pieces text) q

namespace Spliced
variable {text : List Char} {es : List TextEdit} {lines done : List (List Char)}
  {spans : List Span}

theorem nil (text : List Char) : Spliced text [] (pieces text) [] where
  spans_eq := rfl
  apart := ⟨by simp, List.Pairwise.nil⟩
  text_eq k _ _ := by rw [unlines_pieces, spliceFrom_nil]
  places _ _ := rfl

theorem le_start (h : Spliced text es lines spans) {q : Position} {y : List Char}
    (hy : before? (pieces text) q = some y) (hq : ∀ e ∈ es, ¬ e.range.start < q) :
    ∀ s ∈ spans, y.length ≤ s.start := by
  intro s hs
  have hm : some s ∈ es.map (span? text) := by
    rw [h.spans_eq]
    exact List.mem_map_of_mem hs
  obtain ⟨e, he, hes⟩ := List.mem_map.mp hm
  obtain ⟨z, hz, hzs⟩ := start_of_span? text e s hes
  rw [hzs]
  refine Nat.le_of_not_lt fun hlt => hq e he ?_
  exact (length_lt_iff_of_before? _ _ _ z y hz hy).mp hlt

/-- An edit that ends before all of them is made next. -/
theorem cons (h : Spliced text es done spans) {e : TextEdit}
    (hne : ¬ e.range.stop < e.range.start) (hbefore : ∀ f ∈ es, e.EndsBefore f)
    (hstep : replace done e = .ok lines) : ∃ s, Spliced text (e :: es) lines (s :: spans) := by
  -- both ends of the edit lie where the lines are still those of the text
  have hstart : ∀ f ∈ es, ¬ f.range.start < e.range.start := by
    intro f hf
    have h1 := hbefore f hf
    unfold TextEdit.EndsBefore at h1
    rw [Position.lt_iff] at h1 hne ⊢
    omega
  obtain ⟨x, y, hx, hy, hu⟩ := unlines_replace done lines e hstep
  rw [h.places _ hstart] at hx
  rw [h.places _ hbefore] at hy
  have hxy : x.length ≤ y.length := by
    refine Nat.le_of_not_lt fun hlt => hne ?_
    exact (length_lt_iff_of_before? _ _ _ y x hy hx).mp hlt
  have hylen : y.length ≤ text.length := by
    have := length_le_of_before? (pieces text) _ y hy
    rwa [unlines_pieces] at this
  have hnext : ∀ s ∈ spans, y.length ≤ s.start := h.le_start hy hbefore
  refine ⟨⟨x.length, y.length, e.newText.toList⟩, ?_, ⟨?_, ?_⟩, ?_, ?_⟩
  · rw [List.map_cons, List.map_cons, span?_of_before? text e x y hx hy, h.spans_eq]
  · intro s hs
    rcases List.mem_cons.mp hs with rfl | hs
    · exact ⟨hxy, hylen⟩
    · exact h.apart.inside s hs
  · exact List.pairwise_cons.mpr ⟨hnext, h.apart.ordered⟩
  · intro k _ hk
    have hkx : k ≤ x.length := hk _ List.mem_cons_self
    have hxt : x = text.take x.length := by
      have := take_of_before? (pieces text) _ x hx
      rwa [unlines_pieces] at this
    rw [hu, h.text_eq _ hylen hnext, List.append_assoc, List.drop_append_of_le_length hkx,
      spliceFrom_cons, ← hxt, List.append_assoc]
  · intro q hq
    rw [before?_replace done lines e q hstep (hq e List.mem_cons_self)]
    exact h.places q fun f hf => hq f (List.mem_cons_of_mem _ hf)

end Spliced

/-- The edits of a batch in document order, made from the last one to the first. -/
theorem replaceAll_reverse (text : List Char) (es : List TextEdit) (lines : List (List Char))
    (h : replaceAll (pieces text) es.reverse = .ok lines)
    (hinv : ∀ e ∈ es, ¬ e.range.stop < e.range.start) (ho : es.Pairwise TextEdit.EndsBefore) :
    ∃ spans, Spliced text es lines spans := by
  induction es generalizing lines with
  | nil =>
    obtain rfl := Except.ok.inj h
    exact ⟨[], .nil text⟩
  | cons e es ih =>
    obtain ⟨hbefore, ho'⟩ := List.pairwise_cons.mp ho
    rw [List.reverse_cons, replaceAll_concat] at h
    cases hr : replaceAll (pieces text) es.reverse with
    | error fault => rw [hr] at h; cases h
    | ok done =>
      rw [hr] at h
      obtain ⟨spans, hspliced⟩ := ih done hr (fun f hf => hinv f (List.mem_cons_of_mem _ hf)) ho'
      obtain ⟨s, hs⟩ := hspliced.cons (hinv e List.mem_cons_self) hbefore h
      exact ⟨s :: spans, hs⟩

/-! ## the batch -/

theorem before_eq_zipIdxLE (a b : Span × Nat) :
    decide (a.1.start < b.1.start ∨ (a.1.start = b.1.start ∧ a.2 ≤ b.2)) =
      List.zipIdxLE (fun a b => !decide (b.start < a.start)) a b := by
  unfold List.zipIdxLE
  by_cases h1 : b.1.start < a.1.start
  · have h2 : ¬ a.1.start < b.1.start := by omega
    have h3 : ¬ a.1.start = b.1.start := by omega
    simp [h1, h2, h3]
  · by_cases h2 : a.1.start < b.1.start
    · simp [h1, h2]
    · have h3 : a.1.start = b.1.start := by omega
      simp [h3]

theorem inTextOrder_eq_mergeSort (spans : List Span) :
    inTextOrder spans = spans.mergeSort fun a b => !decide (b.start < a.start) := by
  have hle : (fun a b : Span × Nat =>
      decide (a.1.start < b.1.start ∨ (a.1.start = b.1.start ∧ a.2 ≤ b.2))) =
      List.zipIdxLE fun a b => !decide (b.start < a.start) := by
    funext a b
    exact before_eq_zipIdxLE a b
  unfold inTextOrder
  rw [hle]
  exact List.mergeSort_zipIdx

/-- Edits in document order have their spans in text order. -/
theorem map_inDocumentOrder (text : List Char) (edits : List TextEdit) (ordered : List Span)
    (h : (inDocumentOrder edits).map (span? text) = ordered.map some) :
    ∃ spans, edits.map (span? text) = spans.map some ∧ inTextOrder spans = ordered := by
  have hf : ∀ e ∈ edits, span? text e = some ((span? text e).getD default) := by
    intro e he
    have hm : span? text e ∈ ordered.map some := by
      rw [← h]
      exact List.mem_map_of_mem ((mem_inDocumentOrder edits e).mpr he)
    obtain ⟨s, _, hs⟩ := List.mem_map.mp hm
    rw [← hs]
    rfl
  refine ⟨edits.map fun e => (span? text e).getD default, ?_, ?_⟩
  · rw [List.map_map]
    exact List.map_congr_left hf
  · rw [inTextOrder_eq_mergeSort]
    unfold inDocumentOrder at h
    rw [← List.map_mergeSort (r := fun a b => !decide (b.range.start < a.range.start))]
    · have hmap : ((edits.mergeSort fun a b => !decide (b.range.start < a.range.start)).map
          fun e => (span? text e).getD default).map some = ordered.map some := by
        rw [← h, List.map_map]
        refine List.map_congr_left fun e he => ?_
        exact (hf e ((mem_inDocumentOrder edits e).mp he)).symm
      exact (List.map_inj_right fun _ _ => Option.some.inj).mp hmap
    · intro a ha b hb
      rw [decide_eq_decide.mpr
        (start_lt_iff_of_span? text b a _ _ (hf b hb) (hf a ha)).symm]

/-- **A batch that can be applied is one simultaneous replacement.**  Every edit has a span in the
text as it was, the spans in text order lie apart from one another, and the new text is the old one
with all of them replaced at once. -/
theorem applyEditsToText_eq_splice (text : String) (edits : List TextEdit) (out : String)
    (h : applyEditsToText text edits = .ok out) :
    ∃ spans, edits.map (span? text.toList) = spans.map some ∧
      Apart text.toList (inTextOrder spans) ∧ out.toList = splice text.toList spans := by
  unfold applyEditsToText applyEdits at h
  cases ha : applicationOrder edits with
  | error fault => rw [ha] at h; cases h
  | ok order =>
    obtain ⟨rfl, hinv, ho⟩ := applicationOrder_eq_ok edits order ha
    cases hr : replaceAll (pieces text.toList) (inDocumentOrder edits).reverse with
    | error fault => simp [ha, hr, bind, Except.bind, Except.map] at h
    | ok lines =>
      have hout : String.ofList (unlines lines) = out := by
        simpa [ha, hr, bind, Except.bind, Except.map, pure, Except.pure] using h
      obtain ⟨ordered, hs⟩ := replaceAll_reverse text.toList _ lines hr
        (fun e he => hinv e ((mem_inDocumentOrder edits e).mp he)) ho
      obtain ⟨spans, hmap, rfl⟩ := map_inDocumentOrder text.toList edits ordered hs.spans_eq
      refine ⟨spans, hmap, hs.apart, ?_⟩
      rw [← hout, String.toList_ofList]
      have h0 := hs.text_eq 0 (Nat.zero_le _) fun s _ => Nat.zero_le _
      rwa [List.drop_zero] at h0

/-- Two insertions at one place, given out of order with a range that joins two lines. -/
theorem splice_joining_lines :
    applyEditsToText "a😀b\ncd\ne"
        [⟨⟨⟨0, 3⟩, ⟨1, 1⟩⟩, "X\nY"⟩, ⟨⟨⟨0, 1⟩, ⟨0, 1⟩⟩, "1"⟩, ⟨⟨⟨0, 1⟩, ⟨0, 3⟩⟩, "2"⟩] =
      .ok "a12X\nYd\ne" ∧
    ∃ spans, [⟨⟨⟨0, 3⟩, ⟨1, 1⟩⟩, "X\nY"⟩, ⟨⟨⟨0, 1⟩, ⟨0, 1⟩⟩, "1"⟩, ⟨⟨⟨0, 1⟩, ⟨0, 3⟩⟩, "2"⟩].map
        (span? "a😀b\ncd\ne".toList) = spans.map some ∧
      Apart "a😀b\ncd\ne".toList (inTextOrder spans) ∧
      "a12X\nYd\ne".toList = splice "a😀b\ncd\ne".toList spans :=
  ⟨by cbv, applyEditsToText_eq_splice _ _ _ (by cbv)⟩

end CodeBridge
