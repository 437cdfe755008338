import Mathlib.Logic.Equiv.Basic
import CodeBridge.Proofs.Edit.Acceptance

/-!
# The order of a batch does not matter

A batch is put in document order first, and what is made of it depends on that order alone.  Two
batches with the same edits have one document order when they list the edits of each place alike,
so they come to the same text or fail alike; only which of several inverted ranges is reported is
still a matter of the order given.

* `Reordered`                 the same edits, those that start at one place in the order they had;
* `inDocumentOrder_eq`        one document order for both;
* `filter_inDocumentOrder`    leaving edits out and putting a batch in order can be exchanged;
* `split_inDocumentOrder`     the insertions at a place part a batch in two;
* `spliceFrom_append`         spans on both sides of a place are spliced apart from one another;
* `Placed`                    where the insertions at a place are in the text that comes out.
-/

namespace CodeBridge

/-! ## reordered batches -/

/-- The same edits in another order that leaves those that start at one place in theirs. -/
def Reordered (a b : List TextEdit) : Prop :=
  ∃ place : Fin a.length ≃ Fin b.length, (∀ i, b.get (place i) = a.get i) ∧
    ∀ i j, i < j → (a.get i).range.start = (a.get j).range.start → place i < place j

theorem Precedes.ne {edits : List TextEdit} {i j : Fin edits.length} (h : Precedes edits i j) :
    i ≠ j := by
  rintro rfl
  exact h.asymm h

theorem map_documentOrder_place {a b : List TextEdit} {place : Fin a.length ≃ Fin b.length}
    (hsame : ∀ i, b.get (place i) = a.get i)
    (hkept : ∀ i j, i < j → (a.get i).range.start = (a.get j).range.start → place i < place j) :
    (documentOrder a).map place = documentOrder b := by
  have hsorted : ((documentOrder a).map place).Pairwise (Precedes b) := by
    refine List.pairwise_map.mpr ((pairwise_documentOrder a).imp fun {i j} hij => ?_)
    have hitem : ∀ i, b[place i] = a[i] := hsame
    unfold Precedes
    rw [hitem, hitem]
    exact hij.imp id fun h => ⟨h.1, hkept i j h.2 h.1⟩
  have hperm : ((documentOrder a).map place).Perm (documentOrder b) := by
    refine (List.perm_ext_iff_of_nodup ?_ ?_).mpr fun j => ?_
    · exact hsorted.imp fun h => h.ne
    · exact (pairwise_documentOrder b).imp fun h => h.ne
    · have hj : place (place.symm j) = j := place.apply_symm_apply j
      exact iff_of_true (hj ▸ List.mem_map_of_mem (mem_documentOrder a _)) (mem_documentOrder b j)
  exact hperm.eq_of_pairwise (fun i j _ _ hij hji => absurd hji hij.asymm) hsorted
    (pairwise_documentOrder b)

theorem inDocumentOrder_eq {a b : List TextEdit} (h : Reordered a b) :
    inDocumentOrder a = inDocumentOrder b := by
  obtain ⟨place, hsame, hkept⟩ := h
  rw [← map_documentOrder a, ← map_documentOrder b, ← map_documentOrder_place hsame hkept,
    List.map_map]
  exact List.map_congr_left fun i _ => (hsame i).symm

theorem inverted?_isSome_iff {edits : List TextEdit} :
    (inverted? edits).isSome = true ↔ ∃ e ∈ edits, e.range.inverted = true := by
  unfold inverted?
  rw [Option.isSome_map, List.find?_isSome]

/-- Apart from inverted ranges a batch is what its document order is. -/
theorem applyEditsToText_congr (text : String) {a b : List TextEdit}
    (h : inDocumentOrder a = inDocumentOrder b) :
    applyEditsToText text a = applyEditsToText text b ∨
      ∃ r s, applyEditsToText text a = .error (.inverted r) ∧
        applyEditsToText text b = .error (.inverted s) := by
  have hmem : ∀ e, e ∈ a ↔ e ∈ b := fun e => by
    rw [← mem_inDocumentOrder a, h, mem_inDocumentOrder]
  have hrefused : ∀ {edits : List TextEdit} {r : Range}, inverted? edits = some r →
      applyEditsToText text edits = .error (.inverted r) := fun hr => by
    unfold applyEditsToText applyEdits applicationOrder
    rw [hr]
    rfl
  have hsome : (inverted? a).isSome = true ↔ (inverted? b).isSome = true := by
    rw [inverted?_isSome_iff, inverted?_isSome_iff]
    exact exists_congr fun e => and_congr_left fun _ => hmem e
  cases ha : inverted? a with
  | some r =>
    obtain ⟨s, hb⟩ := Option.isSome_iff_exists.mp (hsome.mp (by rw [ha]; rfl))
    exact .inr ⟨r, s, hrefused ha, hrefused hb⟩
  | none =>
    have hb : inverted? b = none := by
      rw [← Option.not_isSome_iff_eq_none, ← hsome, ha]
      exact Bool.false_ne_true
    refine .inl ?_
    unfold applyEditsToText applyEdits applicationOrder
    rw [ha, hb, h]

/-! ## parts of a batch -/

theorem mem_iff_of_filter_start {a b : List TextEdit}
    (h : ∀ p, a.filter (·.range.start = p) = b.filter (·.range.start = p)) (e : TextEdit) :
    e ∈ a ↔ e ∈ b := by
  have he := congrArg (e ∈ ·) (h e.range.start)
  simpa using he

/-- Batches in document order are equal when they list the edits of each place alike. -/
theorem eq_of_filter_start {a b : List TextEdit}
    (ha : a.Pairwise fun e f => ¬ f.range.start < e.range.start)
    (hb : b.Pairwise fun e f => ¬ f.range.start < e.range.start)
    (h : ∀ p, a.filter (·.range.start = p) = b.filter (·.range.start = p)) : a = b := by
  have hmem := mem_iff_of_filter_start h
  induction a generalizing b with
  | nil => exact (List.eq_nil_iff_forall_not_mem.mpr fun e he => nomatch (hmem e).mpr he).symm
  | cons e a ih =>
    cases b with
    | nil => exact nomatch (hmem e).mp List.mem_cons_self
    | cons f b =>
      obtain ⟨hea, ha'⟩ := List.pairwise_cons.mp ha
      obtain ⟨hfb, hb'⟩ := List.pairwise_cons.mp hb
      have hirrefl : ∀ p : Position, ¬ p < p := fun p => by
        rw [Position.lt_iff]
        omega
      -- each of the two first edits is in the other list, so neither starts before the other
      have hfe : ¬ e.range.start < f.range.start := by
        rcases List.mem_cons.mp ((hmem e).mp List.mem_cons_self) with rfl | he
        · exact hirrefl _
        · exact hfb e he
      have hef : ¬ f.range.start < e.range.start := by
        rcases List.mem_cons.mp ((hmem f).mpr List.mem_cons_self) with rfl | hf
        · exact hirrefl _
        · exact hea f hf
      have hstart : f.range.start = e.range.start := Position.eq_of_not_lt _ _ hef hfe
      obtain rfl : e = f := by
        have hfirst := h e.range.start
        simp only [List.filter_cons, hstart, decide_true, if_true] at hfirst
        exact (List.cons.inj hfirst).1
      have hrest : ∀ p, a.filter (·.range.start = p) = b.filter (·.range.start = p) := fun p => by
        have hp := h p
        simp only [List.filter_cons] at hp
        split at hp
        · exact (List.cons.inj hp).2
        · exact hp
      exact congrArg (e :: ·) (ih ha' hb' hrest (mem_iff_of_filter_start hrest))

theorem filter_inDocumentOrder_start (edits : List TextEdit) (q : TextEdit → Bool) (p : Position)
    (hq : ∀ e, q e = true → e.range.start = p) :
    (inDocumentOrder edits).filter q = edits.filter q := by
  have hsorted : (edits.filter q).Pairwise fun a b => startsBy a b = true := by
    refine List.pairwise_of_forall_mem_list fun a ha b hb => ?_
    have hstart : b.range.start = a.range.start :=
      (hq b (List.mem_filter.mp hb).2).trans (hq a (List.mem_filter.mp ha).2).symm
    simp [startsBy, hstart, Position.lt_iff]
  have hsub : (edits.filter q).Sublist (inDocumentOrder edits) := by
    refine List.sublist_mergeSort (fun a b c hab hbc => ?_) (fun a b => ?_) hsorted
      List.filter_sublist
    · simp only [Bool.not_eq_true', decide_eq_false_iff_not, Position.lt_iff] at hab hbc ⊢
      omega
    · simp only [Bool.or_eq_true, Bool.not_eq_true', decide_eq_false_iff_not, Position.lt_iff]
      omega
  have hfilter : (edits.filter q).Sublist ((inDocumentOrder edits).filter q) := by
    have htwice := hsub.filter q
    rwa [List.filter_filter, funext fun e => Bool.and_self (q e)] at htwice
  have hlength : (edits.filter q).length = ((inDocumentOrder edits).filter q).length :=
    ((List.mergeSort_perm edits _).filter q).length_eq.symm
  exact (hfilter.eq_of_length hlength).symm

theorem filter_inDocumentOrder (edits : List TextEdit) (q : TextEdit → Bool) :
    (inDocumentOrder edits).filter q = inDocumentOrder (edits.filter q) := by
  refine eq_of_filter_start ((inDocumentOrder_sorted edits).filter q)
    (inDocumentOrder_sorted (edits.filter q)) fun p => ?_
  have hstart : ∀ e : TextEdit, decide (e.range.start = p) = true → e.range.start = p :=
    fun e he => of_decide_eq_true he
  rw [filter_inDocumentOrder_start (edits.filter q) _ p hstart, List.filter_filter,
    List.filter_filter]
  exact filter_inDocumentOrder_start edits _ p fun e he => hstart e (Bool.and_eq_true_iff.mp he).1

/-! ## the insertions at a place -/

theorem filter_append_filter_not {α : Type} (q : α → Bool) (l : List α)
    (h : l.Pairwise fun a b => q b = true → q a = true) :
    l.filter q ++ l.filter (fun a => !q a) = l := by
  induction l with
  | nil => rfl
  | cons a l ih =>
    obtain ⟨ha, hl⟩ := List.pairwise_cons.mp h
    cases hq : q a with
    | true =>
      rw [List.filter_cons_of_pos hq, List.filter_cons_of_neg (by simp [hq]), List.cons_append,
        ih hl]
    | false =>
      have hnone : ∀ b ∈ l, ¬ q b = true := fun b hb hqb => by
        rw [ha b hb hqb] at hq
        cases hq
      rw [List.filter_cons_of_neg (by simp [hq]), List.filter_eq_nil_iff.mpr hnone,
        List.nil_append, List.filter_eq_self.mpr]
      intro b hb
      rcases List.mem_cons.mp hb with rfl | hb
      · simp [hq]
      · simpa using hnone b hb

def TextEdit.startsBefore (p : Position) (e : TextEdit) : Bool := decide (e.range.start < p)

/-- The edit replaces nothing, and puts its text at a place. -/
def TextEdit.insertsAt (p : Position) (e : TextEdit) : Bool := decide (e.range = ⟨p, p⟩)

/-- The edit starts at or after a place, and is no insertion there. -/
def TextEdit.follows (p : Position) (e : TextEdit) : Bool := !e.startsBefore p && !e.insertsAt p

/-- In document order all that starts before a place comes first, then what is inserted there. -/
theorem split_inDocumentOrder {edits : List TextEdit} (p : Position) (hranges : NoneInverted edits)
    (hapart : NoneOverlap edits) :
    inDocumentOrder edits = inDocumentOrder (edits.filter (·.startsBefore p)) ++
      edits.filter (·.insertsAt p) ++ inDocumentOrder (edits.filter (·.follows p)) := by
  have hends := noneOverlap_iff.mp hapart
  have hrange : ∀ e ∈ inDocumentOrder edits, ¬ e.range.stop < e.range.start := fun e he =>
    hranges e ((mem_inDocumentOrder edits e).mp he)
  have hfirst : (inDocumentOrder edits).Pairwise
      fun e f => f.startsBefore p = true → e.startsBefore p = true := by
    refine (inDocumentOrder_sorted edits).imp fun {e f} hef hf => ?_
    simp only [TextEdit.startsBefore, decide_eq_true_eq, Position.lt_iff] at hef hf ⊢
    omega
  -- what ends before an insertion at `p` and does not start before `p` is an insertion there
  have hthen : ((inDocumentOrder edits).filter fun e => !e.startsBefore p).Pairwise
      fun e f => f.insertsAt p = true → e.insertsAt p = true := by
    refine List.Pairwise.imp_of_mem ?_ (hends.filter _)
    intro e f he _ hef hf
    obtain ⟨he, hnot⟩ := List.mem_filter.mp he
    have hinv := hrange e he
    simp only [TextEdit.insertsAt, decide_eq_true_eq] at hf ⊢
    simp only [TextEdit.startsBefore, Bool.not_eq_true', decide_eq_false_iff_not] at hnot
    replace hef : ¬ p < e.range.stop := by
      rw [TextEdit.EndsBefore, hf] at hef
      exact hef
    have hstart : e.range.start = p := by
      refine Position.eq_of_not_lt _ _ hnot fun hlt => ?_
      rw [Position.lt_iff] at hef hinv hlt
      omega
    have hstop : e.range.stop = p := Position.eq_of_not_lt _ _ (hstart ▸ hinv) hef
    calc e.range = ⟨e.range.start, e.range.stop⟩ := rfl
      _ = ⟨p, p⟩ := by rw [hstart, hstop]
  have hinserts : ∀ e : TextEdit, (e.insertsAt p && !e.startsBefore p) = e.insertsAt p :=
    fun e => by
      cases hi : e.insertsAt p with
      | false => rfl
      | true =>
        have hrange : e.range = ⟨p, p⟩ := of_decide_eq_true hi
        simp [TextEdit.startsBefore, hrange, Position.lt_iff]
  have hfollows : ∀ e : TextEdit, (!e.insertsAt p && !e.startsBefore p) = e.follows p :=
    fun e => Bool.and_comm _ _
  calc inDocumentOrder edits
      = (inDocumentOrder edits).filter (·.startsBefore p) ++
          (inDocumentOrder edits).filter (fun e => !e.startsBefore p) :=
        (filter_append_filter_not _ _ hfirst).symm
    _ = (inDocumentOrder edits).filter (·.startsBefore p) ++
          ((inDocumentOrder edits).filter (·.insertsAt p) ++
            (inDocumentOrder edits).filter (·.follows p)) := by
        rw [← filter_append_filter_not _ _ hthen, List.filter_filter, List.filter_filter]
        simp only [hinserts, hfollows]
    _ = _ := by
        rw [filter_inDocumentOrder, filter_inDocumentOrder_start edits _ p fun e he => by
            rw [of_decide_eq_true he],
          filter_inDocumentOrder, List.append_assoc]

/-! ## the text that comes out -/

theorem drop_eq_append {α : Type} (l : List α) {k x : Nat} (hk : k ≤ x) :
    l.drop k = (l.take x).drop k ++ l.drop x := by
  have hrest : l.drop x = (l.drop k).drop (x - k) := by
    rw [List.drop_drop, Nat.add_sub_cancel' hk]
  rw [List.drop_take, hrest, List.take_append_drop]

theorem spliceFrom_append {text : List Char} {x : Nat} (ss ts : List Span) (k : Nat) (hk : k ≤ x)
    (hss : ∀ s ∈ ss, s.start ≤ s.stop ∧ s.stop ≤ x) (hts : ∀ t ∈ ts, x ≤ t.start) :
    spliceFrom text k (ss ++ ts) = spliceFrom (text.take x) k ss ++ spliceFrom text x ts := by
  induction ss generalizing k with
  | nil =>
    cases ts with
    | nil => exact drop_eq_append text hk
    | cons t ts =>
      have htake : (text.take t.start).take x = text.take x := by
        rw [List.take_take, Nat.min_eq_left (hts t List.mem_cons_self)]
      rw [List.nil_append, spliceFrom_cons, spliceFrom_cons, spliceFrom_nil,
        drop_eq_append (text.take t.start) hk, htake]
      simp only [List.append_assoc]
  | cons s ss ih =>
    obtain ⟨hs, hss⟩ := List.forall_mem_cons.mp hss
    rw [List.cons_append, spliceFrom_cons, spliceFrom_cons, ih s.stop hs.2 hss, List.take_take,
      Nat.min_eq_left (Nat.le_trans hs.1 hs.2)]
    simp only [List.append_assoc]

theorem spliceFrom_insertions {text : List Char} {x : Nat} (texts : List (List Char))
    (ts : List Span) :
    spliceFrom text x (texts.map (Span.mk x x) ++ ts) = texts.flatten ++ spliceFrom text x ts := by
  induction texts with
  | nil => rfl
  | cons t texts ih =>
    have hnothing : (text.take x).drop x = [] := List.drop_eq_nil_of_le (List.length_take_le x text)
    rw [List.map_cons, List.cons_append, spliceFrom_cons, ih, hnothing, List.nil_append,
      List.flatten_cons, List.append_assoc]

/-- What a batch that can be applied leaves are its spans in document order, spliced. -/
theorem exists_spliced {text out : String} {edits : List TextEdit}
    (h : applyEditsToText text edits = .ok out) :
    ∃ spans, (inDocumentOrder edits).map (span? text.toList) = spans.map some ∧
      Apart text.toList spans ∧ out.toList = spliceFrom text.toList 0 spans := by
  unfold applyEditsToText applyEdits at h
  cases ha : applicationOrder edits with
  | error fault => rw [ha] at h; cases h
  | ok order =>
    obtain ⟨rfl, hranges, hends⟩ := applicationOrder_eq_ok edits order ha
    cases hr : replaceAll (pieces text.toList) (inDocumentOrder edits).reverse with
    | error fault => simp [ha, hr, bind, Except.bind, Except.map] at h
    | ok lines =>
      have hout : String.ofList (unlines lines) = out := by
        simpa [ha, hr, bind, Except.bind, Except.map, pure, Except.pure] using h
      obtain ⟨spans, hs⟩ := replaceAll_reverse text.toList _ lines hr
        (fun e he => hranges e ((mem_inDocumentOrder edits e).mp he)) hends
      have hall := hs.text_eq 0 (Nat.zero_le _) fun s _ => Nat.zero_le _
      refine ⟨spans, hs.spans_eq, hs.apart, ?_⟩
      rw [← hout, String.toList_ofList, ← hall, List.drop_zero]

theorem exists_applied_filter {text out : String} {edits : List TextEdit}
    (h : applyEditsToText text edits = .ok out) (q : TextEdit → Bool) :
    ∃ part, applyEditsToText text (edits.filter q) = .ok part := by
  obtain ⟨hranges, hapart, hwithin⟩ := flawless_of_applyEditsToText h
  have hsub : ∀ e ∈ edits.filter q, e ∈ edits := fun e he => (List.mem_filter.mp he).1
  cases hpart : applyEditsToText text (edits.filter q) with
  | ok part => exact ⟨part, rfl⟩
  | error fault =>
    refine absurd ⟨fun e he => hranges e (hsub e he), ?_, fun e he => hwithin e (hsub e he)⟩
      (refused_of_applyEditsToText hpart).flawed
    rw [noneOverlap_iff, ← filter_inDocumentOrder]
    exact (noneOverlap_iff.mp hapart).filter q

/-- Where the insertions at a place are: between what the edits that start before it make of the
text up to it, and what the others make of the rest. -/
def Placed (text : String) (edits : List TextEdit) (p : Position) (out : String) : Prop :=
  ∃ x before after,
    offset? text.toList p = some x ∧
      out.toList =
        before ++ (edits.filter (·.insertsAt p)).flatMap (·.newText.toList) ++ after ∧
      applyEditsToText text (edits.filter (·.startsBefore p)) =
        .ok (String.ofList (before ++ text.toList.drop x)) ∧
      applyEditsToText text (edits.filter (·.follows p)) =
        .ok (String.ofList (text.toList.take x ++ after))

/-- A part of a batch leaves the spans that it has in the whole batch, spliced. -/
theorem applyEditsToText_filter {text out : String} {edits : List TextEdit}
    (h : applyEditsToText text edits = .ok out) (q : TextEdit → Bool) {spans : List Span}
    (hspans : (inDocumentOrder (edits.filter q)).map (span? text.toList) = spans.map some) :
    applyEditsToText text (edits.filter q) =
      .ok (String.ofList (spliceFrom text.toList 0 spans)) := by
  obtain ⟨part, hpart⟩ := exists_applied_filter h q
  obtain ⟨own, hown, -, hout⟩ := exists_spliced hpart
  have heq : own = spans :=
    (List.map_inj_right fun _ _ => Option.some.inj).mp (hown.symm.trans hspans)
  rw [hpart, ← heq, ← hout, String.ofList_toList]

theorem map_span?_insertions {text : List Char} {edits : List TextEdit} {p : Position}
    {spans : List Span}
    (h : (edits.filter (·.insertsAt p)).map (span? text) = spans.map some)
    (hne : ∃ e ∈ edits, e.range = ⟨p, p⟩) :
    ∃ x, offset? text p = some x ∧
      spans = ((edits.filter (·.insertsAt p)).map (·.newText.toList)).map (Span.mk x x) := by
  have hrange : ∀ e ∈ edits.filter (·.insertsAt p), e.range = ⟨p, p⟩ := fun e he =>
    of_decide_eq_true (List.mem_filter.mp he).2
  obtain ⟨x, hx⟩ : ∃ x, offset? text p = some x := by
    obtain ⟨e, he, hp⟩ := hne
    have hm : span? text e ∈ spans.map some := h ▸
      List.mem_map_of_mem (List.mem_filter.mpr ⟨he, decide_eq_true hp⟩)
    obtain ⟨s, -, hs⟩ := List.mem_map.mp hm
    unfold span? at hs
    rw [hp] at hs
    cases hx : offset? text p with
    | none => rw [hx] at hs; cases hs
    | some x => exact ⟨x, rfl⟩
  refine ⟨x, hx, (List.map_inj_right fun _ _ => Option.some.inj).mp ?_⟩
  rw [← h, List.map_map, List.map_map]
  refine List.map_congr_left fun e he => ?_
  unfold span?
  rw [hrange e he, hx]
  rfl

/-- Insertions at one place come out one after the other, in the order in which they were given. -/
theorem placed_of_applied {text out : String} {edits : List TextEdit} {p : Position}
    (h : applyEditsToText text edits = .ok out) (hne : ∃ e ∈ edits, e.range = ⟨p, p⟩) :
    Placed text edits p out := by
  obtain ⟨hranges, hapart, -⟩ := flawless_of_applyEditsToText h
  obtain ⟨spans, hspans, hkeep, hout⟩ := exists_spliced h
  rw [split_inDocumentOrder p hranges hapart, List.map_append, List.map_append] at hspans
  obtain ⟨upTo, behind, rfl, hupTo, hbehind⟩ := List.map_eq_append_iff.mp hspans.symm
  obtain ⟨before, inserted, rfl, hbefore, hinserted⟩ := List.map_eq_append_iff.mp hupTo
  obtain ⟨x, hx, rfl⟩ := map_span?_insertions hinserted.symm hne
  obtain ⟨t, ht⟩ : ∃ t, t ∈ (edits.filter (·.insertsAt p)).map (·.newText.toList) := by
    obtain ⟨e, he, hp⟩ := hne
    exact ⟨_, List.mem_map_of_mem (List.mem_filter.mpr ⟨he, decide_eq_true hp⟩)⟩
  -- one of the insertions keeps the spans before it and behind it apart
  obtain ⟨hfirst, -, hcross⟩ := List.pairwise_append.mp hkeep.ordered
  have hmem : Span.mk x x t ∈ ((edits.filter (·.insertsAt p)).map (·.newText.toList)).map
      (Span.mk x x) := List.mem_map_of_mem ht
  have hss : ∀ s ∈ before, s.start ≤ s.stop ∧ s.stop ≤ x := fun s hs =>
    ⟨(hkeep.inside s (List.mem_append_left _ (List.mem_append_left _ hs))).1,
      (List.pairwise_append.mp hfirst).2.2 s hs _ hmem⟩
  have hts : ∀ s ∈ behind, x ≤ s.start := fun s hs =>
    hcross _ (List.mem_append_right _ hmem) s hs
  have hall : ∀ s ∈ ((edits.filter (·.insertsAt p)).map (·.newText.toList)).map (Span.mk x x) ++
      behind,
      x ≤ s.start := fun s hs => by
    rcases List.mem_append.mp hs with hs | hs
    · obtain ⟨u, -, rfl⟩ := List.mem_map.mp hs
      exact Nat.le_refl x
    · exact hts s hs
  refine ⟨x, spliceFrom (text.toList.take x) 0 before, spliceFrom text.toList x behind, hx, ?_, ?_,
    ?_⟩
  · rw [hout, List.append_assoc, spliceFrom_append before _ 0 (Nat.zero_le x) hss hall,
      spliceFrom_insertions, List.flatMap_def, List.append_assoc]
  · rw [applyEditsToText_filter h _ hbefore.symm]
    have hend : spliceFrom text.toList 0 (before ++ []) = _ :=
      spliceFrom_append before [] 0 (Nat.zero_le x) hss nofun
    rw [List.append_nil] at hend
    rw [hend, spliceFrom_nil]
  · rw [applyEditsToText_filter h _ hbehind.symm]
    have hstart : spliceFrom text.toList 0 ([] ++ behind) = _ :=
      spliceFrom_append [] behind 0 (Nat.zero_le x) nofun hts
    rw [List.nil_append] at hstart
    rw [hstart, spliceFrom_nil, List.drop_zero]

/-! ## order does not matter -/

/-- **A batch comes to the same, or is refused for a fault of the same kind, in whatever order it is
given, as long as edits that start at one place keep theirs; and insertions at one place come out
in the order in which they were given.** -/
theorem applyEditsToText_order (text : String) :
    (∀ a b : List TextEdit, Reordered a b →
      applyEditsToText text a = applyEditsToText text b ∨
        ∃ r s, applyEditsToText text a = .error (.inverted r) ∧
          applyEditsToText text b = .error (.inverted s)) ∧
      ∀ (edits : List TextEdit) (out : String) (p : Position),
        applyEditsToText text edits = .ok out → (∃ e ∈ edits, e.range = ⟨p, p⟩) →
          Placed text edits p out :=
  ⟨fun _ _ h => applyEditsToText_congr text (inDocumentOrder_eq h), fun _ _ _ => placed_of_applied⟩

/-- Two insertions at one place, a replacement that begins there, and an edit that joins lines. -/
def insertedTwice : List TextEdit :=
  [⟨⟨⟨0, 1⟩, ⟨0, 1⟩⟩, "1"⟩, ⟨⟨⟨0, 3⟩, ⟨1, 1⟩⟩, "X"⟩, ⟨⟨⟨0, 1⟩, ⟨0, 1⟩⟩, "2"⟩,
    ⟨⟨⟨0, 1⟩, ⟨0, 3⟩⟩, "Z"⟩]

def joiningFirst : List TextEdit :=
  [⟨⟨⟨0, 3⟩, ⟨1, 1⟩⟩, "X"⟩, ⟨⟨⟨0, 1⟩, ⟨0, 1⟩⟩, "1"⟩, ⟨⟨⟨0, 1⟩, ⟨0, 1⟩⟩, "2"⟩,
    ⟨⟨⟨0, 1⟩, ⟨0, 3⟩⟩, "Z"⟩]

theorem insertedTwice_reordered :
    Reordered insertedTwice joiningFirst ∧
      applyEditsToText "a😀b\ncd" insertedTwice = .ok "a12ZXd" ∧
      applyEditsToText "a😀b\ncd" joiningFirst = .ok "a12ZXd" ∧
      Placed "a😀b\ncd" insertedTwice ⟨0, 1⟩ "a12ZXd" := by
  have hreordered : Reordered insertedTwice joiningFirst :=
    ⟨(Equiv.swap 0 1 : Equiv.Perm (Fin 4)), by decide, by decide⟩
  have happly : applyEditsToText "a😀b\ncd" insertedTwice = .ok "a12ZXd" := by cbv
  obtain hsame | ⟨r, -, hr, -⟩ := (applyEditsToText_order "a😀b\ncd").1 _ _ hreordered
  · exact ⟨hreordered, happly, hsame ▸ happly,
      (applyEditsToText_order "a😀b\ncd").2 _ _ _ happly ⟨_, List.mem_cons_self, rfl⟩⟩
  · rw [happly] at hr
    cases hr

end CodeBridge
