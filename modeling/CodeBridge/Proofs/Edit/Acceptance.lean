import CodeBridge.Proofs.Edit.Splice

/-!
# Which batches are accepted

A batch is checked in two ways that know nothing of each other: neighbours in document order are
compared before any edit is made, and the places of an edit are looked up in lines that the edits
after it have changed already.  The verdict is nevertheless one about the batch and the text as they
were given:

* `Position.In`, `TextEdit.Within`   the lines have the places of an edit;
* `NoneInverted`, `NoneOverlap`      each range is a range, and any two of them keep apart;
* `OutOfBounds`                      what is wrong with an edit that the lines have no place for;
* `Refused`                          which fault a refused batch is refused for;
* `documentOrder`                    document order, as an order of the places of the batch;
* `Spliced.outOfBounds`              an edit that does not fit the changed lines does not fit the text,
                                     and the fault is the same.
-/

namespace CodeBridge

/-! ## places that the lines have -/

/-- The lines have the position's line, and a prefix of it has as many units as the column says. -/
def Position.In (p : Position) (lines : List (List Char)) : Prop :=
  ∃ line, lines[p.line.toNat]? = some line ∧ ∃ a, a <+: line ∧ units a = p.character.toNat

/-- The text has the places where the edit starts and ends. -/
def TextEdit.Within (e : TextEdit) (text : List Char) : Prop :=
  e.range.start.In (pieces text) ∧ e.range.stop.In (pieces text)

theorem Position.in_iff_before? {p : Position} {lines : List (List Char)} :
    p.In lines ↔ ∃ x, before? lines p = some x := by
  constructor
  · rintro ⟨_, hl, a, ⟨b, rfl⟩, hu⟩
    exact ⟨_, before?_of_line lines p a b hl hu⟩
  · rintro ⟨x, hx⟩
    obtain ⟨a, b, hl, hu, _⟩ := before?_eq_some lines p x hx
    exact ⟨a ++ b, hl, a, List.prefix_append a b, hu⟩

theorem Position.In.line_lt {p : Position} {lines : List (List Char)} (h : p.In lines) :
    p.line.toNat < lines.length := by
  obtain ⟨line, hl, _⟩ := h
  exact (List.getElem?_eq_some_iff.mp hl).1

theorem cutAt_eq_error {line : List Char} {p : Position} {fault : EditFault}
    (h : cutAt line p = .error fault) : fault = .characterOutOfBounds p.line p.character := by
  unfold cutAt at h
  split at h
  · cases h
  · exact (Except.error.inj h).symm

theorem exists_cutAt_iff {lines : List (List Char)} {line : List Char} {p : Position}
    (hl : lines[p.line.toNat]? = some line) : (∃ c, cutAt line p = .ok c) ↔ p.In lines := by
  constructor
  · rintro ⟨⟨a, b⟩, h⟩
    unfold cutAt at h
    split at h
    next parts hc =>
      obtain rfl := Except.ok.inj h
      obtain ⟨rfl, hu⟩ := (cut?_eq_some_iff _ _ _ _).mp hc
      exact ⟨a ++ b, hl, a, List.prefix_append a b, hu⟩
    next => cases h
  · rintro ⟨_, hl', a, ⟨b, rfl⟩, hu⟩
    obtain rfl := Option.some.inj (hl.symm.trans hl')
    refine ⟨(a, b), ?_⟩
    unfold cutAt
    rw [← hu, cut?_units_append]

/-! ## edits that the lines have no place for -/

/-- What is wrong with an edit that the lines have no place for: a line that is missing, or else
the first of its two columns that is none. -/
inductive OutOfBounds (lines : List (List Char)) (e : TextEdit) : EditFault → Prop where
  | line (h : lines.length ≤ e.range.start.line.toNat ∨ lines.length ≤ e.range.stop.line.toNat) :
    OutOfBounds lines e
      (.lineOutOfBounds e.range.start.line e.range.stop.line lines.length)
  | start (hstart : e.range.start.line.toNat < lines.length)
      (hstop : e.range.stop.line.toNat < lines.length) (h : ¬ e.range.start.In lines) :
    OutOfBounds lines e (.characterOutOfBounds e.range.start.line e.range.start.character)
  | stop (hstart : e.range.start.In lines) (hstop : e.range.stop.line.toNat < lines.length)
      (h : ¬ e.range.stop.In lines) :
    OutOfBounds lines e (.characterOutOfBounds e.range.stop.line e.range.stop.character)

theorem OutOfBounds.not_in {lines : List (List Char)} {e : TextEdit} {fault : EditFault}
    (h : OutOfBounds lines e fault) : ¬ (e.range.start.In lines ∧ e.range.stop.In lines) := by
  rintro ⟨hstart, hstop⟩
  cases h with
  | line h => exact h.elim (Nat.not_le.mpr hstart.line_lt) (Nat.not_le.mpr hstop.line_lt)
  | start _ _ h => exact h hstart
  | stop _ _ h => exact h hstop

theorem replace_eq_error {lines : List (List Char)} {e : TextEdit} {fault : EditFault}
    (h : replace lines e = .error fault) : OutOfBounds lines e fault := by
  simp only [replace] at h
  split at h
  next first last hf hl =>
    have hstart := (List.getElem?_eq_some_iff.mp hf).1
    have hstop := (List.getElem?_eq_some_iff.mp hl).1
    cases hc : cutAt first e.range.start with
    | error fault' =>
      rw [hc] at h
      obtain rfl : fault' = fault := Except.error.inj h
      rw [cutAt_eq_error hc]
      refine .start hstart hstop fun hin => ?_
      obtain ⟨c, hok⟩ := (exists_cutAt_iff hf).mpr hin
      rw [hc] at hok
      cases hok
    | ok parts =>
      cases hc' : cutAt last e.range.stop with
      | error fault' =>
        rw [hc, hc'] at h
        obtain rfl : fault' = fault := Except.error.inj h
        rw [cutAt_eq_error hc']
        refine .stop ((exists_cutAt_iff hf).mp ⟨parts, hc⟩) hstop fun hin => ?_
        obtain ⟨c, hok⟩ := (exists_cutAt_iff hl).mpr hin
        rw [hc'] at hok
        cases hok
      | ok parts' =>
        rw [hc, hc'] at h
        cases h
  next hnone =>
    obtain rfl := Except.error.inj h
    refine .line ?_
    by_cases hstart : lines.length ≤ e.range.start.line.toNat
    · exact .inl hstart
    · refine .inr (Nat.le_of_not_lt fun hstop => ?_)
      have hstart' := Nat.lt_of_not_le hstart
      exact hnone _ _ (List.getElem?_eq_getElem hstart') (List.getElem?_eq_getElem hstop)

/-! ## lines that have been changed already -/

namespace Spliced

variable {text : List Char} {es : List TextEdit} {done : List (List Char)} {spans : List Span}

/-- Edits that have been made had their places in the text. -/
theorem within (h : Spliced text es done spans) : ∀ e ∈ es, e.Within text := by
  intro e he
  have hm : span? text e ∈ spans.map some := h.spans_eq ▸ List.mem_map_of_mem he
  obtain ⟨s, _, hs⟩ := List.mem_map.mp hm
  unfold span? offset? at hs
  split at hs
  next start stop hstart hstop =>
    obtain ⟨x, hx, _⟩ := Option.map_eq_some_iff.mp hstart
    obtain ⟨y, hy, _⟩ := Option.map_eq_some_iff.mp hstop
    exact ⟨Position.in_iff_before?.mpr ⟨x, hx⟩, Position.in_iff_before?.mpr ⟨y, hy⟩⟩
  next => cases hs

/-- A place up to which no edit starts is in the changed lines if and only if it is in the text. -/
theorem in_iff (h : Spliced text es done spans) {q : Position}
    (hq : ∀ e ∈ es, ¬ e.range.start < q) : q.In done ↔ q.In (pieces text) := by
  rw [Position.in_iff_before?, Position.in_iff_before?, h.places q hq]

/-- **An edit that does not fit the changed lines does not fit the text**, and the fault is the
same: the lines up to the first edit made are as they were, so only columns can be at fault. -/
theorem outOfBounds {first : TextEdit} (h : Spliced text (first :: es) done spans)
    (hstarts : ∀ f ∈ first :: es, ¬ f.range.start < first.range.start) {e : TextEdit}
    (hne : ¬ e.range.stop < e.range.start) (hbefore : ∀ f ∈ first :: es, e.EndsBefore f)
    {fault : EditFault} (hfault : OutOfBounds done e fault) : OutOfBounds (pieces text) e fault := by
  have hstop : ∀ f ∈ first :: es, ¬ f.range.start < e.range.stop := hbefore
  have hstart : ∀ f ∈ first :: es, ¬ f.range.start < e.range.start := by
    intro f hf
    have h1 := hstop f hf
    rw [Position.lt_iff] at h1 hne ⊢
    omega
  -- both line numbers are at most that of the first edit made, which both lists of lines have
  have hin : first.range.start.In (pieces text) := (h.within first List.mem_cons_self).1
  have htext := hin.line_lt
  have hdone := ((h.in_iff hstarts).mpr hin).line_lt
  have hle : e.range.start.line.toNat ≤ first.range.start.line.toNat ∧
      e.range.stop.line.toNat ≤ first.range.start.line.toNat := by
    have h1 := hstop first List.mem_cons_self
    have h2 := hstart first List.mem_cons_self
    rw [Position.lt_iff] at h1 h2
    omega
  cases hfault with
  | line hline => omega
  | start _ _ hno =>
    exact .start (by omega) (by omega) fun hyes => hno ((h.in_iff hstart).mpr hyes)
  | stop hyes _ hno =>
    exact .stop ((h.in_iff hstart).mp hyes) (by omega) fun hyes' => hno ((h.in_iff hstop).mpr hyes')

end Spliced

/-- The edit that stops a run has no place in the text, while those after it have theirs. -/
theorem replaceAll_reverse_eq_error {text : List Char} {es : List TextEdit} {fault : EditFault}
    (h : replaceAll (pieces text) es.reverse = .error fault)
    (hinv : ∀ e ∈ es, ¬ e.range.stop < e.range.start) (ho : es.Pairwise TextEdit.EndsBefore) :
    ∃ before e after, es = before ++ e :: after ∧ OutOfBounds (pieces text) e fault ∧
      ∀ f ∈ after, f.Within text := by
  induction es with
  | nil => cases h
  | cons e es ih =>
    obtain ⟨hbefore, ho'⟩ := List.pairwise_cons.mp ho
    have hinv' : ∀ f ∈ es, ¬ f.range.stop < f.range.start := fun f hf =>
      hinv f (List.mem_cons_of_mem _ hf)
    rw [List.reverse_cons, replaceAll_concat] at h
    cases hr : replaceAll (pieces text) es.reverse with
    | error fault' =>
      rw [hr] at h
      obtain rfl : fault' = fault := Except.error.inj h
      obtain ⟨before, g, after, rfl, hg, hafter⟩ := ih hr hinv' ho'
      exact ⟨e :: before, g, after, rfl, hg, hafter⟩
    | ok done =>
      rw [hr] at h
      have hfault := replace_eq_error h
      obtain ⟨spans, hspliced⟩ := replaceAll_reverse text es done hr hinv' ho'
      refine ⟨[], e, es, rfl, ?_, hspliced.within⟩
      cases es with
      | nil =>
        obtain rfl := Except.ok.inj hr
        exact hfault
      | cons first es =>
        refine hspliced.outOfBounds (fun f hf => ?_) (hinv e List.mem_cons_self) hbefore hfault
        rcases List.mem_cons.mp hf with rfl | hf
        · rw [Position.lt_iff]
          omega
        · have h1 := (List.pairwise_cons.mp ho').1 f hf
          have h2 := hinv' first List.mem_cons_self
          unfold TextEdit.EndsBefore at h1
          rw [Position.lt_iff] at h1 h2 ⊢
          omega

/-! ## document order as an order of places in the batch -/

/-- The `i`-th edit of a batch comes before the `j`-th: it starts earlier, or at the same place and
was given first. -/
def Precedes (edits : List TextEdit) (i j : Fin edits.length) : Prop :=
  edits[i].range.start < edits[j].range.start ∨
    (edits[i].range.start = edits[j].range.start ∧ i < j)

theorem Precedes.asymm {edits : List TextEdit} {i j : Fin edits.length}
    (h : Precedes edits i j) : ¬ Precedes edits j i := by
  rintro (h' | ⟨e', h'⟩) <;> rcases h with h | ⟨e, h⟩
  · rw [Position.lt_iff] at h h'
    omega
  · rw [e, Position.lt_iff] at h'
    omega
  · rw [e', Position.lt_iff] at h
    omega
  · omega

theorem eq_or_precedes_iff {edits : List TextEdit} {i j : Fin edits.length} :
    i = j ∨ Precedes edits i j ↔ ¬ edits[j].range.start < edits[i].range.start ∧
      (edits[i].range.start < edits[j].range.start ∨ i ≤ j) := by
  unfold Precedes
  by_cases hlt : edits[i].range.start < edits[j].range.start
  · have hgt : ¬ edits[j].range.start < edits[i].range.start := by
      rw [Position.lt_iff] at hlt ⊢
      omega
    exact iff_of_true (.inr (.inl hlt)) ⟨hgt, .inl hlt⟩
  · by_cases hgt : edits[j].range.start < edits[i].range.start
    · refine iff_of_false ?_ fun h => h.1 hgt
      rintro (rfl | h | ⟨e, -⟩)
      · exact hlt hgt
      · exact hlt h
      · rw [e] at hgt hlt
        exact hlt hgt
    · have e := Position.eq_of_not_lt _ _ hlt hgt
      constructor
      · rintro (rfl | h | ⟨-, h⟩)
        · exact ⟨hgt, .inr (Nat.le_refl _)⟩
        · exact absurd h hlt
        · exact ⟨hgt, .inr (Nat.le_of_lt h)⟩
      · rintro ⟨-, h | h⟩
        · exact absurd h hlt
        · exact (Nat.eq_or_lt_of_le h).imp Fin.ext fun h => .inr ⟨e, h⟩

theorem zipIdxLE_iff {α : Type} {le : α → α → Bool} {a b : α × Nat} :
    List.zipIdxLE le a b = true ↔ le a.1 b.1 = true ∧ (¬ le b.1 a.1 = true ∨ a.2 ≤ b.2) := by
  unfold List.zipIdxLE
  cases le a.1 b.1 <;> cases le b.1 a.1 <;> simp

def startsBy (a b : TextEdit) : Bool := !decide (b.range.start < a.range.start)

def numbered (edits : List TextEdit) (i : Fin edits.length) : TextEdit × Nat := (edits[i], i.val)

def comesBy (edits : List TextEdit) (i j : Fin edits.length) : Bool :=
  List.zipIdxLE startsBy (numbered edits i) (numbered edits j)

theorem comesBy_iff {edits : List TextEdit} {i j : Fin edits.length} :
    comesBy edits i j = true ↔ i = j ∨ Precedes edits i j := by
  rw [eq_or_precedes_iff, comesBy, zipIdxLE_iff]
  simp only [startsBy, Bool.not_eq_true', decide_eq_false_iff_not, not_not]
  exact Iff.rfl

def documentOrder (edits : List TextEdit) : List (Fin edits.length) :=
  (List.finRange edits.length).mergeSort (comesBy edits)

theorem mem_documentOrder (edits : List TextEdit) (i : Fin edits.length) :
    i ∈ documentOrder edits :=
  (List.mergeSort_perm _ _).mem_iff.mpr (List.mem_finRange i)

theorem pairwise_documentOrder (edits : List TextEdit) :
    (documentOrder edits).Pairwise (Precedes edits) := by
  have hsorted : (documentOrder edits).Pairwise fun i j => comesBy edits i j = true := by
    refine List.pairwise_mergeSort (fun i j k hij hjk => ?_) (fun i j => ?_) _
    · rw [comesBy_iff, eq_or_precedes_iff, Position.lt_iff, Position.lt_iff] at hij hjk ⊢
      omega
    · rw [Bool.or_eq_true, comesBy_iff, comesBy_iff, eq_or_precedes_iff, eq_or_precedes_iff,
        Position.lt_iff, Position.lt_iff]
      omega
  have hne : (documentOrder edits).Pairwise fun i j => i ≠ j :=
    (List.mergeSort_perm _ _).nodup_iff.mpr (List.nodup_finRange _)
  exact (hsorted.and hne).imp fun ⟨h, hij⟩ => (comesBy_iff.mp h).resolve_left hij

theorem map_numbered_finRange (edits : List TextEdit) :
    (List.finRange edits.length).map (numbered edits) = edits.zipIdx := by
  refine List.ext_getElem (by simp) fun n h₁ h₂ => ?_
  simp [numbered]

/-- **Document order is an order of the places of a batch.**  The sort is stable, so it is the sort
of the edits with their numbers. -/
theorem map_documentOrder (edits : List TextEdit) :
    (documentOrder edits).map (fun i => edits[i]) = inDocumentOrder edits := by
  have hmap : (documentOrder edits).map (numbered edits) =
      edits.zipIdx.mergeSort (List.zipIdxLE startsBy) := by
    rw [← map_numbered_finRange]
    exact List.map_mergeSort fun _ _ _ _ => rfl
  calc (documentOrder edits).map (fun i => edits[i])
      = ((documentOrder edits).map (numbered edits)).map Prod.fst := by rw [List.map_map]; rfl
    _ = (edits.zipIdx.mergeSort (List.zipIdxLE startsBy)).map Prod.fst := by rw [hmap]
    _ = inDocumentOrder edits := List.mergeSort_zipIdx

/-! ## what can be wrong with a batch -/

def NoneInverted (edits : List TextEdit) : Prop :=
  ∀ e ∈ edits, ¬ e.range.stop < e.range.start

/-- Of any two edits the one that comes first ends at or before the start of the other. -/
def NoneOverlap (edits : List TextEdit) : Prop :=
  ∀ i j, Precedes edits i j → edits[i].EndsBefore edits[j]

/-- The fault that a batch is refused for: an inverted range before all else, then an overlap, and
of the edits that the text has no place for the last one in document order. -/
inductive Refused (text : List Char) (edits : List TextEdit) : EditFault → Prop where
  | inverted (i : Fin edits.length) (h : edits[i].range.stop < edits[i].range.start)
      (hfirst : ∀ j < i, ¬ edits[j].range.stop < edits[j].range.start) :
    Refused text edits (.inverted edits[i].range)
  | overlapping (hranges : NoneInverted edits) (i j : Fin edits.length)
      (h : Precedes edits i j) (hreach : ¬ edits[i].EndsBefore edits[j]) :
    Refused text edits (.overlapping edits[i].range.start edits[j].range.start)
  | outOfBounds (hranges : NoneInverted edits) (hapart : NoneOverlap edits) (i : Fin edits.length)
      {fault : EditFault} (h : OutOfBounds (pieces text) edits[i] fault)
      (hlast : ∀ j, Precedes edits i j → edits[j].Within text) :
    Refused text edits fault

theorem Refused.flawed {text : List Char} {edits : List TextEdit} {fault : EditFault}
    (h : Refused text edits fault) :
    ¬ (NoneInverted edits ∧ NoneOverlap edits ∧ ∀ e ∈ edits, e.Within text) := by
  rintro ⟨hranges, hapart, hwithin⟩
  cases h with
  | inverted i h => exact hranges _ (List.getElem_mem _) h
  | overlapping _ i j h hreach => exact hreach (hapart i j h)
  | outOfBounds _ _ i h => exact h.not_in (hwithin _ (List.getElem_mem _))

/-- Edits that keep apart in document order keep apart wherever they stand in the batch. -/
theorem noneOverlap_iff {edits : List TextEdit} :
    NoneOverlap edits ↔ (inDocumentOrder edits).Pairwise TextEdit.EndsBefore := by
  have hsorted := pairwise_documentOrder edits
  rw [← map_documentOrder, List.pairwise_map]
  constructor
  · exact fun h => hsorted.imp fun hij => h _ _ hij
  · intro h i j
    refine List.Pairwise.forall_of_forall_of_flip
      (R := fun i j => Precedes edits i j → edits[i].EndsBefore edits[j])
      (fun i _ hi => absurd hi hi.asymm) (h.imp fun {i j} hij (_ : Precedes edits i j) => hij)
      (hsorted.imp fun hij hji => absurd hji hij.asymm) (mem_documentOrder edits i)
      (mem_documentOrder edits j)

/-! ## the checks before the first edit -/

theorem inverted?_eq_some {edits : List TextEdit} {range : Range}
    (h : inverted? edits = some range) :
    ∃ i : Fin edits.length, range = edits[i].range ∧
      edits[i].range.stop < edits[i].range.start ∧
        ∀ j < i, ¬ edits[j].range.stop < edits[j].range.start := by
  obtain ⟨e, hfind, rfl⟩ := Option.map_eq_some_iff.mp h
  obtain ⟨hinv, n, hn, rfl, hfirst⟩ := List.find?_eq_some_iff_getElem.mp hfind
  refine ⟨⟨n, hn⟩, rfl, by simpa [Range.inverted] using hinv, fun j hj => ?_⟩
  simpa [Range.inverted] using hfirst j.val hj

theorem overlap?_eq_some {order : List TextEdit} {first second : Position}
    (h : overlap? order = some (first, second)) :
    ∃ before later earlier after, order = before ++ later :: earlier :: after ∧
      later.range.start < earlier.range.stop ∧ first = earlier.range.start ∧
        second = later.range.start := by
  fun_induction overlap? order with
  | case1 later earlier rest hlt =>
    obtain ⟨rfl, rfl⟩ := Prod.mk.inj (Option.some.inj h)
    exact ⟨[], later, earlier, rest, rfl, hlt, rfl, rfl⟩
  | case2 later earlier rest hlt ih =>
    obtain ⟨before, l, e, after, horder, hreach⟩ := ih h
    exact ⟨later :: before, l, e, after, congrArg _ horder, hreach⟩
  | case3 => cases h

/-- Two neighbours in document order are two places of the batch, one before the other. -/
theorem exists_precedes {edits before after : List TextEdit} {e f : TextEdit}
    (h : inDocumentOrder edits = before ++ e :: f :: after) :
    ∃ i j, Precedes edits i j ∧ edits[i] = e ∧ edits[j] = f := by
  have hsorted := pairwise_documentOrder edits
  obtain ⟨_, rest, hsplit, _, hrest⟩ := List.map_eq_append_iff.mp ((map_documentOrder edits).trans h)
  obtain ⟨i, rest, rfl, hi, hrest⟩ := List.map_eq_cons_iff.mp hrest
  obtain ⟨j, rest, rfl, hj, _⟩ := List.map_eq_cons_iff.mp hrest
  rw [hsplit] at hsorted
  have htail := (List.pairwise_append.mp hsorted).2.1
  exact ⟨i, j, (List.pairwise_cons.mp htail).1 j List.mem_cons_self, hi, hj⟩

/-- An edit of the batch in document order is one of its places, and what precedes stands before. -/
theorem exists_place {edits before after : List TextEdit} {e : TextEdit}
    (h : inDocumentOrder edits = before ++ e :: after) :
    ∃ i, edits[i] = e ∧ ∀ j, Precedes edits i j → edits[j] ∈ after := by
  have hsorted := pairwise_documentOrder edits
  obtain ⟨earlier, rest, hsplit, _, hrest⟩ :=
    List.map_eq_append_iff.mp ((map_documentOrder edits).trans h)
  obtain ⟨i, later, rfl, hi, rfl⟩ := List.map_eq_cons_iff.mp hrest
  rw [hsplit] at hsorted
  refine ⟨i, hi, fun j hij => ?_⟩
  rcases List.mem_append.mp (hsplit ▸ mem_documentOrder edits j) with hj | hj
  · exact absurd hij ((List.pairwise_append.mp hsorted).2.2 j hj i List.mem_cons_self).asymm
  · rcases List.mem_cons.mp hj with rfl | hj
    · exact absurd hij hij.asymm
    · exact List.mem_map_of_mem hj

theorem refused_of_applicationOrder {text : List Char} {edits : List TextEdit} {fault : EditFault}
    (h : applicationOrder edits = .error fault) : Refused text edits fault := by
  simp only [applicationOrder] at h
  split at h
  next range hinv =>
    obtain rfl := Except.error.inj h
    obtain ⟨i, rfl, hi, hfirst⟩ := inverted?_eq_some hinv
    exact .inverted i hi hfirst
  next hinv =>
    have hranges : NoneInverted edits := fun e he => by
      have hf := List.find?_eq_none.mp (Option.map_eq_none_iff.mp hinv) e he
      simpa [Range.inverted] using hf
    split at h
    next first second hover =>
      obtain rfl := Except.error.inj h
      obtain ⟨before, later, earlier, after, horder, hreach, rfl, rfl⟩ := overlap?_eq_some hover
      have hsplit : inDocumentOrder edits = after.reverse ++ earlier :: later :: before.reverse := by
        rw [← List.reverse_reverse (inDocumentOrder edits), horder]
        simp
      obtain ⟨i, j, hij, rfl, rfl⟩ := exists_precedes hsplit
      exact .overlapping hranges i j hij fun hends => hends hreach
    next => cases h

/-! ## the verdict -/

theorem refused_of_applyEdits {text : List Char} {edits : List TextEdit} {fault : EditFault}
    (h : applyEdits text edits = .error fault) : Refused text edits fault := by
  unfold applyEdits at h
  cases ha : applicationOrder edits with
  | error fault' =>
    rw [ha] at h
    obtain rfl : fault' = fault := Except.error.inj h
    exact refused_of_applicationOrder ha
  | ok order =>
    obtain ⟨rfl, hranges, ho⟩ := applicationOrder_eq_ok edits order ha
    rw [ha] at h
    cases hr : replaceAll (pieces text) (inDocumentOrder edits).reverse with
    | ok lines => simp [hr, bind, Except.bind, pure, Except.pure] at h
    | error fault' =>
      have e : fault' = fault := by simpa [hr, bind, Except.bind] using h
      subst e
      obtain ⟨before, e, after, hsplit, hfault, hafter⟩ := replaceAll_reverse_eq_error hr
        (fun e he => hranges e ((mem_inDocumentOrder edits e).mp he)) ho
      obtain ⟨i, rfl, hlast⟩ := exists_place hsplit
      exact .outOfBounds hranges (noneOverlap_iff.mpr ho) i hfault fun j hij => hafter _ (hlast j hij)

theorem refused_of_applyEditsToText {text : String} {edits : List TextEdit} {fault : EditFault}
    (h : applyEditsToText text edits = .error fault) : Refused text.toList edits fault := by
  unfold applyEditsToText at h
  cases ha : applyEdits text.toList edits with
  | ok out => rw [ha] at h; cases h
  | error fault' =>
    rw [ha] at h
    obtain rfl : fault' = fault := Except.error.inj h
    exact refused_of_applyEdits ha

theorem flawless_of_applyEditsToText {text out : String} {edits : List TextEdit}
    (h : applyEditsToText text edits = .ok out) :
    NoneInverted edits ∧ NoneOverlap edits ∧ ∀ e ∈ edits, e.Within text.toList := by
  unfold applyEditsToText applyEdits at h
  cases ha : applicationOrder edits with
  | error fault => rw [ha] at h; cases h
  | ok order =>
    obtain ⟨rfl, hranges, ho⟩ := applicationOrder_eq_ok edits order ha
    cases hr : replaceAll (pieces text.toList) (inDocumentOrder edits).reverse with
    | error fault => simp [ha, hr, bind, Except.bind, Except.map] at h
    | ok lines =>
      obtain ⟨spans, hspliced⟩ := replaceAll_reverse text.toList _ lines hr
        (fun e he => hranges e ((mem_inDocumentOrder edits e).mp he)) ho
      exact ⟨hranges, noneOverlap_iff.mpr ho, fun e he =>
        hspliced.within e ((mem_inDocumentOrder edits e).mpr he)⟩

/-- **A batch is accepted if and only if** no range is inverted, no two edits overlap, and the text
as it was has every start and every end; and a batch that is not accepted is refused for the first
of these that fails, an end or a start that is missing for the last edit that has one missing. -/
theorem applyEditsToText_verdict (text : String) (edits : List TextEdit) :
    ((∃ out, applyEditsToText text edits = .ok out) ↔
      NoneInverted edits ∧ NoneOverlap edits ∧ ∀ e ∈ edits, e.Within text.toList) ∧
    ∀ fault, applyEditsToText text edits = .error fault → Refused text.toList edits fault := by
  refine ⟨⟨?_, fun hgood => ?_⟩, fun fault => refused_of_applyEditsToText⟩
  · rintro ⟨out, h⟩
    exact flawless_of_applyEditsToText h
  · cases h : applyEditsToText text edits with
    | ok out => exact ⟨out, rfl⟩
    | error fault => exact absurd hgood (refused_of_applyEditsToText h).flawed

/-- Of two edits without a place the last one counts, whatever their order in the batch. -/
example :
    applyEditsToText "a\nb" [⟨⟨⟨1, 0⟩, ⟨2, 0⟩⟩, "x"⟩, ⟨⟨⟨0, 5⟩, ⟨0, 5⟩⟩, "y"⟩] =
      .error (.lineOutOfBounds 1 2 2) := by cbv

end CodeBridge
