import CodeBridge.Proofs.Edit.Places
import CodeBridge.Proofs.File.Paths
import CodeBridge.Tool.Change

/-!
# What the range of a whole document covers

`Tool.wholeDocument` ends where the last line starts, so an edit of that range keeps the last line:

* `lastLine`             what stands behind the last newline of a text;
* `replace_wholeDocument`  all lines but the last one are replaced, and the new text stands before it;
* `applyEditsToText_wholeDocument`   the range covers the texts that have nothing there.
-/

namespace CodeBridge

/-! ## the last line -/

/-- What stands behind the last newline. -/
def lastLine (text : List Char) : List Char := (pieces text).getLast (piecesAt_ne_nil '\n' text)

theorem pieces_eq (text : List Char) :
    pieces text = (pieces text).dropLast ++ [lastLine text] :=
  (List.dropLast_concat_getLast (piecesAt_ne_nil '\n' text)).symm

theorem closed_append_lastLine (text : List Char) :
    closed (pieces text).dropLast ++ lastLine text = text := by
  calc closed (pieces text).dropLast ++ lastLine text
      = unlines ((pieces text).dropLast ++ [lastLine text]) := (unlines_append _ _ []).symm
    _ = text := by rw [← pieces_eq, unlines_pieces]

theorem newline_not_mem_lastLine (text : List Char) : '\n' ∉ lastLine text :=
  not_mem_of_mem_piecesAt '\n' text _ (List.getLast_mem _)

theorem count_closed (ls : List (List Char)) (h : ∀ l ∈ ls, '\n' ∉ l) :
    (closed ls).count '\n' = ls.length := by
  induction ls with
  | nil => rfl
  | cons l ls ih =>
    have hl : l.count '\n' = 0 := List.count_eq_zero.mpr (h l List.mem_cons_self)
    rw [closed_cons, List.count_append, List.count_cons_self, hl,
      ih fun m hm => h m (List.mem_cons_of_mem l hm), List.length_cons, Nat.zero_add]

theorem length_dropLast_pieces (text : List Char) :
    (pieces text).dropLast.length = text.count '\n' := by
  have hclosed : (closed (pieces text).dropLast).count '\n' = (pieces text).dropLast.length :=
    count_closed _ fun l hl => not_mem_of_mem_piecesAt '\n' text l (List.dropLast_subset _ hl)
  have hlast : (lastLine text).count '\n' = 0 :=
    List.count_eq_zero.mpr (newline_not_mem_lastLine text)
  calc (pieces text).dropLast.length
      = (closed (pieces text).dropLast ++ lastLine text).count '\n' := by
        rw [List.count_append, hclosed, hlast, Nat.add_zero]
    _ = text.count '\n' := by rw [closed_append_lastLine]

theorem closed_eq_nil_or (ls : List (List Char)) :
    closed ls = [] ∨ (closed ls).getLast? = some '\n' := by
  rcases List.eq_nil_or_concat ls with rfl | ⟨init, l, rfl⟩
  · exact .inl rfl
  · refine .inr ?_
    simp [closed]

theorem lastLine_eq_nil_iff (text : List Char) :
    lastLine text = [] ↔ text = [] ∨ text.getLast? = some '\n' := by
  have htext := closed_append_lastLine text
  constructor
  · intro h
    rw [h, List.append_nil] at htext
    exact htext ▸ closed_eq_nil_or (pieces text).dropLast
  · intro h
    refine Decidable.byContradiction fun hne => ?_
    have hlast := congrArg List.getLast? htext
    rw [List.getLast?_append, List.getLast?_eq_some_getLast hne, Option.some_or] at hlast
    rcases h with rfl | h
    · cases hlast
    · have hmem : (lastLine text).getLast hne ∈ lastLine text := List.getLast_mem hne
      rw [Option.some.inj (hlast.trans h)] at hmem
      exact newline_not_mem_lastLine text hmem

/-! ## one edit of the range -/

/-- Replacing the range leaves one line, the new text and the last line behind it. -/
theorem replace_wholeDocument (text new : String) (h : text.toList.count '\n' < 2 ^ 32) :
    replace (pieces text.toList) ⟨Tool.wholeDocument text, new⟩ =
      .ok [new.toList ++ lastLine text.toList] := by
  have hcount : (UInt32.ofNat (text.toList.count '\n')).toNat = text.toList.count '\n' :=
    UInt32.toNat_ofNat_of_lt' h
  have hlen := length_dropLast_pieces text.toList
  have hpos : 0 < (pieces text.toList).length :=
    List.length_pos_iff.mpr (piecesAt_ne_nil '\n' text.toList)
  have hstart : (pieces text.toList)[(0 : UInt32).toNat]? = some (pieces text.toList)[0] :=
    List.getElem?_eq_getElem hpos
  have hstop : (pieces text.toList)[text.toList.count '\n']? = some (lastLine text.toList) := by
    rw [pieces_eq, ← hlen, List.getElem?_concat_length]
  have hdrop : (pieces text.toList).drop (text.toList.count '\n' + 1) = [] := by
    refine List.drop_eq_nil_of_le (Nat.le_of_eq ?_)
    rw [pieces_eq, List.length_append, hlen, List.length_singleton]
  have hcut : ∀ (line : List Char) (n : UInt32), cutAt line ⟨n, 0⟩ = .ok ([], line) := by
    intro line n
    simp only [cutAt, UInt32.toNat_zero, cut?_zero]
  unfold replace Tool.wholeDocument
  simp only [hcount, Position.origin, hstart, hstop, hdrop]
  rw [hcut, hcut]
  rfl

theorem applicationOrder_single (e : TextEdit) (h : e.range.start = .origin) :
    applicationOrder [e] = .ok [e] := by
  have hupright : ¬ e.range.stop < e.range.start := by
    rw [h, Position.lt_iff]
    exact fun hlt => hlt.elim (Nat.not_lt_zero _) fun hlt => Nat.not_lt_zero _ hlt.2
  have hinv : inverted? [e] = none := by
    simp [inverted?, Range.inverted, hupright]
  unfold applicationOrder inDocumentOrder
  rw [hinv, List.mergeSort_singleton]
  rfl

/-- **The range of a whole document covers what stands before its last line.**  A text put in its
place keeps that line behind it, so the range covers those documents that end in a newline or are
empty, and no others. -/
theorem applyEditsToText_wholeDocument (text new : String)
    (h : text.toList.count '\n' < 2 ^ 32) :
    applyEditsToText text [⟨Tool.wholeDocument text, new⟩] =
        .ok (new ++ String.ofList (lastLine text.toList)) ∧
      (applyEditsToText text [⟨Tool.wholeDocument text, new⟩] = .ok new ↔
        text = "" ∨ text.toList.getLast? = some '\n') := by
  have hresult : applyEditsToText text [⟨Tool.wholeDocument text, new⟩] =
      .ok (new ++ String.ofList (lastLine text.toList)) := by
    unfold applyEditsToText applyEdits
    rw [applicationOrder_single _ rfl]
    show ((replace (pieces text.toList) ⟨Tool.wholeDocument text, new⟩ >>= fun lines =>
      .ok lines) >>= fun lines => .ok (unlines lines)).map String.ofList = _
    rw [replace_wholeDocument text new h]
    show Except.ok (String.ofList (new.toList ++ lastLine text.toList)) = _
    rw [String.ofList_append, String.ofList_toList]
  refine ⟨hresult, ?_⟩
  rw [hresult, ← String.toList_eq_nil_iff, ← lastLine_eq_nil_iff]
  constructor
  · intro he
    have hlist := congrArg String.toList (Except.ok.inj he)
    rw [String.toList_append, String.toList_ofList] at hlist
    exact List.append_right_eq_self.mp hlist
  · intro he
    rw [he]
    exact congrArg Except.ok (String.append_empty)

/-- A document of two lines that both end. -/
theorem wholeDocument_covers :
    "a\nb\n".toList.count '\n' < 2 ^ 32 ∧
      applyEditsToText "a\nb\n" [⟨Tool.wholeDocument "a\nb\n", "c"⟩] = .ok "c" :=
  ⟨by decide, (applyEditsToText_wholeDocument _ _ (by decide)).2.mpr (.inr (by decide))⟩

/-- A document whose only line does not end is not covered. -/
theorem wholeDocument_not_covering :
    ¬ ∀ text new : String, text.toList.count '\n' + 1 < 2 ^ 32 →
      applyEditsToText text [⟨Tool.wholeDocument text, new⟩] = .ok new := by
  intro h
  have hbad := h "x" "y" (by decide)
  have hgood : applyEditsToText "x" [⟨Tool.wholeDocument "x", "y"⟩] = .ok "yx" := by cbv
  rw [hgood] at hbad
  exact absurd (Except.ok.inj hbad) (by decide)

end CodeBridge
