import CodeBridge.Edit.Apply
import CodeBridge.Proofs.Text.Columns

/-!
# Places of a text

A position is a place in a list of lines; what lies before it is a prefix of the whole text.

* `before?`            the text before a place, `offset?` its length;
* `length_lt_of_before?`  a later place has more text before it;
* `unlines_replace`    one edit keeps the text before its start and after its end;
* `before?_replace`    one edit does not move the places up to its start.
-/

namespace CodeBridge

/-! ## lines that others follow -/

def closed (ls : List (List Char)) : List Char := ls.flatMap fun l => l ++ ['\n']

theorem closed_cons (l : List Char) (ls : List (List Char)) :
    closed (l :: ls) = l ++ '\n' :: closed ls := by
  simp [closed]

theorem unlines_append (ls : List (List Char)) (l : List Char) (rest : List (List Char)) :
    unlines (ls ++ l :: rest) = closed ls ++ unlines (l :: rest) := by
  induction ls with
  | nil => rfl
  | cons k ls ih =>
    have hk : unlines (k :: (ls ++ l :: rest)) = k ++ '\n' :: unlines (ls ++ l :: rest) := by
      cases ls with
      | nil => rfl
      | cons m ls => rfl
    rw [List.cons_append, hk, ih, closed_cons, List.append_assoc, List.cons_append]

theorem unlines_prefix (a b : List Char) (rest : List (List Char)) :
    unlines ((a ++ b) :: rest) = a ++ unlines (b :: rest) := by
  cases rest with
  | nil => rfl
  | cons l rest => rw [unlines_cons_cons, unlines_cons_cons, List.append_assoc]

theorem unlines_at (lines : List (List Char)) (n : Nat) (a b : List Char)
    (h : lines[n]? = some (a ++ b)) :
    unlines lines = closed (lines.take n) ++ a ++ unlines (b :: lines.drop (n + 1)) := by
  obtain ⟨hn, hl⟩ := List.getElem?_eq_some_iff.mp h
  have e : lines = lines.take n ++ (a ++ b) :: lines.drop (n + 1) := by
    rw [← hl, List.getElem_cons_drop, List.take_append_drop]
  calc unlines lines
      = unlines (lines.take n ++ (a ++ b) :: lines.drop (n + 1)) := congrArg unlines e
    _ = closed (lines.take n) ++ a ++ unlines (b :: lines.drop (n + 1)) := by
      rw [unlines_append, unlines_prefix, List.append_assoc]

/-! ## the text before a place -/

/-- The lines above a place and the start of its own; none for a place that the lines lack. -/
def before? (lines : List (List Char)) (p : Position) : Option (List Char) :=
  match lines[p.line.toNat]? with
  | none => none
  | some line => (cut? p.character.toNat line).map fun c => closed (lines.take p.line.toNat) ++ c.1

/-- How many characters of a text lie before a place: the place's line counts pieces between
newlines, its column counts units of that piece. -/
def offset? (text : List Char) (p : Position) : Option Nat :=
  (before? (pieces text) p).map List.length

theorem before?_eq_some (lines : List (List Char)) (p : Position) (x : List Char)
    (h : before? lines p = some x) :
    ∃ a b, lines[p.line.toNat]? = some (a ++ b) ∧ units a = p.character.toNat ∧
      x = closed (lines.take p.line.toNat) ++ a := by
  unfold before? at h
  split at h
  · cases h
  next line hl =>
    obtain ⟨⟨a, b⟩, hc, rfl⟩ := Option.map_eq_some_iff.mp h
    obtain ⟨rfl, hu⟩ := (cut?_eq_some_iff _ _ _ _).mp hc
    exact ⟨a, b, hl, hu, rfl⟩

theorem before?_of_line (lines : List (List Char)) (p : Position) (a b : List Char)
    (hl : lines[p.line.toNat]? = some (a ++ b)) (hu : units a = p.character.toNat) :
    before? lines p = some (closed (lines.take p.line.toNat) ++ a) := by
  unfold before?
  rw [hl]
  show (cut? p.character.toNat (a ++ b)).map _ = _
  rw [← hu, cut?_units_append]
  rfl

theorem take_of_before? (lines : List (List Char)) (p : Position) (x : List Char)
    (h : before? lines p = some x) : x = (unlines lines).take x.length := by
  obtain ⟨a, b, hl, _, rfl⟩ := before?_eq_some lines p x h
  rw [unlines_at lines _ a b hl, List.take_left]

theorem length_le_of_before? (lines : List (List Char)) (p : Position) (x : List Char)
    (h : before? lines p = some x) : x.length ≤ (unlines lines).length := by
  rw [take_of_before? lines p x h]
  exact List.length_take_le' _ _

/-! ## places in order -/

theorem Position.lt_iff (p q : Position) :
    p < q ↔ p.line.toNat < q.line.toNat ∨
      (p.line.toNat = q.line.toNat ∧ p.character.toNat < q.character.toNat) := by
  show (p.line < q.line ∨ (p.line = q.line ∧ p.character < q.character)) ↔ _
  rw [UInt32.lt_iff_toNat_lt, UInt32.lt_iff_toNat_lt, UInt32.toNat_inj]

theorem closed_take_lt (lines : List (List Char)) (m n : Nat) (line a : List Char)
    (h : lines[m]? = some line) (ha : a.length ≤ line.length) (hmn : m < n) :
    (closed (lines.take m) ++ a).length < (closed (lines.take n)).length := by
  obtain ⟨hm, hl⟩ := List.getElem?_eq_some_iff.mp h
  have e : lines.take n = lines.take m ++ line :: (lines.drop (m + 1)).take (n - m - 1) := by
    rw [← hl, show n = m + (n - m - 1 + 1) by omega, List.take_add, List.drop_eq_getElem_cons hm,
      List.take_succ_cons]
    congr 3
    omega
  have hc : closed (lines.take n) =
      closed (lines.take m) ++ closed (line :: (lines.drop (m + 1)).take (n - m - 1)) := by
    rw [e]
    exact List.flatMap_append
  rw [hc, closed_cons]
  simp only [List.length_append, List.length_cons]
  omega

theorem length_lt_of_before? (lines : List (List Char)) (p q : Position) (x y : List Char)
    (hp : before? lines p = some x) (hq : before? lines q = some y) (h : p < q) :
    x.length < y.length := by
  obtain ⟨a, b, hl, hu, rfl⟩ := before?_eq_some lines p x hp
  obtain ⟨c, d, hl', hu', rfl⟩ := before?_eq_some lines q y hq
  rcases (Position.lt_iff p q).mp h with hlt | ⟨heq, hlt⟩
  · have h1 := closed_take_lt lines _ _ _ a hl (by simp) hlt
    have h2 : (closed (lines.take q.line.toNat)).length ≤
        (closed (lines.take q.line.toNat) ++ c).length := by simp
    omega
  · rw [heq] at hl ⊢
    have e : a ++ b = c ++ d := Option.some.inj (hl.symm.trans hl')
    have h1 := length_lt_of_units_lt a b c d e (by omega)
    rw [List.length_append, List.length_append]
    omega

theorem Position.eq_of_not_lt (p q : Position) (h1 : ¬ p < q) (h2 : ¬ q < p) : p = q := by
  rw [Position.lt_iff] at h1 h2
  have hl : p.line = q.line := UInt32.toNat_inj.mp (by omega)
  have hc : p.character = q.character := UInt32.toNat_inj.mp (by omega)
  obtain ⟨l, c⟩ := p
  obtain ⟨l', c'⟩ := q
  subst hl
  subst hc
  rfl

/-- Places compare as the lengths of the texts before them. -/
theorem length_lt_iff_of_before? (lines : List (List Char)) (p q : Position) (x y : List Char)
    (hp : before? lines p = some x) (hq : before? lines q = some y) :
    x.length < y.length ↔ p < q := by
  refine ⟨fun hlt => ?_, length_lt_of_before? lines p q x y hp hq⟩
  by_cases hpq : p < q
  · exact hpq
  · exfalso
    by_cases hqp : q < p
    · have := length_lt_of_before? lines q p y x hq hp hqp
      omega
    · rw [Position.eq_of_not_lt p q hpq hqp, hq] at hp
      rw [Option.some.inj hp] at hlt
      omega

/-! ## one edit -/

theorem replace_eq_ok (lines lines' : List (List Char)) (e : TextEdit)
    (h : replace lines e = .ok lines') :
    ∃ a b c d, lines[e.range.start.line.toNat]? = some (a ++ b) ∧
      units a = e.range.start.character.toNat ∧
      lines[e.range.stop.line.toNat]? = some (c ++ d) ∧
      units c = e.range.stop.character.toNat ∧
      lines' = lines.take e.range.start.line.toNat ++
        (a ++ e.newText.toList ++ d) :: lines.drop (e.range.stop.line.toNat + 1) := by
  simp only [replace] at h
  split at h
  next first last hf hl =>
    unfold cutAt at h
    cases hc : cut? e.range.start.character.toNat first with
    | none => rw [hc] at h; cases h
    | some ab =>
      cases hc' : cut? e.range.stop.character.toNat last with
      | none => rw [hc, hc'] at h; cases h
      | some cd =>
        rw [hc, hc'] at h
        obtain ⟨a, b⟩ := ab
        obtain ⟨c, d⟩ := cd
        obtain ⟨rfl, hu⟩ := (cut?_eq_some_iff _ _ _ _).mp hc
        obtain ⟨rfl, hu'⟩ := (cut?_eq_some_iff _ _ _ _).mp hc'
        exact ⟨a, b, c, d, hf, hu, hl, hu', (Except.ok.inj h).symm⟩
  · cases h

/-- An edit that can be made keeps the text before its start and the text after its end. -/
theorem unlines_replace (lines lines' : List (List Char)) (e : TextEdit)
    (h : replace lines e = .ok lines') :
    ∃ x y, before? lines e.range.start = some x ∧ before? lines e.range.stop = some y ∧
      unlines lines' = x ++ e.newText.toList ++ (unlines lines).drop y.length := by
  obtain ⟨a, b, c, d, hf, hu, hl, hu', rfl⟩ := replace_eq_ok lines lines' e h
  refine ⟨_, _, before?_of_line lines _ a b hf hu, before?_of_line lines _ c d hl hu', ?_⟩
  rw [unlines_at lines _ c d hl, List.drop_left, unlines_append, unlines_prefix]
  simp only [List.append_assoc]

/-- The lines of a text above a place, and the start of its own up to a column. -/
theorem before?_congr (lines lines' : List (List Char)) (q : Position) (n : Nat)
    (a b b' : List Char) (ht : lines'.take n = lines.take n)
    (hl : lines[n]? = some (a ++ b)) (hl' : lines'[n]? = some (a ++ b'))
    (hq : q.line.toNat < n ∨ (q.line.toNat = n ∧ q.character.toNat ≤ units a)) :
    before? lines' q = before? lines q := by
  rcases hq with hlt | ⟨heq, hle⟩
  · have e : ∀ ls : List (List Char), before? ls q = before? (ls.take n) q := by
      intro ls
      unfold before?
      rw [List.getElem?_take_of_lt hlt, List.take_take, Nat.min_eq_left (Nat.le_of_lt hlt)]
    rw [e lines', e lines, ht]
  · unfold before?
    rw [heq, hl, hl', ht]
    show (cut? _ (a ++ b')).map _ = (cut? _ (a ++ b)).map _
    rw [cut?_append _ a b' hle, cut?_append _ a b hle, Option.map_map, Option.map_map]
    rfl

/-- An edit does not move the places up to its start. -/
theorem before?_replace (lines lines' : List (List Char)) (e : TextEdit) (q : Position)
    (h : replace lines e = .ok lines') (hq : ¬ e.range.start < q) :
    before? lines' q = before? lines q := by
  obtain ⟨a, b, c, d, hf, hu, _, _, rfl⟩ := replace_eq_ok lines lines' e h
  obtain ⟨hn, _⟩ := List.getElem?_eq_some_iff.mp hf
  have hlen : (lines.take e.range.start.line.toNat).length = e.range.start.line.toNat :=
    List.length_take_of_le (Nat.le_of_lt hn)
  rw [Position.lt_iff] at hq
  refine before?_congr lines _ q e.range.start.line.toNat a b (e.newText.toList ++ d) ?_ hf ?_
    (by omega)
  · rw [List.take_append_of_le_length (Nat.le_of_eq hlen.symm), List.take_take, Nat.min_self]
  · rw [List.getElem?_append_right (Nat.le_of_eq hlen), hlen, Nat.sub_self, List.append_assoc]
    rfl

end CodeBridge
