import CodeBridge.Text.Units

/-!
# Columns of a line

`cut? n` cuts a line after a prefix of exactly `n` units, and there is at most one:

* `cut?_eq_some_iff`   what a cut is;
* `cut?_append`        a cut inside a prefix does not see what follows it;
* `length_lt_of_units_lt`   of two cuts of one line the one with fewer units has fewer characters.
-/

namespace CodeBridge

theorem cut?_units_append (a b : List Char) : cut? (units a) (a ++ b) = some (a, b) := by
  induction a with
  | nil => exact cut?_zero b
  | cons c a ih =>
    have hpos := unitsOf_pos c
    obtain ⟨n, hn⟩ : ∃ n, unitsOf c + units a = n + 1 :=
      ⟨unitsOf c + units a - 1, by omega⟩
    rw [units_cons, hn, List.cons_append, cut?, if_pos (by omega)]
    have e : n + 1 - unitsOf c = units a := by omega
    rw [e, ih]
    rfl

theorem append_eq_of_cut? (n : Nat) (cs : List Char) :
    ∀ a b, cut? n cs = some (a, b) → a ++ b = cs ∧ units a = n := by
  fun_induction cut? n cs with
  | case1 cs =>
    intro a b h
    obtain ⟨rfl, rfl⟩ := Prod.mk.inj (Option.some.inj h)
    exact ⟨rfl, rfl⟩
  | case2 => intro a b h; cases h
  | case3 n c cs hle ih =>
    intro a b h
    obtain ⟨⟨a', b'⟩, h', e⟩ := Option.map_eq_some_iff.mp h
    obtain ⟨rfl, rfl⟩ := Prod.mk.inj e
    obtain ⟨rfl, hu⟩ := ih a' b' h'
    refine ⟨rfl, ?_⟩
    rw [units_cons, hu]
    omega
  | case4 => intro a b h; cases h

theorem cut?_eq_some_iff (n : Nat) (cs a b : List Char) :
    cut? n cs = some (a, b) ↔ a ++ b = cs ∧ units a = n := by
  refine ⟨append_eq_of_cut? n cs a b, ?_⟩
  rintro ⟨rfl, rfl⟩
  exact cut?_units_append a b

theorem cut?_append (n : Nat) (a b : List Char) (h : n ≤ units a) :
    cut? n (a ++ b) = (cut? n a).map fun c => (c.1, c.2 ++ b) := by
  induction a generalizing n with
  | nil =>
    have e : n = 0 := by rw [units_nil] at h; omega
    rw [e, cut?_zero, cut?_zero]
    rfl
  | cons c a ih =>
    cases n with
    | zero => rw [cut?_zero, cut?_zero]; rfl
    | succ n =>
      rw [units_cons] at h
      rw [List.cons_append, cut?, cut?]
      by_cases hc : unitsOf c ≤ n + 1
      · rw [if_pos hc, if_pos hc, ih _ (by omega), Option.map_map, Option.map_map]
        rfl
      · rw [if_neg hc, if_neg hc]
        rfl

theorem length_lt_of_units_lt (a b c d : List Char) (h : a ++ b = c ++ d)
    (hu : units a < units c) : a.length < c.length := by
  refine Nat.lt_of_not_le fun hle => ?_
  rcases List.append_eq_append_iff.mp h with ⟨x, rfl, _⟩ | ⟨x, rfl, _⟩
  · have hx : x = [] := by
      rw [List.length_append] at hle
      exact List.eq_nil_of_length_eq_zero (by omega)
    rw [hx, List.append_nil] at hu
    omega
  · rw [units_append] at hu
    omega

end CodeBridge
