import CodeBridge.Text.Utf8

/-!
# Offsets in UTF-16 units

A column of a position counts UTF-16 code units: one for a character of the basic plane, two for
any other.  `cut?` splits a line at such an offset and refuses one that lies past the end or
between the two halves of a character; `byteOffset?` is the same place counted in UTF-8 bytes.
-/

namespace CodeBridge

/-- UTF-16 units of one character -/
def unitsOf (c : Char) : Nat := if c.toNat < 0x10000 then 1 else 2

/-- UTF-16 units of a text -/
def units : List Char → Nat
  | [] => 0
  | c :: cs => unitsOf c + units cs

theorem units_nil : units [] = 0 := rfl
theorem units_cons (c : Char) (cs : List Char) : units (c :: cs) = unitsOf c + units cs := rfl
theorem units_append (a b : List Char) : units (a ++ b) = units a + units b := by
  induction a with
  | nil => simp [units]
  | cons c a ih => simp [units, ih, Nat.add_assoc]

theorem unitsOf_pos (c : Char) : 0 < unitsOf c := by unfold unitsOf; split <;> omega

/-- The text before and after `offset` units. -/
def cut? : Nat → List Char → Option (List Char × List Char)
  | 0, cs => some ([], cs)
  | _ + 1, [] => none
  | n + 1, c :: cs =>
    if unitsOf c ≤ n + 1 then (cut? (n + 1 - unitsOf c) cs).map fun (a, b) => (c :: a, b)
    else none

theorem cut?_zero (cs : List Char) : cut? 0 cs = some ([], cs) := by cases cs <;> rfl

/-- UTF-8 bytes of a text -/
def byteSize : List Char → Nat
  | [] => 0
  | c :: cs => c.utf8Size + byteSize cs

/-- Bytes before the place `offset` units into the line. -/
def byteOffset? (line : List Char) (offset : Nat) : Option Nat :=
  (cut? offset line).map fun (before, _) => byteSize before

end CodeBridge
