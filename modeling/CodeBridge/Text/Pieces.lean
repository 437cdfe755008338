/-!
# A list cut at a separator

`piecesAt` cuts a list at every occurrence of an element, so a list with `k` of them has `k + 1`
pieces; `joinWith` undoes it.  `rowsOf` reads pieces between newlines as lines: there is none after
a final newline, and an element that may stand before a newline does not belong to the line.

Two readings of the characters of a text:

* `pieces`   the text cut at every newline; this is how a position's line number is counted, and
             `unlines` undoes it;
* `rows`     the lines as a reader shows them, without a carriage return before a newline.
-/

namespace CodeBridge

variable {α : Type}

/-! ## pieces -/

/-- Pieces with `sep` between them. -/
def joinWith (sep : α) : List (List α) → List α
  | [] => []
  | [p] => p
  | p :: q :: ps => p ++ sep :: joinWith sep (q :: ps)

theorem joinWith_cons_cons (sep : α) (p q : List α) (ps : List (List α)) :
    joinWith sep (p :: q :: ps) = p ++ sep :: joinWith sep (q :: ps) := rfl

variable [DecidableEq α]

/-- The list cut at every `sep`. -/
def piecesAt (sep : α) : List α → List (List α)
  | [] => [[]]
  | c :: cs =>
    if c = sep then [] :: piecesAt sep cs
    else
      match piecesAt sep cs with
      | [] => [[c]]
      | p :: ps => (c :: p) :: ps

theorem piecesAt_separator (sep : α) (cs : List α) :
    piecesAt sep (sep :: cs) = [] :: piecesAt sep cs := by simp [piecesAt]

theorem piecesAt_ne_nil (sep : α) (cs : List α) : piecesAt sep cs ≠ [] := by
  cases cs with
  | nil => simp [piecesAt]
  | cons c cs =>
    unfold piecesAt
    split
    · simp
    · split <;> simp

theorem joinWith_piecesAt (sep : α) (cs : List α) : joinWith sep (piecesAt sep cs) = cs := by
  induction cs with
  | nil => rfl
  | cons c cs ih =>
    unfold piecesAt
    split
    next h =>
      subst h
      cases hp : piecesAt c cs with
      | nil => exact absurd hp (piecesAt_ne_nil c cs)
      | cons p ps => rw [joinWith_cons_cons, ← hp, ih]; rfl
    next h =>
      cases hp : piecesAt sep cs with
      | nil => exact absurd hp (piecesAt_ne_nil sep cs)
      | cons p ps =>
        rw [hp] at ih
        cases ps with
        | nil => simpa [joinWith] using ih
        | cons q qs => simpa [joinWith] using ih

/-! ## lines -/

/-- A line without one `mark` at its end. -/
def dropMark (mark : α) (line : List α) : List α :=
  if line.getLast? = some mark then line.dropLast else line

/-- The pieces that end in a newline, then the last one if it is not empty. -/
def rowsOf (mark : α) : List (List α) → List (List α)
  | [] => []
  | [last] => if last.isEmpty then [] else [last]
  | p :: q :: ps => dropMark mark p :: rowsOf mark (q :: ps)

/-! ## a text -/

/-- The text cut at every newline. -/
def pieces (cs : List Char) : List (List Char) := piecesAt '\n' cs

/-- Pieces joined by newlines. -/
def unlines (ps : List (List Char)) : List Char := joinWith '\n' ps

theorem unlines_cons_cons (p q : List Char) (ps : List (List Char)) :
    unlines (p :: q :: ps) = p ++ '\n' :: unlines (q :: ps) := rfl

theorem unlines_pieces (cs : List Char) : unlines (pieces cs) = cs := joinWith_piecesAt '\n' cs

/-- The lines of a text as a reader shows them. -/
def rows (cs : List Char) : List (List Char) := rowsOf '\r' (pieces cs)

end CodeBridge
