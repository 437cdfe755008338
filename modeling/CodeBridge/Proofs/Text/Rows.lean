import CodeBridge.Proofs.File.Paths
import CodeBridge.Proofs.Text.Trimming
import CodeBridge.Text.Pieces

/-!
# Lines as a reader shows them

`rows` and `pieces` cut a text at the same newlines; they differ in a carriage return before a
newline and in the empty piece after the last one.

* `rows_flatMap`   lines with a newline after each are read back as those lines;
* `trim_rows`      without the white space at their ends, rows and pieces are the same, also past
                   the end of the text.
-/

namespace CodeBridge

theorem rows_append_newline {line : List Char} (h : '\n' ∉ line) (rest : List Char) :
    rows (line ++ '\n' :: rest) = dropMark '\r' line :: rows rest := by
  unfold rows pieces
  rw [piecesAt_append '\n' line rest h]
  cases hpieces : piecesAt '\n' rest with
  | nil => exact absurd hpieces (piecesAt_ne_nil '\n' rest)
  | cons p ps => rfl

/-- **Lines with a newline after each are read back**, if none has a newline in it or a carriage
return at its end. -/
theorem rows_flatMap {lines : List (List Char)}
    (h : ∀ line ∈ lines, '\n' ∉ line ∧ line.getLast? ≠ some '\r') :
    rows (lines.flatMap fun line => line ++ ['\n']) = lines := by
  induction lines with
  | nil => rfl
  | cons line lines ih =>
    obtain ⟨⟨hnewline, hreturn⟩, hrest⟩ := List.forall_mem_cons.mp h
    rw [List.flatMap_cons, List.append_assoc, List.singleton_append,
      rows_append_newline hnewline, ih hrest, dropMark, if_neg hreturn]

theorem trim_dropMark (line : List Char) : trim (dropMark '\r' line) = trim line := by
  unfold dropMark
  split
  next h =>
    obtain ⟨front, rfl⟩ := List.getLast?_eq_some_iff.mp h
    rw [List.dropLast_concat, trim_append_blank front (b := ['\r']) (by decide)]
  next => rfl

theorem trim_rowsOf (ps : List (List Char)) (n : Nat) :
    trim ((rowsOf '\r' ps)[n]?.getD []) = trim (ps[n]?.getD []) := by
  induction ps generalizing n with
  | nil => rfl
  | cons p ps ih =>
    cases ps with
    | nil =>
      rw [rowsOf]
      split
      next h =>
        rw [List.isEmpty_iff.mp h]
        cases n <;> rfl
      next => rfl
    | cons q ps =>
      cases n with
      | zero => exact trim_dropMark p
      | succ n => exact ih n

/-- **A row and the piece of the same number say the same**, apart from white space at their ends. -/
theorem trim_rows (cs : List Char) (n : Nat) :
    trim ((rows cs)[n]?.getD []) = trim ((pieces cs)[n]?.getD []) := trim_rowsOf (pieces cs) n

end CodeBridge
