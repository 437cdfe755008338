import CodeBridge.Protocol.Edit
import CodeBridge.Text.Pieces
import CodeBridge.Text.Units

/-!
# Applying edits to a text

Every range of a batch addresses the text as it was before the first edit.  The batch is put in
document order, checked, and applied from its end backwards, so that an edit never moves what an
earlier one addresses:

* `inDocumentOrder`   by start, edits with one start in the order given;
* `inverted?`, `overlap?`   what makes a batch unusable whatever the text;
* `replace`           one edit on the lines of a text;
* `applyEdits`        the whole batch.

A line that an edit has changed may hold newlines of its own; it stays one line of the list, and
only edits that end before it are still to come.
-/

namespace CodeBridge

/-- Why a batch of edits cannot be applied. -/
inductive EditFault where
  | inverted (range : Range)
  | overlapping (first second : Position)
  | lineOutOfBounds (start stop : UInt32) (total : Nat)
  | characterOutOfBounds (line character : UInt32)
  deriving DecidableEq, Repr

def EditFault.message : EditFault → String
  | .inverted range => s!"edit range ends before it starts: {range.describe}"
  | .overlapping first second => s!"overlapping edits at {first.describe} and {second.describe}"
  | .lineOutOfBounds start stop total =>
    s!"invalid line number: start={start}, end={stop}, total={total}"
  | .characterOutOfBounds line character =>
    s!"invalid character position: line={line}, character={character}"

/-! ## order of a batch -/

/-- By start; edits that start at one place keep their order. -/
def inDocumentOrder (edits : List TextEdit) : List TextEdit :=
  edits.mergeSort fun a b => !decide (b.range.start < a.range.start)

def inverted? (edits : List TextEdit) : Option Range :=
  (edits.find? fun e => e.range.inverted).map (·.range)

/-- The last two neighbours of which the first reaches into the second; the latest edit comes
first in the list. -/
def overlap? : List TextEdit → Option (Position × Position)
  | later :: earlier :: rest =>
    if later.range.start < earlier.range.stop then some (earlier.range.start, later.range.start)
    else overlap? (earlier :: rest)
  | _ => none

/-- The batch with the latest edit first. -/
def applicationOrder (edits : List TextEdit) : Except EditFault (List TextEdit) :=
  match inverted? edits with
  | some range => .error (.inverted range)
  | none =>
    let order := (inDocumentOrder edits).reverse
    match overlap? order with
    | some (first, second) => .error (.overlapping first second)
    | none => .ok order

/-! ## one edit -/

/-- The line before and after a column. -/
def cutAt (line : List Char) (place : Position) : Except EditFault (List Char × List Char) :=
  match cut? place.character.toNat line with
  | some parts => .ok parts
  | none => .error (.characterOutOfBounds place.line place.character)

/-- One edit on the lines of a text. -/
def replace (lines : List (List Char)) (e : TextEdit) : Except EditFault (List (List Char)) :=
  let start := e.range.start
  let stop := e.range.stop
  match lines[start.line.toNat]?, lines[stop.line.toNat]? with
  | some first, some last => do
    let (before, _) ← cutAt first start
    let (_, after) ← cutAt last stop
    return lines.take start.line.toNat ++
      (before ++ e.newText.toList ++ after) :: lines.drop (stop.line.toNat + 1)
  | _, _ => .error (.lineOutOfBounds start.line stop.line lines.length)

/-- Edits one after another, the first of the list first. -/
def replaceAll : List (List Char) → List TextEdit → Except EditFault (List (List Char))
  | lines, [] => .ok lines
  | lines, e :: es => do
    let lines ← replace lines e
    replaceAll lines es

/-! ## the batch -/

def applyEdits (text : List Char) (edits : List TextEdit) : Except EditFault (List Char) := do
  let order ← applicationOrder edits
  let lines ← replaceAll (pieces text) order
  return unlines lines

/-- The text with all edits applied, or the reason why none was. -/
def applyEditsToText (text : String) (edits : List TextEdit) : Except EditFault String :=
  (applyEdits text.toList edits).map String.ofList

end CodeBridge
