import CodeBridge.Domain.Composed
import CodeBridge.Domain.Direction
import CodeBridge.Domain.Folding
import CodeBridge.Domain.Joining
import CodeBridge.Domain.Spelling

/-!
# Domain names

`Domain.read?` gives all spellings of a name one text: folded, composed, and with each label that is
spelled in plain letters (`spelledMark`) in its own letters.  A text is no name when one of its
characters is refused or would end a host, or when a label

* spells nothing, or something that is not folded and composed or has no other letters;
* begins with a mark, or holds a joiner out of place;
* does not keep to a direction while some label is written to the left;
* is longer than any that is looked up.
-/

namespace CodeBridge.Domain

/-- A character that would end or split a host. -/
def splitsHost (c : Char) : Bool :=
  c.toNat ≤ 0x20 || c.toNat = 0x7F ||
    ['%', '#', '/', ':', '<', '>', '?', '@', '[', '\\', ']', '^', '|'].contains c

def isPlain (c : Char) : Bool := c.toNat < 0x80

/-- What a label begins with that spells other letters in plain ones. -/
def spelledMark : List Char := "xn--".toList

/-- the longest code of a label, and the longest label with other letters -/
def codeLimit : Nat := 2000
def labelLimit : Nat := 1000

/-- A label that has a spelling in plain letters. -/
def hasSpelling (label : List Char) : Bool :=
  label.all (fun c => isFolded c && !splitsHost c) && compose label = label && !label.all isPlain

/-- The label that a folded label stands for. -/
def readLabel? (label : List Char) : Option (List Char) :=
  if spelledMark.isPrefixOf label then
    let code := label.drop spelledMark.length
    if code.length ≤ codeLimit then (Spelling.decode? code).filter hasSpelling else none
  else if label.all isPlain || label.length ≤ labelLimit then some label
  else none

/-- No mark stands without a letter, and joiners stand where they may. -/
def wellFormed (label : List Char) : Bool :=
  !(label.head?.any isMark) && joinersFit [] label

/-- The name that a text is a spelling of. -/
def read? (text : List Char) : Option (List Char) := do
  let folded := compose (← foldText? text)
  if folded.any splitsHost then none
  let labels ← (piecesAt '.' folded).mapM readLabel?
  if !labels.all wellFormed then none
  if labels.any (·.any writtenLeft) && !labels.all keepsDirection then none
  return joinWith '.' labels

end CodeBridge.Domain
