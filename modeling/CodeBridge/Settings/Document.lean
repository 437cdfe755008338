import CodeBridge.Settings.Draft
import CodeBridge.Settings.Scalar

/-!
# Settings files

A settings file is a list of `key = value` lines, grouped under headers in brackets.  `parse` gives
the map that it describes, or the place of the first fault.

A reader takes the text from some place on and gives what it read and the text after it.  Where a
text ends too early, the fault lies right after its last word, not after the blanks that follow.
-/

namespace CodeBridge.Document

/-- Reads something from the beginning of a text: gives it and the rest, or the place of a fault. -/
abbrev Reader (α : Type) := List Char → Except Place (α × List Char)

/-- a fault where `cs` begins -/
def faultAt {α : Type} (cs : List Char) : Except Place α := .error cs.length

/-! ## blanks -/

def isSpace (c : Char) : Bool := c = ' ' || c = '\t'

def skipSpace (cs : List Char) : List Char := cs.dropWhile isSpace

/-- A control character that no text holds as itself. -/
def isControl (c : Char) : Bool := (c.toNat < 0x20 && c ≠ '\t') || c.toNat = 0x7F

/-- A newline at the beginning, and what follows it. -/
def newline? : List Char → Option (List Char × List Char)
  | '\n' :: cs => some (['\n'], cs)
  | '\r' :: '\n' :: cs => some (['\r', '\n'], cs)
  | _ => none

def afterNewline? (cs : List Char) : Option (List Char) := (newline? cs).map (·.2)

/-- The text from the end of a comment's line. -/
def skipComment (cs : List Char) : List Char :=
  match cs with
  | '#' :: rest => rest.dropWhile (!isControl ·)
  | _ => cs

/-- The rest after a line, of which only a comment is left. -/
def endLine (cs : List Char) : Except Place (List Char) :=
  match skipComment (skipSpace cs) with
  | [] => .ok []
  | '\r' :: rest => if rest.head? = some '\n' then .ok rest.tail else faultAt rest
  | '\n' :: rest => .ok rest
  | rest => faultAt rest

/-- Skip spaces, comments and newlines. -/
def skipAll : Nat → List Char → List Char
  | 0, cs => cs
  | fuel + 1, cs =>
    let rest := skipComment (skipSpace cs)
    match afterNewline? rest with
    | some rest => skipAll fuel rest
    | none => rest

def skipBlank (cs : List Char) : List Char := skipAll cs.length cs

/-- Skip blanks before something that has to follow. -/
def skipTo (cs : List Char) : Except Place (List Char) :=
  match skipBlank cs with
  | [] => faultAt cs
  | rest => .ok rest

/-! ## quoted texts -/

def hexCode? (cs : List Char) : Option Nat :=
  cs.foldlM (fun n c => (Scalar.digitValue? 16 c).map fun d => n * 16 + d) 0

/-- A character by its code in `count` digits. -/
def charByCode (count : Nat) (cs : List Char) : Except Place (Char × List Char) :=
  let ds := (cs.take count).takeWhile fun c => (Scalar.digitValue? 16 c).isSome
  if ds.length < count then faultAt (cs.drop ds.length)
  else
    match hexCode? ds with
    | some n => if n.isValidChar then .ok (Char.ofNat n, cs.drop count) else faultAt cs
    | none => faultAt cs

/-- The character that follows a backslash. -/
def readEscape : Reader Char
  | 'b' :: cs => .ok ('\x08', cs)
  | 't' :: cs => .ok ('\t', cs)
  | 'n' :: cs => .ok ('\n', cs)
  | 'f' :: cs => .ok ('\x0c', cs)
  | 'r' :: cs => .ok ('\r', cs)
  | 'e' :: cs => .ok ('\x1b', cs)
  | '"' :: cs => .ok ('"', cs)
  | '\\' :: cs => .ok ('\\', cs)
  | 'x' :: cs => charByCode 2 cs
  | 'u' :: cs => charByCode 4 cs
  | 'U' :: cs => charByCode 8 cs
  | cs => faultAt cs

/-- Put characters in front of a text that is read. -/
def withFront (front : List Char) (p : Except Place (List Char × List Char)) :
    Except Place (List Char × List Char) :=
  p.map fun (text, rest) => (front ++ text, rest)

/-- The rest of a text on one line, up to `quote`. -/
def readLine (quote : Char) (escapes : Bool) : Nat → Reader (List Char)
  | 0, cs => faultAt cs
  | _ + 1, [] => faultAt []
  | fuel + 1, c :: cs =>
    if c = quote then .ok ([], cs)
    else if c = '\\' && escapes then
      match readEscape cs with
      | .ok (x, rest) => withFront [x] (readLine quote escapes fuel rest)
      | .error p => .error p
    else if isControl c then faultAt (c :: cs)
    else withFront [c] (readLine quote escapes fuel cs)

/-- The text after a backslash at the end of a line, without the white space it joins. -/
def joinedLine? (cs : List Char) : Option (List Char) :=
  (afterNewline? (skipSpace cs)).map fun rest =>
    rest.dropWhile fun c => isSpace c || c = '\n' || c = '\r'

/-- The rest of a text on several lines, up to three of `quote`; two more belong to the text. -/
def readLines (quote : Char) (escapes : Bool) : Nat → Reader (List Char)
  | 0, cs => faultAt cs
  | _ + 1, [] => faultAt []
  | fuel + 1, c :: cs =>
    if c = quote then
      let run := (c :: cs).takeWhile (· = quote)
      let rest := (c :: cs).dropWhile (· = quote)
      if run.length < 3 then withFront run (readLines quote escapes fuel rest)
      else if run.length ≤ 5 then .ok (run.drop 3, rest)
      else faultAt (run.drop 5 ++ rest)
    else if c = '\\' && escapes then
      match readEscape cs, joinedLine? cs with
      | .ok (x, rest), _ => withFront [x] (readLines quote escapes fuel rest)
      | .error _, some rest => readLines quote escapes fuel rest
      | .error p, none => .error p
    else
      match newline? (c :: cs) with
      | some (newline, rest) => withFront newline (readLines quote escapes fuel rest)
      | none =>
        if isControl c then faultAt (c :: cs)
        else withFront [c] (readLines quote escapes fuel cs)

/-- A newline right after the opening quotes does not belong to the text. -/
def dropFirstNewline (cs : List Char) : List Char := (afterNewline? cs).getD cs

/-- A quoted text on one line. -/
def readShort (cs : List Char) : Except Place (List Char × List Char) :=
  match cs with
  | '"' :: rest => readLine '"' true (rest.length + 1) rest
  | '\'' :: rest => readLine '\'' false (rest.length + 1) rest
  | _ => faultAt cs

/-- A quoted text of any kind. -/
def readQuoted (cs : List Char) : Except Place (List Char × List Char) :=
  match cs with
  | '"' :: '"' :: '"' :: rest => readLines '"' true (rest.length + 1) (dropFirstNewline rest)
  | '\'' :: '\'' :: '\'' :: rest => readLines '\'' false (rest.length + 1) (dropFirstNewline rest)
  | _ => readShort cs

/-! ## keys -/

def isKeyChar (c : Char) : Bool := c.isAlpha || c.isDigit || c = '_' || c = '-'

def startsQuoted (cs : List Char) : Bool := cs.head? = some '"' || cs.head? = some '\''

/-- three quotes, as before a text on several lines -/
def startsLong (cs : List Char) : Bool :=
  "\"\"\"".toList.isPrefixOf cs || "'''".toList.isPrefixOf cs

/-- One part of a key, which stands on one line. -/
def readPart (cs : List Char) : Except Place (Key × List Char) :=
  if startsLong cs then faultAt cs
  else if startsQuoted cs then
    (readShort cs).map fun (t, rest) => (⟨String.ofList t, cs.length⟩, rest)
  else
    let part := cs.takeWhile isKeyChar
    if part.isEmpty then faultAt cs
    else .ok (⟨String.ofList part, cs.length⟩, cs.dropWhile isKeyChar)

/-- most levels of arrays and inline tables, and most parts of a key -/
def maxDepth : Nat := 80

/-- At most `parts` parts of a key, between points. -/
def readParts : Nat → Reader (List Key)
  | 0, cs => faultAt cs
  | parts + 1, cs => do
    let (part, rest) ← readPart (skipSpace cs)
    match skipSpace rest with
    | '.' :: after =>
      let (more, rest) ← readParts parts after
      return (part :: more, rest)
    | _ => return ([part], rest)

def readKey (cs : List Char) : Except Place (List Key × List Char) := readParts maxDepth cs

/-- The sign between a key and its value. -/
def readSign (cs : List Char) : Except Place (List Char) :=
  match cs with
  | '=' :: rest => .ok rest
  | _ => faultAt cs

/-! ## values -/

def isScalarChar (c : Char) : Bool :=
  c.isAlpha || c.isDigit || c = '_' || c = '-' || c = '+' || c = '.' || c = ':'

/-- An unquoted scalar; one space may stand between a date and a time. -/
def takeScalar (cs : List Char) : List Char × List Char :=
  let word := cs.takeWhile isScalarChar
  let rest := cs.dropWhile isScalarChar
  match rest with
  | ' ' :: c :: _ =>
    if c.isDigit && Scalar.date? word = some [] then
      (word ++ ' ' :: rest.tail.takeWhile isScalarChar, rest.tail.dropWhile isScalarChar)
    else (word, rest)
  | _ => (word, rest)

/-- What follows from the first underscore that does not stand between digits; `before` is what
stands before the word. -/
def strayUnderscore? (before : Char) : List Char → Option (List Char)
  | [] => none
  | ['_'] => some ['_']
  | '_' :: cs => if before.isDigit then strayUnderscore? '_' cs else some ('_' :: cs)
  | c :: cs => strayUnderscore? c cs

/-- What follows from where a word that begins with a digit is no number any more: a zero in front,
a character that no number goes on with, or an underscore out of place. -/
def numberFault? (word : List Char) : Option (List Char) :=
  match word with
  | '0' :: c :: _ =>
    if c.isDigit then some word else if c.isAlpha then none else strayUnderscore? '0' word.tail
  | _ =>
    match word.dropWhile fun c => c.isDigit || c = '_' with
    | [] => strayUnderscore? '0' word
    | c :: rest => if ['.', 'e', 'E', '-', ':'].contains c then none else some (c :: rest)

/-- Where a word that is no scalar goes wrong: in its number, or at its beginning. -/
def scalarFault (word rest : List Char) : Place :=
  let digits := (Scalar.splitSign word).2
  let wrong := if (digits.head?.map (·.isDigit)).getD false then numberFault? digits else none
  (wrong.getD word).length + rest.length

def readScalar (cs : List Char) : Except Place (Value × List Char) :=
  let (word, rest) := takeScalar cs
  match Scalar.readScalar? word with
  | some s => .ok (.scalar cs.length s, rest)
  | none => .error (scalarFault word rest)

/-- Items up to the closing bracket. -/
def readItems (read : Reader Value) : Nat → Reader (List Value)
  | 0, cs => faultAt cs
  | fuel + 1, cs => do
    match ← skipTo cs with
    | ']' :: rest => return ([], rest)
    | item =>
      let (v, rest) ← read item
      match ← skipTo rest with
      | ',' :: rest =>
        let (vs, rest) ← readItems read fuel rest
        return (v :: vs, rest)
      | ']' :: rest => return ([v], rest)
      | rest => faultAt rest

/-- Entries up to the closing brace. -/
def readEntries (read : Reader Value) : Nat → Entries → Reader Entries
  | 0, _, cs => faultAt cs
  | fuel + 1, entries, cs => do
    match ← skipTo cs with
    | '\x7d' :: rest => return (entries, rest)
    | entry =>
      let (keys, rest) ← readKey entry
      let rest ← readSign (← skipTo rest)
      let (v, rest) ← read (← skipTo rest)
      let entries ← addValue keys v entries
      match ← skipTo rest with
      | ',' :: rest => readEntries read fuel entries rest
      | '\x7d' :: rest => return (entries, rest)
      | rest => faultAt rest

/-- A value nested at most `depth` levels. -/
def readValue (depth : Nat) (cs : List Char) : Except Place (Value × List Char) :=
  match cs, depth with
  | '[' :: _, 0 | '\x7b' :: _, 0 => faultAt cs
  | '[' :: rest, depth + 1 =>
    (readItems (readValue depth) (rest.length + 1) rest).map fun (vs, r) => (.list cs.length vs, r)
  | '\x7b' :: rest, depth + 1 =>
    (readEntries (readValue depth) (rest.length + 1) [] rest).map fun (es, r) =>
      ((Draft.table cs.length .header es).toValue, r)
  | _, _ =>
    if startsQuoted cs then
      (readQuoted cs).map fun (t, r) => (.scalar cs.length (.text (String.ofList t)), r)
    else readScalar cs

/-! ## lines -/

/-- A document so far: its entries, and the keys of the last header. -/
structure State where
  entries : Entries
  header : List Key

/-- A header in single or double brackets. -/
def readHeader (s : State) (cs : List Char) : Except Place (State × List Char) :=
  match cs with
  | '[' :: '[' :: rest => do
    let (keys, rest) ← readKey rest
    match skipSpace rest with
    | ']' :: ']' :: after =>
      let entries ← addTable cs.length keys s.entries
      return (⟨entries, keys⟩, after)
    | ']' :: after => faultAt after
    | _ => faultAt rest
  | _ => do
    let (keys, rest) ← readKey cs.tail
    match skipSpace rest with
    | ']' :: after =>
      let entries ← openTable cs.length keys s.entries
      return (⟨entries, keys⟩, after)
    | _ => faultAt rest

/-- A line that sets a value. -/
def readSetting (s : State) (cs : List Char) : Except Place (State × List Char) := do
  let (keys, rest) ← readKey cs
  let rest ← readSign (skipSpace rest)
  let (v, rest) ← readValue maxDepth (skipSpace rest)
  let entries ← addUnder s.header keys v s.entries
  return (⟨entries, s.header⟩, rest)

def readLinesFrom : Nat → State → List Char → Except Place State
  | 0, _, cs => faultAt cs
  | fuel + 1, s, cs =>
    match skipBlank cs with
    | [] => .ok s
    | cs => do
      let (s, rest) ← if cs.head? = some '[' then readHeader s cs else readSetting s cs
      readLinesFrom fuel s (← endLine rest)

/-- The map that a settings file describes, or the place of a fault. -/
def parse (cs : List Char) : Except Place Value :=
  let lines := if cs.head? = some '\uFEFF' then cs.tail else cs
  (readLinesFrom (lines.length + 1) ⟨[], []⟩ lines).map fun s =>
    (Draft.table lines.length .header s.entries).toValue

end CodeBridge.Document
