import CodeBridge.Shell.Syntax

/-!
# Reading commands

A reader takes what it reads off the front of a text, and gives none when the text goes on in no
way that it knows.  Every reader has a budget of steps; the length of the text is enough.
-/

namespace CodeBridge.Shell

/-! ## characters -/

def isNameChar (c : Char) : Bool := c.isAlphanum || c = '_'

def isBlankChar (c : Char) : Bool := c = ' ' || c = '\t'

/-- A character that ends a word. -/
def endsWord (c : Char) : Bool :=
  isBlankChar c || ['\n', ';', '&', '|', '(', ')', '<', '>'].contains c

/-- The text from the first character that means something on the same line. -/
def skipBlanks : List Char → List Char
  | '\\' :: '\n' :: cs => skipBlanks cs
  | c :: cs => if isBlankChar c then skipBlanks cs else c :: cs
  | [] => []

def skipComment : List Char → List Char
  | '#' :: cs => cs.dropWhile (· ≠ '\n')
  | cs => cs

/-- The text from the first character that means something. -/
def skipLines : Nat → List Char → List Char
  | 0, cs => cs
  | fuel + 1, cs =>
    match skipComment (skipBlanks cs) with
    | '\n' :: cs => skipLines fuel cs
    | cs => cs

/-- The word of plain name characters at the front. -/
def frontName (cs : List Char) : String × List Char :=
  (String.ofList (cs.takeWhile isNameChar), cs.dropWhile isNameChar)

/-- The text after a keyword, if it is at the front. -/
def keyword? (word : String) (cs : List Char) : Option (List Char) :=
  let rest := cs.drop word.length
  if word.toList.isPrefixOf cs && (rest.head?.map endsWord).getD true then some rest else none

/-- Words that end a list of commands. -/
def closers : List String := ["do", "done", "then", "elif", "else", "fi", "esac", "\x7d"]

/-- No command begins here. -/
def endsList (cs : List Char) : Bool :=
  match cs with
  | [] | ')' :: _ | ';' :: ';' :: _ => true
  | cs => closers.any fun w => (keyword? w cs).isSome

def utf8 (cs : List Char) : Bytes := Utf8.encode cs

/-- The text up to a quote, and what follows it. -/
def untilQuote? (cs : List Char) : Option (List Char × List Char) :=
  match cs.dropWhile (· ≠ '\'') with
  | '\'' :: rest => some (cs.takeWhile (· ≠ '\''), rest)
  | _ => none

/-- The start of an assignment. -/
def assignment? (cs : List Char) : Option (String × List Char) :=
  match frontName cs with
  | (name, '=' :: rest) =>
    if (name.toList.head?.map fun c => !c.isDigit).getD false then some (name, rest) else none
  | _ => none

/-- Which stream a redirection is about. -/
def redirection? (cs : List Char) : Option (Nat × List Char) :=
  match cs with
  | '>' :: '>' :: rest | '>' :: rest | '1' :: '>' :: rest => some (1, rest)
  | '2' :: '>' :: rest => some (2, rest)
  | '<' :: rest => some (0, rest)
  | _ => none

mutual

/-- What follows a dollar sign. -/
def readDollar (inQuotes : Bool) : Nat → List Char → Option (Piece × List Char)
  | 0, _ => none
  | fuel + 1, cs =>
    match cs with
    | '(' :: rest => do
      let (command, rest) ← readList fuel rest
      match rest with
      | ')' :: rest => some (.output command inQuotes, rest)
      | _ => none
    | '\x7b' :: '#' :: rest =>
      match frontName rest with
      | (name, '\x7d' :: rest) => some (.length name, rest)
      | _ => none
    | '\x7b' :: rest =>
      match frontName rest with
      | (name, '\x7d' :: rest) => some (.variable name none inQuotes, rest)
      | (name, ':' :: '-' :: rest) => do
        let (pieces, rest) ← readPieces (fun c => c = '\x7d') fuel rest
        match rest with
        | '\x7d' :: rest => some (.variable name (some pieces) inQuotes, rest)
        | _ => none
      | _ => none
    | '?' :: rest => some (.variable "?" none inQuotes, rest)
    | cs =>
      match frontName cs with
      | ("", cs) => some (.quoted (utf8 ['$']), cs)
      | (name, cs) => some (.variable name none inQuotes, cs)

/-- Pieces between double quotes, and what follows them. -/
def readQuoted : Nat → List Char → Option (List Piece × List Char)
  | 0, _ => none
  | fuel + 1, cs =>
    match cs with
    | [] => none
    | '"' :: rest => some ([.quoted []], rest)
    | '\\' :: '\n' :: rest => readQuoted fuel rest
    | '$' :: rest => do
      let (piece, rest) ← readDollar true fuel rest
      let (pieces, rest) ← readQuoted fuel rest
      some (piece :: pieces, rest)
    | '\\' :: c :: rest => do
      let text := if ['$', '"', '\\', '\x60'].contains c then [c] else ['\\', c]
      let (pieces, rest) ← readQuoted fuel rest
      some (.quoted (utf8 text) :: pieces, rest)
    | '\x60' :: _ => none
    | c :: rest => do
      let (pieces, rest) ← readQuoted fuel rest
      some (.quoted (utf8 [c]) :: pieces, rest)

/-- Pieces up to a character that ends them. -/
def readPieces (ends : Char → Bool) : Nat → List Char → Option (List Piece × List Char)
  | 0, _ => none
  | fuel + 1, cs =>
    match cs with
    | [] => some ([], [])
    | '\'' :: rest => do
      let (text, rest) ← untilQuote? rest
      let (pieces, rest) ← readPieces ends fuel rest
      some (.quoted (utf8 text) :: pieces, rest)
    | '"' :: rest => do
      let (inner, rest) ← readQuoted fuel rest
      let (pieces, rest) ← readPieces ends fuel rest
      some (inner ++ pieces, rest)
    | '\\' :: '\n' :: rest => readPieces ends fuel rest
    | '\\' :: c :: rest => do
      let (pieces, rest) ← readPieces ends fuel rest
      some (.quoted (utf8 [c]) :: pieces, rest)
    | '$' :: rest => do
      let (piece, rest) ← readDollar false fuel rest
      let (pieces, rest) ← readPieces ends fuel rest
      some (piece :: pieces, rest)
    | '\x60' :: _ => none
    | c :: rest =>
      if ends c then some ([], c :: rest)
      else do
        let (pieces, rest) ← readPieces ends fuel rest
        some (.plain (utf8 [c]) :: pieces, rest)

/-- The rest of a simple command. -/
def readSimple (assignments : List (String × Word)) (words : List Word)
    (redirections : List (Nat × Word)) : Nat → List Char → Option (Command × List Char)
  | 0, _ => none
  | fuel + 1, cs =>
    let cs := skipBlanks cs
    match redirection? cs with
    | some (stream, rest) => do
      let rest := skipBlanks rest
      let (head, rest) := match rest with
        | '&' :: rest => ([Piece.plain (utf8 ['&'])], rest)
        | rest => ([], rest)
      let (pieces, rest) ← readPieces endsWord fuel rest
      readSimple assignments words (redirections ++ [(stream, head ++ pieces)]) fuel rest
    | none =>
      match cs with
      | [] => some (.simple assignments words redirections, [])
      | c :: _ =>
        if endsWord c || c = '#' then some (.simple assignments words redirections, cs)
        else
          match if words.isEmpty then assignment? cs else none with
          | some (name, rest) => do
            let (pieces, rest) ← readPieces endsWord fuel rest
            readSimple (assignments ++ [(name, pieces)]) words redirections fuel rest
          | none => do
            let (pieces, rest) ← readPieces endsWord fuel cs
            readSimple assignments (words ++ [pieces]) redirections fuel rest

/-- The patterns of an arm, up to the closing bracket. -/
def readPatterns : Nat → List Char → Option (List Word × List Char)
  | 0, _ => none
  | fuel + 1, cs => do
    let (pieces, rest) ← readPieces endsWord fuel (skipBlanks cs)
    match skipBlanks rest with
    | ')' :: rest => some ([pieces], rest)
    | '|' :: rest => do
      let (more, rest) ← readPatterns fuel rest
      some (pieces :: more, rest)
    | _ => none

/-- The arms up to `esac`. -/
def readArms : Nat → List Char → Option (List (List Word × Command) × List Char)
  | 0, _ => none
  | fuel + 1, cs =>
    let cs := skipLines cs.length cs
    match keyword? "esac" cs with
    | some rest => some ([], rest)
    | none => do
      let cs := match cs with
        | '(' :: rest => rest
        | cs => cs
      let (patterns, rest) ← readPatterns fuel cs
      let (body, rest) ← readList fuel rest
      match rest with
      | ';' :: ';' :: rest => do
        let (arms, rest) ← readArms fuel rest
        some ((patterns, body) :: arms, rest)
      | rest => do
        let rest ← keyword? "esac" rest
        some ([(patterns, body)], rest)

/-- The rest of a loop. -/
def readLoop (holds : Bool) : Nat → List Char → Option (Command × List Char)
  | 0, _ => none
  | fuel + 1, cs => do
    let (condition, rest) ← readList fuel cs
    let rest ← keyword? "do" rest
    let (body, rest) ← readList fuel rest
    let rest ← keyword? "done" rest
    some (.loop condition holds body, rest)

/-- The rest of a branch. -/
def readBranch : Nat → List Char → Option (Command × List Char)
  | 0, _ => none
  | fuel + 1, cs => do
    let (condition, rest) ← readList fuel cs
    let rest ← keyword? "then" rest
    let (yes, rest) ← readList fuel rest
    match keyword? "elif" rest, keyword? "else" rest with
    | some rest, _ =>
      let (no, rest) ← readBranch fuel rest
      some (.branch condition yes no, rest)
    | none, some rest =>
      let (no, rest) ← readList fuel rest
      let rest ← keyword? "fi" rest
      some (.branch condition yes no, rest)
    | none, none =>
      let rest ← keyword? "fi" rest
      some (.branch condition yes .nothing, rest)

/-- The rest of a choice. -/
def readCases : Nat → List Char → Option (Command × List Char)
  | 0, _ => none
  | fuel + 1, cs => do
    let (subject, rest) ← readPieces endsWord fuel (skipBlanks cs)
    let rest ← keyword? "in" (skipLines rest.length rest)
    let (arms, rest) ← readArms fuel rest
    some (.cases subject arms, rest)

def readCommand : Nat → List Char → Option (Command × List Char)
  | 0, _ => none
  | fuel + 1, cs =>
    let cs := skipBlanks cs
    match keyword? "while" cs, keyword? "until" cs, keyword? "if" cs, keyword? "case" cs,
        keyword? "\x7b" cs with
    | some rest, _, _, _, _ => readLoop true fuel rest
    | _, some rest, _, _, _ => readLoop false fuel rest
    | _, _, some rest, _, _ => readBranch fuel rest
    | _, _, _, some rest, _ => readCases fuel rest
    | _, _, _, _, some rest => do
      let (command, rest) ← readList fuel rest
      let rest ← keyword? "\x7d" rest
      some (.group command, rest)
    | none, none, none, none, none =>
      match cs with
      | '(' :: rest => do
        let (command, rest) ← readList fuel rest
        match rest with
        | ')' :: rest => some (.subshell command, rest)
        | _ => none
      | cs => readSimple [] [] [] fuel cs

def readPipeline : Nat → List Char → Option (Command × List Char)
  | 0, _ => none
  | fuel + 1, cs =>
    match keyword? "!" (skipBlanks cs) with
    | some rest => (readPipeline fuel rest).map fun (c, rest) => (.negation c, rest)
    | none => do
      let (first, rest) ← readCommand fuel cs
      match skipBlanks rest with
      | '|' :: '|' :: rest => some (first, '|' :: '|' :: rest)
      | '|' :: rest => do
        let (second, rest) ← readPipeline fuel (skipLines rest.length rest)
        some (.pipe first second, rest)
      | rest => some (first, rest)

/-- Pipelines that follow `first` on one condition or the other. -/
def readMore (first : Command) : Nat → List Char → Option (Command × List Char)
  | 0, _ => none
  | fuel + 1, cs =>
    match skipBlanks cs with
    | '&' :: '&' :: rest => do
      let (second, rest) ← readPipeline fuel (skipLines rest.length rest)
      readMore (.both first second) fuel rest
    | '|' :: '|' :: rest => do
      let (second, rest) ← readPipeline fuel (skipLines rest.length rest)
      readMore (.either first second) fuel rest
    | rest => some (first, skipComment rest)

/-- Commands up to a word that ends a list. -/
def readList : Nat → List Char → Option (Command × List Char)
  | 0, _ => none
  | fuel + 1, cs =>
    let cs := skipLines cs.length cs
    if endsList cs then some (.nothing, cs)
    else do
      let (first, rest) ← readPipeline fuel cs
      let (first, rest) ← readMore first fuel rest
      match rest with
      | ';' :: ';' :: rest => some (first, ';' :: ';' :: rest)
      | ';' :: rest | '\n' :: rest | '&' :: rest => do
        let (second, rest) ← readList fuel rest
        some (.sequence first second, rest)
      | rest => if endsList rest then some (first, rest) else none

end

/-- The commands of a script. -/
def Command.ofText (text : List Char) : Option Command :=
  match readList (4 * text.length + 16) text with
  | some (command, []) => some command
  | _ => none

end CodeBridge.Shell
