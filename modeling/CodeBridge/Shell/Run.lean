import CodeBridge.File.System
import CodeBridge.Settings.Basic
import CodeBridge.Shell.Filter
import CodeBridge.Shell.Reader

/-!
# Running commands

A command runs on a state: variables, what is left of its input, what it has written, and how the
last command ended.  Input may still come, so a run can also end because it has to wait for more;
it is then run again from its start when there is more.

* `eval`      run a command;
* `execute`   what a program writes to its output, and whether it ends, given its input so far.
-/

namespace CodeBridge.Shell

structure State where
  vars : List (String × Bytes) := []
  input : Bytes
  /-- no more input will come -/
  ended : Bool
  output : Bytes := []
  status : Nat := 0

/-- How a command leaves off. -/
inductive Flow where
  | next
  | exit
  /-- more input is needed -/
  | blocked
  /-- leave the loop -/
  | leave
  /-- go on with the next turn of the loop -/
  | again
  deriving DecidableEq, Repr

namespace State

def get? (s : State) (name : String) : Option Bytes :=
  if name = "?" then some (digitsOf s.status)
  else (s.vars.find? fun v => v.1 = name).map (·.2)

def set (name : String) (value : Bytes) (s : State) : State :=
  { s with vars := (name, value) :: s.vars.filter fun v => v.1 ≠ name }

def write (bytes : Bytes) (s : State) : State := { s with output := s.output ++ bytes }

def end_ (status : Nat) (s : State) : Flow × State := (.next, { s with status := status })

/-- Take everything up to the end of the input. -/
def takeAll (s : State) : Option (Bytes × State) :=
  if s.ended then some (s.input, { s with input := [] }) else none

/-- Take some bytes, fewer at the end of the input. -/
def takeSome (n : Nat) (s : State) : Option (Bytes × State) :=
  if n ≤ s.input.length || s.ended then
    some (s.input.take n, { s with input := s.input.drop n })
  else none

/-- Take a line; false when the input ends before a newline. -/
def takeLine (s : State) : Option (Bytes × Bool × State) :=
  let line := s.input.takeWhile (· ≠ 0x0A)
  if line.length < s.input.length then
    some (line, true, { s with input := s.input.drop (line.length + 1) })
  else if s.ended then some (line, false, { s with input := [] })
  else none

end State

/-! ## fields -/

def isFieldBlank (b : UInt8) : Bool := b = 0x20 || b = 0x09 || b = 0x0A

/-- What a word has come to so far: its fields, the last one first, and whether one is open. -/
structure Fields where
  closed : List Bytes := []
  current : Option Bytes := none

namespace Fields

def add (bytes : Bytes) (f : Fields) : Fields :=
  { f with current := some (f.current.getD [] ++ bytes) }

def close (f : Fields) : Fields :=
  match f.current with
  | some field => ⟨f.closed ++ [field], none⟩
  | none => f

/-- Add a value that is cut where white space stands. -/
def split (f : Fields) : Bytes → Fields
  | [] => f
  | b :: bs => if isFieldBlank b then f.close.split bs else (f.add [b]).split bs

def toList (f : Fields) : List Bytes := f.close.closed

end Fields

/-- A value without the newlines at its end. -/
def dropNewlines (bs : Bytes) : Bytes := (bs.reverse.dropWhile (· = 0x0A)).reverse

/-! ## small commands -/

def nameIs (name : String) (word : Bytes) : Bool := word = Utf8.ofString name

/-- A condition; none when it cannot be read. -/
def test : List Bytes → Option Bool
  | [] => some false
  | [a] => some (!a.isEmpty)
  | [op, a] =>
    if nameIs "-n" op then some (!a.isEmpty)
    else if nameIs "-z" op then some a.isEmpty
    else if nameIs "!" op then some a.isEmpty
    else none
  | [a, op, b] =>
    let compare (f : Int → Int → Bool) : Option Bool := do
      let x ← integer? a
      let y ← integer? b
      return f x y
    if nameIs "=" op then some (a = b)
    else if nameIs "!=" op then some (a ≠ b)
    else if nameIs "-eq" op then compare fun x y => x = y
    else if nameIs "-ne" op then compare fun x y => x ≠ y
    else if nameIs "-lt" op then compare fun x y => x < y
    else if nameIs "-le" op then compare fun x y => x ≤ y
    else if nameIs "-gt" op then compare fun x y => x > y
    else if nameIs "-ge" op then compare fun x y => x ≥ y
    else none
  | _ => none

/-- The status of a condition. -/
def testStatus (args : List Bytes) : Nat :=
  match test args with
  | some true => 0
  | some false => 1
  | none => 2

/-- Take the backslashes out of a line. -/
def dropBackslashes : Bytes → Bytes
  | [] => []
  | [b] => if b = 0x5C then [] else [b]
  | b :: c :: bs => if b = 0x5C then c :: dropBackslashes bs else b :: dropBackslashes (c :: bs)

/-- White space that a line is freed of at its ends. -/
def trimFields (s : State) (line : Bytes) : Bytes :=
  match s.get? "IFS" with
  | some [] => line
  | _ => ((line.dropWhile isFieldBlank).reverse.dropWhile isFieldBlank).reverse

/-- Give a line's fields to variables, all that is left to the last one. -/
def assignFields : List Bytes → Bytes → State → State
  | [], _, s => s
  | [name], line, s => s.set (Utf8.decodeLossy name) line
  | name :: names, line, s =>
    let field := line.takeWhile (!isFieldBlank ·)
    assignFields names ((line.drop field.length).dropWhile isFieldBlank)
      (s.set (Utf8.decodeLossy name) field)

/-- Read a line into variables. -/
def readLine (args : List Bytes) (s : State) : Flow × State :=
  let raw := args.head? = some (Utf8.ofString "-r")
  let names := if raw then args.tail else args
  match s.takeLine with
  | none => (.blocked, s)
  | some (line, whole, s) =>
    let line := trimFields s (if raw then line else dropBackslashes line)
    (assignFields names line s).end_ (if whole then 0 else 1)

/-- A copy of the input to the output, as it comes. -/
def copyAll (s : State) : Flow × State :=
  let s := { s.write s.input with input := [] }
  if s.ended then s.end_ 0 else (.blocked, s)

def copySome (limit : Option Nat) (s : State) : Flow × State :=
  match limit with
  | none => copyAll s
  | some n =>
    match s.takeSome n with
    | some (bytes, s) => (s.write bytes).end_ 0
    | none => (.blocked, s)

/-- Copy lines, fewer at the end of the input. -/
def copyLines : Nat → State → Flow × State
  | 0, s => s.end_ 0
  | n + 1, s =>
    match s.takeLine with
    | none => (.blocked, s)
    | some (line, whole, s) =>
      if whole then copyLines n (s.write (line ++ [0x0A])) else (s.write line).end_ 0

/-- How much of the input the words of a `head` keep: bytes, or else lines. -/
def headLimit? : List Bytes → Option (Bool × Nat)
  | [] => some (false, 10)
  | [flag] =>
    match flag with
    | 0x2D :: 0x63 :: n => (number? n).map (true, ·)
    | 0x2D :: 0x6E :: n | 0x2D :: n => (number? n).map (false, ·)
    | _ => none
  | [flag, n] =>
    if nameIs "-c" flag then (number? n).map (true, ·)
    else if nameIs "-n" flag then (number? n).map (false, ·)
    else none
  | _ => none

def head (args : List Bytes) (s : State) : Flow × State :=
  match headLimit? args with
  | some (true, n) => copySome (some n) s
  | some (false, n) => copyLines n s
  | none => s.end_ 1

/-- Filter the whole input. -/
def filterAll (f : Bytes → Bytes) (s : State) : Flow × State :=
  match s.takeAll with
  | some (bytes, s) => (s.write (f bytes)).end_ 0
  | none => (.blocked, s)

/-- The file that a word names. -/
def readFile? (d : Disk) (word : Bytes) : Option Bytes := (d.read ⟨word⟩).toOption

/-- The contents of files, one after the other. -/
def copyFiles (d : Disk) (names : List Bytes) (s : State) : Flow × State :=
  let contents := names.map (readFile? d)
  (s.write (contents.flatMap fun c => c.getD [])).end_ (if contents.all (·.isSome) then 0 else 1)

/-- status of a command that is not there -/
def notFound : Nat := 127

/-- The status that the words of an exit give. -/
def exitStatus (s : State) (args : List Bytes) : Nat :=
  match args with
  | a :: _ => ((number? a).getD 2) % 256
  | [] => s.status

/-- Assignments among the words of an export. -/
def export_ (args : List Bytes) (s : State) : State :=
  args.foldl (fun s a =>
    let value := a.dropWhile (· ≠ 0x3D)
    if value.isEmpty then s
    else s.set (Utf8.decodeLossy (a.takeWhile (· ≠ 0x3D))) value.tail) s

/-- A command that needs no other one to be run; none for one that does. -/
def small? (d : Disk) (name : String) (args : List Bytes) (s : State) : Option (Flow × State) :=
  match name with
  | ":" | "true" => some (s.end_ 0)
  | "false" => some (s.end_ 1)
  | "exit" => some (.exit, { s with status := exitStatus s args })
  | "break" => some (.leave, { s with status := 0 })
  | "continue" => some (.again, { s with status := 0 })
  | "read" => some (readLine args s)
  | "export" => some ((export_ args s).end_ 0)
  | "printf" =>
    match args with
    | text :: args => some ((s.write (printf text (args.length + 1) args)).end_ 0)
    | [] => some (s.end_ 2)
  | "echo" => some ((s.write ([0x20].intercalate args ++ [0x0A])).end_ 0)
  | "test" => some (s.end_ (testStatus args))
  | "[" => some (s.end_ (testStatus args.dropLast))
  | "cat" => some (if args.all (nameIs "-") then copyAll s else copyFiles d args s)
  | "dd" => some (copySome (copyLimit args) s)
  | "head" => some (head args s)
  | "tr" => some (filterAll (tr args) s)
  | "sed" => some (filterAll (sed args) s)
  | "sleep" => some (.blocked, s)
  | _ => none

/-! ## evaluation -/

/-- Whether the output of a command leads to somewhere else. -/
def isDiscarded (redirections : List (Nat × List Bytes)) : Bool :=
  redirections.any fun (stream, target) =>
    stream = 1 && target.head?.any (· ≠ Utf8.ofString "&1")

/-- The file that is read instead of the input. -/
def inputFile? (redirections : List (Nat × List Bytes)) : Option Bytes :=
  (redirections.find? fun r => r.1 = 0).bind fun r => r.2.head?

/-- A name without the directories before it. -/
def baseName (word : Bytes) : String :=
  Utf8.decodeLossy ((piecesAt Path.separator word).getLast?.getD [])

mutual

/-- The value of a piece of a word, and whether it may be cut into fields. -/
def pieceValue (d : Disk) : Nat → Piece → State → Option ((Bytes × Bool) × State)
  | 0, _, _ => none
  | fuel + 1, piece, s =>
    match piece with
    | .plain text | .quoted text => some ((text, false), s)
    | .length name => some ((digitsOf ((s.get? name).getD []).length, false), s)
    | .variable name fallback inQuotes =>
      match s.get? name, fallback with
      | some (b :: bs), _ => some ((b :: bs, !inQuotes), s)
      | _, some pieces => do
        let (value, s) ← wordValue d fuel pieces s
        some ((value, !inQuotes), s)
      | _, none => some (([], !inQuotes), s)
    | .output command inQuotes =>
      match eval d fuel command { s with output := [] } with
      | (.blocked, _) => none
      | (_, inner) =>
        some ((dropNewlines inner.output, !inQuotes),
          { s with input := inner.input, status := inner.status })

/-- The value of a word that is not cut. -/
def wordValue (d : Disk) : Nat → Word → State → Option (Bytes × State)
  | 0, _, _ => none
  | _, [], s => some ([], s)
  | fuel + 1, piece :: pieces, s => do
    let ((value, _), s) ← pieceValue d fuel piece s
    let (more, s) ← wordValue d fuel pieces s
    some (value ++ more, s)

/-- The fields of a word. -/
def wordFields (d : Disk) : Nat → Word → Fields → State → Option (List Bytes × State)
  | 0, _, _, _ => none
  | _, [], f, s => some (f.toList, s)
  | fuel + 1, piece :: pieces, f, s => do
    let ((value, cut), s) ← pieceValue d fuel piece s
    wordFields d fuel pieces (if cut then f.split value else f.add value) s

/-- The fields of all words. -/
def wordsFields (d : Disk) : Nat → List Word → State → Option (List Bytes × State)
  | 0, _, _ => none
  | _, [], s => some ([], s)
  | fuel + 1, word :: words, s => do
    let (fields, s) ← wordFields d fuel word {} s
    let (more, s) ← wordsFields d fuel words s
    some (fields ++ more, s)

/-- The pattern that a word is. -/
def globOf (d : Disk) : Nat → Word → State → Option (List Glob × State)
  | 0, _, _ => none
  | _, [], s => some ([], s)
  | fuel + 1, piece :: pieces, s => do
    let ((value, cut), s) ← pieceValue d fuel piece s
    let globs := match piece with
      | .plain text => Glob.ofPlain (text.length + 1) text
      | _ => if cut then Glob.ofPlain (value.length + 1) value else value.map .byte
    let (more, s) ← globOf d fuel pieces s
    some (globs ++ more, s)

/-- Whether one of the patterns fits. -/
def anyFits (d : Disk) (subject : Bytes) : Nat → List Word → State → Option (Bool × State)
  | 0, _, _ => none
  | _, [], s => some (false, s)
  | fuel + 1, pattern :: patterns, s => do
    let (globs, s) ← globOf d fuel pattern s
    if Glob.fits globs subject then some (true, s) else anyFits d subject fuel patterns s

/-- The first arm with a pattern that fits. -/
def chooseArm (d : Disk) (subject : Bytes) : Nat → List (List Word × Command) → State →
    Option (Command × State)
  | 0, _, _ => none
  | _, [], s => some (.nothing, { s with status := 0 })
  | fuel + 1, (patterns, command) :: arms, s => do
    let (fits, s) ← anyFits d subject fuel patterns s
    if fits then some (command, s) else chooseArm d subject fuel arms s

/-- Make the assignments before a command. -/
def assign (d : Disk) : Nat → List (String × Word) → State → Option State
  | 0, _, _ => none
  | _, [], s => some s
  | fuel + 1, (name, word) :: rest, s => do
    let (value, s) ← wordValue d fuel word s
    assign d fuel rest (s.set name value)

/-- The words of redirections. -/
def redirect (d : Disk) : Nat → List (Nat × Word) → State → Option (List (Nat × List Bytes) × State)
  | 0, _, _ => none
  | _, [], s => some ([], s)
  | fuel + 1, (stream, word) :: rest, s => do
    let (fields, s) ← wordFields d fuel word {} s
    let (more, s) ← redirect d fuel rest s
    some ((stream, fields) :: more, s)

/-- Run what the words name. -/
def runWords (d : Disk) : Nat → List Bytes → State → Flow × State
  | 0, _, s => (.blocked, s)
  | _, [], s => s.end_ 0
  | fuel + 1, name :: args, s =>
    match small? d (baseName name) args s, args with
    | some result, _ => result
    | none, file :: _ =>
      if nameIs "." name then
        match (readFile? d file).bind fun t => Command.ofText (Utf8.decodeLossy t).toList with
        | some command => eval d fuel command s
        | none => (.exit, { s with status := 2 })
      else if baseName name = "exec" then runWords d fuel args s
      else if baseName name = "sh" then
        match runShell d fuel args { s with output := [] } with
        | (.blocked, inner) =>
          (.blocked, { s with input := inner.input, output := s.output ++ inner.output })
        | (_, inner) =>
          ({ s with input := inner.input, output := s.output ++ inner.output }).end_ inner.status
      else s.end_ notFound
    | none, [] => s.end_ notFound

/-- Run a simple command. -/
def evalSimple (d : Disk) (assignments : List (String × Word)) (words : List Word)
    (redirections : List (Nat × Word)) : Nat → State → Flow × State
  | 0, s => (.blocked, s)
  | fuel + 1, s =>
    match wordsFields d fuel words { s with status := 0 } with
    | none => (.blocked, s)
    | some (fields, s1) =>
      let s1 := { s1 with status := if fields.isEmpty then s1.status else s.status }
      match assign d fuel assignments s1 with
      | none => (.blocked, s)
      | some s2 =>
        if fields.isEmpty then (.next, s2)
        else
          match redirect d fuel redirections s2 with
          | none => (.blocked, s)
          | some (targets, s3) =>
            let source := inputFile? targets
            let s4 := match source with
              | some file => { s3 with input := (readFile? d file).getD [], ended := true }
              | none => s3
            let (flow, after) := runWords d fuel fields s4
            let after := if isDiscarded targets then { after with output := s3.output } else after
            let after := match source with
              | some _ => { after with input := s3.input, ended := s3.ended }
              | none => after
            let restore (s : State) (a : String × Word) : State :=
              match s1.get? a.1 with
              | some value => s.set a.1 value
              | none => { s with vars := s.vars.filter fun v => v.1 ≠ a.1 }
            (flow, assignments.foldl restore after)

/-- Run a loop. -/
def evalLoop (d : Disk) (condition : Command) (holds : Bool) (body : Command) :
    Nat → State → Flow × State
  | 0, s => (.blocked, s)
  | fuel + 1, s =>
    match eval d fuel condition s with
    | (.next, s) =>
      if (s.status = 0) == holds then
        match eval d fuel body s with
        | (.next, s) | (.again, s) => evalLoop d condition holds body fuel s
        | (.leave, s) => s.end_ 0
        | result => result
      else s.end_ 0
    | (.leave, s) => s.end_ 0
    | (.again, s) => evalLoop d condition holds body fuel s
    | result => result

/-- Run a command. -/
def eval (d : Disk) : Nat → Command → State → Flow × State
  | 0, _, s => (.blocked, s)
  | fuel + 1, command, s =>
    match command with
    | .nothing => (.next, s)
    | .simple assignments words redirections =>
      evalSimple d assignments words redirections fuel s
    | .sequence first second =>
      match eval d fuel first s with
      | (.next, s) => eval d fuel second s
      | result => result
    | .both first second =>
      match eval d fuel first s with
      | (.next, s) => if s.status = 0 then eval d fuel second s else (.next, s)
      | result => result
    | .either first second =>
      match eval d fuel first s with
      | (.next, s) => if s.status = 0 then (.next, s) else eval d fuel second s
      | result => result
    | .negation inner =>
      match eval d fuel inner s with
      | (.next, s) => s.end_ (if s.status = 0 then 1 else 0)
      | result => result
    | .group inner => eval d fuel inner s
    | .subshell inner =>
      match eval d fuel inner s with
      | (.blocked, after) => (.blocked, after)
      | (_, after) => (.next, { after with vars := s.vars })
    | .pipe source sink =>
      let (flow, left) := eval d fuel source { s with output := [] }
      let (onward, right) :=
        eval d fuel sink { s with input := left.output, ended := flow ≠ .blocked }
      if flow = .blocked || onward = .blocked then (.blocked, { s with output := right.output })
      else
        (.next, { s with input := left.input, output := right.output, status := right.status })
    | .loop condition holds body => evalLoop d condition holds body fuel s
    | .branch condition yes no =>
      match eval d fuel condition s with
      | (.next, s) => eval d fuel (if s.status = 0 then yes else no) s
      | result => result
    | .cases subject arms =>
      match wordValue d fuel subject s with
      | none => (.blocked, s)
      | some (value, s1) =>
        match chooseArm d value fuel arms s1 with
        | none => (.blocked, s)
        | some (command, s2) => eval d fuel command s2

/-- Run the shell with its own arguments. -/
def runShell (d : Disk) : Nat → List Bytes → State → Flow × State
  | 0, _, s => (.blocked, s)
  | fuel + 1, args, s =>
    let text : Option Bytes := match args with
      | [] => none
      | [flag] => if nameIs "-c" flag then none else readFile? d flag
      | flag :: script :: _ => if nameIs "-c" flag then some script else readFile? d flag
    match text.bind fun t => Command.ofText (Utf8.decodeLossy t).toList with
    | some command => eval d fuel command s
    | none => (.exit, { s with status := 2 })

end

/-! ## programs -/

/-- Programs that can be run. -/
def programs : List String :=
  ["sh", "cat", "true", "false", "echo", "printf", "dd", "tr", "sed", "head", "sleep", "test", "["]

/-- most steps of a run -/
def maxSteps : Nat := 100000

/-- What a program writes when `input` is what there is of its input, and whether it ends. -/
def execute (d : Disk) (env : Environment) (name : String) (args : List Bytes) (input : Bytes)
    (ended : Bool) : Bytes × Bool :=
  let (flow, s) := runWords d maxSteps (Utf8.ofString name :: args) ⟨env, input, ended, [], 0⟩
  (s.output, flow ≠ .blocked)

end CodeBridge.Shell
