import CodeBridge.Shell.Pattern
import CodeBridge.Text.Pieces

/-!
# Filters

Small programs that turn bytes into bytes: `printf`, `tr`, `sed` and the operands of `dd`.
-/

namespace CodeBridge.Shell

/-! ## numbers -/

def digitsOf (n : Nat) : Bytes := Utf8.encode (Nat.toDigits 10 n)

/-- A natural number; none for anything else. -/
def number? (bs : Bytes) : Option Nat :=
  if bs.isEmpty || !bs.all (fun b => 0x30 ≤ b && b ≤ 0x39) then none
  else some (bs.foldl (fun n b => 10 * n + (b.toNat - 48)) 0)

/-- An integer, perhaps with a sign. -/
def integer? (bs : Bytes) : Option Int :=
  match bs with
  | 0x2D :: rest => (number? rest).map fun n => -(n : Int)
  | bs => (number? bs).map fun n => (n : Int)

/-! ## escapes -/

/-- Up to `limit` octal digits. -/
def takeOctal (limit value : Nat) : Bytes → Nat × Bytes
  | [] => (value, [])
  | b :: bs =>
    if limit > 0 && 0x30 ≤ b && b ≤ 0x37 then
      takeOctal (limit - 1) (8 * value + (b.toNat - 48)) bs
    else (value, b :: bs)

/-- The byte that a letter after a backslash stands for. -/
def escapeByte? (b : UInt8) : Option UInt8 :=
  match Char.ofNat b.toNat with
  | 'n' => some 0x0A
  | 'r' => some 0x0D
  | 't' => some 0x09
  | 'a' => some 0x07
  | 'b' => some 0x08
  | 'f' => some 0x0C
  | 'v' => some 0x0B
  | '\\' => some 0x5C
  | _ => none

/-- The byte after a backslash, and what follows. -/
def readEscape (b : UInt8) (bs : Bytes) : Bytes × Bytes :=
  match escapeByte? b with
  | some e => ([e], bs)
  | none =>
    if 0x30 ≤ b && b ≤ 0x37 then
      let (value, rest) := takeOctal 3 0 (b :: bs)
      ([UInt8.ofNat value], rest)
    else ([0x5C, b], bs)

/-! ## printf -/

/-- One conversion of an argument. -/
def convert (kind : UInt8) (argument : Bytes) : Bytes :=
  if kind = 0x64 then
    match integer? argument with
    | some i => (if i < 0 then [0x2D] else []) ++ digitsOf i.natAbs
    | none => digitsOf 0
  else if kind = 0x63 then argument.take 1
  else argument

/-- The format once, with the arguments that it takes; gives those that are left. -/
def format : Nat → List Bytes → Bytes → Bytes × List Bytes
  | 0, args, _ => ([], args)
  | _, args, [] => ([], args)
  | fuel + 1, args, b :: bs =>
    match bs with
    | c :: rest =>
      if b = 0x25 then
        if c = 0x25 then
          let (out, args) := format fuel args rest
          (0x25 :: out, args)
        else
          let (out, left) := format fuel args.tail rest
          (convert c (args.headD []) ++ out, left)
      else if b = 0x5C then
        let (written, rest) := readEscape c rest
        let (out, args) := format fuel args rest
        (written ++ out, args)
      else
        let (out, args) := format fuel args bs
        (b :: out, args)
    | [] => ([b], args)

/-- The format again and again while it takes arguments that are left. -/
def printf (text : Bytes) : Nat → List Bytes → Bytes
  | 0, _ => []
  | fuel + 1, args =>
    let (out, left) := format (text.length + 1) args text
    if left.isEmpty || left.length = args.length then out else out ++ printf text fuel left

/-! ## tr -/

/-- The bytes of a set as it is written. -/
def expandSet : Nat → Bytes → Bytes
  | 0, _ => []
  | _, [] => []
  | fuel + 1, b :: bs =>
    let (first, rest) := match bs with
      | c :: rest => if b = 0x5C then readEscape c rest else ([b], bs)
      | [] => ([b], bs)
    match first, rest with
    | [a], h :: z :: rest' =>
      if h = ByteSet.hyphen && a ≤ z then
        ((List.range (z.toNat - a.toNat + 1)).map fun i => UInt8.ofNat (a.toNat + i)) ++
          expandSet fuel rest'
      else a :: expandSet fuel rest
    | first, rest => first ++ expandSet fuel rest

def byteSet (bs : Bytes) : Bytes := expandSet (bs.length + 1) bs

/-- The byte at the same place of the second set; its last one for those that it is too short for. -/
def exchange (source target : Bytes) (b : UInt8) : UInt8 :=
  match source.idxOf? b with
  | none => b
  | some i => (target[i]?).getD (target.getLast?.getD b)

def tr (args : List Bytes) (input : Bytes) : Bytes :=
  match args with
  | [flags, set] =>
    let set := byteSet set
    if flags.head? = some ByteSet.hyphen then
      let complement := flags.contains 0x63 || flags.contains 0x43
      input.filter fun b => set.contains b == complement
    else input.map (exchange (byteSet flags) set)
  | _ => []

/-! ## sed -/

/-- A substitution: its pattern, the text for it, and whether it is for every place of a line. -/
structure Substitution where
  pattern : Regex
  text : Bytes
  every : Bool
  deriving DecidableEq, Repr

/-- Put bytes in front of the first part. -/
def startWith (bytes : Bytes) : List Bytes → List Bytes
  | [] => [bytes]
  | p :: ps => (bytes ++ p) :: ps

/-- The parts of a substitution, cut at its mark unless a backslash stands before it. -/
def cutAtMark (mark : UInt8) : Bytes → List Bytes
  | [] => [[]]
  | [b] => if b = mark then [[], []] else [[b]]
  | b :: c :: bs =>
    if b = mark then [] :: cutAtMark mark (c :: bs)
    else if b = 0x5C then startWith (if c = mark then [c] else [b, c]) (cutAtMark mark bs)
    else startWith [b] (cutAtMark mark (c :: bs))

def Substitution.read? (script : Bytes) : Option Substitution :=
  match script with
  | 0x73 :: mark :: rest =>
    match cutAtMark mark rest with
    | [pattern, text, flags] =>
      (Regex.ofBytes? pattern).map fun r => ⟨r, text, flags.contains 0x67⟩
    | _ => none
  | _ => none

/-- Every line with the substitution made; the last line keeps its newline or its lack of one. -/
def sed (args : List Bytes) (input : Bytes) : Bytes :=
  match args with
  | [script] =>
    match Substitution.read? script with
    | some s =>
      let line (l : Bytes) : Bytes := Regex.replace s.pattern s.text s.every (l.length + 1) true l
      let lines := piecesAt 0x0A input
      if lines.getLast? = some [] then joinWith 0x0A (lines.dropLast.map line ++ [[]])
      else joinWith 0x0A (lines.map line)
    | none => []
  | _ => []

/-! ## dd -/

/-- The number that an operand such as `count=3` gives. -/
def operand? (name : String) (args : List Bytes) : Option Nat :=
  let stem := Utf8.ofString (name ++ "=")
  (args.find? fun a => stem.isPrefixOf a).bind fun a => number? (a.drop stem.length)

/-- How many bytes are copied; none for all. -/
def copyLimit (args : List Bytes) : Option Nat :=
  (operand? "count" args).map fun count => count * (operand? "bs" args).getD 512

end CodeBridge.Shell
