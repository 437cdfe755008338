import CodeBridge.Settings.Value

/-!
# Unquoted scalars of a settings file

A scalar without quotes is a truth value, a number or a date and time, told apart by its spelling
alone.  `readScalar?` gives the value of one, or none for a spelling that is no scalar.
-/

namespace CodeBridge.Scalar

/-! ## digits -/

def isDigit (c : Char) : Bool := '0' ≤ c && c ≤ '9'

def digitValue? (base : Nat) (c : Char) : Option Nat :=
  let v :=
    if isDigit c then some (c.toNat - 48)
    else if 'a' ≤ c && c ≤ 'f' then some (c.toNat - 87)
    else if 'A' ≤ c && c ≤ 'F' then some (c.toNat - 55)
    else none
  v.filter (· < base)

/-- Digits that single underscores may separate, as their values. -/
def digits? (base : Nat) : List Char → Option (List Nat)
  | [] => none
  | [c] => (digitValue? base c).map fun d => [d]
  | c :: '_' :: cs => do
    let d ← digitValue? base c
    let ds ← digits? base cs
    return d :: ds
  | c :: cs => do
    let d ← digitValue? base c
    let ds ← digits? base cs
    return d :: ds

def value (base : Nat) (ds : List Nat) : Nat := ds.foldl (fun n d => n * base + d) 0

def natural? (base : Nat) (cs : List Char) : Option Nat := (digits? base cs).map (value base)

/-- Decimal digits without a zero in front. -/
def decimal? (cs : List Char) : Option Nat :=
  match cs with
  | '0' :: _ :: _ => none
  | _ => natural? 10 cs

/-- a sign and what follows it -/
def splitSign : List Char → Bool × List Char
  | '-' :: cs => (true, cs)
  | '+' :: cs => (false, cs)
  | cs => (false, cs)

/-! ## numbers -/

def integer? (cs : List Char) : Option Int :=
  match cs with
  | '0' :: 'x' :: cs => (natural? 16 cs).map Int.ofNat
  | '0' :: 'o' :: cs => (natural? 8 cs).map Int.ofNat
  | '0' :: 'b' :: cs => (natural? 2 cs).map Int.ofNat
  | _ =>
    let (isNeg, cs) := splitSign cs
    (decimal? cs).map fun n => if isNeg then -(n : Int) else n

/-- largest exponent that is worked out -/
def maxExponent : Nat := 400

/-- The float of a ratio, unless it is beyond all of them. -/
def ofRatio (isNeg : Bool) (n d : Nat) : Document.Scalar :=
  match Binary64.ofRatio isNeg n d with
  | some x => .float x
  | none => .huge

/-- A whole part, a fraction of `scale` digits, and an exponent. -/
def float (isNeg : Bool) (digits scale : Nat) (exponent : Int) : Document.Scalar :=
  let e := exponent - scale
  if digits = 0 then .float (.zero isNeg)
  else if e > maxExponent then .huge
  else if 0 ≤ e then ofRatio isNeg (digits * 10 ^ e.toNat) 1
  else if e < -(10000 : Int) then .float (.zero isNeg)
  else ofRatio isNeg digits (10 ^ e.natAbs)

def exponent? (cs : List Char) : Option Int :=
  let (isNeg, cs) := splitSign cs
  (natural? 10 cs).map fun n => if isNeg then -(n : Int) else n

def isMark (c : Char) : Bool := c = 'e' || c = 'E'

def number? (cs : List Char) : Option Document.Scalar :=
  let (isNeg, cs) := splitSign cs
  if cs = ['i', 'n', 'f'] then some (.float (.infinity isNeg))
  else if cs = ['n', 'a', 'n'] then some (.float (.nan isNeg))
  else do
    let mantissa := cs.takeWhile (!isMark ·)
    let whole := mantissa.takeWhile (· ≠ '.')
    let n ← decimal? whole
    let exponent ← match cs.dropWhile (!isMark ·) with
      | [] => some 0
      | _ :: e => exponent? e
    match mantissa.dropWhile (· ≠ '.') with
    | [] => if cs.any isMark then some (float isNeg n 0 exponent) else none
    | _ :: fraction =>
      let ds ← digits? 10 fraction
      some (float isNeg (n * 10 ^ ds.length + value 10 ds) ds.length exponent)

/-! ## dates -/

/-- Exactly `count` digits, and what follows. -/
def takeDigits? (count : Nat) (cs : List Char) : Option (Nat × List Char) :=
  let ds := cs.take count
  if ds.length = count && ds.all isDigit then
    (natural? 10 ds).map fun n => (n, cs.drop count)
  else none

def isLeap (year : Nat) : Bool := year % 4 = 0 && (year % 100 ≠ 0 || year % 400 = 0)

def daysOf (year month : Nat) : Nat :=
  if month = 2 then if isLeap year then 29 else 28
  else if month = 4 || month = 6 || month = 9 || month = 11 then 30
  else 31

/-- What follows a date. -/
def date? (cs : List Char) : Option (List Char) := do
  let (year, cs) ← takeDigits? 4 cs
  let '-' :: cs := cs | none
  let (month, cs) ← takeDigits? 2 cs
  let '-' :: cs := cs | none
  let (day, cs) ← takeDigits? 2 cs
  if 1 ≤ month && month ≤ 12 && 1 ≤ day && day ≤ daysOf year month then some cs else none

/-- What follows the seconds and their fraction, which may be left out. -/
def seconds? : List Char → Option (List Char)
  | ':' :: cs => do
    let (second, cs) ← takeDigits? 2 cs
    if second > 60 then none
    else
      match cs with
      | '.' :: rest =>
        if (rest.head?.map isDigit).getD false then some (rest.dropWhile isDigit) else none
      | _ => some cs
  | cs => some cs

/-- What follows a time of day. -/
def time? (cs : List Char) : Option (List Char) := do
  let (hour, cs) ← takeDigits? 2 cs
  let ':' :: cs := cs | none
  let (minute, cs) ← takeDigits? 2 cs
  if hour > 23 || minute > 59 then none else seconds? cs

/-- an offset from universal time, and nothing after it -/
def offset? (cs : List Char) : Option Unit :=
  match cs with
  | [] | ['Z'] | ['z'] => some ()
  | sign :: cs =>
    if sign = '+' || sign = '-' then do
      let (hour, cs) ← takeDigits? 2 cs
      let ':' :: cs := cs | none
      let (minute, cs) ← takeDigits? 2 cs
      if hour ≤ 23 && minute ≤ 59 && cs.isEmpty then some () else none
    else none

def isDateTime (cs : List Char) : Bool :=
  match date? cs with
  | some [] => true
  | some (mark :: rest) =>
    (mark = 'T' || mark = 't' || mark = ' ') && ((time? rest).bind offset?).isSome
  | none => time? cs = some []

/-! ## the scalar -/

/-- The largest numbers of either sign that some type holds. -/
def ofInt (i : Int) : Document.Scalar :=
  if -(2 ^ 127) ≤ i && i < 2 ^ 128 then .int i else .huge

/-- The value of a scalar by its spelling. -/
def readScalar? (cs : List Char) : Option Document.Scalar :=
  if cs = "true".toList then some (.bool true)
  else if cs = "false".toList then some (.bool false)
  else if isDateTime cs then some .date
  else (integer? cs).map ofInt <|> number? cs

end CodeBridge.Scalar
