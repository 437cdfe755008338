import CodeBridge.Json.Basic
import CodeBridge.Text.Utf8

/-!
# Reading JSON

`parse` reads one value from a byte string, with white space around it and nothing else.  A fault
is reported with its cause and with the place, counted in bytes, where reading stopped:

* values nest at most 127 levels deep (`maxDepth`);
* an integer literal that fits 64 bits is an integer, every other number a double;
* of two members with one key the last counts;
* the bytes of a text must be UTF-8, and its escapes must name characters.

A `Cursor` is the rest of the input and the number of bytes before it.  A fault at the next byte
(`faultNext`) is placed one byte further than one at the byte just read (`faultHere`).
-/

namespace CodeBridge.Json

/-! ## faults -/

/-- Why a text is not JSON. -/
inductive SyntaxCause where
  | endInValue | endInObject | endInList | endInText
  | expectedColon | expectedCommaOrBrace | expectedCommaOrBracket
  | expectedWord | expectedValue | keyNotText
  | trailingComma | trailingCharacters
  | invalidNumber | numberOutOfRange
  | invalidEscape | unfinishedEscape | loneSurrogate | invalidCodePoint | controlCharacter
  | tooDeep
  deriving DecidableEq, Repr

def SyntaxCause.message : SyntaxCause → String
  | .endInValue => "EOF while parsing a value"
  | .endInObject => "EOF while parsing an object"
  | .endInList => "EOF while parsing a list"
  | .endInText => "EOF while parsing a string"
  | .expectedColon => "expected `:`"
  | .expectedCommaOrBrace => "expected `,` or `\x7d`"
  | .expectedCommaOrBracket => "expected `,` or `]`"
  | .expectedWord => "expected ident"
  | .expectedValue => "expected value"
  | .keyNotText => "key must be a string"
  | .trailingComma => "trailing comma"
  | .trailingCharacters => "trailing characters"
  | .invalidNumber => "invalid number"
  | .numberOutOfRange => "number out of range"
  | .invalidEscape => "invalid escape"
  | .unfinishedEscape => "unexpected end of hex escape"
  | .loneSurrogate => "lone leading surrogate in hex escape"
  | .invalidCodePoint => "invalid unicode code point"
  | .controlCharacter => "control character (\\u0000-\\u001F) found while parsing a string"
  | .tooDeep => "recursion limit exceeded"

/-- A cause and the number of bytes before the fault. -/
structure Fault where
  cause : SyntaxCause
  index : Nat
  deriving DecidableEq, Repr

/-- A fault placed by line and column. -/
structure SyntaxError where
  cause : SyntaxCause
  line : Nat
  column : Nat
  deriving DecidableEq, Repr

def SyntaxError.message (e : SyntaxError) : String :=
  s!"{e.cause.message} at line {e.line} column {e.column}"

/-- Line and column of the place after the bytes `before`. -/
def Fault.place (f : Fault) (input : Bytes) : SyntaxError :=
  let before := input.take f.index
  ⟨f.cause, before.count 10 + 1, (before.reverse.takeWhile (· != 10)).length⟩

/-! ## the cursor -/

structure Cursor where
  rest : Bytes
  index : Nat
  deriving DecidableEq, Repr

namespace Cursor

def faultHere (c : Cursor) (cause : SyntaxCause) : Fault := ⟨cause, c.index⟩

def faultNext (c : Cursor) (cause : SyntaxCause) : Fault :=
  ⟨cause, if c.rest.isEmpty then c.index else c.index + 1⟩

/-- past the next byte -/
def skip (c : Cursor) : Cursor := ⟨c.rest.tail, c.index + (if c.rest.isEmpty then 0 else 1)⟩

/-- past the next `n` bytes -/
def skipMany (c : Cursor) (n : Nat) : Cursor := ⟨c.rest.drop n, c.index + min n c.rest.length⟩

end Cursor

def isSpace (b : UInt8) : Bool := b = 0x20 || b = 0x0A || b = 0x09 || b = 0x0D

/-- past white space -/
def skipSpaceFrom : Bytes → Nat → Cursor
  | [], i => ⟨[], i⟩
  | b :: bs, i => if isSpace b then skipSpaceFrom bs (i + 1) else ⟨b :: bs, i⟩

def Cursor.skipSpace (c : Cursor) : Cursor := skipSpaceFrom c.rest c.index

/-! ## words -/

/-- The letters of `null`, `true` or `false` after the first one. -/
def readWord (value : Json) : List UInt8 → Cursor → Except Fault (Json × Cursor)
  | [], c => .ok (value, c)
  | w :: ws, c =>
    match c.rest with
    | [] => .error (c.faultHere .endInValue)
    | b :: _ =>
      if b = w then readWord value ws c.skip
      else .error (c.skip.faultHere .expectedWord)

/-! ## numbers -/

def isDigit (b : UInt8) : Bool := 0x30 ≤ b && b ≤ 0x39

def digitValue (b : UInt8) : Nat := b.toNat - 48

def maxWord : Nat := 2 ^ 64 - 1
def maxExponent : Nat := 2 ^ 31 - 1

/-- Digits as long as the number stays within `limit`: the number, how many digits were taken,
and the rest. -/
def takeDigits (limit : Nat) : Bytes → Nat → Nat → Nat × Nat × Bytes
  | [], value, count => (value, count, [])
  | b :: bs, value, count =>
    if isDigit b && value * 10 + digitValue b ≤ limit then
      takeDigits limit bs (value * 10 + digitValue b) (count + 1)
    else (value, count, b :: bs)

/-- All digits: how many, and the rest. -/
def skipDigits : Bytes → Nat → Nat × Bytes
  | [], count => (count, [])
  | b :: bs, count => if isDigit b then skipDigits bs (count + 1) else (count, b :: bs)

def Cursor.digits (c : Cursor) (limit value : Nat) : Nat × Nat × Cursor :=
  let (v, n, rest) := takeDigits limit c.rest value 0
  (v, n, ⟨rest, c.index + n⟩)

def Cursor.skipDigits (c : Cursor) : Nat × Cursor :=
  let (n, rest) := Json.skipDigits c.rest 0
  (n, ⟨rest, c.index + n⟩)

def nextIsDigit (c : Cursor) : Bool :=
  match c.rest with
  | b :: _ => isDigit b
  | [] => false

def nextIsExponent (c : Cursor) : Bool :=
  match c.rest with
  | b :: _ => b = 0x65 || b = 0x45
  | [] => false

/-- The double `± significand * 10^e`. -/
def finishFloat (isNeg : Bool) (significand : Nat) (e : Int) (c : Cursor) : Except Fault (Number × Cursor) :=
  match Binary64.ofDecimal isNeg significand e with
  | some x => .ok (.float x, c)
  | none => .error (c.faultHere .numberOutOfRange)

/-- An exponent, from its letter on. -/
def readExponent (isNeg : Bool) (significand : Nat) (e : Int) (c : Cursor) : Except Fault (Number × Cursor) :=
  let c := c.skip
  let (down, c) :=
    match c.rest with
    | 0x2B :: _ => (false, c.skip)
    | 0x2D :: _ => (true, c.skip)
    | _ => (false, c)
  match c.rest with
  | [] => .error (c.faultHere .endInValue)
  | b :: _ =>
    if isDigit b then
      let (x, _, c) := c.digits maxExponent 0
      if nextIsDigit c then
        -- an exponent beyond 32 bits
        if significand ≠ 0 && !down then .error (c.skip.faultHere .numberOutOfRange)
        else .ok (.float (Binary64.zero isNeg), c.skipDigits.2)
      else finishFloat isNeg significand (if down then e - x else e + x) c
    else .error (c.skip.faultHere .invalidNumber)

/-- Decimal places, from the point on. -/
def readFraction (isNeg : Bool) (significand : Nat) (e : Int) (c : Cursor) : Except Fault (Number × Cursor) :=
  let c := c.skip
  let (significand, places, c) := c.digits maxWord significand
  let e := e - places
  if nextIsDigit c then
    -- digits beyond 64 bits are dropped
    let c := c.skipDigits.2
    if nextIsExponent c then readExponent isNeg significand e c
    else finishFloat isNeg significand e c
  else if places = 0 then
    match c.rest with
    | [] => .error (c.faultNext .endInValue)
    | _ :: _ => .error (c.faultNext .invalidNumber)
  else if nextIsExponent c then readExponent isNeg significand e c
  else finishFloat isNeg significand e c

def nextIsPoint (c : Cursor) : Bool :=
  match c.rest with
  | b :: _ => b = 0x2E
  | [] => false

/-- A double from here on: a point, an exponent or nothing. -/
def readFloatTail (isNeg : Bool) (significand : Nat) (e : Int) (c : Cursor) : Except Fault (Number × Cursor) :=
  if nextIsPoint c then readFraction isNeg significand e c
  else if nextIsExponent c then readExponent isNeg significand e c
  else finishFloat isNeg significand e c

/-- The integer `± n`, or the double it has to be: a negative zero, or below the signed word. -/
def wholeNumber (isNeg : Bool) (n : Nat) : Number :=
  let value : Int := if isNeg then -n else n
  if isNeg && n = 0 then .float (Binary64.zero true)
  else if h : InWord value then .int value h
  else .float (if isNeg then (Binary64.ofNat n).neg else Binary64.ofNat n)

def finishInteger (isNeg : Bool) (n : Nat) (c : Cursor) : Except Fault (Number × Cursor) :=
  if nextIsPoint c || nextIsExponent c then readFloatTail isNeg n 0 c
  else .ok (wholeNumber isNeg n, c)

/-- A number after its sign. -/
def readUnsigned (isNeg : Bool) (c : Cursor) : Except Fault (Number × Cursor) :=
  match c.rest with
  | [] => .error (c.faultHere .endInValue)
  | b :: _ =>
    if b = 0x30 then
      if nextIsDigit c.skip then .error (c.skip.faultNext .invalidNumber)
      else finishInteger isNeg 0 c.skip
    else if isDigit b then
      let (n, _, c) := c.digits maxWord 0
      if nextIsDigit c then
        -- digits beyond 64 bits only scale the number
        let (more, c) := c.skipDigits
        readFloatTail isNeg n more c
      else finishInteger isNeg n c
    else .error (c.skip.faultHere .invalidNumber)

def readNumber (c : Cursor) : Except Fault (Json × Cursor) :=
  match c.rest with
  | 0x2D :: _ => (readUnsigned true c.skip).map fun (n, c) => (.num n, c)
  | _ => (readUnsigned false c).map fun (n, c) => (.num n, c)

/-! ## texts -/

def hexValue (b : UInt8) : Option Nat :=
  if 0x30 ≤ b && b ≤ 0x39 then some (b.toNat - 48)
  else if 0x61 ≤ b && b ≤ 0x66 then some (b.toNat - 87)
  else if 0x41 ≤ b && b ≤ 0x46 then some (b.toNat - 55)
  else none

/-- The four hexadecimal digits of an escape. -/
def readHex (c : Cursor) : Except Fault (Nat × Cursor) :=
  match c.rest with
  | a :: b :: d :: e :: _ =>
    match hexValue a, hexValue b, hexValue d, hexValue e with
    | some a, some b, some d, some e =>
      .ok (((a * 16 + b) * 16 + d) * 16 + e, c.skipMany 4)
    | _, _, _, _ => .error ((c.skipMany 4).faultHere .invalidEscape)
  | _ => .error ((c.skipMany 4).faultHere .endInText)

def isLeading (n : Nat) : Bool := 0xD800 ≤ n && n ≤ 0xDBFF
def isTrailing (n : Nat) : Bool := 0xDC00 ≤ n && n ≤ 0xDFFF

/-- An escape by code, from its digits on; a character beyond the basic plane takes two. -/
def readUnicode (c : Cursor) : Except Fault (Bytes × Cursor) := do
  let (n, c) ← readHex c
  if isTrailing n then .error (c.faultHere .loneSurrogate)
  else if isLeading n then
    match c.rest with
    | [] => .error (c.faultHere .endInText)
    | b :: _ =>
      if b ≠ 0x5C then .error (c.skip.faultHere .unfinishedEscape)
      else
        let c := c.skip
        match c.rest with
        | [] => .error (c.faultHere .endInText)
        | b :: _ =>
          if b ≠ 0x75 then .error (c.skip.faultHere .unfinishedEscape)
          else
            let (m, c) ← readHex c.skip
            if isTrailing m then
              let code := (n - 0xD800) * 0x400 + (m - 0xDC00) + 0x10000
              .ok (Utf8.encode [Char.ofNat code], c)
            else .error (c.faultHere .loneSurrogate)
  else .ok (Utf8.encode [Char.ofNat n], c)

/-- An escape, from the byte after its backslash on. -/
def readEscape (c : Cursor) : Except Fault (Bytes × Cursor) :=
  match c.rest with
  | [] => .error (c.faultHere .endInText)
  | b :: _ =>
    let c := c.skip
    if b = 0x22 then .ok ([0x22], c)
    else if b = 0x5C then .ok ([0x5C], c)
    else if b = 0x2F then .ok ([0x2F], c)
    else if b = 0x62 then .ok ([0x08], c)
    else if b = 0x66 then .ok ([0x0C], c)
    else if b = 0x6E then .ok ([0x0A], c)
    else if b = 0x72 then .ok ([0x0D], c)
    else if b = 0x74 then .ok ([0x09], c)
    else if b = 0x75 then readUnicode c
    else .error (c.faultHere .invalidEscape)

/-- The bytes of a text up to its closing quote, which is not passed.  `fuel` bounds the number of
bytes and escapes. -/
def readTextBytes : Nat → Cursor → Except Fault (Bytes × Cursor)
  | 0, c => .error (c.faultHere .endInText)
  | fuel + 1, c =>
    match c.rest with
    | [] => .error (c.faultHere .endInText)
    | b :: _ =>
      if b = 0x22 then .ok ([], c)
      else if b = 0x5C then do
        let (bs, c) ← readEscape c.skip
        let (more, c) ← readTextBytes fuel c
        return (bs ++ more, c)
      else if b < 0x20 then .error (c.skip.faultHere .controlCharacter)
      else do
        let (more, c) ← readTextBytes fuel c.skip
        return (b :: more, c)

/-- How many bytes are well formed before the first that is not. -/
def wellFormedLength (bs : Bytes) : Nat :=
  match Utf8.decode bs with
  | .ok _ => bs.length
  | .error e => e.index

/-- A text, from the byte after its opening quote on.  Escapes are ASCII, so the first ill-formed
byte of the text is the first one that stands between the quotes. -/
def readText (c : Cursor) : Except Fault (String × Cursor) := do
  let (bs, after) ← readTextBytes (c.rest.length + 1) c
  match Utf8.text? bs with
  | some s => return (s, after.skip)
  | none =>
    let between := c.rest.take (after.index - c.index)
    .error ((c.skipMany (wellFormedLength between + 1)).faultHere .invalidCodePoint)

/-! ## arrays and objects -/

/-- The items of an array after its first one, or after its bracket. -/
def readItems (readValue : Cursor → Except Fault (Json × Cursor)) : Nat → Bool → Cursor → Except Fault (List Json × Cursor)
  | 0, _, c => .error (c.faultNext .endInList)
  | fuel + 1, isFirst, c =>
    let c := c.skipSpace
    match c.rest with
    | [] => .error (c.faultNext .endInList)
    | b :: _ =>
      if b = 0x5D then .ok ([], c.skip)
      else if isFirst then do
        let (x, c) ← readValue c
        let (xs, c) ← readItems readValue fuel false c
        return (x :: xs, c)
      else if b = 0x2C then
        let c := c.skip.skipSpace
        match c.rest with
        | [] => .error (c.faultNext .endInValue)
        | b :: _ =>
          if b = 0x5D then .error (c.faultNext .trailingComma)
          else do
            let (x, c) ← readValue c
            let (xs, c) ← readItems readValue fuel false c
            return (x :: xs, c)
      else .error (c.faultNext .expectedCommaOrBracket)

/-- A member, from its opening quote on. -/
def readMember (readValue : Cursor → Except Fault (Json × Cursor)) (c : Cursor) : Except Fault ((String × Json) × Cursor) := do
  let (key, c) ← readText c.skip
  let c := c.skipSpace
  match c.rest with
  | [] => .error (c.faultNext .endInObject)
  | b :: _ =>
    if b = 0x3A then
      let (value, c) ← readValue c.skip
      return ((key, value), c)
    else .error (c.faultNext .expectedColon)

/-- The members of an object after its first one, or after its brace. -/
def readMembers (readValue : Cursor → Except Fault (Json × Cursor)) : Nat → Bool → Cursor → Except Fault (List (String × Json) × Cursor)
  | 0, _, c => .error (c.faultNext .endInObject)
  | fuel + 1, isFirst, c =>
    let c := c.skipSpace
    match c.rest with
    | [] => .error (c.faultNext .endInObject)
    | b :: _ =>
      if b = 0x7D then .ok ([], c.skip)
      else if isFirst then
        if b = 0x22 then do
          let (m, c) ← readMember readValue c
          let (ms, c) ← readMembers readValue fuel false c
          return (m :: ms, c)
        else .error (c.faultNext .keyNotText)
      else if b = 0x2C then
        let c := c.skip.skipSpace
        match c.rest with
        | [] => .error (c.faultNext .endInValue)
        | b :: _ =>
          if b = 0x22 then do
            let (m, c) ← readMember readValue c
            let (ms, c) ← readMembers readValue fuel false c
            return (m :: ms, c)
          else if b = 0x7D then .error (c.faultNext .trailingComma)
          else .error (c.faultNext .keyNotText)
      else .error (c.faultNext .expectedCommaOrBrace)

/-! ## values -/

/-- One level more than a value may have around its innermost scalar. -/
def maxDepth : Nat := 128

/-- A value with fewer than `levels` levels. -/
def readValue : Nat → Cursor → Except Fault (Json × Cursor)
  | 0, c => .error (c.faultNext .tooDeep)
  | levels + 1, c =>
    let c := c.skipSpace
    match c.rest with
    | [] => .error (c.faultNext .endInValue)
    | b :: _ =>
      if b = 0x6E then readWord .null [0x75, 0x6C, 0x6C] c.skip
      else if b = 0x74 then readWord (.bool true) [0x72, 0x75, 0x65] c.skip
      else if b = 0x66 then readWord (.bool false) [0x61, 0x6C, 0x73, 0x65] c.skip
      else if b = 0x2D || isDigit b then readNumber c
      else if b = 0x22 then (readText c.skip).map fun (s, c) => (.str s, c)
      else if b = 0x5B then
        if levels = 0 then .error (c.faultNext .tooDeep)
        else (readItems (readValue levels) (c.rest.length + 1) true c.skip).map
          fun (xs, c) => (.arr xs, c)
      else if b = 0x7B then
        if levels = 0 then .error (c.faultNext .tooDeep)
        else (readMembers (readValue levels) (c.rest.length + 1) true c.skip).map
          fun (ms, c) => (ofMembers ms, c)
      else .error (c.faultNext .expectedValue)

/-- A value and the white space after it, up to the end. -/
def readAll (c : Cursor) : Except Fault Json := do
  let (v, c) ← readValue maxDepth c
  let c := c.skipSpace
  match c.rest with
  | [] => .ok v
  | _ :: _ => .error (c.faultNext .trailingCharacters)

/-- The value written in a byte string. -/
def parse (input : Bytes) : Except SyntaxError Json :=
  (readAll ⟨input, 0⟩).mapError (·.place input)

end CodeBridge.Json
