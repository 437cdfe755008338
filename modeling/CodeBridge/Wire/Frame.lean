import CodeBridge.Json.Parser
import CodeBridge.Json.Printer
import CodeBridge.Text.Blank
import CodeBridge.Text.Quoted

/-!
# Frames

A frame is a block of header lines, a blank line, and a body whose length in bytes the header
gives.  `next` reads the frame at the front of a stream of which perhaps not everything has come:

* `readHeader`   lines up to the blank one, keeping the last length given;
* `next`         the outcome of one frame and what follows it, or that more has to come;
* `readAll`      the outcomes of a whole stream, up to its end or the first fault after which the
                 start of the next frame is unknown;
* `write`        one value as a frame.

A body that is not JSON has still been read in full, so the next frame is where it should be.
-/

namespace CodeBridge.Frame

/-! ## what can go wrong -/

inductive Fault where
  /-- a header line is not UTF-8 -/
  | text (fault : Utf8.Error)
  | cutHeader
  | cutBody
  | noLength
  | badLength (value : String)
  | tooLarge (length : Nat)
  | badBody (fault : Json.SyntaxError)
  deriving DecidableEq, Repr

namespace Fault

def message : Fault → String
  | text fault => s!"I/O error on LSP stream: {fault.message}"
  | cutHeader => "stream ended inside a frame header"
  | cutBody => "I/O error on LSP stream: early eof"
  | noLength => "frame header has no Content-Length"
  | badLength value => s!"invalid Content-Length value: {Quoted.quote value}"
  | tooLarge length => s!"Content-Length {length} exceeds the maximum frame size"
  | badBody fault => s!"frame body is not valid JSON: {fault.message}"

/-- whether the stream stands at the start of a frame -/
def recoverable : Fault → Bool
  | badBody _ => true
  | _ => false

end Fault

/-- most bytes of a body -/
def maxBody : Nat := 32 * 1024 * 1024

/-! ## header lines -/

def lengthName : List Char := "content-length".toList

/-- A natural number below 2⁶⁴, perhaps after a plus sign. -/
def parseLength? (cs : List Char) : Option Nat :=
  let digits := if cs.head? = some '+' then cs.tail else cs
  if digits.isEmpty || !digits.all Char.isDigit then none
  else
    let n := digits.foldl (fun n c => n * 10 + (c.toNat - 48)) 0
    if n < 2 ^ 64 then some n else none

/-- The value of a line that names the length. -/
def lengthValue? (line : List Char) : Option (List Char) :=
  if line.contains ':' && (trim (line.takeWhile (· ≠ ':'))).map Char.toLower = lengthName then
    some (trim (line.dropWhile (· ≠ ':')).tail)
  else none

inductive LineVerdict where
  | more (length : Option Nat)
  | done (length : Nat)
  | fault (fault : Fault)

/-- What a header line means, `length` being the length given before it. -/
def judgeLine (line : Bytes) (length : Option Nat) : LineVerdict :=
  match Utf8.decode line with
  | .error fault => .fault (.text fault)
  | .ok cs =>
    let text := trim cs
    if text.isEmpty then
      match length with
      | some n => .done n
      | none => .fault .noLength
    else
      match lengthValue? text with
      | none => .more length
      | some value =>
        match parseLength? value with
        | some n => .more (some n)
        | none => .fault (.badLength (String.ofList value))

inductive Header where
  | waiting
  | finished
  | fault (fault : Fault)
  | done (length : Nat) (rest : Bytes)

def newline : UInt8 := 0x0A

/-- Lines up to the blank one.  `line` holds the bytes of the current line, the last one first;
`ended` says that no more will come. -/
def readHeader (ended : Bool) (line : Bytes) (length : Option Nat) (started : Bool) :
    Bytes → Header
  | b :: bs =>
    if b = newline then
      match judgeLine (b :: line).reverse length with
      | .more length => readHeader ended [] length true bs
      | .done n => .done n bs
      | .fault fault => .fault fault
    else readHeader ended (b :: line) length true bs
  | [] =>
    if !ended then .waiting
    else if line.isEmpty then if started then .fault .cutHeader else .finished
    else
      match judgeLine line.reverse length with
      | .more _ => .fault .cutHeader
      | .done n => .done n []
      | .fault fault => .fault fault

/-! ## frames -/

inductive Outcome where
  | frame (value : Json)
  | fault (fault : Fault)
  /-- the stream ends between two frames -/
  | finished
  deriving Repr

/-- A body as JSON. -/
def ofBody (body : Bytes) : Outcome :=
  match Json.parse body with
  | .ok v => .frame v
  | .error fault => .fault (.badBody fault)

/-- The outcome of the frame at the front and what follows it; none when more has to come. -/
def next (ended : Bool) (input : Bytes) : Option (Outcome × Bytes) :=
  match readHeader ended [] none false input with
  | .waiting => none
  | .finished => some (.finished, [])
  | .fault fault => some (.fault fault, [])
  | .done n rest =>
    if n > maxBody then some (.fault (.tooLarge n), rest)
    else if n ≤ rest.length then some (ofBody (rest.take n), rest.drop n)
    else if ended then some (.fault .cutBody, [])
    else none

def Outcome.continues : Outcome → Bool
  | .frame _ => true
  | .fault f => f.recoverable
  | .finished => false

/-- Outcomes of at most `fuel` frames. -/
def readUpTo : Nat → Bytes → List Outcome
  | 0, _ => []
  | fuel + 1, input =>
    match next true input with
    | none => []
    | some (outcome, rest) =>
      if outcome.continues then outcome :: readUpTo fuel rest else [outcome]

/-- The outcomes of a whole stream; every frame takes a byte. -/
def readAll (input : Bytes) : List Outcome := readUpTo (input.length + 1) input

/-- One value as a frame. -/
def write (v : Json) : Bytes :=
  Utf8.ofString s!"Content-Length: {v.bytes.length}\r\n\r\n" ++ v.bytes

end CodeBridge.Frame
