import CodeBridge.Json.Decode

/-!
# Positions, ranges and locations

A `Position` counts lines and UTF-16 columns from zero, as the protocol does; positions are ordered
as they come in a document.  A `UserPosition` counts both from one, as people do.  `toProtocol`
and `toUser` are the only crossings: the first refuses a zero, the second stays at the largest
number it can show.
-/

namespace CodeBridge

/-! ## positions -/

structure Position where
  line : UInt32
  character : UInt32
  deriving DecidableEq, Repr, Inhabited

namespace Position

/-- earlier in the document -/
def Before (a b : Position) : Prop :=
  a.line < b.line ∨ (a.line = b.line ∧ a.character < b.character)

instance : LT Position := ⟨Before⟩
instance (a b : Position) : Decidable (a < b) :=
  inferInstanceAs (Decidable (a.line < b.line ∨ (a.line = b.line ∧ a.character < b.character)))

def origin : Position := ⟨0, 0⟩

def toJson (p : Position) : Json :=
  .obj [("character", .ofUInt32 p.character), ("line", .ofUInt32 p.line)]

def ofMembers (ms : Json.Members) : Decoded Position := do
  let character ← ms.field? "character" Json.readUInt32
  let line ← ms.field? "line" Json.readUInt32
  let line ← Json.required "line" line
  let character ← Json.required "character" character
  return ⟨line, character⟩

def ofRow (r : Json.Row) : Decoded (Position × Json.Row) := do
  let expected := "struct Position with 2 elements"
  let (line, r) ← r.next expected Json.readUInt32
  let (character, r) ← r.next expected Json.readUInt32
  return (⟨line, character⟩, r)

def ofJson : Json → Decoded Position := Json.readRecord "Position" ofMembers ofRow

/-- a position as a message shows it -/
def describe (p : Position) : String :=
  s!"Position \x7b line: {p.line}, character: {p.character} \x7d"

end Position

/-! ## ranges -/

structure Range where
  start : Position
  stop : Position
  deriving DecidableEq, Repr, Inhabited

namespace Range

/-- the empty range at the start of a document -/
def origin : Range := ⟨.origin, .origin⟩

def inverted (r : Range) : Bool := r.stop < r.start

def toJson (r : Range) : Json := .obj [("end", r.stop.toJson), ("start", r.start.toJson)]

def ofMembers (ms : Json.Members) : Decoded Range := do
  let stop ← ms.field? "end" Position.ofJson
  let start ← ms.field? "start" Position.ofJson
  let start ← Json.required "start" start
  let stop ← Json.required "end" stop
  return ⟨start, stop⟩

def ofRow (r : Json.Row) : Decoded (Range × Json.Row) := do
  let expected := "struct Range with 2 elements"
  let (start, r) ← r.next expected Position.ofJson
  let (stop, r) ← r.next expected Position.ofJson
  return (⟨start, stop⟩, r)

def ofJson : Json → Decoded Range := Json.readRecord "Range" ofMembers ofRow

/-- a range as a message shows it -/
def describe (r : Range) : String :=
  s!"Range \x7b start: {r.start.describe}, end: {r.stop.describe} \x7d"

end Range

/-! ## locations -/

/-- A range of one document. -/
structure Location where
  uri : String
  range : Range
  deriving DecidableEq, Repr, Inhabited

namespace Location

def toJson (l : Location) : Json := .obj [("range", l.range.toJson), ("uri", .str l.uri)]

def ofMembers (ms : Json.Members) : Decoded Location := do
  let range ← ms.field? "range" Range.ofJson
  let uri ← ms.field? "uri" Json.readString
  let uri ← Json.required "uri" uri
  let range ← Json.required "range" range
  return ⟨uri, range⟩

def ofRow (r : Json.Row) : Decoded (Location × Json.Row) := do
  let expected := "struct Location with 2 elements"
  let (uri, r) ← r.next expected Json.readString
  let (range, r) ← r.next expected Range.ofJson
  return (⟨uri, range⟩, r)

def ofJson : Json → Decoded Location := Json.readRecord "Location" ofMembers ofRow

end Location

/-! ## positions as people count them -/

structure UserPosition where
  line : UInt32
  column : UInt32
  deriving DecidableEq, Repr

/-- The protocol position of a line and a column counted from one; none when either is zero. -/
def toProtocol? (line column : UInt32) : Option Position :=
  if line = 0 ∨ column = 0 then none else some ⟨line - 1, column - 1⟩

/-- one more, or the largest word -/
def succSaturating (n : UInt32) : UInt32 := if n = 0xFFFFFFFF then n else n + 1

def toUser (p : Position) : UserPosition := ⟨succSaturating p.line, succSaturating p.character⟩

end CodeBridge
