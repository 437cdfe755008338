import CodeBridge.Json.Decode
import CodeBridge.Text.Utf8

/-!
# Values of a settings file

A settings file describes a map.  Every value of it keeps the place in the text where it begins, so
that a reading can tell which value does not fit:

* `Place`    a place in a text: how many characters follow;
* `Mark`     the same as a line and a column;
* `Value`    scalars, lists and maps, the entries of a map in the order of their keys;
* `Reading`  the value of a type that a value of the file stands for;
* `Field`    how one entry of a map, or one item of a list, sets a part of a record.
-/

namespace CodeBridge.Document

/-! ## places -/

/-- A place in a text, as the number of characters from there to the end. -/
abbrev Place := Nat

/-- A line and a column of a text, both counted from 1. -/
structure Mark where
  line : Nat
  column : Nat
  deriving DecidableEq, Repr

/-- The part of a text that belongs to its last line. -/
def lastLine (cs : List Char) : List Char := (cs.reverse.takeWhile (· ≠ '\n')).reverse

/-- The line and the column of a place; before a character outside ASCII, columns are counted in
bytes, and the end of a text lies one column after its last character. -/
def markOf (text : List Char) (place : Place) : Mark :=
  let before := text.take (text.length - place)
  let line (cs : List Char) := cs.count '\n' + 1
  match text.drop (text.length - place) with
  | c :: _ =>
    let width := if c.toNat < 0x80 then (lastLine before).length
      else (Utf8.encode (lastLine before)).length
    ⟨line before, width + 1⟩
  | [] => ⟨line before.dropLast, (lastLine before.dropLast).length + before.length.min 1 + 1⟩

/-! ## values -/

inductive Scalar where
  | bool (value : Bool)
  | int (value : Int)
  | float (value : Binary64)
  | text (value : String)
  | date
  /-- a number too large for any type -/
  | huge
  deriving DecidableEq, Repr

inductive Value where
  | scalar (place : Place) (value : Scalar)
  | list (place : Place) (items : List Value)
  | map (place : Place) (entries : List (String × Value))

namespace Value

def place : Value → Place
  | scalar p _ | list p _ | map p _ => p

mutual

/-- All scalars of a value with their places, in order. -/
def scalars : Value → List (Place × Scalar)
  | scalar p s => [(p, s)]
  | list _ items => scalarsOfItems items
  | map _ entries => scalarsOfEntries entries

def scalarsOfItems : List Value → List (Place × Scalar)
  | [] => []
  | v :: vs => scalars v ++ scalarsOfItems vs

def scalarsOfEntries : List (String × Value) → List (Place × Scalar)
  | [] => []
  | e :: es => scalarsOfEntry e ++ scalarsOfEntries es

def scalarsOfEntry : String × Value → List (Place × Scalar)
  | (_, v) => scalars v

end

/-- The first number that is too large for any type. -/
def huge? (v : Value) : Option Place :=
  (v.scalars.find? fun s => s.2 = .huge).map (·.1)

/-- A number that no 64 bits hold. -/
def Wide : Scalar → Bool
  | .int i => !(-(2 ^ 63) ≤ i && i < 2 ^ 63)
  | .huge => true
  | _ => false

def hasWide (v : Value) : Bool := v.scalars.any fun s => Wide s.2

/-- What a message calls a value. -/
def found : Value → Found
  | scalar _ (.bool b) => .bool b
  | scalar _ (.int i) => .int i
  | scalar _ (.float x) => .float x
  | scalar _ (.text s) => .text s
  | scalar _ .date | scalar _ .huge | map _ _ => .map
  | list _ _ => .sequence

end Value

/-! ## readings -/

/-- A value that does not have the type that is read. -/
structure Misfit where
  place : Place
  error : DecodeError
  deriving DecidableEq, Repr

abbrev Reading (α : Type) := Value → Except Misfit α

def Value.misfit {α : Type} (v : Value) (expected : String) : Except Misfit α :=
  .error ⟨v.place, .wrongType v.found expected⟩

namespace Reading

def bool : Reading Bool
  | .scalar _ (.bool b) => .ok b
  | v => v.misfit "a boolean"

/-- A text, called `expected` in messages. -/
def textAs (expected : String) : Reading String
  | .scalar _ (.text s) => .ok s
  | v => v.misfit expected

def text : Reading String := textAs "a string"

/-- An integer from 0 below `bound`, called `expected` in messages. -/
def natural (bound : Nat) (expected : String) : Reading Nat
  | .scalar p (.int i) =>
    if 0 ≤ i && i < bound then .ok i.toNat else .error ⟨p, .outOfRange i expected⟩
  | v => v.misfit expected

def uint32 : Reading UInt32 := fun v => (natural (2 ^ 32) "u32" v).map UInt32.ofNat

def uint64 : Reading UInt64 := fun v => (natural (2 ^ 64) "u64" v).map UInt64.ofNat

def list {α : Type} (item : Reading α) : Reading (List α)
  | .list _ items => items.mapM item
  | v => v.misfit "a sequence"

end Reading

/-- A part of a record: its key, and the record with the part as a value says. -/
structure Field (σ : Type) where
  key : String
  set : σ → Reading σ

def field {σ α : Type} (key : String) (read : Reading α) (put : σ → α → σ) : Field σ :=
  ⟨key, fun s v => (read v).map (put s)⟩

/-- A record that a map gives by its keys and a list in order.  What neither says is as in `absent`,
and what no field takes is passed over; the date of a file is a map without a known key. -/
def Reading.record {σ : Type} (name : String) (fields : List (Field σ)) (absent : σ) : Reading σ
  | .map _ entries =>
    entries.foldlM (fun s (key, v) =>
      match fields.find? fun f => f.key = key with
      | some f => f.set s v
      | none => .ok s) absent
  | .list _ items => (items.zip fields).foldlM (fun s (v, f) => f.set s v) absent
  | .scalar _ .date => .ok absent
  | v => v.misfit s!"struct {name}"

end CodeBridge.Document
