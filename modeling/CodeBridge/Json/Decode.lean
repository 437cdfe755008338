import CodeBridge.Json.Basic
import CodeBridge.Decimal.Shortest
import CodeBridge.Text.Quoted

/-!
# Typed readings of a JSON value

A reading of type `α` is a function `Json → Decoded α`.  A record is read from an object or from
an array of its fields in the order of declaration:

* from an object, the present fields are read in the order of their keys, so the first unreadable
  one in that order is reported, and only then is a field missed, in the order of declaration;
  unknown keys are passed over;
* from an array, fields are read in order, and nothing may be left over.

A union without a tag is read by trying its shapes in turn.
-/

namespace CodeBridge

/-! ## what can go wrong -/

/-- A value as a message names it. -/
inductive Found where
  | null
  | bool (value : Bool)
  | int (value : Int)
  | float (value : Binary64)
  | text (value : String)
  | sequence
  | map
  deriving DecidableEq, Repr

inductive DecodeError where
  | wrongType (found : Found) (expected : String)
  | outOfRange (value : Int) (expected : String)
  | missing (field : String)
  /-- an array ends before a record does -/
  | tooShort (length : Nat) (expected : String)
  /-- an array goes on after a record -/
  | tooLong (length : Nat)
  /-- the same where the record is one case of a tagged union -/
  | surplus (length count : Nat)
  | unknownCase (name : String) (known : List String)
  /-- no shape of the union fits -/
  | noShape (union : String)
  deriving DecidableEq, Repr

abbrev Decoded := Except DecodeError

def Found.describe (floats : FloatText) : Found → String
  | .null => "null"
  | .bool b => s!"boolean `{b}`"
  | .int i => s!"integer `{i}`"
  | .float x => s!"floating point `{floats.render x}`"
  | .text s => "string " ++ Quoted.quote s
  | .sequence => "sequence"
  | .map => "map"

/-- `a`, `b` or one of many -/
def alternatives : List String → String
  | [] => "there are no variants"
  | [a] => s!"expected `{a}`"
  | [a, b] => s!"expected `{a}` or `{b}`"
  | names => "expected one of " ++ ", ".intercalate (names.map fun n => s!"`{n}`")

def elements (count : Nat) : String :=
  if count = 1 then "1 element" else s!"{count} elements"

def DecodeError.messageWith (floats : FloatText) : DecodeError → String
  | .wrongType found expected => s!"invalid type: {found.describe floats}, expected {expected}"
  | .outOfRange value expected => s!"invalid value: integer `{value}`, expected {expected}"
  | .missing field => s!"missing field `{field}`"
  | .tooShort length expected => s!"invalid length {length}, expected {expected}"
  | .tooLong length => s!"invalid length {length}, expected fewer elements in array"
  | .surplus length count => s!"invalid length {length}, expected {elements count} in sequence"
  | .unknownCase name known => s!"unknown variant `{name}`, {alternatives known}"
  | .noShape union => s!"data did not match any variant of untagged enum {union}"

def DecodeError.message (e : DecodeError) : String := e.messageWith .json

namespace Json

def found : Json → Found
  | .null => .null
  | .bool b => .bool b
  | .num (.int i _) => .int i
  | .num (.float x) => .float x
  | .str s => .text s
  | .arr _ => .sequence
  | .obj _ => .map

def mismatch {α : Type} (v : Json) (expected : String) : Decoded α :=
  .error (.wrongType v.found expected)

/-! ## scalars -/

/-- An integer from `low` to `high`, named `expected` in messages. -/
def readInt (low high : Int) (expected : String) : Json → Decoded Int
  | .num (.int i _) => if low ≤ i && i ≤ high then .ok i else .error (.outOfRange i expected)
  | v => v.mismatch expected

def readUInt32 (v : Json) : Decoded UInt32 :=
  (readInt 0 (2 ^ 32 - 1) "u32" v).map fun i => UInt32.ofNat i.toNat

def readUInt64 (v : Json) : Decoded UInt64 :=
  (readInt 0 (2 ^ 64 - 1) "u64" v).map fun i => UInt64.ofNat i.toNat

def readInt32 (v : Json) : Decoded Int32 :=
  (readInt (-(2 ^ 31)) (2 ^ 31 - 1) "i32" v).map Int32.ofInt

def readInt64 (v : Json) : Decoded Int64 :=
  (readInt (-(2 ^ 63)) (2 ^ 63 - 1) "i64" v).map Int64.ofInt

def readBool : Json → Decoded Bool
  | .bool b => .ok b
  | v => v.mismatch "a boolean"

def readTextAs (expected : String) : Json → Decoded String
  | .str s => .ok s
  | v => v.mismatch expected

def readString : Json → Decoded String := readTextAs "a string"

def readAny (v : Json) : Decoded Json := .ok v

/-! ## compounds -/

def readList {α : Type} (read : Json → Decoded α) : Json → Decoded (List α)
  | .arr items => items.mapM read
  | v => v.mismatch "a sequence"

/-- A map from texts, its entries in the order of their keys. -/
def readMap {α : Type} (read : Json → Decoded α) : Json → Decoded (List (String × α))
  | .obj members => members.mapM fun (k, v) => (read v).map fun a => (k, a)
  | v => v.mismatch "a map"

/-- `null` for none -/
def readOption {α : Type} (read : Json → Decoded α) : Json → Decoded (Option α)
  | .null => .ok none
  | v => (read v).map some

/-- The first shape that fits. -/
def readUnion {α : Type} (union : String) (shapes : List (Json → Decoded α)) (v : Json) : Decoded α :=
  match shapes.findSome? (fun shape => (shape v).toOption) with
  | some a => .ok a
  | none => .error (.noShape union)

/-! ## records -/

namespace Members

/-- A field, if its key is present. -/
def field? {α : Type} (ms : Members) (key : String) (read : Json → Decoded α) :
    Decoded (Option α) :=
  match get? key ms with
  | none => .ok none
  | some v => (read v).map some

/-- A field that may be absent or `null`. -/
def nullable? {α : Type} (ms : Members) (key : String) (read : Json → Decoded α) :
    Decoded (Option α) :=
  (ms.field? key (readOption read)).map Option.join

end Members

/-- A field that has to be there. -/
def required {α : Type} (key : String) : Option α → Decoded α
  | some a => .ok a
  | none => .error (.missing key)

/-- The fields of a record given as an array: how many were read, and the rest. -/
structure Row where
  taken : Nat
  rest : List Json

namespace Row

/-- The next field. -/
def next {α : Type} (expected : String) (read : Json → Decoded α) (r : Row) : Decoded (α × Row) :=
  match r.rest with
  | [] => .error (.tooShort r.taken expected)
  | v :: rest => (read v).map fun a => (a, ⟨r.taken + 1, rest⟩)

/-- The next field, or what stands for it when the array ends. -/
def nextOr {α : Type} (absent : α) (read : Json → Decoded α) (r : Row) : Decoded (α × Row) :=
  match r.rest with
  | [] => .ok (absent, { r with taken := r.taken + 1 })
  | v :: rest => (read v).map fun a => (a, ⟨r.taken + 1, rest⟩)

def finish {α : Type} (a : α) (r : Row) : Decoded α :=
  if r.rest.isEmpty then .ok a else .error (.tooLong (r.taken + r.rest.length))

end Row

/-- A record named `name`, from an object or from an array. -/
def readRecord {α : Type} (name : String) (ofMembers : Members → Decoded α)
    (ofRow : Row → Decoded (α × Row)) : Json → Decoded α
  | .obj ms => ofMembers ms
  | .arr items => do
    let (a, r) ← ofRow ⟨0, items⟩
    r.finish a
  | v => v.mismatch s!"struct {name}"

/-- A record that only an object can give. -/
def readObject {α : Type} (name : String) (ofMembers : Members → Decoded α) : Json → Decoded α
  | .obj ms => ofMembers ms
  | v => v.mismatch s!"struct {name}"

/-- A member that is left out when there is nothing to write. -/
def Members.optional (key : String) : Option Json → Members
  | none => []
  | some v => [(key, v)]

/-- `null` for none -/
def ofOption : Option Json → Json
  | none => .null
  | some v => v

end Json

end CodeBridge
