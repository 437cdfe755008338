import CodeBridge.Protocol.Position

/-!
# Symbols

`DocumentSymbol` is a node of a document's outline, `SymbolInformation` a symbol with the place
where it is defined.  `SymbolKind` keeps a number outside the protocol's table as it is.
-/

namespace CodeBridge

/-! ## kinds -/

inductive SymbolKind where
  | file | module | namespace | package | classKind | method | property | field | constructor
  | enum | interface | function | variable | constant | string | number | boolean | array
  | object | key | null | enumMember | struct | event | operator | typeParameter
  | unknown (code : UInt32)
  deriving DecidableEq, Repr

namespace SymbolKind

def ofCode (n : UInt32) : SymbolKind :=
  match n.toNat with
  | 1 => .file | 2 => .module | 3 => .namespace | 4 => .package | 5 => .classKind
  | 6 => .method | 7 => .property | 8 => .field | 9 => .constructor | 10 => .enum
  | 11 => .interface | 12 => .function | 13 => .variable | 14 => .constant | 15 => .string
  | 16 => .number | 17 => .boolean | 18 => .array | 19 => .object | 20 => .key
  | 21 => .null | 22 => .enumMember | 23 => .struct | 24 => .event | 25 => .operator
  | 26 => .typeParameter
  | _ => .unknown n

def code : SymbolKind → UInt32
  | .file => 1 | .module => 2 | .namespace => 3 | .package => 4 | .classKind => 5
  | .method => 6 | .property => 7 | .field => 8 | .constructor => 9 | .enum => 10
  | .interface => 11 | .function => 12 | .variable => 13 | .constant => 14 | .string => 15
  | .number => 16 | .boolean => 17 | .array => 18 | .object => 19 | .key => 20
  | .null => 21 | .enumMember => 22 | .struct => 23 | .event => 24 | .operator => 25
  | .typeParameter => 26
  | .unknown n => n

/-- the short name shown in an outline -/
def label : SymbolKind → String
  | .file => "file" | .module => "module" | .namespace => "namespace" | .package => "package"
  | .classKind => "class" | .method => "method" | .property => "property" | .field => "field"
  | .constructor => "constructor" | .enum => "enum" | .interface => "interface"
  | .function => "func" | .variable => "var" | .constant => "const" | .string => "string"
  | .number => "number" | .boolean => "bool" | .array => "array" | .object => "object"
  | .key => "key" | .null => "null" | .enumMember => "enum-member" | .struct => "struct"
  | .event => "event" | .operator => "operator" | .typeParameter => "type-param"
  | .unknown _ => "unknown"

def isUnknown : SymbolKind → Bool
  | .unknown _ => true
  | _ => false

def toJson (k : SymbolKind) : Json := .ofUInt32 k.code

def ofJson (v : Json) : Decoded SymbolKind := (Json.readUInt32 v).map ofCode

end SymbolKind

/-! ## outline nodes -/

structure DocumentSymbol where
  name : String
  detail : Option String
  kind : SymbolKind
  range : Range
  selectionRange : Range
  children : List DocumentSymbol
  deriving Repr

namespace DocumentSymbol

mutual

def toJson : DocumentSymbol → Json
  | ⟨name, detail, kind, range, selectionRange, children⟩ =>
    .obj (("children", .arr (toJsonList children)) ::
      Json.Members.optional "detail" (detail.map .str) ++
      [("kind", kind.toJson), ("name", .str name), ("range", range.toJson),
       ("selectionRange", selectionRange.toJson)])

def toJsonList : List DocumentSymbol → List Json
  | [] => []
  | s :: ss => toJson s :: toJsonList ss

end

/-- A node from its members, the reading of its children being given. -/
def ofMembers (children : Option (Decoded (List DocumentSymbol))) (ms : Json.Members) :
    Decoded DocumentSymbol := do
  let children ← children.getD (.ok [])
  let detail ← ms.nullable? "detail" Json.readString
  let kind ← ms.field? "kind" SymbolKind.ofJson
  let name ← ms.field? "name" Json.readString
  let range ← ms.field? "range" Range.ofJson
  let selectionRange ← ms.field? "selectionRange" Range.ofJson
  let name ← Json.required "name" name
  let kind ← Json.required "kind" kind
  let range ← Json.required "range" range
  let selectionRange ← Json.required "selectionRange" selectionRange
  return ⟨name, detail, kind, range, selectionRange, children⟩

/-- A node from an array of its fields, the reading of its children being given. -/
def ofItems (children : Option (Decoded (List DocumentSymbol))) (items : List Json) :
    Decoded DocumentSymbol := do
  let expected := "struct DocumentSymbol with 6 elements"
  let r : Json.Row := ⟨0, items⟩
  let (name, r) ← r.next expected Json.readString
  let (detail, r) ← r.nextOr none (Json.readOption Json.readString)
  let (kind, r) ← r.next expected SymbolKind.ofJson
  let (range, r) ← r.next expected Range.ofJson
  let (selectionRange, r) ← r.next expected Range.ofJson
  let children ← children.getD (.ok [])
  let r : Json.Row := ⟨r.taken + 1, r.rest.tail⟩
  r.finish ⟨name, detail, kind, range, selectionRange, children⟩

mutual

def ofJson : Json → Decoded DocumentSymbol
  | .obj ms => ofMembers (membersChildren ms) ms
  | .arr items => ofItems (itemsChildren items) items
  | v => v.mismatch "struct DocumentSymbol"

def readChildren : Json → Decoded (List DocumentSymbol)
  | .arr items => ofJsonList items
  | v => v.mismatch "a sequence"

def ofJsonList : List Json → Decoded (List DocumentSymbol)
  | [] => .ok []
  | x :: xs => do
    let s ← ofJson x
    let ss ← ofJsonList xs
    return s :: ss

def memberChildren : String × Json → Option (Decoded (List DocumentSymbol))
  | (k, v) => if k = "children" then some (readChildren v) else none

def membersChildren : List (String × Json) → Option (Decoded (List DocumentSymbol))
  | [] => none
  | m :: ms => (memberChildren m).orElse fun _ => membersChildren ms

def itemsChildren : List Json → Option (Decoded (List DocumentSymbol))
  | _ :: _ :: _ :: _ :: _ :: v :: _ => some (readChildren v)
  | _ => none

end

end DocumentSymbol

/-! ## symbols by place -/

structure SymbolInformation where
  name : String
  kind : SymbolKind
  location : Location
  containerName : Option String
  deriving DecidableEq, Repr

namespace SymbolInformation

def toJson (s : SymbolInformation) : Json :=
  .obj (Json.Members.optional "containerName" (s.containerName.map .str) ++
    [("kind", s.kind.toJson), ("location", s.location.toJson), ("name", .str s.name)])

def ofMembers (ms : Json.Members) : Decoded SymbolInformation := do
  let containerName ← ms.nullable? "containerName" Json.readString
  let kind ← ms.field? "kind" SymbolKind.ofJson
  let location ← ms.field? "location" Location.ofJson
  let name ← ms.field? "name" Json.readString
  let name ← Json.required "name" name
  let kind ← Json.required "kind" kind
  let location ← Json.required "location" location
  return ⟨name, kind, location, containerName⟩

def ofRow (r : Json.Row) : Decoded (SymbolInformation × Json.Row) := do
  let expected := "struct SymbolInformation with 4 elements"
  let (name, r) ← r.next expected Json.readString
  let (kind, r) ← r.next expected SymbolKind.ofJson
  let (location, r) ← r.next expected Location.ofJson
  let (containerName, r) ← r.nextOr none (Json.readOption Json.readString)
  return (⟨name, kind, location, containerName⟩, r)

def ofJson : Json → Decoded SymbolInformation := Json.readRecord "SymbolInformation" ofMembers ofRow

end SymbolInformation

end CodeBridge
