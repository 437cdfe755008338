import CodeBridge.Protocol.Symbol

/-!
# Outlines

An outline is a forest of symbols with their places counted from one.  `render` draws it as a tree,
a line for each symbol: a block for every ancestor, which goes on below the ancestor unless it is
the last of its siblings, then the symbol's own branch, then what it is.
-/

namespace CodeBridge

structure SymbolNode where
  name : String
  detail : Option String
  /-- short name of the kind -/
  kind : String
  line : UInt32
  column : UInt32
  endLine : UInt32
  children : List SymbolNode
  deriving Repr

namespace SymbolNode

mutual

/-- A node of the protocol in counting from one; an empty detail is none. -/
def ofSymbol : DocumentSymbol → SymbolNode
  | ⟨name, detail, kind, range, _, children⟩ =>
    { name
      detail := detail.filter (· ≠ "")
      kind := kind.label
      line := (toUser range.start).line
      column := (toUser range.start).column
      endLine := (toUser range.stop).line
      children := ofSymbols children }

def ofSymbols : List DocumentSymbol → List SymbolNode
  | [] => []
  | s :: ss => ofSymbol s :: ofSymbols ss

end

mutual

def toJson : SymbolNode → Json
  | ⟨name, detail, kind, line, column, endLine, children⟩ =>
    .obj (Json.Members.optional "children"
        (if children.isEmpty then none else some (.arr (toJsonList children))) ++
      [("column", .ofUInt32 column)] ++
      Json.Members.optional "detail" (detail.map .str) ++
      [("end_line", .ofUInt32 endLine), ("kind", .str kind), ("line", .ofUInt32 line),
       ("name", .str name)])

def toJsonList : List SymbolNode → List Json
  | [] => []
  | n :: ns => toJson n :: toJsonList ns

end

/-! ## drawing -/

/-- the branch that a symbol hangs on -/
def branch (last : Bool) : String := if last then "└── " else "├── "

/-- the block below a symbol, in front of its descendants -/
def block (last : Bool) : String := if last then "    " else "│   "

/-- What a symbol is, behind its branch. -/
def label (kind name : String) (detail : Option String) (line : UInt32) : String :=
  s!"[{kind}] {name}" ++ (detail.elim "" fun d => s!" ({d})") ++ s!" [line {line}]\n"

mutual

def renderNode (indent : String) (last : Bool) : SymbolNode → String
  | ⟨name, detail, kind, line, _, _, children⟩ =>
    indent ++ branch last ++ label kind name detail line ++
      renderLevel (indent ++ block last) children

/-- Siblings, each on its branch. -/
def renderLevel (indent : String) : List SymbolNode → String
  | [] => ""
  | n :: ns => renderNode indent ns.isEmpty n ++ renderLevel indent ns

end

/-- The tree of an outline. -/
def render (nodes : List SymbolNode) : String := renderLevel "" nodes

end SymbolNode

end CodeBridge
