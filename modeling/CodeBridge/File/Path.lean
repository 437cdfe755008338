import CodeBridge.Text.Pieces
import CodeBridge.Text.Utf8

/-!
# Paths

A path is a byte string; what it means are its components: the root, names, and the two steps `.`
and `..`.  Empty parts and a `.` that does not stand at the start are no components, so paths may
differ as bytes and agree as paths.

* `components`   the meaning of a path;
* `route`        the steps that it takes: `/proc/self/root` is a link to the root;
* `names`        the path without any step, seen from a working directory: `..` drops the name
                 before it and stays at the root when there is none;
* `ofNames`      the plain way of writing an absolute path; `names_ofNames` reads it back.
-/

namespace CodeBridge

/-- part of a path between two separators -/
abbrev Name := Bytes

structure Path where
  bytes : Bytes
  deriving DecidableEq, Repr, Inhabited

namespace Path

def separator : UInt8 := 0x2F
def dot : UInt8 := 0x2E

def ofString (s : String) : Path := ⟨Utf8.ofString s⟩

/-- the path as text, ill-formed bytes as U+FFFD -/
def display (p : Path) : String := Utf8.decodeLossy p.bytes

/-- the path as text, if it is UTF-8 -/
def text? (p : Path) : Option String := Utf8.text? p.bytes

/-! ## components -/

inductive Component where
  | root
  | current
  | parent
  | name (bytes : Name)
  deriving DecidableEq, Repr

/-- The parts between separators, empty ones included. -/
def parts (bs : Bytes) : List Bytes := piecesAt separator bs

def isAbsolute (p : Path) : Bool := p.bytes.head? = some separator

/-- The component that a part stands for; none for an empty part or a `.`. -/
def component? (part : Bytes) : Option Component :=
  if part = [] ∨ part = [dot] then none
  else if part = [dot, dot] then some .parent
  else some (.name part)

def components (p : Path) : List Component :=
  let steps := (parts p.bytes).filterMap component?
  if p.isAbsolute then .root :: steps
  else if (parts p.bytes).head? = some [dot] then .current :: steps
  else steps

/-- The part that a component is written as. -/
def Component.part : Component → Bytes
  | .root => []
  | .current => [dot]
  | .parent => [dot, dot]
  | .name n => n

/-- The plain way of writing components. -/
def ofComponents : List Component → Path
  | [.root] => ⟨[separator]⟩
  | cs => ⟨joinWith separator (cs.map Component.part)⟩

/-- The path without its last component; a path of one component lies in the directory `.`. -/
def parent (p : Path) : Path :=
  match p.components.dropLast with
  | [] => ⟨[dot]⟩
  | cs => ofComponents cs

/-- the same path, whatever its bytes -/
def Same (a b : Path) : Prop := a.components = b.components

instance (a b : Path) : Decidable (a.Same b) := inferInstanceAs (Decidable (_ = _))

/-! ## links -/

/-- The names that lead a process back to its root. -/
def linksToRoot (a b c : Name) : Bool :=
  a = Utf8.ofString "proc" && (b = Utf8.ofString "self" || b = Utf8.ofString "thread-self") &&
    c = Utf8.ofString "root"

/-- Steps from the root, once the links that they begin with have been followed. -/
def followLinks : List Component → List Component
  | .name a :: .name b :: .name c :: cs =>
    if linksToRoot a b c then followLinks cs else .name a :: .name b :: .name c :: cs
  | cs => cs

/-- The steps that a path takes: its components, from the root past the links. -/
def route (p : Path) : List Component :=
  match p.components with
  | .root :: cs => .root :: followLinks cs
  | cs => cs

/-! ## joining -/

/-- `q` seen from `p`; an absolute `q` is its own answer. -/
def join (p q : Path) : Path :=
  if q.isAbsolute then q
  else if p.bytes = [] ∨ p.bytes.getLast? = some separator then ⟨p.bytes ++ q.bytes⟩
  else ⟨p.bytes ++ separator :: q.bytes⟩

/-! ## normal form -/

/-- Take one step from the directory named by a list of names, the innermost first. -/
def step (above : List Name) : Component → List Name
  | .root | .current => above
  | .parent => above.tail
  | .name n => n :: above

/-- The names that are left when every step has been taken. -/
def resolve (cs : List Component) : List Name := (cs.foldl step []).reverse

def ofNames : List Name → Path
  | [] => ⟨[separator]⟩
  | n :: ns => ⟨(n :: ns).flatMap (separator :: ·)⟩

/-- The path without steps; a relative path is seen from `cwd`. -/
def names (cwd p : Path) : List Name := resolve (cwd.join p).components

/-! ## last component -/

/-- A name before and after its last `.`, if that stands anywhere but at the start. -/
def splitExtension (n : Name) : Name × Option Bytes :=
  let extension := (n.reverse.takeWhile (· ≠ dot)).reverse
  let rest := n.take (n.length - extension.length)
  if rest.length ≤ 1 then (n, none) else (rest.dropLast, some extension)

/-- The bytes before the extension. -/
def stem (n : Name) : Name := (splitExtension n).1

/-- The last component, if it is a name. -/
def lastName? (p : Path) : Option Name :=
  match p.components.getLast? with
  | some (.name n) => some n
  | _ => none

/-- Parts, the last one first, without those that are no components. -/
def dropEmptyParts : List Bytes → List Bytes
  | [] => []
  | p :: ps => if p = [] ∨ p = [dot] then dropEmptyParts ps else p :: ps

/-- The bytes up to the end of the last component. -/
def trimEnd (bs : Bytes) : Bytes :=
  [separator].intercalate (dropEmptyParts (parts bs).reverse).reverse

/-- The path with what follows the stem of its last name replaced. -/
def setExtension (p : Path) (extension : Bytes) : Path :=
  match p.lastName? with
  | none => p
  | some n =>
    let whole := trimEnd p.bytes
    ⟨whole.take (whole.length - n.length) ++ stem n ++ dot :: extension⟩

/-- The path with the extension of its last name replaced.  The old one is taken off first, and a
path that then ends in a step has no extension to set. -/
def withExtension (p : Path) (extension : Bytes) : Path :=
  let old := (p.lastName?.bind fun n => (splitExtension n).2).getD []
  setExtension ⟨p.bytes.take (p.bytes.length - old.length)⟩ extension

end Path

/-- byte by byte, a shorter name first -/
def nameBefore : Name → Name → Bool
  | [], [] => false
  | [], _ :: _ => true
  | _ :: _, [] => false
  | x :: xs, y :: ys => if x = y then nameBefore xs ys else x < y

/-- name by name, a directory before what it holds -/
def namesBefore : List Name → List Name → Bool
  | [], [] => false
  | [], _ :: _ => true
  | _ :: _, [] => false
  | x :: xs, y :: ys => if x = y then namesBefore xs ys else nameBefore x y

end CodeBridge
