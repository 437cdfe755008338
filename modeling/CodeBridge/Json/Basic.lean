import CodeBridge.Decimal.Binary64

/-!
# JSON values

A number is an integer that fits 64 bits, signed or unsigned, or else a double; the two kinds are
told apart by how the number was written and are never equal.  The members of an object are kept
in ascending order of their keys, one member a key: `insert` keeps that order, `ofMembers` builds
it, and `Canonical` says it of a value and of everything inside it.
-/

namespace CodeBridge

/-- integers from the least signed to the greatest unsigned word of 64 bits -/
def InWord (i : Int) : Prop := -(2 ^ 63) ≤ i ∧ i < 2 ^ 64

instance (i : Int) : Decidable (InWord i) := inferInstanceAs (Decidable (_ ∧ _))

namespace Json

inductive Number where
  | int (value : Int) (inWord : InWord value)
  | float (value : Binary64)
  deriving DecidableEq, Repr

end Json

/-- A JSON value. -/
inductive Json where
  | null
  | bool (value : Bool)
  | num (value : Json.Number)
  | str (value : String)
  | arr (items : List Json)
  | obj (members : List (String × Json))
  deriving Repr, Inhabited

namespace Json

/-- the members of an object -/
abbrev Members := List (String × Json)

/-! ## equality -/

mutual

def decEq : (a b : Json) → Decidable (a = b)
  | .null, .null => isTrue rfl
  | .bool a, .bool b =>
    if h : a = b then isTrue (h ▸ rfl) else isFalse fun e => h (Json.bool.inj e)
  | .num a, .num b =>
    if h : a = b then isTrue (h ▸ rfl) else isFalse fun e => h (Json.num.inj e)
  | .str a, .str b =>
    if h : a = b then isTrue (h ▸ rfl) else isFalse fun e => h (Json.str.inj e)
  | .arr a, .arr b =>
    match decEqItems a b with
    | isTrue h => isTrue (h ▸ rfl)
    | isFalse h => isFalse fun e => h (Json.arr.inj e)
  | .obj a, .obj b =>
    match decEqMembers a b with
    | isTrue h => isTrue (h ▸ rfl)
    | isFalse h => isFalse fun e => h (Json.obj.inj e)
  | .null, .bool _ | .null, .num _ | .null, .str _ | .null, .arr _ | .null, .obj _
  | .bool _, .null | .bool _, .num _ | .bool _, .str _ | .bool _, .arr _ | .bool _, .obj _
  | .num _, .null | .num _, .bool _ | .num _, .str _ | .num _, .arr _ | .num _, .obj _
  | .str _, .null | .str _, .bool _ | .str _, .num _ | .str _, .arr _ | .str _, .obj _
  | .arr _, .null | .arr _, .bool _ | .arr _, .num _ | .arr _, .str _ | .arr _, .obj _
  | .obj _, .null | .obj _, .bool _ | .obj _, .num _ | .obj _, .str _ | .obj _, .arr _ =>
    isFalse nofun

def decEqItems : (a b : List Json) → Decidable (a = b)
  | [], [] => isTrue rfl
  | [], _ :: _ | _ :: _, [] => isFalse nofun
  | x :: xs, y :: ys =>
    match decEq x y with
    | isFalse h => isFalse fun e => h (List.cons.inj e).1
    | isTrue h =>
      match decEqItems xs ys with
      | isFalse t => isFalse fun e => t (List.cons.inj e).2
      | isTrue t => isTrue (h ▸ t ▸ rfl)

def decEqMember : (a b : String × Json) → Decidable (a = b)
  | (k, x), (l, y) =>
    if h : k = l then
      match decEq x y with
      | isFalse t => isFalse fun e => t (Prod.mk.inj e).2
      | isTrue t => isTrue (h ▸ t ▸ rfl)
    else isFalse fun e => h (Prod.mk.inj e).1

def decEqMembers : (a b : List (String × Json)) → Decidable (a = b)
  | [], [] => isTrue rfl
  | [], _ :: _ | _ :: _, [] => isFalse nofun
  | x :: xs, y :: ys =>
    match decEqMember x y with
    | isFalse h => isFalse fun e => h (List.cons.inj e).1
    | isTrue h =>
      match decEqMembers xs ys with
      | isFalse t => isFalse fun e => t (List.cons.inj e).2
      | isTrue t => isTrue (h ▸ t ▸ rfl)

end

instance : DecidableEq Json := decEq

/-! ## members in order of their keys -/

namespace Members

/-- The value of a key. -/
def get? (key : String) : Members → Option Json
  | [] => none
  | (k, v) :: ms => if k = key then some v else get? key ms

/-- Set the value of a key, keeping ascending order. -/
def insert (key : String) (value : Json) : Members → Members
  | [] => [(key, value)]
  | (k, v) :: ms =>
    if key < k then (key, value) :: (k, v) :: ms
    else if key = k then (key, value) :: ms
    else (k, v) :: insert key value ms

/-- The members written in any order; of two values for one key the last counts. -/
def ofList (ms : List (String × Json)) : Members :=
  ms.foldl (fun acc m => insert m.1 m.2 acc) []

theorem get?_nil (key : String) : get? key [] = none := rfl

theorem get?_insert_self (key : String) (value : Json) (ms : Members) :
    get? key (insert key value ms) = some value := by
  induction ms with
  | nil => simp [insert, get?]
  | cons m ms ih =>
    obtain ⟨k, v⟩ := m
    simp only [insert]
    split
    · simp [get?]
    · split
      · simp [get?]
      · next h => simp [get?, Ne.symm h, ih]

end Members

/-- An object with members in any order. -/
def ofMembers (ms : List (String × Json)) : Json := .obj (Members.ofList ms)

mutual

/-- Keys strictly ascend in every object of the value. -/
def Canonical : Json → Prop
  | .null | .bool _ | .num _ | .str _ => True
  | .arr items => CanonicalItems items
  | .obj members => members.Pairwise (fun a b => a.1 < b.1) ∧ CanonicalMembers members

def CanonicalItems : List Json → Prop
  | [] => True
  | x :: xs => Canonical x ∧ CanonicalItems xs

def CanonicalMember : String × Json → Prop
  | (_, v) => Canonical v

def CanonicalMembers : List (String × Json) → Prop
  | [] => True
  | m :: ms => CanonicalMember m ∧ CanonicalMembers ms

end

mutual

/-- Levels of arrays and objects around the innermost scalar. -/
def depth : Json → Nat
  | .null | .bool _ | .num _ | .str _ => 0
  | .arr items => depthItems items + 1
  | .obj members => depthMembers members + 1

def depthItems : List Json → Nat
  | [] => 0
  | x :: xs => max (depth x) (depthItems xs)

def depthMember : String × Json → Nat
  | (_, v) => depth v

def depthMembers : List (String × Json) → Nat
  | [] => 0
  | m :: ms => max (depthMember m) (depthMembers ms)

end

/-! ## making and taking apart -/

def ofNat (n : Nat) (h : InWord n := by decide) : Json := .num (.int n h)

theorem inWord_uint32 (n : UInt32) : InWord n.toNat := by
  have := n.toNat_lt
  constructor <;> omega

theorem inWord_uint64 (n : UInt64) : InWord n.toNat := by
  have := n.toNat_lt
  constructor <;> omega

theorem inWord_int32 (n : Int32) : InWord n.toInt := by
  have h1 := n.toInt_lt
  have h2 := n.le_toInt
  constructor <;> omega

def ofUInt32 (n : UInt32) : Json := .num (.int n.toNat (inWord_uint32 n))
def ofUInt64 (n : UInt64) : Json := .num (.int n.toNat (inWord_uint64 n))
def ofInt32 (n : Int32) : Json := .num (.int n.toInt (inWord_int32 n))

/-- The member `key` of an object; nothing in any other value. -/
def get? (v : Json) (key : String) : Option Json :=
  match v with
  | .obj ms => Members.get? key ms
  | _ => none

def str? : Json → Option String
  | .str s => some s
  | _ => none

def arr? : Json → Option (List Json)
  | .arr xs => some xs
  | _ => none

/-- an integer that fits an unsigned word of 64 bits -/
def word? : Json → Option UInt64
  | .num (.int i _) => if 0 ≤ i then some (UInt64.ofNat i.toNat) else none
  | _ => none

def isNull : Json → Bool
  | .null => true
  | _ => false

end Json

end CodeBridge
