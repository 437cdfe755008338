import CodeBridge.Json.Basic
import CodeBridge.Decimal.Shortest
import CodeBridge.Text.Utf8

/-!
# Compact JSON text

`render` writes a value without any white space: members in the order they are held, a text
between quotes with only the quote, the backslash and the control characters escaped.
-/

namespace CodeBridge.Json

/-! ## texts -/

def hexDigit (n : Nat) : Char :=
  Char.ofNat (if n < 10 then 48 + n else 87 + n)

/-- The written form of one character of a text. -/
def escape (c : Char) : List Char :=
  if c = '"' then ['\\', '"']
  else if c = '\\' then ['\\', '\\']
  else if c = '\n' then ['\\', 'n']
  else if c = '\r' then ['\\', 'r']
  else if c = '\t' then ['\\', 't']
  else if c = '\x08' then ['\\', 'b']
  else if c = '\x0c' then ['\\', 'f']
  else if c.toNat < 0x20 then ['\\', 'u', '0', '0', hexDigit (c.toNat / 16), hexDigit (c.toNat % 16)]
  else [c]

def quoted (cs : List Char) : List Char := '"' :: (cs.flatMap escape ++ ['"'])

/-! ## numbers -/

/-- The decimal digits of `n`, most significant first. -/
def digits (n : Nat) : List Char := Nat.toDigits 10 n

def renderInt (i : Int) : List Char :=
  if i < 0 then '-' :: digits i.natAbs else digits i.natAbs

def Number.render : Number → List Char
  | .int i _ => renderInt i
  | .float x => (FloatText.json.render x).toList

/-! ## values -/

mutual

def render : Json → List Char
  | .null => ['n', 'u', 'l', 'l']
  | .bool true => ['t', 'r', 'u', 'e']
  | .bool false => ['f', 'a', 'l', 's', 'e']
  | .num n => n.render
  | .str s => quoted s.toList
  | .arr items => '[' :: (renderItems items ++ [']'])
  | .obj members => '{' :: (renderMembers members ++ ['}'])

def renderItems : List Json → List Char
  | [] => []
  | x :: xs => render x ++ renderMoreItems xs

/-- items that follow another one -/
def renderMoreItems : List Json → List Char
  | [] => []
  | x :: xs => ',' :: (render x ++ renderMoreItems xs)

def renderMember : String × Json → List Char
  | (k, v) => quoted k.toList ++ ':' :: render v

def renderMembers : List (String × Json) → List Char
  | [] => []
  | m :: ms => renderMember m ++ renderMoreMembers ms

/-- members that follow another one -/
def renderMoreMembers : List (String × Json) → List Char
  | [] => []
  | m :: ms => ',' :: (renderMember m ++ renderMoreMembers ms)

end

/-- The compact text of a value. -/
def text (v : Json) : String := String.ofList (render v)

/-- The compact text in UTF-8. -/
def bytes (v : Json) : Bytes := Utf8.encode (render v)

end CodeBridge.Json
