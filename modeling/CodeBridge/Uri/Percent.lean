import CodeBridge.Text.Utf8

/-!
# Percent escapes

`encode` writes a byte string in printable ASCII: a byte that has a meaning in a path of a URI, or
does not show, becomes `%` and two hexadecimal digits.  `decode` undoes every complete escape and
keeps any other `%` as it is.
-/

namespace CodeBridge.Percent

def percent : UInt8 := 0x25

/-- A byte that a path segment cannot hold as itself. -/
def reserved (b : UInt8) : Bool :=
  b < 0x20 || 0x7F ≤ b || b = 0x20 || b = 0x22 || b = 0x23 || b = 0x25 || b = 0x2F || b = 0x3C ||
    b = 0x3E || b = 0x3F || b = 0x5C || b = 0x60 || b = 0x7B || b = 0x7D

def digit (n : UInt8) : UInt8 := if n < 10 then 0x30 + n else 0x37 + n

def encodeByte (b : UInt8) : Bytes :=
  if reserved b then [percent, digit (b / 16), digit (b % 16)] else [b]

def encode (bs : Bytes) : Bytes := bs.flatMap encodeByte

def digitValue? (b : UInt8) : Option UInt8 :=
  if 0x30 ≤ b && b ≤ 0x39 then some (b - 0x30)
  else if 0x41 ≤ b && b ≤ 0x46 then some (b - 0x37)
  else if 0x61 ≤ b && b ≤ 0x66 then some (b - 0x57)
  else none

/-- The byte that an escape with these two digits stands for. -/
def escape? (high low : UInt8) : Option UInt8 := do
  let h ← digitValue? high
  let l ← digitValue? low
  return h * 16 + l

def decode : Bytes → Bytes
  | [] => []
  | [a] => [a]
  | [a, b] => [a, b]
  | a :: b :: c :: rest =>
    if a = percent then
      match escape? b c with
      | some x => x :: decode rest
      | none => a :: decode (b :: c :: rest)
    else a :: decode (b :: c :: rest)

theorem encode_nil : encode [] = [] := rfl
theorem encode_cons (b : UInt8) (bs : Bytes) : encode (b :: bs) = encodeByte b ++ encode bs := rfl

end CodeBridge.Percent
