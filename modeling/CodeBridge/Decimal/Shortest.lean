import CodeBridge.Decimal.Binary64

/-!
# The shortest decimal text of a double

`shortest` gives the fewest decimal digits that read back as the same double, and of those the
ones nearest to it: for one digit, two digits and so on, the two neighbours of the value on that
decimal grid are tried against the interval of reals that round to the double.

`FloatText` says how such digits are laid out; `jsonText` is the layout of numbers in JSON
documents and in the messages about them.
-/

namespace CodeBridge

namespace Binary64

/-- `digits * 10^power`, the digits without a zero at their end -/
structure Digits where
  digits : Nat
  power : Int
  deriving DecidableEq, Repr

def dropZeros (d : Nat) (p : Int) : Nat → Digits
  | 0 => ⟨d, p⟩
  | fuel + 1 => if d ≠ 0 && d % 10 = 0 then dropZeros (d / 10) (p + 1) fuel else ⟨d, p⟩

/-- Does `k * 10^p` round to `m * 2^q`?  Compared with the half-way points on both sides, which
belong to the interval when `m` is even. -/
def readsBack (x : Binary64) (k : Nat) (p : Int) : Bool :=
  let m := x.significand
  let q := x.exponent
  -- the interval in quarter units: below a power of two the lower gap is half as wide
  let low := if x.fraction = 0 && 1 < x.field then 4 * m - 1 else 4 * m - 2
  let high := 4 * m + 2
  -- compare k * 10^p with bound * 2^(q-2)
  let num := k * (if 0 ≤ p then 10 ^ p.toNat else 1) * (if q - 2 < 0 then 2 ^ (2 - q).toNat else 1)
  let unit := (if p < 0 then 10 ^ (-p).toNat else 1) * (if 0 ≤ q - 2 then 2 ^ (q - 2).toNat else 1)
  if m % 2 = 0 then low * unit ≤ num && num ≤ high * unit
  else low * unit < num && num < high * unit

/-- the power of ten just above the value, from the number of its decimal places -/
def magnitude (x : Binary64) : Int :=
  let (n, d) := x.ratio
  if d ≤ n then ((toString (n / d)).length : Int)
  else 1 - ((toString (d / n)).length : Int)

/-- The best candidate with `count` digits. -/
def candidate (x : Binary64) (count : Nat) : Option Digits :=
  let (n, d) := x.ratio
  let p : Int := x.magnitude - count
  let (n, d) := if 0 ≤ p then (n, d * 10 ^ p.toNat) else (n * 10 ^ (-p).toNat, d)
  let below := n / d
  let above := below + 1
  let remainder := n % d
  match x.readsBack below p, x.readsBack above p with
  | true, false => some (dropZeros below p 20)
  | false, true => some (dropZeros above p 20)
  | true, true =>
    if 2 * remainder < d || (2 * remainder = d && below % 2 = 0) then some (dropZeros below p 20)
    else some (dropZeros above p 20)
  | false, false => none

def search (x : Binary64) (count : Nat) : Nat → Digits
  | 0 => ⟨0, 0⟩
  | fuel + 1 =>
    match candidate x count with
    | some d => d
    | none => search x (count + 1) fuel

/-- The fewest digits that read back. -/
def shortest (x : Binary64) : Digits :=
  if x.significand = 0 then ⟨0, 0⟩ else search x 1 18

end Binary64

/-! ## layout -/

/-- How the digits of a double are laid out. -/
structure FloatText where
  /-- decimal exponents from `lowest` to `highest` are written with a point -/
  lowest : Int
  highest : Int
  /-- write `+` before an exponent that is not negative -/
  plusSign : Bool
  deriving Repr

namespace FloatText

def zeros (n : Nat) : String := String.ofList (List.replicate n '0')

def unsigned (style : FloatText) (d : Binary64.Digits) : String :=
  let s := toString d.digits
  let e : Int := d.power + s.length - 1
  if d.digits = 0 then "0.0"
  else if style.lowest ≤ e && e ≤ style.highest then
    if 0 ≤ d.power then s ++ zeros d.power.toNat ++ ".0"
    else if 0 ≤ e then
      String.ofList (s.toList.take (e.toNat + 1)) ++ "." ++ String.ofList (s.toList.drop (e.toNat + 1))
    else "0." ++ zeros ((-e).toNat - 1) ++ s
  else
    let head := String.ofList (s.toList.take 1)
    let tail := String.ofList (s.toList.drop 1)
    let mantissa := if tail.isEmpty then head else head ++ "." ++ tail
    let sign := if e < 0 then "-" else if style.plusSign then "+" else ""
    mantissa ++ "e" ++ sign ++ toString e.natAbs

def render (style : FloatText) (x : Binary64) : String :=
  if x.isNaN then "NaN"
  else
    let body := if x.isInfinite then "inf" else style.unsigned x.shortest
    if x.negative then "-" ++ body else body

/-- Numbers in JSON documents: a point for exponents from -5 to 15. -/
def json : FloatText := ⟨-5, 15, true⟩

/-- Numbers in configuration messages: always a point, never an exponent. -/
def positional : FloatText := ⟨-400, 400, false⟩

end FloatText

end CodeBridge
