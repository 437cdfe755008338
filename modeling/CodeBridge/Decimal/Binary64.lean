/-!
# Binary floating point in exact arithmetic

A `Binary64` is the bit pattern of an IEEE double.  A finite one stands for `± m * 2^q`
(`significand`, `exponent`), and everything else is arithmetic on `m` and `q`:

* `ofRatio`      the double nearest to a fraction, ties to the even significand, `none` beyond the
                 largest finite double;
* `ofDecimal`    the double that a decimal literal with up to 64 significant bits is read as:
                 the digits and the power of ten are rounded first, then their product or quotient.
-/

namespace CodeBridge

-- powers of numbers are those of the core library, whatever is imported
attribute [instance (high), default_instance high] instPowNat

structure Binary64 where
  bits : UInt64
  deriving DecidableEq, Repr

namespace Binary64

/-! ## the parts of a double -/

def negative (x : Binary64) : Bool := 2 ^ 63 ≤ x.bits.toNat
def field (x : Binary64) : Nat := x.bits.toNat / 2 ^ 52 % 2 ^ 11
def fraction (x : Binary64) : Nat := x.bits.toNat % 2 ^ 52

def isNaN (x : Binary64) : Bool := x.field == 2047 && x.fraction != 0
def isInfinite (x : Binary64) : Bool := x.field == 2047 && x.fraction == 0

/-- the `m` of `± m * 2^q` -/
def significand (x : Binary64) : Nat :=
  if x.field = 0 then x.fraction else 2 ^ 52 + x.fraction

/-- the `q` of `± m * 2^q` -/
def exponent (x : Binary64) : Int :=
  if x.field = 0 then -1074 else (x.field : Int) - 1075

/-- `m * 2^q` with a sign; `m` has at most 53 bits. -/
def ofParts (neg : Bool) (m : Nat) (q : Int) : Binary64 :=
  let sign := if neg then 2 ^ 63 else 0
  if m < 2 ^ 52 then ⟨UInt64.ofNat (sign + m)⟩
  else ⟨UInt64.ofNat (sign + (q + 1075).toNat * 2 ^ 52 + (m - 2 ^ 52))⟩

def zero (neg : Bool) : Binary64 := ofParts neg 0 (-1074)
def infinity (neg : Bool) : Binary64 := ofParts neg (2 ^ 52) 972
def nan (neg : Bool) : Binary64 := ofParts neg (2 ^ 52 + 2 ^ 51) 972

def neg (x : Binary64) : Binary64 := ⟨x.bits ^^^ 0x8000000000000000⟩

/-! ## rounding -/

/-- The quotient nearest to `num / den`, a tie to the even one. -/
def roundDiv (num den : Nat) : Nat :=
  let quotient := num / den
  let twice := 2 * (num % den)
  if twice < den then quotient
  else if den < twice then quotient + 1
  else quotient + quotient % 2

/-- `num / den` counted in units of `2^q` -/
def scaled (num den : Nat) (q : Int) : Nat × Nat :=
  if 0 ≤ q then (num, den * 2 ^ q.toNat) else (num * 2 ^ (-q).toNat, den)

/-- The unit in the last place that a double near `num / den` has. -/
def unitExponent (num den : Nat) : Int :=
  let guess : Int := (num.log2 : Int) - den.log2 - 52
  let (n, d) := scaled num den guess
  let exact := if n / d < 2 ^ 52 then guess - 1 else guess
  max exact (-1074)

/-- The double nearest to `± num / den`. -/
def ofRatio (isNeg : Bool) (num den : Nat) : Option Binary64 :=
  if num = 0 then some (zero isNeg)
  else
    let q := unitExponent num den
    let (n, d) := scaled num den q
    let m := roundDiv n d
    let (m, q) := if m = 2 ^ 53 then (2 ^ 52, q + 1) else (m, q)
    if 971 < q then none else some (ofParts isNeg m q)

/-- the absolute value as a fraction -/
def ratio (x : Binary64) : Nat × Nat :=
  if 0 ≤ x.exponent then (x.significand * 2 ^ x.exponent.toNat, 1)
  else (x.significand, 2 ^ (-x.exponent).toNat)

def ofNat (n : Nat) : Binary64 := (ofRatio false n 1).getD (infinity false)

/-- product of the absolute values -/
def mul? (x y : Binary64) : Option Binary64 :=
  ofRatio false (x.ratio.1 * y.ratio.1) (x.ratio.2 * y.ratio.2)

/-- quotient of the absolute values -/
def div? (x y : Binary64) : Option Binary64 :=
  ofRatio false (x.ratio.1 * y.ratio.2) (x.ratio.2 * y.ratio.1)

/-- The largest power of ten below the largest double. -/
def maxPower : Nat := 308

/-- Scale down by `10^k` in steps of at most `maxPower`. -/
def scaleDown (x : Binary64) (k : Nat) : Nat → Binary64
  | 0 => x
  | fuel + 1 =>
    if k ≤ maxPower then (x.div? (ofNat (10 ^ k))).getD x
    else if x.significand = 0 then x
    else scaleDown ((x.div? (ofNat (10 ^ maxPower))).getD x) (k - maxPower) fuel

/-- The double that `± digits * 10^e` is read as, `none` when it is too large. -/
def ofDecimal (isNeg : Bool) (digits : Nat) (e : Int) : Option Binary64 :=
  let signed (x : Binary64) : Binary64 := if isNeg then x.neg else x
  let x := ofNat digits
  if 0 ≤ e then
    if e.toNat ≤ maxPower then (x.mul? (ofNat (10 ^ e.toNat))).map signed
    else if digits = 0 then some (signed x)
    else none
  else some (signed (scaleDown x (-e).toNat ((-e).toNat / maxPower + 1)))

end Binary64

end CodeBridge
