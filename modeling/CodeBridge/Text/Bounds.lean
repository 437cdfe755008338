/-!
# Classes of characters given by bounds

A class of characters is an ascending list of the code points where membership changes: a character
belongs when an odd number of bounds lies at or below it.
-/

namespace CodeBridge

/-- Is `n` at or above an odd number of the ascending boundaries?  Halves the range `fuel` times. -/
def crossedOdd (bounds : Array Nat) (n low high : Nat) : Nat → Bool
  | 0 => low % 2 == 1
  | fuel + 1 =>
    if low < high then
      let mid := (low + high) / 2
      if bounds.getD mid 0 ≤ n then crossedOdd bounds n (mid + 1) high fuel
      else crossedOdd bounds n low mid fuel
    else low % 2 == 1

def withinBounds (bounds : Array Nat) (c : Char) : Bool :=
  crossedOdd bounds c.toNat 0 bounds.size 12

end CodeBridge
