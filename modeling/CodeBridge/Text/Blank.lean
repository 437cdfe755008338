/-!
# White space

`isBlank` is the Unicode property White_Space; `trim` drops it from both ends of a text.
-/

namespace CodeBridge

def isBlank (c : Char) : Bool :=
  let n := c.toNat
  (9 ≤ n && n ≤ 13) || n == 0x20 || n == 0x85 || n == 0xA0 || n == 0x1680 ||
    (0x2000 ≤ n && n ≤ 0x200A) || n == 0x2028 || n == 0x2029 || n == 0x202F || n == 0x205F ||
    n == 0x3000

/-- The text without the white space at its two ends. -/
def trim (cs : List Char) : List Char :=
  ((cs.dropWhile isBlank).reverse.dropWhile isBlank).reverse

def trimText (s : String) : String := String.ofList (trim s.toList)

/-- no character but white space -/
def allBlank (cs : List Char) : Bool := cs.all isBlank

end CodeBridge
