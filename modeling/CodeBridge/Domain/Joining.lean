import CodeBridge.Domain.Marks

/-!
# Joined letters

Whether letters join their neighbours, as in Unicode 17 and for characters of folded names only.
Two characters that do not show say whether letters join, and a name may hold them only where they
change how it looks: after a mark that takes a vowel away, or, for the one that parts letters,
between two letters that would join.
-/

namespace CodeBridge.Domain

def parter : Char := '\u200c'
def joiner : Char := '\u200d'

/-- Letters that join the letter after them. -/
def joinsNext : Array Nat := #[
  1568, 1569, 1574, 1575, 1576, 1577, 1578, 1583, 1587, 1600, 1601, 1608, 1609, 1611, 1646, 1648,
  1657, 1672, 1690, 1728, 1729, 1731, 1740, 1741, 1742, 1743, 1744, 1746, 1786, 1789, 1791, 1792,
  1810, 1813, 1818, 1822, 1823, 1832, 1833, 1834, 1835, 1836, 1837, 1839, 1870, 1881, 1884, 1899,
  1901, 1905, 1906, 1907, 1909, 1912, 1914, 1920, 1994, 2027, 2113, 2118, 2120, 2121, 2122, 2132,
  2133, 2134, 2144, 2145, 2146, 2150, 2152, 2153, 2182, 2183, 2185, 2190, 2191, 2192, 2208, 2218,
  2223, 2225, 2227, 2233, 2234, 2249, 6151, 6152, 6176, 6265, 6279, 6313, 6314, 6315, 43072, 43123,
  68288, 68293, 68301, 68302, 68307, 68317, 68318, 68321, 68331, 68335, 68480, 68481, 68482, 68483,
  68486, 68489, 68490, 68492, 68493, 68494, 68496, 68497, 68525, 68527, 68864, 68898, 68899, 68900,
  69315, 69317, 69318, 69320, 69424, 69427, 69428, 69445, 69457, 69460, 69488, 69492, 69494, 69506,
  69552, 69553, 69554, 69556, 69560, 69561, 69563, 69565, 69566, 69568, 69569, 69570, 69572, 69573,
  69578, 69580, 125218, 125252]

/-- Letters that join the letter before them. -/
def joinsPrevious : Array Nat := #[
  1568, 1569, 1570, 1600, 1601, 1611, 1646, 1648, 1649, 1652, 1657, 1748, 1749, 1750, 1774, 1776,
  1786, 1789, 1791, 1792, 1808, 1809, 1810, 1840, 1869, 1920, 1994, 2027, 2112, 2137, 2144, 2145,
  2146, 2150, 2151, 2155, 2160, 2179, 2182, 2183, 2185, 2192, 2208, 2221, 2222, 2249, 6151, 6152,
  6176, 6265, 6279, 6313, 6314, 6315, 43072, 43122, 68288, 68294, 68295, 68296, 68297, 68299,
  68302, 68311, 68312, 68322, 68324, 68325, 68331, 68336, 68480, 68498, 68521, 68527, 68865, 68900,
  69314, 69317, 69318, 69320, 69424, 69445, 69457, 69461, 69488, 69506, 69552, 69553, 69554, 69559,
  69560, 69568, 69569, 69573, 69577, 69579, 125218, 125252]

/-- A mark over which letters join. -/
def isJoinedOver (c : Char) : Bool := isNonspacing c || c = '𞥋'

/-- Does the first character that letters do not join over belong to a table? -/
def meets (table : Array Nat) (cs : List Char) : Bool :=
  match cs.dropWhile isJoinedOver with
  | [] => false
  | c :: _ => withinBounds table c

/-- Whether both characters stand where they may; `before` is what stands before, the last character
first. -/
def joinersFit (before : List Char) : List Char → Bool
  | [] => true
  | c :: cs =>
    let fits :=
      if c = joiner || c = parter then
        (match before with
          | [] => false
          | p :: _ => isVirama p) ||
        (c = parter && !before.isEmpty && meets joinsNext before && meets joinsPrevious cs)
      else true
    fits && joinersFit (c :: before) cs

end CodeBridge.Domain
