import CodeBridge.Domain.Marks

/-!
# Directions

In which direction a character is written, as in Unicode 17 and for characters of folded names only.
A name that mixes directions could be shown in an order that hides where its labels end, so once
one character is written to the left, every label has to keep to one direction (`keepsDirection`).
-/

namespace CodeBridge.Domain

inductive Direction where
  | toRight
  | toLeft
  /-- a digit of the numbers that letters of both directions go with -/
  | digit
  /-- a digit of the numbers that only letters written to the left go with -/
  | arabicDigit
  /-- a mark, which takes the direction of its letter -/
  | mark
  /-- signs without a direction of their own -/
  | neutral
  deriving DecidableEq, Repr

def leftward : Array Nat := #[
  1470, 1471, 1472, 1473, 1475, 1476, 1478, 1479, 1488, 1515, 1519, 1525, 1544, 1545, 1547, 1548,
  1549, 1550, 1563, 1564, 1565, 1611, 1645, 1648, 1649, 1653, 1657, 1750, 1765, 1767, 1774, 1776,
  1786, 1806, 1808, 1809, 1810, 1840, 1869, 1958, 1969, 1970, 1984, 2027, 2036, 2038, 2042, 2043,
  2046, 2070, 2074, 2075, 2084, 2085, 2088, 2089, 2096, 2111, 2112, 2137, 2142, 2143, 2144, 2155,
  2160, 2192, 2208, 2250, 64434, 64451, 65139, 65140, 67584, 67590, 67592, 67593, 67594, 67638,
  67639, 67641, 67644, 67645, 67647, 67670, 67671, 67743, 67751, 67760, 67808, 67827, 67828, 67830,
  67835, 67868, 67872, 67898, 67903, 67930, 67968, 68024, 68028, 68048, 68050, 68097, 68112, 68116,
  68117, 68120, 68121, 68150, 68160, 68169, 68176, 68185, 68192, 68256, 68288, 68325, 68331, 68343,
  68352, 68406, 68416, 68438, 68440, 68467, 68472, 68498, 68505, 68509, 68521, 68528, 68608, 68681,
  68800, 68851, 68858, 68900, 68938, 68944, 68975, 68998, 69006, 69008, 69248, 69290, 69293, 69294,
  69296, 69298, 69314, 69320, 69376, 69416, 69424, 69446, 69457, 69466, 69488, 69506, 69510, 69514,
  69552, 69580, 69600, 69623, 124928, 125125, 125127, 125136, 125218, 125252, 125259, 125260,
  125264, 125274, 125278, 125280, 126065, 126133, 126209, 126270]

def arabicDigits : Array Nat := #[
  1632, 1642, 1643, 1645, 68912, 68922, 68928, 68938, 69216, 69247]

/-- Digits outside ASCII. -/
def otherDigits : Array Nat := #[
  1776, 1786, 66273, 66300]

/-- Signs outside ASCII. -/
def otherSigns : Array Nat := #[
  161, 168, 169, 170, 171, 173, 174, 175, 176, 178, 182, 184, 187, 188, 191, 192, 215, 216, 247,
  248, 697, 699, 706, 720, 722, 728, 734, 736, 741, 750, 751, 768, 885, 886, 1014, 1015, 1418,
  1419, 1421, 1424, 1542, 1544, 1545, 1547, 1548, 1549, 1550, 1552, 1642, 1643, 1758, 1759, 1769,
  1770, 2038, 2042, 2546, 2548, 2555, 2556, 2801, 2802, 3059, 3067, 3192, 3199, 3647, 3648, 3898,
  3902, 5008, 5018, 5120, 5121, 5787, 5789, 6107, 6108, 6128, 6138, 6144, 6155, 6464, 6465, 6468,
  6470, 6622, 6656, 8204, 8206, 8208, 8209, 8210, 8215, 8216, 8228, 8231, 8232, 8240, 8243, 8245,
  8246, 8248, 8252, 8253, 8254, 8255, 8263, 8266, 8279, 8280, 8287, 8352, 8360, 8361, 8386, 8452,
  8453, 8456, 8457, 8468, 8469, 8471, 8473, 8478, 8480, 8483, 8484, 8485, 8486, 8487, 8488, 8489,
  8490, 8494, 8495, 8506, 8507, 8513, 8517, 8522, 8526, 8586, 8588, 8592, 8748, 8750, 8751, 8753,
  9001, 9003, 9014, 9083, 9109, 9110, 9258, 9280, 9291, 9451, 9900, 9901, 10240, 10496, 10764,
  10765, 10868, 10871, 10972, 10973, 11124, 11126, 11264, 11493, 11499, 11513, 11520, 11776, 11870,
  11904, 11930, 11931, 11935, 11936, 12019, 12289, 12290, 12291, 12293, 12296, 12321, 12336, 12337,
  12343, 12344, 12349, 12352, 12448, 12449, 12539, 12540, 12736, 12774, 19904, 19968, 42128, 42183,
  42509, 42512, 42611, 42612, 42622, 42624, 42752, 42786, 42888, 42889, 43048, 43052, 43064, 43066,
  43124, 43128, 43882, 43884, 64451, 64467, 64830, 64848, 64912, 64914, 64968, 64976, 65021, 65024,
  65093, 65095, 65533, 65534, 65793, 65794, 65856, 65933, 65936, 65949, 65952, 65953, 67871, 67872,
  68409, 68416, 68974, 68975, 69328, 69337, 69714, 69734, 71264, 71277, 73685, 73714, 94178, 94179,
  117760, 117974, 118010, 118013, 118016, 118452, 118458, 118481, 118496, 118513, 119273, 119275,
  119296, 119362, 119365, 119366, 119552, 119639, 123647, 123648, 126704, 126706, 126976, 127020,
  127024, 127124, 127136, 127151, 127153, 127168, 127169, 127184, 127185, 127222, 127243, 127248,
  127279, 127280, 127341, 127344, 127405, 127406, 127584, 127590, 127744, 128729, 128732, 128749,
  128752, 128765, 128768, 128986, 128992, 129004, 129008, 129009, 129024, 129036, 129040, 129096,
  129104, 129114, 129120, 129160, 129168, 129198, 129200, 129212, 129216, 129218, 129232, 129241,
  129280, 129624, 129632, 129646, 129648, 129661, 129664, 129675, 129678, 129735, 129736, 129737,
  129741, 129757, 129759, 129771, 129775, 129785, 129792, 129939, 129940, 130032, 130042, 130043]

/-- Marks that are written to the right, as letters are. -/
def rightwardMarks : List Char := ['\u0cbf', '\u0cc6', '𑨇', '𑨈', '𑰿']

def direction (c : Char) : Direction :=
  if c.toNat < 0x80 then
    if c.isAlpha then .toRight else if c.isDigit then .digit else .neutral
  else if isNonspacing c && !rightwardMarks.contains c then .mark
  else if withinBounds leftward c then .toLeft
  else if withinBounds arabicDigits c then .arabicDigit
  else if withinBounds otherDigits c then .digit
  else if withinBounds otherSigns c then .neutral
  else .toRight

/-- A name with such a character has to keep to directions. -/
def writtenLeft (c : Char) : Bool := [Direction.toLeft, .arabicDigit].contains (direction c)

/-- The directions of a label without the marks at its end. -/
def bareDirections (label : List Char) : List Direction :=
  ((label.map direction).reverse.dropWhile (· = .mark)).reverse

/-- A label starts with a letter, holds no letter of the other direction, ends in a letter or a
number, and does not mix the two kinds of digits. -/
def keepsDirection (label : List Char) : Bool :=
  match label.map direction, (bareDirections label).getLast? with
  | .toRight :: _, some last =>
    (last = .toRight || last = .digit) &&
      label.all (!writtenLeft ·)
  | .toLeft :: _, some last =>
    (last = .toLeft || last = .digit || last = .arabicDigit) &&
      (label.all fun c => direction c ≠ .toRight) &&
      !(label.any (direction · = .digit) && label.any (direction · = .arabicDigit))
  | [], _ => true
  | _, _ => false

end CodeBridge.Domain
