import CodeBridge.Domain.Marks

/-!
# Composed text

A letter with a mark can be one character or two.  `compose` gives both spellings the same text, the
one of Unicode's Normalization Form C, for characters of folded names:

* `decompose`  takes every character apart into a letter and marks;
* `order`      sorts marks of one letter by their combining class;
* `joinMarks`  puts together what a single character can stand for.
-/

namespace CodeBridge.Domain

/-- Letters that make one character with a mark, and in the same order those characters. -/
structure Composition where
  mark : Char
  letters : String
  composed : String

def compositions : Array Composition := #[
  ⟨'\u0300', "aeinouwyâêôüăēōơưαεηιουωϊϋеиἀἁἐἑἠἡἰἱὀ", "àèìǹòùẁỳầềồǜằḕṑờừὰὲὴὶὸὺὼῒῢѐѝἂἃἒἓἢἣἲἳὂ"⟩,
  ⟨'\u0300', "ὁὐὑὠὡ", "ὃὒὓὢὣ"⟩,
  ⟨'\u0301', "acegiklmnoprsuwyzâåæçêïôõøüăēōũơưαεηι", "áćéǵíḱĺḿńóṕŕśúẃýźấǻǽḉếḯốṍǿǘắḗṓṹớứάέήί"⟩,
  ⟨'\u0301', "ουωϊϋгкἀἁἐἑἠἡἰἱὀὁὐὑὠὡ", "όύώΐΰѓќἄἅἔἕἤἥἴἵὄὅὔὕὤὥ"⟩,
  ⟨'\u0302', "aceghijosuwyzạẹọ", "âĉêĝĥîĵôŝûŵŷẑậệộ"⟩,
  ⟨'\u0303', "aeinouvyâêôăơư", "ãẽĩñõũṽỹẫễỗẵỡữ"⟩,
  ⟨'\u0304', "aegiouyäæõöüǫȧȯαιυиуḷṛ", "āēḡīōūȳǟǣȭȫǖǭǡȱᾱῑῡӣӯḹṝ"⟩,
  ⟨'\u0306', "aegiouȩαιυаежиуạ", "ăĕğĭŏŭḝᾰῐῠӑӗӂйўặ"⟩,
  ⟨'\u0307', "abcdefghmnoprstwxyzśšṣ𐗒𐗚", "ȧḃċḋėḟġḣṁṅȯṗṙṡṫẇẋẏżṥṧṩ𐗉𐗤"⟩,
  ⟨'\u0308', "aehiotuwxyõūιυаежзиоучыэіәө", "äëḧïöẗüẅẍÿṏṻϊϋӓёӝӟӥӧӱӵӹӭїӛӫ"⟩,
  ⟨'\u0309', "aeiouyâêôăơư", "ảẻỉỏủỷẩểổẳởử"⟩,
  ⟨'\u030a', "auwy", "åůẘẙ"⟩,
  ⟨'\u030b', "ouу", "őűӳ"⟩,
  ⟨'\u030c', "acdeghijklnorstuzüʒ", "ǎčďěǧȟǐǰǩľňǒřšťǔžǚǯ"⟩,
  ⟨'\u030f', "aeioruѵ", "ȁȅȉȍȑȕѷ"⟩,
  ⟨'\u0311', "aeioru", "ȃȇȋȏȓȗ"⟩,
  ⟨'\u0313', "αεηιορυω", "ἀἐἠἰὀῤὐὠ"⟩,
  ⟨'\u0314', "αεηιορυω", "ἁἑἡἱὁῥὑὡ"⟩,
  ⟨'\u031b', "ou", "ơư"⟩,
  ⟨'\u0323', "abdehiklmnorstuvwyzơư", "ạḅḍẹḥịḳḷṃṇọṛṣṭụṿẉỵẓợự"⟩,
  ⟨'\u0324', "u", "ṳ"⟩,
  ⟨'\u0325', "a", "ḁ"⟩,
  ⟨'\u0326', "st", "șț"⟩,
  ⟨'\u0327', "cdeghklnrst", "çḑȩģḩķļņŗşţ"⟩,
  ⟨'\u0328', "aeiou", "ąęįǫų"⟩,
  ⟨'\u032d', "delntu", "ḓḙḽṋṱṷ"⟩,
  ⟨'\u032e', "h", "ḫ"⟩,
  ⟨'\u0330', "eiu", "ḛḭṵ"⟩,
  ⟨'\u0331', "bdhklnrtz", "ḇḏẖḵḻṉṟṯẕ"⟩,
  ⟨'\u0338', "<=>←→↔⇐⇒⇔∃∈∋∣∥∼≃≅≈≍≡≤≥≲≳≶≷≺≻≼≽⊂⊃⊆⊇⊑⊒⊢", "≮≠≯↚↛↮⇍⇏⇎∄∉∌∤∦≁≄≇≉≭≢≰≱≴≵≸≹⊀⊁⋠⋡⊄⊅⊈⊉⋢⋣⊬"⟩,
  ⟨'\u0338', "⊨⊩⊫⊲⊳⊴⊵", "⊭⊮⊯⋪⋫⋬⋭"⟩,
  ⟨'\u0342', "αηιυωϊϋἀἁἠἡἰἱὐὑὠὡ", "ᾶῆῖῦῶῗῧἆἇἦἧἶἷὖὗὦὧ"⟩,
  ⟨'\u0653', "\u0627", "\u0622"⟩,
  ⟨'\u0654', "\u0627\u0648\u064a\u06c1\u06d2\u06d5", "\u0623\u0624\u0626\u06c2\u06d3\u06c0"⟩,
  ⟨'\u0655', "\u0627", "\u0625"⟩,
  ⟨'\u093c', "नरळ", "ऩऱऴ"⟩,
  ⟨'\u09be', "\u09c7", "\u09cb"⟩,
  ⟨'\u09d7', "\u09c7", "\u09cc"⟩,
  ⟨'\u0b3e', "\u0b47", "\u0b4b"⟩,
  ⟨'\u0b56', "\u0b47", "\u0b48"⟩,
  ⟨'\u0b57', "\u0b47", "\u0b4c"⟩,
  ⟨'\u0bbe', "\u0bc6\u0bc7", "\u0bca\u0bcb"⟩,
  ⟨'\u0bd7', "ஒ\u0bc6", "ஔ\u0bcc"⟩,
  ⟨'\u0c56', "\u0c46", "\u0c48"⟩,
  ⟨'\u0cc2', "\u0cc6", "\u0cca"⟩,
  ⟨'\u0cd5', "\u0cbf\u0cc6\u0cca", "\u0cc0\u0cc7\u0ccb"⟩,
  ⟨'\u0cd6', "\u0cc6", "\u0cc8"⟩,
  ⟨'\u0d3e', "\u0d46\u0d47", "\u0d4a\u0d4b"⟩,
  ⟨'\u0d57', "\u0d46", "\u0d4c"⟩,
  ⟨'\u0dca', "\u0dd9\u0ddc", "\u0dda\u0ddd"⟩,
  ⟨'\u0dcf', "\u0dd9", "\u0ddc"⟩,
  ⟨'\u0ddf', "\u0dd9", "\u0dde"⟩,
  ⟨'\u102e', "ဥ", "ဦ"⟩,
  ⟨'\u1b35', "ᬅᬇᬉᬋᬍᬑ\u1b3a\u1b3c\u1b3e\u1b3f\u1b42", "ᬆᬈᬊᬌᬎᬒ\u1b3b\u1b3d\u1b40\u1b41\u1b43"⟩,
  ⟨'\u3099', "うかきくけこさしすせそたちつてとはひふへほゝウカキクケコサシスセソタチツテ", "ゔがぎぐげござじずぜぞだぢづでどばびぶべぼゞヴガギグゲゴザジズゼゾダヂヅデ"⟩,
  ⟨'\u3099', "トハヒフヘホワヰヱヲヽ", "ドバビブベボヷヸヹヺヾ"⟩,
  ⟨'\u309a', "はひふへほハヒフヘホ", "ぱぴぷぺぽパピプペポ"⟩,
  ⟨'𑂺', "𑂙𑂛𑂥", "𑂚𑂜𑂫"⟩,
  ⟨'𑄧', "𑄱𑄲", "𑄮𑄯"⟩,
  ⟨'𑌾', "𑍇", "𑍋"⟩,
  ⟨'𑍗', "𑍇", "𑍌"⟩,
  ⟨'𑎸', "𑏂", "𑏇"⟩,
  ⟨'𑎻', "𑎄", "𑎅"⟩,
  ⟨'𑏂', "𑎎", "𑎎𑏅"⟩,
  ⟨'𑏉', "𑎂𑎐𑏂", "𑎃𑎑𑏈"⟩,
  ⟨'𑒰', "𑒹", "𑒼"⟩,
  ⟨'𑒺', "𑒹", "𑒻"⟩,
  ⟨'𑒽', "𑒹", "𑒾"⟩,
  ⟨'𑖯', "𑖸𑖹", "𑖺𑖻"⟩,
  ⟨'𑤰', "𑤵", "𑤸"⟩,
  ⟨'𖄞', "𖄞", "𖄡"⟩,
  ⟨'𖄟', "𖄡𖄡𖄩𖄩", "𖄣𖄦𖄧𖄤"⟩,
  ⟨'𖄠', "𖄡𖄞", "𖄥𖄨"⟩,
  ⟨'𖄩', "𖄞", "𖄢"⟩,
  ⟨'𖵧', "𖵩𖵩", "𖵪𖵧𖵪"⟩]

/-! ## syllables of Hangul -/

/-- first consonants, vowels and last consonants, counted from their first one -/
def leadBase : Nat := 0x1100
def vowelBase : Nat := 0x1161
def tailBase : Nat := 0x11A7
def syllableBase : Nat := 0xAC00
def leads : Nat := 19
def vowels : Nat := 21
def tails : Nat := 28

/-- Two parts of a syllable as one character. -/
def joinSyllable (a b : Nat) : Option Char :=
  if leadBase ≤ a && a < leadBase + leads && vowelBase ≤ b && b < vowelBase + vowels then
    some (Char.ofNat (syllableBase + ((a - leadBase) * vowels + (b - vowelBase)) * tails))
  else if syllableBase ≤ a && a < syllableBase + leads * vowels * tails &&
      (a - syllableBase) % tails = 0 && tailBase < b && b < tailBase + tails then
    some (Char.ofNat (a + (b - tailBase)))
  else none

/-- The parts of a syllable. -/
def splitSyllable (n : Nat) : Option (List Char) :=
  if syllableBase ≤ n && n < syllableBase + leads * vowels * tails then
    let i := n - syllableBase
    let parts := [leadBase + i / (vowels * tails), vowelBase + i % (vowels * tails) / tails]
    let last := if i % tails = 0 then [] else [tailBase + i % tails]
    some ((parts ++ last).map Char.ofNat)
  else none

/-! ## letters and marks -/

/-- What stands in the second text where `c` stands in the first. -/
def counterpart (these those : String) (c : Char) : Option Char :=
  ((these.toList.zip those.toList).find? (·.1 = c)).map (·.2)

/-- A character and the next one as one. -/
def joinPair (a b : Char) : Option Char :=
  match joinSyllable a.toNat b.toNat with
  | some c => some c
  | none =>
    compositions.findSome? fun m =>
      if m.mark = b then counterpart m.letters m.composed a else none

/-- The letter and the mark that a character stands for. -/
def splitPair (c : Char) : Option (Char × Char) :=
  compositions.findSome? fun m => (counterpart m.composed m.letters c).map fun a => (a, m.mark)

/-- A character taken apart, the marks of its letter at most `depth` deep. -/
def apart (c : Char) : Nat → List Char
  | 0 => [c]
  | depth + 1 =>
    match splitPair c with
    | some (a, mark) => apart a depth ++ [mark]
    | none => [c]

/-- Every character taken apart; no letter has more than three marks. -/
def decompose (cs : List Char) : List Char :=
  cs.flatMap fun c => (splitSyllable c.toNat).getD (apart c 3)

/-- Put a mark before the marks of higher class, `marks` being the last one first. -/
def insertMark (c : Char) : List Char → List Char
  | [] => [c]
  | m :: ms => if combiningClass c < combiningClass m then m :: insertMark c ms else c :: m :: ms

/-- Sort each run of marks by class, marks of one class staying in order; `marks` is the run so far,
the last one first. -/
def orderFrom (marks : List Char) : List Char → List Char
  | [] => marks.reverse
  | c :: cs =>
    if combiningClass c = 0 then marks.reverse ++ c :: orderFrom [] cs
    else orderFrom (insertMark c marks) cs

def order (cs : List Char) : List Char := orderFrom [] cs

/-- Join a letter with the marks after it: one joins unless a mark of its class, or a character of
class 0, is left before it. -/
def joinFrom (letter : Char) (left : List Char) : List Char → List Char
  | [] => letter :: left.reverse
  | c :: cs =>
    let free :=
      match left with
      | [] => true
      | m :: _ => combiningClass m < combiningClass c
    match if free then joinPair letter c else none with
    | some joined => joinFrom joined left cs
    | none =>
      if combiningClass c = 0 then letter :: left.reverse ++ joinFrom c [] cs
      else joinFrom letter (c :: left) cs

/-- Join every letter with its marks; marks that no letter precedes stay. -/
def joinMarks : List Char → List Char
  | [] => []
  | c :: cs => if combiningClass c = 0 then joinFrom c [] cs else c :: joinMarks cs

/-- The composed spelling of a text. -/
def compose (cs : List Char) : List Char :=
  if cs.all (·.toNat < 0xC0) then cs else joinMarks (order (decompose cs))

end CodeBridge.Domain
