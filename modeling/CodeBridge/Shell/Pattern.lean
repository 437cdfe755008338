import CodeBridge.Text.Utf8

/-!
# Patterns

Two kinds, both over bytes:

* `Glob`    for choices: `*`, `?` and sets in brackets, against a whole text;
* `Regex`   for substitutions: a point, sets, a star after any of these, groups, and the two ends of
            a line; a star takes as much as it can.
-/

namespace CodeBridge.Shell

/-! ## sets -/

/-- Ranges of bytes, or all bytes but those in them. -/
structure ByteSet where
  negated : Bool
  ranges : List (UInt8 × UInt8)
  deriving DecidableEq, Repr

namespace ByteSet

def contains (s : ByteSet) (b : UInt8) : Bool :=
  s.ranges.any (fun r => r.1 ≤ b && b ≤ r.2) != s.negated

def hyphen : UInt8 := 0x2D

/-- Ranges as they are written, up to a closing bracket. -/
def readRanges : Bytes → List (UInt8 × UInt8) × Bytes
  | [] => ([], [])
  | a :: h :: b :: rest =>
    if a = 0x5D then ([], a :: h :: b :: rest)
    else if h = hyphen && b ≠ 0x5D then
      let (more, rest) := readRanges rest
      ((a, b) :: more, rest)
    else
      let (more, rest) := readRanges (h :: b :: rest)
      ((a, a) :: more, rest)
  | a :: rest =>
    if a = 0x5D then ([], a :: rest)
    else
      let (more, rest) := readRanges rest
      ((a, a) :: more, rest)

/-- A set after its opening bracket; `mark` turns it around. -/
def read? (mark : UInt8) (bs : Bytes) : Option (ByteSet × Bytes) :=
  let (negated, bs) := match bs with
    | m :: rest => if m = mark then (true, rest) else (false, bs)
    | [] => (false, [])
  let (first, bs) := match bs with
    | c :: rest => if c = 0x5D then ([(c, c)], rest) else ([], bs)
    | [] => ([], [])
  match readRanges bs with
  | (ranges, _ :: rest) => some (⟨negated, first ++ ranges⟩, rest)
  | (_, []) => none

end ByteSet

/-- Try `next` after as many bytes of the set as there are, then after one less, and so on. -/
def afterMost {α : Type} (ok : UInt8 → Bool) (next : Bytes → Option α) : Bytes → Option α
  | [] => next []
  | b :: bs =>
    if ok b then
      match afterMost ok next bs with
      | some a => some a
      | none => next (b :: bs)
    else next (b :: bs)

/-! ## whole texts -/

inductive Glob where
  | byte (b : UInt8)
  | set (s : ByteSet)
  | many
  deriving DecidableEq, Repr

namespace Glob

def anyByte : ByteSet := ⟨true, []⟩

/-- Plain text as a pattern. -/
def ofPlain : Nat → Bytes → List Glob
  | 0, _ => []
  | _, [] => []
  | fuel + 1, b :: bs =>
    if b = 0x2A then many :: ofPlain fuel bs
    else if b = 0x3F then set anyByte :: ofPlain fuel bs
    else if b = 0x5B then
      match ByteSet.read? 0x21 bs with
      | some (s, rest) => set s :: ofPlain fuel rest
      | none => byte b :: ofPlain fuel bs
    else byte b :: ofPlain fuel bs

def fits : List Glob → Bytes → Bool
  | [], bs => bs.isEmpty
  | byte b :: gs, c :: cs => b = c && fits gs cs
  | set s :: gs, c :: cs => s.contains c && fits gs cs
  | byte _ :: _, [] | set _ :: _, [] => false
  | many :: gs, bs =>
    (afterMost (fun _ => true) (fun rest => if fits gs rest then some () else none) bs).isSome

end Glob

/-! ## substitutions -/

inductive Atom where
  | one (s : ByteSet)
  | most (s : ByteSet)
  | opening (group : Nat)
  | closing (group : Nat)
  | lineStart
  | lineEnd
  deriving DecidableEq, Repr

abbrev Regex := List Atom

namespace Regex

def star : UInt8 := 0x2A

/-- A star after what has been read, if there is one. -/
def starred (s : ByteSet) : Bytes → Atom × Bytes
  | b :: rest => if b = star then (.most s, rest) else (.one s, b :: rest)
  | [] => (.one s, [])

/-- A pattern, groups being counted from `group` on. -/
def read? : Nat → Nat → List Nat → Bytes → Option Regex
  | 0, _, _, _ => none
  | _, _, [], [] => some []
  | _, _, _ :: _, [] => none
  | fuel + 1, group, inside, b :: bs =>
    let single (s : ByteSet) (bs : Bytes) : Option Regex :=
      let (atom, rest) := starred s bs
      (read? fuel group inside rest).map (atom :: ·)
    if b = 0x2E then single Glob.anyByte bs
    else if b = 0x5B then (ByteSet.read? 0x5E bs).bind fun (s, rest) => single s rest
    else if b = 0x24 && bs.isEmpty then (read? fuel group inside bs).map (.lineEnd :: ·)
    else if b = 0x5C then
      match bs, inside with
      | c :: rest, inside =>
        if c = 0x28 then
          (read? fuel (group + 1) (group :: inside) rest).map (.opening group :: ·)
        else if c = 0x29 then
          match inside with
          | g :: inside => (read? fuel group inside rest).map (.closing g :: ·)
          | [] => none
        else if c = 0x6E then single ⟨false, [(0x0A, 0x0A)]⟩ rest
        else single ⟨false, [(c, c)]⟩ rest
      | [], _ => none
    else single ⟨false, [(b, b)]⟩ bs

def ofBytes? (bs : Bytes) : Option Regex :=
  match bs with
  | b :: rest =>
    if b = 0x5E then (read? (bs.length + 1) 1 [] rest).map (.lineStart :: ·)
    else read? (bs.length + 1) 1 [] bs
  | [] => some []

/-- What groups have taken, each from where it was opened, and what is left of the line. -/
abbrev Taken := List (Nat × Bytes) × Bytes

/-- Fit the front of a text. -/
def fit (atStart : Bool) : Regex → List (Nat × Bytes) → Bytes → Option Taken
  | [], taken, bs => some (taken, bs)
  | .one s :: as, taken, b :: bs => if s.contains b then fit false as taken bs else none
  | .one _ :: _, _, [] => none
  | .most s :: as, taken, bs => afterMost s.contains (fit false as taken) bs
  | .opening g :: as, taken, bs => fit atStart as ((g, bs) :: taken) bs
  | .closing g :: as, taken, bs =>
    let text := match taken.find? fun t => t.1 = g with
      | some (_, whole) => whole.take (whole.length - bs.length)
      | none => []
    fit atStart as ((g, text) :: taken.filter fun t => t.1 ≠ g) bs
  | .lineStart :: as, taken, bs => if atStart then fit atStart as taken bs else none
  | .lineEnd :: as, taken, bs => if bs.isEmpty then fit false as taken bs else none

def groupText (taken : List (Nat × Bytes)) (g : Nat) : Bytes :=
  ((taken.find? fun t => t.1 = g).map (·.2)).getD []

/-- The text that stands in the place of what was fitted. -/
def replacement (whole : Bytes) (taken : List (Nat × Bytes)) : Bytes → Bytes
  | [] => []
  | [b] => if b = 0x26 then whole else [b]
  | b :: c :: rest =>
    if b = 0x5C then
      (if 0x30 ≤ c && c ≤ 0x39 then
        if c = 0x30 then whole else groupText taken (c.toNat - 48)
      else if c = 0x6E then [0x0A] else [c]) ++ replacement whole taken rest
    else if b = 0x26 then whole ++ replacement whole taken (c :: rest)
    else b :: replacement whole taken (c :: rest)

/-- Replace the first place that fits, or every one. -/
def replace (r : Regex) (text : Bytes) (every : Bool) : Nat → Bool → Bytes → Bytes
  | 0, _, bs => bs
  | fuel + 1, atStart, bs =>
    match fit atStart r [] bs with
    | some (taken, rest) =>
      let whole := bs.take (bs.length - rest.length)
      let written := replacement whole taken text
      if !every then written ++ rest
      else
        match whole, rest with
        | [], b :: rest => written ++ b :: replace r text every fuel false rest
        | [], [] => written
        | _ :: _, [] => written
        | _ :: _, rest => written ++ replace r text every fuel false rest
    | none =>
      match bs with
      | [] => []
      | b :: rest => b :: replace r text every fuel false rest

end Regex

end CodeBridge.Shell
