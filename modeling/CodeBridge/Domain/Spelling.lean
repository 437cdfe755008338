/-!
# Labels spelled in plain letters

A label with other letters has a spelling in plain ones: its plain characters, a hyphen, and a row
of numbers that say which other characters are put in, and where.  Characters are put in from the
smallest on; a number counts the places passed on the way, one more round for each code point.

* `number`    a number of the row, its last digit being the first below the threshold of its place;
* `adapt`     moves the thresholds, so that numbers like the last one become short;
* `decode?`   the label that is spelled.
-/

namespace CodeBridge.Domain.Spelling

/-- A digit to base 36: letters before figures. -/
def digit? (c : Char) : Option Nat :=
  if 'a' ≤ c && c ≤ 'z' then some (c.toNat - 97)
  else if '0' ≤ c && c ≤ '9' then some (c.toNat - 22)
  else none

/-- The smallest digit that another one follows; `place` counts by 36 from 36. -/
def threshold (place bias : Nat) : Nat :=
  if place ≤ bias then 1 else if bias + 26 ≤ place then 26 else place - bias

/-- A number, and what is left after it. -/
def number (bias place weight sum : Nat) : List Char → Option (Nat × List Char)
  | [] => none
  | c :: cs =>
    match digit? c with
    | none => none
    | some d =>
      let least := threshold place bias
      if d < least then some (sum + d * weight, cs)
      else number bias (place + 36) (weight * (36 - least)) (sum + d * weight) cs

def settle (delta bias : Nat) : Nat :=
  if 455 < delta then settle (delta / 35) (bias + 36) else bias + 36 * delta / (delta + 38)
termination_by delta
decreasing_by exact Nat.div_lt_self (by omega) (by omega)

/-- The bias after a number; the first one of a label counts for less. -/
def adapt (delta size : Nat) (first : Bool) : Nat :=
  let scaled := if first then delta / 700 else delta / 2
  settle (scaled + scaled / size) 0

/-- A label with some of its characters put in: where the next one may go, and the last one. -/
structure Partly where
  text : List Char
  place : Nat := 0
  code : Nat := 0x80
  bias : Nat := 72

/-- Put in the characters that the digits name, at most `fuel` of them. -/
def insertAll (label : Partly) (digits : List Char) : Nat → Option (List Char)
  | 0 => some label.text
  | fuel + 1 =>
    if digits.isEmpty then some label.text
    else
      match number label.bias 36 1 0 digits with
      | none => none
      | some (delta, rest) =>
        let size := label.text.length + 1
        let spot := label.place + delta
        let code := label.code + spot / size
        if code.isValidChar then
          insertAll
            ⟨label.text.insertIdx (spot % size) (Char.ofNat code), spot % size + 1, code,
              adapt delta size (label.place = 0)⟩
            rest fuel
        else none

/-- The label that a code spells: the last hyphen, if anything stands before it, ends the plain
characters. -/
def decode? (code : List Char) : Option (List Char) :=
  let digits := (code.reverse.takeWhile (· ≠ '-')).reverse
  let plain := code.take (code.length - digits.length)
  if plain = ['-'] then none
  else insertAll { text := plain.dropLast } digits digits.length

end CodeBridge.Domain.Spelling
