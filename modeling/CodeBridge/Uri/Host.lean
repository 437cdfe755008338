import CodeBridge.Domain.Basic
import CodeBridge.Uri.Percent

/-!
# Hosts of a URI

A host is a domain name or an address.  Which address it is does not matter here, only whether the
host is well formed and whether it names this machine:

* in brackets stands an address of eight groups (`validGroups`), the last two perhaps written as
  four decimal numbers, one run of zero groups perhaps left out;
* a name whose last label is a number is an address of up to four numbers (`validQuad`);
* any other is a domain name (`Domain.read?`).
-/

namespace CodeBridge

-- powers of numbers are those of the core library, whatever is imported
attribute [instance (high), default_instance high] instPowNat

/-- What keeps a text from being a URI. -/
inductive UriFault where
  | noScheme
  | emptyHost
  | badName
  | badCharacter
  | badPort
  | badQuad
  | badGroups
  deriving DecidableEq, Repr

def UriFault.message : UriFault → String
  | .noScheme => "relative URL without a base"
  | .emptyHost => "empty host"
  | .badName => "invalid international domain name"
  | .badCharacter => "invalid domain character"
  | .badPort => "invalid port number"
  | .badQuad => "invalid IPv4 address"
  | .badGroups => "invalid IPv6 address"

namespace Host

/-! ## digits -/

def isDigit (c : Char) : Bool := '0' ≤ c && c ≤ '9'

def hexValue? (c : Char) : Option Nat :=
  if isDigit c then some (c.toNat - 48)
  else if 'a' ≤ c && c ≤ 'f' then some (c.toNat - 87)
  else if 'A' ≤ c && c ≤ 'F' then some (c.toNat - 55)
  else none

/-- A number in a base of at most sixteen. -/
def number? (base : Nat) (cs : List Char) : Option Nat :=
  cs.foldlM (fun n c => do
    let d ← hexValue? c
    if d < base then some (n * base + d) else none) 0

/-! ## addresses of four numbers -/

/-- A number of an address: sixteenfold after `0x`, eightfold after `0`. -/
def quadNumber? : List Char → Option Nat
  | [] => none
  | '0' :: 'x' :: cs | '0' :: 'X' :: cs => number? 16 cs
  | '0' :: c :: cs => number? 8 (c :: cs)
  | cs => number? 10 cs

/-- Labels of a name; a point at the end adds none. -/
def labels (name : List Char) : List (List Char) :=
  let all := piecesAt '.' name
  if all.getLast? = some [] then all.dropLast else all

def endsInNumber (name : List Char) : Bool :=
  match (labels name).getLast? with
  | none => false
  | some last => (!last.isEmpty && last.all isDigit) || (quadNumber? last).isSome

/-- Up to four numbers, each but the last a byte, the last as large as the room that is left. -/
def validQuad (name : List Char) : Bool :=
  let all := labels name
  match all.mapM quadNumber? with
  | none => false
  | some ns =>
    match ns.reverse with
    | [] => false
    | last :: before =>
      all.length ≤ 4 && before.all (· ≤ 255) && last < 2 ^ (32 - 8 * before.length)

/-! ## addresses of eight groups -/

/-- A decimal byte without leading zeros. -/
def decimalByte (cs : List Char) : Bool :=
  !cs.isEmpty && cs.all isDigit && (cs.length = 1 || cs.head? ≠ some '0') &&
    match number? 10 cs with
    | some n => n ≤ 255
    | none => false

/-- four decimal bytes between points -/
def decimalTail (cs : List Char) : Bool :=
  let parts := piecesAt '.' cs
  parts.length = 4 && parts.all decimalByte

def isGroup (cs : List Char) : Bool :=
  1 ≤ cs.length && cs.length ≤ 4 && cs.all fun c => (hexValue? c).isSome

/-- How many groups a list of parts between colons stands for. -/
def countGroups : List (List Char) → Option Nat
  | [] => some 0
  | [last] =>
    if isGroup last then some 1 else if decimalTail last then some 2 else none
  | part :: rest => if isGroup part then (countGroups rest).map (· + 1) else none

/-- Groups on both sides of the one place where zeros are left out. -/
def splitGap : List Char → Option (List Char × List Char)
  | ':' :: ':' :: rest => some ([], rest)
  | c :: rest => (splitGap rest).map fun (a, b) => (c :: a, b)
  | [] => none

def groupsOf (cs : List Char) : Option Nat :=
  if cs.isEmpty then some 0 else countGroups (piecesAt ':' cs)

/-- The text between brackets. -/
def validGroups (cs : List Char) : Bool :=
  match splitGap cs with
  | none => groupsOf cs = some 8
  | some (before, after) =>
    let plain := before.isEmpty || (piecesAt ':' before).all isGroup
    match groupsOf before, groupsOf after with
    | some m, some n => plain && m + n ≤ 7
    | _, _ => false

/-! ## names -/

/-- The name that a host is written for, its escapes undone. -/
def name? (host : List Char) : Option (List Char) :=
  match Utf8.decode (Percent.decode (Utf8.encode host)) with
  | .error _ => none
  | .ok cs => Domain.read? cs

def localhost : List Char := "localhost".toList

/-- Whether a host names this machine, for a scheme whose hosts are names. -/
def isLocal (host : List Char) : Except UriFault Bool :=
  match host with
  | '[' :: inner =>
    if inner.getLast? = some ']' && validGroups inner.dropLast then .ok false else .error .badGroups
  | _ =>
    match name? host with
    | none => .error .badName
    | some [] => .error .emptyHost
    | some name =>
      if endsInNumber name then
        if validQuad name then .ok false else .error .badQuad
      else .ok (name = localhost)

/-- A host of a scheme that gives hosts no meaning. -/
def checkOpaque (host : List Char) : Except UriFault Unit :=
  match host with
  | '[' :: inner =>
    if inner.getLast? = some ']' && validGroups inner.dropLast then .ok () else .error .badGroups
  | _ =>
    if host.any fun c => c ≠ '%' && Domain.splitsHost c &&
        !((c.toNat < 0x20 && c ≠ '\x00') || c.toNat = 0x7F) then .error .badCharacter
    else .ok ()

end Host

end CodeBridge
