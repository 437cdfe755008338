/-!
# UTF-8: bytes and characters

`encode` writes characters as bytes, `scan` cuts any byte string into well-formed characters and
the maximal ill-formed pieces between them.  Three readings of one scan:

* `decode`        all characters, or the first ill-formed piece and the byte where it starts;
* `decodeLossy`   every ill-formed piece becomes one U+FFFD;
* `text?`         `decode` without the reason.

A second byte is restricted by the first one (`secondOk`), which is what excludes overlong forms,
surrogates and everything above U+10FFFF.
-/

namespace CodeBridge

/-- a byte string -/
abbrev Bytes := List UInt8

namespace Utf8

/-! ## writing -/

def encode (cs : List Char) : Bytes := cs.flatMap String.utf8EncodeChar

theorem encode_nil : encode [] = [] := rfl
theorem encode_cons (c : Char) (cs : List Char) :
    encode (c :: cs) = String.utf8EncodeChar c ++ encode cs := rfl
theorem encode_append (a b : List Char) : encode (a ++ b) = encode a ++ encode b := by
  simp [encode, List.flatMap_append]

/-- the bytes of a text -/
def ofString (s : String) : Bytes := encode s.toList

/-! ## scanning -/

/-- One piece of a scanned byte string. -/
inductive Piece where
  | char (c : Char)
  /-- a maximal run of `length` bytes that no well-formed text contains -/
  | invalid (length : Nat)
  /-- a well-formed start of `length` bytes, cut off by the end of the input -/
  | incomplete (length : Nat)
  deriving DecidableEq, Repr

def Piece.width : Piece → Nat
  | .char c => c.utf8Size
  | .invalid n => n
  | .incomplete n => n

def isContinuation (b : UInt8) : Bool := 0x80 ≤ b && b ≤ 0xBF

/-- Bounds on the byte after the lead byte `a` of a longer form. -/
def secondOk (a b : UInt8) : Bool :=
  if a = 0xE0 then 0xA0 ≤ b && b ≤ 0xBF
  else if a = 0xED then 0x80 ≤ b && b ≤ 0x9F
  else if a = 0xF0 then 0x90 ≤ b && b ≤ 0xBF
  else if a = 0xF4 then 0x80 ≤ b && b ≤ 0x8F
  else isContinuation b

/-- the low six bits of a continuation byte -/
def low (b : UInt8) : Nat := b.toNat % 64

def char2 (a b : UInt8) : Char := Char.ofNat (a.toNat % 32 * 64 + low b)
def char3 (a b c : UInt8) : Char := Char.ofNat ((a.toNat % 16 * 64 + low b) * 64 + low c)
def char4 (a b c d : UInt8) : Char :=
  Char.ofNat (((a.toNat % 8 * 64 + low b) * 64 + low c) * 64 + low d)

/-- The bytes of a character read so far. -/
inductive Pending where
  | idle
  | one (a : UInt8)
  | two (a b : UInt8)
  | three (a b c : UInt8)
  deriving DecidableEq, Repr

/-- A byte where a character may start. -/
def lead (b : UInt8) : List Piece × Pending :=
  if b < 0x80 then ([.char (Char.ofNat b.toNat)], .idle)
  else if 0xC2 ≤ b && b ≤ 0xF4 then ([], .one b)
  else ([.invalid 1], .idle)

/-- Give up `n` bytes and let `b` start afresh. -/
def restart (n : Nat) (b : UInt8) : List Piece × Pending :=
  (.invalid n :: (lead b).1, (lead b).2)

def feed : Pending → UInt8 → List Piece × Pending
  | .idle, b => lead b
  | .one a, b =>
    if a < 0xE0 then
      if isContinuation b then ([.char (char2 a b)], .idle) else restart 1 b
    else if secondOk a b then ([], .two a b) else restart 1 b
  | .two a b, c =>
    if isContinuation c then
      if a < 0xF0 then ([.char (char3 a b c)], .idle) else ([], .three a b c)
    else restart 2 c
  | .three a b c, d =>
    if isContinuation d then ([.char (char4 a b c d)], .idle) else restart 3 d

/-- What is left over when the input ends. -/
def Pending.flush : Pending → List Piece
  | .idle => []
  | .one _ => [.incomplete 1]
  | .two _ _ => [.incomplete 2]
  | .three _ _ _ => [.incomplete 3]

def scanFrom (p : Pending) : Bytes → List Piece
  | [] => p.flush
  | b :: t => (feed p b).1 ++ scanFrom (feed p b).2 t

/-- The pieces of a byte string, from left to right. -/
def scan (bs : Bytes) : List Piece := scanFrom .idle bs

/-! ## reading -/

/-- Where and how a byte string stops being UTF-8. -/
structure Error where
  /-- number of well-formed bytes before the fault -/
  index : Nat
  /-- length of the ill-formed piece, `none` when the input ends inside a character -/
  length? : Option Nat
  deriving DecidableEq, Repr

def Error.message (e : Error) : String :=
  match e.length? with
  | some n => s!"invalid utf-8 sequence of {n} bytes from index {e.index}"
  | none => s!"incomplete utf-8 byte sequence from index {e.index}"

def collect (index : Nat) : List Piece → Except Error (List Char)
  | [] => .ok []
  | .char c :: ps => (collect (index + c.utf8Size) ps).map (c :: ·)
  | .invalid n :: _ => .error ⟨index, some n⟩
  | .incomplete _ :: _ => .error ⟨index, none⟩

/-- All characters, or the first fault. -/
def decode (bs : Bytes) : Except Error (List Char) := collect 0 (scan bs)

/-- The text written in `bs`, if `bs` is UTF-8. -/
def text? (bs : Bytes) : Option String :=
  match decode bs with
  | .ok cs => some (String.ofList cs)
  | .error _ => none

def Piece.lossy : Piece → Char
  | .char c => c
  | _ => '\uFFFD'

/-- The text of `bs` with every ill-formed piece shown as U+FFFD. -/
def decodeLossy (bs : Bytes) : String := String.ofList ((scan bs).map Piece.lossy)

end Utf8

end CodeBridge
