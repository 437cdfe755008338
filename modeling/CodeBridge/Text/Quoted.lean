import CodeBridge.Text.Printable

/-!
# Texts as messages quote them

`quoted` puts a text between quotes so that every character of it can be told apart on a terminal:
the quote, the backslash and the usual control characters are escaped by letter, every other
character that does not show as itself by its code.
-/

namespace CodeBridge.Quoted

/-- the code of a character in hexadecimal, without leading zeros -/
def code (c : Char) : List Char := Nat.toDigits 16 c.toNat

def escape (c : Char) : List Char :=
  if c = '\x00' then ['\\', '0']
  else if c = '\t' then ['\\', 't']
  else if c = '\r' then ['\\', 'r']
  else if c = '\n' then ['\\', 'n']
  else if c = '\\' then ['\\', '\\']
  else if c = '"' then ['\\', '"']
  else if isCombining c || !isPrintable c then '\\' :: 'u' :: '\x7b' :: (code c ++ ['\x7d'])
  else [c]

/-- A text between quotes. -/
def quote (s : String) : String :=
  String.ofList ('"' :: (s.toList.flatMap escape ++ ['"']))

end CodeBridge.Quoted
