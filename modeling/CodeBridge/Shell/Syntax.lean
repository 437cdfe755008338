import CodeBridge.Text.Utf8

/-!
# Commands of a shell

A command is a simple one, or simple ones put together.  A word is a list of pieces: plain text, in
which pattern characters mean something, quoted text, and what stands for a value.
-/

namespace CodeBridge.Shell

mutual

/-- A piece of a word. -/
inductive Piece where
  | plain (text : Bytes)
  | quoted (text : Bytes)
  /-- the value of a variable, or of `fallback` when it has none -/
  | variable (name : String) (fallback : Option (List Piece)) (inQuotes : Bool)
  /-- how many bytes the value of a variable has -/
  | length (name : String)
  /-- what a command writes -/
  | output (command : Command) (inQuotes : Bool)

inductive Command where
  | nothing
  /-- assignments, words, and where streams lead to -/
  | simple (assignments : List (String × List Piece)) (words : List (List Piece))
      (redirections : List (Nat × List Piece))
  | sequence (first second : Command)
  | both (first second : Command)
  | either (first second : Command)
  | negation (command : Command)
  | pipe (source sink : Command)
  | group (command : Command)
  | subshell (command : Command)
  | loop (condition : Command) (holds : Bool) (body : Command)
  | branch (condition yes no : Command)
  /-- arms of patterns -/
  | cases (subject : List Piece) (arms : List (List (List Piece) × Command))

end

abbrev Word := List Piece

instance : Inhabited Command := ⟨.nothing⟩

end CodeBridge.Shell
