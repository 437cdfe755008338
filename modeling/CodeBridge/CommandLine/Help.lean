/-!
# Texts that the command line shows

The help comes in two lengths.
-/

namespace CodeBridge.Help

def versionText : String := "tether 0.0.0\n"

/-- An option as the help names it, and what it is for. -/
structure Line where
  option : String
  purpose : String

def options (help : String) : List Line :=
  [⟨"    --config <PATH>", "Config file to load instead of ~/.tether/config.toml"⟩,
   ⟨"    --workspace <DIR>",
    "Workspace root handed to gopls (defaults to the current directory)"⟩,
   ⟨"    --gopls <PATH>", "gopls executable to launch"⟩,
   ⟨"-h, --help", help⟩,
   ⟨"-V, --version", "Print version"⟩]

def usage : String := "\n\nUsage: tether [OPTIONS]\n\nOptions:\n"

/-- columns that an option takes in the short help -/
def width : Nat := 21

def shortLine (l : Line) : String :=
  "  " ++ l.option.pushn ' ' (width - l.option.length) ++ "  " ++ l.purpose ++ "\n"

def longLine (l : Line) : String := s!"  {l.option}\n          {l.purpose}\n"

def shortText : String :=
  "Go code intelligence over gopls" ++ usage ++
    String.join ((options "Print help (see more with '--help')").map shortLine)

def longText : String :=
  "Reads one JSON tool request per line on stdin and writes one JSON reply per line on stdout. " ++
    "Logs go to ~/.tether/logs/tether.log (RUST_LOG to filter)." ++ usage ++
    "\n".intercalate ((options "Print help (see a summary with '-h')").map longLine)

end CodeBridge.Help
