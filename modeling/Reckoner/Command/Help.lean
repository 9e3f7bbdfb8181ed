/-!
# Help on the command

The text that `-h` prints: how the command is called, and what each argument means.
-/

namespace Reckoner.Command

/-- How the command is called. -/
def usage : String :=
  "usage: formula [-h] [-f FILE] [-D NAME=VALUE] [--debug] [--emit-ast]\n" ++
  "               [expression]\n"

def helpText : String :=
  usage ++
  "\n" ++
  "Formula v0.1 — evaluate arithmetic expressions\n" ++
  "\n" ++
  "positional arguments:\n" ++
  "  expression            Expression to evaluate\n" ++
  "\n" ++
  "options:\n" ++
  "  -h, --help            show this help message and exit\n" ++
  "  -f FILE, --file FILE  Read the expression from a file\n" ++
  "  -D NAME=VALUE, --define NAME=VALUE\n" ++
  "                        Bind a number visible to the expression (repeatable)\n" ++
  "  --debug               Print evaluation phase info to stderr\n" ++
  "  --emit-ast            Print the parsed AST as JSON instead of evaluating it\n"

end Reckoner.Command
