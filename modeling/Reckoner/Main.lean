import Reckoner.Command
import Reckoner.Command.Help

/-!
# The program

Reads the file that the arguments ask for, if they ask for one, and hands everything to the command.
-/

namespace Reckoner.Command

/-- What a path leads to. -/
def findFile (path : String) : IO Found := do
  try
    return .text (← IO.FS.readFile path)
  catch
    | .noFileOrDirectory .. => return .missing
    | _ => return .blocked .unreadable

end Reckoner.Command

open Reckoner

def main (argv : List String) : IO UInt32 := do
  let found ← match (Command.Request.ofArguments? .earlier argv).bind Command.Request.file? with
    | some path => Command.findFile path
    | none => pure .missing
  match Command.execute argv fun _ => found with
  | .finished code output errors =>
      IO.print output
      IO.eprint errors
      return code.toUInt32
  | .helped =>
      IO.print Command.helpText
      return 0
  | .aborted _ =>
      IO.eprintln "formula: the arguments cannot be used"
      return 1
  | .rejected =>
      IO.eprint Command.usage
      return 2
