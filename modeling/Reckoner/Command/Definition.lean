import Reckoner.Number.Reading
import Reckoner.Text.Letter

/-!
# Definitions on the command line

A definition is written `name=number`. The first equals sign ends the name; blanks around the name
do not count, and what is left must be letters only, so that a formula can mention it.
-/

namespace Reckoner.Command

structure Definition where
  name : String
  value : Float

/-- The definition that an argument writes, if it writes one. -/
def Definition.read? (arg : String) : Option Definition :=
  let name := Text.trimmed Text.isBlank (arg.toList.takeWhile (· ≠ '='))
  match arg.toList.dropWhile (· ≠ '=') with
  | [] => none
  | _ :: value =>
      if name ≠ [] ∧ name.all Text.isLetter then
        (Number.read? (String.ofList value)).map fun x => ⟨String.ofList name, x⟩
      else none

end Reckoner.Command
