import Reckoner.Command.Arguments
import Reckoner.Command.Folder
import Reckoner.Evaluate
import Reckoner.Text.LineEnds

/-!
# The command

The command prints the value of one formula, or its tree as JSON. Definitions from the command line
are in a scope around the formula. A report of what went wrong, and the trace of the evaluation if
it is asked for, go to the error output.
-/

namespace Reckoner.Command

/-- What the command does in the end. -/
inductive Outcome
  /-- The arguments are not acceptable; nothing was done. -/
  | rejected
  /-- Help on the command was asked for. -/
  | helped
  | finished (code : Nat) (output errors : String)
  /-- The command broke off without a report. -/
  | aborted (why : Obstacle)
deriving DecidableEq, Repr

/-- The formula in a file: the content with unified line ends and without the blanks around it. -/
def fileText (content : String) : String :=
  Text.strip (String.ofList (Text.unifiedLineEnds content.toList))

/-- A host without functions. -/
def noHost : Host Empty Unit := ⟨nofun⟩

/-- The store with one scope that holds the definitions, the last one of a name winning. -/
def definedScopes (ds : List Definition) : ScopeId × Scopes Empty :=
  let (id, scopes) := Scopes.empty.create .empty none
  (id, ds.foldl (fun s d => s.define id d.name (.number d.value)) scopes)

/-- The evaluation of a text with definitions around it. -/
def evaluation (ds : List Definition) (debug : Bool) (source : String) :
    Reckoner.Outcome Empty Unit :=
  let (id, scopes) := definedScopes ds
  (evaluateText noHost debug (.ofScope (some id)) source).outcome ⟨scopes, ()⟩

/-- Prints the value or the tree of a text. -/
def performText (inv : Invocation) (source : String) : Outcome :=
  if inv.emitTree then
    match parse source with
    | .ok e => .finished 0 (e.dump ++ "\n") ""
    | .error f => .finished 1 "" (f.message ++ "\n")
  else
    let o := evaluation inv.definitions inv.debug source
    match o.result with
    | .ok x => .finished 0 (Number.text x ++ "\n") (traceText o.trace)
    | .error f => .finished 1 "" (traceText o.trace ++ f.message ++ "\n")

/-- Evaluates or shows the formula; `find` tells what a path leads to. -/
def Invocation.perform (inv : Invocation) (find : String → Found) : Outcome :=
  match inv.source with
  | .text s => performText inv s
  | .file name =>
      if name = "" then .aborted .unnamed
      else
        match find name with
        | .text content => performText inv (fileText content)
        | .missing =>
            .finished 1 "" ("[formula] Error: Input file not found: " ++ Text.quoted name ++ "\n")
        | .blocked why => .aborted why

/-- The whole command; `find` tells what a path leads to, and `rules` are those for arguments. -/
def execute (argv : List String) (find : String → Found) (rules : Rules := .earlier) : Outcome :=
  match Request.ofArguments? rules argv with
  | some (.run inv) => inv.perform find
  | some .dropped => .aborted .nul
  | some .help => .helped
  | none => .rejected

end Reckoner.Command
