import Reckoner.Command.Definition

/-!
# Arguments of the command line

The formula is given as an operand or as a file; exactly one of the two. Options stand anywhere. An
option that takes a value finds it in its own argument, behind an equals sign or directly behind a
single letter, or else in the next argument. A long name may be cut short as long as only one option
begins so. A double dash ends the options: everything behind it is an operand. A double dash may
only be used when no operand stands before the last option.

The arguments are read in their order. A request for help is granted as soon as it is met, whatever
stands behind it; before it, an option with a wrong value, or both a formula and a file, is refused
at once, while unknown options and operands too many would only be refused in the end.

These rules were changed in two places in the course of time (`Rules`), so everything that depends
on them is told which ones are in force.
-/

namespace Reckoner.Command

open Reckoner.Text

/-! ## Rules -/

/-- Where the rules differ. -/
structure Rules where
  /-- A double dash attached to an option is dropped, so that the option is left with nothing. -/
  dropsDashes : Bool
  /-- Behind the letter of the option for help the first letter that names no option ends the
  options there; only an equals sign or a dash is refused. Otherwise such a letter is refused, and a
  leading equals sign is passed over. -/
  allowsStrays : Bool
deriving DecidableEq, Repr

/-- The rules before both changes. -/
def Rules.earlier : Rules := ⟨true, false⟩

/-- The rules after both changes. -/
def Rules.later : Rules := ⟨false, true⟩

/-- What is left of a value that is attached to its option. -/
def Rules.kept? (rules : Rules) (value : String) : Option String :=
  if rules.dropsDashes ∧ value = "--" then none else some value

theorem Rules.kept?_of_ne {rules : Rules} {value : String}
    (h : rules.dropsDashes = true → value ≠ "--") : rules.kept? value = some value := by
  rw [kept?, if_neg]
  rintro ⟨drops, rfl⟩
  exact h drops rfl

/-! ## Single arguments -/

inductive Choice
  | help | file | define | debug | emitTree
deriving DecidableEq, Repr

/-- The name of an option behind two dashes. -/
def Choice.longName : Choice → String
  | .help => "help"
  | .file => "file"
  | .define => "define"
  | .debug => "debug"
  | .emitTree => "emit-ast"

/-- The option of a letter behind one dash. -/
def Choice.ofLetter? (c : Char) : Option Choice :=
  if c = 'h' then some .help
  else if c = 'f' then some .file
  else if c = 'D' then some .define
  else none

/-- The options whose long names begin with a text. -/
def Choice.beginning (cs : List Char) : List Choice :=
  [.help, .file, .define, .debug, .emitTree].filter fun choice =>
    cs.isPrefixOf choice.longName.toList

/-- What one argument is by itself. -/
inductive Piece
  | operand (s : String)
  | option (choice : Choice) (attached : Option String)
  /-- The letter of the option for help with something behind it, which may be more options. -/
  | bundle (tail : List Char)
  | unknown
  /-- More than one option has a long name that begins so. -/
  | ambiguous
deriving DecidableEq, Repr

/-- Digits, or a point with digits behind it and perhaps before it; a line end may follow. -/
def isPlainNumber (cs : List Char) : Bool :=
  let cs := if cs.getLast? = some '\n' then cs.dropLast else cs
  let whole := cs.takeWhile isDigit
  match cs.dropWhile isDigit with
  | [] => !whole.isEmpty
  | c :: fraction => c == '.' && !fraction.isEmpty && fraction.all isDigit

/-- An argument that begins with a dash but names no option is still an operand as a negative number
or with a space inside. -/
def Piece.ofNameless (arg : String) : Piece :=
  if isPlainNumber (arg.toList.drop 1) ∨ ' ' ∈ arg.toList then .operand arg else .unknown

/-- The value behind the letter of an option, with or without an equals sign between them. -/
def letterValue? : List Char → Option String
  | [] => none
  | c :: cs => some (String.ofList (if c = '=' then cs else c :: cs))

/-- The value behind the equals sign of a long option. -/
def longValue? (cs : List Char) : Option String :=
  (cs.dropWhile (· ≠ '=')).tail?.map String.ofList

/-- An argument that begins with a dash and is not the dash alone may be an option. -/
def Piece.ofArgument (arg : String) : Piece :=
  match arg.toList with
  | '-' :: '-' :: cs =>
      match Choice.beginning (cs.takeWhile (· ≠ '=')) with
      | [] => .ofNameless arg
      | [choice] => .option choice (longValue? cs)
      | _ => .ambiguous
  | '-' :: 'h' :: c :: cs => .bundle (c :: cs)
  | '-' :: c :: cs =>
      match Choice.ofLetter? c with
      | some choice => .option choice (letterValue? cs)
      | none => .ofNameless arg
  | _ => .operand arg

/-! ## Arguments in their order -/

/-- An operand, an unknown option, or an option together with its value. -/
inductive Item
  | help
  | unknown
  | operand (s : String)
  | file (name : String)
  | define (d : Definition)
  /-- A definition of which nothing is left. -/
  | dropped
  | debug
  | emitTree

def Item.isHelp : Item → Bool
  | .help => true
  | .unknown | .operand _ | .file _ | .define _ | .dropped | .debug | .emitTree => false

def Item.isUnknown : Item → Bool
  | .unknown => true
  | .help | .operand _ | .file _ | .define _ | .dropped | .debug | .emitTree => false

def Item.operand? : Item → Option String
  | .operand s => some s
  | .help | .unknown | .file _ | .define _ | .dropped | .debug | .emitTree => none

def Item.file? : Item → Option String
  | .file name => some name
  | .help | .unknown | .operand _ | .define _ | .dropped | .debug | .emitTree => none

def Item.definition? : Item → Option Definition
  | .define d => some d
  | .help | .unknown | .operand _ | .file _ | .dropped | .debug | .emitTree => none

def Item.isDropped : Item → Bool
  | .dropped => true
  | .help | .unknown | .operand _ | .file _ | .define _ | .debug | .emitTree => false

def Item.isDebug : Item → Bool
  | .debug => true
  | .help | .unknown | .operand _ | .file _ | .define _ | .dropped | .emitTree => false

def Item.isEmitTree : Item → Bool
  | .emitTree => true
  | .help | .unknown | .operand _ | .file _ | .define _ | .dropped | .debug => false

/-- Whether an option at this place finds its value in the next argument. -/
def valueFollows : List Piece → Bool
  | .operand _ :: _ => true
  | _ => false

/-- Whether help is granted for letters behind that of the option for help. A letter whose option
takes a value ends them, with the value behind it or in the next argument. -/
def isBundle (rules : Rules) : List Char → List Piece → Bool
  | [], _ => true
  | c :: letters, next =>
      match Choice.ofLetter? c with
      | some .help => isBundle rules letters next
      | some _ => !letters.isEmpty || valueFollows next
      | none => rules.allowsStrays && c != '=' && c != '-'

/-- Whether help is granted for what stands behind the letter of the option for help. -/
def grantsHelp (rules : Rules) : List Char → List Piece → Bool
  | '=' :: c :: letters, next => !rules.allowsStrays && isBundle rules (c :: letters) next
  | tail, next => isBundle rules tail next

/-- The definition that an option is given, or what stands for it if nothing is left of it. -/
def Item.ofDefinition? : Option String → Option Item
  | some arg => (Definition.read? arg).map .define
  | none => some .dropped

/-- Gives every option its value, up to the first request for help. There is no result if a value is
missing or malformed, or is attached to an option that takes none. A file of which no name is left
is one with the empty name: neither is opened. -/
def gather (rules : Rules) : List Piece → Option (List Item)
  | [] => some []
  | .operand s :: more => (gather rules more).map (.operand s :: ·)
  | .unknown :: more => (gather rules more).map (.unknown :: ·)
  | .ambiguous :: _ => none
  | .bundle tail :: more => if grantsHelp rules tail more then some [.help] else none
  | .option .help none :: _ => some [.help]
  | .option .debug none :: more => (gather rules more).map (.debug :: ·)
  | .option .emitTree none :: more => (gather rules more).map (.emitTree :: ·)
  | .option .help (some _) :: _ | .option .debug (some _) :: _
  | .option .emitTree (some _) :: _ => none
  | .option .file (some value) :: more =>
      (gather rules more).map (.file ((rules.kept? value).getD "") :: ·)
  | .option .file none :: .operand name :: more => (gather rules more).map (.file name :: ·)
  | .option .define (some value) :: more =>
      (Item.ofDefinition? (rules.kept? value)).bind fun item => (gather rules more).map (item :: ·)
  | .option .define none :: .operand arg :: more =>
      (Item.ofDefinition? (some arg)).bind fun item => (gather rules more).map (item :: ·)
  | .option .file none :: _ | .option .define none :: _ => none

/-! ## Invocations -/

/-- Where the formula comes from. -/
inductive Source
  | text (s : String)
  | file (name : String)
deriving DecidableEq, Repr

/-- What accepted arguments ask for. -/
structure Invocation where
  source : Source
  definitions : List Definition
  debug : Bool
  emitTree : Bool

/-- The operands before the last option. -/
def earlyOperands (items : List Item) : List String :=
  (items.reverse.dropWhile fun item => item.operand?.isSome).reverse.filterMap Item.operand?

/-- The items before a double dash, and the arguments behind it if there is one, as an invocation:
at most one operand in all, and of a file, the last one named. -/
def Invocation.ofItems? (items : List Item) (behind : Option (List String)) :
    Option Invocation :=
  let operands := items.filterMap Item.operand? ++ behind.getD []
  let source? : Option Source :=
    match operands, (items.filterMap Item.file?).getLast? with
    | [s], none => some (.text s)
    | [], some name => some (.file name)
    | _, _ => none
  if behind.isSome && !(earlyOperands items).isEmpty then none
  else source?.map fun source =>
    { source
      definitions := items.filterMap Item.definition?
      debug := items.any Item.isDebug
      emitTree := items.any Item.isEmitTree }

/-! ## Requests -/

/-- What the command is asked to do. -/
inductive Request
  | help
  /-- A formula, with a definition of which nothing is left. -/
  | dropped
  | run (inv : Invocation)

/-- The file that a request needs. -/
def Request.file? : Request → Option String
  | .run ⟨.file name, _, _, _⟩ => some name
  | .run ⟨.text _, _, _, _⟩ | .dropped | .help => none

/-- What the items before a double dash and the arguments behind it ask for. -/
def Request.ofItems? (items : List Item) (behind : Option (List String)) : Option Request :=
  if items.any Item.isHelp then
    if items.any (·.operand?.isSome) && items.any (·.file?.isSome) then none else some .help
  else if items.any Item.isUnknown then none
  else (Invocation.ofItems? items behind).map fun inv =>
    if items.any Item.isDropped then .dropped else .run inv

/-- What a list of arguments asks for, if it is acceptable. -/
def Request.ofArguments? (rules : Rules) (argv : List String) : Option Request :=
  let front := argv.takeWhile (· ≠ "--")
  let behind := (argv.dropWhile (· ≠ "--")).tail?
  let pieces := front.map Piece.ofArgument
  if .ambiguous ∈ pieces then none
  else (gather rules pieces).bind fun items => Request.ofItems? items behind

end Reckoner.Command
