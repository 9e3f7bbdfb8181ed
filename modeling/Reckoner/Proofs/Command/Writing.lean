import Reckoner.Command
import Reckoner.Proofs.Evaluate.DeadBranches

/-!
# Command lines written down

A formula, a file, definitions and flags can be written as arguments in many ways: the options stand
anywhere, and an option with a value has a letter and a long name, with the value in the same
argument or in the next one. `Invocation.Written` are these ways. Whatever was written is read back
(`ofArguments?_of_written`), unless the rules drop the name of the file, so a command line does what
its invocation says (`execute_of_written`).
-/

namespace Reckoner.Command

/-! ## Writing -/

/-- The argument does not begin with a dash, so it names no option. -/
def Plain (arg : String) : Prop := arg.toList.head? ≠ some '-'

instance (arg : String) : Decidable (Plain arg) := inferInstanceAs (Decidable (_ ≠ _))

/-- How an option is written with its value: under its letter or its long name, with the value
behind it or in an argument of its own. -/
inductive Spelling
  | letterApart | letterAttached | longApart | longAttached

/-- The arguments for an option with a value. -/
def Spelling.arguments (choice : Choice) (letter : Char) (value : String) :
    Spelling → List String
  | letterApart => [String.ofList ['-', letter], value]
  | letterAttached => [String.ofList ('-' :: letter :: value.toList)]
  | longApart => ["--" ++ choice.longName, value]
  | longAttached => ["--" ++ choice.longName ++ "=" ++ value]

/-- The values that can be written so. Apart from its option a value may not look like another
option; attached to a letter it may not be empty, nor begin with an equals sign. -/
def Spelling.Fits (value : String) : Spelling → Prop
  | letterApart | longApart => Plain value
  | letterAttached => ∃ c ∈ value.toList.head?, c ≠ '='
  | longAttached => True

/-- The arguments write the item. -/
inductive Item.Written : Item → List String → Prop
  | operand {s} : Plain s → Written (.operand s) [s]
  | file {name} (spelling : Spelling) : spelling.Fits name →
      Written (.file name) (spelling.arguments .file 'f' name)
  | define {arg d} (spelling : Spelling) : Definition.read? arg = some d →
      Written (.define d) (spelling.arguments .define 'D' arg)
  | debug : Written .debug ["--debug"]
  | emitTree : Written .emitTree ["--emit-ast"]

/-- The arguments write the items one after the other. -/
inductive WriteAll : List Item → List String → Prop
  | nil : WriteAll [] []
  | cons {item args items more} : item.Written args → WriteAll items more →
      WriteAll (item :: items) (args ++ more)

def Source.operands : Source → List String
  | .text s => [s]
  | .file _ => []

def Source.files : Source → List String
  | .text _ => []
  | .file name => [name]

/-- The items name the source once, all definitions in their order, and the flags that are set, as
often as one likes. -/
structure Invocation.MadeOf (inv : Invocation) (items : List Item) : Prop where
  operands : items.filterMap Item.operand? = inv.source.operands
  files : items.filterMap Item.file? = inv.source.files
  definitions : items.filterMap Item.definition? = inv.definitions
  debug : items.any Item.isDebug = inv.debug
  emitTree : items.any Item.isEmitTree = inv.emitTree

/-- The arguments write the invocation, with its parts in any order. -/
def Invocation.Written (inv : Invocation) (argv : List String) : Prop :=
  ∃ items, WriteAll items argv ∧ inv.MadeOf items

/-- The rules drop nothing of the source, wherever it is attached to an option. -/
def Rules.Keeps (rules : Rules) (source : Source) : Prop :=
  rules.dropsDashes = true → source ≠ .file "--"

theorem Rules.keeps_text (rules : Rules) (s : String) : rules.Keeps (.text s) := fun _ => nofun

/-! ## Single arguments -/

section

variable {arg value : String}

theorem ofArgument_of_plain (plain : Plain arg) : Piece.ofArgument arg = .operand arg := by
  rw [Plain] at plain
  rw [Piece.ofArgument]
  split <;> simp_all

/-- The two options that take values, with their letters. -/
def Valued (choice : Choice) (letter : Char) : Prop :=
  choice = .file ∧ letter = 'f' ∨ choice = .define ∧ letter = 'D'

variable {choice : Choice} {letter : Char}

theorem ofArgument_letter (valued : Valued choice letter) :
    Piece.ofArgument (String.ofList ['-', letter]) = .option choice none := by
  obtain ⟨rfl, rfl⟩ | ⟨rfl, rfl⟩ := valued <;> cbv

theorem ofArgument_long (valued : Valued choice letter) :
    Piece.ofArgument ("--" ++ choice.longName) = .option choice none := by
  obtain ⟨rfl, rfl⟩ | ⟨rfl, rfl⟩ := valued <;> cbv

theorem ofArgument_letterAttached (valued : Valued choice letter)
    (fits : Spelling.letterAttached.Fits value) :
    Piece.ofArgument (String.ofList ('-' :: letter :: value.toList)) =
      .option choice (some value) := by
  obtain ⟨c, first, other⟩ := fits
  obtain ⟨cs, hcs⟩ := List.head?_eq_some_iff.mp first
  have read : letterValue? value.toList = some value := by
    rw [hcs, letterValue?, if_neg other, ← hcs, String.ofList_toList]
  rw [Piece.ofArgument, String.toList_ofList]
  obtain ⟨rfl, rfl⟩ | ⟨rfl, rfl⟩ := valued
  · exact congrArg (Piece.option .file) read
  · exact congrArg (Piece.option .define) read

theorem ofArgument_longAttached (valued : Valued choice letter) :
    Piece.ofArgument ("--" ++ choice.longName ++ "=" ++ value) = .option choice (some value) := by
  have text : ("--" ++ choice.longName ++ "=" ++ value).toList =
      '-' :: '-' :: (choice.longName.toList ++ '=' :: value.toList) := by
    simp [String.toList_append]
  have noSign : '=' ∉ choice.longName.toList := by
    obtain ⟨rfl, -⟩ | ⟨rfl, -⟩ := valued <;> decide
  have named : Choice.beginning choice.longName.toList = [choice] := by
    obtain ⟨rfl, -⟩ | ⟨rfl, -⟩ := valued <;> rfl
  rw [Piece.ofArgument, text]
  simp only [takeWhile_ne_append noSign, named, longValue?, dropWhile_ne_append noSign,
    List.tail?_cons, Option.map_some, String.ofList_toList]

/-- An option with a value is read as such, or as the option alone and an operand behind it. -/
theorem map_ofArgument_arguments (valued : Valued choice letter) (spelling : Spelling)
    (fits : spelling.Fits value) :
    (spelling.arguments choice letter value).map Piece.ofArgument =
        [.option choice (some value)] ∨
      (spelling.arguments choice letter value).map Piece.ofArgument =
        [.option choice none, .operand value] := by
  cases spelling with
  | letterApart =>
      refine .inr ?_
      rw [Spelling.arguments, List.map_cons, List.map_singleton, ofArgument_letter valued,
        ofArgument_of_plain fits]
  | letterAttached =>
      refine .inl ?_
      rw [Spelling.arguments, List.map_singleton, ofArgument_letterAttached valued fits]
  | longApart =>
      refine .inr ?_
      rw [Spelling.arguments, List.map_cons, List.map_singleton, ofArgument_long valued,
        ofArgument_of_plain fits]
  | longAttached =>
      refine .inl ?_
      rw [Spelling.arguments, List.map_singleton, ofArgument_longAttached valued]

end

/-! ## Definitions as values -/

section

variable {arg : String} {d : Definition}

/-- In an accepted definition the first equals sign stands between a name, with blanks around it
perhaps, and a number. -/
theorem exists_parts_of_read? (h : Definition.read? arg = some d) :
    ∃ before after, arg.toList = before ++ '=' :: after ∧ '=' ∉ before ∧
      d.name = Text.strip (String.ofList before) ∧ IsName d.name ∧
      Number.read? (String.ofList after) = some d.value := by
  have split := List.takeWhile_append_dropWhile (p := fun c => decide (c ≠ '=')) (l := arg.toList)
  rw [Definition.read?] at h
  split at h
  · cases h
  · next sign after rest =>
      split at h
      · next isName =>
          obtain ⟨value, read, rfl⟩ := Option.map_eq_some_iff.mp h
          have first := head_dropWhile_eq_false (fun c => decide (c ≠ '=')) arg.toList sign
          rw [rest] at first split
          obtain rfl : sign = '=' := by simpa using first rfl
          obtain ⟨nonempty, letters⟩ := isName
          refine ⟨_, after, split.symm, not_mem_takeWhile_ne, ?_, ⟨?_, ?_⟩, read⟩
          · rw [Text.strip, String.toList_ofList]
          · rw [← String.ofList_nil, Ne, String.ofList_inj]
            exact nonempty
          · rw [String.toList_ofList]
            exact List.all_eq_true.mp letters
      · cases h

/-- Blanks and letters are neither dashes nor equals signs. -/
theorem ne_of_isBlank_or_isLetter {c : Char} (h : Text.isBlank c = true ∨ Text.isLetter c = true) :
    c ≠ '-' ∧ c ≠ '=' := by
  constructor
  · rintro rfl
    exact absurd h (by decide)
  · rintro rfl
    exact absurd h (by decide)

/-- An accepted definition begins with a blank or a letter. -/
theorem exists_head_of_read? (h : Definition.read? arg = some d) :
    ∃ c ∈ arg.toList.head?, Text.isBlank c = true ∨ Text.isLetter c = true := by
  obtain ⟨before, after, parts, -, name, ⟨nonempty, letters⟩, -⟩ := exists_parts_of_read? h
  rw [Text.strip, String.toList_ofList] at name
  rw [name, Ne, ← String.ofList_nil, String.ofList_inj] at nonempty
  rw [name, String.toList_ofList] at letters
  obtain ⟨front, back, around, blank, -⟩ := Text.exists_append_trimmed Text.isBlank before
  obtain ⟨c, more, inside⟩ := List.exists_cons_of_ne_nil nonempty
  rw [inside] at letters around
  rw [parts, around]
  cases front with
  | nil => exact ⟨c, rfl, .inr (letters c List.mem_cons_self)⟩
  | cons b front => exact ⟨b, rfl, .inl (List.all_eq_true.mp blank b List.mem_cons_self)⟩

/-- An accepted definition can be written in every way. -/
theorem fits_of_read? (h : Definition.read? arg = some d) (spelling : Spelling) :
    spelling.Fits arg := by
  obtain ⟨c, first, kind⟩ := exists_head_of_read? h
  obtain ⟨noDash, noSign⟩ := ne_of_isBlank_or_isLetter kind
  have plain : Plain arg := by
    rw [Plain, Option.mem_def.mp first]
    exact fun dash => noDash (Option.some.inj dash)
  cases spelling with
  | letterApart => exact plain
  | letterAttached => exact ⟨c, first, noSign⟩
  | longApart => exact plain
  | longAttached => trivial

end

/-! ## Reading back -/

/-- What one item was written as is read as that item, whatever follows. -/
theorem gather_of_written {rules : Rules} {item : Item} {args : List String}
    (h : item.Written args) (kept : rules.dropsDashes = true → item.file? ≠ some "--") :
    .ambiguous ∉ args.map Piece.ofArgument ∧
      ∀ more, gather rules (args.map Piece.ofArgument ++ more) =
        (gather rules more).map (item :: ·) := by
  cases h with
  | operand plain =>
      rw [List.map_singleton, ofArgument_of_plain plain]
      exact ⟨by simp, fun more => rfl⟩
  | @file name spelling fits =>
      have whole : rules.kept? name = some name :=
        Rules.kept?_of_ne fun drops dashes => kept drops (congrArg some dashes)
      rcases map_ofArgument_arguments (.inl ⟨rfl, rfl⟩) spelling fits with read | read
      · rw [read]
        refine ⟨by simp, fun more => ?_⟩
        rw [List.singleton_append, gather, whole, Option.getD_some]
      · rw [read]
        exact ⟨by simp, fun more => rfl⟩
  | @define arg d spelling accepted =>
      have defines : Item.ofDefinition? (some arg) = some (.define d) :=
        congrArg (Option.map Item.define) accepted
      rcases map_ofArgument_arguments (.inr ⟨rfl, rfl⟩) spelling (fits_of_read? accepted spelling)
        with read | read
      · have whole : rules.kept? arg = some arg := by
          refine Rules.kept?_of_ne fun _ dashes => ?_
          have none : Definition.read? "--" = none := rfl
          rw [dashes, none] at accepted
          cases accepted
        rw [read]
        refine ⟨by simp, fun more => ?_⟩
        rw [List.singleton_append, gather, whole, defines, Option.bind_some]
      · rw [read]
        refine ⟨by simp, fun more => ?_⟩
        rw [List.cons_append, List.singleton_append, gather, defines, Option.bind_some]
  | debug =>
      have read : ["--debug"].map Piece.ofArgument = [.option .debug none] := by cbv
      rw [read]
      exact ⟨by simp, fun more => rfl⟩
  | emitTree =>
      have read : ["--emit-ast"].map Piece.ofArgument = [.option .emitTree none] := by cbv
      rw [read]
      exact ⟨by simp, fun more => rfl⟩

theorem gather_of_writeAll {rules : Rules} {items : List Item} {argv : List String}
    (h : WriteAll items argv)
    (kept : rules.dropsDashes = true → "--" ∉ items.filterMap Item.file?) :
    .ambiguous ∉ argv.map Piece.ofArgument ∧
      gather rules (argv.map Piece.ofArgument) = some items := by
  induction h with
  | nil => exact ⟨by simp, rfl⟩
  | @cons item _ items _ written _ ih =>
      have first (drops : rules.dropsDashes = true) : item.file? ≠ some "--" := fun named =>
        kept drops (List.mem_filterMap.mpr ⟨item, List.mem_cons_self, named⟩)
      have others (drops : rules.dropsDashes = true) : "--" ∉ items.filterMap Item.file? :=
        fun mem => by
          obtain ⟨other, inside, named⟩ := List.mem_filterMap.mp mem
          exact kept drops (List.mem_filterMap.mpr ⟨other, List.mem_cons_of_mem _ inside, named⟩)
      obtain ⟨clear, read⟩ := gather_of_written written first
      obtain ⟨clearBehind, readBehind⟩ := ih others
      rw [List.map_append, List.mem_append, read, readBehind]
      exact ⟨fun mem => mem.elim clear clearBehind, rfl⟩

/-- Neither a request for help nor an unknown option is written, and every definition is there. -/
theorem WriteAll.any_eq_false {items : List Item} {argv : List String} (h : WriteAll items argv) :
    items.any Item.isHelp = false ∧ items.any Item.isUnknown = false ∧
      items.any Item.isDropped = false := by
  induction h with
  | nil => exact ⟨rfl, rfl, rfl⟩
  | cons written _ ih =>
      rw [List.any_cons, List.any_cons, List.any_cons, ih.1, ih.2.1, ih.2.2]
      cases written <;> exact ⟨rfl, rfl, rfl⟩

theorem Invocation.MadeOf.ofItems? {inv : Invocation} {items : List Item} (h : inv.MadeOf items) :
    Invocation.ofItems? items none = some inv := by
  obtain ⟨source, definitions, debug, emitTree⟩ := inv
  obtain ⟨operands, files, rfl, rfl, rfl⟩ := h
  dsimp only at operands files
  rw [Invocation.ofItems?, operands, files]
  cases source <;> rfl

/-- **What was written is read back.** -/
theorem ofArguments?_of_written {rules : Rules} {inv : Invocation} {argv : List String}
    (h : inv.Written argv) (kept : rules.Keeps inv.source) :
    Request.ofArguments? rules argv = some (.run inv) := by
  obtain ⟨items, written, madeOf⟩ := h
  have named (drops : rules.dropsDashes = true) : "--" ∉ items.filterMap Item.file? := by
    have other := kept drops
    rw [madeOf.files]
    cases source : inv.source with
    | text s => exact List.not_mem_nil
    | file name =>
        rw [source] at other
        exact fun mem => other (congrArg Source.file (List.mem_singleton.mp mem).symm)
  obtain ⟨clear, read⟩ := gather_of_writeAll written named
  obtain ⟨noHelp, noUnknown, noDropped⟩ := written.any_eq_false
  -- a double dash abbreviates every long name, so it is not among the arguments
  have noDashes : ∀ arg ∈ argv, decide (arg ≠ "--") = true := by
    intro arg mem
    rw [decide_eq_true_eq]
    rintro rfl
    have ambiguous : Piece.ofArgument "--" = .ambiguous := by cbv
    exact clear (ambiguous ▸ List.mem_map_of_mem mem)
  rw [Request.ofArguments?, List.takeWhile_eq_self_iff.mpr noDashes,
    List.dropWhile_eq_nil_iff.mpr noDashes, if_neg clear, read, Option.bind_some,
    Request.ofItems?, noHelp, noUnknown, noDropped, List.tail?_nil, madeOf.ofItems?]
  rfl

/-- **A command line does what its invocation says.** -/
theorem execute_of_written {rules : Rules} {inv : Invocation} {argv : List String}
    (h : inv.Written argv) (kept : rules.Keeps inv.source) (find : String → Found) :
    execute argv find rules = inv.perform find := by
  rw [execute, ofArguments?_of_written h kept]

end Reckoner.Command
