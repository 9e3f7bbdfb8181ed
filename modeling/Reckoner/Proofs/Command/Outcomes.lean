import Reckoner.Command
import Reckoner.Proofs.Command.Messages
import Reckoner.Proofs.Command.Paths
import Reckoner.Proofs.Command.Rules

/-!
# How the command ends

Arguments are rejected, ask for help, or name a formula. A formula has a text, unless it is that of
a file which does not exist. What the command does then is one of five things (`Invocation.Ends`):
it prints the value or the tree of the text, or it reports on one line what is wrong with the text
or that there is no file. Reports of the evaluation stand in front of that line, and only if they
were asked for.

Where something stands in the way of the file (`Invocation.obstacle?`), the command breaks off, and
nothing is reported. That is so if the file has an empty name, a name that no entry of a folder can
have, or a path that ends in a folder or goes on behind a file.
-/

namespace Reckoner.Command

open Text

/-! ## Texts and reports -/

/-- The text of the formula, if there is one. -/
def Invocation.text? (inv : Invocation) (find : String → Found) : Option String :=
  match inv.source with
  | .text s => some s
  | .file name =>
      match find name with
      | .text content => some (fileText content)
      | .missing | .blocked _ => none

theorem text?_of_file {name content : String} {find : String → Found}
    (found : find name = .text content) (ds : List Definition) (debug emitTree : Bool) :
    Invocation.text? ⟨.file name, ds, debug, emitTree⟩ find = some (fileText content) := by
  rw [Invocation.text?]
  dsimp only
  rw [found]

/-- What stands in the way of the formula. A file with the empty name is not looked for. -/
def Invocation.obstacle? (inv : Invocation) (find : String → Found) : Option Obstacle :=
  match inv.source with
  | .text _ => none
  | .file name =>
      if name = "" then some .unnamed
      else
        match find name with
        | .text _ | .missing => none
        | .blocked why => some why

/-- Reports one under the other, each with the mark of the command in front. -/
def reportText (reports : List String) : String :=
  String.join (reports.map fun report => "[formula] " ++ report ++ "\n")

/-- Reports are on one line each, and there are none unless they were asked for. -/
structure Reports (debug : Bool) (reports : List String) : Prop where
  onOneLine : ∀ report ∈ reports, OnOneLine report
  asked : debug = false → reports = []

theorem exists_reports_of_lines (lines : List TraceLine) :
    ∃ reports, traceText lines = reportText reports ∧ ∀ report ∈ reports, OnOneLine report := by
  induction lines with
  | nil => exact ⟨[], rfl, by simp⟩
  | cons line more ih =>
      obtain ⟨reports, same, each⟩ := ih
      obtain ⟨report, marked, onOneLine⟩ := line.exists_text
      refine ⟨report :: reports, ?_, List.forall_mem_cons.mpr ⟨onOneLine, each⟩⟩
      rw [traceText, reportText] at same ⊢
      rw [List.map_cons, List.map_cons, String.join_cons, String.join_cons, same, marked]

/-- An evaluation of the command is a run of the evaluator, in a world with the definitions. -/
theorem exists_run (ds : List Definition) (debug : Bool) (source : String) :
    ∃ c w, evaluation ds debug source = (evaluateText noHost debug c source).outcome w :=
  ⟨_, _, rfl⟩

/-- **The trace of an evaluation is made of reports.** -/
theorem exists_reports (ds : List Definition) (debug : Bool) (source : String) :
    ∃ reports, traceText (evaluation ds debug source).trace = reportText reports ∧
      Reports debug reports := by
  obtain ⟨c, w, run⟩ := exists_run ds debug source
  cases debug with
  | true =>
      obtain ⟨reports, same, each⟩ := exists_reports_of_lines (evaluation ds true source).trace
      exact ⟨reports, same, each, fun h => nomatch h⟩
  | false =>
      have printed := evaluateText_prints noHost false c source ⟨w, []⟩
      have silent : (evaluation ds false source).trace = [] := by
        rw [run]
        exact List.map_eq_nil_iff.mp printed
      exact ⟨[], by rw [silent]; rfl, by simp, fun _ => rfl⟩

theorem onOneLine_of_evaluation {ds : List Definition} {debug : Bool} {source : String}
    {f : Failure} (h : (evaluation ds debug source).result = .error f) : OnOneLine f.message := by
  obtain ⟨c, w, run⟩ := exists_run ds debug source
  rw [run] at h
  exact (evaluateText_failsFromText noHost debug c source ⟨w, []⟩ f h).onOneLine

/-! ## Endings -/

/-- What the command does with a formula, and how it ends: the code, what goes to the output, and
what goes to the error output. -/
inductive Invocation.Ends (inv : Invocation) (find : String → Found) : Outcome → Prop
  | value {s : String} {x : Float} {reports : List String} : inv.text? find = some s →
      inv.emitTree = false → (evaluation inv.definitions inv.debug s).result = .ok x →
      Reports inv.debug reports →
      Ends inv find (.finished 0 (Number.text x ++ "\n") (reportText reports))
  | tree {s : String} {e : Expr} : inv.text? find = some s → inv.emitTree = true →
      parse s = .ok e → Ends inv find (.finished 0 (e.dump ++ "\n") "")
  | failure {s : String} {f : Failure} {reports : List String} : inv.text? find = some s →
      inv.emitTree = false → (evaluation inv.definitions inv.debug s).result = .error f →
      Reports inv.debug reports → OnOneLine f.message →
      Ends inv find (.finished 1 "" (reportText reports ++ f.message ++ "\n"))
  | fault {s : String} {f : SourceFault} : inv.text? find = some s → inv.emitTree = true →
      parse s = .error f → OnOneLine f.message →
      Ends inv find (.finished 1 "" (f.message ++ "\n"))
  | missing {name : String} : inv.source = .file name → find name = .missing →
      OnOneLine (quoted name) →
      Ends inv find (.finished 1 ""
        ("[formula] Error: Input file not found: " ++ quoted name ++ "\n"))

section

variable {inv : Invocation} {find : String → Found}

theorem ends_performText {s : String} (h : inv.text? find = some s) :
    inv.Ends find (performText inv s) := by
  rw [performText]
  cases tree : inv.emitTree with
  | true =>
      rw [if_pos rfl]
      split
      · next e parsed => exact .tree h tree parsed
      · next f failed => exact .fault h tree failed f.onOneLine_message
  | false =>
      obtain ⟨reports, same, proper⟩ := exists_reports inv.definitions inv.debug s
      rw [if_neg (by decide)]
      dsimp only
      rw [same]
      split
      · next x value => exact .value h tree value proper
      · next f failed => exact .failure h tree failed proper (onOneLine_of_evaluation failed)

section

variable {name : String} (named : name ≠ "") (ds : List Definition) (debug emitTree : Bool)

include named

/-- What becomes of a file with a name is up to what the name leads to. -/
theorem perform_of_named :
    Invocation.perform ⟨.file name, ds, debug, emitTree⟩ find =
      match find name with
      | .text content => performText ⟨.file name, ds, debug, emitTree⟩ (fileText content)
      | .missing =>
          .finished 1 "" ("[formula] Error: Input file not found: " ++ quoted name ++ "\n")
      | .blocked why => .aborted why := by
  rw [Invocation.perform]
  exact if_neg named

theorem obstacle?_of_named :
    Invocation.obstacle? ⟨.file name, ds, debug, emitTree⟩ find =
      match find name with
      | .text _ | .missing => none
      | .blocked why => some why := by
  rw [Invocation.obstacle?]
  exact if_neg named

end

/-- With an obstacle in the way, the command breaks off. -/
theorem perform_of_obstacle {why : Obstacle} (blocked : inv.obstacle? find = some why) :
    inv.perform find = .aborted why := by
  obtain ⟨source, ds, debug, emitTree⟩ := inv
  cases source with
  | text s => cases blocked
  | file name =>
      by_cases unnamed : name = ""
      · subst unnamed
        exact congrArg Outcome.aborted (Option.some.inj blocked)
      · rw [obstacle?_of_named unnamed] at blocked
        rw [perform_of_named unnamed]
        cases found : find name with
        | text content => simp [found] at blocked
        | missing => simp [found] at blocked
        | blocked other => simpa [found] using blocked

/-- **With nothing in the way, the command ends in one of five ways.** -/
theorem ends_perform (clear : inv.obstacle? find = none) : inv.Ends find (inv.perform find) := by
  obtain ⟨source, ds, debug, emitTree⟩ := inv
  cases source with
  | text s => exact ends_performText rfl
  | file name =>
      by_cases unnamed : name = ""
      · subst unnamed
        cases clear
      · rw [obstacle?_of_named unnamed] at clear
        rw [perform_of_named unnamed]
        cases found : find name with
        | text content => exact ends_performText (text?_of_file found ds debug emitTree)
        | missing => exact .missing rfl found (onOneLine_quoted name)
        | blocked why => simp [found] at clear

/-- **What stands in the way in a folder of files**: nothing does if and only if an entry of the
folder can have the name. -/
theorem obstacle?_eq_none_iff {folder : Folder} (flat : folder.Flat) {name : String}
    (noSlash : '/' ∉ name.toList) (ds : List Definition) (debug emitTree : Bool) :
    Invocation.obstacle? ⟨.file name, ds, debug, emitTree⟩ folder.find = none ↔
      IsEntryName name := by
  by_cases unnamed : name = ""
  · subst unnamed
    exact ⟨nofun, fun entry => absurd rfl entry.nonempty⟩
  · rw [obstacle?_of_named unnamed, ← not_iff_not, ← flat.exists_blocked_iff unnamed noSlash]
    cases folder.find name with
    | text content => simp
    | missing => simp
    | blocked why => simp

/-- Whether the formula has a text, and the text is that of a tree. -/
def Invocation.parses (inv : Invocation) (find : String → Found) : Bool :=
  match inv.text? find with
  | some s => (parse s).isOk
  | none => false

theorem Invocation.parses_of_text {s : String} (h : inv.text? find = some s) :
    inv.parses find = (parse s).isOk := by
  rw [parses, h]

theorem Invocation.parses_of_missing {name : String} (source : inv.source = .file name)
    (missing : find name = .missing) : inv.parses find = false := by
  have noText : inv.text? find = none := by
    rw [text?, source]
    dsimp only
    rw [missing]
  rw [parses, noText]

/-- The code that the command ends with, if it ends by itself. -/
def Outcome.code? : Outcome → Option Nat
  | .finished code _ _ => some code
  | .rejected | .helped | .aborted _ => none

/-- For a tree to be shown nothing counts but the text. -/
theorem Invocation.Ends.code?_eq {outcome : Outcome} (h : inv.Ends find outcome)
    (tree : inv.emitTree = true) :
    outcome.code? = some (if inv.parses find then 0 else 1) := by
  cases h with
  | value _ noTree =>
      rw [tree] at noTree
      cases noTree
  | tree text _ parsed =>
      rw [parses_of_text text, parsed]
      rfl
  | failure _ noTree =>
      rw [tree] at noTree
      cases noTree
  | fault text _ failed =>
      rw [parses_of_text text, failed]
      rfl
  | missing source missing =>
      rw [parses_of_missing source missing]
      rfl

end

/-- **How the command ends.** Rejected arguments and requests for help have no effect. Otherwise the
command ends in one of five ways, unless something is in the way of the file: then it breaks off.
Whether a tree can be shown does not depend on definitions or on tracing. Some rules accept a
definition of which nothing is left, and the command breaks off there too.

In a folder of files nothing is in the way of a name if an entry of the folder can have it: then it
leads to the file with that name, or is missing. Something is in the way of all other names. -/
theorem execute_outcomes (rules : Rules) (argv : List String) :
    (∀ find, match Request.ofArguments? rules argv with
      | none => execute argv find rules = .rejected
      | some .help => execute argv find rules = .helped
      | some .dropped => execute argv find rules = .aborted .nul ∧ rules.dropsDashes = true ∧
          ∃ arg ∈ argv, Piece.ofArgument arg = .option .define (some "--")
      | some (.run inv) =>
          match inv.obstacle? find with
          | some why => execute argv find rules = .aborted why
          | none =>
              inv.Ends find (execute argv find rules) ∧
                (inv.emitTree = true →
                  (execute argv find rules).code? = some (if inv.parses find then 0 else 1))) ∧
    ∀ contents : List (String × String), (∀ file ∈ contents, IsEntryName file.1) → ∀ name,
      (IsEntryName name → (Folder.ofPaths contents).find name =
        match contents.lookup name with
        | some content => .text content
        | none => .missing) ∧
      ('/' ∉ name.toList → ∀ ds debug emitTree,
        (Invocation.obstacle? ⟨.file name, ds, debug, emitTree⟩ (Folder.ofPaths contents).find =
          none ↔ IsEntryName name)) := by
  refine ⟨fun find => ?_, fun contents proper name => ⟨Folder.find_ofPaths proper,
    obstacle?_eq_none_iff (Folder.flat_ofPaths proper)⟩⟩
  rw [execute]
  match request : Request.ofArguments? rules argv with
  | none => rfl
  | some .help => rfl
  | some .dropped => exact ⟨rfl, attached_of_ofArguments? request⟩
  | some (.run inv) =>
      dsimp only
      split
      · next why blocked => exact perform_of_obstacle blocked
      · next clear =>
          have ends : inv.Ends find (inv.perform find) := ends_perform clear
          exact ⟨ends, ends.code?_eq⟩

/-- A file without a name is not there, and there is none behind a file either, but neither is
reported as missing: the arguments are accepted, and the command breaks off. -/
theorem execute_breaksOff :
    (Folder.ofPaths [("a.fx", "1")]).find "" = .missing ∧
      (Request.ofArguments? .earlier ["-f", ""]).isSome = true ∧
      (Request.ofArguments? .later ["-f", ""]).isSome = true ∧
      execute ["-f", ""] (Folder.ofPaths [("a.fx", "1")]).find .earlier = .aborted .unnamed ∧
      execute ["-f", ""] (Folder.ofPaths [("a.fx", "1")]).find .later = .aborted .unnamed ∧
      execute ["-f", "a.fx/"] (Folder.ofPaths [("a.fx", "1")]).find .later =
        .aborted .throughFile := by
  refine ⟨?_, ?_, ?_, ?_, ?_, ?_⟩
  · cbv
  · cbv
  · cbv
  · cbv
  · cbv
  · cbv

end Reckoner.Command
