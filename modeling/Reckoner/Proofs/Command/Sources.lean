import Reckoner.Proofs.Command.Outcomes
import Reckoner.Proofs.Command.Writing
import Reckoner.Proofs.Parser.Blanks

/-!
# Files and arguments

A formula is handed to the command in a file or as an argument, to be shown or to be evaluated. The
text alone counts (`perform_of_text?`): that of a file is its content with one kind of line end and
without the blanks around it. Showing and evaluating begin with the same parse, so one shows the
tree that the other evaluates, and both fail with the same fault (`performText_of_ok`,
`performText_of_error`).
-/

namespace Reckoner.Command

/-! ## From the tree on -/

/-- The evaluation of the tree of a text, with definitions around it. -/
def treeEvaluation (ds : List Definition) (debug : Bool) (source : String) (e : Expr) :
    Reckoner.Outcome Empty Unit :=
  let (id, scopes) := definedScopes ds
  Run.outcome (do
    Run.report debug (.parsing source)
    Run.report debug (.root e.shape)
    Run.report debug .evaluation
    let value ← evaluate noHost debug (Context.ofScope (some id)).underBuiltins e
    Run.report debug (.result value)
    pure value) ⟨scopes, ()⟩

/-- How the command ends with an evaluation. -/
def Outcome.ofEvaluation (o : Reckoner.Outcome Empty Unit) : Outcome :=
  match o.result with
  | .ok x => .finished 0 (Number.text x ++ "\n") (traceText o.trace)
  | .error f => .finished 1 "" (traceText o.trace ++ f.message ++ "\n")

/-- What is reported of a text that has no tree. -/
def unparsed (debug : Bool) (source : String) : List TraceLine :=
  if debug then [.parsing source] else []

section

variable {source : String}

theorem performText_of_ok {e : Expr} (parsed : parse source = .ok e) (inv : Invocation) :
    performText inv source =
      if inv.emitTree then .finished 0 (e.dump ++ "\n") ""
      else .ofEvaluation (treeEvaluation inv.definitions inv.debug source e) := by
  have evaluated : evaluation inv.definitions inv.debug source =
      treeEvaluation inv.definitions inv.debug source e :=
    congrArg (Run.outcome · _) (evaluateText_of_ok noHost inv.debug _ parsed)
  rw [performText, parsed, evaluated]
  rfl

theorem performText_of_error {f : SourceFault} (failed : parse source = .error f)
    (inv : Invocation) :
    performText inv source =
      if inv.emitTree then .finished 1 "" (f.message ++ "\n")
      else .finished 1 "" (traceText (unparsed inv.debug source) ++ f.message ++ "\n") := by
  have evaluated : evaluation inv.definitions inv.debug source =
      Run.outcome (do Run.report inv.debug (.parsing source); throw (.source f)) _ :=
    congrArg (Run.outcome · _) (evaluateText_of_error noHost inv.debug _ failed)
  rw [performText, failed, evaluated]
  cases inv.debug <;> rfl

end

/-! ## The text of a source -/

/-- **Nothing but the text counts**, wherever it comes from. -/
theorem perform_of_text? {inv : Invocation} {find : String → Found} {s : String}
    (named : inv.source ≠ .file "") (text : inv.text? find = some s) :
    inv.perform find = performText inv s := by
  obtain ⟨source, ds, debug, emitTree⟩ := inv
  cases source with
  | text t => exact congrArg (performText _) (Option.some.inj text)
  | file name =>
      have given : name ≠ "" := fun unnamed => named (congrArg _ unnamed)
      rw [Invocation.text?] at text
      rw [perform_of_named given]
      dsimp only at text
      cases found : find name with
      | text content =>
          rw [found] at text
          exact congrArg (performText _) (Option.some.inj text)
      | missing =>
          rw [found] at text
          cases text
      | blocked why =>
          rw [found] at text
          cases text

/-- The text of a file is a stretch of its content, with one kind of line end. Blanks only stand
around it, and all of them. -/
theorem exists_around_fileText (content : String) :
    ∃ before after, Text.unifiedLineEnds content.toList =
        before ++ (fileText content).toList ++ after ∧
      before.all Text.isBlank = true ∧ after.all Text.isBlank = true ∧
      (∀ c ∈ (fileText content).toList.head?, Text.isBlank c = false) ∧
      ∀ c ∈ (fileText content).toList.getLast?, Text.isBlank c = false := by
  rw [fileText, Text.strip, String.toList_ofList, String.toList_ofList]
  obtain ⟨before, after, around, blankBefore, blankAfter⟩ :=
    Text.exists_append_trimmed Text.isBlank (Text.unifiedLineEnds content.toList)
  exact ⟨before, after, around, blankBefore, blankAfter, Text.ends_trimmed _ _⟩

/-- **All ways to hand over a text agree.** A command does the same with a file as with the text of
the file as an argument. If a text has a tree, that tree is shown, or it is evaluated; if not, the
fault is reported in both cases, behind what tracing shows of the text. Blanks are taken away from
the ends of a file only. Inside, one that is no space is a fault at its offset in the text. Both
commands meet it if the parser takes all tokens in front of it, and otherwise do with the text as
they do with the part in front. -/
theorem sources_agree :
    (∀ rules name content find, name ≠ "" → rules.Keeps (.file name) → find name = .text content →
      ∀ ds debug emitTree argv argv',
      Invocation.Written ⟨.file name, ds, debug, emitTree⟩ argv →
      Invocation.Written ⟨.text (fileText content), ds, debug, emitTree⟩ argv' →
        execute argv find rules = execute argv' find rules) ∧
    (∀ rules source ds debug find s, source ≠ .file "" → rules.Keeps source →
      Invocation.text? ⟨source, ds, debug, false⟩ find = some s → ∀ argv argv',
      Invocation.Written ⟨source, ds, debug, true⟩ argv →
      Invocation.Written ⟨source, ds, debug, false⟩ argv' →
        (∀ e, parse s = .ok e → execute argv find rules = .finished 0 (e.dump ++ "\n") "" ∧
          execute argv' find rules = .ofEvaluation (treeEvaluation ds debug s e)) ∧
        ∀ f, parse s = .error f → execute argv find rules = .finished 1 "" (f.message ++ "\n") ∧
          execute argv' find rules =
            .finished 1 "" (traceText (unparsed debug s) ++ f.message ++ "\n")) ∧
    ∀ content, (∃ before after, Text.unifiedLineEnds content.toList =
          before ++ (fileText content).toList ++ after ∧
        before.all Text.isBlank = true ∧ after.all Text.isBlank = true ∧
        (∀ c ∈ (fileText content).toList.head?, Text.isBlank c = false) ∧
        ∀ c ∈ (fileText content).toList.getLast?, Text.isBlank c = false) ∧
      ∀ front c behind ts, (fileText content).toList = front.toList ++ c :: behind →
        Text.isBlank c = true → c ≠ ' ' → tokenize front = .ok ts →
          tokenize (fileText content) = .error ⟨.unknownCharacter c, front.length⟩ ∧
          (consumed front = ts →
            parse (fileText content) = .error (.lexical ⟨.unknownCharacter c, front.length⟩)) ∧
          (consumed front ≠ ts → parse (fileText content) = parse front) := by
  refine ⟨?_, ?_, fun content => ⟨exists_around_fileText content, ?_⟩⟩
  · intro rules name content find given kept found ds debug emitTree argv argv' file argument
    rw [execute_of_written file kept, execute_of_written argument (rules.keeps_text _),
      perform_of_text? (by simpa using given) (text?_of_file found ds debug emitTree)]
    rfl
  · intro rules source ds debug find s named kept text argv argv' shows evaluates
    have same (emitTree : Bool) : Invocation.perform ⟨source, ds, debug, emitTree⟩ find =
        performText ⟨source, ds, debug, emitTree⟩ s := perform_of_text? named text
    rw [execute_of_written shows kept, execute_of_written evaluates kept, same, same]
    refine ⟨fun e parsed => ?_, fun f failed => ?_⟩
    · rw [performText_of_ok parsed, performText_of_ok parsed]
      exact ⟨rfl, rfl⟩
    · rw [performText_of_error failed, performText_of_error failed]
      exact ⟨rfl, rfl⟩
  · intro front c behind ts inside blank other read
    rw [← String.ofList_toList (s := front)] at read ⊢
    have breaks : BreaksAt (String.ofList (front.toList ++ c :: behind)) front.toList (c :: behind)
        ⟨.unknownCharacter c, front.toList.length⟩ := breaksAt_of_isBlank blank other read
    rw [← inside, String.ofList_toList] at breaks
    rw [String.length_ofList]
    exact ⟨breaks.tokenize_eq, parse_of_breaksAt breaks read⟩

set_option maxRecDepth 1000 in
/-- A wide space inside of a file is met, whatever the file ends with. -/
theorem sources_agree_wideSpace :
    let find := (Folder.ofPaths [("a.fx", "\t x +\u00a01\r\n")]).find
    let fault : SourceFault := .lexical ⟨.unknownCharacter '\u00a0', 3⟩
    execute ["--debug", "-fa.fx"] find = execute ["x +\u00a01", "--debug"] find ∧
      execute ["-f", "a.fx", "--emit-ast"] find = .finished 1 "" (fault.message ++ "\n") ∧
      execute ["-f", "a.fx"] find = .finished 1 "" (fault.message ++ "\n") ∧
      fault.message = "[LexerError] Position 3: Unknown character: '\\xa0'" := by
  intro find fault
  have text : fileText "\t x +\u00a01\r\n" = "x +\u00a01" := by cbv
  have found : find "a.fx" = .text "\t x +\u00a01\r\n" := by cbv
  have front : tokenize "x +" = .ok [⟨.word "x", 0⟩, ⟨.symbol .plus, 2⟩] := by cbv
  have all : consumed "x +" = [⟨.word "x", 0⟩, ⟨.symbol .plus, 2⟩] := by cbv
  obtain ⟨agree, ends, inside⟩ := sources_agree
  obtain ⟨-, met, -⟩ := (inside "\t x +\u00a01\r\n").2 "x +" '\u00a0' ['1'] _ (by rw [text]; rfl)
    (by decide) (by decide) front
  rw [text] at met
  have asked : Invocation.text? ⟨.file "a.fx", [], false, false⟩ find = some "x +\u00a01" := by
    rw [← text]
    exact text?_of_file found [] false false
  have plain : Plain "a.fx" := by decide
  have traced : Invocation.Written ⟨.file "a.fx", [], true, false⟩ ["--debug", "-fa.fx"] :=
    ⟨[.debug, .file "a.fx"], .cons .debug (.cons (.file .letterAttached ⟨'a', rfl, by decide⟩)
      .nil), rfl, rfl, rfl, rfl, rfl⟩
  have argument : Invocation.Written ⟨.text "x +\u00a01", [], true, false⟩
      ["x +\u00a01", "--debug"] :=
    ⟨[.operand _, .debug], .cons (.operand (by decide)) (.cons .debug .nil),
      rfl, rfl, rfl, rfl, rfl⟩
  have shows : Invocation.Written ⟨.file "a.fx", [], false, true⟩ ["-f", "a.fx", "--emit-ast"] :=
    ⟨[.file "a.fx", .emitTree], .cons (.file .letterApart plain) (.cons .emitTree .nil),
      rfl, rfl, rfl, rfl, rfl⟩
  have evaluates : Invocation.Written ⟨.file "a.fx", [], false, false⟩ ["-f", "a.fx"] :=
    ⟨[.file "a.fx"], .cons (.file .letterApart plain) .nil, rfl, rfl, rfl, rfl, rfl⟩
  rw [← text] at argument
  have kept : Rules.earlier.Keeps (.file "a.fx") := fun _ => by decide
  have reported := (ends _ _ [] false find _ (by decide) kept asked _ _ shows evaluates).2 _
    (met all)
  have silent : traceText (unparsed false "x +\u00a01") = "" := rfl
  rw [silent, String.empty_append] at reported
  refine ⟨?_, reported.1, reported.2, by decide +kernel⟩
  exact agree _ "a.fx" _ find (by decide) kept found [] true false _ _ traced argument

set_option maxRecDepth 1000 in
/-- A tab behind the end of the expression is not met. The text cannot be read to its end, but its
tree is shown. -/
theorem emitTree_tabBehindEnd :
    fileText "x )\ty" = "x )\ty" ∧
      tokenize "x )" = .ok [⟨.word "x", 0⟩, ⟨.symbol .rparen, 2⟩] ∧
      tokenize "x )\ty" = .error ⟨.unknownCharacter '\t', 3⟩ ∧
      execute ["--emit-ast", "-f", "a.fx"] (Folder.ofPaths [("a.fx", "x )\ty")]).find =
        .finished 0 ((Expr.identifier "x").dump ++ "\n") "" := by
  have text : fileText "x )\ty" = "x )\ty" := by cbv
  refine ⟨text, by cbv, by cbv, ?_⟩
  have found : (Folder.ofPaths [("a.fx", "x )\ty")]).find "a.fx" = .text "x )\ty" := by cbv
  have parsed : parse "x )\ty" = .ok (.identifier "x") := by cbv
  have written : Invocation.Written ⟨.file "a.fx", [], false, true⟩ ["--emit-ast", "-f", "a.fx"] :=
    ⟨[.emitTree, .file "a.fx"],
      .cons .emitTree (.cons (.file .letterApart (show Plain "a.fx" by decide)) .nil),
      rfl, rfl, rfl, rfl, rfl⟩
  have asked : Invocation.text? ⟨.file "a.fx", [], false, true⟩
      (Folder.ofPaths [("a.fx", "x )\ty")]).find = some "x )\ty" := by
    rw [← text]
    exact text?_of_file found [] false true
  rw [execute_of_written written fun _ => by decide, perform_of_text? (by simp) asked,
    performText_of_ok parsed]
  rfl

end Reckoner.Command
