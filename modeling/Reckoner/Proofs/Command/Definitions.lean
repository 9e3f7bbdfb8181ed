import Reckoner.Proofs.Command.Writing
import Reckoner.Proofs.Evaluate.TraceAgreement
import Reckoner.Proofs.Lexer.Pulling
import Reckoner.Proofs.Parser.Exact

/-!
# Definitions are usable

The name of an accepted definition is a single word of a formula, because both ask for letters and
nothing else. The definitions of a command line stand in one scope, where a name has the value of
its last definition (`lookup?_definedScopes`). An evaluation sees nothing else of them, so neither
their spelling nor the order of definitions of different names matters (`performText_congr`).
-/

namespace Reckoner

/-! ## Names as formulas -/

/-- A well-formed lexeme that stands alone is read as one token. -/
theorem tokenize_spelling {x : Lexeme} (wf : x.WellFormed) :
    tokenize (String.ofList x.spelling) = .ok [⟨x, 0⟩] := by
  have readable : Readable [⟨0, x⟩] := ⟨by simpa using wf, by simp⟩
  have tokens := tokenize_flatMap_text readable
  have text : [(⟨0, x⟩ : Piece)].flatMap Piece.text = x.spelling := by simp [Piece.text]
  rwa [text] at tokens

section

variable {name : String}

theorem tokenize_name (isName : IsName name) : tokenize name = .ok [⟨.word name, 0⟩] := by
  have tokens := tokenize_spelling (x := .word name) isName
  rwa [Lexeme.spelling, String.ofList_toList] at tokens

theorem tokenize_quotedName (isName : IsName name) :
    tokenize ("\"" ++ name ++ "\"") = .ok [⟨.quoted name, 0⟩] := by
  have noQuote : (Lexeme.quoted name).WellFormed := by
    intro mem
    have letter := isName.2 _ mem
    revert letter
    decide
  have text : String.ofList (Lexeme.quoted name).spelling = "\"" ++ name ++ "\"" := by
    rw [← String.toList_inj]
    simp [Lexeme.spelling]
  rw [← text]
  exact tokenize_spelling noQuote

theorem parse_name (isName : IsName name) : parse name = .ok (.identifier name) :=
  (parse_of_derives (tokenize_name isName) ((Grammar.Derives.word name).loosen (by decide))).1

theorem parse_quotedName (isName : IsName name) :
    parse ("\"" ++ name ++ "\"") = .ok (.quoted name) :=
  (parse_of_derives (tokenize_quotedName isName)
    ((Grammar.Derives.quoted name).loosen (by decide))).1

variable {φ ω : Type} {c : Context φ} {s : Session φ ω} {x : Float}

/-- A name that stands for a number has its value, also under more built-in names. -/
theorem evaluateText_name (isName : IsName name)
    (bound : c.underBuiltins.lookup? s.world.scopes name = some (.number x)) (host : Host φ ω)
    (debug : Bool) : ((evaluateText host debug c name).on s).1 = .ok x := by
  rw [(evaluateText_alike host debug c (parse_name isName) s s rfl).1, evaluate, Run.on_bind,
    Run.on_resolve, bound]
  rfl

theorem evaluateText_quotedName (isName : IsName name)
    (bound : c.underBuiltins.lookup? s.world.scopes name = some (.number x)) (host : Host φ ω)
    (debug : Bool) :
    ((evaluateText host debug c ("\"" ++ name ++ "\"")).on s).1 = .ok x := by
  rw [(evaluateText_alike host debug c (parse_quotedName isName) s s rfl).1, evaluate]
  refine evaluateText_name isName ?_ host debug
  rw [← bound]
  exact c.agrees_underBuiltins_twice s.world s.world name rfl

end

end Reckoner

namespace Reckoner.Command

/-! ## The scope of the definitions -/

/-- The value of a name in its last definition. -/
def lastValue? (ds : List Definition) (name : String) : Option Float :=
  ((ds.filter (·.name = name)).getLast?).map Definition.value

section

variable {ds ds' : List Definition} {name : String}

theorem lastValue?_concat (ds : List Definition) (d : Definition) (name : String) :
    lastValue? (ds ++ [d]) name = if name = d.name then some d.value else lastValue? ds name := by
  rw [lastValue?, List.filter_append]
  by_cases same : name = d.name
  · subst same
    simp
  · simp [same, Ne.symm same, lastValue?]

theorem definedScopes_concat (ds : List Definition) (d : Definition) :
    (definedScopes (ds ++ [d])).2 = (definedScopes ds).2.define 0 d.name (.number d.value) :=
  List.foldl_concat _ _ _ _

theorem size_definedScopes (ds : List Definition) : (definedScopes ds).2.slots.size = 1 := by
  induction ds using List.reverseRecOn with
  | nil => rfl
  | append_singleton ds d ih => rw [definedScopes_concat, Scopes.size_define, ih]

/-- In a store with a single scope there are no ancestors to ask. -/
theorem lookup?_of_size_eq_one {φ : Type} {s : Scopes φ} (single : s.slots.size = 1)
    (name : String) : s.lookup? (some 0) name = (s.bindings 0).get? name := by
  rw [Scopes.lookup?, Scopes.chain, single]
  show ([0] : List ScopeId).findSome? _ = _
  simp

/-- **A name has the value of its last definition.** -/
theorem lookup?_definedScopes (ds : List Definition) (name : String) :
    (definedScopes ds).2.lookup? (some 0) name = (lastValue? ds name).map Value.number := by
  rw [lookup?_of_size_eq_one (size_definedScopes ds)]
  induction ds using List.reverseRecOn with
  | nil => rfl
  | append_singleton ds d ih =>
      rw [definedScopes_concat, Scopes.get?_bindings_define, size_definedScopes, ih,
        lastValue?_concat]
      by_cases same : name = d.name
      · simp [same]
      · simp [same]

theorem lastValue?_of_last {before after : List Definition} {d : Definition}
    (last : ∀ d' ∈ after, d'.name ≠ d.name) :
    lastValue? (before ++ d :: after) d.name = some d.value := by
  have none : after.filter (·.name = d.name) = [] := by
    rw [List.filter_eq_nil_iff]
    simpa using last
  rw [lastValue?, List.filter_append, List.filter_cons_of_pos (by simp), none,
    List.getLast?_concat]
  rfl

/-- Neighbours with different names may change places. -/
theorem filter_swap (before : List Definition) {d d' : Definition} (other : d.name ≠ d'.name)
    (after : List Definition) (name : String) :
    (before ++ d :: d' :: after).filter (·.name = name) =
      (before ++ d' :: d :: after).filter (·.name = name) := by
  rw [List.filter_append, List.filter_append]
  by_cases first : d.name = name
  · have second : d'.name ≠ name := fun h => other (first.trans h.symm)
    simp [first, second]
  · simp [first, List.filter_cons]

theorem lastValue?_congr (same : ∀ name, ds.filter (·.name = name) = ds'.filter (·.name = name))
    (name : String) : lastValue? ds name = lastValue? ds' name := by
  rw [lastValue?, lastValue?, same name]

end

/-! ## Evaluations with definitions -/

/-- A defined name has the value of its last definition, alone and in a quoted text. -/
theorem evaluation_name {ds : List Definition} {name : String} {x : Float} (isName : IsName name)
    (free : ¬IsBuiltin name) (last : lastValue? ds name = some x) (debug : Bool) :
    ∀ source ∈ [name, "\"" ++ name ++ "\""], (evaluation ds debug source).result = .ok x := by
  have bound : (Context.ofScope (some 0)).underBuiltins.lookup? (definedScopes ds).2 name =
      some (.number x) := by
    rw [Context.lookup?_underBuiltins, Bindings.get?_standard_eq_none_iff.mpr free,
      Option.none_or, Context.lookup?_ofScope, lookup?_definedScopes, last]
    rfl
  rw [List.forall_mem_cons, List.forall_mem_singleton]
  exact ⟨evaluateText_name (s := ⟨⟨_, ()⟩, []⟩) isName bound noHost debug,
    evaluateText_quotedName (s := ⟨⟨_, ()⟩, []⟩) isName bound noHost debug⟩

/-- Evaluations with definitions that give every name the same value have one result and print the
same. -/
theorem evaluation_congr {ds ds' : List Definition}
    (same : ∀ name, lastValue? ds name = lastValue? ds' name) (debug : Bool) (source : String) :
    (evaluation ds debug source).result = (evaluation ds' debug source).result ∧
      traceText (evaluation ds debug source).trace =
        traceText (evaluation ds' debug source).trace := by
  let R (w w' : World Empty Unit) : Prop :=
    ∀ name, w.scopes.lookup? (some 0) name = w'.scopes.lookup? (some 0) name
  have hosts : Host.Agrees R noHost noHost := fun code => nomatch code
  have contexts : Context.Agrees R (.ofScope (some 0)) (.ofScope (some 0)) :=
    fun w w' name related => related name
  have related : R ⟨(definedScopes ds).2, ()⟩ ⟨(definedScopes ds').2, ()⟩ := by
    intro name
    rw [lookup?_definedScopes, lookup?_definedScopes, same name]
  exact evaluateText_outcome_agrees hosts debug contexts source related

theorem performText_congr {ds ds' : List Definition}
    (same : ∀ name, lastValue? ds name = lastValue? ds' name) (source : Source)
    (debug emitTree : Bool) (s : String) :
    performText ⟨source, ds, debug, emitTree⟩ s = performText ⟨source, ds', debug, emitTree⟩ s := by
  obtain ⟨result, trace⟩ := evaluation_congr same debug s
  rw [performText, performText]
  dsimp only
  rw [result, trace]

theorem isName_of_accepted {args : List String} {ds : List Definition}
    (accepted : List.Forall₂ (fun arg d => Definition.read? arg = some d) args ds) :
    ∀ d ∈ ds, IsName d.name := by
  induction accepted with
  | nil => simp
  | cons read _ ih =>
      obtain ⟨_, _, _, _, _, isName, _⟩ := exists_parts_of_read? read
      exact List.forall_mem_cons.mpr ⟨isName, ih⟩

/-- **Every accepted definition is usable, and the last one wins.** The name of an accepted
definition stands in front of its first equals sign, with blanks around it, and is read back as one
word. Unless it is built in, it is worth the number of its last definition, alone and inside of a
quoted text. Two command lines for one expression with the same flags do the same if they have the
same definitions of each name in the same order, however and wherever the options are written. -/
theorem definitions_usable {args : List String} {ds : List Definition}
    (accepted : List.Forall₂ (fun arg d => Definition.read? arg = some d) args ds) :
    List.Forall₂ (fun arg d => ∃ before after, arg.toList = before ++ '=' :: after ∧
      '=' ∉ before ∧ d.name = Text.strip (String.ofList before) ∧
      tokenize d.name = .ok [⟨.word d.name, 0⟩] ∧
      Number.read? (String.ofList after) = some d.value) args ds ∧
    (∀ before d after, ds = before ++ d :: after → (∀ d' ∈ after, d'.name ≠ d.name) →
      ¬IsBuiltin d.name → ∀ s ∈ [d.name, "\"" ++ d.name ++ "\""], ∀ rules debug argv find,
        Invocation.Written ⟨.text s, ds, debug, false⟩ argv →
          (evaluation ds debug s).result = .ok d.value ∧
          ∃ errors, execute argv find rules = .finished 0 (Number.text d.value ++ "\n") errors) ∧
    ∀ ds', (∀ name, ds.filter (·.name = name) = ds'.filter (·.name = name)) →
      ∀ s debug emitTree argv argv', Invocation.Written ⟨.text s, ds, debug, emitTree⟩ argv →
        Invocation.Written ⟨.text s, ds', debug, emitTree⟩ argv' →
          ∀ rules find, execute argv find rules = execute argv' find rules := by
  refine ⟨?_, ?_, ?_⟩
  · refine accepted.imp fun arg d read => ?_
    obtain ⟨before, after, parts, noSign, name, isName, value⟩ := exists_parts_of_read? read
    exact ⟨before, after, parts, noSign, name, tokenize_name isName, value⟩
  · rintro before d after rfl last free s mem rules debug argv find written
    have isName : IsName d.name := isName_of_accepted accepted d (by simp)
    have value : (evaluation (before ++ d :: after) debug s).result = .ok d.value :=
      evaluation_name isName free (lastValue?_of_last last) debug s mem
    refine ⟨value, ?_⟩
    rw [execute_of_written written (rules.keeps_text s), Invocation.perform]
    dsimp only
    rw [performText, if_neg Bool.false_ne_true]
    dsimp only
    rw [value]
    exact ⟨_, rfl⟩
  · intro ds' same s debug emitTree argv argv' written written' rules find
    rw [execute_of_written written (rules.keeps_text s),
      execute_of_written written' (rules.keeps_text s)]
    exact performText_congr (lastValue?_congr same) (.text s) debug emitTree s

/-- A name that is defined twice, and another one between. -/
theorem definitions_usable_twice :
    let find := (Folder.ofPaths []).find
    (∃ errors, execute ["-Dx=1", "--define", " y =2", "x", "-D", "x=3"] find =
      .finished 0 (Number.text (Number.ofDecimal false 3 0) ++ "\n") errors) ∧
    execute ["x+y", "-D", "x=1", "-D", " y =2", "-D", "x=3"] find =
      execute ["--define= y =2", "-Dx=1", "x+y", "--define", "x=3"] find := by
  intro find
  let x : Definition := ⟨"x", Number.ofDecimal false 1 0⟩
  let y : Definition := ⟨"y", Number.ofDecimal false 2 0⟩
  let x' : Definition := ⟨"x", Number.ofDecimal false 3 0⟩
  have readX : Definition.read? "x=1" = some x := rfl
  have readY : Definition.read? " y =2" = some y := rfl
  have readX' : Definition.read? "x=3" = some x' := rfl
  have accepted : List.Forall₂ (fun arg d => Definition.read? arg = some d) ["x=1", " y =2", "x=3"]
      [x, y, x'] := .cons readX (.cons readY (.cons readX' .nil))
  obtain ⟨-, value, order⟩ := definitions_usable accepted
  have alone : Invocation.Written ⟨.text "x", [x, y, x'], false, false⟩
      ["-Dx=1", "--define", " y =2", "x", "-D", "x=3"] :=
    ⟨[.define x, .define y, .operand "x", .define x'],
      .cons (.define .letterAttached readX) (.cons (.define .longApart readY)
        (.cons (.operand (by decide)) (.cons (.define .letterApart readX') .nil))),
      rfl, rfl, rfl, rfl, rfl⟩
  have first : Invocation.Written ⟨.text "x+y", [x, y, x'], false, false⟩
      ["x+y", "-D", "x=1", "-D", " y =2", "-D", "x=3"] :=
    ⟨[.operand "x+y", .define x, .define y, .define x'],
      .cons (.operand (by decide)) (.cons (.define .letterApart readX)
        (.cons (.define .letterApart readY) (.cons (.define .letterApart readX') .nil))),
      rfl, rfl, rfl, rfl, rfl⟩
  have second : Invocation.Written ⟨.text "x+y", [y, x, x'], false, false⟩
      ["--define= y =2", "-Dx=1", "x+y", "--define", "x=3"] :=
    ⟨[.define y, .define x, .operand "x+y", .define x'],
      .cons (.define .longAttached readY) (.cons (.define .letterAttached readX)
        (.cons (.operand (by decide)) (.cons (.define .longApart readX') .nil))),
      rfl, rfl, rfl, rfl, rfl⟩
  have same := filter_swap [] (show x.name ≠ y.name by decide) [x']
  have free : ¬IsBuiltin "x" := by decide
  exact ⟨(value [x, y] x' [] rfl (by simp) free "x" (by simp [x']) .earlier false _ find alone).2,
    order _ same "x+y" false false _ _ first second .earlier find⟩

end Reckoner.Command
