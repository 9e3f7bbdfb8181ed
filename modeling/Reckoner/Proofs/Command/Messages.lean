import Reckoner.Proofs.Evaluate.DeadBranches
import Reckoner.Proofs.Evaluate.Tracing
import Reckoner.Proofs.Expr.Dump
import Reckoner.Proofs.Text.Lines

/-!
# Messages on one line

Where a host has no functions, an evaluation of a text fails in five ways
(`evaluateText_failsFromText`). Their messages show text of the user between marks, except for
names: a name that a tree calls or looks up has only letters, or is the text of a number. So each
message is on one line (`Failure.FromText.onOneLine`), and so is each report of a trace.
-/

namespace Reckoner

open Text

/-! ## How texts fail -/

/-- The failures that evaluations of texts have by themselves. -/
inductive Failure.FromText : Failure → Prop
  | source (f : SourceFault) : FromText (.source f)
  | unknownIdentifier {name : String} : (IsName name ∨ ∃ x, name = Number.text x) →
      FromText (.unknownIdentifier name)
  | functionAsNumber : FromText .functionAsNumber
  | numberAsFunction : FromText .numberAsFunction
  | argumentCount (b : Builtin) : FromText (.argumentCount b)

section

variable {φ ω α β : Type}

def Run.FailsFromText (r : Run φ ω α) : Prop := ∀ s f, (r.on s).1 = .error f → f.FromText

namespace Run

theorem failsFromText_pure (x : α) : FailsFromText (pure x : Run φ ω α) := by
  rintro s f ⟨⟩

theorem failsFromText_throw {f : Failure} (h : f.FromText) :
    FailsFromText (throw f : Run φ ω α) := by
  rintro s _ ⟨⟩
  exact h

theorem FailsFromText.bind {r : Run φ ω α} {k : α → Run φ ω β} (h : FailsFromText r)
    (hk : ∀ x, FailsFromText (k x)) : FailsFromText (r >>= k) := by
  intro s f
  have first := h s f
  rw [on_bind]
  rcases hr : r.on s with ⟨g | x, t⟩
  · rw [hr] at first
    rintro ⟨⟩
    exact first rfl
  · exact hk x t f

theorem failsFromText_report (debug : Bool) (line : TraceLine) :
    FailsFromText (report debug line : Run φ ω Unit) := by
  intro s f
  obtain ⟨trace, hr⟩ := on_report debug line s
  rw [hr]
  rintro ⟨⟩

theorem failsFromText_resolve (c : Context φ) {name : String}
    (named : IsName name ∨ ∃ x, name = Number.text x) :
    FailsFromText (resolve c name : Run φ ω (Value φ)) := by
  intro s f
  rw [on_resolve]
  cases c.lookup? s.world.scopes name with
  | none =>
      rintro ⟨⟩
      exact .unknownIdentifier named
  | some v => rintro ⟨⟩

/-- All functions are built in. -/
theorem failsFromText_call (host : Host Empty ω) (f : Function Empty) (args : List Float) :
    FailsFromText (call host f args) := by
  cases f with
  | host arity code => exact code.elim
  | builtin b =>
      rw [call]
      cases b.value? args with
      | none => exact failsFromText_throw (.argumentCount b)
      | some x => exact failsFromText_pure x

end Run

end

section

variable {ω : Type} (host : Host Empty ω) (debug : Bool)

mutual

theorem evaluate_failsFromText (c : Context Empty) {source : String} (e : Expr) :
    e.Sound source → (evaluate host debug c e).FailsFromText := by
  cases e with
  | number value =>
      intro _
      rw [evaluate]
      exact Run.failsFromText_pure value
  | identifier name =>
      intro sound
      cases sound with
      | identifier named =>
          rw [evaluate]
          refine (Run.failsFromText_resolve c (.inl named)).bind fun v => ?_
          cases v with
          | number x => exact Run.failsFromText_pure x
          | function f => exact Run.failsFromText_throw .functionAsNumber
  | binary left kind right =>
      intro sound
      cases sound with
      | binary op soundLeft soundRight =>
          rw [evaluate, Operator.ofKind?_kind]
          refine (evaluate_failsFromText c left soundLeft).bind fun a => ?_
          refine (evaluate_failsFromText c right soundRight).bind fun b => ?_
          exact Run.failsFromText_pure _
  | call name arguments =>
      intro sound
      cases sound with
      | call called _ each =>
          have named : IsName name ∨ ∃ x, name = Number.text x := by
            rcases called with isName | ⟨digits, -, isText⟩
            · exact .inl isName
            · exact .inr ⟨_, isText⟩
          rw [evaluate]
          refine (Run.failsFromText_resolve c named).bind fun v => ?_
          cases v with
          | number x => exact Run.failsFromText_throw .numberAsFunction
          | function f =>
              refine (evaluateAll_failsFromText c arguments each).bind fun args => ?_
              exact Run.failsFromText_call host f args
  | quoted text =>
      intro _
      rw [evaluate]
      exact evaluateText_failsFromText c text
  | bare => rintro ⟨⟩
termination_by 2 * e.work
decreasing_by all_goals simp only [Expr.work]; omega

theorem evaluateAll_failsFromText (c : Context Empty) {source : String} (es : List Expr) :
    (∀ e ∈ es, e.Sound source) → (evaluateAll host debug c es).FailsFromText := by
  cases es with
  | nil =>
      intro _
      rw [evaluateAll]
      exact Run.failsFromText_pure []
  | cons e more =>
      intro each
      rw [List.forall_mem_cons] at each
      rw [evaluateAll]
      refine (evaluate_failsFromText c e each.1).bind fun x => ?_
      refine (evaluateAll_failsFromText c more each.2).bind fun xs => ?_
      exact Run.failsFromText_pure _
termination_by 2 * Expr.workAll es + 1
decreasing_by
  all_goals
    have := e.work_pos
    simp only [Expr.workAll]
    omega

/-- **A text fails in one of five ways**, also where it fails in a quoted text. -/
theorem evaluateText_failsFromText (c : Context Empty) (source : String) :
    (evaluateText host debug c source).FailsFromText := by
  cases h : parse source with
  | error f =>
      rw [evaluateText_of_error host debug c h]
      exact (Run.failsFromText_report _ _).bind fun _ => Run.failsFromText_throw (.source f)
  | ok e =>
      have shrinks := work_le_of_parse h
      rw [evaluateText_of_ok host debug c h]
      refine (Run.failsFromText_report _ _).bind fun _ => ?_
      refine (Run.failsFromText_report _ _).bind fun _ => ?_
      refine (Run.failsFromText_report _ _).bind fun _ => ?_
      refine (evaluate_failsFromText c.underBuiltins e (sound_of_parse h)).bind fun x => ?_
      exact (Run.failsFromText_report _ _).bind fun _ => Run.failsFromText_pure x
termination_by 2 * source.length + 1

end

end

/-! ## Messages -/

theorem Kind.onOneLine_label (k : Kind) : OnOneLine k.label := by
  have all : ∀ k ∈ Kind.all, OnOneLine k.label := by decide +kernel
  exact all k k.mem_all

theorem Expr.Shape.onOneLine_label (s : Expr.Shape) : OnOneLine s.label := by
  have all : ∀ s ∈ Expr.Shape.all, OnOneLine s.label := by decide +kernel
  exact all s s.mem_all

theorem Builtin.onOneLine_name (b : Builtin) : OnOneLine b.name := by
  have all : ∀ b ∈ Builtin.all, OnOneLine b.name := by decide +kernel
  exact all b b.mem_all

theorem Lexeme.onOneLine_shown (x : Lexeme) : OnOneLine x.shown :=
  ((x.kind.onOneLine_label.append (by decide)).append (onOneLine_quoted x.text)).append (by decide)

theorem LexicalCause.onOneLine_message (cause : LexicalCause) : OnOneLine cause.message := by
  cases cause with
  | secondPoint => decide
  | openQuote => decide
  | unknownCharacter c => exact OnOneLine.append (by decide) (onOneLine_quoted _)

theorem GrammarCause.onOneLine_message (cause : GrammarCause) : OnOneLine cause.message := by
  cases cause with
  | nothing => decide
  | cutShort => decide
  | unclosed got => exact OnOneLine.append (by decide) got.onOneLine_shown
  | noTerm got => exact OnOneLine.append (by decide) got.onOneLine_shown
  | notCallable callee =>
      exact (OnOneLine.append (by decide) callee.onOneLine_label).append (by decide)

theorem SourceFault.onOneLine_message (f : SourceFault) : OnOneLine f.message := by
  cases f with
  | lexical f =>
      exact ((OnOneLine.append (by decide) (onOneLine_toString f.position)).append
        (by decide)).append f.cause.onOneLine_message
  | grammar f =>
      exact ((OnOneLine.append (by decide) (onOneLine_toString f.position)).append
        (by decide)).append f.cause.onOneLine_message

theorem IsName.onOneLine {name : String} (h : IsName name) : OnOneLine name :=
  fun c hc => not_mem_lineEnds_of_isLetter (h.2 c hc)

/-- **Whatever a text fails with, the message is on one line.** -/
theorem Failure.FromText.onOneLine {f : Failure} (h : f.FromText) : OnOneLine f.message := by
  cases h with
  | source f => exact f.onOneLine_message
  | @unknownIdentifier name named =>
      have inside : OnOneLine name := by
        rcases named with isName | ⟨x, rfl⟩
        · exact isName.onOneLine
        · exact onOneLine_text x
      exact (OnOneLine.append (by decide) inside).append (by decide)
  | functionAsNumber => decide
  | numberAsFunction => decide
  | argumentCount b =>
      refine (b.onOneLine_name.append (by decide)).append ?_
      split <;> decide

/-- A report is its mark and a text on one line. -/
theorem TraceLine.exists_text (line : TraceLine) :
    ∃ report, line.text = "[formula] " ++ report ∧ OnOneLine report := by
  cases line with
  | parsing source =>
      refine ⟨_, TraceLine.text_parsing source, OnOneLine.append (by decide) ?_⟩
      exact onOneLine_quoted source
  | root form =>
      refine ⟨_, TraceLine.text_root form, OnOneLine.append (by decide) ?_⟩
      exact form.onOneLine_label
  | evaluation => exact ⟨_, TraceLine.text_evaluation, by decide⟩
  | result value =>
      refine ⟨_, TraceLine.text_result value, OnOneLine.append (by decide) ?_⟩
      exact onOneLine_text value

end Reckoner
