import Reckoner.Proofs.Evaluate.Recording
import Reckoner.Proofs.Scope.Writes

/-!
# Functions of the host as scripts

What a function of the host does with its arguments is a script: it looks at the world, keeps notes,
writes to scopes, evaluates formulas of its own in any scope, and answers in the end. A library has a
script for every code and arguments, and becomes a host by saying how deep evaluations may nest.
Every evaluation that ends nests to some depth, and all facts hold at every depth.

A journaled script does the same and writes down what it writes, in the order in which it does. The
functions of the host cannot see the journal. It says everything that an evaluation did to the store
(`scopes_evaluateText`).
-/

namespace Reckoner

variable {φ ω : Type}

/-! ## Scripts -/

inductive Script (φ ω : Type)
  | answer (result : Except Failure Float)
  | look (next : World φ ω → Script φ ω)
  | note (change : ω → ω) (next : Script φ ω)
  | write (a : Write φ) (next : Script φ ω)
  /-- Evaluates a formula in a scope, and goes on with its value or failure. -/
  | reenter (base : Option ScopeId) (source : String) (next : Except Failure Float → Script φ ω)

/-- How scripts evaluate formulas. -/
abbrev Entry (φ ω : Type) :=
  Option ScopeId → String → World φ ω → Except Failure Float × World φ ω

def Script.run (enter : Entry φ ω) : Script φ ω → World φ ω → Except Failure Float × World φ ω
  | .answer result, w => (result, w)
  | .look next, w => (next w).run enter w
  | .note change next, w => next.run enter { w with notes := change w.notes }
  | .write a next, w => next.run enter { w with scopes := w.scopes.write a }
  | .reenter base source next, w =>
      (next (enter base source w).1).run enter (enter base source w).2

/-- Evaluation with the functions of a host. It reports nothing. -/
def Host.enter (host : Host φ ω) : Entry φ ω := fun base source w =>
  let o := (evaluateText host false (.ofScope base) source).outcome w
  (o.result, o.world)

/-- The scripts of all functions of a host. -/
abbrev Library (φ ω : Type) := φ → List Float → Script φ ω

/-- The library as a host whose evaluations may nest to a given depth. -/
def Library.host (library : Library φ ω) : (depth : Nat) → Host φ ω
  | 0 =>
      let refuse : Entry φ ω :=
        fun _ _ w => (.error (.host "evaluations are nested too deeply"), w)
      ⟨fun code args w => (library code args).run refuse w⟩
  | depth + 1 => ⟨fun code args w => (library code args).run (library.host depth).enter w⟩

/-! ## What every call keeps, an evaluation keeps -/

/-- Every call keeps the property of worlds. -/
def Host.Keeps (P : World φ ω → Prop) (host : Host φ ω) : Prop :=
  ∀ code args w, P w → P (host.invoke code args w).2

theorem Host.Keeps.evaluateText {P : World φ ω → Prop} {host : Host φ ω} (h : host.Keeps P)
    (debug : Bool) (c : Context φ) (source : String) {w : World φ ω} (before : P w) :
    P ((evaluateText host debug c source).outcome w).world := by
  have hosts : Host.Agrees (fun w w' => w = w' ∧ P w) host host := by
    rintro code args w _ ⟨rfl, hw⟩
    exact ⟨rfl, rfl, h code args w hw⟩
  have contexts : Context.Agrees (fun (w w' : World φ ω) => w = w' ∧ P w) c c := by
    rintro w _ name ⟨rfl, -⟩
    rfl
  have agrees := evaluateText_agrees hosts debug debug contexts source
  obtain ⟨-, -, after⟩ := agrees ⟨w, []⟩ ⟨w, []⟩ ⟨rfl, before⟩
  exact after

/-- **All that an evaluation does to the world is what its calls do**, one after the other. -/
theorem world_evaluateText (host : Host φ ω) (debug : Bool) (c : Context φ) (source : String)
    (w : World φ ω) :
    ((evaluateText host debug c source).outcome w).world =
      ((evaluateText host.recorded debug c source).effect w).calls.foldl
        (fun v call => (host.invoke call.code call.args v).2) w := by
  have keeps : host.recorded.Keeps fun v => v.forget =
      v.calls.foldl (fun v call => (host.invoke call.code call.args v).2) w := by
    intro code args v before
    show (host.invoke code args v.forget).2 = (v.calls ++ [_]).foldl _ w
    rw [List.foldl_append, ← before]
    rfl
  rw [← (effect_evaluateText host debug c source w).2]
  exact keeps.evaluateText debug c source (w := w.recording) rfl

/-! ## Journals -/

namespace World

/-- The world with an empty journal beside the notes. -/
def journaling (w : World φ ω) : World φ (ω × List (Write φ)) := ⟨w.scopes, w.notes, []⟩

def unjournaled (w : World φ (ω × List (Write φ))) : World φ ω := ⟨w.scopes, w.notes.1⟩

def journal (w : World φ (ω × List (Write φ))) : List (Write φ) := w.notes.2

end World

/-- The script with all that it writes written down. -/
def Script.journaled : Script φ ω → Script φ (ω × List (Write φ))
  | .answer result => .answer result
  | .look next => .look fun w => (next w.unjournaled).journaled
  | .note change next => .note (fun (notes, journal) => (change notes, journal)) next.journaled
  | .write a next =>
      .write a (.note (fun (notes, journal) => (notes, journal ++ [a])) next.journaled)
  | .reenter base source next => .reenter base source fun result => (next result).journaled

def Library.journaled (library : Library φ ω) : Library φ (ω × List (Write φ)) :=
  fun code args => (library code args).journaled

/-! ## A journal changes nothing -/

/-- The two answer alike in worlds that differ in the journal only, and leave such worlds. -/
def Entry.Alike (enter : Entry φ ω) (enter' : Entry φ (ω × List (Write φ))) : Prop :=
  ∀ base source w, (enter base source w.unjournaled).1 = (enter' base source w).1 ∧
    (enter base source w.unjournaled).2 = (enter' base source w).2.unjournaled

theorem Script.run_journaled {enter : Entry φ ω} {enter' : Entry φ (ω × List (Write φ))}
    (entries : enter.Alike enter') (script : Script φ ω) (w : World φ (ω × List (Write φ))) :
    (script.run enter w.unjournaled).1 = (script.journaled.run enter' w).1 ∧
      (script.run enter w.unjournaled).2 = (script.journaled.run enter' w).2.unjournaled := by
  induction script generalizing w with
  | answer result => exact ⟨rfl, rfl⟩
  | look next ih => exact ih w.unjournaled w
  | note change next ih => exact ih ⟨w.scopes, change w.notes.1, w.notes.2⟩
  | write a next ih => exact ih ⟨w.scopes.write a, w.notes.1, w.notes.2 ++ [a]⟩
  | reenter base source next ih =>
      obtain ⟨result, after⟩ := entries base source w
      rw [Script.run, Script.journaled, Script.run, result, after]
      exact ih _ _

/-- Hosts that differ in the journal only. -/
abbrev Host.Journals (host : Host φ ω) (host' : Host φ (ω × List (Write φ))) : Prop :=
  Host.Agrees (fun w w' => w = w'.unjournaled) host host'

theorem Host.Journals.evaluateText {host : Host φ ω} {host' : Host φ (ω × List (Write φ))}
    (h : host.Journals host') (debug : Bool) (c : Context φ) (source : String)
    (w : World φ (ω × List (Write φ))) :
    ((Reckoner.evaluateText host debug c source).outcome w.unjournaled).result =
        ((Reckoner.evaluateText host' debug c source).outcome w).result ∧
      ((Reckoner.evaluateText host debug c source).outcome w.unjournaled).world =
        ((Reckoner.evaluateText host' debug c source).outcome w).world.unjournaled := by
  have contexts : Context.Agrees
      (fun (w : World φ ω) (w' : World φ (ω × List (Write φ))) => w = w'.unjournaled) c c := by
    rintro w w' name rfl
    rfl
  exact evaluateText_agrees h debug debug contexts source ⟨w.unjournaled, []⟩ ⟨w, []⟩ rfl

theorem Library.journals_host (library : Library φ ω) (depth : Nat) :
    (library.host depth).Journals (library.journaled.host depth) := by
  induction depth with
  | zero =>
      rintro code args _ w rfl
      exact Script.run_journaled (fun base source w => ⟨rfl, rfl⟩) (library code args) w
  | succ depth ih =>
      rintro code args _ w rfl
      exact Script.run_journaled (fun base source w => ih.evaluateText false _ source w)
        (library code args) w

/-! ## A journal says everything -/

/-- The store is what the journal made of the store `s`. -/
def JournalFrom (s : Scopes φ) (w : World φ (ω × List (Write φ))) : Prop :=
  w.scopes = s.writeAll w.journal

theorem Script.journalFrom_run {enter : Entry φ (ω × List (Write φ))} {s : Scopes φ}
    (entry : ∀ base source w, JournalFrom s w → JournalFrom s (enter base source w).2)
    (script : Script φ ω) {w : World φ (ω × List (Write φ))} (before : JournalFrom s w) :
    JournalFrom s (script.journaled.run enter w).2 := by
  induction script generalizing w with
  | answer result => exact before
  | look next ih => exact ih w.unjournaled before
  | note change next ih => exact ih before
  | write a next ih =>
      refine ih (w := ⟨w.scopes.write a, w.notes.1, w.notes.2 ++ [a]⟩) ?_
      show w.scopes.write a = s.writeAll (w.journal ++ [a])
      rw [Scopes.writeAll_concat, before]
  | reenter base source next ih => exact ih _ (entry base source w before)

theorem Library.keeps_journalFrom (library : Library φ ω) (s : Scopes φ) (depth : Nat) :
    (library.journaled.host depth).Keeps (JournalFrom s) := by
  induction depth with
  | zero =>
      intro code args w before
      exact Script.journalFrom_run (fun base source w before => before) (library code args) before
  | succ depth ih =>
      intro code args w before
      exact Script.journalFrom_run
        (fun base source w before => ih.evaluateText false _ source before) (library code args)
        before

/-- What the functions of the host write during an evaluation, in the order in which they do, also
in evaluations that they start. -/
def Library.writes (library : Library φ ω) (depth : Nat) (debug : Bool) (c : Context φ)
    (source : String) (w : World φ ω) : List (Write φ) :=
  ((evaluateText (library.journaled.host depth) debug c source).outcome w.journaling).world.journal

/-- **All that an evaluation does to the store is what the functions of the host write.** -/
theorem scopes_evaluateText (library : Library φ ω) (depth : Nat) (debug : Bool) (c : Context φ)
    (source : String) (w : World φ ω) :
    ((evaluateText (library.host depth) debug c source).outcome w).world.scopes =
      w.scopes.writeAll (library.writes depth debug c source w) := by
  have same := ((library.journals_host depth).evaluateText debug c source w.journaling).2
  have told := (library.keeps_journalFrom w.scopes depth).evaluateText debug c source
    (w := w.journaling) rfl
  have world : w.journaling.unjournaled = w := rfl
  rw [world] at same
  rw [same]
  exact told

end Reckoner
