import Reckoner.Proofs.Evaluate.Simulation

/-!
# Which calls an evaluation makes

A recorded host behaves as the host does and keeps a list of its calls beside the notes, where its
functions cannot see it. The effect of a run is what it comes to in a world: its value or failure,
the world it leaves, and the calls it made, in their order. The first two are those of the run on
the host itself.
-/

namespace Reckoner

variable {φ ω α : Type}

/-- A call of a function of the host, with what it answered. -/
structure Call (φ : Type) where
  code : φ
  args : List Float
  answer : Except Failure Float

namespace World

/-- The world with an empty list of calls beside the notes. -/
def recording (w : World φ ω) : World φ (ω × List (Call φ)) := ⟨w.scopes, w.notes, []⟩

/-- The world without the list of calls. -/
def forget (w : World φ (ω × List (Call φ))) : World φ ω := ⟨w.scopes, w.notes.1⟩

def calls (w : World φ (ω × List (Call φ))) : List (Call φ) := w.notes.2

@[simp] theorem calls_recording (w : World φ ω) : w.recording.calls = [] := rfl

@[simp] theorem scopes_forget (w : World φ (ω × List (Call φ))) : w.forget.scopes = w.scopes := rfl

end World

/-- The host with each of its calls written down behind the earlier ones. -/
def Host.recorded (host : Host φ ω) : Host φ (ω × List (Call φ)) where
  invoke code args w :=
    let (answer, after) := host.invoke code args w.forget
    (answer, ⟨after.scopes, after.notes, w.calls ++ [⟨code, args, answer⟩]⟩)

/-- What a run comes to: its value or failure, the world it leaves, and the calls it made. -/
structure Effect (φ ω : Type) where
  result : Except Failure Float
  world : World φ ω
  calls : List (Call φ)

/-- The effect of a run on a recorded host, from a world in which nothing is recorded yet. -/
def Run.effect (r : Run φ (ω × List (Call φ)) Float) (w : World φ ω) : Effect φ ω :=
  let o := r.outcome w.recording
  ⟨o.result, o.world.forget, o.world.calls⟩

namespace Run

theorem outcome_eq_on (r : Run φ ω Float) (w : World φ ω) :
    r.outcome w = ⟨(r.on ⟨w, []⟩).1, (r.on ⟨w, []⟩).2.world, (r.on ⟨w, []⟩).2.trace⟩ := rfl

theorem effect_eq_on (r : Run φ (ω × List (Call φ)) Float) (w : World φ ω) :
    r.effect w = ⟨(r.on ⟨w.recording, []⟩).1, (r.on ⟨w.recording, []⟩).2.world.forget,
      (r.on ⟨w.recording, []⟩).2.world.calls⟩ := rfl

/-- Runs that agree from equal worlds have the same effect. -/
theorem Alike.effect_eq {r r' : Run φ (ω × List (Call φ)) Float} (h : Alike r r') (w : World φ ω) :
    r.effect w = r'.effect w := by
  obtain ⟨result, world⟩ := h ⟨w.recording, []⟩ ⟨w.recording, []⟩ rfl
  rw [effect_eq_on, effect_eq_on, result, world]

end Run

/-! ## Recording changes nothing else -/

theorem Host.agrees_recorded (host : Host φ ω) :
    Host.Agrees (fun w w' => w = w'.forget) host host.recorded := by
  rintro code args w w' rfl
  exact ⟨rfl, rfl⟩

theorem Context.agrees_recorded (c : Context φ) :
    Context.Agrees (fun (w : World φ ω) w' => w = w'.forget) c c := by
  rintro w w' name rfl
  rfl

/-- **The effect of a text has the value or failure and the world of its evaluation.** -/
theorem effect_evaluateText (host : Host φ ω) (debug : Bool) (c : Context φ) (source : String)
    (w : World φ ω) :
    ((evaluateText host.recorded debug c source).effect w).result =
        ((evaluateText host debug c source).outcome w).result ∧
      ((evaluateText host.recorded debug c source).effect w).world =
        ((evaluateText host debug c source).outcome w).world := by
  have agrees := evaluateText_agrees host.agrees_recorded debug debug c.agrees_recorded source
  obtain ⟨result, world⟩ := agrees ⟨w, []⟩ ⟨w.recording, []⟩ rfl
  rw [Run.effect_eq_on, Run.outcome_eq_on]
  exact ⟨result.symm, world.symm⟩

end Reckoner
