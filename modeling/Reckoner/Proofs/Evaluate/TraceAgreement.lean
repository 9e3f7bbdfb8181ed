import Reckoner.Proofs.Evaluate.Tracing

/-!
# Traces that agree

Evaluations that agree reach the same quoted texts, in worlds that are related, and so they print
the same. `traceOf_agrees` says this for whole traces: of the world around a formula they show what
names stand for and what calls answer, and nothing else.
-/

namespace Reckoner

variable {φ ω ω' α β γ : Type}

section

variable {R : World φ ω → World φ ω' → Prop} {host : Host φ ω} {host' : Host φ ω'}
  {c c' : Context φ}

/-- What is listed behind two runs that agree is related if what their values lead to is. -/
theorem Run.Agrees.onward {r : Run φ ω α} {r' : Run φ ω' α} (h : Agrees R r r')
    {S : β → γ → Prop} {next : α → World φ ω → List β} {next' : α → World φ ω' → List γ}
    (each : ∀ x v v', R v v' → List.Forall₂ S (next x v) (next' x v')) {w : World φ ω}
    {w' : World φ ω'} (related : R w w') :
    List.Forall₂ S (r.onward w next) (r'.onward w' next') := by
  obtain ⟨result, t, t', hr, hr', after⟩ : ∃ result t t', r.on ⟨w, []⟩ = (result, t) ∧
      r'.on ⟨w', []⟩ = (result, t') ∧ R t.world t'.world := h.exists_on related
  rw [Run.onward, Run.onward, hr, hr']
  rcases result with f | x
  · exact .nil
  · exact each x _ _ after

/-- Arrivals at the same text in related worlds. -/
def Arrival.Related (R : World φ ω → World φ ω' → Prop) (q : Arrival φ ω) (q' : Arrival φ ω') :
    Prop := q.text = q'.text ∧ R q.world q'.world

mutual

/-- Evaluations of one tree that agree reach the same texts. -/
theorem arrivals_agree (hosts : Host.Agrees R host host') (contexts : Context.Agrees R c c')
    (e : Expr) {w : World φ ω} {w' : World φ ω'} (related : R w w') :
    List.Forall₂ (Arrival.Related R) (arrivals host c e w) (arrivals host' c' e w') := by
  cases e with
  | number value | identifier name | bare => exact .nil
  | quoted source => exact .cons ⟨rfl, related⟩ .nil
  | binary left op right =>
      rw [arrivals, arrivals]
      refine List.rel_append (arrivals_agree hosts contexts left related) ?_
      exact (evaluate_agrees hosts false false contexts left).onward
        (fun _ _ _ after => arrivals_agree hosts contexts right after) related
  | call name arguments =>
      rw [arrivals, arrivals, contexts w w' name related]
      split
      · exact arrivalsAll_agree hosts contexts arguments related
      · exact .nil
      · exact .nil

theorem arrivalsAll_agree (hosts : Host.Agrees R host host') (contexts : Context.Agrees R c c')
    (es : List Expr) {w : World φ ω} {w' : World φ ω'} (related : R w w') :
    List.Forall₂ (Arrival.Related R) (arrivalsAll host c es w) (arrivalsAll host' c' es w') := by
  cases es with
  | nil => exact .nil
  | cons e more =>
      rw [arrivalsAll, arrivalsAll]
      refine List.rel_append (arrivals_agree hosts contexts e related) ?_
      exact (evaluate_agrees hosts false false contexts e).onward
        (fun _ _ _ after => arrivalsAll_agree hosts contexts more after) related

end

/-- Lists with related members have one image if related members have. -/
theorem flatMap_eq_of_forall₂ {S : α → β → Prop} {f : α → List γ} {g : β → List γ} {xs : List α}
    {ys : List β} (h : List.Forall₂ S xs ys) (same : ∀ x ∈ xs, ∀ y, S x y → f x = g y) :
    xs.flatMap f = ys.flatMap g := by
  induction h with
  | nil => rfl
  | cons related _ ih =>
      rw [List.forall_mem_cons] at same
      rw [List.flatMap_cons, List.flatMap_cons, same.1 _ related, ih same.2]

/-- **Evaluations that agree have one trace.** -/
theorem traceOf_agrees (hosts : Host.Agrees R host host') {c c' : Context φ}
    (contexts : Context.Agrees R c c') (source : String) {w : World φ ω} {w' : World φ ω'}
    (related : R w w') : traceOf host c source w = traceOf host' c' source w' := by
  cases h : parse source with
  | error f => rw [traceOf_of_error host c h, traceOf_of_error host' c' h]
  | ok e =>
      have within := contexts.underBuiltins
      have shrinks := work_le_of_parse h
      have texts : ((arrivals host c.underBuiltins e w).flatMap fun q =>
          traceOf host c.underBuiltins q.text q.world) =
          (arrivals host' c'.underBuiltins e w').flatMap fun q =>
            traceOf host' c'.underBuiltins q.text q.world := by
        refine flatMap_eq_of_forall₂ (arrivals_agree hosts within e related) ?_
        rintro q reached q' ⟨sameText, sameWorld⟩
        have shorter := length_lt_work_of_mem_arrivals reached
        rw [← sameText]
        exact traceOf_agrees hosts within q.text sameWorld
      have value : List.Forall₂ Eq
          ((evaluate host false c.underBuiltins e).onward w fun x _ =>
            ["  result " ++ Number.text x])
          ((evaluate host' false c'.underBuiltins e).onward w' fun x _ =>
            ["  result " ++ Number.text x]) := by
        refine (evaluate_agrees hosts false false within e).onward (fun x _ _ _ => ?_) related
        exact .cons rfl .nil
      rw [List.forall₂_eq_eq_eq] at value
      rw [traceOf_of_ok host c h, traceOf_of_ok host' c' h, texts, value]
termination_by source.length

theorem traceText_eq_join (s : Session φ ω) :
    traceText s.trace = String.join (s.printed.map (· ++ "\n")) := by
  rw [traceText, Session.printed, List.map_map]
  rfl

/-- What is printed by an evaluation that began with nothing reported. -/
theorem traceText_evaluateText (host : Host φ ω) (debug : Bool) (c : Context φ) (source : String)
    (w : World φ ω) : traceText ((evaluateText host debug c source).outcome w).trace =
      String.join ((shown debug (traceOf host c source w)).map (· ++ "\n")) := by
  have printed := evaluateText_prints host debug c source ⟨w, []⟩
  rw [Run.outcome_eq_on, traceText_eq_join, printed]
  rfl

/-- **Evaluations that agree have one result and print the same.** -/
theorem evaluateText_outcome_agrees (hosts : Host.Agrees R host host') (debug : Bool)
    {c c' : Context φ} (contexts : Context.Agrees R c c') (source : String) {w : World φ ω}
    {w' : World φ ω'} (related : R w w') :
    let o := (evaluateText host debug c source).outcome w
    let o' := (evaluateText host' debug c' source).outcome w'
    o.result = o'.result ∧ traceText o.trace = traceText o'.trace := by
  intro o o'
  have agree := evaluateText_agrees hosts debug debug contexts source ⟨w, []⟩ ⟨w', []⟩ related
  refine ⟨agree.1, ?_⟩
  rw [traceText_evaluateText, traceText_evaluateText, traceOf_agrees hosts contexts source related]

end

end Reckoner
