import Reckoner.Proofs.Evaluate.InPlace

/-!
# What tracing prints

The trace of a text is given without a tracing evaluator. `arrivals` are the quoted texts that an
evaluation reaches, each with the world by then, as evaluations without tracing tell. `traceOf` is
made of the lines for the text itself and, between its head and its result, the traces of the
arrivals. Every part of a traced evaluation prints the traces of its own arrivals (`Run.Traced`), so
the evaluator is followed once, through trees and quoted texts together (`evaluate_traced`,
`evaluateText_prints`).
-/

namespace Reckoner

variable {φ ω α β : Type}

/-! ## The trace of a text -/

/-- What is listed behind a run: nothing if it fails, and otherwise what its value and the world
that it leaves lead to. -/
def Run.onward (r : Run φ ω α) (w : World φ ω) (next : α → World φ ω → List β) : List β :=
  match r.on ⟨w, []⟩ with
  | (.ok x, t) => next x t.world
  | (.error _, _) => []

/-- A quoted text, and the world in which evaluation reaches it. -/
structure Arrival (φ ω : Type) where
  text : String
  world : World φ ω

section

variable (host : Host φ ω) (c : Context φ)

mutual

/-- The quoted texts that the evaluation of a tree reaches, in their order. -/
def arrivals : Expr → World φ ω → List (Arrival φ ω)
  | .number _, _ | .identifier _, _ | .bare, _ => []
  | .binary left _ right, w =>
      arrivals left w ++ (evaluate host false c left).onward w fun _ v => arrivals right v
  | .call name arguments, w =>
      match c.lookup? w.scopes name with
      | some (.function _) => arrivalsAll arguments w
      | some (.number _) | none => []
  | .quoted source, w => [⟨source, w⟩]

def arrivalsAll : List Expr → World φ ω → List (Arrival φ ω)
  | [], _ => []
  | e :: more, w =>
      arrivals e w ++ (evaluate host false c e).onward w fun _ v => arrivalsAll more v

end

end

theorem Run.mem_onward {r : Run φ ω α} {w : World φ ω} {next : α → World φ ω → List β} {y : β}
    (h : y ∈ r.onward w next) : ∃ x v, y ∈ next x v := by
  rw [onward] at h
  split at h
  · next x t _ => exact ⟨x, t.world, h⟩
  · cases h

section

variable {host : Host φ ω} {c : Context φ} {q : Arrival φ ω}

mutual

theorem length_lt_work_of_mem_arrivals {e : Expr} {w : World φ ω}
    (h : q ∈ arrivals host c e w) :
    q.text.length < e.work := by
  cases e with
  | number => cases h
  | identifier => cases h
  | bare => cases h
  | quoted source =>
      obtain rfl := List.mem_singleton.mp h
      exact Nat.lt_succ_self _
  | binary left op right =>
      rw [arrivals, List.mem_append] at h
      rw [Expr.work]
      rcases h with h | h
      · have := length_lt_work_of_mem_arrivals h
        omega
      · obtain ⟨_, _, h⟩ := Run.mem_onward h
        have := length_lt_work_of_mem_arrivals h
        omega
  | call name arguments =>
      rw [arrivals] at h
      rw [Expr.work]
      split at h
      · have := length_lt_work_of_mem_arrivalsAll h
        omega
      · cases h
      · cases h

theorem length_lt_work_of_mem_arrivalsAll {es : List Expr} {w : World φ ω}
    (h : q ∈ arrivalsAll host c es w) :
    q.text.length < Expr.workAll es := by
  cases es with
  | nil => cases h
  | cons e more =>
      rw [arrivalsAll, List.mem_append] at h
      rw [Expr.workAll]
      rcases h with h | h
      · have := length_lt_work_of_mem_arrivals h
        omega
      · obtain ⟨_, _, h⟩ := Run.mem_onward h
        have := length_lt_work_of_mem_arrivalsAll h
        omega

end

end

/-- The trace of a text that is evaluated in a world, line by line. A text that is no formula has
only its head, and one whose evaluation fails has no result. -/
def traceOf (host : Host φ ω) (c : Context φ) (source : String) (w : World φ ω) : List String :=
  ("Phase 1: Parsing " ++ Text.quoted source) ::
    match h : parse source with
    | .error _ => []
    | .ok e =>
        have := work_le_of_parse h
        ["  root " ++ e.shape.label, "Phase 2: Evaluation"] ++
          ((arrivals host c.underBuiltins e w).attach.flatMap fun ⟨q, reached⟩ =>
            have := length_lt_work_of_mem_arrivals reached
            traceOf host c.underBuiltins q.text q.world) ++
          (evaluate host false c.underBuiltins e).onward w fun x _ =>
            ["  result " ++ Number.text x]
termination_by source.length

theorem traceOf_of_error (host : Host φ ω) (c : Context φ) {source : String} {f : SourceFault}
    (h : parse source = .error f) (w : World φ ω) :
    traceOf host c source w = ["Phase 1: Parsing " ++ Text.quoted source] := by
  rw [traceOf]
  split <;> simp_all

theorem traceOf_of_ok (host : Host φ ω) (c : Context φ) {source : String} {e : Expr}
    (h : parse source = .ok e) (w : World φ ω) :
    traceOf host c source w =
      ["Phase 1: Parsing " ++ Text.quoted source, "  root " ++ e.shape.label,
        "Phase 2: Evaluation"] ++
      ((arrivals host c.underBuiltins e w).flatMap fun q =>
        traceOf host c.underBuiltins q.text q.world) ++
      (evaluate host false c.underBuiltins e).onward w fun x _ =>
        ["  result " ++ Number.text x] := by
  rw [traceOf]
  split <;> simp_all

/-! ## What a run prints -/

/-- The lines as they are printed; nothing is without tracing. -/
def shown (debug : Bool) (lines : List String) : List String :=
  if debug then lines.map ("[formula] " ++ ·) else []

@[simp] theorem shown_nil (debug : Bool) : shown debug [] = [] := by
  cases debug <;> rfl

@[simp] theorem shown_append (debug : Bool) (lines more : List String) :
    shown debug (lines ++ more) = shown debug lines ++ shown debug more := by
  cases debug <;> simp [shown]

theorem append_of_eq_append {whole front back : String} (h : whole = front ++ back)
    (more : String) : whole ++ more = front ++ (back ++ more) := by
  rw [h, String.append_assoc]

theorem TraceLine.text_parsing (source : String) :
    (parsing source).text = "[formula] " ++ ("Phase 1: Parsing " ++ Text.quoted source) :=
  append_of_eq_append (by decide) _

theorem TraceLine.text_root (form : Expr.Shape) :
    (root form).text = "[formula] " ++ ("  root " ++ form.label) :=
  append_of_eq_append (by decide) _

theorem TraceLine.text_evaluation : evaluation.text = "[formula] " ++ "Phase 2: Evaluation" := rfl

theorem TraceLine.text_result (value : Float) :
    (result value).text = "[formula] " ++ ("  result " ++ Number.text value) :=
  append_of_eq_append (by decide) _

/-- What is printed in a session so far. -/
def Session.printed (s : Session φ ω) : List String := s.trace.map TraceLine.text

namespace Run

section

variable {r : Run φ ω α} {w : World φ ω} {t : Session φ ω} {x : α}
  {next : α → World φ ω → List β}

theorem onward_of_ok (h : r.on ⟨w, []⟩ = (.ok x, t)) : r.onward w next = next x t.world := by
  rw [onward, h]

theorem onward_of_error {f : Failure} (h : r.on ⟨w, []⟩ = (.error f, t)) :
    r.onward w next = [] := by
  rw [onward, h]

theorem flatMap_onward {γ : Type} (f : β → List γ) :
    (r.onward w next).flatMap f = r.onward w fun x v => (next x v).flatMap f := by
  rw [onward, onward]
  split <;> rfl

@[simp] theorem onward_nil : (r.onward w fun _ _ => ([] : List β)) = [] := by
  rw [onward]
  split <;> rfl

end

/-- From every session the run prints the lines. -/
def Prints (debug : Bool) (r : Run φ ω α) (lines : World φ ω → List String) : Prop :=
  ∀ s, (r.on s).2.printed = s.printed ++ shown debug (lines s.world)

section

variable {debug : Bool} {r quiet : Run φ ω α} {k : α → Run φ ω β}
  {lines more : World φ ω → List String}

theorem prints_nothing (keeps : ∀ s, (r.on s).2.trace = s.trace) :
    Prints debug r fun _ => [] := by
  intro s
  rw [Session.printed, keeps, shown_nil, List.append_nil]
  rfl

theorem Prints.congr (h : Prints debug r lines) (same : ∀ w, lines w = more w) :
    Prints debug r more := by
  intro s
  rw [h s, same]

/-- What is printed behind a run is what a run that agrees with it leads to. -/
theorem Prints.bind {onto : α → World φ ω → List String} (h : Prints debug r lines)
    (alike : Alike r quiet) (hk : ∀ x, Prints debug (k x) (onto x)) :
    Prints debug (r >>= k) fun w => lines w ++ quiet.onward w onto := by
  intro s
  have first := h s
  have same : ∃ result t t', r.on s = (result, t) ∧ quiet.on ⟨s.world, []⟩ = (result, t') ∧
      t.world = t'.world := alike.exists_on rfl
  obtain ⟨result, t, t', hr, hq, world⟩ := same
  rw [hr] at first
  rw [on_bind, hr]
  rcases result with f | x
  · dsimp only
    rw [onward_of_error hq, List.append_nil]
    exact first
  · dsimp only at first ⊢
    rw [onward_of_ok hq, ← world, shown_append, ← List.append_assoc, ← first]
    exact hk x t

theorem Prints.after_report (h : Prints debug r lines) {line : TraceLine} {text : String}
    (spelled : line.text = "[formula] " ++ text) :
    Prints debug (report debug line >>= fun _ => r) fun w => text :: lines w := by
  have reports : Prints debug (report debug line : Run φ ω Unit) fun _ => [text] := by
    intro s
    cases debug with
    | true =>
        show (s.trace ++ [line]).map TraceLine.text = _
        rw [List.map_append, List.map_singleton, spelled]
        rfl
    | false => exact (List.append_nil _).symm
  have quiet : Alike (report debug line : Run φ ω Unit) (pure ()) :=
    agrees_report debug false line line
  exact reports.bind quiet fun _ => h

end

end Run

/-! ## Quoted texts on the way -/

/-- Of the texts only the last one can fail, and its failure is the result. -/
def FailsLast (host : Host φ ω) (c : Context φ) (texts : List (Arrival φ ω))
    (result : Except Failure α) : Prop :=
  ∀ before q after f, texts = before ++ q :: after →
    ((evaluateText host false c q.text).outcome q.world).result = .error f →
    after = [] ∧ result = .error f

section

variable {host : Host φ ω} {c : Context φ} {texts more : List (Arrival φ ω)}
  {result : Except Failure β}

theorem failsLast_nil : FailsLast host c [] result := by
  intro before q after f whole
  simp at whole

theorem failsLast_singleton {q : Arrival φ ω} :
    FailsLast host c [q] ((evaluateText host false c q.text).outcome q.world).result := by
  intro before q' after f whole failed
  obtain ⟨rfl, alone⟩ | ⟨-, ⟨⟩⟩ := List.singleton_eq_append_iff.mp whole
  cases alone
  exact ⟨rfl, failed⟩

/-- Behind texts that lead to a value there may be more. -/
theorem FailsLast.append {x : α} (h : FailsLast host c texts (.ok x))
    (hmore : FailsLast host c more result) : FailsLast host c (texts ++ more) result := by
  intro before q after f whole failed
  rcases List.append_eq_append_iff.mp whole with ⟨middle, -, hm⟩ | ⟨middle, hx, hm⟩
  · exact hmore middle q after f hm failed
  · cases middle with
    | nil => exact hmore [] q after f hm.symm failed
    | cons p rest =>
        -- the failure is not one of the first texts, which led to a value
        cases hm
        cases (h before q rest f hx failed).2

theorem FailsLast.cast_error {f : Failure} (h : FailsLast host c texts (.error f : Except _ α)) :
    FailsLast host c texts (.error f : Except _ β) := by
  intro before q after g whole failed
  obtain ⟨nothing, same⟩ := h before q after g whole failed
  cases same
  exact ⟨nothing, rfl⟩

end

namespace Run

/-- A run does what the quiet one does. It prints the traces of the quoted texts that it reaches,
and nothing else; and if one of these fails, it is the last one and the run fails with it. -/
structure Traced (host : Host φ ω) (c : Context φ) (debug : Bool) (r quiet : Run φ ω α)
    (texts : World φ ω → List (Arrival φ ω)) : Prop where
  alike : Alike r quiet
  prints : Prints debug r fun w => (texts w).flatMap fun q => traceOf host c q.text q.world
  failsLast : ∀ w, FailsLast host c (texts w) (quiet.on ⟨w, []⟩).1

section

variable {host : Host φ ω} {c : Context φ} {debug : Bool} {r quiet : Run φ ω α}
  {k quietK : α → Run φ ω β} {texts texts' : World φ ω → List (Arrival φ ω)}

/-- A run that prints nothing. -/
theorem Traced.silent (alike : Alike r quiet) (keeps : ∀ s, (r.on s).2.trace = s.trace) :
    Traced host c debug r quiet fun _ => [] where
  alike := alike
  prints := prints_nothing keeps
  failsLast _ := failsLast_nil

theorem Traced.congr (h : Traced host c debug r quiet texts) (same : ∀ w, texts w = texts' w) :
    Traced host c debug r quiet texts' := by
  obtain rfl : texts = texts' := funext same
  exact h

theorem Traced.bind {onto : α → World φ ω → List (Arrival φ ω)}
    (h : Traced host c debug r quiet texts)
    (hk : ∀ x, Traced host c debug (k x) (quietK x) (onto x)) :
    Traced host c debug (r >>= k) (quiet >>= quietK)
      fun w => texts w ++ quiet.onward w onto where
  alike := h.alike.bind fun x => (hk x).alike
  prints := by
    refine (h.prints.bind h.alike fun x => (hk x).prints).congr fun w => ?_
    rw [List.flatMap_append, flatMap_onward]
  failsLast w := by
    have first := h.failsLast w
    rw [on_bind]
    rcases hq : quiet.on ⟨w, []⟩ with ⟨f | x, t⟩
    · rw [hq] at first
      rw [onward_of_error hq, List.append_nil]
      exact first.cast_error
    · rw [hq] at first
      rw [onward_of_ok hq]
      -- what was printed before makes no difference to what comes behind
      have same : ((quietK x).on t).1 = ((quietK x).on ⟨t.world, []⟩).1 :=
        ((hk x).alike t t rfl).1.symm.trans ((hk x).alike t ⟨t.world, []⟩ rfl).1
      refine first.append ?_
      dsimp only
      rw [same]
      exact (hk x).failsLast t.world

/-- Behind a run there is more that prints nothing. -/
theorem Traced.bind_silent (h : Traced host c debug r quiet texts)
    (hk : ∀ x, Traced host c debug (k x) (quietK x) fun _ => []) :
    Traced host c debug (r >>= k) (quiet >>= quietK) texts :=
  (h.bind hk).congr fun w => by rw [onward_nil, List.append_nil]

/-! ## The parts of an evaluation -/

theorem traced_pure (x : α) :
    Traced host c debug (pure x : Run φ ω α) (pure x) fun _ => [] :=
  .silent (agrees_pure x) fun _ => rfl

theorem traced_throw (f : Failure) :
    Traced host c debug (throw f : Run φ ω α) (throw f) fun _ => [] :=
  .silent (agrees_throw f) fun _ => rfl

/-- A function of the host prints nothing into the trace. -/
theorem traced_call (f : Function φ) (args : List Float) :
    Traced host c debug (call host f args) (call host f args) fun _ => [] := by
  refine .silent (agrees_call host.agrees_self f args) fun s => ?_
  cases f with
  | host arity code => rfl
  | builtin b =>
      rw [call]
      cases b.value? args <;> rfl

/-- What goes on behind a name, if it stands for something. -/
theorem traced_resolve_bind {k quietK : Value φ → Run φ ω β}
    (onto : Value φ → World φ ω → List (Arrival φ ω)) (name : String)
    (hk : ∀ v, Traced host c debug (k v) (quietK v) (onto v)) :
    Traced host c debug (resolve c name >>= k) (resolve c name >>= quietK) fun w =>
      match c.lookup? w.scopes name with
      | some v => onto v w
      | none => [] := by
  have same : Traced host c debug (resolve c name) (resolve c name) fun _ => [] := by
    refine .silent (agrees_resolve c.agrees_self name) fun s => ?_
    rw [on_resolve]
    cases c.lookup? s.world.scopes name <;> rfl
  refine (same.bind hk).congr fun w => ?_
  rw [List.nil_append, onward, on_resolve]
  cases c.lookup? w.scopes name <;> rfl

end

end Run

/-! ## The evaluator -/

section

variable (host : Host φ ω) (debug : Bool)

mutual

theorem evaluate_traced (c : Context φ) (e : Expr) :
    Run.Traced host c debug (evaluate host debug c e) (evaluate host false c e)
      (arrivals host c e) := by
  cases e with
  | number value =>
      rw [evaluate, evaluate]
      exact Run.traced_pure value
  | identifier name =>
      rw [evaluate, evaluate]
      refine (Run.traced_resolve_bind (fun _ _ => []) name fun v => ?_).congr fun w => ?_
      · cases v with
        | number x => exact Run.traced_pure x
        | function f => exact Run.traced_throw _
      · rw [arrivals]
        cases c.lookup? w.scopes name <;> rfl
  | binary left op right =>
      rw [evaluate, evaluate]
      refine ((evaluate_traced c left).bind fun a => (evaluate_traced c right).bind_silent fun b =>
        ?_).congr fun w => by rw [arrivals]
      cases Operator.ofKind? op with
      | some operator => exact Run.traced_pure _
      | none => exact Run.traced_throw _
  | call name arguments =>
      rw [evaluate, evaluate]
      refine (Run.traced_resolve_bind (fun v w => match v with
        | .number _ => []
        | .function _ => arrivalsAll host c arguments w) name fun v => ?_).congr fun w => ?_
      · cases v with
        | number x => exact Run.traced_throw _
        | function f => exact (evaluateAll_traced c arguments).bind_silent (Run.traced_call f)
      · rw [arrivals]
        rcases c.lookup? w.scopes name with _ | _ | _ <;> rfl
  | quoted source =>
      rw [evaluate, evaluate]
      refine ⟨evaluateText_agrees host.agrees_self debug false c.agrees_self source, ?_, ?_⟩
      · refine (evaluateText_prints c source).congr fun w => ?_
        rw [arrivals, List.flatMap_singleton]
      · intro w
        rw [arrivals]
        exact failsLast_singleton
  | bare =>
      rw [evaluate, evaluate]
      exact Run.traced_throw _
termination_by 2 * e.work
decreasing_by all_goals simp only [Expr.work]; omega

theorem evaluateAll_traced (c : Context φ) (es : List Expr) :
    Run.Traced host c debug (evaluateAll host debug c es) (evaluateAll host false c es)
      (arrivalsAll host c es) := by
  cases es with
  | nil =>
      rw [evaluateAll, evaluateAll]
      exact Run.traced_pure []
  | cons e more =>
      rw [evaluateAll, evaluateAll]
      exact ((evaluate_traced c e).bind fun x => (evaluateAll_traced c more).bind_silent fun xs =>
        Run.traced_pure (x :: xs)).congr fun w => by rw [arrivalsAll]
termination_by 2 * Expr.workAll es + 1
decreasing_by
  all_goals
    have := e.work_pos
    simp only [Expr.workAll]
    omega

theorem evaluateText_prints (c : Context φ) (source : String) :
    Run.Prints debug (evaluateText host debug c source) (traceOf host c source) := by
  cases h : parse source with
  | error f =>
      rw [evaluateText_of_error host debug c h]
      have fails : Run.Prints debug (throw (.source f) : Run φ ω Float) fun _ => [] :=
        Run.prints_nothing fun _ => rfl
      refine (fails.after_report (TraceLine.text_parsing source)).congr fun w => ?_
      rw [traceOf_of_error host c h]
  | ok e =>
      have shrinks := work_le_of_parse h
      rw [evaluateText_of_ok host debug c h]
      have tree := evaluate_traced c.underBuiltins e
      have value (x : Float) : Run.Prints debug
          (do Run.report debug (.result x); pure x : Run φ ω Float)
          fun _ => ["  result " ++ Number.text x] :=
        (Run.prints_nothing fun _ => rfl).after_report (TraceLine.text_result x)
      have whole := (((tree.prints.bind tree.alike value).after_report
        TraceLine.text_evaluation).after_report (TraceLine.text_root e.shape)).after_report
        (TraceLine.text_parsing source)
      refine whole.congr fun w => ?_
      rw [traceOf_of_ok host c h]
      rfl
termination_by 2 * source.length + 1

end

end

/-- **Tracing is transparent, and the trace tells the run.** With tracing a text has the same value
or failure, makes the same calls of the host and leaves the same world as without. What is printed
is the trace of the text, line by line. Without tracing nothing is printed, so evaluations that
functions of the host start without it, in whatever scope and world, leave no lines between. Of the
quoted texts that evaluation reaches only the last one can fail, and its failure is that of the
whole. -/
theorem evaluateText_tracing (host : Host φ ω) (base : Option ScopeId) (source : String)
    (w : World φ ω) :
    (evaluateText host.recorded true (.ofScope base) source).effect w =
        (evaluateText host.recorded false (.ofScope base) source).effect w ∧
      traceText ((evaluateText host true (.ofScope base) source).outcome w).trace =
        String.join ((traceOf host (.ofScope base) source w).map fun line =>
          "[formula] " ++ line ++ "\n") ∧
      (∀ base' source' w',
        ((evaluateText host false (.ofScope base') source').outcome w').trace = []) ∧
      ∀ c e v, FailsLast host c (arrivals host c e v)
        ((evaluate host false c e).outcome v).result := by
  refine ⟨?_, ?_, ?_, ?_⟩
  · have same : Run.Alike (evaluateText host.recorded true (.ofScope base) source)
        (evaluateText host.recorded false (.ofScope base) source) :=
      evaluateText_agrees host.recorded.agrees_self true false (Context.agrees_self _) source
    exact same.effect_eq w
  · have printed := evaluateText_prints host true (.ofScope base) source ⟨w, []⟩
    have lines := congrArg (List.map (· ++ "\n")) printed
    rw [Session.printed, Session.printed, List.map_nil, List.nil_append, shown, if_pos rfl,
      List.map_map, List.map_map] at lines
    exact congrArg String.join lines
  · intro base' source' w'
    have printed := evaluateText_prints host false (.ofScope base') source' ⟨w', []⟩
    exact List.map_eq_nil_iff.mp printed
  · intro c e v
    exact (evaluate_traced host false c e).failsLast v

/-- The trace of a quoted text that is cut short ends where it fails. -/
example (host : Host φ ω) (w : World φ ω) : traceOf host (.ofScope none) "\"y +\"" w =
    ["Phase 1: Parsing " ++ Text.quoted "\"y +\"", "  root NestedNode", "Phase 2: Evaluation",
      "Phase 1: Parsing " ++ Text.quoted "y +"] := by
  have outer : parse "\"y +\"" = .ok (.quoted "y +") := by cbv
  have inner : parse "y +" = .error (.grammar ⟨.cutShort, 3⟩) := by cbv
  rw [traceOf_of_ok host _ outer, arrivals, List.flatMap_singleton, traceOf_of_error host _ inner,
    evaluate, evaluateText_of_error host false _ inner]
  rfl

end Reckoner
