import Reckoner.Proofs.Parser.Reading

/-!
# Positions decide nothing

The parser keeps positions only to put them into faults. `unplaced` takes them out of a state and
out of what a step gives, and a step is the same before and after (`feed_unplaced`). So two lists of
tokens with the same lexemes lead to the same state, up to positions.
-/

namespace Reckoner.Parser

/-! ## States and steps without positions -/

def Opening.unplaced : Opening → Opening
  | .group _ => .group 0
  | .arguments name before => .arguments name before

def Level.unplaced (l : Level) : Level := ⟨l.opening.unplaced, l.pending⟩

def State.unplaced : State → State
  | .expecting pending outer => .expecting pending (outer.map Level.unplaced)
  | .basic e _ pending outer => .basic e 0 pending (outer.map Level.unplaced)
  | .called e pending outer => .called e pending (outer.map Level.unplaced)

def Step.unplaced : Step → Step
  | .shift next => .shift next.unplaced
  | .accept e => .accept e
  | .fail f => .fail ⟨f.cause, 0⟩

@[simp] theorem Level.unplaced_group (start : Nat) (pending : List Pending) :
    Level.unplaced ⟨.group start, pending⟩ = ⟨.group 0, pending⟩ := rfl

@[simp] theorem Level.unplaced_arguments (name : String) (before : List Expr)
    (pending : List Pending) :
    Level.unplaced ⟨.arguments name before, pending⟩ = ⟨.arguments name before, pending⟩ := rfl

@[simp] theorem Level.unplaced_unplaced (l : Level) : l.unplaced.unplaced = l.unplaced := by
  rcases l with ⟨opening, pending⟩
  cases opening <;> rfl

/-! ## One step -/

section

variable (t : Token) (e : Expr) (pending : List Pending) (outer : List Level)

theorem begin_unplaced :
    (begin ⟨t.lexeme, 0⟩ pending (outer.map Level.unplaced)).unplaced =
      (begin t pending outer).unplaced := by
  obtain ⟨x, position⟩ := t
  cases x with
  | number | word | quoted => simp [begin, Step.unplaced, State.unplaced]
  | symbol s => cases s <;> simp [begin, Step.unplaced, State.unplaced]

theorem close_unplaced :
    (close ⟨t.lexeme, 0⟩ e (outer.map Level.unplaced)).unplaced = (close t e outer).unplaced := by
  fun_cases close t e outer <;> simp_all [close, Step.unplaced, State.unplaced]

theorem proceed_unplaced :
    (proceed ⟨t.lexeme, 0⟩ e pending (outer.map Level.unplaced)).unplaced =
      (proceed t e pending outer).unplaced := by
  rw [proceed, proceed]
  cases Operator.ofKind? t.lexeme.kind with
  | none => exact close_unplaced t _ outer
  | some op => simp [Step.unplaced, State.unplaced]

/-- **A step makes nothing of positions.** -/
theorem feed_unplaced (s : State) :
    (s.unplaced.feed ⟨t.lexeme, 0⟩).unplaced = (s.feed t).unplaced := by
  cases s with
  | expecting pending outer => exact begin_unplaced t pending outer
  | called e pending outer => exact proceed_unplaced t e pending outer
  | basic e start pending outer =>
      simp only [State.feed, State.unplaced]
      split
      · exact begin_unplaced t _ outer
      · exact begin_unplaced t _ outer
      · simp [Step.unplaced, State.unplaced]
      · rfl
      · rfl
      · rfl
      · exact proceed_unplaced t e pending outer

end

/-! ## Many steps -/

section

variable {s s' last : State} {t t' : Token} {ts ts' : List Token}

theorem feed_alike (states : s.unplaced = s'.unplaced) (lexemes : t.lexeme = t'.lexeme) :
    (s.feed t).unplaced = (s'.feed t').unplaced := by
  rw [← feed_unplaced t s, ← feed_unplaced t' s', states, lexemes]

/-- Tokens with the same lexemes lead to the same state, up to positions. -/
theorem take?_alike (states : s.unplaced = s'.unplaced)
    (lexemes : ts.map Token.lexeme = ts'.map Token.lexeme) (led : s.take? ts = some last) :
    ∃ last', s'.take? ts' = some last' ∧ last.unplaced = last'.unplaced := by
  induction ts generalizing s s' ts' with
  | nil =>
      obtain rfl : ts' = [] := List.map_eq_nil_iff.mp lexemes.symm
      cases led
      exact ⟨s', rfl, states⟩
  | cons t more ih =>
      obtain ⟨t', more', rfl, same, rest⟩ := List.map_eq_cons_iff.mp lexemes.symm
      have step := feed_alike states same.symm
      rw [State.take?] at led ⊢
      split at led
      · next next hs =>
          -- both states shift, and go on in states that are alike
          rw [hs] at step
          cases hs' : s'.feed t' with
          | shift next' =>
              rw [hs'] at step
              exact ih (Step.shift.inj step) rest.symm led
          | accept e => rw [hs'] at step; cases step
          | fail f => rw [hs'] at step; cases step
      · cases led
      · cases led

/-- A token that one state refuses is refused by every state that differs in positions only. -/
theorem fail_alike {f : GrammarFault} (states : s.unplaced = s'.unplaced)
    (lexemes : t.lexeme = t'.lexeme) (refused : s.feed t = .fail f) :
    ∃ position, s'.feed t' = .fail ⟨f.cause, position⟩ := by
  have step := feed_alike states lexemes
  rw [refused] at step
  cases hs' : s'.feed t' with
  | shift next => rw [hs'] at step; cases step
  | accept e => rw [hs'] at step; cases step
  | fail f' =>
      rw [hs'] at step
      have faults : (⟨f.cause, 0⟩ : GrammarFault) = ⟨f'.cause, 0⟩ := Step.fail.inj step
      exact ⟨f'.position, by rw [(GrammarFault.mk.inj faults).1]⟩

end

end Reckoner.Parser
