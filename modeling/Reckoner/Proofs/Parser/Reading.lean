import Reckoner.Parser

/-!
# Which tokens a parse takes

The parser has always pulled one token more than it took. `taken` are the tokens that it took, and
`run_eq_ok_iff` reads a run of the parser off the tokens of the text: it takes a number of them,
one step each, and then the next token or the end of the text completes the expression.
-/

namespace Reckoner.Parser

/-- The tokens that reading on from a state takes: those shifted by `run`. -/
def taken (s : State) (l : Lexer) : List Token :=
  match h : l.next with
  | (.token t, after) =>
      have := Lexer.length_next_lt h
      match s.feed t with
      | .shift next => t :: taken next after
      | .accept _ | .fail _ => []
  | (.done, _) | (.fault _, _) => []
termination_by l.rest.length

/-- The state after taking tokens, if it can take them all. -/
def State.take? (s : State) : List Token → Option State
  | [] => some s
  | t :: more =>
      match s.feed t with
      | .shift next => next.take? more
      | .accept _ | .fail _ => none

/-- The token that follows, or the end of the text, completes an expression. -/
def State.Completes (s : State) (length : Nat) (following : Option Token) (e : Expr) : Prop :=
  match following with
  | none => s.finish length = .ok e
  | some t => s.feed t = .accept e

@[simp] theorem State.take?_nil (s : State) : s.take? [] = some s := rfl

theorem State.take?_cons {s next : State} {t : Token} (h : s.feed t = .shift next)
    (more : List Token) : s.take? (t :: more) = next.take? more := by
  rw [State.take?, h]

theorem State.take?_append (s : State) (ts us : List Token) :
    s.take? (ts ++ us) = (s.take? ts).bind (·.take? us) := by
  induction ts generalizing s with
  | nil => rfl
  | cons t more ih =>
      rw [List.cons_append, State.take?, State.take?]
      cases s.feed t with
      | shift next => exact ih next
      | accept e => rfl
      | fail f => rfl

/-! ## From lexers to lists of tokens -/

theorem exists_next_of_tokens {l : Lexer} {ts : List Token} (h : l.tokens = .ok ts) :
    (ts = [] ∧ ∃ after, l.next = (.done, after)) ∨
      ∃ t us after, ts = t :: us ∧ l.next = (.token t, after) ∧ after.tokens = .ok us := by
  rw [Lexer.tokens] at h
  split at h
  · next after hn =>
      cases h
      exact .inl ⟨rfl, after, hn⟩
  · cases h
  · next t after hn =>
      dsimp only at h
      split at h
      · next us hs =>
          cases h
          exact .inr ⟨t, us, after, rfl, hn, hs⟩
      · cases h

section

variable {l after : Lexer} {s : State} {t : Token} (length : Nat)

theorem run_of_done (h : l.next = (.done, after)) :
    run length s l = ((s.finish length).mapError .grammar, after) ∧ taken s l = [] := by
  rw [run, taken]
  constructor
  · split <;> simp_all
  · split <;> simp_all

theorem run_of_fault {f : LexicalFault} (h : l.next = (.fault f, after)) :
    run length s l = (.error (.lexical f), after) := by
  rw [run]
  split <;> simp_all

theorem run_of_shift {next : State} (h : l.next = (.token t, after)) (hs : s.feed t = .shift next) :
    run length s l = run length next after ∧ taken s l = t :: taken next after := by
  rw [run, taken]
  constructor
  · split <;> simp_all
  · split <;> simp_all

theorem run_of_accept {e : Expr} (h : l.next = (.token t, after)) (hs : s.feed t = .accept e) :
    run length s l = (.ok e, after) ∧ taken s l = [] := by
  rw [run, taken]
  constructor
  · split <;> simp_all
  · split <;> simp_all

theorem run_of_fail {f : GrammarFault} (h : l.next = (.token t, after))
    (hs : s.feed t = .fail f) :
    run length s l = (.error (.grammar f), after) ∧ taken s l = [] := by
  rw [run, taken]
  constructor
  · split <;> simp_all
  · split <;> simp_all

end

theorem mapError_eq_ok_iff {α ε ε' : Type} {x : Except ε α} {f : ε → ε'} {a : α} :
    x.mapError f = .ok a ↔ x = .ok a := by
  cases x with
  | ok b =>
      constructor
      · rintro ⟨⟩
        rfl
      · rintro ⟨⟩
        rfl
  | error e =>
      constructor
      · rintro ⟨⟩
      · rintro ⟨⟩

/-- A run that ends with an expression has taken tokens one by one, and what follows them completes
the expression. -/
theorem run_eq_ok_iff {l : Lexer} {ts : List Token} (h : l.tokens = .ok ts) (length : Nat)
    (s : State) (e : Expr) {k : Nat} (hk : k ≤ ts.length) :
    ((run length s l).1 = .ok e ∧ taken s l = ts.take k) ↔
      ∃ last, s.take? (ts.take k) = some last ∧ last.Completes length ts[k]? e := by
  induction ts generalizing l s k with
  | nil =>
      obtain ⟨-, after, hn⟩ | ⟨t, us, after, hts, -⟩ := exists_next_of_tokens h
      · obtain ⟨ran, took⟩ := run_of_done (s := s) length hn
        rw [ran, took]
        simpa [State.Completes] using mapError_eq_ok_iff
      · cases hts
  | cons t us ih =>
      obtain ⟨hts, -⟩ | ⟨t', us', after, hts, hn, rest⟩ := exists_next_of_tokens h
      · cases hts
      · cases hts
        cases k with
        | zero =>
            -- no token may be taken, so the first one has to complete the expression
            cases hs : s.feed t with
            | shift next =>
                obtain ⟨-, took⟩ := run_of_shift length hn hs
                simp [took, State.Completes, hs]
            | accept e' =>
                obtain ⟨ran, took⟩ := run_of_accept length hn hs
                simp [ran, took, State.Completes, hs]
            | fail f =>
                obtain ⟨ran, took⟩ := run_of_fail length hn hs
                simp [ran, took, State.Completes, hs]
        | succ k =>
            -- the first token has to be taken, and the run goes on with the others
            rw [List.take_succ_cons, List.getElem?_cons_succ, State.take?]
            cases hs : s.feed t with
            | shift next =>
                obtain ⟨ran, took⟩ := run_of_shift length hn hs
                rw [ran, took, List.cons_inj_right]
                exact ih rest next (Nat.le_of_succ_le_succ hk)
            | accept e' =>
                obtain ⟨-, took⟩ := run_of_accept length hn hs
                simp [took]
            | fail f =>
                obtain ⟨-, took⟩ := run_of_fail length hn hs
                simp [took]

end Reckoner.Parser
