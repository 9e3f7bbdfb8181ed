import Reckoner.Proofs.Parser.Completeness

/-!
# Whatever the parser takes has a derivation

The invariant says what was read for everything in a state. `Awaits` does so for what is pending
inside one bracket, together with the level of operand that it waits for; `Opened` does so for the
brackets that are open; `Reads` puts both together with the term that has just ended. Every step
keeps it, and where the parser accepts it leaves a derivation of all that was taken.
-/

namespace Reckoner.Parser

open Reckoner.Grammar

/-! ## What was read for what is pending -/

/-- An operand of a call without brackets has to begin as one; others may begin anyhow. -/
def Admits (l : Grammar.Level) (v : List Lexeme) : Prop := l = .call → BeginsOperand v

/-- The lexemes `w` were read for what is pending, and a phrase of level `l` has to follow. -/
inductive Awaits : Grammar.Level → List Pending → List Lexeme → Prop
  | nothing : Awaits .sum [] []
  | operation {l op pending w v left ending} : Awaits l pending w → l.rank ≤ op.tightness →
      Derives (leftOf op) v left ending →
      Awaits (rightOf op) (.operation left op :: pending) (w ++ v ++ [.symbol op.symbol])
  | implicitCall {l pending w v callee name} : Awaits l pending w → Admits l v →
      Derives .basic v callee .plain → Callee callee name →
      Awaits .call (.implicitCall name :: pending) (w ++ v)

section

variable {l m : Grammar.Level} {pending : List Pending} {w v : List Lexeme} {e : Expr}
  {ending : Ending}

theorem Awaits.rank_le (h : Awaits l pending w) : l.rank ≤ 4 := by
  cases h with
  | nothing => decide
  | @operation _ op => cases op <;> decide
  | implicitCall => decide

theorem Admits.append (h : Admits l v) (u : List Lexeme) : Admits l (v ++ u) :=
  fun isCall => (h isCall).append u

theorem admits_of_rank_le (h : l.rank ≤ 3) (v : List Lexeme) : Admits l v := by
  rintro rfl
  exact absurd h (by decide)

/-- A phrase that was waited for completes the operation that waited for it. -/
theorem Awaits.complete_operation {left : Expr} {op : Operator}
    (h : Awaits l (.operation left op :: pending) w) (he : Derives m v e ending)
    (le : l.rank ≤ m.rank) :
    ∃ l' w' v', Awaits l' pending w' ∧ l'.rank ≤ op.tightness ∧ w ++ v = w' ++ v' ∧
      Derives (levelOf op) v' (.binary left op.kind e) ending := by
  cases h with
  | @operation l' _ _ w' u _ _ awaits loose hleft =>
      refine ⟨l', w', u ++ .symbol op.symbol :: v, awaits, loose, by simp, ?_⟩
      exact hleft.binary (he.loosen le)

/-- A phrase that was waited for completes the call that waited for it. -/
theorem Awaits.complete_implicitCall {name : String}
    (h : Awaits l (.implicitCall name :: pending) w) (he : Derives m v e ending)
    (le : l.rank ≤ m.rank) (admits : Admits l v) :
    ∃ l' w' v', Awaits l' pending w' ∧ Admits l' v' ∧ w ++ v = w' ++ v' ∧
      Derives .call v' (.call name [e]) ending := by
  cases h with
  | @implicitCall l' _ w' u _ _ awaits admitsCallee hcallee called =>
      refine ⟨l', w', u ++ v, awaits, admitsCallee.append v, by simp, ?_⟩
      exact .implicitCall hcallee called (he.loosen le) (admits rfl)

/-- What an operator settles is a phrase that it takes as its left operand, and what stays pending
waits for an operation of it. -/
theorem Awaits.settled (h : Awaits l pending w) (he : Derives m v e ending) (le : l.rank ≤ m.rank)
    (admits : Admits l v) (next : Operator) (fits : (leftOf next).rank ≤ m.rank) :
    ∃ l' w' v', Awaits l' (settle next e pending).2 w' ∧ l'.rank ≤ next.tightness ∧
      w ++ v = w' ++ v' ∧ Derives (leftOf next) v' (settle next e pending).1 ending := by
  -- what ends becomes a phrase itself, and what waited below it takes that phrase
  fun_induction settle next e pending generalizing l m w v with
  | case1 e =>
      cases h with
      | nothing =>
          refine ⟨.sum, [], v, .nothing, ?_, rfl, he.loosen fits⟩
          cases next <;> decide
  | case2 e name pending ih =>
      obtain ⟨l', w', v', awaits, admits', same, call⟩ := h.complete_implicitCall he le admits
      rw [same]
      exact ih awaits call awaits.rank_le admits' (by cases next <;> decide)
  | case3 e left op pending ends ih =>
      obtain ⟨l', w', v', awaits, loose, same, operation⟩ := h.complete_operation he le
      have fits' : (leftOf next).rank ≤ (levelOf op).rank := by
        revert ends
        cases op <;> cases next <;> decide
      rw [same]
      rw [← rank_levelOf] at loose
      exact ih awaits operation loose
        (admits_of_rank_le (Nat.le_trans loose (by cases op <;> decide)) v') fits'
  | case4 e left op pending stays =>
      refine ⟨l, w, v, h, ?_, rfl, he.loosen fits⟩
      cases h with
      | operation =>
          revert stays
          cases op <;> cases next <;> decide

/-- Where a bracket closes, everything pending inside becomes one phrase. -/
theorem Awaits.settledAll (h : Awaits l pending w) (he : Derives m v e ending)
    (le : l.rank ≤ m.rank) (admits : Admits l v) :
    Derives .sum (w ++ v) (settleAll e pending) ending := by
  fun_induction settleAll e pending generalizing l m w v with
  | case1 e =>
      cases h with
      | nothing => exact he.loosen le
  | case2 e name pending ih =>
      obtain ⟨l', w', v', awaits, admits', same, call⟩ := h.complete_implicitCall he le admits
      rw [same]
      exact ih awaits call awaits.rank_le admits'
  | case3 e left op pending ih =>
      obtain ⟨l', w', v', awaits, loose, same, operation⟩ := h.complete_operation he le
      rw [same]
      rw [← rank_levelOf] at loose
      exact ih awaits operation loose
        (admits_of_rank_le (Nat.le_trans loose (by cases op <;> decide)) v')

end

/-! ## What was read for open brackets -/

/-- The lexemes `u` were read up to the innermost open bracket, with the arguments that are already
complete inside it. A bracket around an expression is an operand, and never that of a call without
brackets. -/
inductive Opened : List Level → List Lexeme → Prop
  | nothing : Opened [] []
  | group {outer u l pending w start} : Opened outer u → Awaits l pending w → l ≠ .call →
      Opened (⟨.group start, pending⟩ :: outer) (u ++ w ++ [.symbol .lparen])
  | arguments {outer u l pending w v callee name} {args : List Argument} :
      Opened outer u → Awaits l pending w → Admits l v → Derives .basic v callee .plain →
      Callee callee name →
      (∀ a ∈ args, Derives .sum a.lexemes a.tree a.ending) →
      Opened (⟨.arguments name (args.map Argument.tree), pending⟩ :: outer)
        (u ++ w ++ v ++ .symbol .lparen :: args.flatMap Argument.withComma)

/-- The lexemes that were read for everything in a state. -/
inductive Reads : State → List Lexeme → Prop
  | expecting {outer u l pending w} : Opened outer u → Awaits l pending w → l ≠ .call →
      Reads (.expecting pending outer) (u ++ w)
  | basic {outer u l pending w v e start} : Opened outer u → Awaits l pending w → Admits l v →
      Derives .basic v e .plain → Reads (.basic e start pending outer) (u ++ w ++ v)
  | called {outer u l pending w v e} : Opened outer u → Awaits l pending w → Admits l v →
      Derives .call v e .arguments → Reads (.called e pending outer) (u ++ w ++ v)

theorem reads_start : Reads .start [] := .expecting .nothing .nothing (by decide)

/-! ## One step -/

section

variable {t : Token} {next : State} {outer : List Level} {u w v : List Lexeme}
  {l : Grammar.Level} {pending : List Pending} {e : Expr} {ending : Ending}

/-- A lexeme that is not the opening bracket of a group begins an operand as a basic term. -/
theorem begin_reads (hs : begin t pending outer = .shift next) (opened : Opened outer u)
    (awaits : Awaits l pending w)
    (kind : l = .call → t.lexeme.kind = .number ∨ t.lexeme.kind = .word) :
    Reads next (u ++ w ++ [t.lexeme]) := by
  obtain ⟨x, position⟩ := t
  have admits : Admits l [x] := fun h => ⟨x, rfl, kind h⟩
  cases x with
  | number digits => cases hs; exact .basic opened awaits admits (.number digits)
  | word name => cases hs; exact .basic opened awaits admits (.word name)
  | quoted inner => cases hs; exact .basic opened awaits admits (.quoted inner)
  | symbol s =>
      cases s with
      | lparen =>
          cases hs
          have operand : l ≠ .call := fun h => by simpa [Lexeme.kind] using kind h
          have group : Opened (⟨.group position, pending⟩ :: outer) (u ++ w ++ [.symbol .lparen]) :=
            .group opened awaits operand
          have read := Reads.expecting group .nothing (by decide)
          rwa [List.append_nil] at read
      | _ => cases hs

theorem close_reads (hs : close t e outer = .shift next) (opened : Opened outer u)
    (inside : Derives .sum v e ending) : Reads next (u ++ v ++ [t.lexeme]) := by
  cases opened with
  | nothing => cases hs
  | @group outer u l pending w start opened awaits operand =>
      rw [close] at hs
      split at hs
      · next ht =>
          cases hs
          have admits : Admits l (.symbol .lparen :: v ++ [.symbol .rparen]) :=
            fun h => absurd h operand
          have read : Reads (.basic e start pending outer) _ :=
            .basic opened awaits admits (.group inside)
          simpa [ht] using read
      · cases hs
  | @arguments outer u l pending w v' callee name args opened awaits admits hcallee called hargs =>
      have all : ∀ a ∈ args ++ [⟨v, e, ending⟩], Derives .sum a.lexemes a.tree a.ending := by
        rw [List.forall_mem_append]
        exact ⟨hargs, by simpa using inside⟩
      rw [close] at hs
      split at hs
      · next ht =>
          cases hs
          have more := Opened.arguments opened awaits admits hcallee called all
          have read := Reads.expecting more .nothing (by decide)
          simpa [ht, Argument.withComma] using read
      · split at hs
        · next ht =>
            cases hs
            have call := Derives.explicitCall hcallee called (by simp) all
            have read := Reads.called opened awaits ((admits.append _).append _) call
            simpa [ht, separated_concat] using read
        · cases hs

theorem proceed_reads (hs : proceed t e pending outer = .shift next) (opened : Opened outer u)
    (awaits : Awaits l pending w) (admits : Admits l v) (term : Derives .call v e ending) :
    Reads next (u ++ w ++ v ++ [t.lexeme]) := by
  rw [proceed] at hs
  split at hs
  · next op isOperator =>
      cases hs
      obtain ⟨l', w', v', awaits', loose, same, left⟩ :=
        awaits.settled term awaits.rank_le admits op (by cases op <;> decide)
      have operand : rightOf op ≠ .call := by cases op <;> decide
      have read := Reads.expecting opened (Awaits.operation awaits' loose left) operand
      have ht : t.lexeme = .symbol op.symbol :=
        Lexeme.eq_symbol_of_kind (Operator.ofKind?_eq_some_iff.mp isOperator)
      rw [List.append_assoc u w v, same, ht]
      simpa using read
  · have read := close_reads hs opened (awaits.settledAll term awaits.rank_le admits)
    simpa using read

/-- What a token does behind a basic term: it begins the argument of an implicit call, opens the
arguments of a call, finds that there is nothing to call, or goes on after the term. -/
theorem feed_basic_cases (t : Token) (e : Expr) (start : Nat) (pending : List Pending)
    (outer : List Level) :
    (∃ name, Callee e name ∧ (t.lexeme.kind = .number ∨ t.lexeme.kind = .word) ∧
      (State.basic e start pending outer).feed t =
        begin t (.implicitCall name :: pending) outer) ∨
    (∃ name, Callee e name ∧ t.lexeme = .symbol .lparen ∧
      (State.basic e start pending outer).feed t =
        .shift (.expecting [] (⟨.arguments name [], pending⟩ :: outer))) ∨
    (∃ f, (State.basic e start pending outer).feed t = .fail f) ∨
    (t.lexeme.kind ≠ .number ∧ t.lexeme.kind ≠ .word ∧ t.lexeme ≠ .symbol .lparen ∧
      (State.basic e start pending outer).feed t = proceed t e pending outer) := by
  by_cases plain : t.lexeme.kind ≠ .number ∧ t.lexeme.kind ≠ .word ∧ t.lexeme ≠ .symbol .lparen
  · -- nothing that a basic term could be called with: the token is read as behind any phrase
    have ends : Ending.plain = .plain → t.lexeme.kind ≠ .number ∧ t.lexeme.kind ≠ .word ∧
        t.lexeme ≠ .symbol .lparen := fun _ => plain
    obtain ⟨noNumber, noWord, noBracket⟩ := plain
    exact .inr (.inr (.inr
      ⟨noNumber, noWord, noBracket, feed_ended ends e start pending outer⟩))
  · obtain ⟨x, position⟩ := t
    cases hn : calleeName? e with
    | none =>
        refine .inr (.inr (.inl ⟨⟨.notCallable e.shape, start⟩, ?_⟩))
        rw [State.feed, hn]
        cases x with
        | number digits => rfl
        | word name => rfl
        | quoted inner => simp [Lexeme.kind] at plain
        | symbol s => cases s <;> simp [Lexeme.kind] at plain ⊢
    | some name =>
        have called := callee_iff.mpr hn
        cases x with
        | number digits => exact .inl ⟨name, called, .inl rfl, by rw [State.feed, hn]⟩
        | word other => exact .inl ⟨name, called, .inr rfl, by rw [State.feed, hn]⟩
        | quoted inner => simp [Lexeme.kind] at plain
        | symbol s =>
            obtain rfl : s = .lparen := by simpa [Lexeme.kind] using plain
            exact .inr (.inl ⟨name, called, rfl, by rw [State.feed, hn]⟩)

/-- **One step keeps the invariant.** -/
theorem Reads.step {s : State} (h : Reads s w) (hs : s.feed t = .shift next) :
    Reads next (w ++ [t.lexeme]) := by
  cases h with
  | expecting opened awaits operand =>
      exact begin_reads hs opened awaits fun h => absurd h operand
  | called opened awaits admits term =>
      exact proceed_reads hs opened awaits admits term
  | @basic outer _ _ pending _ _ e start opened awaits admits term =>
      obtain ⟨name, called, kind, feed⟩ | ⟨name, called, ht, feed⟩ | ⟨f, feed⟩ | ⟨-, -, -, feed⟩ :=
        feed_basic_cases t e start pending outer
      · rw [feed] at hs
        have read := begin_reads hs opened (.implicitCall awaits admits term called) fun _ => kind
        simpa using read
      · rw [feed] at hs
        cases hs
        have none : ∀ a ∈ ([] : List Argument), Derives .sum a.lexemes a.tree a.ending := by simp
        have arguments := Opened.arguments opened awaits admits term called none
        have read := Reads.expecting arguments .nothing (by decide)
        simpa [ht] using read
      · rw [feed] at hs
        cases hs
      · rw [feed] at hs
        exact proceed_reads hs opened awaits admits (.ofBasic term)

/-! ## Where the parser accepts -/

theorem accept_of_close {e' : Expr} (h : close t e outer = .accept e') : outer = [] ∧ e = e' := by
  revert h
  fun_cases close t e outer <;> simp

theorem accept_of_proceed {e' : Expr} (h : proceed t e pending outer = .accept e') :
    (∀ op : Operator, t.lexeme ≠ .symbol op.symbol) ∧ outer = [] ∧ settleAll e pending = e' := by
  rw [proceed] at h
  split at h
  · cases h
  · next noOperator =>
      refine ⟨fun op ht => ?_, accept_of_close h⟩
      rw [ofKind?_symbol ht] at noOperator
      cases noOperator

theorem Awaits.derives (awaits : Awaits l pending w) (admits : Admits l v)
    (term : Derives .call v e ending) (opened : Opened [] u) :
    Derives .sum (u ++ w ++ v) (settleAll e pending) ending := by
  cases opened
  exact awaits.settledAll term awaits.rank_le admits

theorem Reads.accept {s : State} (h : Reads s w) (hs : s.feed t = .accept e) :
    ∃ ending, Derives .sum w e ending ∧ Stops ending t.lexeme := by
  cases h with
  | expecting opened awaits operand =>
      rw [State.feed, begin] at hs
      split at hs <;> cases hs
  | called opened awaits admits term =>
      obtain ⟨noOperator, rfl, rfl⟩ := accept_of_proceed hs
      exact ⟨_, awaits.derives admits term opened, noOperator, fun h => by cases h⟩
  | @basic outer _ _ pending _ _ e start opened awaits admits term =>
      obtain ⟨name, called, kind, feed⟩ | ⟨name, called, ht, feed⟩ | ⟨f, feed⟩ |
        ⟨noNumber, noWord, noBracket, feed⟩ := feed_basic_cases t e start pending outer
      · rw [feed, begin] at hs
        split at hs <;> cases hs
      · rw [feed] at hs
        cases hs
      · rw [feed] at hs
        cases hs
      · rw [feed] at hs
        obtain ⟨noOperator, rfl, rfl⟩ := accept_of_proceed hs
        exact ⟨_, awaits.derives admits (.ofBasic term) opened, noOperator,
          fun _ => ⟨noNumber, noWord, noBracket⟩⟩

theorem Reads.finish {s : State} {length : Nat} (h : Reads s w) (hs : s.finish length = .ok e) :
    ∃ ending, Derives .sum w e ending := by
  cases h with
  | @expecting outer _ _ pending _ opened awaits operand =>
      cases pending <;> cases outer <;> cases hs
  | @called outer _ _ pending _ _ e opened awaits admits term =>
      cases outer with
      | nil =>
          cases hs
          exact ⟨_, awaits.derives admits term opened⟩
      | cons => cases hs
  | @basic outer _ _ pending _ _ e start opened awaits admits term =>
      cases outer with
      | nil =>
          cases hs
          exact ⟨_, awaits.derives admits (.ofBasic term) opened⟩
      | cons => cases hs

end

/-! ## Many steps -/

theorem Reads.take {s last : State} {ts : List Token} {w : List Lexeme} (h : Reads s w)
    (taken : s.take? ts = some last) : Reads last (w ++ ts.map Token.lexeme) := by
  induction ts generalizing s w with
  | nil =>
      cases taken
      simpa using h
  | cons t more ih =>
      rw [State.take?] at taken
      split at taken
      · next next hs =>
          have read := ih (h.step hs) taken
          simpa using read
      · cases taken
      · cases taken

/-- **Soundness.** What the parser has taken where it completes an expression derives it, and what
follows does not continue it. -/
theorem derives_of_completes {ts : List Token} {last : State} {length : Nat}
    {following : Option Token} {e : Expr} (taken : State.start.take? ts = some last)
    (h : last.Completes length following e) :
    ∃ ending, Derives .sum (ts.map Token.lexeme) e ending ∧
      ∀ t ∈ following, Stops ending t.lexeme := by
  have read := reads_start.take taken
  rw [List.nil_append] at read
  cases following with
  | none =>
      obtain ⟨ending, derived⟩ := read.finish h
      exact ⟨ending, derived, by simp⟩
  | some t =>
      obtain ⟨ending, derived, stops⟩ := read.accept h
      exact ⟨ending, derived, by simpa using stops⟩

end Reckoner.Parser
