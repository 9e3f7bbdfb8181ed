import Reckoner.Proofs.Parser.Grammar
import Reckoner.Proofs.Parser.Reading

/-!
# The parser takes every derivation

Whatever a derivation writes, the parser takes it token by token, whatever is pending before it and
whatever brackets are open. The state it ends in may still hold operations of the phrase that were
not finished, because what follows decides about them; every operator that may follow the phrase
finishes them, and so do brackets, commas and the end of the text.
-/

namespace Reckoner.Parser

open Reckoner.Grammar

/-! ## Terms that have just ended -/

/-- The state in which a term has just ended. -/
def ended (ending : Ending) (e : Expr) (start : Nat) (pending : List Pending)
    (outer : List Level) : State :=
  match ending with
  | .plain => .basic e start pending outer
  | .arguments => .called e pending outer

theorem callee_iff {e : Expr} {name : String} : Callee e name ↔ calleeName? e = some name := by
  constructor
  · rintro (name | value)
    · rfl
    · rfl
  · intro h
    cases e with
    | identifier name => cases h; exact .identifier name
    | number value => cases h; exact .number value
    | _ => cases h

theorem ofKind?_symbol {x : Lexeme} {op : Operator} (h : x = .symbol op.symbol) :
    Operator.ofKind? x.kind = some op := by
  rw [h]
  exact Operator.ofKind?_kind op

/-- A token that begins no argument goes on after the term. -/
theorem feed_ended {ending : Ending} {t : Token}
    (h : ending = .plain → t.lexeme.kind ≠ .number ∧ t.lexeme.kind ≠ .word ∧
      t.lexeme ≠ .symbol .lparen) (e : Expr) (start : Nat) (pending : List Pending)
    (outer : List Level) :
    (ended ending e start pending outer).feed t = proceed t e pending outer := by
  cases ending with
  | arguments => rfl
  | plain =>
      obtain ⟨noNumber, noWord, noBracket⟩ := h rfl
      obtain ⟨x, position⟩ := t
      cases x with
      | number digits => exact absurd rfl noNumber
      | word name => exact absurd rfl noWord
      | quoted inner => cases calleeName? e <;> simp [ended, State.feed]
      | symbol s =>
          cases s with
          | lparen => exact absurd rfl noBracket
          | _ => cases calleeName? e <;> simp [ended, State.feed]

theorem feed_ended_symbol {t : Token} {s : Symbol} (h : t.lexeme = .symbol s) (other : s ≠ .lparen)
    (ending : Ending) (e : Expr) (start : Nat) (pending : List Pending) (outer : List Level) :
    (ended ending e start pending outer).feed t = proceed t e pending outer := by
  refine feed_ended (fun _ => ?_) e start pending outer
  rw [h]
  refine ⟨by simp [Lexeme.kind], by simp [Lexeme.kind], ?_⟩
  simpa using other

/-- A number or word behind a callable term is read as if the call had been pending before it. -/
theorem take?_implicit {callee : Expr} {name : String} {ts : List Token}
    (called : Callee callee name) (begins : BeginsOperand (ts.map Token.lexeme)) (start : Nat)
    (pending : List Pending) (outer : List Level) :
    (State.basic callee start pending outer).take? ts =
      (State.expecting (.implicitCall name :: pending) outer).take? ts := by
  obtain ⟨x, mem, kind⟩ := begins
  cases ts with
  | nil => cases mem
  | cons t more =>
      cases mem
      -- only the first token sees the difference, and it begins the argument either way
      have same : (State.basic callee start pending outer).feed t =
          (State.expecting (.implicitCall name :: pending) outer).feed t := by
        rw [State.feed, State.feed, callee_iff.mp called]
        obtain ⟨x, position⟩ := t
        cases x with
        | number digits => rfl
        | word name => rfl
        | quoted inner => simp [Lexeme.kind] at kind
        | symbol s => simp [Lexeme.kind] at kind
      rw [State.take?, State.take?, same]

theorem feed_bracket {callee : Expr} {name : String} {t : Token} (called : Callee callee name)
    (h : t.lexeme = .symbol .lparen) (start : Nat) (pending : List Pending) (outer : List Level) :
    (State.basic callee start pending outer).feed t =
      .shift (.expecting [] (⟨.arguments name [], pending⟩ :: outer)) := by
  rw [State.feed, callee_iff.mp called, h]

/-! ## What is pending around a phrase -/

/-- No operator of this tightness or more finishes anything that is pending, so all of them take
the operand that was just read. -/
def Waits (rank : Nat) (pending : List Pending) : Prop :=
  ∀ (op : Operator) (e : Expr), rank ≤ op.tightness → settle op e pending = (e, pending)

/-- For every operator less tight than `bound`, and where a bracket closes, `e₀` over what is
pending inside the phrase is worth the same as the phrase `e` over what was pending before. -/
def Finishes (bound : Nat) (e₀ : Expr) (pending₀ : List Pending) (e : Expr)
    (pending : List Pending) : Prop :=
  (∀ op : Operator, op.tightness < bound → settle op e₀ pending₀ = settle op e pending) ∧
    settleAll e₀ pending₀ = settleAll e pending

/-- Operators that may follow a phrase of this level are less tight. -/
def followedBelow : Grammar.Level → Nat
  | .sum => 2
  | .product => 3
  | .power => 3
  | .call => 4
  | .basic => 4

/-- The state holds a whole phrase `e`, read where `pending` and `outer` were unfinished. A basic
term is held as it is, since it may turn out to be called. -/
def Holds (s : State) (level : Grammar.Level) (e : Expr) (ending : Ending)
    (pending : List Pending) (outer : List Level) : Prop :=
  ∃ e₀ start pending₀, s = ended ending e₀ start pending₀ outer ∧
    Finishes (followedBelow level) e₀ pending₀ e pending ∧
    (level = .basic → e₀ = e ∧ pending₀ = pending)

theorem Waits.mono {m n : Nat} {pending : List Pending} (h : Waits m pending) (le : m ≤ n) :
    Waits n pending :=
  fun op e hn => h op e (Nat.le_trans le hn)

theorem waits_nil (rank : Nat) : Waits rank [] := fun _ _ _ => rfl

theorem tightness_le (op : Operator) : op.tightness ≤ 3 := by cases op <;> decide

theorem waits_of_tight {rank : Nat} (h : 4 ≤ rank) (pending : List Pending) :
    Waits rank pending := by
  intro op e le
  have := tightness_le op
  omega

/-- An operation that waits for its right operand takes the operators inside of it. -/
theorem waits_operation (left : Expr) (op : Operator) (pending : List Pending) :
    Waits (rightOf op).rank (.operation left op :: pending) := by
  intro next e le
  have stays : op.endsBefore next = false := by
    revert le
    cases op <;> cases next <;> decide
  rw [settle, stays]
  rfl

/-- An operation ends before every operator that may follow it. -/
theorem endsBefore_of_follows {op next : Operator}
    (h : next.tightness < followedBelow (levelOf op)) : op.endsBefore next = true := by
  revert h
  cases op <;> cases next <;> decide

theorem Finishes.mono {m n : Nat} {e₀ e : Expr} {pending₀ pending : List Pending}
    (h : Finishes n e₀ pending₀ e pending) (le : m ≤ n) : Finishes m e₀ pending₀ e pending :=
  ⟨fun op hm => h.1 op (Nat.lt_of_lt_of_le hm le), h.2⟩

/-- Operators that may follow an operation finish it together with its right operand. -/
theorem Finishes.binary {e₀ left right : Expr} {op : Operator} {pending₀ pending : List Pending}
    (h : Finishes (followedBelow (rightOf op)) e₀ pending₀ right (.operation left op :: pending)) :
    Finishes (followedBelow (levelOf op)) e₀ pending₀ (.binary left op.kind right) pending := by
  have le : followedBelow (levelOf op) ≤ followedBelow (rightOf op) := by cases op <;> decide
  refine ⟨fun next hm => ?_, h.2⟩
  rw [h.1 next (Nat.lt_of_lt_of_le hm le), settle, endsBefore_of_follows hm]
  rfl

theorem holds_basic (e : Expr) (start : Nat) (pending : List Pending) (outer : List Level) :
    Holds (.basic e start pending outer) .basic e .plain pending outer :=
  ⟨e, start, pending, rfl, ⟨fun _ _ => rfl, rfl⟩, fun _ => ⟨rfl, rfl⟩⟩

theorem Holds.eq_basic {s : State} {e : Expr} {pending : List Pending} {outer : List Level}
    (h : Holds s .basic e .plain pending outer) : ∃ start, s = .basic e start pending outer := by
  obtain ⟨e₀, start, pending₀, rfl, -, same⟩ := h
  obtain ⟨rfl, rfl⟩ := same rfl
  exact ⟨start, rfl⟩

theorem Holds.loosen {l m : Grammar.Level} {s : State} {e : Expr} {ending : Ending}
    {pending : List Pending} {outer : List Level} (h : Holds s m e ending pending outer)
    (le : followedBelow l ≤ followedBelow m) (other : l ≠ .basic) :
    Holds s l e ending pending outer := by
  obtain ⟨e₀, start, pending₀, hs, finishes, -⟩ := h
  exact ⟨e₀, start, pending₀, hs, finishes.mono le, fun h => absurd h other⟩

/-- An operator that may follow a phrase takes it as its left operand. -/
theorem Holds.feed_operator {s : State} {level : Grammar.Level} {e : Expr} {ending : Ending}
    {pending : List Pending} {outer : List Level} {t : Token} {op : Operator}
    (h : Holds s level e ending pending outer) (ht : t.lexeme = .symbol op.symbol)
    (follows : op.tightness < followedBelow level) (waits : Waits op.tightness pending) :
    s.feed t = .shift (.expecting (.operation e op :: pending) outer) := by
  obtain ⟨e₀, start, pending₀, rfl, finishes, -⟩ := h
  have noBracket : op.symbol ≠ .lparen := by cases op <;> decide
  rw [feed_ended_symbol ht noBracket, proceed, ofKind?_symbol ht]
  simp only [finishes.1 op follows, waits op e (Nat.le_refl _)]

/-- A closing bracket or a comma takes everything inside the bracket. -/
theorem Holds.feed_close {s : State} {level : Grammar.Level} {e : Expr} {ending : Ending}
    {outer : List Level} {t : Token} (h : Holds s level e ending [] outer)
    (ht : t.lexeme = .symbol .rparen ∨ t.lexeme = .symbol .comma) :
    s.feed t = close t e outer := by
  obtain ⟨e₀, start, pending₀, rfl, finishes, -⟩ := h
  rcases ht with ht | ht
  · rw [feed_ended_symbol ht (by decide), proceed, ht]
    show close t (settleAll e₀ pending₀) outer = close t e outer
    rw [finishes.2]
    rfl
  · rw [feed_ended_symbol ht (by decide), proceed, ht]
    show close t (settleAll e₀ pending₀) outer = close t e outer
    rw [finishes.2]
    rfl

/-! ## Taking a derivation -/

/-- Tokens that write `w` are taken as a phrase, wherever an operand is expected and nothing that is
pending ends before it. -/
def Takes (level : Grammar.Level) (w : List Lexeme) (e : Expr) (ending : Ending) : Prop :=
  ∀ ts pending outer, ts.map Token.lexeme = w → Waits level.rank pending →
    ∃ s, (State.expecting pending outer).take? ts = some s ∧ Holds s level e ending pending outer

/-- The arguments of a call are taken up to their closing bracket. -/
theorem take?_arguments {args : List Argument} (nonempty : args ≠ [])
    (takes : ∀ a ∈ args, Takes .sum a.lexemes a.tree a.ending) (name : String)
    (before : List Expr) (pending : List Pending) (outer : List Level) {ts : List Token}
    (written : ts.map Token.lexeme = separated args ++ [.symbol .rparen]) :
    (State.expecting [] (⟨.arguments name before, pending⟩ :: outer)).take? ts =
      some (.called (.call name (before ++ args.map Argument.tree)) pending outer) := by
  -- one argument at a time: a comma leads to the next, the bracket ends the call
  induction args generalizing before ts with
  | nil => exact absurd rfl nonempty
  | cons a more ih =>
      cases more with
      | nil =>
          rw [separated, List.map_singleton, List.intercalate_singleton,
            List.map_eq_append_iff] at written
          obtain ⟨us, last, rfl, hus, hlast⟩ := written
          obtain ⟨t, rfl, ht⟩ := List.map_eq_singleton_iff.mp hlast
          obtain ⟨s, taken, holds⟩ := takes a (by simp) us []
            (⟨.arguments name before, pending⟩ :: outer) hus (waits_nil _)
          have closes : s.feed t =
              .shift (.called (.call name (before ++ [a.tree])) pending outer) := by
            rw [holds.feed_close (.inl ht), close, ht]
            rfl
          rw [State.take?_append, taken, Option.bind_some, State.take?_cons closes]
          rfl
      | cons b later =>
          rw [separated, List.map_cons, List.map_cons, List.intercalate_cons_cons, ← List.map_cons,
            List.append_assoc, List.append_assoc, List.map_eq_append_iff] at written
          obtain ⟨us, onward, rfl, hus, honward⟩ := written
          obtain ⟨t, vs, rfl, ht, hvs⟩ := List.map_eq_cons_iff.mp honward
          obtain ⟨s, taken, holds⟩ := takes a (by simp) us []
            (⟨.arguments name before, pending⟩ :: outer) hus (waits_nil _)
          have rest := ih (List.cons_ne_nil b later)
            (fun x hx => takes x (List.mem_cons_of_mem _ hx)) (before ++ [a.tree]) hvs
          rw [State.take?_append, taken, Option.bind_some, State.take?_cons, rest]
          · simp
          · rw [holds.feed_close (.inr ht), close, ht]
            rfl

theorem Takes.loosen {l m : Grammar.Level} {w : List Lexeme} {e : Expr} {ending : Ending}
    (h : Takes m w e ending) (le : l.rank ≤ m.rank) (follows : followedBelow l ≤ followedBelow m)
    (other : l ≠ .basic) : Takes l w e ending := by
  intro ts pending outer written waits
  obtain ⟨s, taken, holds⟩ := h ts pending outer written (waits.mono le)
  exact ⟨s, taken, holds.loosen follows other⟩

theorem Takes.group {w : List Lexeme} {e : Expr} {ending : Ending} (h : Takes .sum w e ending) :
    Takes .basic (.symbol .lparen :: w ++ [.symbol .rparen]) e .plain := by
  intro ts pending outer written _
  obtain ⟨t, us, rfl, ht, hus⟩ := List.map_eq_cons_iff.mp written
  obtain ⟨vs, last, rfl, hvs, hlast⟩ := List.map_eq_append_iff.mp hus
  obtain ⟨t', rfl, ht'⟩ := List.map_eq_singleton_iff.mp hlast
  obtain ⟨s, taken, holds⟩ := h vs [] (⟨.group t.position, pending⟩ :: outer) hvs (waits_nil _)
  have opens : (State.expecting pending outer).feed t =
      .shift (.expecting [] (⟨.group t.position, pending⟩ :: outer)) := by
    rw [State.feed, begin, ht]
  have closes : s.feed t' = .shift (.basic e t.position pending outer) := by
    rw [holds.feed_close (.inl ht'), close, ht', if_pos rfl]
  refine ⟨_, ?_, holds_basic e t.position pending outer⟩
  rw [State.take?_cons opens, State.take?_append, taken, Option.bind_some, State.take?_cons closes,
    State.take?_nil]

theorem Takes.implicitCall {w v : List Lexeme} {callee argument : Expr} {name : String}
    {ending : Ending} (hc : Takes .basic w callee .plain) (called : Callee callee name)
    (ha : Takes .call v argument ending) (begins : BeginsOperand v) :
    Takes .call (w ++ v) (.call name [argument]) ending := by
  intro ts pending outer written waits
  obtain ⟨us, vs, rfl, hus, hvs⟩ := List.map_eq_append_iff.mp written
  obtain ⟨s, taken, holds⟩ := hc us pending outer hus (waits_of_tight (by decide) _)
  obtain ⟨start, rfl⟩ := holds.eq_basic
  -- the call is pending while its argument is read, and binds tighter than every operator
  obtain ⟨s', taken', e₀, start', pending₀, hs', finishes, -⟩ :=
    ha vs (.implicitCall name :: pending) outer hvs (waits_of_tight (by decide) _)
  rw [← hvs] at begins
  refine ⟨s', ?_, e₀, start', pending₀, hs', finishes, fun h => by cases h⟩
  rw [State.take?_append, taken, Option.bind_some, take?_implicit called begins, taken']

theorem Takes.explicitCall {w : List Lexeme} {callee : Expr} {name : String}
    {args : List Argument} (hc : Takes .basic w callee .plain) (called : Callee callee name)
    (nonempty : args ≠ []) (takes : ∀ a ∈ args, Takes .sum a.lexemes a.tree a.ending) :
    Takes .call (w ++ .symbol .lparen :: separated args ++ [.symbol .rparen])
      (.call name (args.map Argument.tree)) .arguments := by
  intro ts pending outer written _
  rw [List.append_assoc, List.cons_append] at written
  obtain ⟨us, onward, rfl, hus, honward⟩ := List.map_eq_append_iff.mp written
  obtain ⟨t, vs, rfl, ht, hvs⟩ := List.map_eq_cons_iff.mp honward
  obtain ⟨s, taken, holds⟩ := hc us pending outer hus (waits_of_tight (by decide) _)
  obtain ⟨start, rfl⟩ := holds.eq_basic
  refine ⟨_, ?_, _, start, pending, rfl, ⟨fun _ _ => rfl, rfl⟩, fun h => by cases h⟩
  rw [State.take?_append, taken, Option.bind_some,
    State.take?_cons (feed_bracket called ht start pending outer),
    take?_arguments nonempty takes name [] pending outer hvs]
  rfl

theorem Takes.binary (op : Operator) {w v : List Lexeme} {left right : Expr}
    {middle ending : Ending} (hl : Takes (leftOf op) w left middle)
    (hr : Takes (rightOf op) v right ending) :
    Takes (levelOf op) (w ++ .symbol op.symbol :: v) (.binary left op.kind right) ending := by
  have rank : (levelOf op).rank ≤ (leftOf op).rank := by cases op <;> decide
  have follows : op.tightness < followedBelow (leftOf op) := by cases op <;> decide
  have other : levelOf op ≠ .basic := by cases op <;> decide
  intro ts pending outer written waits
  obtain ⟨us, onward, rfl, hus, honward⟩ := List.map_eq_append_iff.mp written
  obtain ⟨t, vs, rfl, ht, hvs⟩ := List.map_eq_cons_iff.mp honward
  obtain ⟨s, taken, holds⟩ := hl us pending outer hus (waits.mono rank)
  -- the operation itself is pending while its right operand is read
  obtain ⟨s', taken', e₀, start, pending₀, hs', finishes, -⟩ :=
    hr vs (.operation left op :: pending) outer hvs (waits_operation left op pending)
  rw [rank_levelOf] at waits
  refine ⟨s', ?_, e₀, start, pending₀, hs', finishes.binary, fun h => absurd h other⟩
  rw [State.take?_append, taken, Option.bind_some,
    State.take?_cons (holds.feed_operator ht follows waits), taken']

/-- **Completeness.** What a derivation writes is taken as one phrase. -/
theorem takes_of_derives {level : Grammar.Level} {w : List Lexeme} {e : Expr} {ending : Ending}
    (h : Derives level w e ending) : Takes level w e ending := by
  induction h with
  | number digits =>
      intro ts pending outer written _
      obtain ⟨⟨x, position⟩, rfl, rfl⟩ := List.map_eq_singleton_iff.mp written
      exact ⟨_, rfl, holds_basic _ position pending outer⟩
  | word name =>
      intro ts pending outer written _
      obtain ⟨⟨x, position⟩, rfl, rfl⟩ := List.map_eq_singleton_iff.mp written
      exact ⟨_, rfl, holds_basic _ position pending outer⟩
  | quoted inner =>
      intro ts pending outer written _
      obtain ⟨⟨x, position⟩, rfl, rfl⟩ := List.map_eq_singleton_iff.mp written
      exact ⟨_, rfl, holds_basic _ position pending outer⟩
  | group _ ih => exact ih.group
  | ofBasic _ ih => exact ih.loosen (by decide) (by decide) (by decide)
  | implicitCall _ called _ begins ihCallee ihArgument =>
      exact ihCallee.implicitCall called ihArgument begins
  | explicitCall _ called nonempty _ ihCallee ihArguments =>
      exact ihCallee.explicitCall called nonempty ihArguments
  | ofCall _ ih => exact ih.loosen (by decide) (by decide) (by decide)
  | power _ _ ihBase ihExponent => exact Takes.binary .power ihBase ihExponent
  | ofPower _ ih => exact ih.loosen (by decide) (by decide) (by decide)
  | product isProduct _ _ ihLeft ihRight =>
      rcases isProduct with rfl | rfl
      · exact Takes.binary .times ihLeft ihRight
      · exact Takes.binary .divide ihLeft ihRight
  | ofProduct _ ih => exact ih.loosen (by decide) (by decide) (by decide)
  | sum isSum _ _ ihLeft ihRight =>
      rcases isSum with rfl | rfl
      · exact Takes.binary .plus ihLeft ihRight
      · exact Takes.binary .minus ihLeft ihRight

end Reckoner.Parser
