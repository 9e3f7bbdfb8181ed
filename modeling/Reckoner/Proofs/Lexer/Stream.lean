import Mathlib.Data.List.DropRight
import Reckoner.Proofs.Lexer.Pulling

/-!
# The stream of a text

A lexer never runs dry. It gives the tokens one by one, and behind the last of them every pull gives
the same answer again: that the text ended, or the fault that stands there. `Lexer.stream` is what
is pulled from a place, read off the text once, and `Lexer.next_advance` says that a lexer gives its
items one after the other, however often it is pulled.
-/

namespace Reckoner

/-- Tokens, and behind them a fault or the end of the text. -/
structure TokenStream where
  tokens : List Token
  fault? : Option LexicalFault
deriving DecidableEq, Repr

namespace TokenStream

/-- What is pulled where there are no more tokens. -/
def terminal (s : TokenStream) : Pull :=
  match s.fault? with
  | none => .done
  | some f => .fault f

/-- The item at an index: a token, and from the end of the tokens on always the terminal answer. -/
def item (s : TokenStream) (i : Nat) : Pull :=
  match s.tokens[i]? with
  | some t => .token t
  | none => s.terminal

/-- The items before an index. -/
def front (s : TokenStream) (n : Nat) : List Pull := (List.range n).map s.item

@[simp] theorem item_cons_zero (t : Token) (ts : List Token) (fault? : Option LexicalFault) :
    item ⟨t :: ts, fault?⟩ 0 = .token t := rfl

@[simp] theorem item_cons_succ (t : Token) (ts : List Token) (fault? : Option LexicalFault)
    (i : Nat) : item ⟨t :: ts, fault?⟩ (i + 1) = item ⟨ts, fault?⟩ i := by
  rw [item, item, List.getElem?_cons_succ]
  rfl

theorem front_cons_succ (t : Token) (ts : List Token) (fault? : Option LexicalFault) (n : Nat) :
    front ⟨t :: ts, fault?⟩ (n + 1) = .token t :: front ⟨ts, fault?⟩ n := by
  rw [front, List.range_succ_eq_map, List.map_cons, List.map_map, item_cons_zero]
  exact congrArg _ (List.map_congr_left fun i _ => item_cons_succ t ts fault? i)

theorem front_succ (s : TokenStream) (n : Nat) : s.front (n + 1) = s.front n ++ [s.item n] := by
  rw [front, List.range_succ, List.map_append]
  rfl

end TokenStream

namespace Lexer

/-! ## The stream from a place on -/

/-- What is pulled from a place on. -/
def stream (l : Lexer) : TokenStream :=
  match h : l.next with
  | (.done, _) => ⟨[], none⟩
  | (.fault f, _) => ⟨[], some f⟩
  | (.token t, after) =>
      have := length_next_lt h
      ⟨t :: after.stream.tokens, after.stream.fault?⟩
termination_by l.rest.length

section

variable {l after : Lexer}

theorem stream_of_done (h : l.next = (.done, after)) : l.stream = ⟨[], none⟩ := by
  rw [stream]
  split <;> simp_all

theorem stream_of_fault {f : LexicalFault} (h : l.next = (.fault f, after)) :
    l.stream = ⟨[], some f⟩ := by
  rw [stream]
  split <;> simp_all

theorem stream_of_token {t : Token} (h : l.next = (.token t, after)) :
    l.stream = ⟨t :: after.stream.tokens, after.stream.fault?⟩ := by
  rw [stream]
  split <;> simp_all

end

/-- The stream of a text without faults has all its tokens, and any other ends with its first
fault. -/
theorem tokens_eq_stream (l : Lexer) :
    l.tokens = match l.stream.fault? with
      | none => .ok l.stream.tokens
      | some f => .error f := by
  fun_induction Lexer.tokens l with
  | case1 l after hn => rw [stream_of_done hn]
  | case2 l f after hn => rw [stream_of_fault hn]
  | case3 l t after hn _ ts hts ih =>
      rw [stream_of_token hn]
      split at ih <;> simp_all
  | case4 l t after hn _ f hf ih =>
      rw [stream_of_token hn]
      split at ih <;> simp_all

/-! ## Pulling where there are no more tokens -/

theorem skipSpaces_skipSpaces (l : Lexer) : l.skipSpaces.skipSpaces = l.skipSpaces := by
  have again : (l.rest.dropWhile (· = ' ')).dropWhile (· = ' ') = l.rest.dropWhile (· = ' ') :=
    List.dropWhile_idempotent _ _
  have noSpace : (l.rest.dropWhile (· = ' ')).takeWhile (· = ' ') = [] := by
    have whole := List.takeWhile_append_dropWhile (p := (· = ' ')) (l := l.rest.dropWhile (· = ' '))
    rwa [again, List.append_left_eq_self] at whole
  simp only [skipSpaces, again, noSpace, List.length_nil, Nat.add_zero]

theorem next_skipSpaces (l : Lexer) : l.skipSpaces.next = l.next := by
  rw [next, next, skipSpaces_skipSpaces]

/-- A pull that gives no token moves past spaces only. -/
theorem eq_skipSpaces_of_next {l after : Lexer} {p : Pull} (h : l.next = (p, after))
    (stops : ∀ t, p ≠ .token t) : after = l.skipSpaces := by
  rw [next] at h
  split at h
  · cases h
    rfl
  · split at h
    · cases h
      exact absurd rfl (stops _)
    · cases h
      rfl

/-- Where a pull gave no token, the next one gives the same answer and stays. -/
theorem next_again {l after : Lexer} {p : Pull} (h : l.next = (p, after))
    (stops : ∀ t, p ≠ .token t) : after.next = (p, after) := by
  rw [eq_skipSpaces_of_next h stops, next_skipSpaces, h, eq_skipSpaces_of_next h stops]

/-! ## Any number of pulls -/

/-- The lexer after a number of pulls. -/
def advance (l : Lexer) (n : Nat) : Lexer := (fun l => l.next.2)^[n] l

theorem advance_succ (l : Lexer) (n : Nat) : l.advance (n + 1) = l.next.2.advance n := rfl

theorem advance_advance (l : Lexer) (m n : Nat) : (l.advance m).advance n = l.advance (m + n) := by
  rw [advance, advance, advance, Nat.add_comm, Function.iterate_add_apply]

theorem item_stream_zero (l : Lexer) : l.stream.item 0 = l.next.1 := by
  rcases hn : l.next with ⟨p, after⟩
  cases p with
  | done => rw [stream_of_done hn]; rfl
  | fault f => rw [stream_of_fault hn]; rfl
  | token t => rw [stream_of_token hn]; rfl

theorem item_stream_succ (l : Lexer) (i : Nat) :
    l.stream.item (i + 1) = l.next.2.stream.item i := by
  rcases hn : l.next with ⟨p, after⟩
  cases p with
  | done => rw [stream_of_done hn, stream_of_done (next_again hn (by simp))]; rfl
  | fault f => rw [stream_of_fault hn, stream_of_fault (next_again hn (by simp))]; rfl
  | token t => rw [stream_of_token hn, TokenStream.item_cons_succ]

/-- **A lexer gives the items of its stream one after the other.** -/
theorem next_advance (l : Lexer) (n : Nat) : (l.advance n).next.1 = l.stream.item n := by
  induction n generalizing l with
  | zero => exact (item_stream_zero l).symm
  | succ n ih => rw [advance_succ, ih, item_stream_succ]

/-- Tokens that were pulled are the front of the stream. -/
theorem Pulls.eq_advance {l after : Lexer} {ts : List Token} (h : l.Pulls ts after) :
    after = l.advance ts.length ∧ l.stream.front ts.length = ts.map .token := by
  induction h with
  | nothing => exact ⟨rfl, rfl⟩
  | token hn _ ih =>
      rw [List.length_cons, advance_succ, hn, stream_of_token hn, TokenStream.front_cons_succ,
        List.map_cons]
      exact ⟨ih.1, congrArg _ ih.2⟩

end Lexer

end Reckoner
