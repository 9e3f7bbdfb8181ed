import Reckoner.Proofs.Lexer.Faults
import Reckoner.Proofs.Parser.FirstFault
import Reckoner.Proofs.Parser.Sharing

/-!
# Pulling on demand

The parser pulls a token only when it needs one, so a fault of the lexer is met late or not at all.
`readStream` parses a stream whose tokens are all known beforehand, and `run_eq_readStream` says
that the two agree. A stream is read up to the first token that the parser does not take: with such
a token nothing behind it counts, and without one the parser comes to the end of the stream and
gives the fault that stands there.
-/

namespace Reckoner

namespace Parser

/-! ## Reading a stream -/

/-- Reads on from a state over tokens that are known, and behind them a fault or the end of a text
of `length` characters. -/
def readStream (length : Nat) (s : State) (fault? : Option LexicalFault) :
    List Token → Except SourceFault Expr
  | [] =>
      match fault? with
      | none => (s.finish length).mapError .grammar
      | some f => .error (.lexical f)
  | t :: more =>
      match s.feed t with
      | .shift next => readStream length next fault? more
      | .accept e => .ok e
      | .fail f => .error (.grammar f)

section

variable {s : State}

theorem readStream_cons (length : Nat) (fault? : Option LexicalFault) (t : Token)
    (more : List Token) :
    readStream length s fault? (t :: more) =
      match s.feed t with
      | .shift next => readStream length next fault? more
      | .accept e => .ok e
      | .fail f => .error (.grammar f) := rfl

/-- **Pulling on demand is reading the stream.** -/
theorem run_eq_readStream (length : Nat) (s : State) (l : Lexer) :
    (run length s l).1 = readStream length s l.stream.fault? l.stream.tokens := by
  fun_induction run length s l with
  | case1 s l after hn => rw [Lexer.stream_of_done hn]; rfl
  | case2 s l f after hn => rw [Lexer.stream_of_fault hn]; rfl
  | case3 s l t after hn _ next hs ih =>
      rw [Lexer.stream_of_token hn, readStream_cons, hs]
      exact ih
  | case4 s l t after hn _ e hs => rw [Lexer.stream_of_token hn, readStream_cons, hs]
  | case5 s l t after hn _ f hs => rw [Lexer.stream_of_token hn, readStream_cons, hs]

/-- The parser takes all tokens of a stream exactly if the state can take them. -/
theorem taken_eq_tokens_iff (s : State) (l : Lexer) :
    taken s l = l.stream.tokens ↔ (s.take? l.stream.tokens).isSome := by
  fun_induction taken s l with
  | case1 s l t after hn _ next hs ih =>
      rw [Lexer.stream_of_token hn, List.cons_inj_right, State.take?_cons hs]
      exact ih
  | case2 s l t after hn _ e hs => simp [Lexer.stream_of_token hn, State.take?, hs]
  | case3 s l t after hn _ f hs => simp [Lexer.stream_of_token hn, State.take?, hs]
  | case4 s l after hn => simp [Lexer.stream_of_done hn]
  | case5 s l f after hn => simp [Lexer.stream_of_fault hn]

/-- Behind a token that is not taken nothing counts, nor does the length of the text. -/
theorem readStream_append {ts : List Token} (refused : s.take? ts = none)
    (length length' : Nat) (fault? fault?' : Option LexicalFault) (more more' : List Token) :
    readStream length s fault? (ts ++ more) = readStream length' s fault?' (ts ++ more') := by
  induction ts generalizing s with
  | nil => cases refused
  | cons t ts ih =>
      rw [List.cons_append, List.cons_append, readStream_cons, readStream_cons]
      cases hs : s.feed t with
      | shift next =>
          rw [State.take?_cons hs] at refused
          exact ih refused
      | accept e => rfl
      | fail f => rfl

/-- Where all tokens are taken, the fault behind them is met. -/
theorem readStream_of_take? {ts : List Token} {last : State} (led : s.take? ts = some last)
    (length : Nat) (f : LexicalFault) :
    readStream length s (some f) ts = .error (.lexical f) := by
  induction ts generalizing s with
  | nil => rfl
  | cons t ts ih =>
      rw [State.take?] at led
      split at led
      · next next hs =>
          rw [readStream_cons, hs]
          exact ih led
      · cases led
      · cases led

theorem readStream_ne_lexical (length : Nat) (ts : List Token) (f : LexicalFault) :
    readStream length s none ts ≠ .error (.lexical f) := by
  induction ts generalizing s with
  | nil =>
      rw [readStream]
      cases s.finish length <;> simp [Except.mapError]
  | cons t ts ih =>
      rw [readStream_cons]
      cases s.feed t with
      | shift next => exact ih
      | accept e => simp
      | fail g => simp

end

end Parser

/-! ## Tokens of a part of a text -/

section

variable {l after : Lexer} {ts : List Token}

theorem Lexer.stream_of_tokens (h : l.tokens = .ok ts) : l.stream = ⟨ts, none⟩ := by
  rw [Lexer.tokens_eq_stream] at h
  cases hs : l.stream.fault? with
  | none =>
      rw [hs] at h
      cases h
      rw [← hs]
  | some f =>
      rw [hs] at h
      cases h

theorem Lexer.fault?_of_tokens {f : LexicalFault} (h : l.tokens = .error f) :
    l.stream.fault? = some f := by
  rw [Lexer.tokens_eq_stream] at h
  cases hs : l.stream.fault? with
  | none =>
      rw [hs] at h
      cases h
  | some g =>
      rw [hs] at h
      cases h
      rfl

/-- The stream goes on behind the tokens that were pulled. -/
theorem Lexer.Pulls.stream_eq (h : l.Pulls ts after) :
    l.stream = ⟨ts ++ after.stream.tokens, after.stream.fault?⟩ := by
  induction h with
  | nothing => rfl
  | token hn _ ih => rw [Lexer.stream_of_token hn, ih]; rfl

/-- A token stands inside the text that it was read from. -/
theorem position_lt_of_mem_tokensOf {t : Token} {offset : Nat} {pieces : List Piece}
    (readable : Readable pieces) (mem : t ∈ tokensOf offset pieces) :
    t.position < offset + (pieces.flatMap Piece.text).length := by
  induction pieces generalizing offset with
  | nil => cases mem
  | cons p more ih =>
      obtain ⟨c, rest, spelled, -⟩ := (readable.wellFormed p (by simp)).exists_first
      have length : p.text.length = p.spaces + (rest.length + 1) := by
        rw [p.length_text, spelled, List.length_cons]
      rw [List.flatMap_cons, List.length_append]
      rcases List.mem_cons.mp mem with rfl | later
      · dsimp only
        omega
      · have := ih readable.tail later
        omega

theorem position_lt_of_tokenize {source : String} (h : tokenize source = .ok ts) {t : Token}
    (mem : t ∈ ts) : t.position < source.toList.length := by
  obtain ⟨pieces, trailing, readable, whole, tokens⟩ := Lexer.exists_readable_of_tokens h
  have text : source.toList = textOf pieces trailing := whole
  rw [← tokens] at mem
  have inside : t.position < 0 + (pieces.flatMap Piece.text).length :=
    position_lt_of_mem_tokensOf readable mem
  rw [text, textOf, List.length_append]
  omega

end

/-- A fault of the grammar that is found at a token has the position of a token. -/
theorem Reported.exists_mem {source message : String} {ts : List Token} {t : Token}
    {position : Nat} (h : Reported source ts (.token t) message position) :
    ∃ u ∈ ts ++ [t], position = u.position := by
  cases h with
  | unclosed => exact ⟨t, by simp, rfl⟩
  | noTerm => exact ⟨t, by simp, rfl⟩
  | @notCallable before first more => exact ⟨first, by simp, rfl⟩

section

variable {source : String} {ts : List Token} {t : Token}

theorem parse_eq_readStream (source : String) :
    parse source = Parser.readStream source.length .start (Lexer.read source).stream.fault?
      (Lexer.read source).stream.tokens :=
  Parser.run_eq_readStream source.length .start (Lexer.read source)

theorem parse_of_tokenize (h : tokenize source = .ok ts) :
    parse source = Parser.readStream source.length .start none ts := by
  rw [parse_eq_readStream, Lexer.stream_of_tokens h]

theorem consumed_eq_iff (h : tokenize source = .ok ts) :
    consumed source = ts ↔ (Parser.State.start.take? ts).isSome := by
  have taken := Parser.taken_eq_tokens_iff .start (.read source)
  rwa [Lexer.stream_of_tokens h] at taken

/-- Where a text is cut short, or empty, all its tokens were taken. -/
theorem consumed_of_cutShort (h : tokenize source = .ok ts) {f : GrammarFault}
    (ends : f.cause = .cutShort ∨ f.cause = .nothing)
    (failed : parse source = .error (.grammar f)) : consumed source = ts := by
  obtain ⟨last, after, pulled, inHand, -, rejects⟩ :=
    Parser.exists_stop source.length .start (.read source)
  have rejected := (rejects f).mp failed
  cases hn : Parser.ahead .start (.read source) with
  | done =>
      rw [hn] at inHand
      exact Except.ok.inj ((pulled.tokens_of_done inHand).symm.trans h)
  | token t =>
      rw [hn] at rejected
      -- no token is refused with such a fault
      obtain rfl | rfl | ⟨e, start, pending, outer, -, -, rfl⟩ := Parser.fault_of_feed rejected <;>
        simp at ends
  | fault f' =>
      rw [hn] at rejected
      cases rejected

/-- A fault of the grammar in a text with a lexical fault stands at one of the tokens in front. -/
theorem exists_mem_of_grammar {f : LexicalFault} {g : GrammarFault}
    (h : tokenize source = .error f) (failed : parse source = .error (.grammar g)) :
    ∃ u ∈ (Lexer.read source).stream.tokens, g.position = u.position := by
  obtain ⟨last, after, pulled, inHand, led, rejects⟩ :=
    Parser.exists_stop source.length .start (.read source)
  have rejected := (rejects g).mp failed
  cases hn : Parser.ahead .start (.read source) with
  | done =>
      rw [hn] at inHand
      rw [tokenize, pulled.tokens_of_done inHand] at h
      cases h
  | token t =>
      rw [hn] at rejected inHand
      have reported : Reported source _ (.token t) g.cause.message g.position :=
        reported_of_feed led rejected
      obtain ⟨u, mem, position⟩ := reported.exists_mem
      refine ⟨u, ?_, position⟩
      rw [pulled.stream_eq, Lexer.stream_of_token (Prod.ext inHand rfl)]
      rw [List.mem_append, List.mem_singleton] at mem
      rcases mem with taken | rfl
      · exact List.mem_append_left _ taken
      · simp
  | fault f' =>
      rw [hn] at rejected
      cases rejected

end

/-- The token in hand is not taken. -/
theorem Parser.take?_ahead {s : State} {l : Lexer} {t : Token} (h : ahead s l = .token t) :
    s.take? (taken s l ++ [t]) = none := by
  fun_induction taken s l with
  | case1 s l u after hn _ next hs ih =>
      rw [ahead_of_shift hn hs] at h
      rw [List.cons_append, State.take?_cons hs]
      exact ih h
  | case2 s l u after hn _ e hs =>
      rw [(ahead_of_stop hn (by simp [hs])).1] at h
      cases h
      simp [State.take?, hs]
  | case3 s l u after hn _ f hs =>
      rw [(ahead_of_stop hn (by simp [hs])).1] at h
      cases h
      simp [State.take?, hs]
  | case4 s l after hn =>
      rw [(ahead_of_stop hn (by simp)).1] at h
      cases h
  | case5 s l f after hn =>
      rw [(ahead_of_stop hn (by simp)).1] at h
      cases h

/-- **A text is parsed as far as its tokens are needed.** If a text has no lexical fault, its parse
has none either, and it is determined by the tokens and the length of the text. If it has one, the
text is cut off where it breaks. The fault is met if the parse of the part in front takes all tokens
there, as it does where that part ends too early or is empty; otherwise that part decides, and a
fault of the grammar stands inside of it. What follows a token that ends the expression, or cannot
be, is of no account. -/
theorem parse_onDemand (source : String) :
    (∀ ts, tokenize source = .ok ts → (∀ f, parse source ≠ .error (.lexical f)) ∧
      ∀ other, tokenize other = .ok ts → other.length = source.length →
        parse other = parse source) ∧
    (∀ f, tokenize source = .error f → ∃ front behind ts, BreaksAt source front.toList behind f ∧
      tokenize front = .ok ts ∧
      (consumed front = ts → parse source = .error (.lexical f)) ∧
      (∀ g, g.cause = .cutShort ∨ g.cause = .nothing → parse front = .error (.grammar g) →
        consumed front = ts) ∧
      (consumed front ≠ ts → parse source = parse front) ∧
      ∀ g, parse source = .error (.grammar g) → g.position < front.length) ∧
    ∀ t, Parser.ahead .start (.read source) = .token t → ∀ other after,
      (Lexer.read other).Pulls (consumed source ++ [t]) after → parse other = parse source := by
  refine ⟨fun ts read => ⟨fun f => ?_, fun other same length => ?_⟩, fun f fault => ?_,
    fun t inHand other after pulled => ?_⟩
  · rw [parse_of_tokenize read]
    exact Parser.readStream_ne_lexical _ _ f
  · rw [parse_of_tokenize read, parse_of_tokenize same, length]
  · have found := Lexer.fault?_of_tokens fault
    obtain ⟨before, behind, breaks⟩ := Lexer.stream_fault?_eq_some_iff.mp found
    have read := breaks.read
    refine ⟨String.ofList before, behind, _, by rwa [String.toList_ofList], read, fun all => ?_,
      fun g ends failed => consumed_of_cutShort read ends failed, fun left => ?_,
      fun g failed => ?_⟩
    · obtain ⟨last, led⟩ := Option.isSome_iff_exists.mp ((consumed_eq_iff read).mp all)
      rw [parse_eq_readStream, found, Parser.readStream_of_take? led]
    · rw [Ne, consumed_eq_iff read, Bool.not_eq_true, Option.isSome_eq_false_iff,
        Option.isNone_iff_eq_none] at left
      have agree := Parser.readStream_append left source.length (String.ofList before).length
        (some f) none [] []
      rw [List.append_nil] at agree
      rw [parse_eq_readStream, found, agree, parse_of_tokenize read]
    · obtain ⟨u, mem, position⟩ := exists_mem_of_grammar fault failed
      rw [position, ← String.length_toList]
      exact position_lt_of_tokenize read mem
  · obtain ⟨_, last, pulledHere, next, -⟩ :=
      Parser.exists_stop source.length .start (.read source)
    have refused := Parser.take?_ahead inHand
    have here : (Lexer.read source).stream = ⟨consumed source ++ [t] ++ last.next.2.stream.tokens,
        last.next.2.stream.fault?⟩ := by
      rw [pulledHere.stream_eq, Lexer.stream_of_token (Prod.ext (next.trans inHand) rfl),
        List.append_assoc]
      rfl
    rw [parse_eq_readStream, parse_eq_readStream, pulled.stream_eq, here]
    exact Parser.readStream_append refused _ _ _ _ _ _

set_option maxRecDepth 1000 in
/-- A bracket that was never opened ends the expression. The character that begins no lexeme behind
it is not met, and neither is anything else that stands there; without the bracket it would be. -/
theorem parse_onDemand_bracket :
    tokenize "x) $" = .error ⟨.unknownCharacter '$', 3⟩ ∧
      (∀ other after, (Lexer.read other).Pulls [⟨.word "x", 0⟩, ⟨.symbol .rparen, 1⟩] after →
        parse other = .ok (.identifier "x")) ∧
      tokenize "x $" = .error ⟨.unknownCharacter '$', 2⟩ ∧
      parse "x $" = .error (.lexical ⟨.unknownCharacter '$', 2⟩) := by
  have fault : tokenize "x) $" = .error ⟨.unknownCharacter '$', 3⟩ := by cbv
  have tree : parse "x) $" = .ok (.identifier "x") := by cbv
  have taken : consumed "x) $" = [⟨.word "x", 0⟩] := by cbv
  have inHand : Parser.ahead .start (.read "x) $") = .token ⟨.symbol .rparen, 1⟩ := by cbv
  have met : tokenize "x $" = .error ⟨.unknownCharacter '$', 2⟩ := by cbv
  obtain ⟨front, behind, ts, breaks, read, all, -⟩ := (parse_onDemand "x $").2.1 _ met
  have tokens : (Lexer.read "x $").stream.tokens = [⟨.word "x", 0⟩] := by cbv
  have readBreak := breaks.read
  rw [String.ofList_toList, read, tokens] at readBreak
  cases readBreak
  refine ⟨fault, fun other after pulled => ?_, met, all ((consumed_eq_iff read).mpr rfl)⟩
  rw [(parse_onDemand "x) $").2.2 _ inHand other after (by rwa [taken]), tree]

end Reckoner
