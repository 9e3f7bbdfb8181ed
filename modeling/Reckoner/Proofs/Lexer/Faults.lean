import Reckoner.Proofs.Lexer.Stream

/-!
# Lexical faults

Three things stop a lexer for good: a quote that nothing closes, a number with two points, and a
character that begins no lexeme. `Unreadable` describes the texts that begin with one of them, and
`Lexer.stream_fault?_eq_some_iff` says that a text has a fault exactly if it falls into two parts,
one that is read to its end and one that is unreadable.

A lexer may be given new texts at any time. What it answers depends on the last of them and on the
number of pulls since, and the fault that it stopped at is all that it answers from then on.
-/

namespace Reckoner

open Reckoner.Text

/-! ## Unreadable texts -/

/-- No lexeme is at the front of the text. What is wrong there is given as a cause, in words, and by
its distance from the front. -/
inductive Unreadable : List Char → LexicalCause → String → Nat → Prop
  | openQuote {after : List Char} : '"' ∉ after →
      Unreadable ('"' :: after) .openQuote "Unterminated string" 0
  /-- The digits and points from a digit on have two points or more among them. The fault is at the
  second. -/
  | secondPoint {first : Char} {after whole fraction more : List Char} : isDigit first = true →
      (first :: after).takeWhile isNumberPart = whole ++ '.' :: (fraction ++ '.' :: more) →
      '.' ∉ whole → '.' ∉ fraction →
      Unreadable (first :: after) .secondPoint "Invalid number format: multiple decimal points"
        (whole.length + 1 + fraction.length)
  | unknownCharacter {c : Char} {after : List Char} : c ≠ ' ' → isDigit c = false →
      isLetter c = false → c ≠ '"' → (∀ s : Symbol, c ≠ s.char) →
      Unreadable (c :: after) (.unknownCharacter c) ("Unknown character: " ++ quoted c.toString) 0

/-- An unreadable text begins with the character that no lexeme begins with. -/
theorem Unreadable.exists_cons {text : List Char} {cause : LexicalCause} {message : String}
    {distance : Nat} (h : Unreadable text cause message distance) :
    ∃ c after, text = c :: after ∧ c ≠ ' ' := by
  cases h with
  | openQuote => exact ⟨_, _, rfl, by decide⟩
  | secondPoint digit => exact ⟨_, _, rfl, ne_of_class digit (by decide)⟩
  | unknownCharacter noSpace => exact ⟨_, _, rfl, noSpace⟩

/-! ## One pull -/

theorem Symbol.ofChar?_eq_none_iff {c : Char} :
    Symbol.ofChar? c = none ↔ ∀ s : Symbol, c ≠ s.char := by
  constructor
  · rintro h s rfl
    rw [Symbol.ofChar?_char] at h
    cases h
  · intro h
    rw [Option.eq_none_iff_forall_ne_some]
    intro s hs
    exact h s (Symbol.char_of_ofChar? hs).symm

/-- The second point of a run stands behind a first one, with no point before or between them. -/
theorem secondPoint?_eq_some_iff {run : List Char} {k : Nat} :
    secondPoint? run = some k ↔
      ∃ whole fraction more, run = whole ++ '.' :: (fraction ++ '.' :: more) ∧ '.' ∉ whole ∧
        '.' ∉ fraction ∧ k = whole.length + 1 + fraction.length := by
  constructor
  · intro h
    simp only [secondPoint?] at h
    split at h
    · next again =>
        cases h
        have first : '.' ∈ run :=
          (List.dropWhile_sublist _).subset ((List.drop_sublist 1 _).subset again)
        obtain ⟨after, behindFirst⟩ := exists_dropWhile_ne first
        rw [behindFirst, List.drop_one, List.tail_cons] at again ⊢
        obtain ⟨more, behindSecond⟩ := exists_dropWhile_ne again
        refine ⟨_, _, more, ?_, not_mem_takeWhile_ne, not_mem_takeWhile_ne, rfl⟩
        rw [← behindSecond, List.takeWhile_append_dropWhile, ← behindFirst,
          List.takeWhile_append_dropWhile]
    · cases h
  · rintro ⟨whole, fraction, more, rfl, inWhole, inFraction, rfl⟩
    simp only [secondPoint?, takeWhile_ne_append inWhole, dropWhile_ne_append inWhole,
      List.drop_one, List.tail_cons, takeWhile_ne_append inFraction]
    simp

/-- **What the scanner cannot read, exactly.** -/
theorem scan_eq_error_iff {c : Char} {rest : List Char} {cause : LexicalCause} {distance : Nat}
    (noSpace : c ≠ ' ') :
    scan c rest = .error (cause, distance) ↔
      Unreadable (c :: rest) cause cause.message distance := by
  constructor
  · intro h
    unfold scan at h
    -- the scanner asks for a symbol, a digit, a quote and a letter, in this order
    split at h
    · cases h
    · next noSymbol =>
        rw [Symbol.ofChar?_eq_none_iff] at noSymbol
        split at h
        · next digit =>
            dsimp only at h
            split at h
            · next k found =>
                cases h
                obtain ⟨whole, fraction, more, run, inWhole, inFraction, rfl⟩ :=
                  secondPoint?_eq_some_iff.mp found
                rw [← List.takeWhile_cons_of_pos (by simp [isNumberPart, digit])] at run
                exact .secondPoint digit run inWhole inFraction
            · cases h
        · next noDigit =>
            split at h
            · next quote =>
                subst quote
                split at h
                · next opened =>
                    cases h
                    rw [List.dropWhile_eq_nil_iff] at opened
                    refine .openQuote fun mem => ?_
                    simpa using opened '"' mem
                · cases h
            · next noQuote =>
                split at h
                · cases h
                · next noLetter =>
                    cases h
                    exact .unknownCharacter noSpace (by simpa using noDigit)
                      (by simpa using noLetter) noQuote noSymbol
  · intro h
    generalize cause.message = message at h
    cases h with
    | openQuote opened =>
        have noSymbol : Symbol.ofChar? '"' = none := rfl
        have noDigit : isDigit '"' = false := by decide
        have rest : rest.dropWhile (· ≠ '"') = [] := by
          rw [List.dropWhile_eq_nil_iff]
          intro c hc
          rw [decide_eq_true_eq]
          rintro rfl
          exact opened hc
        simp only [scan, noSymbol, noDigit, rest, Bool.false_eq_true, if_false, if_true]
    | secondPoint digit run inWhole inFraction =>
        rw [List.takeWhile_cons_of_pos (by simp [isNumberPart, digit])] at run
        have found := secondPoint?_eq_some_iff.mpr ⟨_, _, _, run, inWhole, inFraction, rfl⟩
        simp only [scan, Symbol.ofChar?_of_isDigit digit, digit, found, if_true]
    | unknownCharacter _ noDigit noLetter noQuote noSymbol =>
        rw [← Symbol.ofChar?_eq_none_iff] at noSymbol
        simp only [scan, noSymbol, noDigit, noQuote, noLetter, Bool.false_eq_true, if_false]

namespace Lexer

/-- The offset and the length of the rest make up the length of the text. -/
theorem offset_next {l after : Lexer} {t : Token} (h : l.next = (.token t, after)) :
    after.offset + after.rest.length = l.offset + l.rest.length := by
  obtain ⟨p, -, -, -, offset, whole⟩ := exists_piece_of_next h
  rw [offset, whole, p.length_text]
  simp only [List.length_append, List.length_replicate]
  omega

theorem next_of_unreadable {distance : Nat} {behind : List Char} {cause : LexicalCause}
    (h : Unreadable behind cause cause.message distance) (spaces offset : Nat) :
    next ⟨List.replicate spaces ' ' ++ behind, offset⟩ =
      (.fault ⟨cause, offset + spaces + distance⟩, ⟨behind, offset + spaces⟩) := by
  obtain ⟨c, after, rfl, noSpace⟩ := h.exists_cons
  rw [next, skipSpaces_replicate _ _ (by simpa using noSpace)]
  simp only [(scan_eq_error_iff noSpace).mpr h]

theorem exists_unreadable_of_next {l after : Lexer} {f : LexicalFault}
    (h : l.next = (.fault f, after)) :
    ∃ spaces distance, l.rest = List.replicate spaces ' ' ++ after.rest ∧
      after.offset = l.offset + spaces ∧ f.position = after.offset + distance ∧
      Unreadable after.rest f.cause f.cause.message distance := by
  obtain ⟨spaces, whole, offset⟩ := l.exists_skipSpaces
  unfold next at h
  dsimp only at h
  split at h
  · cases h
  · next c rest hr =>
      split at h
      · cases h
      · next cause distance hs =>
          cases h
          have noSpace : c ≠ ' ' := by
            have stop := head_dropWhile_eq_false (· = ' ') l.rest c
            have head : l.rest.dropWhile (· = ' ') = c :: rest := hr
            rw [head] at stop
            simpa using stop rfl
          refine ⟨spaces, distance, whole, offset, rfl, ?_⟩
          rw [hr]
          exact (scan_eq_error_iff noSpace).mp hs

/-! ## The first fault of a text -/

theorem Pulls.offset {l after : Lexer} {ts : List Token} (h : l.Pulls ts after) :
    after.offset + after.rest.length = l.offset + l.rest.length := by
  induction h with
  | nothing => rfl
  | token hn _ ih => rw [ih, offset_next hn]

/-- The tokens of a stream can be pulled, and the terminal answer comes next. -/
theorem exists_pulls_stream (l : Lexer) :
    ∃ after, l.Pulls l.stream.tokens after ∧ after.next.1 = l.stream.terminal := by
  fun_induction stream l with
  | case1 l after hn => exact ⟨l, .nothing, by rw [hn]; rfl⟩
  | case2 l f after hn => exact ⟨l, .nothing, by rw [hn]; rfl⟩
  | case3 l t after hn _ ih =>
      obtain ⟨last, pulled, terminal⟩ := ih
      exact ⟨last, .token hn pulled, terminal⟩

end Lexer

/-- The text falls into two parts. The first is read to its end and gives all tokens that the whole
text has; at the front of the second is the fault. -/
structure BreaksAt (source : String) (before behind : List Char) (f : LexicalFault) : Prop where
  whole : before ++ behind = source.toList
  read : tokenize (String.ofList before) = .ok (Lexer.read source).stream.tokens
  unreadable : ∃ distance, Unreadable behind f.cause f.cause.message distance ∧
    f.position = before.length + distance

/-- The lexer that has given all tokens of a text that breaks stands in front of spaces, and behind
them is what cannot be read. -/
theorem BreaksAt.exists_spaces {source : String} {before behind : List Char} {f : LexicalFault}
    (h : BreaksAt source before behind f) :
    ∃ l spaces, (Lexer.read source).Pulls (Lexer.read source).stream.tokens l ∧
      l = ⟨List.replicate spaces ' ' ++ behind, l.offset⟩ ∧ before.length = l.offset + spaces := by
  obtain ⟨l, pulled, -⟩ := (Lexer.read source).exists_pulls_stream
  obtain ⟨pieces, -, tokens, rest⟩ := pulled.exists_readable
  obtain ⟨others, spaces, -, text, same⟩ := Lexer.exists_readable_of_tokens h.read
  -- the tokens tell the pieces, so both parts of the text begin with the same
  obtain rfl : pieces = others := tokensOf_inj (tokens.trans same.symm)
  have front : before = pieces.flatMap Piece.text ++ List.replicate spaces ' ' :=
    String.toList_ofList.symm.trans text
  have whole : source.toList = pieces.flatMap Piece.text ++ l.rest := rest
  have behindTokens : l.rest = List.replicate spaces ' ' ++ behind := by
    rw [← h.whole, front, List.append_assoc] at whole
    exact (List.append_cancel_left whole).symm
  refine ⟨l, spaces, pulled, by rw [← behindTokens], ?_⟩
  have offset : l.offset + l.rest.length = 0 + source.toList.length := pulled.offset
  rw [whole, List.length_append] at offset
  rw [front, List.length_append, List.length_replicate]
  omega

/-- **A text has a fault exactly where it breaks.** -/
theorem Lexer.stream_fault?_eq_some_iff {source : String} {f : LexicalFault} :
    (Lexer.read source).stream.fault? = some f ↔
      ∃ before behind, BreaksAt source before behind f := by
  constructor
  · intro h
    obtain ⟨l, pulled, terminal⟩ := (Lexer.read source).exists_pulls_stream
    rw [TokenStream.terminal, h] at terminal
    obtain ⟨pieces, readable, tokens, rest⟩ := pulled.exists_readable
    obtain ⟨spaces, distance, text, offset, position, unreadable⟩ :=
      Lexer.exists_unreadable_of_next (Prod.ext terminal rfl)
    have whole : source.toList = pieces.flatMap Piece.text ++ l.rest := rest
    have place : l.offset + l.rest.length = 0 + source.toList.length := pulled.offset
    refine ⟨textOf pieces spaces, l.next.2.rest, ?_, ?_, distance, unreadable, ?_⟩
    · rw [textOf, List.append_assoc, ← text, ← whole]
    · rw [← tokens]
      exact tokenize_text (w := ⟨pieces, spaces⟩) readable
    · rw [whole, List.length_append] at place
      rw [position, offset, textOf, List.length_append, List.length_replicate]
      omega
  · rintro ⟨before, behind, breaks⟩
    obtain ⟨l, spaces, pulled, rest, place⟩ := breaks.exists_spaces
    obtain ⟨distance, unreadable, position⟩ := breaks.unreadable
    obtain ⟨last, pulled', terminal⟩ := (Lexer.read source).exists_pulls_stream
    obtain rfl : l = last := by rw [pulled'.eq_advance.1, pulled.eq_advance.1]
    rw [rest, next_of_unreadable unreadable spaces l.offset, ← place, ← position] at terminal
    rw [TokenStream.terminal] at terminal
    split at terminal
    · cases terminal
    · next g hg =>
        cases terminal
        exact hg

/-! ## Any calls -/

namespace Lexer

/-- What a lexer is called for: to start over with a text, or to give the next item. -/
inductive Call
  | read (source : String)
  | next
deriving DecidableEq, Repr

/-- The lexer as a call leaves it. -/
def afterCall (l : Lexer) : Call → Lexer
  | .read source => .read source
  | .next => l.next.2

/-- A new lexer after any calls. -/
def afterCalls (calls : List Call) : Lexer := calls.foldl afterCall .empty

/-- The calls end with pulls only, or with pulls behind the last text that was read. -/
theorem exists_pulls_at_end (calls : List Call) :
    (∃ n, calls = List.replicate n .next) ∨
      ∃ earlier source n, calls = earlier ++ .read source :: List.replicate n .next := by
  induction calls using List.reverseRecOn with
  | nil => exact .inl ⟨0, rfl⟩
  | append_singleton calls call ih =>
      cases call with
      | read source => exact .inr ⟨calls, source, 0, rfl⟩
      | next =>
          rcases ih with ⟨n, rfl⟩ | ⟨earlier, source, n, rfl⟩
          · exact .inl ⟨n + 1, List.replicate_succ'.symm⟩
          · refine .inr ⟨earlier, source, n + 1, ?_⟩
            rw [List.replicate_succ', List.append_assoc, List.cons_append]

theorem foldl_replicate_next (l : Lexer) (n : Nat) :
    (List.replicate n Call.next).foldl afterCall l = l.advance n := by
  induction n generalizing l with
  | zero => rfl
  | succ n ih => rw [List.replicate_succ, List.foldl_cons, ih, advance_succ]; rfl

theorem afterCalls_read (earlier : List Call) (source : String) (n : Nat) :
    afterCalls (earlier ++ .read source :: List.replicate n .next) =
      (Lexer.read source).advance n := by
  rw [afterCalls, List.foldl_append, List.foldl_cons, foldl_replicate_next]
  rfl

theorem advance_of_stands {l : Lexer} {p : Pull} (stands : l.next = (p, l)) (n : Nat) :
    l.advance n = l := by
  induction n with
  | zero => rfl
  | succ n ih => rw [advance_succ, stands, ih]

/-- A lexer that has met a fault stands at it for ever. -/
theorem advance_of_breaksAt {source : String} {before behind : List Char} {f : LexicalFault}
    (h : BreaksAt source before behind f) (n : Nat) :
    (Lexer.read source).advance ((Lexer.read source).stream.tokens.length + 1 + n) =
      ⟨behind, before.length⟩ := by
  obtain ⟨l, spaces, pulled, rest, place⟩ := h.exists_spaces
  obtain ⟨distance, unreadable, -⟩ := h.unreadable
  have reaches : l.advance 1 = ⟨behind, before.length⟩ := by
    rw [rest, place]
    exact congrArg Prod.snd (next_of_unreadable unreadable spaces l.offset)
  rw [← advance_advance, ← advance_advance, ← pulled.eq_advance.1, reaches]
  exact advance_of_stands (next_of_unreadable unreadable 0 before.length) n

end Lexer

/-- **What a lexer answers, and where it stops.** The calls made on a lexer end with pulls behind
the text that was read last, or with pulls of a lexer that has read none. A pull answers with the
item of that text's stream at the number of pulls before it: its tokens in their order, and then for
ever the end of the text or the same fault. Without a fault the tokens are all tokens of the text.
With one, and only then, the text falls into a part that gives the tokens and a part at whose front
is what the fault says; the lexer stands between the two from then on. -/
theorem calls_answered :
    (∀ calls, (∃ n, calls = List.replicate n .next ∧ (Lexer.afterCalls calls).next.1 = .done) ∨
      ∃ earlier source n, calls = earlier ++ .read source :: List.replicate n .next ∧
        (Lexer.afterCalls calls).next.1 = (Lexer.read source).stream.item n) ∧
    ∀ source, ((Lexer.read source).stream.fault? = none →
        tokenize source = .ok (Lexer.read source).stream.tokens) ∧
      ∀ f, ((Lexer.read source).stream.fault? = some f ↔
          ∃ before behind, BreaksAt source before behind f) ∧
        ∀ before behind, BreaksAt source before behind f → ∀ earlier n,
          (Lexer.read source).stream.tokens.length < n →
          Lexer.afterCalls (earlier ++ .read source :: List.replicate n .next) =
            ⟨behind, before.length⟩ := by
  refine ⟨fun calls => ?_, fun source => ⟨fun noFault => ?_, fun f =>
    ⟨Lexer.stream_fault?_eq_some_iff, fun before behind breaks earlier n past => ?_⟩⟩⟩
  · rcases Lexer.exists_pulls_at_end calls with ⟨n, rfl⟩ | ⟨earlier, last, n, rfl⟩
    · refine .inl ⟨n, rfl, ?_⟩
      have stands : Lexer.empty.next = (.done, .empty) := rfl
      rw [Lexer.afterCalls, Lexer.foldl_replicate_next, Lexer.advance_of_stands stands, stands]
    · refine .inr ⟨earlier, last, n, rfl, ?_⟩
      rw [Lexer.afterCalls_read, Lexer.next_advance]
  · rw [tokenize, Lexer.tokens_eq_stream, noFault]
  · obtain ⟨m, rfl⟩ := Nat.exists_eq_add_of_lt past
    rw [Lexer.afterCalls_read, Nat.add_right_comm, Lexer.advance_of_breaksAt breaks]

set_option maxRecDepth 1000 in
/-- The second point of a number is the fault, and the lexer stands where the number begins. -/
theorem calls_answered_secondPoint :
    BreaksAt "x 1.2.3" "x ".toList "1.2.3".toList ⟨.secondPoint, 5⟩ ∧
      (Lexer.read "x 1.2.3").stream = ⟨[⟨.word "x", 0⟩], some ⟨.secondPoint, 5⟩⟩ ∧
      Lexer.afterCalls [.next, .read "x 1.2.3", .next, .next, .next] = ⟨"1.2.3".toList, 2⟩ := by
  have tokens : (Lexer.read "x 1.2.3").stream.tokens = [⟨.word "x", 0⟩] := by cbv
  have read : tokenize "x " = .ok [⟨.word "x", 0⟩] := by cbv
  have unreadable : Unreadable "1.2.3".toList .secondPoint LexicalCause.secondPoint.message 3 :=
    @Unreadable.secondPoint '1' _ ['1'] ['2'] ['3'] (by decide) (by decide) (by decide) (by decide)
  have breaks : BreaksAt "x 1.2.3" "x ".toList "1.2.3".toList ⟨.secondPoint, 5⟩ :=
    ⟨rfl, by rw [tokens, String.ofList_toList, read], 3, unreadable, rfl⟩
  obtain ⟨-, found⟩ := calls_answered
  obtain ⟨fault, stands⟩ := (found "x 1.2.3").2 ⟨.secondPoint, 5⟩
  refine ⟨breaks, ?_, stands _ _ breaks [.next] 3 (by rw [tokens]; decide)⟩
  rw [← tokens, ← fault.mpr ⟨_, _, breaks⟩]

end Reckoner
