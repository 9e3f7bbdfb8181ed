import Reckoner.Proofs.Number.Literals
import Reckoner.Proofs.Parser.Conversion
import Reckoner.Proofs.Parser.OnDemand

/-!
# Numbers in any script

The lexer lets digits of every script into a number, several scripts side by side included, and no
number of it is unreadable. The script makes no difference to the tree. Two texts with the same
lexemes, apart from the scripts of their numbers, take the parser through the same states, up to
positions (`feed_blurred`), and a number that is written in other scripts changes nothing else in
its text (`sameButScripts_of_pieces`).
-/

namespace Reckoner

open Reckoner.Grammar Reckoner.Text

/-! ## Texts that differ in scripts only -/

/-- The lexeme with the digits of a number in ASCII. -/
def Lexeme.asciiDigits : Lexeme → Lexeme
  | .number digits => .number (Text.asciiDigits digits)
  | .word name => .word name
  | .quoted inner => .quoted inner
  | .symbol s => .symbol s

/-- The texts have the same lexemes, apart from the scripts in which numbers are written, and a
lexical fault stands behind those of both or of neither. -/
structure SameButScripts (source other : String) : Prop where
  lexemes : (streamOf source).tokens.map (·.lexeme.asciiDigits) =
    (streamOf other).tokens.map (·.lexeme.asciiDigits)
  faults : (streamOf source).fault?.isSome = (streamOf other).fault?.isSome

theorem SameButScripts.symm {source other : String} (h : SameButScripts source other) :
    SameButScripts other source := ⟨h.lexemes.symm, h.faults.symm⟩

/-! ## The same steps -/

namespace Parser

/-- A step without positions and without what faults say. -/
def Step.blurred : Step → Step
  | .shift next => .shift next.unplaced
  | .accept e => .accept e
  | .fail _ => .fail ⟨.nothing, 0⟩

section

variable {x y : Step}

theorem blurred_eq_of_unplaced (same : x.unplaced = y.unplaced) : x.blurred = y.blurred := by
  cases x <;> cases y <;> simp_all [Step.unplaced, Step.blurred]

theorem exists_shift_of_blurred {next : State} (same : (Step.shift next).blurred = y.blurred) :
    ∃ next', y = .shift next' ∧ next.unplaced = next'.unplaced := by
  cases y with
  | shift next' => exact ⟨next', rfl, Step.shift.inj same⟩
  | accept e => cases same
  | fail f => cases same

theorem accept_of_blurred {e : Expr} (same : (Step.accept e).blurred = y.blurred) :
    y = .accept e := by
  cases y with
  | shift next => cases same
  | accept e' => exact same.symm
  | fail f => cases same

end

section

variable (digits : String) (position : Nat) (e : Expr) (pending : List Pending)
  (outer : List Level)

theorem begin_asciiDigits :
    begin ⟨.number (Text.asciiDigits digits), position⟩ pending outer =
      begin ⟨.number digits, position⟩ pending outer := by
  unfold begin
  dsimp only
  rw [literal_asciiDigits]

/-- Behind an operand a number is refused or ends the expression, whatever it is. -/
theorem proceed_asciiDigits :
    (proceed ⟨.number (Text.asciiDigits digits), position⟩ e pending outer).blurred =
      (proceed ⟨.number digits, position⟩ e pending outer).blurred := by
  cases outer with
  | nil => rfl
  | cons level outer =>
      rcases level with ⟨opening, waiting⟩
      cases opening with
      | group => rfl
      | arguments => rfl

end

section

variable {s s' : State} {t t' : Token}

theorem feed_asciiDigits (s : State) (t : Token) :
    (s.feed ⟨t.lexeme.asciiDigits, t.position⟩).blurred = (s.feed t).blurred := by
  rcases t with ⟨x, position⟩
  cases x with
  | word | quoted | symbol => rfl
  | number digits =>
      cases s with
      | expecting pending outer =>
          exact congrArg Step.blurred (begin_asciiDigits digits position pending outer)
      | called e pending outer => exact proceed_asciiDigits digits position e pending outer
      | basic e start pending outer =>
          cases callee : calleeName? e with
          | none => simp only [State.feed, Lexeme.asciiDigits, callee]
          | some name => simp only [State.feed, Lexeme.asciiDigits, callee, begin_asciiDigits]

/-- **Neither positions nor scripts make a difference to a step.** -/
theorem feed_blurred (states : s.unplaced = s'.unplaced)
    (lexemes : t.lexeme.asciiDigits = t'.lexeme.asciiDigits) :
    (s.feed t).blurred = (s'.feed t').blurred := by
  rw [← feed_asciiDigits s t, ← feed_asciiDigits s' t']
  exact blurred_eq_of_unplaced (feed_alike states lexemes)

theorem finish_unplaced (s : State) (length length' : Nat) (e : Expr) :
    s.unplaced.finish length = .ok e ↔ s.finish length' = .ok e := by
  cases s with
  | expecting pending outer => cases pending <;> cases outer <;> simp [State.unplaced, State.finish]
  | basic e start pending outer => cases outer <;> simp [State.unplaced, State.finish]
  | called e pending outer => cases outer <;> simp [State.unplaced, State.finish]

/-- The same steps lead to the same tree. -/
theorem readStream_of_alike {ts ts' : List Token} {fault? fault?' : Option LexicalFault} {e : Expr}
    {length : Nat} (states : s.unplaced = s'.unplaced)
    (lexemes : ts.map (·.lexeme.asciiDigits) = ts'.map (·.lexeme.asciiDigits))
    (faults : fault?.isSome = fault?'.isSome) (length' : Nat)
    (read : readStream length s fault? ts = .ok e) : readStream length' s' fault?' ts' = .ok e := by
  induction ts generalizing s s' ts' with
  | nil =>
      obtain rfl : ts' = [] := List.map_eq_nil_iff.mp lexemes.symm
      cases fault? with
      | some f => cases read
      | none =>
          have noFault : fault?' = none := by simpa using faults.symm
          subst noFault
          unfold readStream at read ⊢
          dsimp only at read ⊢
          rw [mapError_eq_ok_iff] at read ⊢
          rw [← finish_unplaced s length length] at read
          rw [← finish_unplaced s' length length', ← states]
          exact read
  | cons t more ih =>
      obtain ⟨t', more', rfl, same, rest⟩ := List.map_eq_cons_iff.mp lexemes.symm
      have step := feed_blurred states same.symm
      rw [readStream_cons] at read ⊢
      cases hs : s.feed t with
      | shift next =>
          rw [hs] at step read
          obtain ⟨next', shifts, alike⟩ := exists_shift_of_blurred step
          rw [shifts]
          exact ih alike rest.symm read
      | accept e' =>
          rw [hs] at step read
          rw [accept_of_blurred step]
          exact read
      | fail f =>
          rw [hs] at read
          cases read

end

end Parser

theorem parse_of_sameButScripts {source other : String} (same : SameButScripts source other)
    {e : Expr} (parsed : parse source = .ok e) : parse other = .ok e := by
  rw [parse_eq_readStream] at parsed ⊢
  exact Parser.readStream_of_alike rfl same.lexemes same.faults _ parsed

/-! ## Writing numbers in other scripts -/

namespace Lexeme

variable (x : Lexeme)

theorem kind_asciiDigits : x.asciiDigits.kind = x.kind := by
  cases x <;> rfl

theorem length_spelling_asciiDigits : x.asciiDigits.spelling.length = x.spelling.length := by
  cases x with
  | number digits =>
      show (Text.asciiDigits digits).toList.length = digits.toList.length
      rw [toList_asciiDigits, List.length_map]
  | word | quoted | symbol => rfl

theorem wellFormed_asciiDigits : x.asciiDigits.WellFormed ↔ x.WellFormed := by
  cases x with
  | number digits => exact wellFormed_asciiDigits_iff
  | word | quoted | symbol => exact Iff.rfl

theorem endsBefore_asciiDigits (after : List Char) :
    x.asciiDigits.EndsBefore after ↔ x.EndsBefore after := by
  cases x <;> exact Iff.rfl

end Lexeme

/-- The piece with the digits of a number in ASCII. -/
def Piece.asciiDigits (p : Piece) : Piece := ⟨p.spaces, p.lexeme.asciiDigits⟩

theorem Piece.length_text_asciiDigits (p : Piece) : p.asciiDigits.text.length = p.text.length := by
  rw [length_text, length_text]
  exact congrArg (p.spaces + ·) p.lexeme.length_spelling_asciiDigits

theorem readable_asciiDigits_iff {pieces : List Piece} :
    Readable (pieces.map Piece.asciiDigits) ↔ Readable pieces := by
  have apart (p q : Piece) : p.asciiDigits.Apart q.asciiDigits ↔ p.Apart q := by
    simp only [Piece.Apart, Piece.asciiDigits, Lexeme.kind_asciiDigits]
  have wellFormed : (∀ p ∈ pieces.map Piece.asciiDigits, p.lexeme.WellFormed) ↔
      ∀ p ∈ pieces, p.lexeme.WellFormed := by
    rw [List.forall_mem_map]
    exact forall₂_congr fun p _ => p.lexeme.wellFormed_asciiDigits
  have chain : (pieces.map Piece.asciiDigits).IsChain Piece.Apart ↔
      pieces.IsChain Piece.Apart := by
    rw [List.isChain_map]
    simp only [apart]
  constructor
  · rintro ⟨wf, apart⟩
    exact ⟨wellFormed.mp wf, chain.mp apart⟩
  · rintro ⟨wf, apart⟩
    exact ⟨wellFormed.mpr wf, chain.mpr apart⟩

section

variable {pieces pieces' : List Piece} {after : List Char}

theorem length_flatMap_text (pieces : List Piece) :
    ((pieces.map Piece.asciiDigits).flatMap Piece.text).length =
      (pieces.flatMap Piece.text).length := by
  simp only [List.length_flatMap, List.map_map, Function.comp_def, Piece.length_text_asciiDigits]

theorem streamOf_pieces (readable : Readable pieces)
    (ends : ∀ p ∈ pieces.getLast?, p.lexeme.EndsBefore after) :
    let behind : Lexer := ⟨after, (pieces.flatMap Piece.text).length⟩
    streamOf (String.ofList (pieces.flatMap Piece.text ++ after)) =
      ⟨tokensOf 0 pieces ++ behind.stream.tokens, behind.stream.fault?⟩ := by
  intro behind
  have pulled := Lexer.pulls_pieces readable ends 0
  rw [Nat.zero_add] at pulled
  unfold streamOf Lexer.read
  rw [String.toList_ofList]
  exact pulled.stream_eq

/-- **A text goes on as before behind numbers that are written in other scripts.** -/
theorem sameButScripts_of_pieces (readable : Readable pieces)
    (ends : ∀ p ∈ pieces.getLast?, p.lexeme.EndsBefore after)
    (alike : pieces.map Piece.asciiDigits = pieces'.map Piece.asciiDigits) :
    SameButScripts (String.ofList (pieces.flatMap Piece.text ++ after))
      (String.ofList (pieces'.flatMap Piece.text ++ after)) := by
  have readable' : Readable pieces' := by
    rwa [← readable_asciiDigits_iff, ← alike, readable_asciiDigits_iff]
  have ends' : ∀ p ∈ pieces'.getLast?, p.lexeme.EndsBefore after := by
    intro p' last
    have lasts := congrArg List.getLast? alike
    rw [List.getLast?_map, List.getLast?_map, Option.mem_def.mp last] at lasts
    obtain ⟨p, hp, same⟩ := Option.map_eq_some_iff.mp lasts
    have lexemes : p.lexeme.asciiDigits = p'.lexeme.asciiDigits := congrArg Piece.lexeme same
    rw [← p'.lexeme.endsBefore_asciiDigits, ← lexemes, p.lexeme.endsBefore_asciiDigits]
    exact ends p hp
  have length : (pieces.flatMap Piece.text).length = (pieces'.flatMap Piece.text).length := by
    rw [← length_flatMap_text pieces, alike, length_flatMap_text pieces']
  have lexemes (pieces : List Piece) : (tokensOf 0 pieces).map (·.lexeme.asciiDigits) =
      (pieces.map Piece.asciiDigits).map Piece.lexeme := by
    have plain := congrArg (List.map Lexeme.asciiDigits) (map_lexeme_tokensOf 0 pieces)
    rw [List.map_map, List.map_map] at plain
    rw [List.map_map]
    exact plain
  have stream := streamOf_pieces readable ends
  have stream' := streamOf_pieces readable' ends'
  rw [← length] at stream'
  constructor
  · rw [stream, stream', List.map_append, List.map_append, lexemes, lexemes, alike]
  · rw [stream, stream']

end

/-- A number that was pulled stands in its text, and may be written with other digits there. -/
theorem Lexer.Pulls.sameButScripts {source digits : String} {ts : List Token} {position : Nat}
    {after : Lexer}
    (h : (Lexer.read source).Pulls (ts ++ [⟨.number digits, position⟩]) after) :
    (Lexeme.number digits).WellFormed ∧
      ∃ before, source.toList = before ++ (digits.toList ++ after.rest) ∧
        before.length = position ∧
        ∀ digits', Text.asciiDigits digits' = Text.asciiDigits digits →
          SameButScripts source (String.ofList (before ++ (digits'.toList ++ after.rest))) := by
  obtain ⟨front, ⟨spaces, lexeme⟩, readable, token, ends, whole⟩ := h.exists_last
  obtain ⟨rfl, place⟩ := Token.mk.inj token
  let written (digits : String) : List Piece := front ++ [⟨spaces, .number digits⟩]
  let before := front.flatMap Piece.text ++ List.replicate spaces ' '
  have text (digits : String) : (written digits).flatMap Piece.text ++ after.rest =
      before ++ (digits.toList ++ after.rest) := by
    simp [written, before, Piece.text, Lexeme.spelling]
  have here : source.toList = before ++ (digits.toList ++ after.rest) := by
    show (Lexer.read source).rest = _
    rw [whole, ← text]
    simp [written]
  refine ⟨readable.wellFormed ⟨spaces, .number digits⟩ (by simp), before, here, ?_, ?_⟩
  · rw [List.length_append, List.length_replicate, place]
    simp [Lexer.read]
  · intro digits' same
    have alike : (written digits).map Piece.asciiDigits =
        (written digits').map Piece.asciiDigits := by
      simp only [written, List.map_append, List.map_cons, Piece.asciiDigits, Lexeme.asciiDigits,
        same]
    have last : ∀ p ∈ (written digits).getLast?, p.lexeme.EndsBefore after.rest := by
      simpa [written] using ends
    have rewritten := sameButScripts_of_pieces readable last alike
    rwa [text, text, ← here, String.ofList_toList] at rewritten

/-- **Every number of the lexer is readable, in any script.** What a lexer has pulled as a number is
a number from outside as well. It is worth the same with its digits in ASCII, where it has nothing
but ASCII digits and at most a point, and the text is the same but for scripts if the number is
written with other digits of the same values. A parser that reads its numbers from outside, and
fails where it cannot, gives what the parser gives on every text. Texts that are the same but for
scripts have the same trees, with the same numbers and names in them. -/
theorem literals_readable (source : String) :
    (∀ ts digits position after,
      (Lexer.read source).Pulls (ts ++ [⟨.number digits, position⟩]) after →
        Number.read? digits = some (Number.literal digits.toList) ∧
        Number.read? (asciiDigits digits) = some (Number.literal digits.toList) ∧
        (∀ c ∈ (asciiDigits digits).toList, c.isDigit = true ∨ c = '.') ∧
        ∃ before, source.toList = before ++ (digits.toList ++ after.rest) ∧
          before.length = position ∧
          ∀ digits', asciiDigits digits' = asciiDigits digits →
            SameButScripts source (String.ofList (before ++ (digits'.toList ++ after.rest)))) ∧
    Parser.runWith Number.read? source.length .start (.read source) = some (Lexer.parse source) ∧
    ∀ other, SameButScripts source other → ∀ e, parse source = .ok e ↔ parse other = .ok e := by
  refine ⟨fun ts digits position after pulled => ?_, ?_, fun other same e => ?_⟩
  · obtain ⟨wf, rewritten⟩ := pulled.sameButScripts
    exact ⟨read?_of_wellFormed wf, read?_asciiDigits wf, isAscii_asciiDigits wf, rewritten⟩
  · exact Parser.runWith_eq_run (fun digits wf => read?_of_wellFormed wf) _ _ _
  · exact ⟨parse_of_sameButScripts same, parse_of_sameButScripts same.symm⟩

/-- Three and one tenth, with digits of two scripts, is called with an argument. -/
theorem literals_readable_mixed :
    let digits := "\u0663.\u0967"
    let source := digits ++ "(e)"
    (Lexer.read source).Pulls ([] ++ [⟨.number digits, 0⟩]) ⟨['(', 'e', ')'], 3⟩ ∧
      Number.read? digits = some (Number.literal "3.1".toList) ∧
      SameButScripts source "3.1(e)" ∧
      parse source = .ok (.call (Number.text (Number.literal "3.1".toList)) [.identifier "e"]) := by
  intro digits source
  have pulled : (Lexer.read source).Pulls ([] ++ [⟨.number digits, 0⟩]) ⟨['(', 'e', ')'], 3⟩ := by
    refine .token ?_ .nothing
    decide +kernel
  obtain ⟨value, -, -, before, -, atStart, rewritten⟩ :=
    (literals_readable source).1 [] digits 0 _ pulled
  have ascii : asciiDigits digits = "3.1" := by decide +kernel
  have same := rewritten "3.1" (by decide +kernel)
  rw [List.eq_nil_of_length_eq_zero atStart] at same
  have tokens : tokenize "3.1(e)" = .ok [⟨.number "3.1", 0⟩, ⟨.symbol .lparen, 3⟩, ⟨.word "e", 4⟩,
      ⟨.symbol .rparen, 5⟩] := by cbv
  have each : ∀ a ∈ [(⟨[.word "e"], .identifier "e", .plain⟩ : Argument)],
      Derives .sum a.lexemes a.tree a.ending := by
    simpa using (Derives.word "e").loosen (by decide)
  have derived : Derives .call [.number "3.1", .symbol .lparen, .word "e", .symbol .rparen]
      (.call (Number.text (Number.literal "3.1".toList)) [.identifier "e"]) .arguments :=
    .explicitCall (.number "3.1") (.number _) (by simp) each
  have parsed := (parse_of_derives tokens (derived.loosen (by decide))).1
  refine ⟨pulled, ?_, same, ((literals_readable source).2.2 _ same _).mpr parsed⟩
  rw [value, ← literal_asciiDigits, ascii]

end Reckoner
