import Reckoner.Proofs.Lexer.Writing

/-!
# Pulling token after token

A parser that stops early has seen a part of the text only, and behind that part there may be no
lexeme at all. `Lexer.Pulls` says which tokens were pulled, whatever follows them, and
`Lexer.Pulls.exists_readable` which part of the text they are.
-/

namespace Reckoner

/-- One pull after the other gives the tokens, and leaves the lexer behind the last of them. -/
inductive Lexer.Pulls : Lexer → List Token → Lexer → Prop
  | nothing {l : Lexer} : Pulls l [] l
  | token {l next after : Lexer} {t : Token} {more : List Token} : l.next = (.token t, next) →
      Pulls next more after → Pulls l (t :: more) after

section

variable {l middle after : Lexer} {ts us : List Token}

theorem Lexer.Pulls.exists_of_append (h : l.Pulls (ts ++ us) after) :
    ∃ middle, l.Pulls ts middle ∧ middle.Pulls us after := by
  induction ts generalizing l with
  | nil => exact ⟨l, .nothing, h⟩
  | cons t more ih =>
      cases h with
      | token pulled rest =>
          obtain ⟨middle, before, behind⟩ := ih rest
          exact ⟨middle, .token pulled before, behind⟩

/-- Where the last pull found the end of the text, all tokens were pulled. -/
theorem Lexer.Pulls.tokens_of_done (h : l.Pulls ts after) (done : after.next.1 = .done) :
    l.tokens = .ok ts := by
  induction h with
  | nothing => exact Lexer.tokens_of_done (Prod.ext done rfl)
  | token pulled _ ih =>
      rw [Lexer.tokens_of_token pulled, ih done]
      rfl

/-! ## The part of the text that was pulled -/

/-- The tokens that were pulled are the pieces of a part of the text, and the lexer has the rest. -/
theorem Lexer.Pulls.exists_readable (h : l.Pulls ts after) :
    ∃ pieces, Readable pieces ∧ tokensOf l.offset pieces = ts ∧
      l.rest = pieces.flatMap Piece.text ++ after.rest := by
  induction h with
  | nothing => exact ⟨[], ⟨by simp, .nil⟩, rfl, rfl⟩
  | @token l next after t more pulled _ ih =>
      obtain ⟨p, token, wf, ends, offset, whole⟩ := Lexer.exists_piece_of_next pulled
      obtain ⟨pieces, readable, tokens, rest⟩ := ih
      rw [rest] at ends
      refine ⟨p :: pieces, readable.cons wf ends, ?_, ?_⟩
      · rw [tokensOf, token, ← tokens, offset]
      · rw [whole, rest, List.flatMap_cons, Piece.text]
        simp only [List.append_assoc]

/-- The token pulled last is the last piece, and it ends where the text goes on. -/
theorem Lexer.Pulls.exists_last {t : Token} (h : l.Pulls (ts ++ [t]) after) :
    ∃ front p, Readable (front ++ [p]) ∧
      t = ⟨p.lexeme, l.offset + (front.flatMap Piece.text).length + p.spaces⟩ ∧
      p.lexeme.EndsBefore after.rest ∧
      l.rest = front.flatMap Piece.text ++ (p.text ++ after.rest) := by
  obtain ⟨pieces, readable, tokens, whole⟩ := h.exists_readable
  obtain ⟨middle, -, last⟩ := h.exists_of_append
  cases last with
  | token pulled rest =>
      cases rest
      obtain ⟨q, token, -, ends, -⟩ := Lexer.exists_piece_of_next pulled
      rcases List.eq_nil_or_concat pieces with rfl | ⟨front, p, rfl⟩
      · simp [tokensOf] at tokens
      · rw [List.concat_eq_append] at *
        rw [tokensOf_append] at tokens
        obtain ⟨-, same⟩ := List.append_inj' tokens rfl
        have here : t = ⟨p.lexeme, l.offset + (front.flatMap Piece.text).length + p.spaces⟩ :=
          (List.singleton_inj.mp same).symm
        have lexeme : p.lexeme = q.lexeme := congrArg Token.lexeme (here.symm.trans token)
        refine ⟨front, p, readable, here, ?_, ?_⟩
        · rwa [lexeme]
        · rw [whole, List.flatMap_append, List.append_assoc]
          simp

end

/-- Readable pieces are pulled one after the other if the last of them ends where the text goes
on. -/
theorem Lexer.pulls_pieces {pieces : List Piece} {after : List Char} (readable : Readable pieces)
    (ends : ∀ p ∈ pieces.getLast?, p.lexeme.EndsBefore after) (offset : Nat) :
    Lexer.Pulls ⟨pieces.flatMap Piece.text ++ after, offset⟩ (tokensOf offset pieces)
      ⟨after, offset + (pieces.flatMap Piece.text).length⟩ := by
  induction pieces generalizing offset with
  | nil => exact .nothing
  | cons p more ih =>
      have endsHere : p.lexeme.EndsBefore (more.flatMap Piece.text ++ after) := by
        cases more with
        | nil => exact ends p rfl
        | cons q later =>
            rw [List.flatMap_cons, List.append_assoc,
              endsBefore_text_iff (readable.wellFormed q (by simp))]
            exact (List.isChain_cons_cons.mp readable.apart).1
      have endsLater : ∀ q ∈ more.getLast?, q.lexeme.EndsBefore after := by
        intro q last
        apply ends
        rw [List.getLast?_cons, Option.mem_def.mp last]
        rfl
      have later := ih readable.tail endsLater (offset + p.text.length)
      rw [Nat.add_assoc, ← List.length_append, ← List.flatMap_cons] at later
      refine .token ?_ later
      rw [List.flatMap_cons, Piece.text, List.append_assoc, List.append_assoc]
      exact next_piece offset (readable.wellFormed p (by simp)) endsHere

theorem tokenize_flatMap_text {pieces : List Piece} (readable : Readable pieces) :
    tokenize (String.ofList (pieces.flatMap Piece.text)) = .ok (tokensOf 0 pieces) := by
  have read := tokenize_text (w := ⟨pieces, 0⟩) readable
  rwa [Writing.text, textOf, List.replicate_zero, List.append_nil] at read

/-! ## Going on after a space -/

/-- Lexemes written on, each after one space. -/
def spaced (xs : List Lexeme) : List Piece := xs.map (Piece.mk 1)

@[simp] theorem map_lexeme_spaced (xs : List Lexeme) : (spaced xs).map Piece.lexeme = xs := by
  rw [spaced, List.map_map]
  exact List.map_id xs

/-- A space keeps lexemes apart, so any well-formed ones may follow it. -/
theorem Readable.append_spaced {pieces : List Piece} (h : Readable pieces) {xs : List Lexeme}
    (wf : ∀ x ∈ xs, x.WellFormed) : Readable (pieces ++ spaced xs) := by
  have apart (p : Piece) (x : Lexeme) : p.Apart ⟨1, x⟩ := fun zero => absurd zero Nat.one_ne_zero
  refine ⟨?_, List.isChain_append.mpr ⟨h.apart, ?_, fun p _ q hq => ?_⟩⟩
  · rw [List.forall_mem_append]
    refine ⟨h.wellFormed, fun q hq => ?_⟩
    obtain ⟨x, hx, rfl⟩ := List.mem_map.mp hq
    exact wf x hx
  · exact (List.pairwise_map.mpr (List.pairwise_of_forall fun _ x => apart _ x)).isChain
  · obtain ⟨x, -, rfl⟩ := List.mem_map.mp (List.mem_of_mem_head? hq)
    exact apart p x

end Reckoner
