import Reckoner.Parser.Reader
import Reckoner.Proofs.Lexer.Stream
import Reckoner.Proofs.Parser.Stopping

/-!
# One lexer for many parses

A lexer and the parser that reads from it are used over and over, and between two parses others may
pull from the lexer as well. A parse writes over what the parser remembers before it looks there, so
it goes as with a parser that never read before (`Reader.parse_eq`). What comes out depends on the
latest parse only: `lexer_afterAll` says where any history leaves the lexer, namely in the text
parsed last, behind what the parser took of it and what was pulled since. The parser took the tokens
of the expression and one item more, also where it failed (`run_advances`).
-/

namespace Reckoner

/-! ## How far one parse goes -/

namespace Parser

/-- Reading on from a state pulls the tokens that it takes and one item more. -/
theorem run_advances (length : Nat) (s : State) (l : Lexer) :
    (run length s l).2 = l.advance ((taken s l).length + 1) := by
  fun_induction run length s l with
  | case1 s l after hn => rw [(run_of_done length hn).2, List.length_nil, l.advance_succ, hn]; rfl
  | case2 s l f after hn =>
      rw [(ahead_of_stop hn (by simp)).2, List.length_nil, l.advance_succ, hn]
      rfl
  | case3 s l t after hn _ next hs ih =>
      rw [ih, (run_of_shift length hn hs).2, List.length_cons, l.advance_succ _, hn]
  | case4 s l t after hn _ e hs =>
      rw [(run_of_accept length hn hs).2, List.length_nil, l.advance_succ, hn]
      rfl
  | case5 s l t after hn _ f hs =>
      rw [(run_of_fail length hn hs).2, List.length_nil, l.advance_succ, hn]
      rfl

/-- What reading on from a state pulls is the front of the stream. -/
theorem front_stream (s : State) (l : Lexer) :
    l.stream.front ((taken s l).length + 1) = (taken s l).map .token ++ [ahead s l] := by
  obtain ⟨last, after, pulled, inHand, -⟩ := exists_stop 0 s l
  obtain ⟨behind, front⟩ := pulled.eq_advance
  rw [TokenStream.front_succ, front, ← Lexer.next_advance, ← behind, inHand]

end Parser

/-! ## What the parser remembers -/

namespace Reader

/-- What is in the hand where reading on from a state stops. A fault leaves there the token taken
last, or what was there before if none was taken. -/
def handAfter (s : Parser.State) (r : Reader) : Option Token :=
  match Parser.ahead s r.lexer with
  | .done => none
  | .token t => some t
  | .fault _ => (Parser.taken s r.lexer).getLast?.or r.inHand

/-- **A reader reads on as the parser does**, whatever is in its hand. -/
theorem run_eq (s : Parser.State) (r : Reader) :
    r.run s = ((Parser.run r.length s r.lexer).1,
      ⟨(Parser.run r.length s r.lexer).2, r.handAfter s, r.length⟩) := by
  fun_induction run s r with
  | case1 s r f after pulled =>
      obtain ⟨isDone, -⟩ | ⟨_, isToken, -⟩ | ⟨g, isFault, next, same⟩ := pull_cases pulled
      · cases isDone
      · cases isToken
      · cases isFault
        obtain ⟨ahead, took⟩ := Parser.ahead_of_stop (s := s) next (by simp)
        rw [Parser.run_of_fault r.length next, handAfter, ahead, took]
        exact congrArg _ same
  | case2 s r after pulled hand =>
      obtain ⟨-, next, same⟩ | ⟨t, -, next, same⟩ | ⟨f, isFault, -⟩ := pull_cases pulled
      · obtain ⟨ahead, -⟩ := Parser.ahead_of_stop (s := s) next (by simp)
        rw [(Parser.run_of_done r.length next).1, handAfter, ahead, same]
      · rw [same] at hand
        cases hand
      · cases isFault
  | case3 s r after pulled t hand _ next step ih =>
      obtain ⟨token, same⟩ := next_of_pull pulled hand
      have hands : after.handAfter next = r.handAfter s := by
        rw [handAfter, handAfter, Parser.ahead_of_shift token step,
          (Parser.run_of_shift r.length token step).2, hand, List.getLast?_cons]
        cases (Parser.taken next after.lexer).getLast? <;> rfl
      rw [ih, hands, same, (Parser.run_of_shift r.length token step).1]
  | case4 s r after pulled t hand _ e step =>
      obtain ⟨token, same⟩ := next_of_pull pulled hand
      obtain ⟨ahead, -⟩ := Parser.ahead_of_stop token (s := s) (by rintro _ ⟨⟩; simp [step])
      rw [(Parser.run_of_accept r.length token step).1, handAfter, ahead]
      exact congrArg _ same
  | case5 s r after pulled t hand _ f step =>
      obtain ⟨token, same⟩ := next_of_pull pulled hand
      obtain ⟨ahead, -⟩ := Parser.ahead_of_stop token (s := s) (by rintro _ ⟨⟩; simp [step])
      rw [(Parser.run_of_fail r.length token step).1, handAfter, ahead]
      exact congrArg _ same

/-- **A parse goes as with a parser that never read before.** -/
theorem parse_eq (r : Reader) (source : String) :
    r.parse source = (Reckoner.parse source,
      ⟨(Lexer.parse source).2,
        { r with lexer := .read source, length := source.length }.handAfter .start,
        source.length⟩) :=
  run_eq .start _

end Reader

/-! ## Histories -/

/-- What a lexer and its parser are asked for. -/
inductive Request
  | parse (source : String)
  | next
deriving DecidableEq, Repr

/-- What they answer. -/
inductive Answer
  | parsed (result : Except SourceFault Expr)
  | pulled (p : Pull)

namespace Reader

/-- One request: the answer, and the reader as it is left. A pull from the lexer goes past the
parser. -/
def serve (r : Reader) : Request → Answer × Reader
  | .parse source =>
      let (result, after) := r.parse source
      (.parsed result, after)
  | .next =>
      let (p, after) := r.lexer.next
      (.pulled p, { r with lexer := after })

/-- A new reader after a history of requests, whatever they were answered. -/
def afterAll (history : List Request) : Reader := history.foldl (fun r q => (r.serve q).2) .fresh

theorem afterAll_concat (history : List Request) (q : Request) :
    afterAll (history ++ [q]) = ((afterAll history).serve q).2 :=
  List.foldl_concat _ _ _ _

end Reader

/-- The answer to a request after a history. -/
def answer (history : List Request) (q : Request) : Answer :=
  ((Reader.afterAll history).serve q).1

/-- The stream of a text. -/
def streamOf (source : String) : TokenStream := (Lexer.read source).stream

/-- The tokens of a text that a parse takes, up to the end of its expression or its fault. -/
def consumed (source : String) : List Token := Parser.taken .start (.read source)

/-- A text and the number of items that were taken from its stream. -/
structure Progress where
  source : String
  items : Nat

/-- A parse starts over with its own text. -/
def Progress.step (p : Progress) : Request → Progress
  | .parse source => ⟨source, (consumed source).length + 1⟩
  | .next => { p with items := p.items + 1 }

/-- How far a history reads. Before the first parse there is nothing to be read. -/
def progress (history : List Request) : Progress := history.foldl Progress.step ⟨"", 0⟩

theorem progress_concat (history : List Request) (q : Request) :
    progress (history ++ [q]) = (progress history).step q :=
  List.foldl_concat _ _ _ _

/-- The lexer that has come so far. -/
def Progress.lexer (p : Progress) : Lexer := (Lexer.read p.source).advance p.items

theorem Progress.lexer_serve {p : Progress} {r : Reader} (h : r.lexer = p.lexer) (q : Request) :
    (r.serve q).2.lexer = (p.step q).lexer := by
  cases q with
  | parse source =>
      rw [Reader.serve, r.parse_eq]
      exact Parser.run_advances source.length .start (.read source)
  | next =>
      have one : (r.serve .next).2.lexer = r.lexer.advance 1 := rfl
      rw [one, h]
      exact (Lexer.read p.source).advance_advance p.items 1

/-- **Any history leaves the lexer in the text parsed last.** -/
theorem lexer_afterAll (history : List Request) :
    (Reader.afterAll history).lexer = (progress history).lexer := by
  induction history using List.reverseRecOn with
  | nil => rfl
  | append_singleton before q ih =>
      rw [Reader.afterAll_concat, progress_concat, Progress.lexer_serve ih]

theorem progress_replicate_next (p : Progress) (i : Nat) :
    (List.replicate i Request.next).foldl Progress.step p = { p with items := p.items + i } := by
  induction i with
  | zero => rfl
  | succ i ih => rw [List.replicate_succ', List.foldl_concat, ih]; rfl

theorem answer_next (history : List Request) :
    answer history .next =
      .pulled ((streamOf (progress history).source).item (progress history).items) := by
  have pulled : answer history .next = .pulled (Reader.afterAll history).lexer.next.1 := rfl
  rw [pulled, lexer_afterAll]
  exact congrArg Answer.pulled (Lexer.next_advance _ _)

/-- **A shared lexer carries nothing over, and the parser reads one token ahead.** The stream of a
text is its tokens, or those before its first fault, and behind them the end or that fault for ever.
After any history a parse answers as a fresh one does. It has then taken the tokens that it consumed
and the one item behind them, whether it failed or not, so that further pulls go on with the item
behind that. What the parser remembered is written over: it has the length of the new text, and in
its hand is the item behind the tokens it consumed, or the last of these if that item is a fault.
Before the first parse every pull finds the end of the input. -/
theorem answers_shared (history : List Request) (source : String) (i : Nat) :
    (tokenize source = match (streamOf source).fault? with
      | none => .ok (streamOf source).tokens
      | some f => .error f) ∧
    answer history (.parse source) = .parsed (parse source) ∧
    ((Reader.afterAll (history ++ [.parse source])).lexer =
        (Lexer.read source).advance ((consumed source).length + 1) ∧
      (streamOf source).front ((consumed source).length + 1) =
        (consumed source).map .token ++ [Parser.ahead .start (.read source)]) ∧
    ((Reader.afterAll (history ++ [.parse source])).length = source.length ∧
      (Reader.afterAll (history ++ [.parse source])).inHand =
        match Parser.ahead .start (.read source) with
        | .done => none
        | .token t => some t
        | .fault _ => (consumed source).getLast?.or (Reader.afterAll history).inHand) ∧
    answer (history ++ .parse source :: List.replicate i .next) .next =
      .pulled ((streamOf source).item ((consumed source).length + 1 + i)) ∧
    answer (List.replicate i .next) .next = .pulled .done := by
  have parsed := (Reader.afterAll history).parse_eq source
  refine ⟨(Lexer.read source).tokens_eq_stream, ?_, ⟨?_, Parser.front_stream _ _⟩, ⟨?_, ?_⟩, ?_, ?_⟩
  · rw [answer, Reader.serve, parsed]
  · rw [lexer_afterAll, progress_concat]
    rfl
  · rw [Reader.afterAll_concat, Reader.serve, parsed]
  · rw [Reader.afterAll_concat, Reader.serve, parsed]
    rfl
  · rw [answer_next, progress, List.foldl_append, List.foldl_cons, progress_replicate_next]
    rfl
  · have ended : (Lexer.read "").next = (.done, .empty) := rfl
    rw [answer_next, progress, progress_replicate_next, streamOf, Lexer.stream_of_done ended]
    rfl

example : answer [.parse "x $", .parse "x) y"] .next = .pulled (.token ⟨.word "y", 3⟩) := by
  cbv

end Reckoner
