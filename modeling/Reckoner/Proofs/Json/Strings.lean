import Mathlib.Algebra.Group.Nat.Defs
import Reckoner.Json

/-!
# Strings and their escapes

A reader takes one written character off a text at a time: a backslash tells that an escape follows,
the letter u that it holds four hexadecimal digits, and a unit in the range of first halves that a
second unit follows. No character is in the range of halves, so what is read is the character that
was written (`Written.readCharacter`). An unescaped quote ends a string, and no written character
begins with one: whatever follows, a string can be told from it (`stringText_inj`).
-/

namespace Reckoner.Json

open Reckoner.Text

/-! ## Hexadecimal digits -/

/-- The value of a hexadecimal digit in lower case. -/
def hexValue (c : Char) : Nat := if c.isDigit then c.toNat - 48 else c.toNat - 87

/-- The number that hexadecimal digits write. -/
def ofHex (cs : List Char) : Nat := cs.foldl (fun n c => 16 * n + hexValue c) 0

theorem hexValue_digitChar {n : Nat} (h : n < 16) : hexValue n.digitChar = n := by
  have all : ∀ n < 16, hexValue n.digitChar = n := by decide
  exact all n h

theorem ofHex_hex (width n : Nat) : ofHex (hex width n) = n % 16 ^ width := by
  induction width generalizing n with
  | zero => exact (Nat.mod_one n).symm
  | succ width ih =>
      have last : hexValue (n % 16).digitChar = n % 16 :=
        hexValue_digitChar (Nat.mod_lt n (by decide))
      rw [hex, ofHex, List.foldl_append, ← ofHex, ih, List.foldl_cons, List.foldl_nil, last,
        Nat.pow_succ, Nat.mul_comm (16 ^ width), Nat.mod_mul, Nat.add_comm]

/-- Four digits hold a UTF-16 unit. -/
theorem ofHex_take_hex {n : Nat} (h : n < 0x10000) (rest : List Char) :
    ofHex ((hex 4 n ++ rest).take 4) = n := by
  rw [List.take_left' (length_hex 4 n), ofHex_hex]
  exact Nat.mod_eq_of_lt h

theorem drop_hex (n : Nat) (rest : List Char) : (hex 4 n ++ rest).drop 4 = rest :=
  List.drop_left' (length_hex 4 n)

/-! ## Ways of writing -/

/-- The character that a letter after a backslash stands for. -/
def shortEscape? : Char → Option Char
  | '"' => some '"'
  | '\\' => some '\\'
  | 'n' => some '\n'
  | 'r' => some '\r'
  | 't' => some '\t'
  | 'f' => some '\x0c'
  | 'b' => some '\x08'
  | _ => none

/-- The printable characters of ASCII, from the space to the tilde. -/
def InAscii (c : Char) : Prop := 0x20 ≤ c.toNat ∧ c.toNat ≤ 0x7e

instance (c : Char) : Decidable (InAscii c) := inferInstanceAs (Decidable (_ ∧ _))

/-- The four ways in which a character is written. -/
inductive Written (c : Char) : List Char → Prop
  | short {letter : Char} : shortEscape? letter = some c → Written c ['\\', letter]
  | plain : c ≠ '"' → c ≠ '\\' → InAscii c → Written c [c]
  | unit : c.toNat < 0x10000 → Written c (unitEscape c.toNat)
  | pair : 0x10000 ≤ c.toNat →
      Written c (unitEscape (0xd800 + (c.toNat - 0x10000) / 0x400) ++
        unitEscape (0xdc00 + (c.toNat - 0x10000) % 0x400))

theorem written_escaped (c : Char) : Written c (escaped c) := by
  unfold escaped
  split
  · exact .short rfl
  · exact .short rfl
  · exact .short rfl
  · exact .short rfl
  · exact .short rfl
  · exact .short rfl
  · exact .short rfl
  · next noQuote noBackslash _ _ _ _ _ =>
      dsimp only
      split
      · next inAscii => exact .plain noQuote noBackslash inAscii
      · split
        · next inRange => exact .unit inRange
        · next above => exact .pair (Nat.not_lt.mp above)

/-! ## Reading a written character -/

/-- The character that stands at the front of a written string, and what follows it. -/
def readCharacter : List Char → Option (Char × List Char)
  | [] => none
  | '\\' :: 'u' :: more =>
      let unit := ofHex (more.take 4)
      let after := more.drop 4
      if 0xd800 ≤ unit ∧ unit < 0xdc00 then
        let second := ofHex ((after.drop 2).take 4)
        some (Char.ofNat (0x10000 + (unit - 0xd800) * 0x400 + (second - 0xdc00)),
          (after.drop 2).drop 4)
      else some (Char.ofNat unit, after)
  | '\\' :: letter :: more => (shortEscape? letter).map (·, more)
  | c :: more => some (c, more)

theorem readCharacter_short {letter c : Char} (h : shortEscape? letter = some c)
    (rest : List Char) : readCharacter ('\\' :: letter :: rest) = some (c, rest) := by
  have noUnit : letter ≠ 'u' := by
    rintro rfl
    cases h
  rw [readCharacter]
  · rw [h, Option.map_some]
  · exact noUnit

theorem readCharacter_plain {c : Char} (h : c ≠ '\\') (rest : List Char) :
    readCharacter (c :: rest) = some (c, rest) := by
  rw [readCharacter]
  · rintro _ rfl
    exact absurd rfl h
  · rintro _ _ rfl
    exact absurd rfl h

/-- A unit outside the range of first halves is a character. -/
theorem readCharacter_unit {n : Nat} (inRange : n < 0x10000) (whole : ¬(0xd800 ≤ n ∧ n < 0xdc00))
    (rest : List Char) : readCharacter (unitEscape n ++ rest) = some (Char.ofNat n, rest) := by
  rw [unitEscape, List.cons_append, List.cons_append, readCharacter]
  dsimp only
  rw [ofHex_take_hex inRange, drop_hex, if_neg whole]

/-- Two halves are a character. -/
theorem readCharacter_pair {high low : Nat} (inHigh : high < 0x400) (inLow : low < 0x400)
    (rest : List Char) :
    readCharacter (unitEscape (0xd800 + high) ++ unitEscape (0xdc00 + low) ++ rest) =
      some (Char.ofNat (0x10000 + high * 0x400 + low), rest) := by
  rw [List.append_assoc, unitEscape, unitEscape, List.cons_append, List.cons_append, readCharacter]
  dsimp only
  rw [ofHex_take_hex (by omega), drop_hex, if_pos (by omega), List.cons_append, List.cons_append,
    List.drop_succ_cons, List.drop_succ_cons, List.drop_zero, ofHex_take_hex (by omega), drop_hex,
    Nat.add_sub_cancel_left, Nat.add_sub_cancel_left]

/-- **What is read at the front is the character that was written there.** -/
theorem Written.readCharacter {c : Char} {cs : List Char} (h : Written c cs) (rest : List Char) :
    readCharacter (cs ++ rest) = some (c, rest) := by
  have valid : c.toNat < 0xd800 ∨ 0xdfff < c.toNat ∧ c.toNat < 0x110000 := c.valid
  cases h with
  | short letter => exact readCharacter_short letter rest
  | plain _ noBackslash => exact readCharacter_plain noBackslash rest
  | unit inRange => rw [readCharacter_unit inRange (by omega), Char.ofNat_toNat]
  | pair above =>
      have number : 0x10000 + (c.toNat - 0x10000) / 0x400 * 0x400 + (c.toNat - 0x10000) % 0x400 =
          c.toNat := by omega
      rw [readCharacter_pair (by omega) (by omega), number, Char.ofNat_toNat]

/-! ## Strings -/

/-- A quote inside a string is written with a backslash. -/
theorem Written.exists_first {c : Char} {cs : List Char} (h : Written c cs) :
    ∃ first more, cs = first :: more ∧ first ≠ '"' := by
  cases h with
  | short => exact ⟨_, _, rfl, by decide⟩
  | plain noQuote => exact ⟨_, _, rfl, noQuote⟩
  | unit => exact ⟨_, _, rfl, by decide⟩
  | pair => exact ⟨_, _, rfl, by decide⟩

theorem flatMap_escaped_inj {s t r r' : List Char}
    (h : s.flatMap escaped ++ '"' :: r = t.flatMap escaped ++ '"' :: r') : s = t ∧ r = r' := by
  induction s generalizing t with
  | nil =>
      cases t with
      | nil => exact ⟨rfl, (List.cons.inj h).2⟩
      | cons d t =>
          obtain ⟨first, more, hd, noQuote⟩ := (written_escaped d).exists_first
          rw [List.flatMap_cons, hd] at h
          exact absurd (List.cons.inj h).1.symm noQuote
  | cons c s ih =>
      cases t with
      | nil =>
          obtain ⟨first, more, hc, noQuote⟩ := (written_escaped c).exists_first
          rw [List.flatMap_cons, hc] at h
          exact absurd (List.cons.inj h).1 noQuote
      | cons d t =>
          rw [List.flatMap_cons, List.flatMap_cons, List.append_assoc, List.append_assoc] at h
          have read := (written_escaped c).readCharacter (s.flatMap escaped ++ '"' :: r)
          rw [h, (written_escaped d).readCharacter] at read
          obtain ⟨rfl, tail⟩ := Prod.mk.inj (Option.some.inj read)
          obtain ⟨rfl, rest⟩ := ih tail.symm
          exact ⟨rfl, rest⟩

/-- **A string is told from whatever follows it.** -/
theorem stringText_inj {s t : String} {r r' : List Char}
    (h : stringText s ++ r = stringText t ++ r') : s = t ∧ r = r' := by
  have inside : s.toList.flatMap escaped ++ '"' :: r = t.toList.flatMap escaped ++ '"' :: r' := by
    simpa [stringText] using h
  obtain ⟨same, rest⟩ := flatMap_escaped_inj inside
  exact ⟨String.toList_inj.mp same, rest⟩

/-! ## Characters -/

theorem inAscii_of_shortEscape? {letter c : Char} (h : shortEscape? letter = some c) :
    InAscii letter := by
  unfold shortEscape? at h
  split at h
  · decide
  · decide
  · decide
  · decide
  · decide
  · decide
  · decide
  · cases h

theorem inAscii_digitChar {n : Nat} (h : n < 16) : InAscii n.digitChar := by
  have all : ∀ n < 16, InAscii n.digitChar := by decide
  exact all n h

theorem inAscii_hex (width n : Nat) : ∀ c ∈ hex width n, InAscii c := by
  induction width generalizing n with
  | zero =>
      intro c hc
      cases hc
  | succ width ih =>
      intro c hc
      rw [hex, List.mem_append, List.mem_singleton] at hc
      rcases hc with mem | rfl
      · exact ih _ c mem
      · exact inAscii_digitChar (Nat.mod_lt n (by decide))

theorem inAscii_unitEscape (n : Nat) : ∀ c ∈ unitEscape n, InAscii c := by
  intro c hc
  rw [unitEscape, List.mem_cons, List.mem_cons] at hc
  rcases hc with rfl | rfl | mem
  · decide
  · decide
  · exact inAscii_hex 4 n c mem

theorem Written.inAscii {c : Char} {cs : List Char} (h : Written c cs) : ∀ d ∈ cs, InAscii d := by
  intro d hd
  cases h with
  | short letter =>
      rw [List.mem_cons, List.mem_singleton] at hd
      rcases hd with rfl | rfl
      · decide
      · exact inAscii_of_shortEscape? letter
  | plain _ _ inAscii =>
      rw [List.mem_singleton.mp hd]
      exact inAscii
  | unit => exact inAscii_unitEscape _ d hd
  | pair =>
      rcases List.mem_append.mp hd with mem | mem
      · exact inAscii_unitEscape _ d mem
      · exact inAscii_unitEscape _ d mem

/-- No string leaves printable ASCII, whatever characters it holds. -/
theorem inAscii_stringText (s : String) : ∀ c ∈ stringText s, InAscii c := by
  intro c hc
  rw [stringText, List.cons_append, List.mem_cons, List.mem_append, List.mem_singleton,
    List.mem_flatMap] at hc
  rcases hc with rfl | ⟨d, -, mem⟩ | rfl
  · decide
  · exact (written_escaped d).inAscii c mem
  · decide

end Reckoner.Json
