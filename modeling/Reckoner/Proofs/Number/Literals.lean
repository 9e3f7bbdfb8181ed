import Reckoner.Number.Reading
import Reckoner.Proofs.Lexer.Lexeme

/-!
# Literals are numbers from outside

There are two grammars of numbers: that of the lexer, a digit with digits and at most one point
behind it, and that of numbers from outside, with signs, underscores, exponents, names and blanks.
Every number of the lexer, a trailing point and mixed scripts included, is read by the second
grammar as well, with the value it has as a literal (`read?_of_wellFormed`). A digit counts with its
value whatever its script, so a literal is worth the same with all its digits in ASCII
(`literal_map_asciiDigit`).
-/

namespace Reckoner

open Reckoner.Text Reckoner.Number

/-! ## Digits in ASCII -/

namespace Text

/-- The digit of the same value in ASCII; characters that are no digits stay. -/
def asciiDigit (c : Char) : Char := ((digitValue? c).map Nat.digitChar).getD c

/-- The text with all its digits in ASCII. -/
def asciiDigits (s : String) : String := String.ofList (s.toList.map asciiDigit)

@[simp] theorem toList_asciiDigits (s : String) :
    (asciiDigits s).toList = s.toList.map asciiDigit := String.toList_ofList

theorem digitValue?_digitChar : ∀ d < 10, digitValue? (Nat.digitChar d) = some d := by decide

theorem isDigit_digitChar : ∀ d < 10, (Nat.digitChar d).isDigit = true := by decide

section

variable {c : Char}

theorem exists_asciiDigit (h : isDigit c = true) :
    ∃ d < 10, digitValue? c = some d ∧ asciiDigit c = Nat.digitChar d := by
  obtain ⟨d, value⟩ := Option.isSome_iff_exists.mp h
  refine ⟨d, digitValue?_lt value, value, ?_⟩
  unfold asciiDigit
  rw [value]
  rfl

theorem asciiDigit_eq_self (h : isDigit c = false) : asciiDigit c = c := by
  unfold isDigit at h
  unfold asciiDigit
  rw [Option.not_isSome_iff_eq_none.mp (Bool.eq_false_iff.mp h)]
  rfl

@[simp] theorem digitValue?_asciiDigit (c : Char) :
    digitValue? (asciiDigit c) = digitValue? c := by
  by_cases digit : isDigit c = true
  · obtain ⟨d, small, value, ascii⟩ := exists_asciiDigit digit
    rw [ascii, value]
    exact digitValue?_digitChar d small
  · rw [asciiDigit_eq_self (Bool.eq_false_iff.mpr digit)]

@[simp] theorem isDigit_asciiDigit (c : Char) : isDigit (asciiDigit c) = isDigit c := by
  rw [isDigit, isDigit, digitValue?_asciiDigit]

theorem asciiDigit_eq_point_iff : asciiDigit c = '.' ↔ c = '.' := by
  by_cases digit : isDigit c = true
  · have stays : isDigit (asciiDigit c) = true := (isDigit_asciiDigit c).trans digit
    simp [isDigit_ne_point digit, isDigit_ne_point stays]
  · rw [asciiDigit_eq_self (Bool.eq_false_iff.mpr digit)]

theorem isDigit_of_asciiDigit (h : isDigit c = true) : (asciiDigit c).isDigit = true := by
  obtain ⟨d, small, -, ascii⟩ := exists_asciiDigit h
  rw [ascii]
  exact isDigit_digitChar d small

theorem count_point_map_asciiDigit (cs : List Char) :
    (cs.map asciiDigit).count '.' = cs.count '.' := by
  unfold List.count
  rw [List.countP_map]
  apply List.countP_congr
  intro c _
  simp [asciiDigit_eq_point_iff]

theorem digitsValue_map_asciiDigit (cs : List Char) :
    digitsValue (cs.map asciiDigit) = digitsValue cs := by
  simp only [digitsValue, List.foldl_map, digitValue?_asciiDigit]

/-- No digit of any script has another letter case. -/
theorem toLower_of_isDigit (h : isDigit c = true) : c.toLower = c := by
  unfold Char.toLower
  rw [dif_neg]
  rintro ⟨low, high⟩
  -- capital letters stand between the ASCII digits and the next zero
  have inRange : 65 ≤ c.toNat ∧ c.toNat ≤ 90 := ⟨low, high⟩
  rw [isDigit, digitValue?, zeros, digitAmong, if_neg (by omega), if_neg (by omega), digitAmong,
    if_pos (by omega)] at h
  cases h

end

end Text

/-! ## The value of a literal -/

section

variable {cs whole fraction : List Char}

theorem literal_of_noPoint (noPoint : '.' ∉ cs) :
    literal cs = ofPattern (nearestDecimal (digitsValue cs) 0) := by
  rw [literal, takeWhile_ne_of_not_mem noPoint, dropWhile_ne_of_not_mem noPoint]
  simp only [List.drop_nil, List.append_nil]
  rfl

theorem literal_of_point (noPoint : '.' ∉ whole) :
    literal (whole ++ '.' :: fraction) =
      ofDecimal false (digitsValue (whole ++ fraction)) (-fraction.length) := by
  rw [literal, takeWhile_ne_append noPoint, dropWhile_ne_append noPoint, List.drop_one,
    List.tail_cons]

/-- **The script of its digits does not matter to a literal.** -/
theorem literal_map_asciiDigit (cs : List Char) : literal (cs.map asciiDigit) = literal cs := by
  have point : (fun c => decide (asciiDigit c ≠ '.')) = fun c => decide (c ≠ '.') := by
    funext c
    simp only [ne_eq, asciiDigit_eq_point_iff]
  simp only [literal, List.takeWhile_map, List.dropWhile_map, Function.comp_def, point,
    ← List.map_drop, ← List.map_append, digitsValue_map_asciiDigit, List.length_map]

/-! ## The same digits from outside -/

theorem decimal?_of_noPoint (nonempty : whole ≠ []) (digits : ∀ c ∈ whole, isDigit c = true) :
    decimal? false whole = some (ofDecimal false (digitsValue whole) 0) := by
  have all : whole.takeWhile isDigit = whole := List.takeWhile_eq_self_iff.mpr digits
  have none : whole.dropWhile isDigit = [] := List.dropWhile_eq_nil_iff.mpr digits
  simp [decimal?, all, none, exponent?, nonempty]

theorem decimal?_of_point (nonempty : whole ≠ []) (inWhole : ∀ c ∈ whole, isDigit c = true)
    (inFraction : ∀ c ∈ fraction, isDigit c = true) :
    decimal? false (whole ++ '.' :: fraction) =
      some (ofDecimal false (digitsValue (whole ++ fraction)) (-fraction.length)) := by
  have stop : ∀ c ∈ ('.' :: fraction).head?, isDigit c = false := by
    rintro c ⟨⟩
    decide
  have all : fraction.takeWhile isDigit = fraction := List.takeWhile_eq_self_iff.mpr inFraction
  have none : fraction.dropWhile isDigit = [] := List.dropWhile_eq_nil_iff.mpr inFraction
  simp [decimal?, takeWhile_append_of_head inWhole stop, dropWhile_append_of_head inWhole stop, all,
    none, exponent?, nonempty]

theorem isNumberPart_of_wellFormed {digits : String} (wf : (Lexeme.number digits).WellFormed) :
    ∀ c ∈ digits.toList, isNumberPart c = true := by
  obtain ⟨first, more, shape, digit, inside, -⟩ := wf
  rw [shape, List.forall_mem_cons]
  constructor
  · exact mem_isNumberPart_iff.mpr (.inl digit)
  · intro c hc
    exact mem_isNumberPart_iff.mpr (inside c hc)

/-- A number of the lexer is digits, or digits around a point, behind which there may be none. -/
theorem exists_digits_of_wellFormed {digits : String} (wf : (Lexeme.number digits).WellFormed) :
    ∃ first more, isDigit first = true ∧ (∀ c ∈ more, isDigit c = true) ∧
      (digits.toList = first :: more ∨
        ∃ fraction, (∀ c ∈ fraction, isDigit c = true) ∧
          digits.toList = first :: more ++ '.' :: fraction) := by
  obtain ⟨first, more, shape, digit, inside, points⟩ := wf
  have digits_of {ds : List Char} (part : ∀ c ∈ ds, c ∈ more) (noPoint : '.' ∉ ds) :
      ∀ c ∈ ds, isDigit c = true := by
    intro c hc
    rcases inside c (part c hc) with digit | rfl
    · exact digit
    · exact absurd hc noPoint
  by_cases point : '.' ∈ more
  · obtain ⟨before, fraction, rfl, noPoint⟩ := List.eq_append_cons_of_mem point
    have noOther : '.' ∉ fraction := by
      rw [List.count_append, List.count_cons_self] at points
      rw [← List.count_eq_zero]
      omega
    refine ⟨first, before, digit, digits_of ?_ noPoint, .inr ⟨fraction, digits_of ?_ noOther, shape⟩⟩
    · intro c hc
      exact List.mem_append_left _ hc
    · intro c hc
      exact List.mem_append_right _ (List.mem_cons_of_mem _ hc)
  · exact ⟨first, more, digit, digits_of (fun _ hc => hc) point, .inl shape⟩

/-- Both grammars make the same number of the digits. -/
theorem decimal?_of_wellFormed {digits : String} (wf : (Lexeme.number digits).WellFormed) :
    decimal? false digits.toList = some (literal digits.toList) := by
  obtain ⟨first, more, digit, inMore, shapes⟩ := exists_digits_of_wellFormed wf
  have inWhole : ∀ c ∈ first :: more, isDigit c = true :=
    List.forall_mem_cons.mpr ⟨digit, inMore⟩
  have noPoint : '.' ∉ first :: more := not_mem_of_class inWhole (by decide)
  rcases shapes with shape | ⟨fraction, inFraction, shape⟩
  · rw [shape, decimal?_of_noPoint (List.cons_ne_nil _ _) inWhole, literal_of_noPoint noPoint]
    rfl
  · rw [shape, decimal?_of_point (List.cons_ne_nil _ _) inWhole inFraction,
      literal_of_point noPoint]

/-! ## Nothing else is read from outside -/

/-- A text is not trimmed if no character of it may be. -/
theorem trimmed_eq_self {p : Char → Bool} (inside : ∀ c ∈ cs, p c = false) :
    trimmed p cs = cs := by
  have stays {ds : List Char} (inside : ∀ c ∈ ds, p c = false) : ds.dropWhile p = ds := by
    have kept : ([] ++ ds).dropWhile p = ds := by
      apply dropWhile_append_of_head
      · simp
      · intro c first
        exact inside c (List.mem_of_mem_head? first)
    exact kept
  rw [trimmed, stays inside, stays, List.reverse_reverse]
  intro c hc
  exact inside c (List.mem_reverse.mp hc)

theorem withoutUnderscores_eq_self (afterDigit : Bool) (none : '_' ∉ cs) :
    withoutUnderscores afterDigit cs = some cs := by
  induction cs generalizing afterDigit with
  | nil => rfl
  | cons c more ih =>
      rw [List.mem_cons, not_or] at none
      rw [withoutUnderscores, if_neg (Ne.symm none.1), ih _ none.2]
      rfl

section

variable {c : Char}

theorem splitSign_of_isDigit (digit : isDigit c = true) (more : List Char) :
    splitSign (c :: more) = (false, c :: more) := by
  have noMinus : c ≠ '-' := ne_of_class digit (by decide)
  have noPlus : c ≠ '+' := ne_of_class digit (by decide)
  unfold splitSign
  split
  · next minus => exact absurd (List.cons.inj minus).1 noMinus
  · next plus => exact absurd (List.cons.inj plus).1 noPlus
  · rfl

/-- The names of values begin with letters. -/
theorem named?_of_isDigit (digit : isDigit c = true) (negative : Bool) (more : List Char) :
    named? negative (c :: more) = none := by
  have differs {first : Char} (letter : isDigit first = false) (rest : List Char) :
      String.ofList ((c :: more).map Char.toLower) ≠ String.ofList (first :: rest) := by
    rw [Ne, String.ofList_inj, List.map_cons, toLower_of_isDigit digit, List.cons.injEq]
    rintro ⟨same, -⟩
    exact ne_of_class digit letter same
  have noI : isDigit 'i' = false := by decide
  have noN : isDigit 'n' = false := by decide
  unfold named?
  rw [if_neg (not_or.mpr ⟨differs noI _, differs noI _⟩), if_neg (differs noN _)]

theorem isNumberBlank_eq_false (part : isNumberPart c = true) : isNumberBlank c = false := by
  have noBlank : isBlank c = false := by
    apply Bool.eq_false_iff.mpr
    intro blank
    rcases mem_isNumberPart_iff.mp part with digit | point
    · rw [isDigit_eq_false_of_isBlank blank] at digit
      cases digit
    · exact ne_of_class blank (by decide) point
  rw [isNumberBlank, noBlank, Bool.false_and]

/-- Of a text of digits and points that begins with a digit, only its digits are read. -/
theorem read?_of_parts {more : List Char} (digit : isDigit c = true)
    (parts : ∀ d ∈ c :: more, isNumberPart d = true) :
    read? (String.ofList (c :: more)) = decimal? false (c :: more) := by
  have noUnderscore : '_' ∉ c :: more := not_mem_of_class parts (by decide)
  have noBlank : ∀ d ∈ c :: more, isNumberBlank d = false := by
    intro d hd
    exact isNumberBlank_eq_false (parts d hd)
  unfold read?
  rw [String.toList_ofList, trimmed_eq_self noBlank, withoutUnderscores_eq_self false noUnderscore]
  dsimp only
  rw [splitSign_of_isDigit digit]
  dsimp only
  rw [named?_of_isDigit digit, Option.none_or]

end

/-- **Every number of the lexer is read from outside, as the literal that it is.** -/
theorem read?_of_wellFormed {digits : String} (wf : (Lexeme.number digits).WellFormed) :
    read? digits = some (literal digits.toList) := by
  have parts := isNumberPart_of_wellFormed wf
  have value := decimal?_of_wellFormed wf
  obtain ⟨first, more, shape, digit, -⟩ := wf
  rw [shape] at parts
  have read := read?_of_parts digit parts
  rwa [← shape, String.ofList_toList, value] at read

/-- A second point, which the lexer does not let through, makes a text unreadable. -/
example : read? "1.2.3" = none := by decide +kernel

end

/-! ## The same literal in ASCII -/

section

variable {digits : String}

theorem literal_asciiDigits (digits : String) :
    literal (asciiDigits digits).toList = literal digits.toList := by
  rw [toList_asciiDigits, literal_map_asciiDigit]

/-- The digits in ASCII make a number of the lexer exactly if the digits themselves do. -/
theorem wellFormed_asciiDigits_iff :
    (Lexeme.number (asciiDigits digits)).WellFormed ↔ (Lexeme.number digits).WellFormed := by
  have part (c : Char) : (isDigit (asciiDigit c) = true ∨ asciiDigit c = '.') ↔
      (isDigit c = true ∨ c = '.') := by
    rw [isDigit_asciiDigit, asciiDigit_eq_point_iff]
  constructor
  · rintro ⟨_, _, shape, digit, inside, points⟩
    rw [toList_asciiDigits] at shape
    obtain ⟨first, more, spelled, rfl, rfl⟩ := List.map_eq_cons_iff.mp shape
    rw [isDigit_asciiDigit] at digit
    rw [List.forall_mem_map] at inside
    rw [count_point_map_asciiDigit] at points
    exact ⟨first, more, spelled, digit, fun c hc => (part c).mp (inside c hc), points⟩
  · rintro ⟨first, more, spelled, digit, inside, points⟩
    refine ⟨asciiDigit first, more.map asciiDigit, ?_, ?_, ?_, ?_⟩
    · rw [toList_asciiDigits, spelled, List.map_cons]
    · rwa [isDigit_asciiDigit]
    · rw [List.forall_mem_map]
      exact fun c hc => (part c).mpr (inside c hc)
    · rwa [count_point_map_asciiDigit]

theorem isAscii_asciiDigits (wf : (Lexeme.number digits).WellFormed) :
    ∀ c ∈ (asciiDigits digits).toList, c.isDigit = true ∨ c = '.' := by
  rw [toList_asciiDigits, List.forall_mem_map]
  intro c hc
  rcases mem_isNumberPart_iff.mp (isNumberPart_of_wellFormed wf c hc) with digit | rfl
  · exact .inl (isDigit_of_asciiDigit digit)
  · exact .inr rfl

theorem read?_asciiDigits (wf : (Lexeme.number digits).WellFormed) :
    read? (asciiDigits digits) = some (literal digits.toList) := by
  rw [read?_of_wellFormed (wellFormed_asciiDigits_iff.mpr wf), literal_asciiDigits]

end

end Reckoner
