import Reckoner.Proofs.Json.Strings
import Reckoner.Proofs.Number.Text

/-!
# Unique readability of the layout

The first character of a value tells its form. A number ends where something other than a letter,
digit, point or sign follows, a string at its closing mark, and a list or object at the first line
that begins with no comma: after each item and field stands a comma or a line end, and no item
begins with one. So a value is told from whatever follows it (`layout_inj`), however deep it stands
and whatever its strings imitate.
-/

namespace Reckoner.Json

open Number

/-! ## Numbers -/

/-- A magnitude in JSON: only the name of infinity differs. -/
def magnitude (b : Nat) : List Char :=
  if b = infinityPattern then "Infinity".toList else magnitudeText b

theorem exists_first_magnitude (b : Nat) :
    ∃ d more, magnitude b = d :: more ∧ d ≠ '-' ∧ d ≠ 'N' ∧
      (d.isDigit = true ↔ b ≠ infinityPattern) := by
  by_cases infinite : b = infinityPattern
  · rw [magnitude, if_pos infinite]
    exact ⟨'I', _, rfl, by decide, by decide, fun digit => absurd digit (by decide),
      fun finite => absurd infinite finite⟩
  · obtain ⟨d, more, first, digit⟩ := exists_digit_magnitudeText infinite
    rw [magnitude, if_neg infinite]
    refine ⟨d, more, first, ?_, ?_, fun _ => infinite, fun _ => digit⟩
    · rintro rfl
      exact absurd digit (by decide)
    · rintro rfl
      exact absurd digit (by decide)

theorem magnitude_injective : Function.Injective magnitude := by
  intro b b' h
  obtain ⟨d, more, first, -, -, digit⟩ := exists_first_magnitude b
  obtain ⟨d', more', first', -, -, digit'⟩ := exists_first_magnitude b'
  have finite : b ≠ infinityPattern ↔ b' ≠ infinityPattern := by
    have same : d :: more = d' :: more' := by rw [← first, ← first', h]
    rw [← digit, ← digit', (List.cons.inj same).1]
  by_cases infinite : b = infinityPattern
  · rw [infinite, not_ne_iff.mp fun h => finite.mpr h infinite]
  · rw [magnitude, magnitude, if_neg infinite, if_neg (finite.mp infinite)] at h
    exact magnitudeText_injective h

theorem numberText_eq_spelled (x : Float) : numberText x = spelled "NaN".toList magnitude x := by
  rw [numberText, spelled]
  split
  · rfl
  · next defined =>
      rw [magnitude]
      split
      · split <;> rfl
      · rw [toList_text, spelled, if_neg defined]

theorem numberText_injective : Function.Injective numberText := by
  have spells : Function.Injective (spelled "NaN".toList magnitude) := by
    refine spelled_injective magnitude_injective ?_ (by decide)
    intro b
    obtain ⟨d, more, first, noSign, noName, -⟩ := exists_first_magnitude b
    exact ⟨d, more, first, noSign, fun h => noName (Option.some.inj h).symm⟩
  intro x y h
  refine spells ?_
  rw [← numberText_eq_spelled, ← numberText_eq_spelled, h]

theorem isTextual_numberText (x : Float) : ∀ c ∈ numberText x, isTextual c = true := by
  rw [numberText_eq_spelled]
  refine isTextual_spelled (List.all_eq_true.mp rfl) ?_ x
  intro b
  rw [magnitude]
  split
  · exact List.all_eq_true.mp rfl
  · exact isTextual_magnitudeText b

theorem numberText_ne_nil (x : Float) : numberText x ≠ [] := by
  obtain ⟨d, more, first, -⟩ := exists_first_magnitude (pattern x)
  rw [numberText_eq_spelled, spelled, first]
  split <;> simp

/-- What follows a value does not go on with it. -/
def Ends (r : List Char) : Prop := ∀ c ∈ r.head?, isTextual c = false

theorem numberText_inj {x y : Float} {r r' : List Char} (ends : Ends r) (ends' : Ends r')
    (h : numberText x ++ r = numberText y ++ r') : x = y ∧ r = r' := by
  have first := takeWhile_append_of_head (isTextual_numberText x) ends
  rw [h, takeWhile_append_of_head (isTextual_numberText y) ends'] at first
  obtain rfl := numberText_injective first
  exact ⟨rfl, List.append_cancel_left h⟩

/-! ## Forms -/

inductive Form
  | number | string | list | object

def form : Json → Form
  | number _ => .number
  | string _ => .string
  | list _ => .list
  | object _ => .object

/-- The form of the value that begins with a character. -/
def Form.ofFirst (c : Char) : Form :=
  if isTextual c then .number
  else if c = '"' then .string
  else if c = '[' then .list
  else .object

theorem exists_first_layout (depth : Nat) (j : Json) :
    ∃ c more, layout depth j = c :: more ∧ Form.ofFirst c = j.form := by
  cases j with
  | number x =>
      obtain ⟨c, more, first⟩ := List.exists_cons_of_ne_nil (numberText_ne_nil x)
      have textual := isTextual_numberText x c (by rw [first]; exact List.mem_cons_self)
      refine ⟨c, more, ?_, ?_⟩
      · rw [layout, first]
      · rw [Form.ofFirst, if_pos textual, form]
  | string s => exact ⟨'"', _, by rw [layout, stringText, List.cons_append], rfl⟩
  | list items =>
      cases items with
      | nil => exact ⟨'[', _, by rw [layout], rfl⟩
      | cons item more => exact ⟨'[', _, by rw [layout]; rfl, rfl⟩
  | object fields =>
      cases fields with
      | nil => exact ⟨'\x7b', _, by rw [layout], rfl⟩
      | cons field more => exact ⟨'\x7b', _, by rw [layout]; rfl, rfl⟩

theorem form_eq_of_layout {depth : Nat} {a b : Json} {r r' : List Char}
    (h : layout depth a ++ r = layout depth b ++ r') : a.form = b.form := by
  obtain ⟨c, more, first, hc⟩ := exists_first_layout depth a
  obtain ⟨c', more', first', hc'⟩ := exists_first_layout depth b
  rw [first, first'] at h
  rw [← hc, ← hc', (List.cons.inj h).1]

/-! ## Values -/

theorem ends_newline (r : List Char) : Ends ('\n' :: r) := by
  intro c hc
  cases hc
  rfl

theorem ends_layoutItems (depth : Nat) (items : List Json) (r : List Char) :
    Ends (layoutItems depth items ++ '\n' :: r) := by
  cases items with
  | nil => exact ends_newline r
  | cons item more =>
      intro c hc
      rw [layoutItems] at hc
      cases hc
      rfl

theorem ends_layoutFields (depth : Nat) (fields : List (String × Json)) (r : List Char) :
    Ends (layoutFields depth fields ++ '\n' :: r) := by
  cases fields with
  | nil => exact ends_newline r
  | cons field more =>
      intro c hc
      rw [layoutFields] at hc
      cases hc
      rfl

/-- A list with items, and a text behind it. -/
theorem layout_list_cons (depth : Nat) (item : Json) (more : List Json) (r : List Char) :
    layout depth (list (item :: more)) ++ r =
      '[' :: (lineBreak (depth + 1) ++ (layout (depth + 1) item ++
        (layoutItems (depth + 1) more ++ (lineBreak depth ++ ']' :: r)))) := by
  simp [layout]

/-- An object with fields, and a text behind it. -/
theorem layout_object_cons (depth : Nat) (name : String) (value : Json)
    (more : List (String × Json)) (r : List Char) :
    layout depth (object ((name, value) :: more)) ++ r =
      '\x7b' :: (lineBreak (depth + 1) ++ (stringText name ++ ':' :: ' ' ::
        (layout (depth + 1) value ++
          (layoutFields (depth + 1) more ++ (lineBreak depth ++ '\x7d' :: r))))) := by
  simp [layout]

theorem layoutItems_cons (depth : Nat) (item : Json) (more : List Json) (r : List Char) :
    layoutItems depth (item :: more) ++ r =
      ',' :: (lineBreak depth ++ (layout depth item ++ (layoutItems depth more ++ r))) := by
  simp [layoutItems]

theorem layoutFields_cons (depth : Nat) (name : String) (value : Json)
    (more : List (String × Json)) (r : List Char) :
    layoutFields depth ((name, value) :: more) ++ r =
      ',' :: (lineBreak depth ++ (stringText name ++ ':' :: ' ' ::
        (layout depth value ++ (layoutFields depth more ++ r)))) := by
  simp [layoutFields]

/-- A closing bracket or brace on a line of its own, at the same depth. -/
theorem lineBreak_cons_inj {depth : Nat} {c : Char} {r r' : List Char}
    (h : lineBreak depth ++ c :: r = lineBreak depth ++ c :: r') : r = r' :=
  (List.cons.inj (List.append_cancel_left h)).2

mutual

/-- **A value is told from whatever follows it.** -/
theorem layout_inj (depth : Nat) (a b : Json) {r r' : List Char} (ends : Ends r) (ends' : Ends r')
    (h : layout depth a ++ r = layout depth b ++ r') : a = b ∧ r = r' := by
  have form := form_eq_of_layout h
  match a, b, form with
  | number x, number y, _ =>
      rw [layout, layout] at h
      obtain ⟨rfl, rest⟩ := numberText_inj ends ends' h
      exact ⟨rfl, rest⟩
  | string s, string t, _ =>
      rw [layout, layout] at h
      obtain ⟨rfl, rest⟩ := stringText_inj h
      exact ⟨rfl, rest⟩
  | list [], list [], _ => exact ⟨rfl, List.append_cancel_left h⟩
  | list [], list (item :: more), _ =>
      rw [layout_list_cons, layout] at h
      exact absurd (List.cons.inj (List.cons.inj h).2).1 (by decide)
  | list (item :: more), list [], _ =>
      rw [layout_list_cons, layout] at h
      exact absurd (List.cons.inj (List.cons.inj h).2).1 (by decide)
  | list (item :: more), list (item' :: more'), _ =>
      rw [layout_list_cons, layout_list_cons] at h
      have first := List.append_cancel_left (List.cons.inj h).2
      obtain ⟨rfl, others⟩ := layout_inj (depth + 1) item item' (ends_layoutItems _ more _)
        (ends_layoutItems _ more' _) first
      obtain ⟨rfl, closed⟩ := layoutItems_inj (depth + 1) more more' others
      exact ⟨rfl, lineBreak_cons_inj closed⟩
  | object [], object [], _ => exact ⟨rfl, List.append_cancel_left h⟩
  | object [], object ((name, value) :: more), _ =>
      rw [layout_object_cons, layout] at h
      exact absurd (List.cons.inj (List.cons.inj h).2).1 (by decide)
  | object ((name, value) :: more), object [], _ =>
      rw [layout_object_cons, layout] at h
      exact absurd (List.cons.inj (List.cons.inj h).2).1 (by decide)
  | object ((name, value) :: more), object ((name', value') :: more'), _ =>
      rw [layout_object_cons, layout_object_cons] at h
      obtain ⟨rfl, valued⟩ := stringText_inj (List.append_cancel_left (List.cons.inj h).2)
      have first := (List.cons.inj (List.cons.inj valued).2).2
      obtain ⟨rfl, others⟩ := layout_inj (depth + 1) value value' (ends_layoutFields _ more _)
        (ends_layoutFields _ more' _) first
      obtain ⟨rfl, closed⟩ := layoutFields_inj (depth + 1) more more' others
      exact ⟨rfl, lineBreak_cons_inj closed⟩

/-- The items of a list end at the first line end that no comma stands before. -/
theorem layoutItems_inj (depth : Nat) (items others : List Json) {r r' : List Char}
    (h : layoutItems depth items ++ '\n' :: r = layoutItems depth others ++ '\n' :: r') :
    items = others ∧ '\n' :: r = '\n' :: r' := by
  match items, others with
  | [], [] => exact ⟨rfl, h⟩
  | [], item :: more =>
      rw [layoutItems_cons] at h
      exact absurd (List.cons.inj h).1 (by decide)
  | item :: more, [] =>
      rw [layoutItems_cons] at h
      exact absurd (List.cons.inj h).1 (by decide)
  | item :: more, item' :: more' =>
      rw [layoutItems_cons, layoutItems_cons] at h
      have first := List.append_cancel_left (List.cons.inj h).2
      obtain ⟨rfl, tail⟩ := layout_inj depth item item' (ends_layoutItems _ more _)
        (ends_layoutItems _ more' _) first
      obtain ⟨rfl, rest⟩ := layoutItems_inj depth more more' tail
      exact ⟨rfl, rest⟩

/-- The fields of an object end at the first line end that no comma stands before. -/
theorem layoutFields_inj (depth : Nat) (fields others : List (String × Json)) {r r' : List Char}
    (h : layoutFields depth fields ++ '\n' :: r = layoutFields depth others ++ '\n' :: r') :
    fields = others ∧ '\n' :: r = '\n' :: r' := by
  match fields, others with
  | [], [] => exact ⟨rfl, h⟩
  | [], (name, value) :: more =>
      rw [layoutFields_cons] at h
      exact absurd (List.cons.inj h).1 (by decide)
  | (name, value) :: more, [] =>
      rw [layoutFields_cons] at h
      exact absurd (List.cons.inj h).1 (by decide)
  | (name, value) :: more, (name', value') :: more' =>
      rw [layoutFields_cons, layoutFields_cons] at h
      obtain ⟨rfl, valued⟩ := stringText_inj (List.append_cancel_left (List.cons.inj h).2)
      have first := (List.cons.inj (List.cons.inj valued).2).2
      obtain ⟨rfl, tail⟩ := layout_inj depth value value' (ends_layoutFields _ more _)
        (ends_layoutFields _ more' _) first
      obtain ⟨rfl, rest⟩ := layoutFields_inj depth more more' tail
      exact ⟨rfl, rest⟩

end

/-! ## Characters -/

theorem inAscii_of_isTextual {c : Char} (h : isTextual c = true) : InAscii c := by
  have range : ∀ low high : UInt32, 0x20 ≤ low.toNat → high.toNat ≤ 0x7e → low ≤ c.val →
      c.val ≤ high → InAscii c := by
    intro low high bottom top lower upper
    rw [UInt32.le_iff_toNat_le] at lower upper
    exact ⟨bottom.trans lower, upper.trans top⟩
  simp only [isTextual, Char.isAlphanum, Char.isAlpha, Char.isUpper, Char.isLower, Char.isDigit,
    Bool.or_eq_true, Bool.and_eq_true, decide_eq_true_eq] at h
  rcases h with (((((⟨lower, upper⟩ | ⟨lower, upper⟩) | ⟨lower, upper⟩) | rfl) | rfl) | rfl)
  · exact range _ _ (by decide) (by decide) lower upper
  · exact range _ _ (by decide) (by decide) lower upper
  · exact range _ _ (by decide) (by decide) lower upper
  · decide
  · decide
  · decide

/-- The characters of a layout: printable ASCII, and the line feeds between the lines. -/
def InLines (c : Char) : Prop := c = '\n' ∨ InAscii c

instance (c : Char) : Decidable (InLines c) := inferInstanceAs (Decidable (_ ∨ _))

theorem inLines_stringText (s : String) : ∀ c ∈ stringText s, InLines c :=
  fun c hc => .inr (inAscii_stringText s c hc)

theorem inLines_lineBreak (depth : Nat) : ∀ c ∈ lineBreak depth, InLines c := by
  intro c hc
  rcases List.mem_cons.mp hc with rfl | space
  · exact .inl rfl
  · rw [List.eq_of_mem_replicate space]
    exact .inr (by decide)

mutual

/-- **A layout is printable ASCII on lines**, whatever its strings hold. -/
theorem inLines_layout (depth : Nat) (j : Json) : ∀ c ∈ layout depth j, InLines c := by
  match j with
  | number x =>
      rw [layout]
      exact fun c hc => .inr (inAscii_of_isTextual (isTextual_numberText x c hc))
  | string s =>
      rw [layout]
      exact inLines_stringText s
  | list [] =>
      rw [layout, List.forall_mem_cons, List.forall_mem_singleton]
      decide
  | list (item :: more) =>
      have inside := inLines_layoutItems (depth + 1) more
      rw [← List.append_nil (layout _ _), layout_list_cons]
      simp only [List.forall_mem_cons, List.forall_mem_append]
      exact ⟨by decide, inLines_lineBreak _, inLines_layout _ item, inside, inLines_lineBreak _,
        by decide, by simp⟩
  | object [] =>
      rw [layout, List.forall_mem_cons, List.forall_mem_singleton]
      decide
  | object ((name, value) :: more) =>
      have inside := inLines_layoutFields (depth + 1) more
      rw [← List.append_nil (layout _ _), layout_object_cons]
      simp only [List.forall_mem_cons, List.forall_mem_append]
      exact ⟨by decide, inLines_lineBreak _, inLines_stringText name, by decide, by decide,
        inLines_layout _ value, inside, inLines_lineBreak _, by decide, by simp⟩

theorem inLines_layoutItems (depth : Nat) (items : List Json) :
    ∀ c ∈ layoutItems depth items, InLines c := by
  match items with
  | [] =>
      rw [layoutItems]
      simp
  | item :: more =>
      rw [← List.append_nil (layoutItems _ _), layoutItems_cons, List.append_nil]
      simp only [List.forall_mem_cons, List.forall_mem_append]
      exact ⟨by decide, inLines_lineBreak _, inLines_layout _ item, inLines_layoutItems _ more⟩

theorem inLines_layoutFields (depth : Nat) (fields : List (String × Json)) :
    ∀ c ∈ layoutFields depth fields, InLines c := by
  match fields with
  | [] =>
      rw [layoutFields]
      simp
  | (name, value) :: more =>
      rw [← List.append_nil (layoutFields _ _), layoutFields_cons, List.append_nil]
      simp only [List.forall_mem_cons, List.forall_mem_append]
      exact ⟨by decide, inLines_lineBreak _, inLines_stringText name, by decide, by decide,
        inLines_layout _ value, inLines_layoutFields _ more⟩

end

end Reckoner.Json
