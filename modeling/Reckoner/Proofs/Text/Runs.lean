import Mathlib.Data.List.TakeWhile

/-!
# Runs of a class

A run of characters of one class is taken off a text as a whole if the text goes on with a character
of another class. A text is so split at the first of its characters of one kind.
-/

namespace Reckoner

section

variable {p : Char → Bool} {run after : List Char}

theorem takeWhile_append_of_head (inside : ∀ c ∈ run, p c = true)
    (stop : ∀ c ∈ after.head?, p c = false) : (run ++ after).takeWhile p = run := by
  rw [List.takeWhile_append_of_pos inside]
  cases after with
  | nil => simp
  | cons c rest => simp [stop c (by simp)]

theorem dropWhile_append_of_head (inside : ∀ c ∈ run, p c = true)
    (stop : ∀ c ∈ after.head?, p c = false) : (run ++ after).dropWhile p = after := by
  rw [List.dropWhile_append_of_pos inside]
  cases after with
  | nil => simp
  | cons c rest => simp [stop c (by simp)]

/-- Characters that a class tells apart are different. -/
theorem ne_of_class {c d : Char} (inside : p c = true) (outside : p d = false) : c ≠ d := by
  rintro rfl
  rw [inside] at outside
  cases outside

theorem not_mem_of_class {d : Char} (inside : ∀ c ∈ run, p c = true) (outside : p d = false) :
    d ∉ run := by
  intro mem
  exact ne_of_class (inside d mem) outside rfl

theorem head_dropWhile_eq_false (p : Char → Bool) (cs : List Char) :
    ∀ c ∈ (cs.dropWhile p).head?, p c = false := by
  intro c hc
  have stop := List.head?_dropWhile_not p cs
  rw [hc] at stop
  simpa using stop

theorem of_mem_takeWhile {cs : List Char} : ∀ c ∈ cs.takeWhile p, p c = true :=
  List.all_eq_true.mp List.all_takeWhile

end

/-! ## Splitting at a character -/

section

variable {c : Char} {before after cs : List Char}

theorem not_mem_takeWhile_ne : c ∉ cs.takeWhile (· ≠ c) := by
  intro mem
  simpa using of_mem_takeWhile _ mem

theorem exists_dropWhile_ne (mem : c ∈ cs) : ∃ after, cs.dropWhile (· ≠ c) = c :: after := by
  cases rest : cs.dropWhile (· ≠ c) with
  | nil =>
      rw [List.dropWhile_eq_nil_iff] at rest
      simpa using rest c mem
  | cons first after =>
      have stop := head_dropWhile_eq_false (fun x => decide (x ≠ c)) cs first
      rw [rest] at stop
      obtain rfl : first = c := by simpa using stop rfl
      exact ⟨after, rfl⟩

theorem forall_ne_of_not_mem (apart : c ∉ before) : ∀ d ∈ before, decide (d ≠ c) = true := by
  intro d hd
  rw [decide_eq_true_eq]
  rintro rfl
  exact apart hd

theorem takeWhile_ne_append (apart : c ∉ before) :
    (before ++ c :: after).takeWhile (· ≠ c) = before :=
  takeWhile_append_of_head (forall_ne_of_not_mem apart) (by simp)

theorem dropWhile_ne_append (apart : c ∉ before) :
    (before ++ c :: after).dropWhile (· ≠ c) = c :: after :=
  dropWhile_append_of_head (forall_ne_of_not_mem apart) (by simp)

theorem takeWhile_ne_of_not_mem (apart : c ∉ before) : before.takeWhile (· ≠ c) = before := by
  have whole : (before ++ []).takeWhile (· ≠ c) = before :=
    takeWhile_append_of_head (forall_ne_of_not_mem apart) (by simp)
  rwa [List.append_nil] at whole

theorem dropWhile_ne_of_not_mem (apart : c ∉ before) : before.dropWhile (· ≠ c) = [] := by
  rw [List.dropWhile_eq_nil_iff]
  exact forall_ne_of_not_mem apart

end

end Reckoner
