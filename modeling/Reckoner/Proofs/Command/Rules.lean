import Reckoner.Command.Arguments

/-!
# Where rules differ

All rules read a command line alike, unless a double dash is attached to an option or something
stands behind the letter of the option for help (`ofArguments?_eq_of_settled`). Only rules that drop
an attached double dash accept a definition of which nothing is left (`attached_of_ofArguments?`).
-/

namespace Reckoner.Command

/-! ## Where they agree -/

/-- An argument that all rules take alike. -/
def Piece.Settled : Piece → Prop
  | .bundle _ => False
  | .option _ (some value) => value ≠ "--"
  | .operand _ | .option _ none | .unknown | .ambiguous => True

theorem gather_eq_of_settled (rules rules' : Rules) {pieces : List Piece}
    (settled : ∀ piece ∈ pieces, piece.Settled) : gather rules pieces = gather rules' pieces := by
  fun_induction gather rules pieces with
  -- the list ends here: it is empty, help is asked for, or an option has a value and takes none
  | case1 | case4 | case7 | case10 | case11 | case12 => rw [gather]
  -- something stands behind the letter of the option for help
  | case5 | case6 => exact (settled _ List.mem_cons_self).elim
  -- an option takes a value, and there is none
  | case17 _ noValue | case18 _ noValue =>
      rw [gather]
      exact noValue
  -- a piece that stands for itself
  | case2 _ more ih | case3 more ih | case8 more ih | case9 more ih =>
      rw [gather, ih (List.forall_mem_cons.mp settled).2]
  -- an option with its value in the next argument
  | case14 name more ih =>
      rw [gather, ih (List.forall_mem_cons.mp (List.forall_mem_cons.mp settled).2).2]
  | case16 arg more ih =>
      rw [gather, ih (List.forall_mem_cons.mp (List.forall_mem_cons.mp settled).2).2]
  -- an option with its value attached
  | case13 value more ih | case15 value more ih =>
      obtain ⟨whole, behind⟩ := List.forall_mem_cons.mp settled
      rw [gather, ih behind, Rules.kept?_of_ne fun _ => whole, Rules.kept?_of_ne fun _ => whole]

/-- **Rules differ on what is attached to an option only.** -/
theorem ofArguments?_eq_of_settled (rules rules' : Rules) {argv : List String}
    (settled : ∀ arg ∈ argv, (Piece.ofArgument arg).Settled) :
    Request.ofArguments? rules argv = Request.ofArguments? rules' argv := by
  have front : ∀ piece ∈ (argv.takeWhile (· ≠ "--")).map Piece.ofArgument, piece.Settled := by
    intro piece mem
    obtain ⟨arg, front, rfl⟩ := List.mem_map.mp mem
    exact settled arg ((List.takeWhile_prefix _).subset front)
  rw [Request.ofArguments?, Request.ofArguments?, gather_eq_of_settled rules rules' front]

/-! ## Dropped definitions -/

section

variable {rules : Rules} {items : List Item}

/-- What is dropped behind another item is among the items behind it. -/
theorem exists_of_dropped_mem_map {item : Item} (other : item ≠ .dropped)
    {rest? : Option (List Item)} (read : rest?.map (item :: ·) = some items)
    (mem : .dropped ∈ items) : ∃ rest, rest? = some rest ∧ .dropped ∈ rest := by
  obtain ⟨rest, found, rfl⟩ := Option.map_eq_some_iff.mp read
  exact ⟨rest, found, (List.mem_cons.mp mem).resolve_left (Ne.symm other)⟩

theorem ne_dropped_of_ofDefinition? {arg : String} {item : Item}
    (h : Item.ofDefinition? (some arg) = some item) : item ≠ .dropped := by
  obtain ⟨d, -, rfl⟩ := Option.map_eq_some_iff.mp h
  exact nofun

/-- Of a value only a double dash is dropped. -/
theorem eq_of_ofDefinition?_kept? {value : String}
    (h : Item.ofDefinition? (rules.kept? value) = some .dropped) :
    rules.dropsDashes = true ∧ value = "--" := by
  rw [Rules.kept?] at h
  split at h
  · next drops => exact drops
  · exact absurd rfl (ne_dropped_of_ofDefinition? h)

theorem attached_of_gather {pieces : List Piece} (read : gather rules pieces = some items)
    (mem : .dropped ∈ items) : rules.dropsDashes = true ∧ .option .define (some "--") ∈ pieces := by
  fun_induction gather rules pieces generalizing items with
  | case1 =>
      cases read
      cases mem
  -- nothing is read
  | case4 | case6 | case10 | case11 | case12 | case17 | case18 => cases read
  -- help ends the list
  | case5 | case7 =>
      cases read
      simp at mem
  -- another item comes first, and the dropped one is behind it
  | case2 _ more ih | case3 more ih | case8 more ih | case9 more ih | case13 _ more ih =>
      obtain ⟨rest, found, inside⟩ := exists_of_dropped_mem_map (by simp) read mem
      exact (ih found inside).imp_right (List.mem_cons_of_mem _)
  | case14 name more ih =>
      obtain ⟨rest, found, inside⟩ := exists_of_dropped_mem_map (by simp) read mem
      exact (ih found inside).imp_right fun h => List.mem_cons_of_mem _ (List.mem_cons_of_mem _ h)
  -- a definition that is attached is dropped here, or it is there and comes first
  | case15 value more ih =>
      obtain ⟨item, defines, read⟩ := Option.bind_eq_some_iff.mp read
      by_cases dropped : item = .dropped
      · subst dropped
        obtain ⟨drops, rfl⟩ := eq_of_ofDefinition?_kept? defines
        exact ⟨drops, List.mem_cons_self⟩
      · obtain ⟨rest, found, inside⟩ := exists_of_dropped_mem_map dropped read mem
        exact (ih found inside).imp_right (List.mem_cons_of_mem _)
  | case16 arg more ih =>
      obtain ⟨item, defines, read⟩ := Option.bind_eq_some_iff.mp read
      have other := ne_dropped_of_ofDefinition? defines
      obtain ⟨rest, found, inside⟩ := exists_of_dropped_mem_map other read mem
      exact (ih found inside).imp_right fun h => List.mem_cons_of_mem _ (List.mem_cons_of_mem _ h)

/-- **A definition is dropped only where a double dash is attached to its option.** -/
theorem attached_of_ofArguments? {argv : List String}
    (asked : Request.ofArguments? rules argv = some .dropped) :
    rules.dropsDashes = true ∧
      ∃ arg ∈ argv, Piece.ofArgument arg = .option .define (some "--") := by
  rw [Request.ofArguments?] at asked
  split at asked
  · cases asked
  obtain ⟨items, read, asked⟩ := Option.bind_eq_some_iff.mp asked
  rw [Request.ofItems?] at asked
  split at asked
  · split at asked <;> cases asked
  split at asked
  · cases asked
  obtain ⟨inv, -, isDropped⟩ := Option.map_eq_some_iff.mp asked
  split at isDropped
  · next any =>
      obtain ⟨item, inside, dropped⟩ := List.any_eq_true.mp any
      cases item <;> cases dropped
      obtain ⟨drops, attached⟩ := attached_of_gather read inside
      obtain ⟨arg, front, piece⟩ := List.mem_map.mp attached
      exact ⟨drops, arg, (List.takeWhile_prefix _).subset front, piece⟩
  · cases isDropped

end

end Reckoner.Command
