import Reckoner.Command.Folder

/-!
# Names of files

A path without slashes is a single name. If an entry of a folder can have that name
(`IsEntryName`), it leads to the entry, and where there is none it is missing. In a folder of files
these are the only names that are read or reported as missing (`Folder.find_ofPaths`): each other
name is an obstacle (`Folder.Flat.exists_blocked_iff`). A slash behind the name of a file is one as
well (`Folder.find_throughFile`).
-/

namespace Reckoner.Command

/-- A name that an entry of a folder can have. -/
structure IsEntryName (name : String) : Prop where
  nonempty : name ≠ ""
  noSlash : '/' ∉ name.toList
  noNul : '\x00' ∉ name.toList
  noDots : name ∉ [".", ".."]
  short : byteLength name.toList ≤ nameLimit

namespace Folder

/-- All files lie in the folder itself. -/
def Flat (folder : Folder) : Prop := ∀ file ∈ folder.files, file.1.length = 1

variable {folder : Folder} {name : String}

/-! ## Single names -/

theorem isEmpty_toList_eq_false (nonempty : name ≠ "") : name.toList.isEmpty = false := by
  rw [List.isEmpty_eq_false_iff, Ne, String.toList_eq_nil_iff]
  exact nonempty

theorem toList_ne_of_ne {cs : List Char} (h : name ≠ String.ofList cs) : name.toList ≠ cs :=
  fun same => h (by rw [← same, String.ofList_toList])

/-- A name that is not made of dots leads neither to where it stands nor up. -/
theorem moves_of_noDots (nonempty : name ≠ "") (noDots : name ∉ [".", ".."]) :
    stays name.toList = false ∧ name.toList ≠ ['.', '.'] := by
  rw [List.mem_cons, List.mem_singleton, not_or] at noDots
  refine ⟨?_, toList_ne_of_ne noDots.2⟩
  rw [stays, isEmpty_toList_eq_false nonempty, Bool.false_or, beq_eq_false_iff_ne]
  exact toList_ne_of_ne noDots.1

/-- A single name that is not made of dots is looked for in the folder, unless it is too long. -/
theorem find_of_noDots (nonempty : name ≠ "") (noSlash : '/' ∉ name.toList)
    (noNul : '\x00' ∉ name.toList) (noDots : name ∉ [".", ".."]) :
    folder.find name =
      if nameLimit < byteLength name.toList then .blocked .unreadable
      else
        match folder.files.lookup [name.toList] with
        | some content => .text content
        | none => if folder.hasFolder [name.toList] then .blocked .folder else .missing := by
  obtain ⟨moves, notUp⟩ := moves_of_noDots nonempty noDots
  have inside : name.toList.head? ≠ some '/' := fun first => noSlash (List.mem_of_head? first)
  rw [find, if_neg noNul, isEmpty_toList_eq_false nonempty, if_neg Bool.false_ne_true, if_neg inside,
    steps_of_not_mem noSlash, follow, moves, if_neg Bool.false_ne_true, if_neg notUp]
  by_cases long : nameLimit < byteLength name.toList
  · rw [if_pos long, if_pos long, ite_self]
  · have shortPath : ¬pathLimit < byteLength name.toList := fun longPath =>
      long (Nat.lt_trans (by decide) longPath)
    rw [if_neg long, if_neg long, if_neg shortPath, List.nil_append]
    cases folder.files.lookup [name.toList] with
    | some content => rfl
    | none => rfl

/-- **No path goes on behind a file**, not even with a slash alone. -/
theorem find_throughFile (entry : IsEntryName name) {content : String}
    (found : folder.files.lookup [name.toList] = some content) {more : String}
    (noNul : '\x00' ∉ more.toList)
    (short : byteLength (name.toList ++ '/' :: more.toList) ≤ pathLimit) :
    folder.find (name ++ "/" ++ more) = .blocked .throughFile := by
  have path : (name ++ "/" ++ more).toList = name.toList ++ '/' :: more.toList := by simp
  have noNul' : '\x00' ∉ name.toList ++ '/' :: more.toList := by simp [entry.noNul, noNul]
  obtain ⟨moves, notUp⟩ := moves_of_noDots entry.nonempty entry.noDots
  have nonempty : name.toList ≠ [] := List.isEmpty_eq_false_iff.mp
    (isEmpty_toList_eq_false entry.nonempty)
  have inside : (name.toList ++ '/' :: more.toList).head? ≠ some '/' := by
    obtain ⟨c, cs, chars⟩ := List.exists_cons_of_ne_nil nonempty
    rw [chars, List.cons_append, List.head?_cons, ← List.head?_cons (l := cs), ← chars]
    exact fun first => entry.noSlash (List.mem_of_head? first)
  have given : (name.toList ++ '/' :: more.toList).isEmpty = false := by simp
  have goesOn : (steps more.toList).isEmpty = false :=
    List.isEmpty_eq_false_iff.mpr (steps_ne_nil _)
  rw [find, path, if_neg noNul', given, if_neg Bool.false_ne_true, if_neg (Nat.not_lt.mpr short),
    if_neg inside, steps_append entry.noSlash, follow, moves, if_neg Bool.false_ne_true,
    if_neg notUp, if_neg (Nat.not_lt.mpr entry.short), List.nil_append, found]
  dsimp only
  rw [goesOn, if_neg Bool.false_ne_true]

/-! ## Folders of files -/

/-- Where all files lie in the folder itself, there is no folder in it. -/
theorem Flat.hasFolder_eq_false (flat : folder.Flat) {step : List Char}
    (absent : folder.files.lookup [step] = none) : folder.hasFolder [step] = false := by
  rw [hasFolder, List.any_eq_false]
  rintro ⟨way, content⟩ mem
  have other := List.lookup_eq_none_iff.mp absent _ mem
  obtain ⟨step', rfl⟩ := List.length_eq_one_iff.mp (flat _ mem)
  simpa [List.isPrefixOf] using other

/-- **The obstacles among single names.** In a folder of files a name is neither read nor reported
as missing if and only if no entry can have it. -/
theorem Flat.exists_blocked_iff (flat : folder.Flat) (nonempty : name ≠ "")
    (noSlash : '/' ∉ name.toList) :
    (∃ why, folder.find name = .blocked why) ↔ ¬IsEntryName name := by
  by_cases noNul : '\x00' ∈ name.toList
  · have blocked : folder.find name = .blocked .nul := by rw [find, if_pos noNul]
    exact ⟨fun _ entry => entry.noNul noNul, fun _ => ⟨_, blocked⟩⟩
  by_cases noDots : name ∈ [".", ".."]
  · have blocked : folder.find name = .blocked .folder := by
      rw [List.mem_cons, List.mem_singleton] at noDots
      obtain rfl | rfl := noDots <;> rfl
    exact ⟨fun _ entry => entry.noDots noDots, fun _ => ⟨_, blocked⟩⟩
  rw [find_of_noDots nonempty noSlash noNul noDots]
  by_cases long : nameLimit < byteLength name.toList
  · rw [if_pos long]
    exact ⟨fun _ entry => Nat.not_lt.mpr entry.short long, fun _ => ⟨_, rfl⟩⟩
  · have entry : IsEntryName name := ⟨nonempty, noSlash, noNul, noDots, Nat.not_lt.mp long⟩
    rw [if_neg long]
    refine ⟨?_, fun none => absurd entry none⟩
    rintro ⟨why, blocked⟩
    split at blocked
    · cases blocked
    · next absent =>
        rw [flat.hasFolder_eq_false absent, if_neg Bool.false_ne_true] at blocked
        cases blocked

section

variable {contents : List (String × String)}

/-- Files with names of entries lie in the folder itself. -/
theorem files_ofPaths (proper : ∀ file ∈ contents, IsEntryName file.1) :
    (ofPaths contents).files = contents.map fun file => ([file.1.toList], file.2) := by
  refine List.map_congr_left fun ⟨path, content⟩ mem => ?_
  have entry := proper _ mem
  obtain ⟨moves, -⟩ := moves_of_noDots entry.nonempty entry.noDots
  have kept : [path.toList].filter (!stays ·) = [path.toList] := by
    rw [List.filter_cons, moves]
    rfl
  dsimp only
  rw [steps_of_not_mem entry.noSlash, kept]

theorem flat_ofPaths (proper : ∀ file ∈ contents, IsEntryName file.1) :
    (ofPaths contents).Flat := by
  rw [Flat, files_ofPaths proper]
  intro file mem
  obtain ⟨_, -, rfl⟩ := List.mem_map.mp mem
  rfl

theorem lookup_map_steps (contents : List (String × String)) (name : String) :
    (contents.map fun file => ([file.1.toList], file.2)).lookup [name.toList] =
      contents.lookup name := by
  induction contents with
  | nil => rfl
  | cons file more ih =>
      have keys : ([name.toList] == [file.1.toList]) = (name == file.1) := by
        rw [Bool.eq_iff_iff, beq_iff_eq, beq_iff_eq, List.singleton_inj, String.toList_inj]
      rw [List.map_cons, List.lookup_cons, List.lookup_cons, ih, keys]

/-- **In a folder of files the name of an entry leads to the file with that name**, if there is
one. -/
theorem find_ofPaths (proper : ∀ file ∈ contents, IsEntryName file.1) (entry : IsEntryName name) :
    (ofPaths contents).find name =
      match contents.lookup name with
      | some content => .text content
      | none => .missing := by
  have flat := flat_ofPaths proper
  rw [find_of_noDots entry.nonempty entry.noSlash entry.noNul entry.noDots,
    if_neg (Nat.not_lt.mpr entry.short), ← lookup_map_steps, ← files_ofPaths proper]
  cases found : (ofPaths contents).files.lookup [name.toList] with
  | some content => rfl
  | none =>
      dsimp only
      rw [flat.hasFolder_eq_false found, if_neg Bool.false_ne_true]

end

end Folder

end Reckoner.Command
