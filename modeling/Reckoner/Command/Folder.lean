/-!
# Folders and the paths through them

A path leads from the working folder to a file. The steps between its slashes are names; an empty
step and a single dot stay where they are, two dots go up. What is known is the working folder and
everything below it: above it there are folders too, but nothing that has a name. A name or a path
that is too long leads nowhere, and is not searched for.
-/

namespace Reckoner.Command

/-- Why the command breaks off without a report. -/
inductive Obstacle
  /-- The name of the file is empty. -/
  | unnamed
  /-- The path ends in a folder. -/
  | folder
  /-- The path goes on behind a file. -/
  | throughFile
  /-- A NUL is in the path, or nothing at all in a definition. -/
  | nul
  /-- A name or the path is too long, or the file is closed to the reader or holds no text. -/
  | unreadable
deriving DecidableEq, Repr

/-- What stands at the end of a path. -/
inductive Found
  | text (content : String)
  | missing
  | blocked (why : Obstacle)
deriving DecidableEq, Repr

/-- What stands between the slashes of a path. -/
def steps : List Char → List (List Char)
  | [] => [[]]
  | c :: cs =>
      if c = '/' then [] :: steps cs
      else
        match steps cs with
        | [] => [[c]]
        | step :: more => (c :: step) :: more

theorem steps_ne_nil (cs : List Char) : steps cs ≠ [] := by
  cases cs with
  | nil => exact List.cons_ne_nil _ _
  | cons c cs =>
      rw [steps]
      split
      · exact List.cons_ne_nil _ _
      · split <;> exact List.cons_ne_nil _ _

theorem steps_of_not_mem {cs : List Char} (h : '/' ∉ cs) : steps cs = [cs] := by
  induction cs with
  | nil => rfl
  | cons c cs ih =>
      rw [List.mem_cons, not_or] at h
      rw [steps, if_neg (Ne.symm h.1), ih h.2]

theorem steps_append {cs : List Char} (h : '/' ∉ cs) (more : List Char) :
    steps (cs ++ '/' :: more) = cs :: steps more := by
  induction cs with
  | nil => rfl
  | cons c cs ih =>
      rw [List.mem_cons, not_or] at h
      rw [List.cons_append, steps, if_neg (Ne.symm h.1), ih h.2]

/-- An empty step, and a single dot, lead nowhere else. -/
def stays (step : List Char) : Bool := step.isEmpty || step == ['.']

/-- How many bytes characters take up in a path. -/
def byteLength : List Char → Nat
  | [] => 0
  | c :: cs => c.utf8Size + byteLength cs

/-- The number of bytes that a name may have. -/
def nameLimit : Nat := 255

/-- The number of bytes that a path may have. -/
def pathLimit : Nat := 4095

/-- The working folder: the content of each file in it and below it, under the names on the way. -/
structure Folder where
  files : List (List (List Char) × String)

namespace Folder

/-- The folder that holds files at the given paths. -/
def ofPaths (contents : List (String × String)) : Folder :=
  ⟨contents.map fun (path, content) => ((steps path.toList).filter (!stays ·), content)⟩

/-- A folder is there if a file is below it. -/
def hasFolder (folder : Folder) (way : List (List Char)) : Bool :=
  folder.files.any fun (fileWay, _) => way.isPrefixOf fileWay

/-- Follows steps from a place, which is the names on the way to it, or nothing for a place outside
the working folder. -/
def follow (folder : Folder) : Option (List (List Char)) → List (List Char) → Found
  | _, [] => .blocked .folder
  | here, step :: more =>
      if stays step then folder.follow here more
      else if step = ['.', '.'] then
        folder.follow (here.bind fun way => if way.isEmpty then none else some way.dropLast) more
      else if nameLimit < byteLength step then .blocked .unreadable
      else
        match here with
        | none => .missing
        | some way =>
            match folder.files.lookup (way ++ [step]) with
            | some content => if more.isEmpty then .text content else .blocked .throughFile
            | none =>
                if folder.hasFolder (way ++ [step]) then folder.follow (some (way ++ [step])) more
                else .missing

/-- What a path leads to. A path that begins with a slash starts outside the working folder. -/
def find (folder : Folder) (path : String) : Found :=
  let cs := path.toList
  if '\x00' ∈ cs then .blocked .nul
  else if cs.isEmpty then .missing
  else if pathLimit < byteLength cs then .blocked .unreadable
  else folder.follow (if cs.head? = some '/' then none else some []) (steps cs)

end Folder

end Reckoner.Command
