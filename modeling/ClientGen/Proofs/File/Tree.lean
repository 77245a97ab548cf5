import ClientGen.File.Tree

/-!
# File trees

Where paths lead in a file tree, and what stays when directories and files are added to it.

* `FileTree.place`: where a path leads by its letters, and `FileTree.walk_eq_some_iff`: it leads
  there if there is a directory at every step.
* `FileTree.textAt?_store`: the text of a file after one file is stored.
* `FileTree.Grows`: directories and files were added, and none in the place of another.
* `FileTree.Stands`: the working directory is found from the root.
-/

namespace ClientGen

namespace FileTree

variable {t t' u : FileTree} {current q : List String} {p : Path}

/-! ## Where paths lead -/

/-- Where a path leads by its letters. -/
def place (t : FileTree) (p : Path) : List String := p.segments.foldl Path.step (t.start p)

/-- There is a directory at every place that further segments lead from. -/
def Paved (t : FileTree) : List String → List String → Prop
  | _, [] => True
  | current, segment :: rest => t.isDirectory current ∧ Paved t (Path.step current segment) rest

/-- A walk ends at a place exactly if there are directories all along, and the place is where the
segments lead by their letters. -/
theorem walk_eq_some_iff {segments : List String} : t.walk current segments = some q ↔
    t.Paved current segments ∧ segments.foldl Path.step current = q := by
  induction segments generalizing current with
  | nil => simp [walk, Paved]
  | cons segment rest ih =>
    rw [walk, Paved, List.foldl_cons]
    split
    · rename_i h
      rw [ih]
      simp [h]
    · rename_i h
      simp [h]

/-- A path is located exactly where it leads by its letters, if there are directories all along. -/
theorem locate?_eq_some_iff :
    t.locate? p = some q ↔ t.Paved (t.start p) p.segments ∧ t.place p = q := walk_eq_some_iff

/-- A way in two parts is paved exactly if both are, the second one from where the first leads. -/
theorem paved_append {a b : List String} : t.Paved current (a ++ b) ↔
    t.Paved current a ∧ t.Paved (a.foldl Path.step current) b := by
  induction a generalizing current with
  | nil => simp [Paved]
  | cons segment a ih => simp only [List.cons_append, Paved, List.foldl_cons, ih, and_assoc]

/-- A way stays paved when all directories stay. -/
theorem Paved.mono (h : t.Paved current q)
    (hmono : ∀ d, t.isDirectory d → u.isDirectory d) : u.Paved current q := by
  induction q generalizing current with
  | nil => trivial
  | cons segment rest ih => exact ⟨hmono _ h.1, ih h.2⟩

/-- On a way of directories all names matter. -/
theorem meetsLongName_of_paved (h : t.Paved current q) :
    t.meetsLongName current q = q.any fun segment => longestName < segment.utf8ByteSize := by
  induction q generalizing current with
  | nil => rfl
  | cons segment rest ih =>
    have hcurrent : t.isDirectory current = true := h.1
    rw [meetsLongName, hcurrent, ih h.2, List.any_cons, Bool.true_and]

/-! ## Files and directories -/

/-- After a file is put in a place, that place has its text, and all others have what they had. -/
theorem lookup_putFile (d q : List String) (text : String) (files : List (List String × String)) :
    (putFile d text files).lookup q = if q = d then some text else files.lookup q := by
  have hcons : ∀ (d : List String) (text : String) (files : List (List String × String)),
      ((d, text) :: files).lookup q = if q = d then some text else files.lookup q := by
    intro d text files
    by_cases h : q = d
    · rw [h, List.lookup_cons_self, if_pos rfl]
    · rw [List.lookup_cons, beq_eq_false_iff_ne.mpr h, if_neg h]
  induction files with
  | nil => exact hcons d text []
  | cons file files ih =>
    obtain ⟨other, old⟩ := file
    rw [putFile]
    -- A file of the same path is replaced in its place, any other one is passed.
    by_cases hother : other = d
    · subst hother
      rw [if_pos rfl, hcons, hcons]
      split <;> rfl
    · rw [if_neg hother, hcons, hcons, ih]
      by_cases h : q = other
      · rw [if_pos h, if_pos h, if_neg (h ▸ hother)]
      · rw [if_neg h, if_neg h]

/-- After a text is stored in a place, that place has it, and all others have what they had. -/
theorem textAt?_store (t : FileTree) (d q : List String) (text : String) :
    (t.store d text).textAt? q = if q = d then some text else t.textAt? q :=
  lookup_putFile d q text t.files

/-- After a directory is added, it is one, and all others are as they were. -/
theorem isDirectory_addDirectory (t : FileTree) (d q : List String) :
    (t.addDirectory d).isDirectory q = true ↔ t.isDirectory q = true ∨ q = d := by
  simp [isDirectory, addDirectory, or_assoc]

/-! ## Growth -/

/-- Directories and files were added to a tree, none of them in the place of another. -/
structure Grows (t u : FileTree) : Prop where
  /-- The working directory is the same. -/
  workingDirectory : u.workingDirectory = t.workingDirectory
  /-- The home directories are the same. -/
  homes : u.homes = t.homes
  /-- Directories stay. -/
  isDirectory : ∀ d, t.isDirectory d → u.isDirectory d
  /-- Files stay. -/
  isSome : ∀ q, (t.textAt? q).isSome → (u.textAt? q).isSome
  /-- No directory was made where a file was. -/
  file : ∀ q, (t.textAt? q).isSome → u.isDirectory q → t.isDirectory q

/-- Every tree grows into itself. -/
theorem Grows.rfl : t.Grows t where
  workingDirectory := .refl _
  homes := .refl _
  isDirectory _ := id
  isSome _ := id
  file _ _ := id

/-- A tree that grows twice has grown. -/
theorem Grows.trans (h : t.Grows t') (h' : t'.Grows u) : t.Grows u where
  workingDirectory := h'.workingDirectory.trans h.workingDirectory
  homes := h'.homes.trans h.homes
  isDirectory d hd := h'.isDirectory d (h.isDirectory d hd)
  isSome q hq := h'.isSome q (h.isSome q hq)
  file q hq hd := h.file q hq (h'.file q (h.isSome q hq) hd)

/-- Paths start where they did before the tree grew. -/
theorem Grows.start (h : t.Grows u) (p : Path) : u.start p = t.start p := by
  unfold FileTree.start
  rw [h.workingDirectory]

/-- Paths lead where they did before the tree grew. -/
theorem Grows.place (h : t.Grows u) (p : Path) : u.place p = t.place p := by
  rw [FileTree.place, FileTree.place, h.start]

/-- What is found stays where it is. -/
theorem Grows.locate? (h : t.Grows u) (hp : t.locate? p = some q) : u.locate? p = some q := by
  rw [locate?_eq_some_iff] at hp ⊢
  rw [h.start, h.place]
  exact ⟨hp.1.mono h.isDirectory, hp.2⟩

/-- Whether a path to something that is found is too long depends on the path alone. -/
theorem Grows.isTooLong (h : t.Grows u) (hp : t.locate? p = some q) :
    u.isTooLong p = t.isTooLong p := by
  have hpaved := (locate?_eq_some_iff.mp hp).1
  rw [FileTree.isTooLong, FileTree.isTooLong, h.start, meetsLongName_of_paved hpaved,
    meetsLongName_of_paved (hpaved.mono h.isDirectory)]

/-- Adding a directory where there is no file lets the tree grow. -/
theorem grows_addDirectory {d : List String} (h : t.textAt? d = none) :
    t.Grows (t.addDirectory d) where
  workingDirectory := rfl
  homes := rfl
  isDirectory q hq := (isDirectory_addDirectory t d q).mpr (.inl hq)
  isSome _ := id
  file q hq hd := by
    rcases (isDirectory_addDirectory t d q).mp hd with hd | rfl
    · exact hd
    · simp [h] at hq

/-! ## The working directory -/

/-- The working directory is a directory, and it is found from the root under its own segments. -/
structure Stands (t : FileTree) : Prop where
  /-- It is found. -/
  walk : t.walk [] t.workingDirectory = some t.workingDirectory
  /-- It is a directory. -/
  isDirectory : t.isDirectory t.workingDirectory

/-- A working directory that stands still does after the tree has grown. -/
theorem Grows.stands (h : t.Grows u) (ht : t.Stands) : u.Stands where
  walk := by
    rw [h.workingDirectory, walk_eq_some_iff]
    obtain ⟨hpaved, hplace⟩ := walk_eq_some_iff.mp ht.walk
    exact ⟨hpaved.mono h.isDirectory, hplace⟩
  isDirectory := by
    rw [h.workingDirectory]
    exact h.isDirectory _ ht.isDirectory

/-- A path leads by its letters where it leads from the root. -/
theorem Stands.place_eq (h : t.Stands) (p : Path) :
    t.place p = p.absolute t.workingDirectory := by
  have hself := (walk_eq_some_iff.mp h.walk).2
  unfold FileTree.place FileTree.start Path.absolute
  cases p.anchor with
  | here => rw [List.foldl_append, hself]
  | root => rfl
  | doubleRoot => rfl

end FileTree

end ClientGen
