import ClientGen.Proofs.File.Receiving
import ClientGen.Proofs.File.Tree
import ClientGen.Proofs.Run.Steps

/-!
# Writing files

What writing one generated file does to a file tree, and when it goes through.

* `FileTree.Writable`: a file can be written at a path without making directories, and
  `FileTree.Writable.grows`: for how long that is so.
* `FileTree.Receives`: a text was written to one place.
* `Disk.exists_of_put`: what a file that was written left behind.
* `Disk.put_of_writable`: a file that can be written is written.
-/

namespace ClientGen

open Step ModuleText

variable {t u v : FileTree} {p base : Path} {d q : List String} {name text : String}
  {mode : WriteMode} {outcome : WriteOutcome}

/-- A path without null characters that is not too long as a whole. -/
structure Path.Sound (p : Path) : Prop where
  /-- It has no null character. -/
  plain : '\x00' ∉ p.text.toList
  /-- It is not too long. -/
  short : p.text.utf8ByteSize ≤ FileTree.longestPath

namespace FileTree

/-- A file can be written at a path, and no directories are missing on the way. -/
structure Writable (t : FileTree) (p : Path) : Prop where
  /-- The path of the directory is sound. -/
  parent : p.parent.Sound
  /-- The path is sound. -/
  path : p.Sound
  /-- The path leads somewhere. -/
  located : t.locate? p = some (t.place p)
  /-- No name on the way is too long. -/
  short : t.isTooLong p = false
  /-- There is no directory in the place of the file. -/
  file : t.isDirectory (t.place p) = false

/-- As directories and files are added, a file can be written until a directory takes its place. -/
theorem Writable.grows (h : t.Writable p) (hgrows : t.Grows u)
    (hfile : u.isDirectory (t.place p) = false) : u.Writable p where
  parent := h.parent
  path := h.path
  located := by
    rw [hgrows.place]
    exact hgrows.locate? h.located
  short := by rw [hgrows.isTooLong h.located, h.short]
  file := by rw [hgrows.place, hfile]

/-- A text was written to one place. -/
structure Receives (t u : FileTree) (d : List String) (mode : WriteMode) (text : String) :
    Prop where
  /-- No directory was made. -/
  directories : u.directories = t.directories
  /-- The working directory is the same. -/
  workingDirectory : u.workingDirectory = t.workingDirectory
  /-- The home directories are the same. -/
  homes : u.homes = t.homes
  /-- The other files are the same. -/
  textAt? : ∀ q, u.textAt? q = if q = d then some (mode.receive text (t.textAt? d)) else t.textAt? q

theorem Receives.isSome (h : t.Receives u d mode text) : (u.textAt? d).isSome := by
  rw [h.textAt?, if_pos rfl]
  rfl

theorem Receives.grows (h : t.Receives u d mode text) : t.Grows u where
  workingDirectory := h.workingDirectory
  homes := h.homes
  isDirectory d hd := by rwa [isDirectory, h.directories]
  isSome q hq := by
    rw [h.textAt?]
    split
    · rfl
    · exact hq
  file q _ hd := by rwa [isDirectory, h.directories] at hd

end FileTree

namespace Disk

theorem checkPath_eq_ok_iff : run (checkPath p) t = (.ok (), u) ↔ p.Sound ∧ t = u := by
  have hsound : p.Sound ↔ '\x00' ∉ p.text.toList ∧
      p.text.utf8ByteSize ≤ FileTree.longestPath := ⟨fun h => ⟨h.1, h.2⟩, fun h => ⟨h.1, h.2⟩⟩
  rw [hsound, checkPath]
  by_cases hplain : '\x00' ∈ p.text.toList
  · simp [hplain]
  · by_cases hlong : FileTree.longestPath < p.text.utf8ByteSize
    · simp [hplain, hlong, Nat.not_le_of_lt hlong]
    · simp [hplain, hlong, Nat.le_of_not_lt hlong]

/-! ## Making directories -/

/-- Making directories adds them and leaves all files alone. -/
theorem grows_of_makeWay {current segments : List String}
    (h : run (makeWay current segments) t = (.ok (), u)) :
    t.Grows u ∧ ∀ q, u.textAt? q = t.textAt? q := by
  induction segments generalizing current t with
  | nil =>
    rw [makeWay, run_pure] at h
    obtain rfl : t = u := (Prod.mk.inj h).2
    exact ⟨.rfl, fun _ => rfl⟩
  | cons segment rest ih =>
    rw [makeWay, run_bind_of_ok (run_get t)] at h
    split at h
    · exact ih h
    · split at h
      · simp at h
      · split at h
        · simp at h
        · -- The directory is new, and no file is in its place.
          rename_i hfile
          rw [run_bind_of_ok (run_set t _)] at h
          obtain ⟨hgrows, htexts⟩ := ih h
          have hnone : t.textAt? (Path.step current segment) = none := by simpa using hfile
          exact ⟨(FileTree.grows_addDirectory hnone).trans hgrows, htexts⟩

/-- Where all directories are there, none are made. -/
theorem makeWay_of_paved {current segments : List String} {last : String}
    (h : t.Paved current (segments ++ [last])) :
    run (makeWay current segments) t = (.ok (), t) := by
  induction segments generalizing current with
  | nil => rfl
  | cons segment rest ih =>
    have hrest : t.Paved (Path.step current segment) (rest ++ [last]) := h.2
    have hnext : t.isDirectory (Path.step current segment) = true := by
      cases rest with
      | nil => exact hrest.1
      | cons _ _ => exact hrest.1
    rw [makeWay, run_bind_of_ok (run_get t), if_pos hnext]
    exact ih hrest

/-- The directories on the way to a file that is found are there. -/
theorem makeDirectories_parent (h : t.locate? p = some d) :
    run (makeDirectories p.parent) t = (.ok (), t) := by
  have hpaved := (FileTree.locate?_eq_some_iff.mp h).1
  rw [makeDirectories, run_bind_of_ok (run_get t)]
  have hstart : t.start p.parent = t.start p := rfl
  rcases List.eq_nil_or_concat p.segments with hnil | ⟨front, last, hfront⟩
  · have hparent : p.parent.segments = [] := by simp [Path.parent, hnil]
    rw [hparent]
    rfl
  · have hparent : p.parent.segments = front := by simp [Path.parent, hfront]
    rw [hfront, List.concat_eq_append] at hpaved
    rw [hparent, hstart]
    exact makeWay_of_paved hpaved

/-! ## Writing one file -/

/-- Writes a file whose directory is there. -/
def deliver (p : Path) (text : String) (mode : WriteMode) : Disk WriteOutcome := do
  match ← read? p with
  | none =>
    write p text
    return .created
  | some old =>
    let combined := mode.combine old text
    if combined = old then return .skipped
    else
      write p combined
      return .updated

theorem put_eq (base : Path) (name text : String) (mode : WriteMode) :
    put base name text mode = (do
      checkPath (base.child name).parent
      makeDirectories (base.child name).parent
      checkPath (base.child name)
      deliver (base.child name) text mode) := rfl

theorem run_write (h : t.locate? p = some d) (text : String) :
    run (write p text) t = (.ok (), t.store d text) := by
  rw [write, run_bind_of_ok (run_get t), h]
  rfl

/-- A file at a place that is found is read back. -/
theorem run_read? (h : t.locate? p = some d) (hshort : t.isTooLong p = false)
    (hfile : t.isDirectory d = false) :
    run (read? p) t = (.ok ((t.textAt? d).map reread), t) := by
  have hread : t.read? p = (t.textAt? d).map reread := by
    rw [FileTree.read?, FileTree.file?, h, Option.bind_some]
    rfl
  rw [read?, run_bind_of_ok (run_get t)]
  simp only [hshort, h, hfile, hread]
  rfl

/-- What a file receives is what was written to it. -/
theorem receives_deliver (h : t.locate? p = some d) (hshort : t.isTooLong p = false)
    (hfile : t.isDirectory d = false) (text : String) (mode : WriteMode) :
    ∃ outcome u, run (deliver p text mode) t = (.ok outcome, u) ∧ t.Receives u d mode text := by
  have hstore : ∀ new, mode.receive text (t.textAt? d) = new →
      t.Receives (t.store d new) d mode text := by
    rintro _ rfl
    exact ⟨rfl, rfl, rfl, fun q => t.textAt?_store d q _⟩
  rw [deliver, run_bind_of_ok (run_read? h hshort hfile)]
  cases hstored : t.textAt? d with
  | none =>
    refine ⟨.created, t.store d text, ?_, hstore text (by rw [hstored]; rfl)⟩
    exact run_bind_of_ok (run_write h text) _
  | some stored =>
    by_cases hsame : mode.combine (reread stored) text = reread stored
    · -- The file is left alone.
      have hreceive : mode.receive text (some stored) = stored := if_pos hsame
      refine ⟨.skipped, t, ?_, rfl, rfl, rfl, fun q => ?_⟩
      · simp only [Option.map_some, hsame]
        rfl
      · rw [hstored, hreceive]
        split
        · rename_i hq
          rw [hq, hstored]
        · rfl
    · have hreceive : mode.receive text (some stored) = mode.combine (reread stored) text :=
        if_neg hsame
      refine ⟨.updated, t.store d (mode.combine (reread stored) text), ?_,
        hstore _ (by rw [hstored, hreceive])⟩
      simp only [Option.map_some, hsame]
      exact run_bind_of_ok (run_write h _) _

/-- A file is only delivered to a place that is found and that is no directory. -/
theorem located_of_deliver (h : run (deliver p text mode) t = (.ok outcome, u)) :
    t.locate? p = some (t.place p) ∧ t.isTooLong p = false ∧
      t.isDirectory (t.place p) = false := by
  obtain ⟨old, v, hread, h⟩ := run_bind_eq_ok_iff.mp h
  rw [read?, run_bind_of_ok (run_get t)] at hread
  by_cases hlong : t.isTooLong p = true
  · cases hlocate : t.locate? p <;> simp [hlocate, hlong] at hread
  · rw [Bool.not_eq_true] at hlong
    cases hlocate : t.locate? p with
    | none =>
      -- Nothing is read, and then nothing can be written.
      simp only [hlocate, hlong] at hread
      obtain ⟨hold, rfl⟩ := Prod.mk.inj hread
      obtain rfl := Except.ok.inj hold
      obtain ⟨⟨⟩, w, hwrite, -⟩ := run_bind_eq_ok_iff.mp h
      rw [write, run_bind_of_ok (run_get _), hlocate] at hwrite
      simp at hwrite
    | some d =>
      obtain rfl := (FileTree.locate?_eq_some_iff.mp hlocate).2
      refine ⟨rfl, hlong, ?_⟩
      rw [Bool.eq_false_iff]
      intro hdirectory
      simp [hlocate, hlong, hdirectory] at hread

/-- A file that was written was written to a place that is found, after directories were made. -/
theorem exists_of_put (h : run (put base name text mode) t = (.ok outcome, u)) :
    ∃ v, t.Grows v ∧ (∀ q, v.textAt? q = t.textAt? q) ∧ v.Writable (base.child name) ∧
      v.Receives u (v.place (base.child name)) mode text := by
  rw [put_eq] at h
  obtain ⟨⟨⟩, t₁, hcheck, h⟩ := run_bind_eq_ok_iff.mp h
  obtain ⟨hparent, rfl⟩ := checkPath_eq_ok_iff.mp hcheck
  obtain ⟨⟨⟩, v, hmake, h⟩ := run_bind_eq_ok_iff.mp h
  obtain ⟨⟨⟩, v₁, hcheck, h⟩ := run_bind_eq_ok_iff.mp h
  obtain ⟨hpath, rfl⟩ := checkPath_eq_ok_iff.mp hcheck
  rw [makeDirectories, run_bind_of_ok (run_get t)] at hmake
  obtain ⟨hgrows, htexts⟩ := grows_of_makeWay hmake
  obtain ⟨hlocated, hshort, hfile⟩ := located_of_deliver h
  obtain ⟨outcome', u', hdeliver, hreceives⟩ := receives_deliver hlocated hshort hfile text mode
  obtain rfl : u' = u := (Prod.mk.inj (hdeliver.symm.trans h)).2
  exact ⟨v, hgrows, htexts, ⟨hparent, hpath, hlocated, hshort, hfile⟩, hreceives⟩

/-- A file that can be written is written. -/
theorem put_of_writable (h : t.Writable (base.child name)) (text : String) (mode : WriteMode) :
    ∃ outcome u, run (put base name text mode) t = (.ok outcome, u) ∧
      t.Receives u (t.place (base.child name)) mode text := by
  obtain ⟨outcome, u, hdeliver, hreceives⟩ :=
    receives_deliver h.located h.short h.file text mode
  refine ⟨outcome, u, ?_, hreceives⟩
  rw [put_eq, run_bind_of_ok (checkPath_eq_ok_iff.mpr ⟨h.parent, rfl⟩),
    run_bind_of_ok (makeDirectories_parent h.located),
    run_bind_of_ok (checkPath_eq_ok_iff.mpr ⟨h.path, rfl⟩), hdeliver]

end Disk

end ClientGen
