import ClientGen.Proofs.File.Writing
import ClientGen.Run

/-!
# Writing the files of a run

* `FileTree.Holds`: a file is there and can be written again.
* `Run.Wrote`: what files that were written leave behind.
* `Run.wrote_of_writeAll`: what is known after files were written.
* `Run.writeAll_of_holds`: files that are there are written again, and no directories are made.
-/

namespace ClientGen

open Step

/-- A file is there and can be written again. -/
structure FileTree.Holds (t : FileTree) (p : Path) : Prop extends Writable t p where
  /-- The file is there. -/
  isSome : (t.textAt? (t.place p)).isSome

/-- A file that holds its text still does after the tree has grown. -/
theorem FileTree.Holds.grows {t u : FileTree} {p : Path} (h : t.Holds p) (hgrows : t.Grows u) :
    u.Holds p where
  toWritable := h.toWritable.grows hgrows <| by
    -- No directory was made where the file is.
    rw [Bool.eq_false_iff]
    exact fun hdirectory => absurd (hgrows.file _ h.isSome hdirectory) (by simp [h.file])
  isSome := by
    rw [hgrows.place]
    exact hgrows.isSome _ h.isSome

/-- A file that was written is there. -/
theorem FileTree.Writable.holds {t u : FileTree} {p : Path} {mode : WriteMode} {text : String}
    (h : t.Writable p) (hreceives : t.Receives u (t.place p) mode text) : u.Holds p where
  toWritable := h.grows hreceives.grows (by rw [isDirectory, hreceives.directories]; exact h.file)
  isSome := by
    rw [hreceives.grows.place]
    exact hreceives.isSome

/-- If at most one entry satisfies a condition, filtering leaves it or nothing. -/
theorem filter_eq_nil_or_singleton {α : Type} {as : List α} {p : α → Bool} (hnodup : as.Nodup)
    (hunique : ∀ a ∈ as, ∀ b ∈ as, p a → p b → a = b) :
    as.filter p = [] ∨ ∃ a ∈ as, as.filter p = [a] := by
  have hfiltered := hnodup.filter p
  have hmem : ∀ {a}, a ∈ as.filter p → a ∈ as ∧ p a := List.mem_filter.mp
  rcases hleft : as.filter p with _ | ⟨a, _ | ⟨b, rest⟩⟩
  · exact .inl rfl
  · exact .inr ⟨a, (hmem (by simp [hleft])).1, rfl⟩
  · obtain ⟨ha, hpa⟩ := hmem (a := a) (by simp [hleft])
    obtain ⟨hb, hpb⟩ := hmem (a := b) (by simp [hleft])
    rw [hleft, hunique a ha b hb hpa hpb] at hfiltered
    simp at hfiltered

namespace Run

variable {s : Settings} {w w' : Workspace} {files more : List GeneratedFile}
  {written : List (Path × WriteOutcome)} {t u v : FileTree} {q : List String}

/-- The path of a generated file. -/
def pathOf (s : Settings) (f : GeneratedFile) : Path := s.outputPath.child f.name

/-- The texts that go to one place, in order. -/
def writesTo (s : Settings) (t : FileTree) (files : List GeneratedFile) (q : List String) :
    List (WriteMode × String) :=
  (files.filter fun f => t.place (pathOf s f) = q).map fun f => (f.mode, f.text)

/-- A file whose place is its own is all that goes there. -/
theorem writesTo_eq_singleton {f : GeneratedFile} (hf : f ∈ files)
    (hnodup : (files.map fun f => t.place (pathOf s f)).Nodup) :
    writesTo s t files (t.place (pathOf s f)) = [(f.mode, f.text)] := by
  -- The places of the files are distinct, so only one file is written there.
  have hunique : ∀ a ∈ files, ∀ b ∈ files,
      decide (t.place (pathOf s a) = t.place (pathOf s f)) →
      decide (t.place (pathOf s b) = t.place (pathOf s f)) → a = b := by
    intro a ha b hb hfa hfb
    rw [decide_eq_true_eq] at hfa hfb
    exact List.inj_on_of_nodup_map hnodup ha hb (hfa.trans hfb.symm)
  have hmem : f ∈ files.filter fun g => t.place (pathOf s g) = t.place (pathOf s f) := by
    simpa using hf
  rcases filter_eq_nil_or_singleton (.of_map _ hnodup) hunique with hnone | ⟨g, -, hone⟩
  · rw [hnone] at hmem
    exact absurd hmem List.not_mem_nil
  · rw [hone] at hmem
    rw [writesTo, hone, List.mem_singleton.mp hmem]
    rfl

/-- Files were written to a tree. -/
structure Wrote (s : Settings) (files : List GeneratedFile) (t u : FileTree) : Prop where
  /-- Directories and files were added. -/
  grows : t.Grows u
  /-- Every place has received the texts that go to it. -/
  textAt? : ∀ q, u.textAt? q = receiveAll (writesTo s t files q) (t.textAt? q)
  /-- The files are there and can be written again. -/
  holds : ∀ f ∈ files, u.Holds (pathOf s f)

/-- Writing no files leaves the tree as it is. -/
theorem Wrote.nil : Wrote s [] t t where
  grows := .rfl
  textAt? _ := rfl
  holds := by simp

/-- Writing two runs of files is writing the first and then the second. -/
theorem Wrote.append (h : Wrote s files t u) (h' : Wrote s more u v) :
    Wrote s (files ++ more) t v where
  grows := h.grows.trans h'.grows
  textAt? q := by
    have hplaces : writesTo s u more q = writesTo s t more q := by
      simp only [writesTo, h.grows.place]
    have hsplit : writesTo s t (files ++ more) q = writesTo s t files q ++ writesTo s t more q := by
      simp only [writesTo, List.filter_append, List.map_append]
    rw [h'.textAt?, hplaces, h.textAt?, hsplit, receiveAll_append]
  holds := List.forall_mem_append.mpr ⟨fun f hf => (h.holds f hf).grows h'.grows, h'.holds⟩

/-- A file that was written, after directories were made. -/
theorem Wrote.single {f : GeneratedFile} (hgrows : t.Grows v)
    (htexts : ∀ q, v.textAt? q = t.textAt? q) (hwritable : v.Writable (pathOf s f))
    (hreceives : v.Receives u (v.place (pathOf s f)) f.mode f.text) : Wrote s [f] t u where
  grows := hgrows.trans hreceives.grows
  textAt? q := by
    rw [hreceives.textAt?, htexts, htexts, hgrows.place]
    by_cases hq : q = t.place (pathOf s f)
    · have hwrites : writesTo s t [f] q = [(f.mode, f.text)] := by simp [writesTo, hq]
      rw [if_pos hq, hwrites, hq]
      rfl
    · have hwrites : writesTo s t [f] q = [] := by simp [writesTo, Ne.symm hq]
      rw [if_neg hq, hwrites]
      rfl
  holds := by simpa using hwritable.holds hreceives

/-! ## Going through the files -/

theorem run_onDisk {α : Type} (x : Disk α) (w : Workspace) :
    run (onDisk x) w = ((run x w.tree).1, { w with tree := (run x w.tree).2 }) := rfl

/-- Writing files puts the first one in its place and then writes the others. -/
theorem writeAll_cons (s : Settings) (f : GeneratedFile) (files : List GeneratedFile) :
    writeAll s (f :: files) = (do
      let outcome ← onDisk (Disk.put s.outputPath f.name f.text f.mode)
      let written ← writeAll s files
      return (pathOf s f, outcome) :: written) := by
  simp [writeAll, pathOf]

/-- Files that were written are there, and every place has received its texts. -/
theorem wrote_of_writeAll (h : run (writeAll s files) w = (.ok written, w')) :
    Wrote s files w.tree w'.tree ∧ written.map Prod.fst = files.map (pathOf s) := by
  induction files generalizing w written with
  | nil =>
    obtain ⟨hwritten, rfl⟩ := Prod.mk.inj h
    obtain rfl := Except.ok.inj hwritten
    exact ⟨.nil, rfl⟩
  | cons f files ih =>
    rw [writeAll_cons] at h
    obtain ⟨outcome, w₁, hput, h⟩ := run_bind_eq_ok_iff.mp h
    obtain ⟨later, w₂, hlater, h⟩ := run_bind_eq_ok_iff.mp h
    obtain ⟨hwritten, rfl⟩ := Prod.mk.inj h
    obtain rfl := Except.ok.inj hwritten
    rw [run_onDisk] at hput
    obtain ⟨hresult, rfl⟩ := Prod.mk.inj hput
    -- The first file is put, and the others go into the tree that it leaves.
    obtain ⟨v, hgrows, htexts, hwritable, hreceives⟩ := Disk.exists_of_put (Prod.ext hresult rfl)
    obtain ⟨hwrote, hpaths⟩ := ih hlater
    have hfirst := Wrote.single (s := s) (f := f) hgrows htexts hwritable hreceives
    exact ⟨hfirst.append hwrote, by rw [List.map_cons, List.map_cons, hpaths]⟩

/-- Files that are there are written again. No directories are made. -/
theorem writeAll_of_holds (h : ∀ f ∈ files, w.tree.Holds (pathOf s f)) :
    ∃ written w', run (writeAll s files) w = (.ok written, w') ∧
      w'.tree.directories = w.tree.directories := by
  induction files generalizing w with
  | nil => exact ⟨[], w, rfl, rfl⟩
  | cons f files ih =>
    rw [List.forall_mem_cons] at h
    obtain ⟨outcome, u, hput, hreceives⟩ := Disk.put_of_writable h.1.toWritable f.text f.mode
    have hstep : run (onDisk (Disk.put s.outputPath f.name f.text f.mode)) w
        = (.ok outcome, { w with tree := u }) := by
      rw [run_onDisk, hput]
    obtain ⟨written, w', hlater, hdirectories⟩ := ih (w := { w with tree := u })
      fun f hf => (h.2 f hf).grows hreceives.grows
    refine ⟨(pathOf s f, outcome) :: written, w', ?_, hdirectories.trans hreceives.directories⟩
    rw [writeAll_cons, run_bind_of_ok hstep, run_bind_of_ok hlater, run_pure]

end Run

end ClientGen
