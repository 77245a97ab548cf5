import ClientGen.Proofs.Output.Paths

/-!
# Specifiers of relative imports

The specifier by which a file imports a module is computed from two paths as they are written. Read
as a path from the directory of the file, it leads to the module.

* `Path.Formed`: a path whose segments are names or double dots. Paths that are read from a text are
  of this kind.
* `Path.exists_common`: the way between two directories goes up to a common directory and down from
  there.
* `Path.ofText_importSpecifier`: a specifier denotes that way.
* `Path.absolute_importSpecifier`: and the way leads to the module.
-/

namespace ClientGen

namespace Text

/-- The separator is in no piece. -/
theorem not_mem_of_mem_splitOn {sep : Char} {cs piece : List Char} (h : piece ∈ splitOn sep cs) :
    sep ∉ piece := by
  induction cs generalizing piece with
  | nil =>
    rw [splitOn, List.mem_singleton] at h
    simp [h]
  | cons c cs ih =>
    rw [splitOn] at h
    split at h
    · rcases List.mem_cons.mp h with rfl | h
      · exact List.not_mem_nil
      · exact ih h
    · rename_i hc
      -- The character goes to the head of the first piece.
      cases hrest : splitOn sep cs with
      | nil =>
        rw [hrest, consFirst, List.mem_singleton] at h
        rw [h, List.mem_singleton]
        exact Ne.symm hc
      | cons first rest =>
        rw [hrest] at h ih
        rcases List.mem_cons.mp h with rfl | h
        · rw [List.mem_cons, not_or]
          exact ⟨Ne.symm hc, ih List.mem_cons_self⟩
        · exact ih (List.mem_cons_of_mem _ h)

end Text

namespace Path

variable {x dir text : String} {p start target : Path} {segments workingDirectory : List String}

/-! ## Formed paths -/

/-- The segments of the path are names or double dots. -/
def Formed (p : Path) : Prop := ∀ x ∈ p.segments, x = ".." ∨ IsSegment x

/-- A path that is read from a text is well formed. -/
theorem formed_ofText (text : String) : (ofText text).Formed := by
  intro x hx
  obtain ⟨hpiece, hkept⟩ := List.mem_filter.mp hx
  obtain ⟨piece, hmem, rfl⟩ := List.mem_map.mp hpiece
  simp only [Bool.and_eq_true, ne_eq, decide_eq_true_eq] at hkept
  refine or_iff_not_imp_left.mpr fun hdots => ⟨?_, hkept.1, hkept.2, hdots⟩
  rw [String.toList_ofList]
  exact Text.not_mem_of_mem_splitOn hmem

/-- A text below a path that is well formed is well formed. -/
theorem Formed.child (h : p.Formed) (text : String) : (p.child text).Formed := by
  have htext := formed_ofText text
  unfold Path.child join
  split
  · exact List.forall_mem_append.mpr ⟨h, htext⟩
  · exact htext

/-- Double dots are gone when the segments are counted from the root. -/
theorem isSegment_of_mem_foldl_step {current : List String}
    (hcurrent : ∀ x ∈ current, IsSegment x) (h : ∀ x ∈ segments, x = ".." ∨ IsSegment x) :
    ∀ x ∈ segments.foldl step current, IsSegment x := by
  induction segments generalizing current with
  | nil => exact hcurrent
  | cons segment segments ih =>
    rw [List.forall_mem_cons] at h
    rw [List.foldl_cons]
    refine ih ?_ h.2
    unfold step
    split
    · exact fun x hx => hcurrent x (List.dropLast_subset _ hx)
    · rename_i hne
      exact List.forall_mem_append.mpr ⟨hcurrent, by simpa using h.1.resolve_left hne⟩

/-- From the root a formed path has names as its segments. -/
theorem Formed.isSegment_of_mem_absolute (h : p.Formed)
    (hworking : ∀ x ∈ workingDirectory, IsSegment x) :
    ∀ x ∈ p.absolute workingDirectory, IsSegment x := by
  have hempty : ∀ x ∈ ([] : List String), IsSegment x := by simp
  unfold absolute
  split
  · refine isSegment_of_mem_foldl_step hempty (List.forall_mem_append.mpr ⟨?_, h⟩)
    exact fun x hx => .inr (hworking x hx)
  · exact isSegment_of_mem_foldl_step hempty h

/-- No segment is a double dot. -/
theorem dots_not_mem (h : ∀ x ∈ segments, IsSegment x) : ".." ∉ segments :=
  fun hmem => (h _ hmem).ne_dots rfl

/-! ## The way between two directories -/

/-- What two lists start with together is taken from both. -/
theorem exists_common (as bs : List String) :
    ∃ common, as = common ++ (withoutCommon as bs).1 ∧ bs = common ++ (withoutCommon as bs).2 := by
  induction as generalizing bs with
  | nil => exact ⟨[], rfl, by cases bs <;> rfl⟩
  | cons a as ih =>
    cases bs with
    | nil => exact ⟨[], rfl, rfl⟩
    | cons b bs =>
      rw [withoutCommon]
      split
      · rename_i hab
        obtain ⟨common, has, hbs⟩ := ih bs
        exact ⟨a :: common, by rw [List.cons_append, ← has], by rw [List.cons_append, ← hbs, hab]⟩
      · exact ⟨[], rfl, rfl⟩

/-- As many double dots as there are segments lead up past all of them. -/
theorem foldl_step_up (common up : List String) :
    (up.map fun _ => "..").foldl step (common ++ up) = common := by
  induction up using List.reverseRecOn with
  | nil => exact List.append_nil common
  | append_singleton up x ih =>
    have hmap : (up ++ [x]).map (fun _ => "..") = ".." :: up.map (fun _ => "..") := by
      rw [List.map_const', List.map_const', List.length_append, List.length_singleton,
        List.replicate_succ]
    have hstep : step (common ++ (up ++ [x])) ".." = common ++ up := by
      rw [step, if_pos rfl, ← List.append_assoc, List.dropLast_concat]
    rw [hmap, List.foldl_cons, hstep, ih]

/-- The way from one directory to another leads there. -/
theorem foldl_step_way {a b : List String} (hb : ".." ∉ b) : (way a b).foldl step a = b := by
  obtain ⟨common, ha, hb'⟩ := exists_common a b
  have hdown : ".." ∉ (withoutCommon a b).2 := fun h =>
    hb (hb' ▸ List.mem_append_right _ h)
  calc (way a b).foldl step a
    _ = (withoutCommon a b).2.foldl step
          (((withoutCommon a b).1.map fun _ => "..").foldl step
            (common ++ (withoutCommon a b).1)) := by
      rw [← ha]
      exact List.foldl_append
    _ = common ++ (withoutCommon a b).2 := by rw [foldl_step_up, foldl_step hdown]
    _ = b := hb'.symm

/-- Every step of a way to segments goes up or is a segment. -/
theorem formed_way {a b : List String} (hb : ∀ x ∈ b, IsSegment x) :
    ∀ x ∈ way a b, x = ".." ∨ IsSegment x := by
  obtain ⟨common, -, hb'⟩ := exists_common a b
  intro x hx
  rcases List.mem_append.mp hx with hx | hx
  · obtain ⟨_, -, rfl⟩ := List.mem_map.mp hx
    exact .inl rfl
  · exact .inr (hb x (hb' ▸ List.mem_append_right _ hx))

/-! ## Specifiers -/

/-- A piece that goes up or is a segment is one segment of a path. -/
theorem segmentsOf_piece (h : x = ".." ∨ IsSegment x) : segmentsOf x = [x] := by
  rcases h with rfl | h
  · decide
  · exact h.segmentsOf

/-- Segments that are joined by slashes are read back. -/
theorem segmentsOf_intercalate (h : ∀ x ∈ segments, x = ".." ∨ IsSegment x) :
    segmentsOf ("/".intercalate segments) = segments := by
  induction segments with
  | nil => rfl
  | cons x rest ih =>
    rw [List.forall_mem_cons] at h
    cases rest with
    | nil => rw [String.intercalate_singleton, segmentsOf_piece h.1]
    | cons y rest =>
      rw [String.intercalate_cons_cons, segmentsOf_slash, ih h.2, segmentsOf_piece h.1]
      rfl

/-- A text that starts with a dot denotes a path from where it is read. -/
theorem anchorOf_of_dot (h : text.toList.head? = some '.') : anchorOf text = .here := by
  rw [anchorOf_eq, if_pos]
  rw [h]
  decide

/-- A specifier denotes the way to the target. -/
theorem ofText_importSpecifier (start : Path) (htarget : target.Formed)
    (hworking : ∀ x ∈ workingDirectory, IsSegment x) :
    ofText (importSpecifier workingDirectory start target)
      = ⟨.here, way (start.absolute workingDirectory) (target.absolute workingDirectory)⟩ := by
  have hformed := formed_way (a := start.absolute workingDirectory)
    (htarget.isSegment_of_mem_absolute hworking)
  have hsegments : segmentsOf (relativeTo workingDirectory start target)
      = way (start.absolute workingDirectory) (target.absolute workingDirectory) := by
    unfold relativeTo
    split
    · rename_i hway
      rw [hway]
      decide
    · exact segmentsOf_intercalate hformed
  unfold importSpecifier
  dsimp only
  split
  · rename_i hdot
    rw [ofText, anchorOf_of_dot hdot, hsegments]
  · -- Without a dot in front, one is put there, and it adds no segment.
    have hdot : ("./" ++ relativeTo workingDirectory start target).toList.head? = some '.' := by
      simp
    have hslash := segmentsOf_slash "." (relativeTo workingDirectory start target)
    rw [ofText, anchorOf_of_dot hdot, ← hsegments]
    exact congrArg _ hslash

/-- From the directory of the file, the specifier leads to the module. -/
theorem absolute_importSpecifier (hstart : start.Formed) (htarget : target.Formed)
    (hworking : ∀ x ∈ workingDirectory, IsSegment x) :
    (ofText (importSpecifier workingDirectory start target)).absolute
        (start.absolute workingDirectory)
      = target.absolute workingDirectory := by
  have hhere := dots_not_mem (hstart.isSegment_of_mem_absolute hworking)
  have hthere := dots_not_mem (htarget.isSegment_of_mem_absolute hworking)
  rw [ofText_importSpecifier start htarget hworking]
  change List.foldl step [] (_ ++ _) = _
  rw [List.foldl_append, foldl_step hhere, List.nil_append, foldl_step_way hthere]

end Path

end ClientGen
