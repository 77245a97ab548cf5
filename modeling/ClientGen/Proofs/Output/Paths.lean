import ClientGen.Path
import ClientGen.Proofs.Text.Lines
import ClientGen.Text.Letter

/-!
# Paths below a directory

A path that is written as a directory, a slash and names leads below the directory, whatever the
text for the directory is.

* `Path.IsSegment`: a name that can stand between slashes.
* `Path.below`: the path with more segments.
* `Path.absolute_below`: where it leads.
* `Path.child_below`: the path that a directory and names denote.
* `Path.absolute_closed`: a slash behind a directory makes no difference.
-/

namespace ClientGen

namespace Path

open Text

variable {x y dir text : String} {p : Path}

/-- A name that can stand between slashes and names something of its own. -/
structure IsSegment (x : String) : Prop where
  /-- It is one piece. -/
  plain : '/' ∉ x.toList
  /-- It is not empty. -/
  ne_empty : x ≠ ""
  /-- It is not a single dot. -/
  ne_dot : x ≠ "."
  /-- It is not a double dot. -/
  ne_dots : x ≠ ".."

/-- Letters and digits are segments. -/
theorem isSegment_of_alphanumeric (hne : x ≠ "") (h : ∀ c ∈ x.toList, isAsciiAlphanumeric c) :
    IsSegment x where
  plain hmem := absurd (h _ hmem) (by decide)
  ne_empty := hne
  ne_dot := by
    rintro rfl
    exact absurd (h '.' (by decide)) (by decide)
  ne_dots := by
    rintro rfl
    exact absurd (h '.' (by decide)) (by decide)

/-- The names of generated files are segments. -/
theorem isSegment_file (h : ∀ c ∈ x.toList, isAsciiAlphanumeric c) : IsSegment (x ++ ".ts") := by
  have hletter : 't' ∈ (x ++ ".ts").toList := by simp
  refine ⟨?_, ?_, ?_, ?_⟩
  · rw [String.toList_append, List.mem_append, not_or]
    exact ⟨fun hmem => absurd (h _ hmem) (by decide), by decide⟩
  all_goals
    intro heq
    rw [heq] at hletter
    exact absurd hletter (by decide)

theorem IsSegment.segmentsOf (h : IsSegment x) : segmentsOf x = [x] := by
  rw [Path.segmentsOf, splitOn_of_not_mem h.plain]
  simp [h.ne_empty, h.ne_dot]

/-- The segments of a text with a slash in it. -/
theorem segmentsOf_slash (dir text : String) :
    segmentsOf (dir ++ "/" ++ text) = segmentsOf dir ++ segmentsOf text := by
  have htext : (dir ++ "/" ++ text).toList = dir.toList ++ '/' :: text.toList := by simp
  rw [segmentsOf, htext, splitOn_append_cons, List.map_append, List.filter_append]
  rfl

/-- A slash at the end adds no segment. -/
theorem segmentsOf_closed (dir : String) : segmentsOf (dir ++ "/") = segmentsOf dir := by
  have hslash := segmentsOf_slash dir ""
  rwa [String.append_empty, show segmentsOf "" = [] from rfl, List.append_nil] at hslash

/-- An anchor depends on how many slashes a text starts with. -/
theorem anchorOf_eq (text : String) : anchorOf text =
    if text.toList.head? ≠ some '/' then .here
    else if text.toList.tail.head? ≠ some '/' then .root
    else if text.toList.tail.tail.head? ≠ some '/' then .doubleRoot else .root := by
  have hhead : ∀ {cs : List Char}, (∀ tail, cs = '/' :: tail → False) → cs.head? ≠ some '/' := by
    intro cs h hcs
    obtain ⟨tail, htail⟩ := List.head?_eq_some_iff.mp hcs
    exact h tail htail
  -- Each later pattern is reached with the earlier ones excluded.
  unfold anchorOf
  split
  · rename_i htext
    simp [htext]
  · rename_i hthird htext
    rw [htext, if_neg (by simp), if_neg (by simp), if_pos]
    exact hhead hthird
  · rename_i hsecond htext
    rw [htext, if_neg (by simp), if_pos]
    exact hhead hsecond
  · rename_i hfirst
    rw [if_pos (hhead hfirst)]

/-- What stands behind a slash does not matter for the anchor, if it is no slash. -/
theorem anchorOf_slash (h : text.toList.head? ≠ some '/') :
    anchorOf (dir ++ "/" ++ text) = anchorOf (dir ++ "/") := by
  have htext : (dir ++ "/" ++ text).toList = dir.toList ++ '/' :: text.toList := by simp
  have hdir : (dir ++ "/").toList = dir.toList ++ ['/'] := by simp
  rw [anchorOf_eq, anchorOf_eq, htext, hdir]
  rcases dir.toList with _ | ⟨a, _ | ⟨b, _ | ⟨c, cs⟩⟩⟩ <;> simp [h]

/-- The path with more segments. -/
def below (p : Path) (segments : List String) : Path :=
  { p with segments := p.segments ++ segments }

@[simp]
theorem segments_below (p : Path) (segments : List String) :
    (p.below segments).segments = p.segments ++ segments := rfl

@[simp]
theorem anchor_below (p : Path) (segments : List String) :
    (p.below segments).anchor = p.anchor := rfl

/-- Names other than the double dot lead further down. -/
theorem foldl_step {segments : List String} (h : ".." ∉ segments) (current : List String) :
    segments.foldl step current = current ++ segments := by
  induction segments generalizing current with
  | nil => exact (List.append_nil current).symm
  | cons segment segments ih =>
    rw [List.mem_cons, not_or] at h
    rw [List.foldl_cons, step, if_neg (Ne.symm h.1), ih h.2, List.append_assoc,
      List.singleton_append]

/-- A path below another one leads below the place of that one. -/
theorem absolute_below {segments : List String} (h : ".." ∉ segments)
    (workingDirectory : List String) (p : Path) :
    (p.below segments).absolute workingDirectory = p.absolute workingDirectory ++ segments := by
  have hdown : ∀ start : List String,
      (start ++ segments).foldl step [] = start.foldl step [] ++ segments := fun start => by
    rw [List.foldl_append, foldl_step h]
  unfold absolute
  rw [segments_below, anchor_below]
  cases p.anchor with
  | here => exact (congrArg _ (List.append_assoc _ _ _).symm).trans (hdown _)
  | root => exact hdown _
  | doubleRoot => exact hdown _

/-- A text behind a directory and a slash leads below the directory. -/
theorem child_below (h : text.toList.head? ≠ some '/') (p : Path) (dir : String) :
    p.child (dir ++ "/" ++ text) = (p.child (dir ++ "/")).below (segmentsOf text) := by
  unfold child join ofText
  rw [anchorOf_slash h, segmentsOf_slash, segmentsOf_closed]
  cases anchorOf (dir ++ "/") <;> simp [below]

/-- A slash at the end leads to the same place, unless nothing stands in front of it. -/
theorem absolute_closed (hne : dir ≠ "") (workingDirectory : List String) (p : Path) :
    (p.child (dir ++ "/")).absolute workingDirectory = (p.child dir).absolute workingDirectory := by
  have hanchor : anchorOf (dir ++ "/") = .here ↔ anchorOf dir = .here := by
    have hchars : dir.toList ≠ [] := fun h => hne (String.toList_inj.mp h)
    rw [anchorOf_eq, anchorOf_eq, String.toList_append, List.head?_append_of_ne_nil _ hchars]
    by_cases hhead : dir.toList.head? = some '/'
    · rw [if_neg (not_not.mpr hhead), if_neg (not_not.mpr hhead)]
      split_ifs <;> simp
    · rw [if_pos hhead, if_pos hhead]
  unfold child join ofText
  rw [segmentsOf_closed]
  -- Both roots are the same place.
  cases hclosed : anchorOf (dir ++ "/") <;> cases hopen : anchorOf dir <;>
    simp_all [absolute]

/-- A name behind a directory and a slash. -/
theorem IsSegment.child (h : IsSegment x) (p : Path) (dir : String) :
    p.child (dir ++ "/" ++ x) = (p.child (dir ++ "/")).below [x] := by
  rw [child_below (fun hhead => h.plain (List.mem_of_mem_head? hhead)), h.segmentsOf]

/-- Two names behind a directory and a slash. -/
theorem IsSegment.child_child (hx : IsSegment x) (hy : IsSegment y) (p : Path) (dir : String) :
    p.child (dir ++ "/" ++ x ++ "/" ++ y) = (p.child (dir ++ "/")).below [x, y] := by
  have htext : dir ++ "/" ++ x ++ "/" ++ y = dir ++ "/" ++ (x ++ "/" ++ y) := by
    simp only [String.append_assoc]
  have hhead : (x ++ "/" ++ y).toList.head? ≠ some '/' := by
    have hne : x.toList ≠ [] := fun h => hx.ne_empty (String.toList_inj.mp h)
    rw [String.append_assoc, String.toList_append, List.head?_append_of_ne_nil _ hne]
    exact fun hhead => hx.plain (List.mem_of_mem_head? hhead)
  rw [htext, child_below hhead, segmentsOf_slash, hx.segmentsOf, hy.segmentsOf]
  rfl

end Path

end ClientGen
