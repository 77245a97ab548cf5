import ClientGen.Proofs.Output.Specifiers

/-!
# Relative imports resolved

A specifier is put behind the directory of the file that imports, and the path that this gives is
normalised by the letters alone. It leads to the module, wherever the two paths start. A loader
takes the specifier for a relative one unless the module lies below the directory and the first
name on the way down starts with a dot.

* `Path.normal`: the normal form of a path, in which double dots stand in front only.
* `Path.absolute_normal`: a path and its normal form lead to the same place.
* `Path.IsRelative`: what a loader takes for a relative import.
* `Path.isRelative_importSpecifier_iff`: which specifiers are of this kind.
* `Path.importSpecifier_resolves`: where a specifier leads, and when a loader follows it.
-/

namespace ClientGen

namespace Path

variable {start target : Path} {segments workingDirectory : List String}

/-! ## Normal forms -/

/-- One more segment at the end of a relative path in normal form: a double dot takes back the last
name, and stays where there is none. -/
def normalStep (segments : List String) (segment : String) : List String :=
  if segment = ".." ∧ (segments.getLast?.getD "..") ≠ ".." then segments.dropLast
  else segments ++ [segment]

/-- The normal form of a path: names are taken back by double dots, and at the root a double dot
leads nowhere. -/
def normal (p : Path) : Path :=
  match p.anchor with
  | .here => { p with segments := p.segments.foldl normalStep [] }
  | _ => { p with segments := p.segments.foldl step [] }

/-- How many directories the path goes up from where it starts. -/
def climb (p : Path) : Nat := (p.normal.segments.takeWhile (· = "..")).length

variable {p : Path}

/-- The normal form of a relative path is relative as well. -/
theorem normal_of_here (h : p.anchor = .here) :
    p.normal = ⟨.here, p.segments.foldl normalStep []⟩ := by
  rw [normal, h]

/-- A path from the root leads there from every working directory. -/
theorem absolute_of_rooted (h : p.anchor ≠ .here) (workingDirectory : List String) :
    p.absolute workingDirectory = p.segments.foldl step [] := by
  unfold absolute
  split
  · contradiction
  · rfl

/-- The normal form of a path from the root has the segments from there. -/
theorem normal_of_rooted (h : p.anchor ≠ .here) (workingDirectory : List String) :
    p.normal = ⟨p.anchor, p.absolute workingDirectory⟩ := by
  rw [absolute_of_rooted h]
  unfold normal
  split
  · contradiction
  · rfl

theorem normalStep_name {current : List String} {x : String} (h : x ≠ "..") :
    normalStep current x = current ++ [x] := if_neg fun hdots => h hdots.1

/-- A double dot takes back a name. -/
theorem normalStep_up {current : List String} {x : String} (h : x ≠ "..") :
    normalStep (current ++ [x]) ".." = current := by
  rw [normalStep, if_pos ⟨rfl, by simpa using h⟩, List.dropLast_concat]

/-- One step in normal form leads where the segment leads. -/
theorem foldl_step_normalStep (base current : List String) (x : String) :
    (normalStep current x).foldl step base = step (current.foldl step base) x := by
  rw [normalStep]
  split
  · rename_i hup
    obtain ⟨rfl, hlast⟩ := hup
    rcases List.eq_nil_or_concat current with rfl | ⟨front, y, rfl⟩
    · exact absurd rfl hlast
    · rw [List.concat_eq_append] at hlast ⊢
      have hy : y ≠ ".." := by simpa using hlast
      rw [List.dropLast_concat, List.foldl_append]
      simp [step, hy]
  · rw [List.foldl_append]
    rfl

/-- Leading on by the normal form of some segments is leading on by the segments. -/
theorem foldl_step_foldl_normalStep (base current segments : List String) :
    (segments.foldl normalStep current).foldl step base
      = segments.foldl step (current.foldl step base) := by
  induction segments generalizing current with
  | nil => rfl
  | cons x segments ih => rw [List.foldl_cons, ih, foldl_step_normalStep, List.foldl_cons]

/-- In normal form, double dots stand in front of the names. -/
theorem exists_foldl_normalStep (segments : List String) :
    ∃ n names, segments.foldl normalStep [] = List.replicate n ".." ++ names ∧ ".." ∉ names := by
  induction segments using List.reverseRecOn with
  | nil => exact ⟨0, [], rfl, List.not_mem_nil⟩
  | append_singleton segments x ih =>
    obtain ⟨n, names, hfront, hnames⟩ := ih
    rw [List.foldl_append, List.foldl_cons, List.foldl_nil, hfront]
    by_cases hx : x = ".."
    · subst hx
      rcases List.eq_nil_or_concat names with rfl | ⟨front, y, rfl⟩
      · -- No name is left to be taken back.
        refine ⟨n + 1, [], ?_, List.not_mem_nil⟩
        have hlast : (List.replicate n "..").getLast?.getD ".." = ".." := by
          cases n <;> simp [List.getLast?_replicate]
        rw [List.append_nil, normalStep, if_neg fun h => h.2 hlast, List.replicate_succ']
        simp
      · rw [List.concat_eq_append, List.mem_append, not_or] at hnames
        have hy : y ≠ ".." := fun h => hnames.2 (h ▸ List.mem_singleton_self y)
        refine ⟨n, front, ?_, hnames.1⟩
        rw [List.concat_eq_append, ← List.append_assoc, normalStep_up hy]
    · refine ⟨n, names ++ [x], by rw [normalStep_name hx, List.append_assoc], ?_⟩
      simpa [hnames] using Ne.symm hx

/-- Counted from the root, no double dot is left. -/
theorem dots_not_mem_foldl_step {current : List String} (h : ".." ∉ current)
    (segments : List String) : ".." ∉ segments.foldl step current := by
  induction segments generalizing current with
  | nil => exact h
  | cons x segments ih =>
    refine ih ?_
    rw [step]
    split
    · exact fun hmem => h (List.dropLast_subset _ hmem)
    · rename_i hx
      simpa [h] using Ne.symm hx

/-- A path and its normal form lead to the same place. -/
theorem absolute_normal (workingDirectory : List String) (p : Path) :
    p.normal.absolute workingDirectory = p.absolute workingDirectory := by
  by_cases h : p.anchor = .here
  · rw [normal_of_here h]
    unfold absolute
    simp only [h, List.foldl_append]
    exact foldl_step_foldl_normalStep _ [] _
  · have hdots : ".." ∉ p.absolute workingDirectory := by
      unfold absolute
      split <;> exact dots_not_mem_foldl_step List.not_mem_nil _
    have hrooted : p.normal.anchor ≠ .here := by rwa [normal_of_rooted h workingDirectory]
    rw [absolute_of_rooted hrooted, normal_of_rooted h workingDirectory]
    exact foldl_step hdots []

/-- The directory that is some directories above the working directory. -/
def above (n : Nat) : Path := ⟨.here, List.replicate n ".."⟩

/-- The normal form of a path that starts at the working directory. -/
theorem exists_normal_of_here (h : start.anchor = .here) :
    ∃ names, start.normal = (above start.climb).below names ∧ ".." ∉ names := by
  obtain ⟨n, names, hnormal, hnames⟩ := exists_foldl_normalStep start.segments
  have heq : start.normal = (above n).below names := by
    rw [normal_of_here h, hnormal]
    rfl
  have hclimb : start.climb = n := by
    have hnone : names.takeWhile (fun x => decide (x = "..")) = [] := by
      cases names with
      | nil => rfl
      | cons x names => simpa using fun hx : x = ".." => hnames (hx ▸ List.mem_cons_self)
    rw [climb, heq, segments_below, above, List.takeWhile_append_of_pos (by simp), hnone,
      List.append_nil, List.length_replicate]
  exact ⟨names, by rw [hclimb, heq], hnames⟩

/-! ## The way in normal form -/

/-- What two directories have above them makes no difference for the way between them. -/
theorem way_append (base as bs : List String) : way (base ++ as) (base ++ bs) = way as bs := by
  have hcommon : withoutCommon (base ++ as) (base ++ bs) = withoutCommon as bs := by
    induction base with
    | nil => rfl
    | cons x base ih => rw [List.cons_append, List.cons_append, withoutCommon, if_pos rfl, ih]
  rw [way, way, hcommon]

/-- Behind a path in normal form, as many double dots as there are names take all of them back. -/
theorem foldl_normalStep_up (front : List String) {up : List String} (hup : ".." ∉ up) :
    (up.map fun _ => "..").foldl normalStep (front ++ up) = front := by
  induction up using List.reverseRecOn with
  | nil => exact List.append_nil front
  | append_singleton up x ih =>
    rw [List.mem_append, not_or, List.mem_singleton] at hup
    have hmap : (up ++ [x]).map (fun _ => "..") = ".." :: up.map (fun _ => "..") := by
      rw [List.map_const', List.map_const', List.length_append, List.length_singleton,
        List.replicate_succ]
    rw [hmap, List.foldl_cons, ← List.append_assoc, normalStep_up (Ne.symm hup.2), ih hup.1]

/-- Names that lead nowhere up are put behind what is there. -/
theorem foldl_normalStep_names (front : List String) {names : List String} (h : ".." ∉ names) :
    names.foldl normalStep front = front ++ names := by
  induction names generalizing front with
  | nil => exact (List.append_nil front).symm
  | cons x names ih =>
    rw [List.mem_cons, not_or] at h
    rw [List.foldl_cons, normalStep_name (Ne.symm h.1), ih _ h.2, List.append_assoc,
      List.singleton_append]

/-- Behind the names of one path, the way to another one leaves the names of that one. -/
theorem foldl_normalStep_way (front : List String) {a b : List String} (ha : ".." ∉ a)
    (hb : ".." ∉ b) : (way a b).foldl normalStep (front ++ a) = front ++ b := by
  obtain ⟨common, ha', hb'⟩ := exists_common a b
  have hup : ".." ∉ (withoutCommon a b).1 := fun h => ha (ha' ▸ List.mem_append_right _ h)
  have hdown : ".." ∉ (withoutCommon a b).2 := fun h => hb (hb' ▸ List.mem_append_right _ h)
  calc (way a b).foldl normalStep (front ++ a)
    _ = (withoutCommon a b).2.foldl normalStep
          (((withoutCommon a b).1.map fun _ => "..").foldl normalStep
            (front ++ common ++ (withoutCommon a b).1)) := by
      rw [List.append_assoc, ← ha']
      exact List.foldl_append
    _ = front ++ common ++ (withoutCommon a b).2 := by
      rw [foldl_normalStep_up _ hup, foldl_normalStep_names _ hdown]
    _ = front ++ b := by rw [List.append_assoc, ← hb']

/-! ## Specifiers put behind a directory -/

/-- The specifier behind the directory leads to the module. -/
theorem absolute_child_importSpecifier (htarget : target.Formed)
    (hworking : ∀ x ∈ workingDirectory, IsSegment x) :
    (start.child (importSpecifier workingDirectory start target)).absolute workingDirectory
      = target.absolute workingDirectory := by
  have hthere := dots_not_mem (htarget.isSegment_of_mem_absolute hworking)
  have hway := foldl_step_way (a := start.absolute workingDirectory) hthere
  rw [child, ofText_importSpecifier start htarget hworking]
  refine Eq.trans ?_ hway
  unfold join absolute
  cases start.anchor <;> simp [List.foldl_append]

/-- Of two paths that start at the same place and go up equally far, the specifier behind the one
has the normal form of the other. -/
theorem normal_child_importSpecifier (htarget : target.Formed)
    (hworking : ∀ x ∈ workingDirectory, IsSegment x) (hanchor : start.anchor = target.anchor)
    (hclimb : start.climb = target.climb) :
    (start.child (importSpecifier workingDirectory start target)).normal = target.normal := by
  have hchild : (start.child (importSpecifier workingDirectory start target)).anchor
      = target.anchor := by
    rw [child, ofText_importSpecifier start htarget hworking]
    exact hanchor
  by_cases hhere : target.anchor = .here
  · obtain ⟨names, hstart, hnames⟩ := exists_normal_of_here (hanchor.trans hhere)
    obtain ⟨names', htarget', hnames'⟩ := exists_normal_of_here hhere
    have hway : way (start.absolute workingDirectory) (target.absolute workingDirectory)
        = way names names' := by
      rw [← absolute_normal, ← absolute_normal _ target, hstart, htarget', hclimb,
        absolute_below hnames, absolute_below hnames', way_append]
    rw [normal_of_here (hanchor.trans hhere)] at hstart
    rw [normal_of_here (hchild.trans hhere), htarget', child,
      ofText_importSpecifier start htarget hworking, hway]
    have hsegments := congrArg segments hstart
    dsimp only [join] at hsegments ⊢
    rw [List.foldl_append, hsegments, segments_below, foldl_normalStep_way _ hnames hnames', hclimb]
    rfl
  · -- From the root there is only one normal form for a place.
    rw [normal_of_rooted hhere workingDirectory,
      normal_of_rooted (fun h => hhere (hchild.symm.trans h)) workingDirectory, hchild,
      absolute_child_importSpecifier htarget hworking]

/-! ## Relative imports -/

/-- A loader takes the specifier for a relative one. -/
def IsRelative (specifier : String) : Prop :=
  specifier = "." ∨ specifier = ".." ∨ "./".toList <+: specifier.toList ∨
    "../".toList <+: specifier.toList

instance (specifier : String) : Decidable (IsRelative specifier) :=
  inferInstanceAs (Decidable (_ ∨ _ ∨ _ ∨ _))

/-- The target lies below the directory, and the first name on the way down starts with a dot. -/
def HiddenBelow (workingDirectory : List String) (start target : Path) : Prop :=
  ∃ name rest, target.absolute workingDirectory = start.absolute workingDirectory ++ name :: rest ∧
    name.toList.head? = some '.'

/-- It is the first segment of a specifier that makes it a relative one. -/
theorem isRelative_iff (specifier : String) : IsRelative specifier ↔
    Text.before '/' specifier.toList = ['.'] ∨ Text.before '/' specifier.toList = ['.', '.'] := by
  rw [Text.before_eq_iff (by decide), Text.before_eq_iff (by decide), IsRelative, ← String.toList_inj,
    ← String.toList_inj, ← or_assoc, or_or_or_comm]
  rfl

/-- The way down from a directory is what stands behind it. -/
theorem way_below (a bs : List String) : way a (a ++ bs) = bs := by
  have happend := way_append a [] bs
  rw [List.append_nil] at happend
  rw [happend]
  cases bs <;> rfl

/-- A way that does not begin by going up leads down only. -/
theorem eq_append_way {a b : List String} (h : (way a b).head? ≠ some "..") :
    b = a ++ way a b := by
  obtain ⟨common, ha, hb⟩ := exists_common a b
  have hway : way a b = (withoutCommon a b).1.map (fun _ => "..") ++ (withoutCommon a b).2 := rfl
  have hup : (withoutCommon a b).1 = [] := by
    rw [hway] at h
    cases hup : (withoutCommon a b).1 with
    | nil => rfl
    | cons x up => exact absurd (by rw [hup]; rfl) h
  rw [hup, List.append_nil] at ha
  rw [hway, hup, List.map_nil, List.nil_append]
  exact hb.trans (congrArg (· ++ _) ha.symm)

/-- The first segment of the text for a way. -/
theorem before_intercalate {x : String} (h : '/' ∉ x.toList) (rest : List String) :
    Text.before '/' ("/".intercalate (x :: rest)).toList = x.toList := by
  rw [Text.before_eq_iff h]
  cases rest with
  | nil => exact .inl (by rw [String.intercalate_singleton])
  | cons y rest =>
    refine .inr ⟨("/".intercalate (y :: rest)).toList, ?_⟩
    rw [String.intercalate_cons_cons]
    simp

/-- Joined segments begin as the first one does. -/
theorem head?_intercalate {x : String} (h : '/' ∉ x.toList) (hne : x ≠ "") (rest : List String) :
    ("/".intercalate (x :: rest)).toList.head? = x.toList.head? := by
  have hchars : x.toList ≠ [] := fun hnil => hne (String.toList_inj.mp hnil)
  obtain ⟨more, hmore⟩ : x.toList <+: ("/".intercalate (x :: rest)).toList :=
    before_intercalate h rest ▸ List.takeWhile_prefix _
  rw [← hmore, List.head?_append_of_ne_nil _ hchars]

/-- A specifier is a relative one unless a hidden name is the first on the way down. -/
theorem isRelative_importSpecifier_iff (htarget : target.Formed)
    (hworking : ∀ x ∈ workingDirectory, IsSegment x) :
    IsRelative (importSpecifier workingDirectory start target)
      ↔ ¬ HiddenBelow workingDirectory start target := by
  have hsegments := htarget.isSegment_of_mem_absolute hworking
  have hformed := formed_way (a := start.absolute workingDirectory) hsegments
  have hbelow : ∀ {bs : List String},
      target.absolute workingDirectory = start.absolute workingDirectory ++ bs →
      way (start.absolute workingDirectory) (target.absolute workingDirectory) = bs :=
    fun heq => by rw [heq, way_below]
  rw [isRelative_iff]
  unfold importSpecifier relativeTo
  cases hway : way (start.absolute workingDirectory) (target.absolute workingDirectory) with
  | nil =>
    -- The target is the directory itself.
    refine iff_of_true (by decide) ?_
    rintro ⟨name, rest, heq, -⟩
    exact absurd ((hbelow heq).symm.trans hway) (List.cons_ne_nil _ _)
  | cons x rest =>
    rw [hway, List.forall_mem_cons] at hformed
    have hfirst : ∀ name rest', target.absolute workingDirectory
        = start.absolute workingDirectory ++ name :: rest' → x = name := fun name rest' heq =>
      (List.cons.inj (hway.symm.trans (hbelow heq))).1
    have hpiece : '/' ∉ x.toList ∧ x ≠ "" := by
      rcases hformed.1 with rfl | hx
      · decide
      · exact ⟨hx.plain, hx.ne_empty⟩
    dsimp only
    rw [head?_intercalate hpiece.1 hpiece.2]
    rcases hformed.1 with rfl | hx
    · -- Going up starts with double dots, and no name is called so.
      rw [if_pos (by decide), before_intercalate hpiece.1]
      refine iff_of_true (.inr rfl) ?_
      rintro ⟨name, rest', heq, -⟩
      have hname := hsegments name (by rw [heq]; simp)
      exact hname.ne_dots (hfirst name rest' heq).symm
    · have hdown : target.absolute workingDirectory
          = start.absolute workingDirectory ++ x :: rest := by
        rw [← hway]
        exact eq_append_way (by rw [hway]; simpa using hx.ne_dots)
      split
      · -- A name is neither of the two that make a relative specifier.
        rename_i hdot
        rw [before_intercalate hx.plain]
        refine iff_of_false ?_ (not_not.mpr ⟨x, rest, hdown, hdot⟩)
        rintro (hone | htwo)
        · exact hx.ne_dot (String.toList_inj.mp hone)
        · exact hx.ne_dots (String.toList_inj.mp htwo)
      · rename_i hdot
        refine iff_of_true (.inl ?_) ?_
        · rw [Text.before_eq_iff (by decide), String.toList_append]
          exact .inr (List.prefix_append _ _)
        · rintro ⟨name, rest', heq, hname⟩
          exact hdot (hfirst name rest' heq ▸ hname)

/-- The specifier for a module, put behind the directory of the file that imports it and normalised,
leads to the module, wherever the two paths start. Where both start at the same place and go up
equally far, it has the normal form of the path of the module. A loader takes the specifier for a
relative one, unless the module lies below the directory and the first name on the way down starts
with a dot. -/
theorem importSpecifier_resolves (hworking : ∀ x ∈ workingDirectory, IsSegment x)
    (dir module : String) :
    let start := ofText dir
    let target := ofText module
    let specifier := importSpecifier workingDirectory start target
    (start.child specifier).absolute workingDirectory = target.absolute workingDirectory ∧
      (start.anchor = target.anchor → start.climb = target.climb →
        (start.child specifier).normal = target.normal) ∧
      (IsRelative specifier ↔ ¬ HiddenBelow workingDirectory start target) := by
  intro start target specifier
  have htarget : target.Formed := formed_ofText module
  exact ⟨absolute_child_importSpecifier htarget hworking,
    normal_child_importSpecifier htarget hworking, isRelative_importSpecifier_iff htarget hworking⟩

/-- Both paths leave the working directory, and the module lies beside the directory. -/
theorem importSpecifier_resolves_climbing :
    let start := ofText "../shared//hooks"
    let target := ofText "src/../../models/pet"
    let specifier := importSpecifier ["home", "project"] start target
    (∀ x ∈ ["home", "project"], IsSegment x) ∧
      start.anchor = target.anchor ∧ start.climb = target.climb ∧
      (start.child specifier).absolute ["home", "project"] = ["home", "models", "pet"] ∧
      (start.child specifier).normal = ⟨.here, ["..", "models", "pet"]⟩ ∧ IsRelative specifier := by
  intro start target specifier
  -- Names of letters and digits are segments.
  have hworking : ∀ x ∈ ["home", "project"], IsSegment x := by
    have hall : ∀ x ∈ ["home", "project"], x ≠ "" ∧ x.toList.all Text.isAsciiAlphanumeric := by
      decide
    exact fun x hx =>
      isSegment_of_alphanumeric (hall x hx).1 (List.all_eq_true.mp (hall x hx).2)
  have hanchor : start.anchor = target.anchor := by decide +kernel
  have hclimb : start.climb = target.climb := by decide +kernel
  obtain ⟨hplace, hnormal, hrelative⟩ :=
    importSpecifier_resolves hworking "../shared//hooks" "src/../../models/pet"
  refine ⟨hworking, hanchor, hclimb, hplace.trans (by decide +kernel),
    (hnormal hanchor hclimb).trans (by decide +kernel), hrelative.mpr ?_⟩
  -- The target does not stand below the start.
  rintro ⟨name, rest, hbelow, -⟩
  have hstart : start.absolute ["home", "project"] = ["home", "shared", "hooks"] := by
    decide +kernel
  have htarget : target.absolute ["home", "project"] = ["home", "models", "pet"] := by
    decide +kernel
  rw [hstart, htarget] at hbelow
  simp at hbelow

/-- A module in a hidden directory below the importing file gets a specifier that is no relative
one. -/
theorem importSpecifier_not_relative :
    importSpecifier ["project"] (ofText "out/hooks/pets") (ofText "out/hooks/pets/.models/pet")
        = ".models/pet" ∧
      ¬ ∀ (workingDirectory : List String) (dir module : String),
        (∀ x ∈ workingDirectory, IsSegment x) →
        IsRelative (importSpecifier workingDirectory (ofText dir) (ofText module)) := by
  have hspecifier : importSpecifier ["project"] (ofText "out/hooks/pets")
      (ofText "out/hooks/pets/.models/pet") = ".models/pet" := by decide +kernel
  refine ⟨hspecifier, fun h => ?_⟩
  have hworking : ∀ x ∈ ["project"], IsSegment x := by
    intro x hx
    rw [List.mem_singleton.mp hx]
    exact isSegment_of_alphanumeric (by decide) (List.all_eq_true.mp (by decide))
  have hrelative := h ["project"] "out/hooks/pets" "out/hooks/pets/.models/pet" hworking
  rw [hspecifier] at hrelative
  exact absurd hrelative (by decide)

end Path

end ClientGen
