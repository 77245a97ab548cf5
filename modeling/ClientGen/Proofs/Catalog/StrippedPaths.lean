import ClientGen.Proofs.Catalog.Grouping
import ClientGen.Proofs.Text.Lines

/-!
# Stripped paths

The first base path that a path starts with is stripped from it, character by character, and what is
left gets a slash in front if it has none. The path can be rebuilt from what is left where just one
slash stands at the end of the base path.

* `BasePath.IsFirst`: the base path that is stripped.
* `BasePath.strip_cases`: a path stays as it is, or loses the first base path.
* `BasePath.Rebuilds`: a path can be rebuilt from its base path and from what is left.
* `BasePath.rooted_eq_iff`: different rests of which the same is left.
* `BasePath.strip_rebuilds_iff`: which paths can be rebuilt, and which ones fall together.
* `BasePath.exists_paths_fall_together`: a base path that ends inside a segment.
-/

namespace ClientGen.BasePath

open Text

variable {b path rest rest' : String} {basePaths : List String}

/-- The base path is not empty, and the path starts with it. -/
def Starts (b path : String) : Prop := b ≠ "" ∧ b.toList <+: path.toList

/-- The base path is the first in the list that the path starts with. -/
def IsFirst (basePaths : List String) (b path : String) : Prop :=
  Starts b path ∧ ∃ before after, basePaths = before ++ b :: after ∧ ∀ b' ∈ before, ¬ Starts b' path

/-- The text begins with a slash. -/
def Rooted (s : String) : Prop := s.toList.head? = some '/'

/-- The text ends with a slash. -/
def Closed (s : String) : Prop := s.toList.getLast? = some '/'

/-- A base path without the slashes at its end. -/
def withoutSlashes (b : String) : String := String.ofList (dropEnd (· = '/') b.toList)

/-- The path is the base path, without the slashes at its end, and what is left of the path behind
it; or it is just the base path, and a slash is left. -/
def Rebuilds (b path stripped : String) : Prop :=
  path = withoutSlashes b ++ stripped ∨ path = b ∧ stripped = "/"

/-- Where the base path ends there is one slash: the first character of the rest, or the last one of
the base path. -/
def OneSlash (b rest : String) : Prop :=
  Rooted rest ∧ ¬ Closed b ∨ ¬ Rooted rest ∧ ∃ front, b = front ++ "/" ∧ ¬ Closed front

/-- The first text is the second one with a slash put in front, where there was none. -/
def SlashAhead (rest rest' : String) : Prop := rest = "/" ++ rest' ∧ ¬ Rooted rest'

/-! ## Which base path is stripped -/

/-- The check that looks for a base path finds those that the path starts with. -/
theorem starts_iff :
    (decide (b ≠ "") && startsWith b.toList path.toList) = true ↔ Starts b path := by
  rw [Bool.and_eq_true, decide_eq_true_iff, startsWith, List.isPrefixOf_iff_prefix, Starts]

/-- A base path with something behind it starts with the base path. -/
theorem starts_append (hb : b ≠ "") (rest : String) : Starts b (b ++ rest) :=
  ⟨hb, String.toList_append ▸ List.prefix_append _ _⟩

/-- The first base path is stripped, and what is left gets a slash in front if it has none. -/
theorem strip_of_isFirst (h : IsFirst basePaths b (b ++ rest)) :
    strip (b ++ rest) basePaths = rooted rest := by
  obtain ⟨hstarts, before, after, hsplit, hbefore⟩ := h
  have hfind : basePaths.find? (fun b' => b' ≠ "" && startsWith b'.toList (b ++ rest).toList)
      = some b := by
    refine List.find?_eq_some_iff_append.mpr ⟨starts_iff.mpr hstarts, before, after, hsplit, ?_⟩
    intro b' hb'
    rw [Bool.not_eq_true', Bool.eq_false_iff]
    exact starts_iff.not.mpr (hbefore b' hb')
  rw [strip, hfind]
  simp only [String.toList_append, List.drop_left, String.ofList_toList]

/-- A path that starts with no base path stays as it is; another one starts with a first one. -/
theorem strip_cases (path : String) (basePaths : List String) :
    (∀ b ∈ basePaths, ¬ Starts b path) ∧ strip path basePaths = path ∨
      ∃ b rest, IsFirst basePaths b path ∧ path = b ++ rest := by
  cases hfind : basePaths.find? fun b => b ≠ "" && startsWith b.toList path.toList with
  | none =>
    refine .inl ⟨fun b hb => ?_, by rw [strip, hfind]⟩
    exact starts_iff.not.mp (List.find?_eq_none.mp hfind b hb)
  | some b =>
    obtain ⟨hb, before, after, hsplit, hbefore⟩ := List.find?_eq_some_iff_append.mp hfind
    have hstarts : Starts b path := starts_iff.mp hb
    obtain ⟨cs, hcs⟩ := hstarts.2
    refine .inr ⟨b, String.ofList cs, ⟨hstarts, before, after, hsplit, fun b' hb' => ?_⟩, ?_⟩
    · have hother := hbefore b' hb'
      rw [Bool.not_eq_true', Bool.eq_false_iff] at hother
      exact starts_iff.not.mp hother
    · rw [← String.toList_inj, String.toList_append, String.toList_ofList, hcs]

/-- Empty base paths do not count. -/
theorem strip_ofList (path : String) (basePaths : List String) :
    strip path (ofList basePaths) = strip path basePaths := by
  rw [strip, strip, ofList, List.find?_filter]
  congr 2
  funext b
  by_cases hb : b = "" <;> simp [hb]

/-! ## Rebuilding a path -/

/-- A rest that begins with a slash is left as it is. -/
theorem rooted_of_rooted (h : Rooted rest) : rooted rest = rest := if_pos h

/-- A rest that does not begin with a slash gets one. -/
theorem rooted_of_not_rooted (h : ¬ Rooted rest) : rooted rest = "/" ++ rest := if_neg h

theorem rooted_slash_append (rest : String) : Rooted ("/" ++ rest) := by
  rw [Rooted, String.toList_append]
  rfl

/-- What is left starts with a slash. -/
theorem rooted_rooted (rest : String) : Rooted (rooted rest) := by
  by_cases h : Rooted rest
  · rwa [rooted_of_rooted h]
  · rw [rooted_of_not_rooted h]
    exact rooted_slash_append rest

/-- The slashes at the end are all that is missing. -/
theorem not_closed_withoutSlashes (b : String) : ¬ Closed (withoutSlashes b) := by
  intro hclosed
  rw [Closed, withoutSlashes, String.toList_ofList, dropEnd_eq_rdropWhile] at hclosed
  have hne : b.toList.rdropWhile (· = '/') ≠ [] := fun hnil => by simp [hnil] at hclosed
  have hlast := List.rdropWhile_last_not (· = '/') b.toList hne
  rw [List.getLast?_eq_some_getLast hne] at hclosed
  exact hlast (by simpa using hclosed)

/-- A base path that does not end with a slash has none to lose. -/
theorem withoutSlashes_eq_self (h : ¬ Closed b) : withoutSlashes b = b := by
  rw [withoutSlashes, dropEnd_of_getLast?, String.ofList_toList]
  intro c hc hslash
  obtain rfl : c = '/' := by simpa using hslash
  exact h hc

/-- A single slash at the end of a base path is the only one it loses. -/
theorem withoutSlashes_append_slash (h : ¬ Closed b) : withoutSlashes (b ++ "/") = b := by
  have hslash : (decide ('/' = '/')) = true := by decide
  rw [withoutSlashes, String.toList_append]
  exact (congrArg String.ofList (dropEnd_append_of_pos hslash _)).trans
    (withoutSlashes_eq_self h)

/-- A path can be rebuilt if nothing follows the base path, or if one slash stands at its end. -/
theorem rebuilds_iff (b rest : String) :
    Rebuilds b (b ++ rest) (rooted rest) ↔ rest = "" ∨ OneSlash b rest := by
  by_cases hempty : rest = ""
  · subst hempty
    exact iff_of_true (.inr ⟨String.append_empty, rfl⟩) (.inl rfl)
  · have hne : b ++ rest ≠ b := by simpa using hempty
    rw [Rebuilds, or_iff_left fun h => hne h.1, or_iff_right hempty, OneSlash]
    by_cases hrooted : Rooted rest
    · -- The slash is there, so the base path must not bring another one.
      rw [rooted_of_rooted hrooted, String.append_left_inj]
      simp only [hrooted, true_and, not_true_eq_false, false_and, or_false]
      refine ⟨fun h hclosed => ?_, fun h => (withoutSlashes_eq_self h).symm⟩
      exact not_closed_withoutSlashes b (h ▸ hclosed)
    · -- The slash is put there, and the base path must have brought it.
      rw [rooted_of_not_rooted hrooted, ← String.append_assoc, String.append_left_inj]
      simp only [hrooted, false_and, not_false_eq_true, true_and, false_or]
      constructor
      · exact fun h => ⟨_, h, not_closed_withoutSlashes b⟩
      · rintro ⟨front, rfl, hfront⟩
        rw [withoutSlashes_append_slash hfront]

/-- The same is left of two rests if they are equal, or if they differ in a slash in front. -/
theorem rooted_eq_iff :
    rooted rest = rooted rest' ↔ rest = rest' ∨ SlashAhead rest rest' ∨ SlashAhead rest' rest := by
  unfold SlashAhead
  by_cases h : Rooted rest <;> by_cases h' : Rooted rest'
  · rw [rooted_of_rooted h, rooted_of_rooted h']
    simp [h, h']
  · -- Only the second rest lacks its slash, so the texts agree if the first is it behind a slash.
    have hne : rest ≠ rest' := fun heq => h' (heq ▸ h)
    rw [rooted_of_rooted h, rooted_of_not_rooted h']
    simp [h, h', hne]
  · have hne : rest ≠ rest' := fun heq => h (heq ▸ h')
    rw [rooted_of_not_rooted h, rooted_of_rooted h']
    simp [h, h', hne, eq_comm]
  · -- Neither has a slash in front, so neither can be the other behind a slash.
    have hnot : rest ≠ "/" ++ rest' := fun heq => h (heq ▸ rooted_slash_append rest')
    have hnot' : rest' ≠ "/" ++ rest := fun heq => h' (heq ▸ rooted_slash_append rest)
    rw [rooted_of_not_rooted h, rooted_of_not_rooted h', String.append_right_inj]
    simp [h, h', hnot, hnot']

/-! ## Paths of a catalog -/

/-- An operation of a catalog has the stripped path. -/
theorem path_of_ofDocument {document : Node} {catalog : Catalog}
    (hcatalog : Catalog.ofDocument document basePaths = .ok catalog) {o : Operation}
    (ho : o ∈ catalog.operations) : o.path = strip o.documentPath basePaths := by
  obtain ⟨os, hos, hgroups⟩ := Catalog.exists_of_ofDocument hcatalog
  obtain ⟨items, -, item, -, raw, -, hmade⟩ :=
    Document.exists_of_mem_operations hos (hgroups.conserved.mem_iff.mp ho)
  rw [Document.eq_of_operation hmade]
  exact strip_ofList _ _

/-- A path that starts with no base path stays as it is. Another one loses the first that it starts
with, and what is left starts with a slash; the path can be rebuilt from it exactly if nothing stood
behind the base path or if one slash stands where the base path ends. Two operations of a catalog
whose paths lose the same base path end up at the same path exactly if their paths are the same, or
differ in a slash behind the base path. -/
theorem strip_rebuilds_iff (basePaths : List String) :
    (∀ path,
      (∀ b ∈ basePaths, ¬ Starts b path) ∧ strip path basePaths = path ∨
        ∃ b rest, IsFirst basePaths b path ∧ path = b ++ rest ∧
          Rooted (strip path basePaths) ∧
          (Rebuilds b path (strip path basePaths) ↔ rest = "" ∨ OneSlash b rest)) ∧
    ∀ document catalog, Catalog.ofDocument document basePaths = .ok catalog →
      ∀ o ∈ catalog.operations, ∀ o' ∈ catalog.operations, ∀ b rest rest',
        o.documentPath = b ++ rest → o'.documentPath = b ++ rest' →
        IsFirst basePaths b o.documentPath → IsFirst basePaths b o'.documentPath →
        (o.path = o'.path ↔ o.documentPath = o'.documentPath ∨
          SlashAhead rest rest' ∨ SlashAhead rest' rest) := by
  refine ⟨fun path => ?_, ?_⟩
  · obtain hnone | ⟨b, rest, hfirst, rfl⟩ := strip_cases path basePaths
    · exact .inl hnone
    · refine .inr ⟨b, rest, hfirst, rfl, ?_, ?_⟩
      · rw [strip_of_isFirst hfirst]
        exact rooted_rooted rest
      · rw [strip_of_isFirst hfirst]
        exact rebuilds_iff b rest
  · intro document catalog hcatalog o ho o' ho' b rest rest' hpath hpath' hfirst hfirst'
    rw [path_of_ofDocument hcatalog ho, path_of_ofDocument hcatalog ho']
    rw [hpath] at hfirst ⊢
    rw [hpath'] at hfirst' ⊢
    rw [strip_of_isFirst hfirst, strip_of_isFirst hfirst', rooted_eq_iff, String.append_right_inj]

/-- A document with two paths that start with the same characters. -/
def sameStartDocument : Node :=
  .object [(.text "paths", .object [(.text "/v1users", .object [(.text "get", .object [])]),
    (.text "/v1/users", .object [(.text "get", .object [])])])]

/-- The base path of the next document is the first one that its paths start with. -/
theorem isFirst_same_start (rest : String) : IsFirst ["/v1"] "/v1" ("/v1" ++ rest) :=
  ⟨starts_append (by decide) rest, [], [], rfl, by simp⟩

/-- The operation for one of these paths. -/
def sameStartOperation (path : String) : Operation :=
  { path := "/users", pathKey := .text path, method := "GET", tag := "default" }

/-- The catalog of this document. -/
def sameStartCatalog : Catalog :=
  [("default", [sameStartOperation "/v1users", sameStartOperation "/v1/users"])]

/-- The two operations of this document end up at the same path. -/
theorem strip_rebuilds_iff_same_start :
    Catalog.ofDocument sameStartDocument ["/v1"] = .ok sameStartCatalog ∧
      sameStartOperation "/v1users" ∈ sameStartCatalog.operations ∧
      sameStartOperation "/v1/users" ∈ sameStartCatalog.operations ∧
      IsFirst ["/v1"] "/v1" "/v1users" ∧ IsFirst ["/v1"] "/v1" "/v1/users" ∧
      ((sameStartOperation "/v1users").path = (sameStartOperation "/v1/users").path ↔
        "/v1users" = "/v1/users" ∨ SlashAhead "users" "/users" ∨ SlashAhead "/users" "users") := by
  have hcatalog : Catalog.ofDocument sameStartDocument ["/v1"] = .ok sameStartCatalog := by
    decide +kernel
  have hfirst : sameStartOperation "/v1users" ∈ sameStartCatalog.operations := by decide
  have hsecond : sameStartOperation "/v1/users" ∈ sameStartCatalog.operations := by decide
  exact ⟨hcatalog, hfirst, hsecond, isFirst_same_start "users", isFirst_same_start "/users",
    (strip_rebuilds_iff ["/v1"]).2 _ _ hcatalog _ hfirst _ hsecond "/v1" "users" "/users" rfl rfl
      (isFirst_same_start "users") (isFirst_same_start "/users")⟩

/-- A base path may end inside a segment. What is left of the path is then a path that the document
does not have, or has for something else. -/
theorem exists_paths_fall_together :
    IsFirst ["/v1"] "/v1" "/v1users" ∧ strip "/v1users" ["/v1"] = "/users" ∧
      ¬ Rebuilds "/v1" "/v1users" "/users" ∧
      IsFirst ["/v1"] "/v1" "/v1/users" ∧ strip "/v1/users" ["/v1"] = "/users" := by
  refine ⟨isFirst_same_start "users", by decide, ?_, isFirst_same_start "/users", by decide⟩
  unfold Rebuilds
  decide

end ClientGen.BasePath
