import ClientGen.Proofs.Model.Imports
import ClientGen.Proofs.Run.Distinct

/-!
# Names in the paths of files

Operation ids, tags, paths and names of components are arbitrary texts. Whatever they are, the names
that files get from them are made of ASCII letters and digits and are not empty: a document cannot
lead out of the directories of the settings.

* `Naming.isTag_resourceName`: the resource of an operation id.
* `Operation.isTag_module`: the module of an operation.
* `Generation.exists_operation_of_mem_modules`: the modules of a pass are those of its operations.
* `Output.isTag_hookNames`: the hooks of a group.
* `Output.names_of_ofDocument`: the names of all files that are made from a document.
-/

namespace ClientGen

/-! ## Letters and digits in another case -/

namespace Text

variable {c d : Char} {cs : List Char}

/-- A letter or digit stays one in upper case. -/
theorem alphanumeric_upperChar (h : isAsciiAlphanumeric c) (hd : d ∈ upperChar c) :
    isAsciiAlphanumeric d := by
  have hall : ∀ n < 128, isAsciiAlphanumeric (Char.ofNat n) →
      (upperChar (Char.ofNat n)).all isAsciiAlphanumeric := by decide +kernel
  have hc := of_ascii (p := fun c => isAsciiAlphanumeric c → (upperChar c).all isAsciiAlphanumeric)
    hall (toNat_lt_of_isAsciiAlphanumeric h) h
  exact List.all_eq_true.mp hc d hd

/-- A capitalised text of letters and digits has letters and digits only. -/
theorem alphanumeric_capitalize (h : ∀ c ∈ cs, isAsciiAlphanumeric c) (hd : d ∈ capitalize cs) :
    isAsciiAlphanumeric d := by
  cases cs with
  | nil => simp [capitalize] at hd
  | cons c cs =>
    rw [capitalize, List.mem_append] at hd
    rcases hd with hd | hd
    · exact alphanumeric_upperChar (h c List.mem_cons_self) hd
    · exact h d (List.mem_cons_of_mem _ hd)

/-- A capitalised text of letters and digits is not empty if the text is not. -/
theorem capitalize_ne_nil (h : ∀ c ∈ cs, isAsciiAlphanumeric c) (hne : cs ≠ []) :
    capitalize cs ≠ [] := by
  cases cs with
  | nil => exact absurd rfl hne
  | cons c cs =>
    have hc := toNat_lt_of_isAsciiAlphanumeric (h c List.mem_cons_self)
    rw [capitalize, upperChar, if_pos hc]
    exact List.cons_ne_nil _ _

end Text

/-! ## Resources -/

open Text

/-- Letters and digits, at least one of them, make a tag. -/
theorem isTag_ofList {cs : List Char} (hne : cs ≠ []) (h : ∀ c ∈ cs, isAsciiAlphanumeric c) :
    IsTag (String.ofList cs) :=
  ⟨fun heq => hne (by simpa using heq), by simpa using h⟩

/-- A tag has a character. -/
theorem IsTag.toList_ne_nil {tag : String} (h : IsTag tag) : tag.toList ≠ [] :=
  fun heq => h.ne_empty (by simpa using heq)

namespace Naming

variable {name word : String}

/-- A word of a name is made of letters and digits. -/
theorem isTag_of_mem_splitWords (h : word ∈ splitWords name) : IsTag word := by
  obtain ⟨w, hw, rfl⟩ := List.mem_map.mp h
  refine isTag_ofList (ne_nil_of_mem_words hw) fun c hc => ?_
  have hmem : c ∈ (words name.toList).flatten := List.mem_flatten.mpr ⟨w, hw, hc⟩
  rw [flatten_words] at hmem
  exact (List.mem_filter.mp hmem).2

/-- A capitalised tag is a tag. -/
theorem isTag_capitalizeName (h : IsTag word) : IsTag (capitalizeName word) :=
  isTag_ofList (capitalize_ne_nil h.alphanumeric h.toList_ne_nil)
    fun _ hc => alphanumeric_capitalize h.alphanumeric hc

/-- A name in Pascal case has as many letters and digits as the name. -/
theorem isTag_pascalCase (h : IsTag name) : IsTag (pascalCase name) := by
  refine ⟨fun heq => h.toList_ne_nil ?_, fun c hc => alphanumeric_pascalCase name hc⟩
  have hlength := length_pascalCase name
  rw [heq, List.filter_eq_self.mpr h.alphanumeric] at hlength
  exact List.length_eq_zero_iff.mp hlength.symm

/-- A tag in camel case is a tag. -/
theorem isTag_camelCase (h : IsTag name) : IsTag (camelCase name) :=
  isTag_ofList
    (uncapitalize_ne_nil (isTag_pascalCase h).alphanumeric (isTag_pascalCase h).toList_ne_nil)
    fun _ hc => alphanumeric_uncapitalize (isTag_pascalCase h).alphanumeric hc

/-- The singular of a word may be empty, but it has no other characters. -/
theorem alphanumeric_singular (h : ∀ c ∈ word.toList, isAsciiAlphanumeric c) :
    ∀ c ∈ (singular word).toList, isAsciiAlphanumeric c := by
  have hdrop : ∀ n, ∀ c ∈ (dropLetters n word).toList, isAsciiAlphanumeric c := by
    intro n c hc
    rw [dropLetters, String.toList_ofList] at hc
    exact h c (List.mem_of_mem_take hc)
  have hending : ∀ n (ending : String), ending.toList.all isAsciiAlphanumeric →
      ∀ c ∈ (dropLetters n word ++ ending).toList, isAsciiAlphanumeric c := by
    intro n ending hall c hc
    rw [String.toList_append, List.mem_append] at hc
    exact hc.elim (hdrop n c) (List.all_eq_true.mp hall c)
  unfold singular
  dsimp only
  split
  · -- An irregular plural stands for a word of a short list.
    rename_i form hform
    have hall : ∀ p ∈ irregularSingulars, p.2.toList.all isAsciiAlphanumeric := by decide
    have hmem := (lookup_eq_some_iff_mem (by decide)).mp hform
    have hletters := List.all_eq_true.mp (hall _ hmem)
    split
    · intro c hc
      rw [capitalizeName, String.toList_ofList] at hc
      exact alphanumeric_capitalize hletters hc
    · exact hletters
  · split
    · exact hending 3 "y" (by decide)
    · split
      · exact hending 3 "f" (by decide)
      · split
        · exact hdrop 2
        · split
          · exact hdrop 1
          · exact h

/-- A word whose singular is empty stands for itself. -/
theorem isTag_resourceWord (h : IsTag word) : IsTag (resourceWord word) := by
  have hname := isTag_capitalizeName h
  unfold resourceWord
  dsimp only
  split
  · exact hname
  · rename_i hne
    exact ⟨by simpa using hne, alphanumeric_singular hname.alphanumeric⟩

/-- The resource of an operation id is made of letters and digits, whatever the id. -/
theorem isTag_resourceName (operationId : String) : IsTag (resourceName operationId) := by
  unfold resourceName
  dsimp only
  split
  · rename_i w hfound
    exact isTag_resourceWord (isTag_of_mem_splitWords (List.mem_of_find?_eq_some hfound))
  · split
    · rename_i w ws hwords
      exact isTag_capitalizeName (isTag_of_mem_splitWords (hwords ▸ List.mem_cons_self))
    · decide

end Naming

/-! ## Operations and modules -/

/-- The module of an operation with a tag: after its operation id, or else after the tag. -/
theorem Operation.isTag_module {o : Operation} (h : IsTag o.tag) :
    IsTag (Naming.camelCase o.resource) := by
  refine Naming.isTag_camelCase ?_
  unfold resource
  split
  · exact Naming.isTag_resourceName _
  · exact Naming.isTag_pascalCase h

namespace Catalog

variable {catalog : Catalog} {o : Operation}

/-- The operations of a catalog have tags that are names. -/
theorem isTag_of_mem_operations {document : Node} {basePaths : List String}
    (h : ofDocument document basePaths = .ok catalog) (ho : o ∈ catalog.operations) :
    IsTag o.tag := by
  obtain ⟨os, hos, hgroups⟩ := exists_of_ofDocument h
  exact Document.isTag_of_operations hos o (hgroups.conserved.mem_iff.mp ho)

end Catalog

namespace Generation

open Expansion

variable {e : Expander}

/-- Expanding a schema of an operation makes no module but that of the operation. -/
theorem modules_expand (types : OperationTypes) (label suffix : String) (models : ModelSet)
    (schema : Option Fields) :
    Returns (fun r => ∀ m ∈ r.1.modules, m ∈ models.modules ∨ m = types.module)
      (expand e types label suffix models schema) := by
  cases schema with
  | none => exact returns_pure fun m => .inl
  | some schema =>
    refine returns_then fun ds => returns_then fun type => returns_pure fun m hm => ?_
    exact ModelSet.mem_modules_add hm

/-- Nor does expanding all schemas of an operation. -/
theorem modules_forOperation (models : ModelSet) (o : Operation) :
    Returns (fun models' => ∀ m ∈ models'.modules,
      m ∈ models.modules ∨ m = Naming.camelCase o.resource) (forOperation e models o) := by
  refine returns_then fun request => returns_then fun response => returns_then fun query => ?_
  -- Each of the three schemas may be the one that makes the module.
  refine (modules_expand _ _ _ models request).bind fun first h₁ => ?_
  refine (modules_expand _ _ _ first.1 response).bind fun second h₂ => ?_
  refine (modules_expand _ _ _ second.1 query).bind fun third h₃ => returns_pure fun m hm => ?_
  rcases h₃ m hm with hm | hm
  · rcases h₂ m hm with hm | hm
    · exact h₁ m hm
    · exact .inr hm
  · exact .inr hm

/-- Going through operations adds no modules but those of the operations. -/
theorem modules_foldlM (models : ModelSet) (os : List Operation) :
    Returns (fun models' => ∀ m ∈ models'.modules,
      m ∈ models.modules ∨ ∃ o ∈ os, m = Naming.camelCase o.resource)
      (os.foldlM (forOperation e) models) := by
  induction os generalizing models with
  | nil => exact returns_pure fun m => .inl
  | cons o os ih =>
    rw [List.foldlM_cons]
    intro s models' t hr
    obtain ⟨models₁, u, hfirst, hrest⟩ := run_bind_eq_ok_iff.mp hr
    intro m hm
    rcases ih models₁ _ _ _ hrest m hm with hm | ⟨o', ho', rfl⟩
    · rcases modules_forOperation models o _ _ _ hfirst m hm with hm | rfl
      · exact .inl hm
      · exact .inr ⟨o, List.mem_cons_self, rfl⟩
    · exact .inr ⟨o', List.mem_cons_of_mem _ ho', rfl⟩

/-- The modules of a pass are those of the operations. -/
theorem exists_operation_of_mem_modules {catalog : Catalog} {s t : Session} {models : ModelSet}
    (h : (Generation.models e catalog).run s = (.ok models, t)) {m : String}
    (hm : m ∈ models.modules) : ∃ o ∈ catalog.operations, m = Naming.camelCase o.resource := by
  obtain ⟨_, u, -, hfold⟩ := run_bind_eq_ok_iff.mp h
  rcases modules_foldlM {} catalog.operations _ _ _ hfold m hm with hm | ho
  · exact absurd hm List.not_mem_nil
  · exact ho

/-- The modules of a pass over the operations of a document have names of letters and digits, which
are not empty. -/
theorem isTag_of_mem_modules {document : Node} {basePaths : List String} {catalog : Catalog}
    (hcatalog : Catalog.ofDocument document basePaths = .ok catalog) {s t : Session}
    {models : ModelSet} (h : (Generation.models e catalog).run s = (.ok models, t)) :
    ∀ module ∈ models.modules, IsTag module := by
  intro module hmodule
  obtain ⟨o, ho, rfl⟩ := exists_operation_of_mem_modules h hmodule
  exact Operation.isTag_module (Catalog.isTag_of_mem_operations hcatalog ho)

end Generation

/-! ## Files -/

namespace Output

variable {s : Settings} {g : EndpointGroup} {name : String}

/-- A hook has a name of letters and digits, which is not empty. -/
theorem isTag_hookNames (h : name ∈ hookNames s g) : IsTag name := by
  refine ⟨?_, Run.alphanumeric_hookName h⟩
  have huse : ∀ text, "use" ++ text ≠ "" := fun text heq => by
    have hlength := congrArg String.length heq
    rw [String.length_append] at hlength
    exact absurd hlength (by simp)
  unfold hookNames at h
  split at h
  · rw [List.mem_singleton.mp h]
    exact huse _
  · obtain ⟨e, -, rfl⟩ := List.mem_map.mp h
    exact huse _

/-- The name of the file is a directory of the settings with names of letters and digits below. -/
def Confined (s : Settings) (file : GeneratedFile) : Prop :=
  ∃ dir ∈ directories s, ∃ names, names ≠ [] ∧ (∀ name ∈ names, IsTag name) ∧
    file.name = dir ++ "/" ++ "/".intercalate names ++ ".ts"

/-- A file with the name of a tag in one of the directories is confined. -/
theorem confined_single {file : GeneratedFile} {dir : String} (hdir : dir ∈ directories s)
    (hname : IsTag name) (h : file.name = dir ++ ("/" ++ (name ++ ".ts"))) : Confined s file := by
  refine ⟨dir, hdir, [name], List.cons_ne_nil _ _, by simpa using hname, ?_⟩
  rw [h, String.intercalate_singleton, String.append_assoc, String.append_assoc]

/-- Whatever stands in a document, the names of its modules, tags and hooks are made of letters and
digits and are not empty, and so are all names below the directories of the settings in the names of
the files. -/
theorem names_of_ofDocument {document : Node} {basePaths : List String} {catalog : Catalog}
    (hcatalog : Catalog.ofDocument document basePaths = .ok catalog) {e : Expander}
    {before after : Session} {models : ModelSet}
    (hmodels : (Generation.models e catalog).run before = (.ok models, after))
    {groups : List EndpointGroup} (hgroups : EndpointGroup.ofCatalog models catalog = .ok groups)
    (s : Settings) (workingDirectory : List String) :
    (∀ module ∈ models.modules, IsTag module) ∧
      (∀ g ∈ groups, IsTag g.tag ∧ ∀ name ∈ hookNames s g, IsTag name) ∧
      ∀ file ∈ modelFiles s models ++ groupFiles s workingDirectory models groups,
        Confined s file := by
  have hmodules := Generation.isTag_of_mem_modules hcatalog hmodels
  have htags : ∀ g ∈ groups, IsTag g.tag := by
    intro g hg
    refine (Catalog.tags_of_ofDocument hcatalog).2 _ ?_
    rw [← EndpointGroup.tags_of_ofCatalog hgroups]
    exact List.mem_map_of_mem hg
  refine ⟨hmodules, fun g hg => ⟨htags g hg, fun name => isTag_hookNames⟩, fun file hfile => ?_⟩
  simp only [groupFiles, List.mem_append, List.mem_ite_nil_right] at hfile
  have hdirs : s.models ∈ directories s ∧ s.endpoints ∈ directories s ∧
      s.hooks.directory ∈ directories s ∧ s.axios.directory ∈ directories s := by
    simp [directories]
  -- Models, endpoints, the client, hooks, and the files that gather the first two.
  rcases hfile with hfile | (((hfile | ⟨-, hfile⟩) | ⟨-, hfile⟩) | ⟨-, hfile⟩)
  · obtain ⟨module, hmodule, rfl⟩ := List.mem_map.mp hfile
    exact confined_single hdirs.1 (hmodules module hmodule) (by simp only [String.append_assoc])
  · obtain ⟨g, hg, rfl⟩ := List.mem_map.mp hfile
    exact confined_single hdirs.2.1 (htags g hg) (by simp only [String.append_assoc])
  · rcases List.mem_pair.mp hfile with rfl | rfl
    · exact confined_single hdirs.2.2.2 isTag_fixed.1 rfl
    · exact confined_single hdirs.2.2.2 isTag_fixed.2.1 rfl
  · obtain ⟨g, hg, hfile⟩ := List.mem_flatMap.mp hfile
    obtain ⟨h, hh, rfl⟩ := List.mem_map.mp hfile
    have hname : h.1.name ∈ hookNames s g :=
      map_name_hookTexts s workingDirectory models g ▸ List.mem_map_of_mem hh
    refine ⟨s.hooks.directory, hdirs.2.2.1, [g.tag, h.1.name], List.cons_ne_nil _ _, ?_, ?_⟩
    · simpa using ⟨htags g hg, isTag_hookNames hname⟩
    · simp [String.append_assoc]
  · rcases List.mem_pair.mp hfile with rfl | rfl
    · exact confined_single hdirs.1 isTag_fixed.2.2 rfl
    · exact confined_single hdirs.2.1 isTag_fixed.2.2 rfl

/-! ## A document that tries to lead elsewhere -/

/-- An operation that answers with an object. -/
def climbingOperation (operationId tag : String) : Node :=
  .object [(.text "operationId", .text operationId), (.text "tags", .list [.text tag]),
    (.text "responses", .object [(.text "200", .object [(.text "schema",
      .object [(.text "type", .text "object")])])])]

/-- A document with a path, tags and operation ids that climb up. One tag and one operation id have
no ASCII letters, and the other operation id has a plural ending only. -/
def climbingDocument : Node :=
  .object [(.text "paths", .object [
    (.text "/../../etc", .object [(.text "get", climbingOperation "../../S" "../a/b")]),
    (.text "..", .object [(.text "post", climbingOperation "é/.." "..")])])]

set_option maxRecDepth 4096 in
/-- What is derived from the document. -/
theorem exists_names_climbingDocument : ∃ catalog models groups t,
    Catalog.ofDocument climbingDocument [] = .ok catalog ∧
    (Generation.models ⟨climbingDocument, 64⟩ catalog).run {} = (.ok models, t) ∧
    EndpointGroup.ofCatalog models catalog = .ok groups ∧
    models.modules = ["s", "unknown"] ∧ groups.map EndpointGroup.tag = ["aB", "default"] :=
  ⟨_, _, _, _, rfl, rfl, rfl, rfl, rfl⟩

/-- The names stay inside the directories. -/
theorem names_of_ofDocument_climbing : ∃ catalog models groups t,
    Catalog.ofDocument climbingDocument [] = .ok catalog ∧
    (Generation.models ⟨climbingDocument, 64⟩ catalog).run {} = (.ok models, t) ∧
    EndpointGroup.ofCatalog models catalog = .ok groups ∧
    (∀ module ∈ models.modules, IsTag module) ∧
    (∀ g ∈ groups, IsTag g.tag ∧ ∀ name ∈ hookNames (Run.crowdedSettings true true) g,
      IsTag name) ∧
    ∀ file ∈ modelFiles (Run.crowdedSettings true true) models
        ++ groupFiles (Run.crowdedSettings true true) ["project"] models groups,
      Confined (Run.crowdedSettings true true) file := by
  obtain ⟨catalog, models, groups, t, hcatalog, hmodels, hgroups, -⟩ :=
    exists_names_climbingDocument
  exact ⟨catalog, models, groups, t, hcatalog, hmodels, hgroups,
    names_of_ofDocument hcatalog hmodels hgroups _ _⟩

end Output

end ClientGen
