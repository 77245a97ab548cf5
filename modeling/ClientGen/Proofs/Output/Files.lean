import ClientGen.Proofs.Catalog.Grouping
import ClientGen.Proofs.Failure
import ClientGen.Proofs.Model.Ownership
import ClientGen.Proofs.Output.Paths
import ClientGen.Proofs.Run.Findings

/-!
# The paths of generated files

Every generated file stands below one of four directories, under names that are made of letters and
digits.

* `Catalog.tags_of_ofDocument`, `EndpointGroup.tags_of_ofCatalog`: the tags of a catalog.
* `Output.Location`: a file by its directory and the names below it.
* `Findings.locations`: the files of a run, and `Findings.Of.map_pathOf_files`: their paths.
* `Findings.Of.absolute_path`: where they are written.
-/

namespace ClientGen

/-! ## Tags -/

/-- A name that is made of letters and digits, and not empty. -/
structure IsTag (tag : String) : Prop where
  /-- It is not empty. -/
  ne_empty : tag ≠ ""
  /-- It consists of letters and digits. -/
  alphanumeric : ∀ c ∈ tag.toList, Text.isAsciiAlphanumeric c

/-- A name is a tag exactly if it is not empty and all its characters are letters or digits. -/
theorem isTag_iff {tag : String} :
    IsTag tag ↔ tag ≠ "" ∧ tag.toList.all Text.isAsciiAlphanumeric :=
  ⟨fun h => ⟨h.ne_empty, List.all_eq_true.mpr h.alphanumeric⟩,
    fun h => ⟨h.1, List.all_eq_true.mp h.2⟩⟩

instance (tag : String) : Decidable (IsTag tag) := decidable_of_iff _ isTag_iff.symm

/-- The names of the files that do not depend on the document. -/
theorem isTag_fixed : IsTag "axiosInstance" ∧ IsTag "types" ∧ IsTag "index" := by
  decide

/-- A tag can stand as a segment of a path. -/
theorem IsTag.isSegment {tag : String} (h : IsTag tag) : Path.IsSegment tag :=
  Path.isSegment_of_alphanumeric h.ne_empty h.alphanumeric

/-- The tag of operations without one is a tag. -/
theorem isTag_default : IsTag Naming.defaultTag := by
  decide

/-- A name made from any text for a tag is a tag. -/
theorem isTag_tagName (tag : String) : IsTag (Naming.tagName tag) := by
  unfold Naming.tagName
  dsimp only
  split
  · exact isTag_default
  · rename_i h
    exact ⟨by simpa using h, fun c hc => Naming.alphanumeric_camelCase tag hc⟩

/-- The tag of an operation is a tag. -/
theorem isTag_tagOf (raw : Fields) : IsTag (Document.tagOf raw) := by
  unfold Document.tagOf
  split
  · exact isTag_tagName _
  · exact isTag_default

/-- The operations of a document have tags that are names. -/
theorem Document.isTag_of_operations {document : Node} {basePaths : List String}
    {os : List Operation} (h : operations document basePaths = .ok os) :
    ∀ o ∈ os, IsTag o.tag := by
  intro o ho
  obtain ⟨items, -, item, -, raw, -, hmade⟩ := exists_of_mem_operations h ho
  rw [eq_of_operation hmade]
  exact isTag_tagOf _

namespace Catalog

variable {catalog : Catalog}

/-- The tags of a catalog are different names. -/
theorem tags_of_ofDocument {document : Node} {basePaths : List String}
    (h : ofDocument document basePaths = .ok catalog) :
    (catalog.map Prod.fst).Nodup ∧ ∀ tag ∈ catalog.map Prod.fst, IsTag tag := by
  obtain ⟨os, hos, hgroups⟩ := exists_of_ofDocument h
  refine ⟨hgroups.distinct, fun tag htag => ?_⟩
  rw [hgroups.tags, List.mem_eraseDups] at htag
  obtain ⟨o, ho, rfl⟩ := List.mem_map.mp htag
  exact Document.isTag_of_operations hos o ho

end Catalog

/-- The groups of a catalog have its tags. -/
theorem EndpointGroup.tags_of_ofCatalog {models : ModelSet} {catalog : Catalog}
    {groups : List EndpointGroup} (h : ofCatalog models catalog = .ok groups) :
    groups.map EndpointGroup.tag = catalog.map Prod.fst := by
  have hall := forall₂_of_mapM h
  clear h
  induction hall with
  | nil => rfl
  | @cons entry g _ _ hgroup _ ih =>
    -- A group is made of one tag and its operations.
    have htag : g.tag = entry.1 := by
      cases hendpoints : Endpoint.ofOperations models entry.2 with
      | error e => simp [hendpoints, bind, Except.bind] at hgroup
      | ok endpoints =>
        simp only [hendpoints, bind, Except.bind, pure, Except.pure] at hgroup
        rw [← Except.ok.inj hgroup]
    rw [List.map_cons, List.map_cons, htag, ih]

/-! ## Directories and names -/

namespace Output

variable {s : Settings}

/-- A directory that files are written to. -/
def directory (s : Settings) (dir : String) : Path := s.outputPath.child (dir ++ "/")

/-- A file by its directory and the names below it. -/
abbrev Location := String × List String

/-- The path of a file. -/
def Location.path (s : Settings) (l : Location) : Path := (directory s l.1).below l.2

/-- The names of the hooks of a group. -/
def hookNames (s : Settings) (g : EndpointGroup) : List String :=
  match s.hooks.pattern with
  | .combined => [g.hookName]
  | .separate => g.endpoints.map Endpoint.hookName

/-- The files of the hooks of a group go by the names of the hooks. -/
theorem map_name_hookTexts (s : Settings) (workingDirectory : List String) (models : ModelSet)
    (g : EndpointGroup) :
    (hookTexts s workingDirectory models g).map (fun h => h.1.name) = hookNames s g := by
  unfold hookTexts hookNames
  cases s.hooks.pattern with
  | combined => rfl
  | separate =>
    rw [List.map_map]
    rfl

/-- The files of the hooks of a group. -/
def hookLocations (s : Settings) (g : EndpointGroup) : List Location :=
  (hookNames s g).map fun name => (s.hooks.directory, [g.tag, name ++ ".ts"])

/-- A file in one of the directories. -/
def Location.file (dir name : String) : Location := (dir, [name ++ ".ts"])

/-- The files with the code for some modules and groups, in the order of writing. -/
def codeLocations (s : Settings) (modules : List String) (groups : List EndpointGroup) :
    List Location :=
  modules.map (.file s.models)
    ++ (groups.map EndpointGroup.tag).map (.file s.endpoints)
    ++ (if s.axios.generate then ["axiosInstance", "types"].map (.file s.axios.directory) else [])
    ++ (if s.hooks.generate then groups.flatMap (hookLocations s) else [])

/-- The files for some modules and groups: those with the code, and those that gather it. -/
def locations (s : Settings) (modules : List String) (groups : List EndpointGroup) :
    List Location :=
  codeLocations s modules groups
    ++ (if s.index then [.file s.models "index", .file s.endpoints "index"] else [])

end Output

namespace Run

variable {s : Settings} {server : String → Response} {given : Option Node} {t : FileTree}
  {f : Findings}

/-- The files of a run by their directories and names, in the order of writing. -/
def Findings.locations (s : Settings) (f : Findings) : List Output.Location :=
  Output.locations s f.models.modules f.groups

/-- The modules are different, and their names are made of letters and digits. -/
theorem Findings.Of.modules (hf : f.Of server s given t) : f.models.modules.Nodup ∧
    ∀ module ∈ f.models.modules, ∀ c ∈ module.toList, Text.isAsciiAlphanumeric c := by
  obtain ⟨session, hrun⟩ := hf.models
  obtain ⟨haccounted, -⟩ := Generation.accounted_models hrun
  refine ⟨haccounted.consistent.modules, fun module hmodule c hc => ?_⟩
  obtain ⟨resource, rfl⟩ := haccounted.modules module hmodule
  exact Naming.alphanumeric_camelCase resource hc

/-- The tags are different, and they are made of letters and digits. -/
theorem Findings.Of.tags (hf : f.Of server s given t) : (f.groups.map EndpointGroup.tag).Nodup ∧
    ∀ g ∈ f.groups, IsTag g.tag := by
  obtain ⟨hnodup, htags⟩ := Catalog.tags_of_ofDocument hf.catalog
  rw [← EndpointGroup.tags_of_ofCatalog hf.groups] at hnodup htags
  exact ⟨hnodup, fun g hg => htags _ (List.mem_map_of_mem hg)⟩

/-- The name of a hook has letters and digits only. -/
theorem alphanumeric_hookName {g : EndpointGroup} {name : String}
    (h : name ∈ Output.hookNames s g) : ∀ c ∈ name.toList, Text.isAsciiAlphanumeric c := by
  -- A hook is named by `use` and a name in Pascal case.
  have huse : ∀ text c, c ∈ ("use" ++ Naming.pascalCase text).toList →
      Text.isAsciiAlphanumeric c := by
    intro text c hc
    rw [String.toList_append, List.mem_append] at hc
    rcases hc with hc | hc
    · have hall : "use".toList.all Text.isAsciiAlphanumeric := by decide
      exact List.all_eq_true.mp hall c hc
    · exact Naming.alphanumeric_pascalCase text hc
  unfold Output.hookNames at h
  split at h
  · rw [List.mem_singleton.mp h]
    exact huse _
  · obtain ⟨e, -, rfl⟩ := List.mem_map.mp h
    exact huse _

/-- The path of the file of a hook. -/
theorem path_hook {g : EndpointGroup} (htag : IsTag g.tag) {name : String}
    (hname : name ∈ Output.hookNames s g) :
    s.outputPath.child (s.hooks.directory ++ "/" ++ g.tag ++ "/" ++ name ++ ".ts")
      = Output.Location.path s (s.hooks.directory, [g.tag, name ++ ".ts"]) := by
  have hpath := htag.isSegment.child_child (Path.isSegment_file (alphanumeric_hookName hname))
    s.outputPath s.hooks.directory
  rwa [← String.append_assoc] at hpath

/-- The files of the hooks are those of the groups. -/
theorem map_pathOf_hookFiles (s : Settings) (models : ModelSet) {groups : List EndpointGroup}
    (workingDirectory : List String) (htags : ∀ g ∈ groups, IsTag g.tag) :
    (Output.hookFiles s workingDirectory models groups).map (pathOf s)
      = (groups.flatMap (Output.hookLocations s)).map (Output.Location.path s) := by
  unfold Output.hookFiles
  rw [List.map_flatMap, List.map_flatMap]
  refine List.flatMap_congr fun g hg => ?_
  have hnames := Output.map_name_hookTexts s workingDirectory models g
  rw [Output.hookLocations, ← hnames, List.map_map, List.map_map, List.map_map]
  refine List.map_congr_left fun h hh => ?_
  exact path_hook (htags g hg) (hnames ▸ List.mem_map_of_mem hh)

/-- The files of a run have the paths of their locations. -/
theorem Findings.Of.map_pathOf_files (hf : f.Of server s given t)
    (workingDirectory : List String) :
    (f.files s workingDirectory).map (pathOf s)
      = (f.locations s).map (Output.Location.path s) := by
  -- A name of letters and digits is one segment, so its file stands right in its directory.
  have hfile : ∀ (dir name : String), (∀ c ∈ name.toList, Text.isAsciiAlphanumeric c) →
      s.outputPath.child (dir ++ ("/" ++ (name ++ ".ts")))
        = (Output.Location.file dir name).path s := by
    intro dir name hname
    rw [← String.append_assoc]
    exact (Path.isSegment_file hname).child s.outputPath dir
  have hnames : ∀ (dir : String) {names : List String},
      (∀ name ∈ names, ∀ c ∈ name.toList, Text.isAsciiAlphanumeric c) →
      names.map (fun name => s.outputPath.child (dir ++ "/" ++ name ++ ".ts"))
        = (names.map (.file dir)).map (Output.Location.path s) := by
    intro dir names hall
    rw [List.map_map]
    refine List.map_congr_left fun name hname => ?_
    rw [Function.comp_apply, ← hfile dir name (hall name hname)]
    simp only [String.append_assoc]
  have hmodels : (Output.modelFiles s f.models).map (pathOf s)
      = (f.models.modules.map (.file s.models)).map (Output.Location.path s) := by
    rw [← hnames s.models hf.modules.2, Output.modelFiles, List.map_map]
    rfl
  have hendpoints : (Output.endpointFiles s f.groups).map (pathOf s)
      = ((f.groups.map EndpointGroup.tag).map (.file s.endpoints)).map
        (Output.Location.path s) := by
    have htags : ∀ tag ∈ f.groups.map EndpointGroup.tag, ∀ c ∈ tag.toList,
        Text.isAsciiAlphanumeric c :=
      List.forall_mem_map.mpr fun g hg => (hf.tags.2 g hg).alphanumeric
    rw [← hnames s.endpoints htags, Output.endpointFiles, List.map_map, List.map_map]
    rfl
  have haxios : (Output.clientFiles s).map (pathOf s)
      = (["axiosInstance", "types"].map (.file s.axios.directory)).map (Output.Location.path s) :=
    congrArg₂ (fun a b => [a, b])
      (hfile s.axios.directory "axiosInstance" isTag_fixed.1.alphanumeric)
      (hfile s.axios.directory "types" isTag_fixed.2.1.alphanumeric)
  have hindex : (Output.indexFiles s f.models f.groups).map (pathOf s)
      = [.file s.models "index", .file s.endpoints "index"].map (Output.Location.path s) :=
    congrArg₂ (fun a b => [a, b])
      (hfile s.models "index" isTag_fixed.2.2.alphanumeric)
      (hfile s.endpoints "index" isTag_fixed.2.2.alphanumeric)
  have hhooks := map_pathOf_hookFiles s f.models workingDirectory hf.tags.2
  rw [Findings.files, Output.groupFiles, Findings.locations, Output.locations,
    Output.codeLocations]
  simp only [List.map_append, apply_ite (List.map _), List.append_assoc, hmodels, hendpoints,
    haxios, hhooks, hindex, List.map_nil]

/-- The name of a file is a segment with the ending of its kind, and so are the names above it. -/
theorem Findings.Of.exists_name (hf : f.Of server s given t) {l : Output.Location}
    (hl : l ∈ f.locations s) : ".." ∉ l.2 ∧ ∃ front x, l.2 = front ++ [x ++ ".ts"] := by
  -- Such a file name is no step up.
  have hfile : ∀ (dir : String) {name : String},
      (∀ c ∈ name.toList, Text.isAsciiAlphanumeric c) →
      ".." ∉ (Output.Location.file dir name).2 ∧
        ∃ front x, (Output.Location.file dir name).2 = front ++ [x ++ ".ts"] := by
    intro dir name hname
    have hdots := (Path.isSegment_file hname).ne_dots
    exact ⟨by simpa [Output.Location.file] using hdots.symm, [], name, rfl⟩
  simp only [Findings.locations, Output.locations, Output.codeLocations, List.mem_append,
    List.mem_ite_nil_right] at hl
  rcases hl with (((hl | hl) | ⟨-, hl⟩) | ⟨-, hl⟩) | ⟨-, hl⟩
  · obtain ⟨module, hmodule, rfl⟩ := List.mem_map.mp hl
    exact hfile _ (hf.modules.2 module hmodule)
  · rw [List.map_map] at hl
    obtain ⟨g, hg, rfl⟩ := List.mem_map.mp hl
    exact hfile _ (hf.tags.2 g hg).alphanumeric
  · rcases List.mem_pair.mp hl with rfl | rfl
    · exact hfile _ isTag_fixed.1.alphanumeric
    · exact hfile _ isTag_fixed.2.1.alphanumeric
  · obtain ⟨g, hg, hl⟩ := List.mem_flatMap.mp hl
    obtain ⟨name, hname, rfl⟩ := List.mem_map.mp hl
    have hdots := (Path.isSegment_file (alphanumeric_hookName hname)).ne_dots
    have htag := (hf.tags.2 g hg).isSegment.ne_dots
    exact ⟨by simpa [Ne.symm htag] using hdots.symm, [g.tag], name, rfl⟩
  · rcases List.mem_pair.mp hl with rfl | rfl <;> exact hfile _ isTag_fixed.2.2.alphanumeric

/-- Where the file of a location is written. -/
theorem Findings.Of.absolute_path (hf : f.Of server s given t) {l : Output.Location}
    (hl : l ∈ f.locations s) (workingDirectory : List String) :
    (l.path s).absolute workingDirectory
      = (Output.directory s l.1).absolute workingDirectory ++ l.2 :=
  Path.absolute_below (hf.exists_name hl).1 workingDirectory _

end Run

end ClientGen
