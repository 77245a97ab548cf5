import ClientGen.Proofs.Output.Files
import Mathlib.Data.List.Pairwise

/-!
# Distinct files

A run writes every file to a place of its own as long as its directories lie apart and two kinds of
names are not shared: that of an index file with a module or a tag, and that of a hook with another
hook of its tag. The names of endpoints are made distinct before hooks are named after them, but
different endpoints can have one hook name.

* `Output.Apart`: no directory of a run is another one or lies inside another one, and
  `Output.apart_iff`: how that depends on the settings.
* `Output.nodup_locations_iff`: when the locations of files are distinct.
* `Findings.Distinct`: no two files share a name.
* `Run.nodup_files_iff`: when no path occurs twice among the files of a run, and
  `Run.textAt?_of_distinct`: then no file is written over another.
-/

namespace ClientGen

namespace Output

variable {s : Settings} {modules : List String} {groups : List EndpointGroup}

/-! ## Directories -/

/-- The directories that the files of a run are written to. -/
def directories (s : Settings) : List String :=
  [s.models, s.endpoints, s.hooks.directory, s.axios.directory]

/-- No directory of a run is another one or lies inside another one. -/
def Apart (s : Settings) (workingDirectory : List String) : Prop :=
  ((directories s).map fun dir => (directory s dir).absolute workingDirectory).Pairwise
    fun a b => ¬ a <+: b ∧ ¬ b <+: a

instance (s : Settings) (workingDirectory : List String) : Decidable (Apart s workingDirectory) :=
  inferInstanceAs (Decidable (List.Pairwise _ _))

/-- Directories that have names are those of the settings. -/
theorem apart_iff (hnamed : "" ∉ directories s) (workingDirectory : List String) :
    Apart s workingDirectory ↔
      ([s.modelsPath, s.endpointsPath, s.hooksPath, s.axiosPath].map
        (Path.absolute workingDirectory)).Pairwise fun a b => ¬ a <+: b ∧ ¬ b <+: a := by
  have hplaces : (directories s).map (fun dir => (directory s dir).absolute workingDirectory)
      = (directories s).map fun dir => (s.outputPath.child dir).absolute workingDirectory :=
    List.map_congr_left fun dir hdir =>
      Path.absolute_closed (fun h => hnamed (h ▸ hdir)) workingDirectory s.outputPath
  rw [Apart, hplaces]
  rfl

theorem Apart.nodup {workingDirectory : List String} (h : Apart s workingDirectory) :
    (directories s).Nodup := by
  refine (List.pairwise_map.mp h).imp fun {a b} hab heq => hab.1 ?_
  subst heq
  exact List.prefix_rfl

/-- Places below different directories are different. -/
theorem Apart.eq_of_append_eq {workingDirectory : List String} (h : Apart s workingDirectory)
    {a b : String} (ha : a ∈ directories s) (hb : b ∈ directories s) {names names' : List String}
    (heq : (directory s a).absolute workingDirectory ++ names
      = (directory s b).absolute workingDirectory ++ names') : a = b := by
  -- Both directories are on the way to one place, so one of them is on the way to the other.
  have hrelated := List.prefix_or_prefix_of_prefix (List.prefix_append _ names)
    (heq ▸ List.prefix_append _ names')
  by_contra hne
  have hsymm : Std.Symm fun a b : String =>
      ¬ (directory s a).absolute workingDirectory <+: (directory s b).absolute workingDirectory ∧
      ¬ (directory s b).absolute workingDirectory <+: (directory s a).absolute workingDirectory :=
    ⟨fun _ _ h => h.symm⟩
  have hpair := (List.pairwise_map.mp h).forall ha hb hne
  exact hrelated.elim hpair.1 hpair.2

/-! ## Locations -/

/-- Files below different directories have different locations. -/
theorem disjoint_of_directories {a b : String} {as bs : List Location} (hab : a ≠ b)
    (ha : ∀ l ∈ as, l.1 = a) (hb : ∀ l ∈ bs, l.1 = b) : as.Disjoint bs :=
  fun l hla hlb => hab ((ha l hla).symm.trans (hb l hlb))

theorem Location.file_injective (dir : String) : Function.Injective (Location.file dir) := by
  intro x y hxy
  simpa [Location.file, String.append_left_inj] using hxy

theorem directory_of_mem_files {dir : String} {names : List String} :
    ∀ l ∈ names.map (Location.file dir), l.1 = dir :=
  List.forall_mem_map.mpr fun _ _ => rfl

theorem directory_of_mem_hooks : ∀ l ∈ groups.flatMap (hookLocations s),
    l.1 = s.hooks.directory := by
  intro l hl
  obtain ⟨g, -, hl⟩ := List.mem_flatMap.mp hl
  obtain ⟨name, -, rfl⟩ := List.mem_map.mp hl
  rfl

/-- The locations of a run lie in its directories. -/
theorem directory_of_mem_locations : ∀ l ∈ locations s modules groups, l.1 ∈ directories s := by
  intro l hl
  simp only [locations, codeLocations, List.mem_append, List.mem_ite_nil_right] at hl
  rcases hl with (((hl | hl) | ⟨-, hl⟩) | ⟨-, hl⟩) | ⟨-, hl⟩
  · simp [directories, directory_of_mem_files l hl]
  · simp [directories, directory_of_mem_files l hl]
  · simp [directories, directory_of_mem_files l hl]
  · simp [directories, directory_of_mem_hooks l hl]
  · rcases List.mem_pair.mp hl with rfl | rfl <;> simp [directories, Location.file]

/-- The locations of hooks are distinct if the hooks of each tag have different names. -/
theorem nodup_hookLocations_iff (htags : (groups.map EndpointGroup.tag).Nodup) :
    (groups.flatMap (hookLocations s)).Nodup ↔ ∀ g ∈ groups, (hookNames s g).Nodup := by
  have hgroup : ∀ g, (hookLocations s g).Nodup ↔ (hookNames s g).Nodup := by
    intro g
    have hinj : Function.Injective fun name : String =>
        ((s.hooks.directory, [g.tag, name ++ ".ts"]) : Location) := by
      intro x y hxy
      simpa [String.append_left_inj] using hxy
    rw [hookLocations, List.nodup_map_iff hinj]
  -- The directory of a tag tells its hooks from those of other tags.
  have htag : ∀ {g l}, l ∈ hookLocations s g → l.2.head? = some g.tag := by
    intro g l hl
    obtain ⟨name, -, rfl⟩ := List.mem_map.mp hl
    rfl
  have hdisjoint : groups.Pairwise (Function.onFun List.Disjoint (hookLocations s)) := by
    refine (List.pairwise_map.mp htags).imp fun {g g'} hne l hl hl' => hne ?_
    exact Option.some.inj ((htag hl).symm.trans (htag hl'))
  rw [List.nodup_flatMap, and_iff_left hdisjoint]
  exact forall₂_congr fun g _ => hgroup g

/-- The locations of code are distinct if the hooks of each tag have different names. -/
theorem nodup_codeLocations_iff (hdirectories : (directories s).Nodup) (hmodules : modules.Nodup)
    (htags : (groups.map EndpointGroup.tag).Nodup) : (codeLocations s modules groups).Nodup ↔
      (s.hooks.generate → ∀ g ∈ groups, (hookNames s g).Nodup) := by
  have hfiles : ∀ {dir : String} {names : List String},
      (names.map (Location.file dir)).Nodup ↔ names.Nodup :=
    fun {dir _} => List.nodup_map_iff (Location.file_injective dir)
  have hclient : (if s.axios.generate then
      ["axiosInstance", "types"].map (Location.file s.axios.directory) else []).Nodup := by
    split
    · exact hfiles.mpr (by decide)
    · exact List.nodup_nil
  have hhooks : (if s.hooks.generate then groups.flatMap (hookLocations s) else []).Nodup ↔
      (s.hooks.generate → ∀ g ∈ groups, (hookNames s g).Nodup) := by
    rw [← nodup_hookLocations_iff htags]
    split <;> simp [*]
  -- Files of different kinds are in different directories.
  have hinClient : ∀ l ∈ (if s.axios.generate then
      ["axiosInstance", "types"].map (Location.file s.axios.directory) else []),
      l.1 = s.axios.directory :=
    fun l hl => directory_of_mem_files l (List.mem_ite_nil_right.mp hl).2
  have hinHooks : ∀ l ∈ (if s.hooks.generate then groups.flatMap (hookLocations s) else []),
      l.1 = s.hooks.directory :=
    fun l hl => directory_of_mem_hooks l (List.mem_ite_nil_right.mp hl).2
  obtain ⟨⟨hme, hmh, hma⟩, ⟨heh, hea⟩, hha⟩ := by simpa [directories] using hdirectories
  rw [codeLocations, List.nodup_append', List.nodup_append', List.nodup_append']
  simp only [List.disjoint_append_left, hfiles, hmodules, htags, hclient, hhooks,
    disjoint_of_directories hme directory_of_mem_files directory_of_mem_files,
    disjoint_of_directories hma directory_of_mem_files hinClient,
    disjoint_of_directories hea directory_of_mem_files hinClient,
    disjoint_of_directories hmh directory_of_mem_files hinHooks,
    disjoint_of_directories heh directory_of_mem_files hinHooks,
    disjoint_of_directories (Ne.symm hha) hinClient hinHooks, true_and, and_true]

/-- The locations of code that have the name of an index file. -/
theorem index_mem_codeLocations (hdirectories : (directories s).Nodup) (modules : List String)
    (groups : List EndpointGroup) :
    (Location.file s.models "index" ∈ codeLocations s modules groups ↔ "index" ∈ modules) ∧
      (Location.file s.endpoints "index" ∈ codeLocations s modules groups ↔
        "index" ∈ groups.map EndpointGroup.tag) := by
  -- Two directories share no location, so an index can only be met within its own.
  have hfile : ∀ {dir : String} {names : List String},
      Location.file dir "index" ∈ names.map (Location.file dir) ↔ "index" ∈ names :=
    fun {dir _} => List.mem_map_of_injective (Location.file_injective dir)
  have hother : ∀ {dir dir' : String} {names : List String}, dir ≠ dir' →
      Location.file dir "index" ∉ names.map (Location.file dir') :=
    fun hne hmem => hne (directory_of_mem_files _ hmem)
  have hhook : ∀ {dir : String}, dir ≠ s.hooks.directory →
      Location.file dir "index" ∉ groups.flatMap (hookLocations s) :=
    fun hne hmem => hne (directory_of_mem_hooks _ hmem)
  obtain ⟨⟨hme, hmh, hma⟩, ⟨heh, hea⟩, -⟩ := by simpa [directories] using hdirectories
  constructor
  · simp only [codeLocations, List.mem_append, List.mem_ite_nil_right, hfile, hother hme,
      hother hma, hhook hmh, and_false, or_false]
  · simp only [codeLocations, List.mem_append, List.mem_ite_nil_right, hfile, hother (Ne.symm hme),
      hother hea, hhook heh, and_false, or_false, false_or]

/-- The locations of a run are distinct if the names of its index files and hooks are not shared. -/
theorem nodup_locations_iff (hdirectories : (directories s).Nodup) (hmodules : modules.Nodup)
    (htags : (groups.map EndpointGroup.tag).Nodup) :
    (locations s modules groups).Nodup ↔
      (s.index → "index" ∉ modules ∧ "index" ∉ groups.map EndpointGroup.tag) ∧
      (s.hooks.generate → ∀ g ∈ groups, (hookNames s g).Nodup) := by
  have hcode := nodup_codeLocations_iff hdirectories hmodules htags
  obtain ⟨hmodels, hendpoints⟩ := index_mem_codeLocations hdirectories modules groups
  have hne : Location.file s.models "index" ≠ Location.file s.endpoints "index" := fun heq =>
    have hsame : s.models = s.endpoints := congrArg Prod.fst heq
    (List.nodup_cons.mp hdirectories).1 (hsame ▸ List.mem_cons_self)
  rw [locations, List.nodup_append', hcode]
  -- An index file can only meet the code in its own directory.
  cases s.index with
  | false => simp
  | true => simp [List.disjoint_cons_right, hne, hmodels, hendpoints, and_comm]

end Output

namespace Run

open Step

variable {server : String → Response} {s : Settings} {given : Option Node}
  {w w' : Workspace} {summary : Summary} {t : FileTree} {f : Findings}

/-- No two files share a name: an index file none with a module or a tag, a hook none with another
hook of its tag. -/
structure Findings.Distinct (s : Settings) (f : Findings) : Prop where
  /-- The name of the index files is free. -/
  index : s.index → "index" ∉ f.models.modules ∧ "index" ∉ f.groups.map EndpointGroup.tag
  /-- The hooks of each tag have different names. -/
  hooks : s.hooks.generate → ∀ g ∈ f.groups, (Output.hookNames s g).Nodup

theorem Findings.Of.nodup_locations_iff (hf : f.Of server s given t)
    (hdirectories : (Output.directories s).Nodup) :
    (f.locations s).Nodup ↔ f.Distinct s := by
  rw [Findings.locations, Output.nodup_locations_iff hdirectories hf.modules.1 hf.tags.1]
  exact ⟨fun h => ⟨h.1, h.2⟩, fun h => ⟨h.index, h.hooks⟩⟩

/-- Different locations in directories that lie apart are different places. -/
theorem Findings.Of.nodup_places (hf : f.Of server s given t) {workingDirectory : List String}
    (hapart : Output.Apart s workingDirectory) (h : (f.locations s).Nodup) :
    (((f.locations s).map (Output.Location.path s)).map
      (Path.absolute workingDirectory)).Nodup := by
  rw [List.map_map]
  refine h.map_on fun l hl l' hl' heq => ?_
  change (l.path s).absolute workingDirectory = (l'.path s).absolute workingDirectory at heq
  rw [hf.absolute_path hl, hf.absolute_path hl'] at heq
  have hdirectory := hapart.eq_of_append_eq (Output.directory_of_mem_locations l hl)
    (Output.directory_of_mem_locations l' hl') heq
  rw [hdirectory] at heq
  exact Prod.ext hdirectory (List.append_cancel_left heq)

/-- The files of a run whose directories lie apart are distinct, by their paths and by their places,
exactly if no two of them share a name. -/
theorem nodup_files_iff (h : run (generate server s given) w = (.ok summary, w'))
    (hapart : Output.Apart s w.tree.workingDirectory) :
    ∃ f : Findings, f.Of server s given w.tree ∧
      ((summary.files.map Prod.fst).Nodup ↔ f.Distinct s) ∧
      (((summary.files.map Prod.fst).map (Path.absolute w.tree.workingDirectory)).Nodup ↔
        f.Distinct s) := by
  obtain ⟨f, hf, -, hpaths⟩ := exists_findings h
  rw [hf.map_pathOf_files] at hpaths
  refine ⟨f, hf, ?_⟩
  rw [hpaths, ← hf.nodup_locations_iff hapart.nodup]
  -- Distinct locations give distinct places, places distinct paths, and these distinct locations.
  have hplaces := hf.nodup_places hapart
  exact ⟨⟨.of_map _, fun h => .of_map _ (hplaces h)⟩, fun h => .of_map _ (.of_map _ h), hplaces⟩

/-- Where files are distinct, each one holds what was written to it and nothing else. -/
theorem textAt?_of_distinct (ht : w.tree.Stands)
    (h : run (generate server s given) w = (.ok summary, w'))
    (hapart : Output.Apart s w.tree.workingDirectory) :
    ∃ f : Findings, f.Of server s given w.tree ∧ (f.Distinct s →
      ∀ file ∈ f.files s w.tree.workingDirectory,
        w'.tree.textAt? ((pathOf s file).absolute w.tree.workingDirectory)
          = some (file.mode.receive file.text
            (w.tree.textAt? ((pathOf s file).absolute w.tree.workingDirectory)))) := by
  obtain ⟨f, hf, hwrote, -⟩ := exists_findings h
  refine ⟨f, hf, fun hdistinct file hfile => ?_⟩
  have hnodup : ((f.files s w.tree.workingDirectory).map
      fun file => w.tree.place (pathOf s file)).Nodup := by
    have hplaces := hf.nodup_places hapart ((hf.nodup_locations_iff hapart.nodup).mpr hdistinct)
    rw [← hf.map_pathOf_files, List.map_map] at hplaces
    simp only [ht.place_eq]
    exact hplaces
  rw [← ht.place_eq, hwrote.textAt?, writesTo_eq_singleton hfile hnodup]
  rfl

/-- The names of endpoints can differ where those of their hooks do not. -/
example : Naming.hookName "getXY" = Naming.hookName "getXy" := by decide +kernel

/-! ## A document whose names are taken -/

/-- An object with one member. -/
def objectOf (name : String) (node : Node) : Node := .object [(.text name, node)]

/-- A document with three operations. The first one answers with a model of the module `index`, and
the names of the others differ in the case of a letter. -/
def crowdedDocument : Node :=
  objectOf "paths" (.object [
    (.text "/index", objectOf "get" (.object [
      (.text "operationId", .text "getIndex"),
      (.text "responses", objectOf "200" (objectOf "schema" (objectOf "properties"
        (objectOf "kind" (objectOf "enum" (.list [.text "a\r"]))))))])),
    (.text "/x/y", objectOf "get" (.object [])),
    (.text "/xy", objectOf "get" (.object []))])

/-- Settings without the HTTP client and with one hook for each tag, if any. -/
def crowdedSettings (index hooks : Bool) : Settings where
  source := "openapi.json"
  output := "out"
  index
  axios := { generate := false }
  hooks := { generate := hooks, pattern := .combined, skipDependencyCheck := true }

/-- The directory of a project without files. -/
def emptyProject : Workspace where
  tree := .empty ["project"]

/-- No server answers. -/
def noServer (_ : String) : Response := .failed ""

/-- Without index files, and with one hook for the whole tag, the files are distinct. -/
theorem nodup_files_iff_combined : ∃ summary w',
    run (generate noServer (crowdedSettings false true) (some crowdedDocument)) emptyProject
      = (.ok summary, w') ∧
    Output.Apart (crowdedSettings false true) ["project"] ∧
    (summary.files.map Prod.fst).Nodup ∧
    ∃ f : Findings, f.Of noServer (crowdedSettings false true) (some crowdedDocument)
      emptyProject.tree ∧ f.Distinct (crowdedSettings false true) := by
  have hpaths : paths? noServer (crowdedSettings false true) (some crowdedDocument) emptyProject
      = some (["out/models/index.ts", "out/endpoints/default.ts",
        "out/hooks/default/useDefault.ts"].map Path.ofText) := by decide +kernel
  obtain ⟨summary, w', hrun, hfiles⟩ := exists_of_paths? hpaths
  have hapart : Output.Apart (crowdedSettings false true) ["project"] := by decide +kernel
  have hnodup : (summary.files.map Prod.fst).Nodup := by
    rw [hfiles]
    decide +kernel
  obtain ⟨f, hf, hiff, -⟩ := nodup_files_iff hrun hapart
  exact ⟨summary, w', hrun, hapart, hnodup, f, hf, hiff.mp hnodup⟩

/-- The paths of a run with index files: one of them has the name of a module. -/
theorem paths?_crowded :
    paths? noServer (crowdedSettings true false) (some crowdedDocument) emptyProject
      = some (["out/models/index.ts", "out/endpoints/default.ts", "out/models/index.ts",
        "out/endpoints/index.ts"].map Path.ofText) := by
  decide +kernel

/-- A run whose directories lie apart can write two files to one path. -/
theorem exists_repeated_path : ¬ ∀ (server : String → Response) (s : Settings)
    (given : Option Node) (w w' : Workspace) (summary : Summary),
    Output.Apart s w.tree.workingDirectory →
    run (generate server s given) w = (.ok summary, w') → (summary.files.map Prod.fst).Nodup := by
  intro hall
  obtain ⟨summary, w', hrun, hfiles⟩ := exists_of_paths? paths?_crowded
  have hapart : Output.Apart (crowdedSettings true false) ["project"] := by decide +kernel
  have hnodup := hall _ _ _ _ _ _ hapart hrun
  rw [hfiles] at hnodup
  exact absurd hnodup (by decide +kernel)

end Run

end ClientGen
