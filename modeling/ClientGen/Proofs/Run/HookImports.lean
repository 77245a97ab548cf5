import ClientGen.Proofs.Output.Specifiers
import ClientGen.Proofs.Output.TypeImports
import ClientGen.Proofs.Run.Names

/-!
# What hooks import

The files of a run are written below a directory and a slash. The specifiers in hooks are computed
from the directory alone. Both mean the same place, unless the directory is the empty text and the
output directory is not the root: then the slash leads to the root.

* `Output.absolute_directory_eq_iff`: when a directory is where it is looked for.
* `Hook.specifiers`: what a hook imports of the run, and `Path.sourceOf`: the file behind a
  specifier.
* `Run.hook_imports_written`: what the hooks of a run import is written in the run.
* `Run.hook_imports_missing`: in settings with an empty directory it need not be.
-/

namespace ClientGen

namespace Path

variable {x : String}

/-- A name below a path. -/
theorem IsSegment.absolute_child (h : IsSegment x) (workingDirectory : List String) (p : Path) :
    (p.child x).absolute workingDirectory = p.absolute workingDirectory ++ [x] := by
  have hslash : x.toList.head? ≠ some '/' := fun hhead => h.plain (List.mem_of_mem_head? hhead)
  have hchild : p.child x = p.below [x] := by
    rw [Path.child, ofText, anchorOf_eq, if_pos hslash, h.segmentsOf]
    rfl
  rw [hchild, absolute_below (by simpa using h.ne_dots.symm)]

/-- The place of the source file of the module that a specifier in a file names. -/
def sourceOf (workingDirectory : List String) (file : Path) (specifier : String) : List String :=
  let place := (ofText specifier).absolute (file.parent.absolute workingDirectory)
  place.dropLast ++ [place.getLast?.getD "" ++ ".ts"]

end Path

/-- The specifiers by which a hook imports the endpoints and the models. -/
def Hook.specifiers (h : Hook) : List String := h.endpointsImport.1 :: h.modelImports.map Prod.fst

namespace Output

variable {s : Settings} {workingDirectory : List String} {models : ModelSet}
  {groups : List EndpointGroup} {g : EndpointGroup} {dir : String}

/-- The files of the hooks of some groups, each with the hook that it holds. -/
def hooks (s : Settings) (workingDirectory : List String) (models : ModelSet)
    (groups : List EndpointGroup) : List (GeneratedFile × Hook) :=
  groups.flatMap fun g => (hookTexts s workingDirectory models g).map fun h =>
    ({ name := s.hooks.directory ++ "/" ++ g.tag ++ "/" ++ h.1.name ++ ".ts", text := h.2 }, h.1)

theorem map_fst_hooks (s : Settings) (workingDirectory : List String) (models : ModelSet)
    (groups : List EndpointGroup) :
    (hooks s workingDirectory models groups).map Prod.fst
      = hookFiles s workingDirectory models groups := by
  simp only [hooks, hookFiles, List.map_flatMap, List.map_map]
  rfl

/-- A directory of the settings is where its text alone leads, unless the text is empty. -/
theorem absolute_directory_eq_iff (s : Settings) (dir : String) (workingDirectory : List String) :
    (directory s dir).absolute workingDirectory
        = (s.outputPath.child dir).absolute workingDirectory ↔
      dir ≠ "" ∨ s.outputPath.absolute workingDirectory = [] := by
  by_cases hdir : dir = ""
  · subst hdir
    have hchild : s.outputPath.child "" = s.outputPath := by
      rw [Path.child, Path.join, show Path.ofText "" = ⟨.here, []⟩ from rfl]
      simp
    rw [hchild, or_iff_right (not_not.mpr rfl)]
    -- The slash is all that is left of the directory.
    exact eq_comm
  · exact iff_of_true (Path.absolute_closed hdir workingDirectory s.outputPath) (.inl hdir)

/-- From the file of a hook that is where it is looked for, a specifier leads to the source file of
the module that it was computed for. -/
theorem sourceOf_importSpecifier (hworking : ∀ x ∈ workingDirectory, Path.IsSegment x)
    (hhooks : (directory s s.hooks.directory).absolute workingDirectory
      = s.hooksPath.absolute workingDirectory)
    (htag : Path.IsSegment g.tag) (file : String) {target : Path} (htarget : target.Formed)
    {x : String} (hx : Path.IsSegment x) :
    Path.sourceOf workingDirectory (Location.path s (s.hooks.directory, [g.tag, file]))
        (Path.importSpecifier workingDirectory (g.hooksPath s) (target.child x))
      = target.absolute workingDirectory ++ [x ++ ".ts"] := by
  have hparent : (Location.path s (s.hooks.directory, [g.tag, file])).parent
      = (directory s s.hooks.directory).below [g.tag] := by
    have hsegments : (directory s s.hooks.directory).segments ++ [g.tag, file]
        = ((directory s s.hooks.directory).segments ++ [g.tag]) ++ [file] := by simp
    rw [Path.parent, Location.path, Path.segments_below, hsegments, List.dropLast_concat]
    rfl
  -- The file stands in the directory that the specifier was computed from.
  have hstart : (Location.path s (s.hooks.directory, [g.tag, file])).parent.absolute
      workingDirectory = (g.hooksPath s).absolute workingDirectory := by
    rw [hparent, Path.absolute_below (by simpa using htag.ne_dots.symm), hhooks]
    exact (htag.absolute_child workingDirectory s.hooksPath).symm
  have hformed : (g.hooksPath s).Formed := ((Path.formed_ofText s.output).child _).child _
  rw [Path.sourceOf, hstart, Path.absolute_importSpecifier hformed (htarget.child x) hworking,
    hx.absolute_child]
  simp

/-- What a hook of a group imports: its endpoints, and modules that declare what it uses. -/
theorem specifiers_of_mem_hookTexts (hmodels : models.Consistent) {h : Hook × String}
    (hh : h ∈ hookTexts s workingDirectory models g) {specifier : String}
    (hspecifier : specifier ∈ h.1.specifiers) :
    specifier = Path.importSpecifier workingDirectory (g.hooksPath s) (s.endpointsPath.child g.tag) ∨
      ∃ module ∈ models.modules, specifier
        = Path.importSpecifier workingDirectory (g.hooksPath s) (s.modelsPath.child module) := by
  have himports : h.1.endpointsImport.1 = g.endpointsImport s workingDirectory ∧
      ∃ endpoints, h.1.modelImports = g.modelImports s workingDirectory models endpoints := by
    unfold hookTexts at hh
    split at hh
    · rw [List.mem_singleton.mp hh]
      exact ⟨rfl, g.endpoints, rfl⟩
    · obtain ⟨e, -, rfl⟩ := List.mem_map.mp hh
      exact ⟨rfl, [e], rfl⟩
  obtain ⟨hendpoints, endpoints, hmodelImports⟩ := himports
  rcases List.mem_cons.mp hspecifier with rfl | hspecifier
  · exact .inl hendpoints
  · -- Types are imported from the modules that declare them.
    rw [hmodelImports, EndpointGroup.modelImports, List.map_map] at hspecifier
    obtain ⟨⟨module, names⟩, hmem, rfl⟩ := List.mem_map.mp hspecifier
    refine .inr ⟨module, ?_, rfl⟩
    rw [EndpointGroup.namesByModule_eq_grouped] at hmem
    obtain ⟨hgrouped, -⟩ := grouped_spec (fun n => models.owners.lookup n)
      (endpoints.flatMap Endpoint.typeNames)
    obtain ⟨name, hname⟩ := List.exists_mem_of_ne_nil _ (hgrouped.nonempty _ hmem)
    obtain ⟨d, hd, -⟩ := hmodels.lookup_owners_iff.mp (hgrouped.owned ⟨names, hmem, hname⟩)
    exact ModelSet.mem_modules_of_mem hd

end Output

namespace Run

open Step

variable {server : String → Response} {s : Settings} {given : Option Node}
  {w w' : Workspace} {summary : Summary} {t : FileTree} {f : Findings}

/-- The modules of a run have names of letters and digits, which are not empty. -/
theorem Findings.Of.isTag_modules (hf : f.Of server s given t) :
    ∀ module ∈ f.models.modules, IsTag module := by
  obtain ⟨session, hmodels⟩ := hf.models
  exact Generation.isTag_of_mem_modules hf.catalog hmodels

theorem Findings.Of.consistent (hf : f.Of server s given t) : f.models.Consistent := by
  obtain ⟨session, hmodels⟩ := hf.models
  exact (Generation.accounted_models hmodels).1.consistent

/-- There is a file for every module, and one for the endpoints of every group. -/
theorem Findings.file_mem_locations (s : Settings) (f : Findings) :
    (∀ module ∈ f.models.modules, Output.Location.file s.models module ∈ f.locations s) ∧
      ∀ g ∈ f.groups, Output.Location.file s.endpoints g.tag ∈ f.locations s := by
  simp only [Findings.locations, Output.locations, Output.codeLocations, List.mem_append]
  constructor
  · intro module hmodule
    exact .inl (.inl (.inl (.inl (List.mem_map_of_mem hmodule))))
  · intro g hg
    exact .inl (.inl (.inl (.inr (List.mem_map_of_mem (List.mem_map_of_mem hg)))))

/-- Every location of a run is the place of a file that is written. -/
theorem Findings.Of.mem_places (hf : f.Of server s given t) {l : Output.Location}
    (hl : l ∈ f.locations s) (workingDirectory : List String) :
    (Output.directory s l.1).absolute workingDirectory ++ l.2
      ∈ ((f.files s workingDirectory).map (pathOf s)).map (Path.absolute workingDirectory) := by
  rw [hf.map_pathOf_files, List.map_map]
  exact List.mem_map.mpr ⟨l, hl, hf.absolute_path hl workingDirectory⟩

/-- From the file of a hook, the specifier of a module of the run leads to a file that is written,
when the directories of both are where they are looked for. -/
theorem Findings.Of.sourceOf_mem_places (hf : f.Of server s given t)
    {workingDirectory : List String} (hworking : ∀ x ∈ workingDirectory, Path.IsSegment x)
    (hhooks : (Output.directory s s.hooks.directory).absolute workingDirectory
      = s.hooksPath.absolute workingDirectory) {dir : String}
    (hdir : (Output.directory s dir).absolute workingDirectory
      = (s.outputPath.child dir).absolute workingDirectory) {g : EndpointGroup}
    (htag : IsTag g.tag) (file : String) {x : String} (hx : IsTag x)
    (hl : Output.Location.file dir x ∈ f.locations s) :
    Path.sourceOf workingDirectory (Output.Location.path s (s.hooks.directory, [g.tag, file]))
        (Path.importSpecifier workingDirectory (g.hooksPath s) ((s.outputPath.child dir).child x))
      ∈ ((f.files s workingDirectory).map (pathOf s)).map (Path.absolute workingDirectory) := by
  have hformed : (s.outputPath.child dir).Formed := (Path.formed_ofText s.output).child dir
  rw [Output.sourceOf_importSpecifier hworking hhooks htag.isSegment file hformed hx.isSegment,
    ← hdir]
  exact hf.mem_places hl workingDirectory

/-- The hooks of a run are in files that it writes, and their imports name files that it writes. -/
def Findings.Imported (s : Settings) (workingDirectory : List String) (f : Findings)
    (paths : List Path) : Prop :=
  ∀ hook ∈ Output.hooks s workingDirectory f.models f.groups,
    pathOf s hook.1 ∈ paths ∧ ∀ specifier ∈ hook.2.specifiers,
      Path.sourceOf workingDirectory (pathOf s hook.1) specifier
        ∈ paths.map (Path.absolute workingDirectory)

/-- In a run with hooks, every file of a hook is written, and read from the directory of that file
the specifiers of the endpoints and of the models name files that are written as well, if each of
the three directories is named or the output goes to the root. -/
theorem hook_imports_written (h : run (generate server s given) w = (.ok summary, w'))
    (hhooks : s.hooks.generate) (hworking : ∀ x ∈ w.tree.workingDirectory, Path.IsSegment x)
    (hnamed : ∀ dir ∈ [s.models, s.endpoints, s.hooks.directory],
      dir ≠ "" ∨ s.outputPath.absolute w.tree.workingDirectory = []) :
    ∃ f : Findings, f.Of server s given w.tree ∧
      f.Imported s w.tree.workingDirectory (summary.files.map Prod.fst) := by
  obtain ⟨f, hf, -, hpaths⟩ := exists_findings h
  refine ⟨f, hf, fun hook hhook => ?_⟩
  rw [hpaths]
  constructor
  · -- The file is one of the run.
    refine List.mem_map_of_mem (List.mem_append_right _ ?_)
    have hfile : hook.1 ∈ Output.hookFiles s w.tree.workingDirectory f.models f.groups :=
      Output.map_fst_hooks s _ f.models f.groups ▸ List.mem_map_of_mem hhook
    simp [Output.groupFiles, hhooks, hfile]
  · intro specifier hspecifier
    obtain ⟨g, hg, hhook⟩ := List.mem_flatMap.mp hhook
    obtain ⟨h, hh, rfl⟩ := List.mem_map.mp hhook
    have htag := hf.tags.2 g hg
    have hname : h.1.name ∈ Output.hookNames s g :=
      Output.map_name_hookTexts s w.tree.workingDirectory f.models g ▸ List.mem_map_of_mem hh
    have hplace : ∀ dir ∈ [s.models, s.endpoints, s.hooks.directory],
        (Output.directory s dir).absolute w.tree.workingDirectory
          = (s.outputPath.child dir).absolute w.tree.workingDirectory := fun dir hdir =>
      (Output.absolute_directory_eq_iff s dir _).mpr (hnamed dir hdir)
    -- The file is below the directory of its group, so the place of that directory is what counts.
    change Path.sourceOf _ (s.outputPath.child _) specifier ∈ _
    rw [path_hook htag hname]
    have hplaced := hplace s.hooks.directory (by simp)
    rcases Output.specifiers_of_mem_hookTexts hf.consistent hh hspecifier with
      rfl | ⟨module, hmodule, rfl⟩
    · exact hf.sourceOf_mem_places hworking hplaced (hplace s.endpoints (by simp)) htag _ htag
        ((Findings.file_mem_locations s f).2 g hg)
    · exact hf.sourceOf_mem_places hworking hplaced (hplace s.models (by simp)) htag _
        (hf.isTag_modules module hmodule) ((Findings.file_mem_locations s f).1 module hmodule)

/-! ## Directories in every spelling -/

/-- Settings whose directories lead up, stand still and repeat slashes. -/
def scatteredSettings : Settings :=
  { crowdedSettings false true with
    models := "../shared/./models"
    endpoints := "./api//v1/"
    hooks := { (crowdedSettings false true).hooks with directory := "a/../hooks/" } }

/-- The imports of the hook in these settings. -/
theorem hook_imports_written_scattered : ∃ summary w',
    run (generate noServer scatteredSettings (some crowdedDocument)) emptyProject
      = (.ok summary, w') ∧
    scatteredSettings.hooks.generate ∧
    (∀ x ∈ emptyProject.tree.workingDirectory, Path.IsSegment x) ∧
    (∀ dir ∈ [scatteredSettings.models, scatteredSettings.endpoints,
        scatteredSettings.hooks.directory],
      dir ≠ "" ∨ scatteredSettings.outputPath.absolute emptyProject.tree.workingDirectory = []) ∧
    ∃ f : Findings, f.Of noServer scatteredSettings (some crowdedDocument) emptyProject.tree ∧
      f.Imported scatteredSettings emptyProject.tree.workingDirectory
        (summary.files.map Prod.fst) := by
  have hpaths : paths? noServer scatteredSettings (some crowdedDocument) emptyProject
      = some (["out/../shared/models/index.ts", "out/api/v1/default.ts",
        "out/a/../hooks/default/useDefault.ts"].map Path.ofText) := by decide +kernel
  obtain ⟨summary, w', hrun, -⟩ := exists_of_paths? hpaths
  have hproject : Path.IsSegment "project" := IsTag.isSegment (by decide)
  have hworking : ∀ x ∈ emptyProject.tree.workingDirectory, Path.IsSegment x :=
    List.forall_mem_singleton.mpr hproject
  have hnamed : ∀ dir ∈ [scatteredSettings.models, scatteredSettings.endpoints,
        scatteredSettings.hooks.directory],
      dir ≠ "" ∨ scatteredSettings.outputPath.absolute emptyProject.tree.workingDirectory = [] := by
    decide +kernel
  exact ⟨summary, w', hrun, rfl, hworking, hnamed, hook_imports_written hrun rfl hworking hnamed⟩

/-! ## A directory without a name -/

/-- What a run finds out, without its check of the project. -/
def Findings.find? (server : String → Response) (s : Settings) (given : Option Node)
    (t : FileTree) : Option Findings := do
  let document ← (readDocument server s given t).toOption
  let catalog ← (Catalog.ofDocument document s.basePaths.paths).toOption
  let models ← ((Generation.models { document } catalog).run {}).1.toOption
  let groups ← (EndpointGroup.ofCatalog models catalog).toOption
  return { document, catalog, models, groups }

theorem Findings.Of.find?_eq (hf : f.Of server s given t) : find? server s given t = some f := by
  obtain ⟨session, hmodels⟩ := hf.models
  simp [find?, hf.document, hf.catalog, hmodels, hf.groups, Except.toOption]

instance (s : Settings) (workingDirectory : List String) (f : Findings) (paths : List Path) :
    Decidable (f.Imported s workingDirectory paths) :=
  inferInstanceAs (Decidable (∀ hook ∈ Output.hooks s workingDirectory f.models f.groups, _ ∧ _))

/-- Settings with relative directories, that of the hooks being the empty text. -/
def unnamedSettings : Settings :=
  { crowdedSettings false true with
    hooks := { (crowdedSettings false true).hooks with directory := "" } }

/-- With relative directories a hook can import what is not written: its file goes to the root, and
its specifiers are those for a file in the output directory. -/
theorem hook_imports_missing : ¬ ∀ (server : String → Response) (s : Settings)
    (given : Option Node) (w w' : Workspace) (summary : Summary),
    (∀ x ∈ w.tree.workingDirectory, Path.IsSegment x) →
    (∀ dir ∈ [s.output, s.models, s.endpoints, s.hooks.directory],
      (Path.ofText dir).anchor = .here) →
    s.hooks.generate → run (generate server s given) w = (.ok summary, w') →
    ∃ f : Findings, f.Of server s given w.tree ∧
      f.Imported s w.tree.workingDirectory (summary.files.map Prod.fst) := by
  intro hall
  -- Without a directory for the hooks, the hook goes to the root.
  have hpaths : paths? noServer unnamedSettings (some crowdedDocument) emptyProject
      = some (["out/models/index.ts", "out/endpoints/default.ts",
        "/default/useDefault.ts"].map Path.ofText) := by decide +kernel
  obtain ⟨summary, w', hrun, hfiles⟩ := exists_of_paths? hpaths
  have hproject : Path.IsSegment "project" := IsTag.isSegment (by decide)
  obtain ⟨f, hf, himported⟩ := hall _ _ _ _ _ _ (List.forall_mem_singleton.mpr hproject)
    (by decide +kernel) rfl hrun
  rw [hfiles] at himported
  -- For these paths the check of the imports comes out false.
  have hmissing : (Findings.find? noServer unnamedSettings (some crowdedDocument)
      emptyProject.tree).any (fun f => f.Imported unnamedSettings ["project"]
        (["out/models/index.ts", "out/endpoints/default.ts",
          "/default/useDefault.ts"].map Path.ofText)) = false := by
    decide +kernel
  rw [hf.find?_eq, Option.any_some, decide_eq_false_iff_not] at hmissing
  exact hmissing himported

end Run

end ClientGen
