import ClientGen.Proofs.Expansion.Run
import ClientGen.Proofs.Run.Files

/-!
# What a run finds out

A run first checks the project and works out what to write. Then it writes its files, one after
another.

* `Run.Findings`: what a run works out before it writes, and `Findings.Of`: how it depends on the
  files.
* `Findings.files`: the files that are written.
* `Run.exists_findings`: a run that goes through has findings and writes their files.
* `Run.generate_of_holds`: a run with findings whose files are there goes through.
-/

namespace ClientGen.Run

open Step

variable {server : String → Response} {s : Settings} {given : Option Node}
  {w w' : Workspace} {summary : Summary} {t u : FileTree}

/-- The document that is given, or that of the source. -/
def readDocument (server : String → Response) (s : Settings) (given : Option Node)
    (t : FileTree) : Except Failure Node :=
  match given with
  | some document => .ok document
  | none =>
    if Document.isUrl s.source then Document.receive s.source (server s.source)
    else Document.read t s.source

/-- What a run works out before it writes its files. -/
structure Findings where
  /-- The document. -/
  document : Node
  /-- The operations of the document. -/
  catalog : Catalog
  /-- The models. -/
  models : ModelSet
  /-- The endpoints. -/
  groups : List EndpointGroup

namespace Findings

/-- A run on some files works this out. -/
structure Of (server : String → Response) (s : Settings) (given : Option Node) (t : FileTree)
    (f : Findings) : Prop where
  /-- The check of the project goes through, unless it is switched off. -/
  checked : (s.hooks.skipDependencyCheck || s.axios.skipDependencyCheck) = true ∨
    ∃ report, Dependencies.check s (.find t) = .ok report
  /-- The document is the one that is read. -/
  document : readDocument server s given t = .ok f.document
  /-- The catalog is that of the document. -/
  catalog : Catalog.ofDocument f.document s.basePaths.paths = .ok f.catalog
  /-- The models are those of a pass over the catalog. -/
  models : ∃ session,
    (Generation.models { document := f.document } f.catalog).run {} = (.ok f.models, session)
  /-- The endpoints are those of the catalog. -/
  groups : EndpointGroup.ofCatalog f.models f.catalog = .ok f.groups

/-- The files that are written, in the order of writing. -/
def files (s : Settings) (workingDirectory : List String) (f : Findings) : List GeneratedFile :=
  Output.modelFiles s f.models ++ Output.groupFiles s workingDirectory f.models f.groups

end Findings

/-! ## The steps of a run -/

/-- The check of a project leaves the files alone. -/
theorem run_checkDependencies (s : Settings) (w : Workspace) : run (checkDependencies s) w =
    if s.hooks.skipDependencyCheck || s.axios.skipDependencyCheck then (.ok (), w)
    else match Dependencies.check s (.find w.tree) with
      | .ok report => (.ok (), { w with warnings := w.warnings ++ report.warnings })
      | .error e => (.error e, w) := by
  unfold checkDependencies
  by_cases hskip : (s.hooks.skipDependencyCheck || s.axios.skipDependencyCheck) = true
  · rw [if_pos hskip, hskip]
    rfl
  · have hactive : (!(s.hooks.skipDependencyCheck || s.axios.skipDependencyCheck)) = true := by
      simpa using hskip
    rw [if_neg hskip, if_pos hactive, run_bind_of_ok (run_get w)]
    cases Dependencies.check s (.find w.tree) <;> rfl

/-- A run that gets past the check of a project still has the files that it started with. -/
theorem tree_of_checkDependencies (h : run (checkDependencies s) w = (.ok (), w')) :
    w'.tree = w.tree ∧ ((s.hooks.skipDependencyCheck || s.axios.skipDependencyCheck) = true ∨
      ∃ report, Dependencies.check s (.find w.tree) = .ok report) := by
  rw [run_checkDependencies] at h
  split at h
  · rename_i hskip
    exact ⟨(congrArg Workspace.tree (Prod.mk.inj h).2).symm, .inl hskip⟩
  · split at h
    · rename_i report hcheck
      exact ⟨(congrArg Workspace.tree (Prod.mk.inj h).2).symm, .inr ⟨report, hcheck⟩⟩
    · simp at h

/-- If dependencies are not checked, or the check has a report, checking them succeeds and leaves
the tree as it is. -/
theorem checkDependencies_of_ok
    (h : (s.hooks.skipDependencyCheck || s.axios.skipDependencyCheck) = true ∨
      ∃ report, Dependencies.check s (.find w.tree) = .ok report) :
    ∃ w', run (checkDependencies s) w = (.ok (), w') ∧ w'.tree = w.tree := by
  rw [run_checkDependencies]
  rcases h with hskip | ⟨report, hcheck⟩
  · exact ⟨w, if_pos hskip, rfl⟩
  · rw [hcheck]
    split
    · exact ⟨w, rfl, rfl⟩
    · exact ⟨_, rfl, rfl⟩

/-- Reading a document leaves the workspace alone. -/
theorem run_document (server : String → Response) (s : Settings) (given : Option Node)
    (w : Workspace) :
    run (document server s given) w = (readDocument server s given w.tree, w) := by
  cases given with
  | some document => rfl
  | none =>
    rw [document, run_bind_of_ok (run_get w)]
    dsimp only
    change run (ofExcept (readDocument server s none w.tree)) w = _
    cases readDocument server s none w.tree <;> rfl

theorem run_expanding {α : Type} (x : Expansion α) (w : Workspace) :
    run (expanding x) w
      = ((x.run {}).1, { w with warnings := w.warnings ++ (x.run {}).2.warnings }) := rfl

/-! ## A whole run -/

/-- A run that goes through has findings, and it writes their files. -/
theorem exists_findings (h : run (generate server s given) w = (.ok summary, w')) :
    ∃ f : Findings, f.Of server s given w.tree ∧
      Wrote s (f.files s w.tree.workingDirectory) w.tree w'.tree ∧
      summary.files.map Prod.fst = (f.files s w.tree.workingDirectory).map (pathOf s) := by
  rw [generate] at h
  obtain ⟨⟨⟩, w₁, hcheck, h⟩ := run_bind_eq_ok_iff.mp h
  obtain ⟨htree, hchecked⟩ := tree_of_checkDependencies hcheck
  obtain ⟨document, w₂, hdocument, h⟩ := run_bind_eq_ok_iff.mp h
  rw [run_document, htree] at hdocument
  obtain ⟨hread, hw₂⟩ := Prod.mk.inj hdocument
  obtain ⟨catalog, w₃, hcatalog, h⟩ := run_bind_eq_ok_iff.mp h
  obtain ⟨hcatalog, hw₃⟩ := run_ofExcept_eq_ok_iff.mp hcatalog
  obtain ⟨models, w₄, hmodels, h⟩ := run_bind_eq_ok_iff.mp h
  rw [run_expanding] at hmodels
  obtain ⟨hpass, hw₄⟩ := Prod.mk.inj hmodels
  obtain ⟨modelFiles, w₅, hmodelFiles, h⟩ := run_bind_eq_ok_iff.mp h
  obtain ⟨groups, w₆, hgroups, h⟩ := run_bind_eq_ok_iff.mp h
  obtain ⟨hgroups, hw₆⟩ := run_ofExcept_eq_ok_iff.mp hgroups
  rw [run_bind_of_ok (run_get _)] at h
  obtain ⟨groupFiles, w₇, hgroupFiles, h⟩ := run_bind_eq_ok_iff.mp h
  obtain ⟨hsummary, rfl⟩ := Prod.mk.inj h
  obtain rfl := Except.ok.inj hsummary
  obtain ⟨hwrote, hpaths⟩ := wrote_of_writeAll hmodelFiles
  obtain ⟨hwrote', hpaths'⟩ := wrote_of_writeAll hgroupFiles
  -- Up to the models no file is written.
  have hbefore : w₄.tree = w.tree := by rw [← hw₄, ← hw₃, ← hw₂, htree]
  rw [hbefore] at hwrote
  -- The other files are written to what the files of the models left behind.
  rw [← hw₆, hwrote.grows.workingDirectory] at hwrote' hpaths'
  refine ⟨⟨document, catalog, models, groups⟩,
    ⟨hchecked, hread, hcatalog, ⟨_, Prod.ext hpass rfl⟩, hgroups⟩, hwrote.append hwrote', ?_⟩
  simp only [List.map_append, hpaths, hpaths', Findings.files]

/-- The paths of the files that a run writes, if it goes through. -/
def paths? (server : String → Response) (s : Settings) (given : Option Node) (w : Workspace) :
    Option (List Path) :=
  (run (generate server s given) w).1.toOption.map fun summary => summary.files.map Prod.fst

/-- If a run has paths, it returns, and these are the paths of the files that it wrote. -/
theorem exists_of_paths? {paths : List Path} (h : paths? server s given w = some paths) :
    ∃ summary w', run (generate server s given) w = (.ok summary, w') ∧
      summary.files.map Prod.fst = paths := by
  obtain ⟨summary, hsummary, hpaths⟩ := Option.map_eq_some_iff.mp h
  refine ⟨summary, _, Prod.ext ?_ rfl, hpaths⟩
  cases hresult : (run (generate server s given) w).1 with
  | error e => simp [hresult, Except.toOption] at hsummary
  | ok summary' =>
    rw [hresult] at hsummary
    rw [Option.some.inj hsummary]

/-- A run that has findings goes through if their files are there. It writes them again, and makes
no directories. -/
theorem generate_of_holds {f : Findings} (hf : f.Of server s given w.tree)
    (h : ∀ file ∈ f.files s w.tree.workingDirectory, w.tree.Holds (pathOf s file)) :
    ∃ summary w', run (generate server s given) w = (.ok summary, w') ∧
      Wrote s (f.files s w.tree.workingDirectory) w.tree w'.tree ∧
      w'.tree.directories = w.tree.directories := by
  obtain ⟨session, hmodels⟩ := hf.models
  obtain ⟨w₁, hcheck, htree⟩ := checkDependencies_of_ok hf.checked
  have hdocument : run (document server s given) w₁ = (.ok f.document, w₁) := by
    rw [run_document, htree, hf.document]
  have hpass := run_expanding (Generation.models { document := f.document } f.catalog) w₁
  rw [hmodels] at hpass
  rw [← htree] at h ⊢
  -- The files of the models are written first, and leave the others as they are.
  have hall := List.forall_mem_append.mp h
  obtain ⟨modelFiles, w₂, hmodelFiles, hdirectories⟩ :=
    writeAll_of_holds (w := { w₁ with warnings := w₁.warnings ++ session.warnings }) hall.1
  obtain ⟨hwrote, -⟩ := wrote_of_writeAll hmodelFiles
  obtain ⟨groupFiles, w₃, hgroupFiles, hdirectories'⟩ := writeAll_of_holds (w := w₂)
    fun file hfile => (hall.2 file hfile).grows hwrote.grows
  obtain ⟨hwrote', -⟩ := wrote_of_writeAll hgroupFiles
  have hworking : w₂.tree.workingDirectory = w₁.tree.workingDirectory :=
    hwrote.grows.workingDirectory
  refine ⟨⟨f.catalog.length, f.catalog.count, f.models.declarationCount, modelFiles ++ groupFiles⟩,
    w₃, ?_, hwrote.append hwrote', hdirectories'.trans hdirectories⟩
  rw [generate, run_bind_of_ok hcheck, run_bind_of_ok hdocument,
    run_bind_of_ok (run_ofExcept_eq_ok_iff.mpr ⟨hf.catalog, rfl⟩), run_bind_of_ok hpass,
    run_bind_of_ok hmodelFiles, run_bind_of_ok (run_ofExcept_eq_ok_iff.mpr ⟨hf.groups, rfl⟩),
    run_bind_of_ok (run_get w₂)]
  dsimp only
  rw [hworking, run_bind_of_ok hgroupFiles, run_pure]

end ClientGen.Run
