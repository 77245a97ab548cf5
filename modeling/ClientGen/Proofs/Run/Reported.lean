import ClientGen.Proofs.Run.Distinct

/-!
# Failures that are reported

Some failures are reported to the user: an unusable document or configuration, and a schema that is
nested too deeply. The others are faults of the surroundings. A run analyses its document as a whole
and then delivers the files. What is reported comes from the analysis, which writes nothing, so a
run that ends with a report has left the files as they were.

* `Failure.IsReported`: the failures that have a wording.
* `Run.analyse`, `Run.deliver`: the two halves of a run, with `Run.generate_eq_bind`.
* `Silent`, `Step.Unreported`: results and computations whose failures are not reported, and the
  lemmas that take this through lists and sequences.
* `Run.keepsFiles_analyse`: an analysis leaves the files alone, however it ends.
* `Run.unreported_deliver`: nothing that goes wrong while files are delivered is reported.
* `Run.reported_before_delivery`: both together, for a whole run.
-/

namespace ClientGen

/-- A failure that the user is told about. -/
def Failure.IsReported (f : Failure) : Prop := f.message?.isSome

instance : DecidablePred Failure.IsReported :=
  fun f => inferInstanceAs (Decidable (f.message?.isSome = true))

/-! ## Computations whose failures are not reported -/

/-- A result whose failure, if it is one, is not reported. -/
def Silent {α : Type} (r : Except Failure α) : Prop := ∀ e, r = .error e → ¬ e.IsReported

/-- A list of results of which none fails with a report does not. -/
theorem Silent.mapM {α β : Type} {f : α → Except Failure β} (h : ∀ a, Silent (f a))
    (as : List α) : Silent (as.mapM f) := by
  intro e he
  obtain ⟨a, -, ha⟩ := exists_of_mapM_eq_error he
  exact h a e ha

namespace Step

variable {σ α β : Type}

/-- A computation of which no failure is reported, wherever it starts. -/
def Unreported (x : ExceptT Failure (StateM σ) α) : Prop :=
  ∀ s, Silent (run x s).1

variable {x : ExceptT Failure (StateM σ) α} {f : α → ExceptT Failure (StateM σ) β}

/-- No failure is reported of a computation that returns. -/
theorem unreported_pure (a : α) : Unreported (pure a : ExceptT Failure (StateM σ) α) := by
  intro s e he
  cases he

/-- Reading the state reports no failure. -/
theorem unreported_get : Unreported (get : ExceptT Failure (StateM σ) σ) := by
  intro s e he
  cases he

/-- Setting the state reports no failure. -/
theorem unreported_set (t : σ) : Unreported (set t : ExceptT Failure (StateM σ) PUnit) := by
  intro s e he
  cases he

/-- No failure is reported of a computation that fails with one that is not reported. -/
theorem unreported_throw {e : Failure} (h : ¬ e.IsReported) :
    Unreported (throw e : ExceptT Failure (StateM σ) α) := by
  intro s e' he
  obtain rfl := Except.error.inj he
  exact h

/-- A result whose failure is not reported reports none as a computation either. -/
theorem unreported_ofExcept {r : Except Failure α} (h : Silent r) :
    Unreported (ofExcept r : ExceptT Failure (StateM σ) α) := by
  cases r with
  | error e => exact unreported_throw (h e rfl)
  | ok a => exact unreported_pure a

/-- A sequence fails with the failure of its first part or of its second one. -/
theorem Unreported.bind (hx : Unreported x) (hf : ∀ a, Unreported (f a)) :
    Unreported (x >>= f) := by
  intro s e he
  rw [run_bind] at he
  rcases hrun : run x s with ⟨e' | a, t⟩
  · rw [hrun] at he
    obtain rfl := Except.error.inj he
    exact hx s e' (congrArg Prod.fst hrun)
  · rw [hrun] at he
    exact hf a t e he

end Step

/-! ## Files -/

namespace Disk

open Step

/-- Making the way to a directory reports no failure. -/
theorem unreported_makeWay (current segments : List String) :
    Unreported (makeWay current segments) := by
  induction segments generalizing current with
  | nil => exact unreported_pure ()
  | cons segment rest ih =>
    rw [makeWay]
    apply unreported_get.bind
    intro t
    split
    · exact ih _
    · split
      · exact unreported_throw (by decide)
      · split
        · -- Something that is no directory stands in the way, at the end of it or before.
          cases rest with
          | nil =>
            apply unreported_throw
            show ¬ Failure.fileInTheWay.IsReported
            decide
          | cons next rest =>
            apply unreported_throw
            show ¬ Failure.throughAFile.IsReported
            decide
        · exact (unreported_set _).bind fun _ => ih _

/-- Making directories reports no failure. -/
theorem unreported_makeDirectories (p : Path) : Unreported (makeDirectories p) :=
  unreported_get.bind fun t => unreported_makeWay (t.start p) p.segments

/-- Checking a path reports no failure. -/
theorem unreported_checkPath (p : Path) : Unreported (checkPath p) := by
  rw [checkPath]
  split
  · exact unreported_throw (by decide)
  · split
    · exact unreported_throw (by decide)
    · exact unreported_pure ()

/-- Reading a file that may be missing reports no failure. -/
theorem unreported_read? (p : Path) : Unreported (read? p) := by
  rw [read?]
  apply unreported_get.bind
  intro t
  by_cases hlong : t.isTooLong p = true
  case' pos =>
    rw [if_pos hlong]
    refine (unreported_throw (by decide)).bind fun _ => ?_
  case' neg => rw [if_neg hlong]
  all_goals
    -- What is at the path decides in both cases.
    split
    · exact unreported_pure none
    · split
      · exact unreported_throw (by decide)
      · exact unreported_pure _

/-- Writing a file reports no failure. -/
theorem unreported_write (p : Path) (text : String) : Unreported (write p text) := by
  rw [write]
  apply unreported_get.bind
  intro t
  split
  · exact unreported_throw (by decide)
  · exact unreported_set _

/-- Putting a file in place reports no failure. -/
theorem unreported_put (base : Path) (name text : String) (mode : WriteMode) :
    Unreported (put base name text mode) := by
  rw [put]
  -- Every step on the disk fails as the disk does, if at all.
  apply (unreported_checkPath _).bind
  intro
  apply (unreported_makeDirectories _).bind
  intro
  apply (unreported_checkPath _).bind
  intro
  apply (unreported_read? _).bind
  intro old?
  cases old? with
  | none => exact (unreported_write _ _).bind fun _ => unreported_pure _
  | some old =>
    dsimp only
    split
    · exact unreported_pure _
    · exact (unreported_write _ _).bind fun _ => unreported_pure _

end Disk

/-! ## Endpoints -/

/-- Endpoints fail only where a path is no text. -/
theorem Endpoint.silent_ofOperations (models : ModelSet) (os : List Operation) :
    Silent (ofOperations models os) := by
  -- The only failure is a path that is no text, which is not reported.
  have hpath : ∀ o : Operation, Silent (pathText o) := by
    intro o e he
    rw [pathText] at he
    split at he
    · cases he
    · obtain rfl := Except.error.inj he
      decide
  intro e he
  rw [ofOperations] at he
  cases hpaths : os.mapM pathText with
  | error e' =>
    rw [hpaths] at he
    obtain rfl := Except.error.inj he
    exact Silent.mapM hpath os e' hpaths
  | ok paths =>
    rw [hpaths] at he
    cases he

/-- Making the endpoints of a catalog reports no failure. -/
theorem EndpointGroup.silent_ofCatalog (models : ModelSet) (catalog : Catalog) :
    Silent (ofCatalog models catalog) := by
  apply Silent.mapM
  rintro ⟨tag, os⟩ e he
  cases hendpoints : Endpoint.ofOperations models os with
  | error e' =>
    simp only [hendpoints] at he
    obtain rfl := Except.error.inj he
    exact Endpoint.silent_ofOperations models os e' hendpoints
  | ok endpoints =>
    simp only [hendpoints] at he
    cases he

namespace Run

open Step

variable {server : String → Response} {s : Settings} {given : Option Node}

/-! ## The halves of a run -/

/-- What a run works out before it writes: the operations of the document and all models. -/
def analyse (server : String → Response) (s : Settings) (given : Option Node) :
    Run (Catalog × ModelSet) := do
  checkDependencies s
  let document ← Run.document server s given
  let catalog ← ofExcept (Catalog.ofDocument document s.basePaths.paths)
  let models ← expanding (Generation.models { document } catalog)
  return (catalog, models)

/-- Writes the files for operations and models: those of the models, then all others. -/
def deliver (s : Settings) (catalog : Catalog) (models : ModelSet) : Run Summary := do
  let modelFiles ← writeAll s (Output.modelFiles s models)
  let groups ← ofExcept (EndpointGroup.ofCatalog models catalog)
  let workingDirectory := (← get).tree.workingDirectory
  let groupFiles ← writeAll s (Output.groupFiles s workingDirectory models groups)
  return {
    tags := catalog.length
    operations := catalog.count
    declarations := models.declarationCount
    files := modelFiles ++ groupFiles }

/-- A run is an analysis and a delivery of what it found. -/
theorem generate_eq_bind (server : String → Response) (s : Settings) (given : Option Node) :
    generate server s given = (do
      let (catalog, models) ← analyse server s given
      deliver s catalog models) := by
  simp only [generate, analyse, deliver, bind_assoc, pure_bind]

/-- A computation that leaves the files alone, however it ends. -/
def KeepsFiles {α : Type} (x : Run α) : Prop := ∀ w, (run x w).2.tree = w.tree

/-- A sequence of parts that leave the files alone leaves them alone. -/
theorem KeepsFiles.bind {α β : Type} {x : Run α} {f : α → Run β} (hx : KeepsFiles x)
    (hf : ∀ a, KeepsFiles (f a)) : KeepsFiles (x >>= f) := by
  intro w
  have hfirst := hx w
  rw [run_bind]
  rcases hrun : run x w with ⟨e | a, w₁⟩
  · rw [hrun] at hfirst
    exact hfirst
  · rw [hrun] at hfirst
    exact (hf a w₁).trans hfirst

/-- A result that is known already leaves the files alone. -/
theorem keepsFiles_ofExcept {α : Type} (r : Except Failure α) :
    KeepsFiles (ofExcept r) := by
  intro w
  cases r <;> rfl

/-- Checking dependencies leaves the files alone. -/
theorem keepsFiles_checkDependencies (s : Settings) : KeepsFiles (checkDependencies s) := by
  intro w
  rw [run_checkDependencies]
  split
  · rfl
  · split <;> rfl

/-- An analysis leaves the files alone, also when it fails. -/
theorem keepsFiles_analyse (server : String → Response) (s : Settings) (given : Option Node) :
    KeepsFiles (analyse server s given) := by
  apply (keepsFiles_checkDependencies s).bind
  intro
  have hdocument : KeepsFiles (document server s given) := by
    intro w
    rw [run_document]
  apply hdocument.bind
  intro document
  apply (keepsFiles_ofExcept _).bind
  intro catalog
  -- Models are expanded in a session of their own, which has no files.
  have hmodels : KeepsFiles (expanding (Generation.models { document } catalog)) := fun w => rfl
  exact hmodels.bind fun models w => rfl

/-- Writing files one after another reports no failure. -/
theorem unreported_writeAll (s : Settings) (files : List GeneratedFile) :
    Unreported (writeAll s files) := by
  induction files with
  | nil => exact unreported_pure []
  | cons f files ih =>
    rw [writeAll_cons]
    have hput : Unreported (onDisk (Disk.put s.outputPath f.name f.text f.mode)) :=
      fun w => Disk.unreported_put _ _ _ _ w.tree
    exact hput.bind fun outcome => ih.bind fun written => unreported_pure _

/-- Nothing that goes wrong while files are delivered is reported. -/
theorem unreported_deliver (s : Settings) (catalog : Catalog) (models : ModelSet) :
    Unreported (deliver s catalog models) := by
  apply (unreported_writeAll s _).bind
  intro modelFiles
  apply (unreported_ofExcept (EndpointGroup.silent_ofCatalog models catalog)).bind
  intro groups
  apply unreported_get.bind
  intro w
  exact (unreported_writeAll s _).bind fun groupFiles => unreported_pure _

/-- A run is an analysis, which writes nothing however it ends, and a delivery, whose failures are
not reported from whatever files it starts. So a run that ends with a reported failure has ended in
its analysis, and every file and directory is as it was. -/
theorem reported_before_delivery (server : String → Response) (s : Settings)
    (given : Option Node) :
    generate server s given = (do
      let (catalog, models) ← analyse server s given
      deliver s catalog models) ∧
    (∀ w, (run (analyse server s given) w).2.tree = w.tree) ∧
    (∀ catalog models w f w', run (deliver s catalog models) w = (.error f, w') →
      ¬ f.IsReported) ∧
    (∀ w f w', run (generate server s given) w = (.error f, w') → f.IsReported →
      run (analyse server s given) w = (.error f, w') ∧ w'.tree = w.tree) := by
  have hkeeps := keepsFiles_analyse server s given
  refine ⟨generate_eq_bind server s given, hkeeps, ?_, ?_⟩
  · intro catalog models w f w' hrun
    exact unreported_deliver s catalog models w f (congrArg Prod.fst hrun)
  · intro w f w' hrun hreported
    have htree := hkeeps w
    rw [generate_eq_bind, run_bind] at hrun
    -- The analysis fails, or the failure is the delivery's and none of the reported.
    rcases hanalysis : run (analyse server s given) w with ⟨e | ⟨catalog, models⟩, w₁⟩
    · rw [hanalysis] at hrun htree
      obtain ⟨hf, rfl⟩ := Prod.mk.inj hrun
      obtain rfl := Except.error.inj hf
      exact ⟨rfl, htree⟩
    · rw [hanalysis] at hrun
      exact absurd hreported
        (unreported_deliver s catalog models w₁ f (congrArg Prod.fst hrun))

/-! ## A document that is nested too deeply -/

/-- A schema of lists in lists. -/
def nestedLists : Nat → Node
  | 0 => .object []
  | n + 1 => objectOf "items" (nestedLists n)

/-- A document whose first operation answers with an object, and the second one with lists that are
nested to a depth. -/
def nestedDocument (depth : Nat) : Node :=
  let answering (name : String) (schema : Node) : Node := objectOf "get" (.object [
    (.text "operationId", .text name),
    (.text "responses", objectOf "200" (objectOf "schema" schema))])
  objectOf "paths" (.object [
    (.text "/shallow", answering "getShallow" (objectOf "properties" (.object []))),
    (.text "/deep", answering "getDeep" (nestedLists depth))])

/-- A project with the models of an earlier run. -/
def startedProject : Workspace where
  tree := emptyProject.tree.provide (.ofText "out/models/shallow.ts")
    "export type IShallow = any;\n"

/-- The failure that a run ends with, if it fails. -/
def failure? (server : String → Response) (s : Settings) (given : Option Node) (w : Workspace) :
    Option Failure :=
  match (run (generate server s given) w).1 with
  | .error f => some f
  | .ok _ => none

/-- A run with a failure ends with it. -/
theorem run_of_failure? {w : Workspace} {f : Failure} (h : failure? server s given w = some f) :
    run (generate server s given) w = (.error f, (run (generate server s given) w).2) := by
  rw [failure?] at h
  split at h
  · rename_i f' hf'
    obtain rfl := Option.some.inj h
    exact Prod.ext hf' rfl
  · cases h

/-- The second operation is nested too deeply, and the first one has not been written. -/
theorem reported_before_delivery_nested : ∃ f w',
    run (generate noServer (crowdedSettings true true) (some (nestedDocument 66))) startedProject
      = (.error f, w') ∧
    f.IsReported ∧ startedProject.tree.files.length = 1 ∧ w'.tree = startedProject.tree := by
  -- The levels that the limit allows and one more are named in the failure.
  let origin := "GET /deep response" ++ String.join (List.replicate 65 "/items")
  have hfailure : failure? noServer (crowdedSettings true true) (some (nestedDocument 66))
      startedProject = some (.tooDeep origin 64) := by decide +kernel
  have hrun := run_of_failure? hfailure
  have hreported : (Failure.tooDeep origin 64).IsReported := rfl
  obtain ⟨-, -, -, hkept⟩ :=
    reported_before_delivery noServer (crowdedSettings true true) (some (nestedDocument 66))
  obtain ⟨-, htree⟩ := hkept _ _ _ hrun hreported
  exact ⟨_, _, hrun, hreported, by decide +kernel, htree⟩

end Run

end ClientGen
