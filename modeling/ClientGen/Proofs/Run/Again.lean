import ClientGen.Proofs.Run.Distinct

/-!
# Running again

A second run with the same settings over the same document goes through like the first one and
leaves every file as it was. It reads its own model files back and adds nothing to them; what other
files replaced is replaced in the same way again.

* `Run.series_writesTo`: the texts that a run writes to one place.
* `Run.Fresh`: there are no files in the places that a run writes to.
* `Findings.Of.again`: what a run found out, it finds out again.
* `Run.generate_again`: a second run changes nothing.
-/

namespace ClientGen.Run

open Step

variable {server : String → Response} {s : Settings} {given : Option Node}
  {w w' : Workspace} {summary : Summary} {t u : FileTree} {f : Findings}

/-! ## The texts for one place -/

/-- Files other than those of the models replace what is there. -/
theorem mode_of_mem_groupFiles {workingDirectory : List String} {models : ModelSet}
    {groups : List EndpointGroup} {file : GeneratedFile}
    (h : file ∈ Output.groupFiles s workingDirectory models groups) : file.mode = .replace := by
  -- The files of a group are endpoints, the client's, hooks and indexes, and each replaces.
  simp only [Output.groupFiles, List.mem_append] at h
  rcases h with ((h | h) | h) | h
  · obtain ⟨g, -, rfl⟩ := List.mem_map.mp h
    rfl
  · split at h
    · simp only [Output.clientFiles, List.mem_cons, List.not_mem_nil, or_false] at h
      rcases h with rfl | rfl <;> rfl
    · exact absurd h List.not_mem_nil
  · split at h
    · obtain ⟨g, -, h⟩ := List.mem_flatMap.mp h
      obtain ⟨hook, -, rfl⟩ := List.mem_map.mp h
      rfl
    · exact absurd h List.not_mem_nil
  · split at h
    · simp only [Output.indexFiles, List.mem_cons, List.not_mem_nil, or_false] at h
      rcases h with rfl | rfl <;> rfl
    · exact absurd h List.not_mem_nil

/-- The texts that replace what is in a place. -/
theorem exists_writesTo_groupFiles (s : Settings) (t : FileTree) (workingDirectory : List String)
    (models : ModelSet) (groups : List EndpointGroup) (q : List String) :
    ∃ rs : List String, writesTo s t (Output.groupFiles s workingDirectory models groups) q
      = rs.map fun r => (.replace, r) := by
  refine ⟨((Output.groupFiles s workingDirectory models groups).filter
    fun f => t.place (pathOf s f) = q).map GeneratedFile.text, ?_⟩
  rw [writesTo, List.map_map]
  refine List.map_congr_left fun file hfile => ?_
  rw [mode_of_mem_groupFiles (List.mem_of_mem_filter hfile)]
  rfl

/-- Of the texts of modules at most one goes to a place. -/
theorem writesTo_modelFiles (hf : f.Of server s given t) (ht : t.Stands) (q : List String) :
    writesTo s t (Output.modelFiles s f.models) q = [] ∨
      ∃ module ∈ f.models.modules, writesTo s t (Output.modelFiles s f.models) q
        = [(.merge, f.models.render module)] := by
  have hwrites : writesTo s t (Output.modelFiles s f.models) q
      = (f.models.modules.filter fun module =>
          t.place (s.outputPath.child (s.models ++ "/" ++ module ++ ".ts")) = q).map
        fun module => (.merge, f.models.render module) := by
    rw [writesTo, Output.modelFiles, List.filter_map, List.map_map]
    rfl
  have hunique : ∀ a ∈ f.models.modules, ∀ b ∈ f.models.modules,
      decide (t.place (s.outputPath.child (s.models ++ "/" ++ a ++ ".ts")) = q) →
      decide (t.place (s.outputPath.child (s.models ++ "/" ++ b ++ ".ts")) = q) → a = b := by
    -- The last name on the way is that of the module.
    have hplace : ∀ module ∈ f.models.modules,
        t.place (s.outputPath.child (s.models ++ "/" ++ module ++ ".ts"))
          = (Output.directory s s.models).absolute t.workingDirectory ++ [module ++ ".ts"] := by
      intro module hmodule
      have hsegment := Path.isSegment_file (hf.modules.2 module hmodule)
      rw [ht.place_eq, String.append_assoc, hsegment.child]
      exact Path.absolute_below (by simpa using hsegment.ne_dots.symm) _ _
    intro a ha b hb hqa hqb
    rw [decide_eq_true_eq] at hqa hqb
    rw [← hqb, hplace a ha, hplace b hb] at hqa
    simpa [String.append_left_inj] using hqa
  rw [hwrites]
  rcases filter_eq_nil_or_singleton hf.modules.1 hunique with h | ⟨module, hmodule, h⟩
  · exact .inl (by rw [h, List.map_nil])
  · exact .inr ⟨module, hmodule, by rw [h, List.map_singleton]⟩

/-- The texts that a run writes to one place: that of a module, if any, and then others that
replace it. -/
theorem series_writesTo (hf : f.Of server s given t) (ht : t.Stands) (q : List String) :
    Series (writesTo s t (f.files s t.workingDirectory) q) := by
  obtain ⟨session, hrun⟩ := hf.models
  obtain ⟨rs, hrs⟩ := exists_writesTo_groupFiles s t t.workingDirectory f.models f.groups q
  have hsplit : writesTo s t (f.files s t.workingDirectory) q
      = writesTo s t (Output.modelFiles s f.models) q ++ rs.map fun r => (.replace, r) := by
    rw [← hrs]
    simp only [writesTo, Findings.files, List.filter_append, List.map_append]
  rw [hsplit]
  rcases writesTo_modelFiles hf ht q with h | ⟨module, hmodule, h⟩
  · rw [h, List.nil_append]
    exact .replacing rs
  · rw [h]
    exact .merging ⟨_, _, _, _, _, module, hrun, hmodule, rfl⟩ rs

/-! ## Finding out the same again -/

/-- There are no files in the places that a run writes to. -/
def Fresh (s : Settings) (t : FileTree) (files : List GeneratedFile) : Prop :=
  ∀ file ∈ files, t.textAt? (t.place (pathOf s file)) = none

/-- Nothing is written where a file was. -/
theorem Fresh.writesTo_eq_nil {files : List GeneratedFile} (h : Fresh s t files)
    {q : List String} (hq : (t.textAt? q).isSome) : writesTo s t files q = [] := by
  rw [writesTo, List.map_eq_nil_iff, List.filter_eq_nil_iff]
  intro file hfile hplace
  rw [decide_eq_true_eq] at hplace
  have hnone := h file hfile
  rw [hplace] at hnone
  simp [hnone] at hq

/-- A source still names the place that something was found at. -/
theorem placeOf_of_grows {source : String} {place : Path} {q : List String} (hgrows : t.Grows u)
    (hlocate : t.locate? place = some q) (h : Document.placeOf t source = .ok place) :
    Document.placeOf u source = .ok place := by
  -- The tree grew by files and directories only, so the homes are the same.
  have hexpand : u.expand? (.ofText source) = t.expand? (.ofText source) := by
    rw [FileTree.expand?, hgrows.homes, FileTree.expand?]
  unfold Document.placeOf at h ⊢
  rw [hexpand, hgrows.workingDirectory]
  cases hpath : t.expand? (.ofText source) with
  | none => simp [hpath] at h
  | some path =>
    simp only [hpath] at h ⊢
    by_cases hnull : source.toList.contains '\x00' = true
    · rw [if_pos hnull] at h
      cases h
    · rw [if_neg hnull] at h ⊢
      by_cases hlong : t.isTooLong ⟨.root, path.absolute t.workingDirectory⟩ = true
      · rw [if_pos hlong] at h
        cases h
      · rw [if_neg hlong] at h
        obtain rfl := Except.ok.inj h
        rw [hgrows.isTooLong hlocate, if_neg hlong]

/-- A document that could be read from a file can be read again. -/
theorem read_of_grows {source : String} {document : Node} (hgrows : t.Grows u)
    (htexts : ∀ q, (t.textAt? q).isSome → u.textAt? q = t.textAt? q)
    (h : Document.read t source = .ok document) : Document.read u source = .ok document := by
  cases hplace : Document.placeOf t source with
  | error e => simp [Document.read, hplace, bind, Except.bind] at h
  | ok place =>
    cases hread : t.read? place with
    | none => simp [Document.read, hplace, hread, bind, Except.bind] at h
    | some text =>
      -- What was read is a file at a place that the path leads to.
      obtain ⟨stored, hstored, -⟩ := Option.map_eq_some_iff.mp hread
      obtain ⟨q, hlocate, hq⟩ := Option.bind_eq_some_iff.mp hstored
      have hread' : u.read? place = some text := by
        rw [← hread, FileTree.read?, FileTree.file?, hgrows.locate? hlocate, Option.bind_some,
          htexts q (by simp [hq]), FileTree.read?, FileTree.file?, hlocate, Option.bind_some]
      have hplace' := placeOf_of_grows hgrows hlocate hplace
      simpa [Document.read, hplace, hplace', hread, hread', bind, Except.bind] using h

/-- Generated files have another name than the description of a project. -/
theorem writesTo_description (hf : f.Of server s given t) (ht : t.Stands) :
    writesTo s t (f.files s t.workingDirectory) (t.workingDirectory ++ ["package.json"]) = [] := by
  rw [writesTo, List.map_eq_nil_iff, List.filter_eq_nil_iff]
  intro file hfile hplace
  have hmem : pathOf s file ∈ (f.locations s).map (Output.Location.path s) :=
    hf.map_pathOf_files t.workingDirectory ▸ List.mem_map_of_mem hfile
  obtain ⟨l, hl, hpath⟩ := List.mem_map.mp hmem
  obtain ⟨-, front, x, hname⟩ := hf.exists_name hl
  rw [decide_eq_true_eq, ht.place_eq, ← hpath, hf.absolute_path hl, hname,
    ← List.append_assoc] at hplace
  have hlast : x ++ ".ts" = "package.json" := by
    simpa using (List.append_inj_right' hplace rfl)
  have hletter := congrArg (fun name : String => name.toList.getLast?) hlast
  rw [String.toList_append] at hletter
  simp at hletter

/-- The description of a project stays as it is. -/
theorem find_of_wrote (hf : f.Of server s given t) (ht : t.Stands)
    (h : Wrote s (f.files s t.workingDirectory) t u) :
    Dependencies.Project.find u = Dependencies.Project.find t := by
  -- The description stands right in the working directory, where the run writes nothing.
  obtain ⟨hpaved, hplace⟩ := FileTree.walk_eq_some_iff.mp ht.walk
  have hlocate : t.locate? ⟨.root, t.workingDirectory ++ ["package.json"]⟩
      = some (t.workingDirectory ++ ["package.json"]) := by
    change t.walk [] (t.workingDirectory ++ ["package.json"]) = _
    rw [FileTree.walk_eq_some_iff, FileTree.paved_append, List.foldl_append, hplace]
    exact ⟨⟨hpaved, ht.isDirectory, trivial⟩, rfl⟩
  have hread : u.read? ⟨.root, t.workingDirectory ++ ["package.json"]⟩
      = t.read? ⟨.root, t.workingDirectory ++ ["package.json"]⟩ := by
    rw [FileTree.read?, FileTree.file?, h.grows.locate? hlocate, Option.bind_some, h.textAt?,
      writesTo_description hf ht, receiveAll_nil, FileTree.read?, FileTree.file?, hlocate,
      Option.bind_some]
  unfold Dependencies.Project.find
  rw [h.grows.workingDirectory]
  dsimp only
  rw [hread]

/-- What a run found out, it finds out again after its files were written. -/
theorem Findings.Of.again (hf : f.Of server s given t) (ht : t.Stands)
    (h : Wrote s (f.files s t.workingDirectory) t u)
    (hfresh : Fresh s t (f.files s t.workingDirectory)) : f.Of server s given u := by
  refine { hf with checked := ?_, document := ?_ }
  · rw [find_of_wrote hf ht h]
    exact hf.checked
  · -- A document that was read from a file is read again from the file, as the run spares it.
    have hdocument := hf.document
    unfold readDocument at hdocument ⊢
    cases given with
    | some document => exact hdocument
    | none =>
      dsimp only at hdocument ⊢
      split at hdocument
      · rename_i hurl
        rw [if_pos hurl]
        exact hdocument
      · rename_i hurl
        rw [if_neg hurl]
        refine read_of_grows h.grows (fun q hq => ?_) hdocument
        rw [h.textAt?, hfresh.writesTo_eq_nil hq, receiveAll_nil]

/-- A second run goes through, makes no directories and leaves every file as it was. -/
theorem generate_again (ht : w.tree.Stands)
    (h : run (generate server s given) w = (.ok summary, w'))
    (hfresh : ∀ file ∈ summary.files,
      w.tree.textAt? (file.1.absolute w.tree.workingDirectory) = none) :
    ∃ summary' w'', run (generate server s given) w' = (.ok summary', w'') ∧
      w''.tree.directories = w'.tree.directories ∧
      ∀ q, w''.tree.textAt? q = w'.tree.textAt? q := by
  obtain ⟨f, hf, hwrote, hpaths⟩ := exists_findings h
  have hfresh : Fresh s w.tree (f.files s w.tree.workingDirectory) := by
    intro file hfile
    have hmem : pathOf s file ∈ summary.files.map Prod.fst := hpaths ▸ List.mem_map_of_mem hfile
    obtain ⟨written, hwritten, hpath⟩ := List.mem_map.mp hmem
    rw [ht.place_eq, ← hpath]
    exact hfresh written hwritten
  have hagain := hf.again ht hwrote hfresh
  have hworking := hwrote.grows.workingDirectory
  obtain ⟨summary', w'', hrun, hwrote', hdirectories⟩ :=
    generate_of_holds hagain (by rw [hworking]; exact hwrote.holds)
  refine ⟨summary', w'', hrun, hdirectories, fun q => ?_⟩
  rw [hworking] at hwrote'
  -- The same texts go to the same places.
  have hwrites : writesTo s w'.tree (f.files s w.tree.workingDirectory) q
      = writesTo s w.tree (f.files s w.tree.workingDirectory) q := by
    simp only [writesTo, hwrote.grows.place]
  rw [hwrote'.textAt?, hwrites, hwrote.textAt?]
  cases hstored : w.tree.textAt? q with
  | none => exact (series_writesTo hf ht q).receiveAll_again
  | some text =>
    rw [hfresh.writesTo_eq_nil (by simp [hstored]), receiveAll_nil, receiveAll_nil]

/-- Two files of the first run share a path: that of a module and an index file. -/
theorem generate_again_crowded : ∃ summary w' summary' w'',
    run (generate noServer (crowdedSettings true false) (some crowdedDocument)) emptyProject
      = (.ok summary, w') ∧
    summary.files.map Prod.fst = ["out/models/index.ts", "out/endpoints/default.ts",
      "out/models/index.ts", "out/endpoints/index.ts"].map Path.ofText ∧
    run (generate noServer (crowdedSettings true false) (some crowdedDocument)) w'
      = (.ok summary', w'') ∧
    w''.tree.directories = w'.tree.directories ∧
    ∀ q, w''.tree.textAt? q = w'.tree.textAt? q := by
  obtain ⟨summary, w', hrun, hfiles⟩ := exists_of_paths? paths?_crowded
  have hstands : emptyProject.tree.Stands := ⟨by decide, by decide⟩
  obtain ⟨summary', w'', hagain, hdirectories, htexts⟩ :=
    generate_again hstands hrun fun _ _ => rfl
  exact ⟨summary, w', summary', w'', hrun, hfiles, hagain, hdirectories, htexts⟩

end ClientGen.Run
