import ClientGen.Proofs.Model.Rendering

/-!
# Reading back what was rendered

The text of a module is written from its declarations and read back line by line. Whatever texts a
document brings in, the two agree: nothing is split, hidden or made up.

* `Declaration.block`, `ModelSet.importBlocks`: the pieces of the text of a module.
* `ModelSet.ReadBack`: the text of a module is read as it was written.
* `Generation.readBack_of_run`: so is the text of every module of a pass.
-/

namespace ClientGen

open ModuleText

/-- The piece of a module text that a declaration fills: its text without the last line feed. -/
def Declaration.block (d : Declaration) : List Char := d.content.toList.dropLast

namespace ModelSet

/-- The piece of a module text that the import lines fill, if there are any. -/
def importBlocks (models : ModelSet) (module : String) : List (List Char) :=
  match models.imports module with
  | [] => []
  | imports =>
    [("\n".intercalate (imports.map fun i => importLine i.2 ("./" ++ i.1))).toList]

/-- The names that a module imports, owner by owner. -/
def importedBy (models : ModelSet) (module : String) : List (List Char) :=
  (models.imports module).flatMap fun i => i.2.map String.toList

/-- The text of a module is read as it was written. -/
structure ReadBack (models : ModelSet) (module : String) : Prop where
  /-- The declared names that are found are those of the declarations, in order. -/
  declared : declaredNames (models.render module).toList
    = (models.declarationsOf module).map fun d => d.name.toList
  /-- The imported names that are found are those that the module imports. -/
  imported : importedNames (models.render module).toList = models.importedBy module
  /-- Between blank lines stand the import lines, if there are any, and then the declarations. -/
  blocks : ModuleText.blocks (dropLineFeeds (models.render module).toList)
    = models.importBlocks module ++ (models.declarationsOf module).map Declaration.block
  /-- The import lines are taken for imports. They declare nothing and import all. -/
  imports : ∀ b ∈ models.importBlocks module,
    isImportBlock b = true ∧ declaredNames b = [] ∧ importedNames b = models.importedBy module
  /-- A declaration is not taken for imports, and declares its own name and no other. -/
  declaration : ∀ d ∈ models.declarationsOf module, d.content.toList = d.block ++ ['\n'] ∧
    isImportBlock d.block = false ∧ declaredNames d.block = [d.name.toList]

end ModelSet

namespace ModuleText

/-- What is imported by a block of import lines. -/
theorem ImportLine.importedNames_block (is : List ImportLine) :
    importedNames (ImportLine.block is) = is.flatMap ImportLine.names := by
  rw [importedNames, ImportLine.typeImports_block, List.flatMap_map]
  simp only [ImportLine.listedNames_listing]

/-- Entries with the names and texts of declarations are the pieces of these declarations. -/
theorem blocks_eq_of_map_eq {es : List Entry} {ds : List Declaration}
    (h : es.map (fun e => (e.name, e.block ++ ['\n']))
      = ds.map fun d => (d.name.toList, d.content.toList)) :
    es.map Entry.block = ds.map Declaration.block := by
  have hblock : Entry.block = List.dropLast ∘ Prod.snd ∘ fun e : Entry =>
      (e.name, e.block ++ ['\n']) := by
    funext e
    simp
  rw [hblock, ← List.map_map, ← List.map_map, h, List.map_map, List.map_map]
  rfl

end ModuleText

namespace Generation

variable {e : Expander} {catalog : Catalog} {models : ModelSet} {s t : Session} {module : String}

/-- After a pass, the text of a module declares the names of its declarations. -/
theorem declaredNames_render (h : (Generation.models e catalog).run s = (.ok models, t))
    (hmodule : module ∈ models.modules) : declaredNames (models.render module).toList
      = (models.declarationsOf module).map fun d => d.name.toList := by
  obtain ⟨sheet, -, htext, hentries, -⟩ := exists_sheet h hmodule
  rw [← htext, sheet.declaredNames_text, Sheet.declared]
  simpa [Function.comp_def] using congrArg (List.map Prod.fst) hentries

/-- After a pass, the text of a module imports the names that the module imports. -/
theorem importedNames_render (h : (Generation.models e catalog).run s = (.ok models, t))
    (hmodule : module ∈ models.modules) :
    importedNames (models.render module).toList = models.importedBy module := by
  obtain ⟨sheet, -, htext, -, himported, -⟩ := exists_sheet h hmodule
  rw [← htext, sheet.importedNames_text]
  exact himported

/-- After a pass, the text of every module is read back as it was written. -/
theorem readBack_of_run (h : (Generation.models e catalog).run s = (.ok models, t))
    (hmodule : module ∈ models.modules) : models.ReadBack module := by
  obtain ⟨sheet, -, htext, hentries, himported, hlines⟩ := exists_sheet h hmodule
  have hblocks := blocks_eq_of_map_eq hentries
  -- The import lines of the sheet are those of the module.
  have himports : models.importBlocks module
      = if sheet.imports = [] then [] else [ImportLine.block sheet.imports] := by
    unfold ModelSet.importBlocks
    split
    · rename_i hnone
      have hnil : sheet.imports = [] := by simpa [hnone] using hlines
      rw [if_pos hnil]
    · rename_i hsome
      have hne : sheet.imports ≠ [] := by
        intro hnil
        exact hsome (by simpa [hnil] using hlines.symm)
      rw [if_neg hne, Text.toList_intercalate, List.map_map]
      exact congrArg (fun ls => [Text.joined ['\n'] ls]) hlines.symm
  have hnames : importedNames (ImportLine.block sheet.imports) = models.importedBy module :=
    (ImportLine.importedNames_block sheet.imports).trans himported
  refine ⟨declaredNames_render h hmodule, importedNames_render h hmodule, ?_, fun b hb => ?_,
    fun d hd => ?_⟩
  · rw [← htext, sheet.blocks_text, himports, ← hblocks]
    split
    · rename_i hnil
      rw [Sheet.blocks_of_nil hnil, List.nil_append]
    · rename_i hne
      exact Sheet.blocks_of_ne_nil hne
  · rw [himports] at hb
    split at hb
    · exact absurd hb List.not_mem_nil
    · rename_i hne
      obtain rfl := List.mem_singleton.mp hb
      exact ⟨ImportLine.isImportBlock_block hne, ImportLine.declaredNames_block _, hnames⟩
  · -- The declaration is one of the entries of the sheet.
    have hmem : (d.name.toList, d.content.toList) ∈
        sheet.entries.map fun e => (e.name, e.block ++ ['\n']) := by
      rw [hentries]
      exact List.mem_map_of_mem (f := fun d : Declaration => (d.name.toList, d.content.toList)) hd
    obtain ⟨entry, -, heq⟩ := List.mem_map.mp hmem
    obtain ⟨hname, hcontent⟩ := Prod.mk.inj heq
    have hblock : d.block = entry.block := by
      rw [Declaration.block, ← hcontent, List.dropLast_concat]
    rw [hblock]
    exact ⟨hcontent.symm, entry.not_isImportBlock, hname ▸ entry.declaredNames_block⟩

/-! ## Two resources that share a component -/

/-- A resource with one operation, which answers with an object that holds the shared component. -/
structure SharingResource where
  /-- The path of the operation. -/
  path : String
  /-- The id of the operation. -/
  operationId : String
  /-- The resource. -/
  resource : String
  /-- The module of the resource. -/
  module : String

/-- The first resource. -/
def appleResource : SharingResource := ⟨"/apples", "getApple", "Apple", "apple"⟩

/-- The second resource. -/
def berryResource : SharingResource := ⟨"/berries", "getBerry", "Berry", "berry"⟩

/-- An object with one property. -/
def objectNode (property : String) (schema : Node) : Node :=
  .object [(.text "properties", .object [(.text property, schema)])]

namespace SharingResource

variable (r : SharingResource)

/-- The path in a document. -/
def pathMember : Key × Node :=
  (.text r.path, .object [(.text "get", .object [(.text "operationId", .text r.operationId),
    (.text "responses", .object [(.text "200", .object [(.text "schema",
      objectNode "m" (.object [(.text "$ref", .text "#/components/schemas/Shared")]))])])])])

/-- The operation in a catalog. -/
def operation : Operation where
  path := r.path
  pathKey := .text r.path
  method := "GET"
  tag := "default"
  operationId := some r.operationId

/-- The declaration for the answer. -/
def answer : Declaration :=
  modelInterface ("I" ++ r.resource ++ "Response") "m" (.named "IShared")
    ("GET " ++ r.path ++ " response")

end SharingResource

/-- A property whose texts look like declarations and imports. -/
def deceptiveNode : Node :=
  .object [(.text "description", .text "one\n\nexport type IFake = any;"),
    (.text "enum", .list [.text "\n\nimport type \x7b IFake \x7d from './fake';"])]

/-- The document of some resources and the component that they share. -/
def sharingDocument (resources : List SharingResource) : Node :=
  .object [(.text "paths", .object (resources.map SharingResource.pathMember)),
    (.text "components", .object [(.text "schemas",
      .object [(.text "Shared", objectNode "id" deceptiveNode)])])]

/-- The catalog of the document. -/
def sharingCatalog (resources : List SharingResource) : Catalog :=
  [("default", resources.map SharingResource.operation)]

/-- The declaration of the component. -/
def sharedDeclaration : Declaration where
  name := "IShared"
  body := .properties [{
    name := "id", optional := true
    type := .union [.value "'\\n\\nimport type \x7b IFake \x7d from \\'./fake\\';'"]
    comment := ⟨some (.text "one\n\nexport type IFake = any;"), false, false⟩ }]
  comment := ⟨none, false, false⟩
  origin := "#/components/schemas/Shared"

/-- What the pass over the document produces: the resource that comes first declares the
component. -/
def sharingModels (first second : SharingResource) : ModelSet where
  declarations := [(first.module, [sharedDeclaration, first.answer]),
    (second.module, [second.answer])]
  owners := [("IShared", first.module), (first.answer.name, first.module),
    (second.answer.name, second.module)]
  types := [first, second].map fun r =>
    (r.operation, ⟨r.resource, r.module, none, some r.answer.name, none⟩)

/-- The pass over the document returns. -/
def SharingRun (first second : SharingResource) : Prop :=
  Catalog.ofDocument (sharingDocument [first, second]) [] = .ok (sharingCatalog [first, second]) ∧
    ∃ t, (Generation.models ⟨sharingDocument [first, second], 64⟩
      (sharingCatalog [first, second])).run {} = (.ok (sharingModels first second), t)

set_option maxRecDepth 2048 in
theorem sharingRun_apple_berry : SharingRun appleResource berryResource := ⟨rfl, _, rfl⟩

set_option maxRecDepth 2048 in
theorem sharingRun_berry_apple : SharingRun berryResource appleResource := ⟨rfl, _, rfl⟩

/-- The module with the component is read back, and so is the one that imports it. -/
theorem readBack_of_run_sharing :
    ∃ t, (Generation.models ⟨sharingDocument [appleResource, berryResource], 64⟩
        (sharingCatalog [appleResource, berryResource])).run {}
        = (.ok (sharingModels appleResource berryResource), t) ∧
      (sharingModels appleResource berryResource).importedBy "berry" = ["IShared".toList] ∧
      ∀ module ∈ (sharingModels appleResource berryResource).modules,
        (sharingModels appleResource berryResource).ReadBack module := by
  obtain ⟨-, t, h⟩ := sharingRun_apple_berry
  exact ⟨t, h, by decide +kernel, fun module hmodule => readBack_of_run h hmodule⟩

end Generation

end ClientGen
