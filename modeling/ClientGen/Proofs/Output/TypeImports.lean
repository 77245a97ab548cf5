import ClientGen.Output.Hook
import ClientGen.Proofs.Model.Ownership

/-!
# Types of operations and their imports

The types of an operation are named twice: by the walk that declares them and by the walk that
counts the lists around them. The code of its hook finds the declared name again in the text of the
type.

* `Endpoint.elementType_text`: the text of a reference gives its name back.
* `Generation.types_declared_and_imported`: after a pass the records agree, and the hook of an
  operation imports each of its types once, from the module that declares it.
-/

namespace ClientGen

namespace Endpoint

/-- The brackets of a list. -/
def brackets : List Char := ['[', ']']

/-- Without a bracket nothing is taken out. -/
theorem replace_brackets_append {cs : List Char} (h : '[' ∉ cs) (rest : List Char) :
    Text.replace brackets [] (cs ++ rest) = cs ++ Text.replace brackets [] rest := by
  unfold Text.replace
  induction cs with
  | nil => rfl
  | cons c cs ih =>
    rw [List.mem_cons, not_or] at h
    have hstart : Text.startsWith brackets (c :: (cs ++ rest)) = false := by
      rw [Text.startsWith, brackets, List.isPrefixOf_cons_cons, beq_false_of_ne h.1, Bool.false_and]
    rw [List.cons_append, Text.replaceSkipping, hstart, if_neg Bool.false_ne_true, ih h.2,
      List.cons_append]

/-- All brackets are taken out. -/
theorem replace_brackets_replicate (n : Nat) :
    Text.replace brackets [] (List.replicate n brackets).flatten = [] := by
  unfold Text.replace
  induction n with
  | zero => rfl
  | succ n ih =>
    rw [List.replicate_succ, List.flatten_cons]
    exact ih

/-- The text of a reference to an interface gives the name of the interface back. -/
theorem elementType_text {r : TypeReference} (h : Naming.IsInterfaceName r.name) :
    elementType r.text = r.name := by
  have hbracket : '[' ∉ r.name.toList := by
    obtain ⟨cs, hname, hcs⟩ := h.exists_toList
    rw [hname, List.mem_cons, not_or]
    exact ⟨by decide, fun hmem => absurd (hcs _ hmem) (by decide)⟩
  have htext : r.text.toList = r.name.toList ++ (List.replicate r.lists brackets).flatten := by
    rw [TypeReference.text, String.toList_append, String.toList_join, List.flatMap_replicate]
    rfl
  rw [elementType, htext]
  change String.ofList (Text.replace brackets [] _) = _
  rw [replace_brackets_append hbracket, replace_brackets_replicate, List.append_nil,
    String.ofList_toList]

/-- A reference to an interface is not the type of an unknown answer. -/
theorem text_ne_unknownResponse {r : TypeReference} (h : Naming.IsInterfaceName r.name) :
    r.text ≠ unknownResponse := by
  intro heq
  obtain ⟨cs, hname, -⟩ := h.exists_toList
  have hhead := congrArg (fun s => s.toList.head?) heq
  simp [TypeReference.text, hname, unknownResponse] at hhead

/-- The names of the types of an operation are among those that its endpoint refers to. -/
theorem mem_typeNames {o : Operation} {types : OperationTypes} {method : String}
    {r : TypeReference} (h : Naming.IsInterfaceName r.name) (hr : r.text ∈ types.all) :
    r.name ∈ (ofOperation o (some types) method).typeNames := by
  have hmem : r.text ∈ (ofOperation o (some types) method).request.toList
      ++ [(ofOperation o (some types) method).response]
      ++ (ofOperation o (some types) method).params.toList := by
    simp only [OperationTypes.all, List.mem_append] at hr
    rcases hr with (hr | hr) | hr
    · simp [ofOperation, hr]
    · obtain hresponse : types.response = some r.text := by simpa using hr
      simp [ofOperation, hresponse]
    · simp [ofOperation, hr]
  have hne := text_ne_unknownResponse h
  exact List.mem_map.mpr ⟨r.text, List.mem_filter.mpr ⟨hmem, by simpa using hne⟩,
    elementType_text h⟩

end Endpoint

namespace EndpointGroup

/-- The used types are grouped by the modules that declare them. -/
theorem namesByModule_eq_grouped (models : ModelSet) (names : List String) :
    namesByModule models names = grouped (fun n => models.owners.lookup n) names := rfl

end EndpointGroup

namespace Generation

variable {e : Expander} {catalog : Catalog} {models : ModelSet} {s t : Session}

/-- The imports list a name once, under the given specifier. -/
def ListsOnce (imports : List (String × List String)) (source name : String) : Prop :=
  (imports.flatMap Prod.snd).count name = 1 ∧ Lists imports source name

/-- The operation has types. Each of them is a declared name, possibly in lists, and the hook of the
operation lists that name once, under the module that declares it. -/
def TypesImported (models : ModelSet) (o : Operation) : Prop :=
  ∃ types, models.types.lookup o = some types ∧
    ∀ type, types.request = some type ∨ types.response = some type ∨ types.params = some type →
      ∃ name lists module,
        type = name ++ String.join (List.replicate lists "[]") ∧
        models.owners.lookup name = some module ∧
        ∀ (group : EndpointGroup) (settings : Settings) (workingDirectory : List String)
          (method : String),
          ListsOnce
            (Hook.single group settings workingDirectory models
              (.ofOperation o (models.types.lookup o) method)).modelImports
            (Path.importSpecifier workingDirectory (group.hooksPath settings)
              (settings.modelsPath.child module)) name

/-- After a pass, no name is declared twice, the owner of a name is the module that declares it, the
declarations are counted, and the types of every operation are declared and imported. -/
theorem types_declared_and_imported
    (h : (Generation.models e catalog).run s = (.ok models, t)) :
    models.modules.Nodup ∧
    (models.declarations.flatMap fun m => m.2.map Declaration.name).Nodup ∧
    (∀ name module, models.owners.lookup name = some module ↔
      name ∈ (models.declarationsOf module).map Declaration.name) ∧
    models.declarationCount = (models.declarations.flatMap fun m => m.2).length ∧
    ∀ o ∈ catalog.operations, TypesImported models o := by
  obtain ⟨haccounted, htypes⟩ := accounted_models h
  have hconsistent := haccounted.consistent
  have hnames : (models.declarations.flatMap fun m => m.2.map Declaration.name)
      = (models.placed.map fun p => (p.2.name, p.1)).map Prod.fst := by
    simp only [ModelSet.placed, List.map_flatMap, List.map_map]
    rfl
  refine ⟨hconsistent.modules, ?_, fun name module => ?_, ?_, fun o ho => ?_⟩
  · rw [hnames]
    exact (hconsistent.owners.map _).nodup_iff.mp hconsistent.nodup
  · rw [hconsistent.lookup_owners_iff, List.mem_map]
  · have hlength := hconsistent.owners.length_eq
    simpa [ModelSet.declarationCount, ModelSet.placed, List.length_flatMap] using hlength
  · obtain ⟨types, hlookup⟩ := Option.isSome_iff_exists.mp (htypes o ho)
    refine ⟨types, hlookup, fun type htype => ?_⟩
    have hall : type ∈ types.all := by
      simp only [OperationTypes.all, List.mem_append, Option.mem_toList]
      tauto
    obtain ⟨r, rfl, hdeclared, hname⟩ := haccounted.types o types hlookup type hall
    obtain ⟨module, howner⟩ := ModelSet.exists_owner hdeclared
    refine ⟨r.name, r.lists, module, rfl, howner, fun group settings workingDirectory method => ?_⟩
    -- The imports are the groups of the names, under the specifiers of their modules.
    rw [hlookup]
    obtain ⟨hgrouped, hlists⟩ := grouped_spec (fun n => models.owners.lookup n)
      ([Endpoint.ofOperation o (some types) method].flatMap Endpoint.typeNames)
    rw [← EndpointGroup.namesByModule_eq_grouped] at hgrouped hlists
    have hused : r.name ∈
        [Endpoint.ofOperation o (some types) method].flatMap Endpoint.typeNames := by
      simpa using Endpoint.mem_typeNames hname hall
    obtain ⟨names, hmem, hin⟩ := (hlists module r.name).mpr ⟨hused, howner⟩
    refine ⟨?_, names, List.mem_map.mpr ⟨(module, names), hmem, rfl⟩, hin⟩
    have hflat : (Hook.single group settings workingDirectory models
        (.ofOperation o (some types) method)).modelImports.flatMap Prod.snd
          = (EndpointGroup.namesByModule models
              ([Endpoint.ofOperation o (some types) method].flatMap
                Endpoint.typeNames)).flatMap Prod.snd := by
      simp [Hook.single, EndpointGroup.modelImports, List.flatMap_map]
    rw [hflat]
    exact List.count_eq_one_of_mem hgrouped.nodup_all (List.mem_flatMap.mpr ⟨_, hmem, hin⟩)

/-- An operation that answers with a list of objects. -/
def listingNode : Node :=
  .object [(.text "operationId", .text "getPears"), (.text "responses", .object [(.text "200",
    .object [(.text "schema", .object [(.text "items", .object [(.text "properties",
      .object [(.text "id", .object [(.text "type", .text "string")])])])])])])]

/-- A document with this operation. -/
def listingDocument : Node :=
  .object [(.text "paths", .object [(.text "/pears", .object [(.text "get", listingNode)])])]

/-- The operation in the catalog of the document. -/
def listing : Operation where
  path := "/pears"
  pathKey := .text "/pears"
  method := "GET"
  tag := "default"
  operationId := some "getPears"

/-- The pass over the document returns, and the type of the answer is declared and imported. -/
theorem types_declared_and_imported_listing :
    ∃ models t, Catalog.ofDocument listingDocument [] = .ok [("default", [listing])] ∧
      (Generation.models ⟨listingDocument, 64⟩ [("default", [listing])]).run {} = (.ok models, t) ∧
      models.modules.Nodup ∧
      (models.declarations.flatMap fun m => m.2.map Declaration.name).Nodup ∧
      (∀ name module, models.owners.lookup name = some module ↔
        name ∈ (models.declarationsOf module).map Declaration.name) ∧
      models.declarationCount = (models.declarations.flatMap fun m => m.2).length ∧
      ∀ o ∈ Catalog.operations [("default", [listing])], TypesImported models o := by
  have hrun : ∃ models t, (Generation.models ⟨listingDocument, 64⟩ [("default", [listing])]).run {}
      = (.ok models, t) := ⟨_, _, rfl⟩
  obtain ⟨models, t, h⟩ := hrun
  exact ⟨models, t, rfl, h, types_declared_and_imported h⟩

end Generation

end ClientGen
