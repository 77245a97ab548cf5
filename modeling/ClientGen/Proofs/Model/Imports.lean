import ClientGen.Proofs.Model.Ownership
import ClientGen.Proofs.Model.UsedNames

/-!
# Imports of model modules

A module imports the used names that it finds in its text and that another module declares. A used
name whose second character is a digit, or that is a bare `I`, is not found, and so not imported.

* `ModelSet.lists_imports_iff`: what a module imports.
* `hasCapital_interfaceName_iff`: which names are found.
* `Generation.used_name_reachable_iff`: which used names are declared or imported where they are
  used.
-/

namespace ClientGen

namespace ModelSet

variable {models : ModelSet} {module owner name : String}

/-- In consistent records a name is imported from its owner, unless that is the module itself. -/
theorem Consistent.importOwner?_eq_some_iff (h : models.Consistent) :
    models.importOwner? module name = some owner ↔
      models.owners.lookup name = some owner ∧ owner ≠ module := by
  unfold importOwner?
  cases hlookup : models.owners.lookup name with
  | none => simp
  | some o =>
    -- What the module declares itself has the module as its owner.
    have hlocal : (models.declarationsOf module).any (·.name == name) = true → o = module := by
      intro hany
      obtain ⟨d, hd, hname⟩ := List.any_eq_true.mp hany
      have howner := h.lookup_owners_iff.mpr ⟨d, hd, by simpa using hname⟩
      exact Option.some.inj (hlookup.symm.trans howner)
    dsimp only
    split
    · rename_i hcond
      rw [Bool.or_eq_true, decide_eq_true_eq] at hcond
      have ho : o = module := hcond.elim id hlocal
      simp only [reduceCtorEq, Option.some.injEq, false_iff, not_and, not_not]
      exact fun heq => heq ▸ ho
    · rename_i hcond
      simp only [Bool.or_eq_true, decide_eq_true_eq, not_or] at hcond
      simp only [Option.some.injEq]
      exact ⟨fun heq => ⟨heq, heq ▸ hcond.1⟩, fun heq => heq.1⟩

/-- The imports of a module are grouped by owners. -/
theorem imports_eq_grouped (models : ModelSet) (module : String) :
    models.imports module = grouped (models.importOwner? module)
      ((models.declarationsOf module).flatMap fun d => interfaceNames d.content) := rfl

/-- A module imports the names that are found in its text and declared by another module. -/
theorem Consistent.lists_imports_iff (h : models.Consistent) :
    Lists (models.imports module) owner name ↔
      (∃ d ∈ models.declarationsOf module, name ∈ interfaceNames d.content) ∧
        models.owners.lookup name = some owner ∧ owner ≠ module := by
  rw [imports_eq_grouped, (grouped_spec _ _).2, List.mem_flatMap, h.importOwner?_eq_some_iff]

end ModelSet

/-! ## Which names are found -/

namespace Naming

open Text

/-- A letter becomes a capital at the beginning of a word; a digit does not. -/
theorem titleChar_of_alphanumeric {c : Char} (h : isAsciiAlphanumeric c) :
    ∃ d, titleChar c = [d] ∧ (isAsciiUpper d ↔ ¬ isAsciiDigit c) := by
  have hall : ∀ n < 128, isAsciiAlphanumeric (Char.ofNat n) →
      (titleChar (Char.ofNat n)).all fun d => isAsciiUpper d == !isAsciiDigit (Char.ofNat n) := by
    decide +kernel
  have hascii := toNat_lt_of_isAsciiAlphanumeric h
  obtain ⟨d, hd⟩ := List.length_eq_one_iff.mp (length_titleChar hascii)
  have hupper := of_ascii (p := fun c => isAsciiAlphanumeric c →
    (titleChar c).all fun d => isAsciiUpper d == !isAsciiDigit c) hall hascii h
  rw [hd, List.all_cons, List.all_nil, Bool.and_true, beq_iff_eq] at hupper
  refine ⟨d, hd, ?_⟩
  rw [hupper]
  simp

end Naming

open Text

/-- The name of an interface has a capital behind its `I` exactly when the first letter or digit of
ASCII in its base is a letter. -/
theorem hasCapital_interfaceName_iff (base : String) :
    HasCapital (Naming.interfaceName base "") ↔
      ∃ c, base.toList.find? isAsciiAlphanumeric = some c ∧ ¬ isAsciiDigit c := by
  have hname : (Naming.interfaceName base "").toList
      = 'I' :: (Naming.words base.toList).flatMap properCase := by
    simp [Naming.interfaceName, Naming.toList_pascalCase]
  -- The second character is the first letter or digit of the base, in its capital form.
  have hfind : base.toList.find? isAsciiAlphanumeric
      = (Naming.words base.toList).flatten.head? := by
    rw [Naming.flatten_words, List.head?_filter]
  unfold HasCapital
  rw [hname, hfind]
  cases hwords : Naming.words base.toList with
  | nil => simp
  | cons w ws =>
    obtain ⟨c, w, rfl⟩ := List.exists_cons_of_ne_nil
      (Naming.ne_nil_of_mem_words (hwords ▸ List.mem_cons_self))
    have halpha : isAsciiAlphanumeric c := by
      have hmem : c ∈ (Naming.words base.toList).flatten := by simp [hwords]
      rw [Naming.flatten_words] at hmem
      exact (List.mem_filter.mp hmem).2
    obtain ⟨d, hd, hiff⟩ := Naming.titleChar_of_alphanumeric halpha
    simp only [List.flatMap_cons, properCase, hd, List.cons_append, List.nil_append,
      List.flatten_cons, List.head?_cons, Option.some.injEq, exists_eq_left']
    rw [← hiff]
    constructor
    · rintro ⟨_, second, rest, heq, hupper⟩
      obtain ⟨rfl, -⟩ := List.cons.inj (List.cons.inj heq).2
      exact hupper
    · exact fun hupper => ⟨_, d, _, rfl, hupper⟩

namespace Generation

variable {e : Expander} {catalog : Catalog} {models : ModelSet} {s t : Session}

/-- After a pass, every used name has an owner. It is declared in the module that uses it or
imported there from its owner exactly when the module is the owner or the name has a capital behind
its first letter. -/
theorem used_name_reachable_iff (h : (Generation.models e catalog).run s = (.ok models, t))
    {module : String} {d : Declaration} (hd : d ∈ models.declarationsOf module) {n : String}
    (hn : n ∈ d.uses) :
    ∃ owner, models.owners.lookup n = some owner ∧
      ((n ∈ (models.declarationsOf module).map Declaration.name ∨
        Lists (models.imports module) owner n) ↔ owner = module ∨ HasCapital n) := by
  obtain ⟨haccounted, -⟩ := accounted_models h
  have hconsistent := haccounted.consistent
  have hplaced := hconsistent.mem_placed_iff.mpr hd
  obtain ⟨owner, howner⟩ := ModelSet.exists_owner (haccounted.uses _ hplaced hn)
  -- A name that the module declares is one that it owns.
  have hlocal : n ∈ (models.declarationsOf module).map Declaration.name ↔ owner = module := by
    rw [List.mem_map, ← hconsistent.lookup_owners_iff, howner, Option.some.injEq]
  refine ⟨owner, howner, ?_⟩
  rw [hlocal, hconsistent.lists_imports_iff]
  by_cases hsame : owner = module
  · simp [hsame]
  · simp only [hsame, false_or, howner, ne_eq, not_false_eq_true, and_self, and_true]
    constructor
    · rintro ⟨d', -, hfound⟩
      exact hasCapital_of_mem_interfaceNames hfound
    · intro hcapital
      have hformed := haccounted.formed _ hplaced
      obtain ⟨type, htype, hntype⟩ := Declaration.mem_uses.mp hn
      exact ⟨d, hd, interfaceNames_of_enclosed (hformed.enclosed hn)
        ((hformed.types type htype).isInterfaceName hntype) hcapital⟩

/-- An operation that answers with an object that holds a component. -/
def modelAnswer (operationId : String) : Node :=
  .object [(.text "operationId", .text operationId), (.text "responses", .object [(.text "200",
    .object [(.text "schema", .object [(.text "properties",
      .object [(.text "m", .object [(.text "$ref", .text "#/components/schemas/3DModel")])])])])])]

/-- Two operations whose answers share a component that is named with a leading digit. -/
def modelDocument : Node :=
  .object [
    (.text "paths", .object [
      (.text "/apples", .object [(.text "get", modelAnswer "getApple")]),
      (.text "/berries", .object [(.text "get", modelAnswer "getBerry")])]),
    (.text "components", .object [(.text "schemas", .object [(.text "3DModel",
      .object [(.text "properties",
        .object [(.text "id", .object [(.text "type", .text "string")])])])])])]

/-- An operation of the document. -/
def modelOperation (path operationId : String) : Operation where
  path := path
  pathKey := .text path
  method := "GET"
  tag := "default"
  operationId := some operationId

/-- The catalog of the document. -/
def modelCatalog : Catalog :=
  [("default", [modelOperation "/apples" "getApple", modelOperation "/berries" "getBerry"])]

/-- An interface with one optional property. -/
def modelInterface (name property : String) (type : TypeExpr) (origin : String) : Declaration where
  name := name
  body := .properties [⟨property, true, type, ⟨none, false, false⟩⟩]
  comment := ⟨none, false, false⟩
  origin := origin

/-- The answer of the second operation. -/
def berryResponse : Declaration :=
  modelInterface "IBerryResponse" "m" (.named "I3DModel") "GET /berries response"

/-- What the pass over the document produces. -/
def modelModels : ModelSet where
  declarations := [
    ("apple", [modelInterface "I3DModel" "id" (.basic "string") "#/components/schemas/3DModel",
      modelInterface "IAppleResponse" "m" (.named "I3DModel") "GET /apples response"]),
    ("berry", [berryResponse])]
  owners := [("I3DModel", "apple"), ("IAppleResponse", "apple"), ("IBerryResponse", "berry")]
  types := [
    (modelOperation "/apples" "getApple", ⟨"Apple", "apple", none, some "IAppleResponse", none⟩),
    (modelOperation "/berries" "getBerry", ⟨"Berry", "berry", none, some "IBerryResponse", none⟩)]

set_option maxRecDepth 2048 in
/-- The pass over the document returns. -/
theorem run_modelDocument :
    Catalog.ofDocument modelDocument [] = .ok modelCatalog ∧
      ∃ t, (Generation.models ⟨modelDocument, 64⟩ modelCatalog).run {} = (.ok modelModels, t) :=
  ⟨rfl, _, rfl⟩

/-- The name belongs to the first module and has no capital, so the second one lacks it. -/
theorem used_name_reachable_iff_leading_digit :
    ∃ t, (Generation.models ⟨modelDocument, 64⟩ modelCatalog).run {} = (.ok modelModels, t) ∧
      berryResponse ∈ modelModels.declarationsOf "berry" ∧ "I3DModel" ∈ berryResponse.uses ∧
      ∃ owner, modelModels.owners.lookup "I3DModel" = some owner ∧
        (("I3DModel" ∈ (modelModels.declarationsOf "berry").map Declaration.name ∨
          Lists (modelModels.imports "berry") owner "I3DModel") ↔
            owner = "berry" ∨ HasCapital "I3DModel") := by
  obtain ⟨-, t, h⟩ := run_modelDocument
  have hd : berryResponse ∈ modelModels.declarationsOf "berry" := List.mem_singleton_self _
  have hn : "I3DModel" ∈ berryResponse.uses := List.mem_singleton_self _
  exact ⟨t, h, hd, hn, used_name_reachable_iff h hd hn⟩

/-- It is not so that every used name is declared or imported where it is used. -/
theorem used_name_neither_declared_nor_imported :
    ¬ ∀ (e : Expander) (catalog : Catalog) (s t : Session) (models : ModelSet) (module : String)
      (d : Declaration) (n : String), (Generation.models e catalog).run s = (.ok models, t) →
      d ∈ models.declarationsOf module → n ∈ d.uses →
      n ∈ (models.declarationsOf module).map Declaration.name ∨
        ∃ owner, models.owners.lookup n = some owner ∧ Lists (models.imports module) owner n := by
  intro hall
  obtain ⟨-, t, h⟩ := run_modelDocument
  rcases hall _ _ _ t modelModels "berry" berryResponse "I3DModel" h (List.mem_singleton_self _)
    (List.mem_singleton_self _) with hlocal | ⟨owner, -, names, hmem, -⟩
  · exact absurd hlocal (by decide)
  · have himports : modelModels.imports "berry" = [] := by decide +kernel
    rw [himports] at hmem
    exact List.not_mem_nil hmem

end Generation

end ClientGen
