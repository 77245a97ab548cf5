import ClientGen.Proofs.Document.TextKeys
import ClientGen.Proofs.Endpoint.Operations
import ClientGen.Proofs.Model.Outcome

/-!
# The operations of a document

Nothing else is an operation than an object that stands in a path item under a method of HTTP,
whatever the case of its letters. The catalog groups these by tag.

* `Document.isMethodKey_iff`: the keys that are methods, letter by letter.
* `Document.methodMembers`: the members of path items that are operations, in document order.
* `Catalog.ofDocument_groups`: the catalog of a document.
-/

namespace ClientGen

/-! ## Letters in any case -/

namespace Text

variable {c d : Char} {cs ds before : List Char}

/-- Small letters of ASCII do not depend on what stands before them. -/
theorem lowerAfter_eq_map (h : ∀ c ∈ cs, c.toNat < 128) :
    lowerAfter before cs = cs.map Char.toLower := by
  have hall : ∀ n < 128, Char.ofNat n ≠ 'Σ' ∧
      lowerChar (Char.ofNat n) = [(Char.ofNat n).toLower] := by decide +kernel
  induction cs generalizing before with
  | nil => rfl
  | cons c cs ih =>
    rw [List.forall_mem_cons] at h
    obtain ⟨hsigma, hlower⟩ := of_ascii (p := fun c => c ≠ 'Σ' ∧ lowerChar c = [c.toLower]) hall h.1
    rw [lowerAfter, if_neg hsigma, hlower, ih h.2, List.map_cons, List.singleton_append]

/-- A small letter is the small form of itself and of its capital form. -/
theorem toLower_of_letter (hd : d.toNat < 128 ∧ d.isLower) (h : c = d ∨ c = d.toUpper) :
    c.toNat < 128 ∧ c.toLower = d := by
  have hall : ∀ n < 128, (Char.ofNat n).isLower → (Char.ofNat n).toLower = Char.ofNat n ∧
      (Char.ofNat n).toUpper.toNat < 128 ∧ (Char.ofNat n).toUpper.toLower = Char.ofNat n := by
    decide +kernel
  obtain ⟨hself, hcapital⟩ := of_ascii (p := fun d => d.isLower → d.toLower = d ∧
    d.toUpper.toNat < 128 ∧ d.toUpper.toLower = d) hall hd.1 hd.2
  rcases h with rfl | rfl
  · exact ⟨hd.1, hself⟩
  · exact hcapital

/-- A letter of ASCII is small, or the capital of its small letter. -/
theorem eq_or_eq_toUpper (h : c.toNat < 128) : c = c.toLower ∨ c = c.toLower.toUpper := by
  have hall : ∀ n < 128, Char.ofNat n = (Char.ofNat n).toLower ∨
      Char.ofNat n = (Char.ofNat n).toLower.toUpper := by decide +kernel
  exact of_ascii (p := fun c => c = c.toLower ∨ c = c.toLower.toUpper) hall h

/-- Small letters, each of them possibly as a capital, are the small form of what is written. -/
theorem map_toLower_of_forall₂ (hletters : List.Forall₂ (fun c d => c = d ∨ c = d.toUpper) cs ds)
    (hds : ∀ d ∈ ds, d.toNat < 128 ∧ d.isLower) :
    (∀ c ∈ cs, c.toNat < 128) ∧ cs.map Char.toLower = ds := by
  induction hletters with
  | nil => simp
  | cons hletter _ ih =>
    rw [List.forall_mem_cons] at hds
    obtain ⟨hascii, hlower⟩ := toLower_of_letter hds.1 hletter
    obtain ⟨hrest, hmap⟩ := ih hds.2
    exact ⟨List.forall_mem_cons.mpr ⟨hascii, hrest⟩, by rw [List.map_cons, hlower, hmap]⟩

end Text

namespace Document

/-- The text is a method of HTTP. Each letter may be small or capital. -/
def SpellsMethod (text : String) : Prop :=
  ∃ method ∈ httpMethods, List.Forall₂ (fun c d => c = d ∨ c = d.toUpper) text.toList method.toList

instance (text : String) : Decidable (SpellsMethod text) :=
  inferInstanceAs (Decidable (∃ method ∈ httpMethods, List.Forall₂ _ _ _))

/-- The keys of operations are the methods of HTTP, in whatever case. -/
theorem isMethodKey_iff {key : Key} : isMethodKey key ↔ SpellsMethod key.label := by
  constructor
  · intro hkey
    -- The small letters are those of a method, so the key is a text of ASCII.
    have hascii := Text.ascii_of_lowerAfter (letters_of_isMethodKey hkey)
    refine ⟨_, lowerCase_mem_of_isMethodKey hkey, ?_⟩
    rw [Naming.toList_lowerCase, Text.lower, Text.lowerAfter_eq_map hascii,
      List.forall₂_map_right_iff, List.forall₂_same]
    exact fun c hc => Text.eq_or_eq_toUpper (hascii c hc)
  · rintro ⟨method, hmethod, hletters⟩
    have hsmall : ∀ d ∈ method.toList, d.toNat < 128 ∧ d.isLower := by
      intro d hd
      obtain ⟨hascii, hlower, -⟩ := letters_of_mem_httpMethods hmethod d hd
      exact ⟨hascii, hlower⟩
    obtain ⟨hascii, hmap⟩ := Text.map_toLower_of_forall₂ hletters hsmall
    have heq : Naming.lowerCase key.label = method := by
      apply String.ext
      rw [Naming.toList_lowerCase, Text.lower, Text.lowerAfter_eq_map hascii, hmap]
    rwa [isMethodKey, heq, List.contains_iff_mem]

end Document

/-! ## The operations of a document -/

/-- A member of a path item. -/
structure PathMember where
  /-- The key of the path. -/
  path : Key
  /-- The key of the member. -/
  key : Key
  /-- The value of the member. -/
  value : Node

/-- The operation that a member stands for, with base paths stripped. -/
def PathMember.operation (basePaths : List String) (m : PathMember) : Operation where
  path := BasePath.strip m.path.label basePaths
  pathKey := m.path
  method := Naming.upperCase m.key.label
  tag := Document.tagOf m.value.fields
  operationId := Document.textMember m.value.fields "operationId"
  summary := Document.textMember m.value.fields "summary"
  description := Document.textMember m.value.fields "description"

namespace Document

variable {document : Node} {items : Fields}

theorem paths_eq (h : document.get? "paths" = some (.object items)) :
    paths document = .ok items := by
  cases document with
  | object fields =>
    have hget : Fields.get? fields "paths" = some (.object items) := h
    rw [paths, hget]
  | _ => cases h

/-- The members of all path items, in document order. -/
def pathMembers (items : Fields) : List PathMember :=
  items.flatMap fun item => item.2.fields.map fun m => ⟨item.1, m.1, m.2⟩

/-- The members that are operations: objects under a method of HTTP in whatever case. -/
def methodMembers (items : Fields) : List PathMember :=
  (pathMembers items).filter fun m => SpellsMethod m.key.label && m.value.isObject

/-- The operations in a path item are its objects under methods. -/
theorem map_rawOperations (path : Key) (pathItem : Node) :
    (rawOperations pathItem).map (fun raw => (⟨path, raw.1, .object raw.2⟩ : PathMember))
      = (pathItem.fields.map fun m => (⟨path, m.1, m.2⟩ : PathMember)).filter fun m =>
        SpellsMethod m.key.label && m.value.isObject := by
  rw [rawOperations]
  induction pathItem.fields with
  | nil => rfl
  | cons m rest ih =>
    obtain ⟨key, value⟩ := m
    rw [List.filterMap_cons, List.map_cons, List.filter_cons]
    -- A key that spells a method survives both filters exactly if its value is an object.
    by_cases hkey : isMethodKey key = true
    · have hspells : SpellsMethod key.label := isMethodKey_iff.mp hkey
      rw [if_pos hkey]
      cases value with
      | object raw => simpa [hspells, Node.object?, Node.isObject] using ih
      | _ => simpa [Node.object?, Node.isObject] using ih
    · have hspells : ¬ SpellsMethod key.label := mt isMethodKey_iff.mpr hkey
      rw [if_neg hkey]
      simpa [hspells] using ih

/-- With a text for its path, the operation of a member is made without a failure. -/
theorem operation_eq {path : Key} (hpath : path.isText) (basePaths : List String) (key : Key)
    (raw : Fields) : operation basePaths path key raw
      = .ok (PathMember.operation basePaths ⟨path, key, .object raw⟩) := by
  rw [operation, strippedPath, hpath, Bool.or_true, if_pos rfl]
  rfl

/-- The operations of a document come from the members of its path items that are operations. -/
theorem operations_eq (hpaths : paths document = .ok items) (htext : ∀ item ∈ items, item.1.isText)
    (basePaths : List String) : operations document basePaths
      = .ok ((methodMembers items).map (PathMember.operation basePaths)) := by
  let place (path : Key) (raw : Key × Fields) : PathMember := ⟨path, raw.1, .object raw.2⟩
  rw [operations, hpaths]
  calc ((items.flatMap fun item => (rawOperations item.2).map fun raw => (item.1, raw)).mapM
        fun p => operation basePaths p.1 p.2.1 p.2.2)
    _ = .ok ((items.flatMap fun item => (rawOperations item.2).map fun raw => (item.1, raw)).map
        fun p => (place p.1 p.2).operation basePaths) := by
      -- Only a path that is no text could not be stripped.
      refine mapM_eq_map fun p hp => ?_
      obtain ⟨item, hitem, hp⟩ := List.mem_flatMap.mp hp
      obtain ⟨raw, -, rfl⟩ := List.mem_map.mp hp
      exact operation_eq (htext item hitem) _ _ _
    _ = .ok ((items.flatMap fun item => (rawOperations item.2).map (place item.1)).map
        (PathMember.operation basePaths)) := by
      simp only [List.map_flatMap, List.map_map, Function.comp_def]
    _ = .ok ((methodMembers items).map (PathMember.operation basePaths)) := by
      -- One path item after another gives its objects under methods.
      rw [methodMembers, pathMembers, List.filter_flatMap]
      simp only [place, map_rawOperations]

end Document

namespace Catalog

/-- The catalog of a document with text keys is the grouping by tag of the members of its path items
that are operations, whatever else stands in the document and whatever base paths are stripped. -/
theorem ofDocument_groups {document : Node} {items : Fields} (hkeys : document.hasTextKeys)
    (hpaths : document.get? "paths" = some (.object items)) (basePaths : List String) :
    ∃ catalog, ofDocument document basePaths = .ok catalog ∧
      catalog.Groups ((Document.methodMembers items).map
        (PathMember.operation (BasePath.ofList basePaths))) := by
  have hpaths := Document.paths_eq hpaths
  have htext : ∀ item ∈ items, item.1.isText := fun item =>
    Document.isText_of_mem_paths hkeys hpaths
  refine ⟨_, ?_, groups_ofOperations _⟩
  rw [ofDocument, Document.operations_eq hpaths htext]
  rfl

/-- Path items of many kinds. Two of the tags become one name, and one becomes that of operations
without a tag. -/
def mixedDocument : Node :=
  .object [(.text "paths", .object [
    (.text "/pets", .object [
      (.text "parameters", .list []),
      (.text "GET", .object [(.text "tags", .list [.text "pet store"])]),
      (.text "post", .null),
      (.text "get", .object [(.text "tags", .list [.text "!"])]),
      (.text "x-get", .object [])]),
    (.text "/text", .text "get"),
    (.text "/users", .object [
      (.text "Put", .object [(.text "tags", .list [])]),
      (.text "delete", .object [(.text "tags", .list [.text "pet-store"])])])])]

/-- Four members are operations, under two tags. -/
theorem ofDocument_groups_mixed :
    ∃ items catalog, mixedDocument.hasTextKeys ∧
      mixedDocument.get? "paths" = some (.object items) ∧
      ofDocument mixedDocument [] = .ok catalog ∧
      catalog.map Prod.fst = ["petStore", "default"] ∧ catalog.count = 4 ∧
      catalog.Groups ((Document.methodMembers items).map
        (PathMember.operation (BasePath.ofList []))) := by
  have hkeys : mixedDocument.hasTextKeys := by decide
  obtain ⟨catalog, hcatalog, hgroups⟩ := ofDocument_groups hkeys rfl []
  have hrun : ∃ catalog, ofDocument mixedDocument [] = .ok catalog ∧
      catalog.map Prod.fst = ["petStore", "default"] ∧ catalog.count = 4 :=
    ⟨_, rfl, by decide +kernel, by decide +kernel⟩
  obtain ⟨catalog', hrun, htags, hcount⟩ := hrun
  obtain rfl := Except.ok.inj (hcatalog.symm.trans hrun)
  exact ⟨_, catalog, hkeys, rfl, hcatalog, htags, hcount, hgroups⟩

end Catalog

end ClientGen
