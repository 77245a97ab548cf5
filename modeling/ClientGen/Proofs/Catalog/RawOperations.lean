import ClientGen.Proofs.Catalog.Members

/-!
# Where an operation is found again

A catalog keeps the path and the method of an operation, and the raw operation is looked for again
under these. What is found is the first object of the path item whose key has the capital letters of
the method. Another object may stand before the one that the operation was made of.

* `Operation.position`: the position in the path item at which an operation is found.
* `Operation.raw_own_iff`: an operation is found where it was made, unless an object before that has
  a key with the same capital letters.
* `Operation.raw_not_always_own`: two objects under one method.
-/

namespace ClientGen

namespace Operation

variable {document : Node} {items item before after raw : Fields} {path key : Key} {o : Operation}

/-- The position of the member of a path item that is found for an operation. -/
def position (o : Operation) (item : Fields) : Nat :=
  List.findIdx (fun m => Naming.upperCase m.1.label == o.method && m.2.isObject) item

/-- The raw operation is what stands at the position. -/
theorem raw_eq (hitem : o.pathItem document = .ok item) :
    o.raw document = .ok (((item[o.position item]?).map fun m => m.2.fields).getD []) := by
  rw [Operation.raw, hitem, position, ← List.find?_eq_getElem?_findIdx]
  rfl

/-- The operation of a member is found at the position of the member unless an object before that
has a key with the same capital letters. -/
theorem position_eq_length_iff (hmethod : o.method = Naming.upperCase key.label) :
    o.position (before ++ (key, .object raw) :: after) = before.length ↔
      ∀ m ∈ before, m.2.isObject → Naming.upperCase m.1.label ≠ Naming.upperCase key.label := by
  have hown : (Naming.upperCase key.label == o.method && (Node.object raw).isObject) = true := by
    simp [hmethod, Node.isObject]
  rw [position, List.findIdx_append, List.findIdx_cons, hown]
  constructor
  · intro hposition m hm hobject heq
    -- Up to the member nothing was found.
    have hlt : List.findIdx (fun m => Naming.upperCase m.1.label == o.method && m.2.isObject) before
        < before.length := List.findIdx_lt_length.mpr ⟨m, hm, by simp [hmethod, heq, hobject]⟩
    rw [if_pos hlt] at hposition
    omega
  · intro hnone
    rw [if_neg, cond_true, Nat.zero_add]
    intro hlt
    obtain ⟨m, hm, hfound⟩ := List.findIdx_lt_length.mp hlt
    rw [Bool.and_eq_true, beq_iff_eq] at hfound
    exact hnone m hm hfound.2 (hfound.1.trans hmethod)

/-- The path item of an operation, in a document whose paths are different. -/
theorem pathItem_eq (hpaths : Document.paths document = .ok items) (hdistinct : items.Distinct)
    (hitem : (o.pathKey, .object item) ∈ items) : o.pathItem document = .ok item := by
  rw [Operation.pathItem, hpaths]
  show Except.ok (((Fields.value? items o.pathKey).map Node.fields).getD []) = _
  rw [hdistinct.value?_of_mem hitem]
  rfl

/-- The operation that the catalog has for an object under a method is found again as the first
object of the path item whose key has the same capital letters. This is the object that the
operation was made of exactly if no object with such a key stands before it. -/
theorem raw_own_iff (hkeys : document.hasTextKeys)
    (hpaths : document.get? "paths" = some (.object items)) (hdistinct : items.Distinct)
    (hitem : (path, .object item) ∈ items) (hsplit : item = before ++ (key, .object raw) :: after)
    (hmethod : Document.SpellsMethod key.label) (basePaths : List String)
    (ho : o = PathMember.operation (BasePath.ofList basePaths) ⟨path, key, .object raw⟩) :
    ∃ catalog found, Catalog.ofDocument document basePaths = .ok catalog ∧
      o ∈ catalog.operations ∧
      item[o.position item]? = some found ∧ o.raw document = .ok found.2.fields ∧
      (o.position item = before.length ↔
        ∀ m ∈ before, m.2.isObject →
          Naming.upperCase m.1.label ≠ Naming.upperCase key.label) ∧
      (o.position item = before.length → found = (key, .object raw)) := by
  obtain ⟨catalog, hcatalog, hgroups⟩ := Catalog.ofDocument_groups hkeys hpaths basePaths
  have hown : o.method = Naming.upperCase key.label := ho ▸ rfl
  have hmember : (key, .object raw) ∈ item := by simp [hsplit]
  have hmem : o ∈ catalog.operations := by
    refine hgroups.conserved.mem_iff.mpr (List.mem_map.mpr ⟨_, ?_, ho.symm⟩)
    refine List.mem_filter.mpr ⟨List.mem_flatMap.mpr ⟨_, hitem, ?_⟩, ?_⟩
    · exact List.mem_map.mpr ⟨_, hmember, rfl⟩
    · simp [hmethod, Node.isObject]
  have hpathItem : o.pathItem document = .ok item :=
    pathItem_eq (Document.paths_eq hpaths) hdistinct (ho ▸ hitem)
  -- At the latest the object that the operation was made of is found.
  have hlt : o.position item < item.length :=
    List.findIdx_lt_length.mpr ⟨_, hmember, by simp [hown, Node.isObject]⟩
  refine ⟨catalog, _, hcatalog, hmem, List.getElem?_eq_getElem hlt, ?_, ?_, fun hposition => ?_⟩
  · rw [raw_eq hpathItem, List.getElem?_eq_getElem hlt]
    rfl
  · rw [hsplit]
    exact position_eq_length_iff hown
  · have hfound : item[o.position item]? = some (key, .object raw) := by
      rw [hposition, hsplit]
      simp
    exact Option.some.inj ((List.getElem?_eq_getElem hlt).symm.trans hfound)

/-- A path item with one method in two spellings. -/
def twiceSpelled : Fields :=
  [(.text "get", .object [(.text "operationId", .text "listPets")]),
    (.text "GET", .object [(.text "operationId", .text "findPets")])]

/-- The paths of a document with this path item. -/
def twiceSpelledPaths : Fields := [(.text "/pets", .object twiceSpelled)]

/-- The operation of the second object is found at the position of the first. -/
theorem raw_own_iff_twice_spelled :
    ∃ (document : Node) (before after raw : Fields) (o : Operation), document.hasTextKeys ∧
      document.get? "paths" = some (.object twiceSpelledPaths) ∧ twiceSpelledPaths.Distinct ∧
      (.text "/pets", .object twiceSpelled) ∈ twiceSpelledPaths ∧
      twiceSpelled = before ++ (.text "GET", .object raw) :: after ∧
      Document.SpellsMethod (Key.text "GET").label ∧
      o = PathMember.operation (BasePath.ofList []) ⟨.text "/pets", .text "GET", .object raw⟩ ∧
      o.position twiceSpelled = 0 ∧ before.length = 1 ∧
      ∃ catalog found, Catalog.ofDocument document [] = .ok catalog ∧
        o ∈ catalog.operations ∧
        twiceSpelled[o.position twiceSpelled]? = some found ∧
        o.raw document = .ok found.2.fields ∧
        (o.position twiceSpelled = before.length ↔
          ∀ m ∈ before, m.2.isObject →
            Naming.upperCase m.1.label ≠ Naming.upperCase (Key.text "GET").label) ∧
        (o.position twiceSpelled = before.length → found = (.text "GET", .object raw)) := by
  let document : Node := .object [(.text "paths", .object twiceSpelledPaths)]
  have hkeys : document.hasTextKeys := by decide
  have hmethod : Document.SpellsMethod (Key.text "GET").label := by decide +kernel
  have hdistinct : twiceSpelledPaths.Distinct := List.pairwise_singleton _ _
  have hitem : (.text "/pets", .object twiceSpelled) ∈ twiceSpelledPaths := List.mem_cons_self
  exact ⟨document, [(.text "get", .object [(.text "operationId", .text "listPets")])], [],
    [(.text "operationId", .text "findPets")], _, hkeys, rfl, hdistinct, hitem, rfl, hmethod, rfl,
    by decide +kernel, rfl, raw_own_iff hkeys rfl hdistinct hitem rfl hmethod [] rfl⟩

/-- It is not so that the raw operation that is found is always the one that the operation was made
of. -/
theorem raw_not_always_own :
    ¬ ∀ (document : Node) (items : Fields) (basePaths : List String) (m : PathMember),
      document.hasTextKeys → document.get? "paths" = some (.object items) → items.Distinct →
      m ∈ Document.methodMembers items →
      (m.operation (BasePath.ofList basePaths)).raw document = .ok m.value.fields := by
  intro h
  let document : Node := .object [(.text "paths", .object twiceSpelledPaths)]
  let second : PathMember :=
    ⟨.text "/pets", .text "GET", .object [(.text "operationId", .text "findPets")]⟩
  have hmembers : second ∈ Document.methodMembers twiceSpelledPaths := by
    refine List.mem_filter.mpr ⟨List.mem_cons_of_mem _ List.mem_cons_self, ?_⟩
    decide +kernel
  have hsecond := h document _ [] second (by decide) rfl (List.pairwise_singleton _ _) hmembers
  have hpathItem : (second.operation (BasePath.ofList [])).pathItem document = .ok twiceSpelled :=
    pathItem_eq rfl (List.pairwise_singleton _ _) List.mem_cons_self
  -- The first object is found, which has another id.
  have hposition : (second.operation (BasePath.ofList [])).position twiceSpelled = 0 := by
    decide +kernel
  rw [raw_eq hpathItem, hposition] at hsecond
  simp [twiceSpelled, second, Node.fields] at hsecond

end Operation

end ClientGen
