import ClientGen.Catalog
import ClientGen.Proofs.Failure
import ClientGen.Proofs.Node.Updates

/-!
# Operations by tag

A catalog is made by adding operations one after another. What comes out is a grouping: the tags in
the order in which they come first, and under each tag its operations in their order.

* `Document.exists_of_mem_operations`: the path and the key that an operation was made of.
* `Catalog.Groups`: a catalog holds the operations of a list by tag.
* `Catalog.ofOperations_eq`: operations that are added one after another.
* `Catalog.exists_of_ofDocument`: the catalog of a document groups its operations.
-/

namespace ClientGen

namespace Document

variable {document : Node} {basePaths : List String} {os : List Operation} {o : Operation}

/-- An operation of a document was made of a path, and of a key and the raw operation in its path
item. -/
theorem exists_of_mem_operations (h : operations document basePaths = .ok os) (ho : o ∈ os) :
    ∃ items, paths document = .ok items ∧ ∃ item ∈ items, ∃ raw ∈ rawOperations item.2,
      operation basePaths item.1 raw.1 raw.2 = .ok o := by
  unfold operations at h
  cases hpaths : paths document with
  | error e => simp [hpaths, bind, Except.bind] at h
  | ok items =>
    simp only [hpaths, bind, Except.bind] at h
    obtain ⟨place, hplace, hmade⟩ := exists_of_mem_forall₂ (forall₂_of_mapM h) ho
    obtain ⟨item, hitem, hplace⟩ := List.mem_flatMap.mp hplace
    obtain ⟨raw, hraw, rfl⟩ := List.mem_map.mp hplace
    exact ⟨items, rfl, item, hitem, raw, hraw, hmade⟩

/-- What an operation takes from where it was found. -/
theorem eq_of_operation {pathKey methodKey : Key} {raw : Fields}
    (h : operation basePaths pathKey methodKey raw = .ok o) :
    o = { path := BasePath.strip pathKey.label basePaths, pathKey
          method := Naming.upperCase methodKey.label
          tag := tagOf raw
          operationId := textMember raw "operationId"
          summary := textMember raw "summary"
          description := textMember raw "description" } := by
  rw [operation, strippedPath] at h
  split at h
  · exact (Except.ok.inj h).symm
  · cases h

end Document

namespace Catalog

variable {catalog : Catalog} {os : List Operation}

/-- Operations grouped by tag: the tags in the order in which they come first, with the operations
of each in the given order. -/
def grouped (os : List Operation) : Catalog :=
  (os.map Operation.tag).eraseDups.map fun tag => (tag, os.filter (·.tag = tag))

/-- A catalog holds the operations of a list by tag. -/
structure Groups (catalog : Catalog) (os : List Operation) : Prop where
  /-- The tags stand in the order in which they come first. -/
  tags : catalog.map Prod.fst = (os.map Operation.tag).eraseDups
  /-- No tag comes twice. -/
  distinct : (catalog.map Prod.fst).Nodup
  /-- Under a tag are the operations that have it, in the order of the list. -/
  entries : ∀ entry ∈ catalog, entry.2 = os.filter (·.tag = entry.1)
  /-- No operation is lost, and none is there more often than in the list. -/
  conserved : catalog.operations.Perm os
  /-- All operations are counted. -/
  count : catalog.count = os.length

/-- An operation goes to the end of its group if the tag has one; otherwise it gets a group at the
end. -/
theorem add_map {tags : List String} (hnodup : tags.Nodup) (f : String → List Operation)
    (o : Operation) : add (tags.map fun tag => (tag, f tag)) o =
      if o.tag ∈ tags then tags.map fun tag => (tag, if tag = o.tag then f tag ++ [o] else f tag)
      else tags.map (fun tag => (tag, f tag)) ++ [(o.tag, [o])] := by
  induction tags with
  | nil => rfl
  | cons tag rest ih =>
    obtain ⟨hnew, hnodup⟩ := List.nodup_cons.mp hnodup
    rw [List.map_cons, add]
    by_cases htag : tag = o.tag
    · -- No further tag is that of the operation.
      have hrest : ∀ tag' ∈ rest, tag' ≠ o.tag := by
        rintro tag' htag' rfl
        exact hnew (htag ▸ htag')
      rw [if_pos htag, if_pos (List.mem_cons.mpr (.inl htag.symm)), List.map_cons, if_pos htag]
      refine congrArg (List.cons _) (List.map_congr_left fun tag' htag' => ?_)
      rw [if_neg (hrest tag' htag')]
    · rw [if_neg htag, ih hnodup]
      have hmem : o.tag ∈ tag :: rest ↔ o.tag ∈ rest := by simp [Ne.symm htag]
      by_cases hrest : o.tag ∈ rest
      · rw [if_pos hrest, if_pos (hmem.mpr hrest), List.map_cons, if_neg htag]
      · rw [if_neg hrest, if_neg (mt hmem.mp hrest), List.cons_append]

/-- One more operation is added behind those of its tag. -/
theorem add_grouped (os : List Operation) (o : Operation) :
    add (grouped os) o = grouped (os ++ [o]) := by
  have hfilter : ∀ tag, (os ++ [o]).filter (·.tag = tag)
      = if tag = o.tag then os.filter (·.tag = tag) ++ [o] else os.filter (·.tag = tag) := by
    intro tag
    rw [List.filter_append, List.filter_cons]
    by_cases htag : tag = o.tag
    · rw [if_pos htag, if_pos (by simp [htag]), List.filter_nil]
    · rw [if_neg htag, if_neg (by simp [Ne.symm htag]), List.filter_nil, List.append_nil]
  rw [grouped, add_map (nodup_eraseDups _), grouped, List.map_append, List.map_cons, List.map_nil,
    eraseDups_concat]
  by_cases hmem : o.tag ∈ os.map Operation.tag
  · rw [if_pos (List.mem_eraseDups.mpr hmem), if_pos (List.contains_iff_mem.mpr hmem)]
    exact List.map_congr_left fun tag _ => by rw [hfilter]
  · -- The tag is new, so no operation had it before.
    have hnone : os.filter (·.tag = o.tag) = [] := by
      refine List.filter_eq_nil_iff.mpr fun o' ho' => ?_
      have hother : o'.tag ≠ o.tag := fun heq => hmem (heq ▸ List.mem_map_of_mem ho')
      simpa using hother
    rw [if_neg (mt List.mem_eraseDups.mp hmem), if_neg (mt List.contains_iff_mem.mp hmem),
      List.map_append, List.map_cons, List.map_nil, hfilter, if_pos rfl, hnone, List.nil_append]
    refine congrArg (· ++ _) (List.map_congr_left fun tag htag => ?_)
    have hother : tag ≠ o.tag := by
      rintro rfl
      exact hmem (List.mem_eraseDups.mp htag)
    rw [hfilter, if_neg hother]

/-- Operations that are added one after another are grouped by tag. -/
theorem ofOperations_eq (os : List Operation) : ofOperations os = grouped os := by
  induction os using List.reverseRecOn with
  | nil => rfl
  | append_singleton os o ih =>
    rw [ofOperations, List.foldl_append, ← ofOperations, ih]
    exact add_grouped os o

/-- Adding an operation keeps all others and brings this one. -/
theorem operations_add (catalog : Catalog) (o : Operation) :
    (add catalog o).operations.Perm (catalog.operations ++ [o]) := by
  induction catalog with
  | nil => exact .refl _
  | cons entry rest ih =>
    obtain ⟨tag, os⟩ := entry
    rw [add]
    split
    · -- The operation comes before those of the tags behind.
      show (os ++ [o] ++ operations rest).Perm (os ++ operations rest ++ [o])
      rw [List.append_assoc, List.append_assoc]
      exact List.perm_append_comm.append_left os
    · show (os ++ operations (add rest o)).Perm (os ++ operations rest ++ [o])
      rw [List.append_assoc]
      exact ih.append_left os

/-- Adding operations one by one keeps all others and brings these. -/
theorem operations_foldl_add (catalog : Catalog) (os : List Operation) :
    (os.foldl add catalog).operations.Perm (catalog.operations ++ os) := by
  induction os generalizing catalog with
  | nil => simp
  | cons o os ih =>
    calc (os.foldl add (add catalog o)).operations
      List.Perm _ ((add catalog o).operations ++ os) := ih _
      List.Perm _ (catalog.operations ++ [o] ++ os) := (operations_add catalog o).append_right os
      _ = catalog.operations ++ o :: os := by simp

/-- The count of a catalog is the number of its operations. -/
theorem count_eq_length (catalog : Catalog) : catalog.count = catalog.operations.length := by
  have hfold : ∀ n, catalog.foldl (fun n t => n + t.2.length) n
      = n + catalog.operations.length := by
    induction catalog with
    | nil => exact fun n => rfl
    | cons entry rest ih =>
      intro n
      rw [List.foldl_cons, ih, operations, operations, List.flatMap_cons, List.length_append]
      omega
  rw [count, hfold, Nat.zero_add]

/-- The catalog of some operations groups them. -/
theorem groups_ofOperations (os : List Operation) : Groups (ofOperations os) os := by
  have htags : (ofOperations os).map Prod.fst = (os.map Operation.tag).eraseDups := by
    rw [ofOperations_eq, grouped, List.map_map]
    exact List.map_id _
  have hconserved : (ofOperations os).operations.Perm os := operations_foldl_add [] os
  refine ⟨htags, htags ▸ nodup_eraseDups _, fun entry hentry => ?_, hconserved, ?_⟩
  · rw [ofOperations_eq] at hentry
    obtain ⟨tag, -, rfl⟩ := List.mem_map.mp hentry
    rfl
  · rw [count_eq_length, hconserved.length_eq]

/-- A catalog that is made of a document holds the operations of the document. -/
theorem exists_of_ofDocument {document : Node} {basePaths : List String}
    (h : ofDocument document basePaths = .ok catalog) :
    ∃ os, Document.operations document (BasePath.ofList basePaths) = .ok os ∧
      catalog.Groups os := by
  rw [ofDocument] at h
  cases hos : Document.operations document (BasePath.ofList basePaths) with
  | error f =>
    rw [hos] at h
    cases h
  | ok os =>
    rw [hos] at h
    obtain rfl := Except.ok.inj h
    exact ⟨os, rfl, groups_ofOperations os⟩

end Catalog

end ClientGen
