import ClientGen.Proofs.Endpoint.Operations
import Mathlib.Data.List.Perm.Subperm

/-!
# Names of endpoints

The endpoints of a tag get distinct names, made of ASCII letters and digits: a name that is taken
goes on with the HTTP method, and with a number where that is not enough.

* `Endpoint.freeName_not_mem`: among one more candidates than there are names that are taken, one is
  free.
* `Endpoint.nodup_distinctNames`: the final names are distinct.
* `Operation.alphanumeric_methodName`: the name of an operation.
* `EndpointGroup.nodup_names`, `EndpointGroup.alphanumeric_name`: the names of a group.
-/

namespace ClientGen

open Text

namespace Endpoint

variable {taken : List String} {base name httpMethod : String}

/-! ## Distinct names -/

/-- The candidates for a free name. -/
def candidates (taken : List String) (base : String) : List String :=
  base :: (List.range (taken.length + 1)).map fun i => base ++ toString (i + 2)

/-- No candidate for a free name comes twice. -/
theorem nodup_candidates (taken : List String) (base : String) :
    (candidates taken base).Nodup := by
  rw [candidates, List.nodup_cons]
  constructor
  · intro hbase
    obtain ⟨i, -, hi⟩ := List.mem_map.mp hbase
    -- A number is not empty.
    have hlength := congrArg String.length hi
    rw [String.length_append] at hlength
    have hdigits : (toString (i + 2)).length ≠ 0 := by
      rw [Nat.toString_eq_ofList_toDigits, String.length_ofList]
      exact fun h => Nat.toDigits_ne_nil (List.length_eq_zero_iff.mp h)
    omega
  · refine List.nodup_range.map fun i j hij => ?_
    have hdigits : toString (i + 2) = toString (j + 2) := by
      simpa [String.append_right_inj] using hij
    rw [Nat.toString_eq_ofList_toDigits, Nat.toString_eq_ofList_toDigits] at hdigits
    -- The number can be read back from its digits.
    have hread := congrArg (fun s : String => Nat.ofDigitChars 10 s.toList 0) hdigits
    simp only [String.toList_ofList, Nat.ofDigitChars_toDigits (by decide : 1 < 10) (by decide)]
      at hread
    omega

/-- A free name is not taken. -/
theorem freeName_not_mem (taken : List String) (base : String) : freeName taken base ∉ taken := by
  change ((candidates taken base).find? fun name => !taken.contains name).getD base ∉ taken
  cases hfound : (candidates taken base).find? fun name => !taken.contains name with
  | some name => simpa using List.find?_some hfound
  | none =>
    -- All candidates would be taken, and they are more than there are taken names.
    rw [List.find?_eq_none] at hfound
    have hsubset : candidates taken base ⊆ taken := by
      intro name hname
      simpa using hfound name hname
    have hlength := ((nodup_candidates taken base).subperm hsubset).length_le
    simp only [candidates, List.length_cons, List.length_map, List.length_range] at hlength
    omega

/-- The name that an entry gets in the end is not one of those that are taken. -/
theorem finalName_not_mem (taken : List String) (name httpMethod : String) :
    finalName taken name httpMethod ∉ taken := by
  rw [finalName]
  split
  · exact freeName_not_mem taken _
  · rename_i hfree
    simpa using hfree

/-- The final names are distinct, and none of them was taken before. -/
theorem nodup_distinctNamesFrom (taken : List String) (entries : List (String × String)) :
    (distinctNamesFrom taken entries).Nodup ∧ ∀ name ∈ distinctNamesFrom taken entries,
      name ∉ taken := by
  induction entries generalizing taken with
  | nil => simp [distinctNamesFrom]
  | cons entry rest ih =>
    obtain ⟨name, httpMethod⟩ := entry
    obtain ⟨hnodup, hfresh⟩ := ih (taken ++ [finalName taken name httpMethod])
    rw [distinctNamesFrom]
    refine ⟨List.nodup_cons.mpr ⟨?_, hnodup⟩, List.forall_mem_cons.mpr ⟨?_, ?_⟩⟩
    · -- The rest avoids what was taken before it, and so the first name.
      intro hagain
      exact hfresh _ hagain (by simp)
    · exact finalName_not_mem taken name httpMethod
    · intro later hlater htaken
      exact hfresh later hlater (List.mem_append_left _ htaken)

/-- The names in the end are distinct. -/
theorem nodup_distinctNames (entries : List (String × String)) : (distinctNames entries).Nodup :=
  (nodup_distinctNamesFrom [] entries).1

/-- Every entry gets one name. -/
theorem length_distinctNamesFrom (taken : List String) (entries : List (String × String)) :
    (distinctNamesFrom taken entries).length = entries.length := by
  induction entries generalizing taken with
  | nil => rfl
  | cons entry rest ih => rw [distinctNamesFrom, List.length_cons, ih, List.length_cons]

/-! ## Letters and digits -/

/-- A name of ASCII letters and digits; it may be empty. -/
def Alphanumeric (name : String) : Prop := ∀ c ∈ name.toList, isAsciiAlphanumeric c

instance : DecidablePred Alphanumeric :=
  fun name => List.decidableBAll (fun c => isAsciiAlphanumeric c = true) name.toList

/-- Letters and digits with letters and digits behind them are letters and digits. -/
theorem Alphanumeric.append {more : String} (h : Alphanumeric name) (hmore : Alphanumeric more) :
    Alphanumeric (name ++ more) := by
  intro c hc
  rw [String.toList_append, List.mem_append] at hc
  exact hc.elim (h c) (hmore c)

/-- The digits of a number are digits. -/
theorem alphanumeric_toString (n : Nat) : Alphanumeric (toString n) := by
  intro c hc
  rw [Nat.toString_eq_ofList_toDigits, String.toList_ofList] at hc
  have hdigit := Nat.isDigit_of_mem_toDigits (by decide) (by decide) hc
  have hascii : isAsciiDigit c := hdigit
  rw [isAsciiAlphanumeric, hascii, Bool.or_true]

/-- A free name made from letters and digits has letters and digits only. -/
theorem alphanumeric_freeName (h : Alphanumeric base) : Alphanumeric (freeName taken base) := by
  change Alphanumeric
    (((candidates taken base).find? fun name => !taken.contains name).getD base)
  cases hfound : (candidates taken base).find? fun name => !taken.contains name with
  | none => exact h
  | some name =>
    rcases List.mem_cons.mp (List.mem_of_find?_eq_some hfound) with rfl | hname
    · exact h
    · obtain ⟨i, -, rfl⟩ := List.mem_map.mp hname
      exact h.append (alphanumeric_toString _)

/-- The final names are made of letters and digits if the names and the methods are. -/
theorem alphanumeric_distinctNamesFrom {entries : List (String × String)}
    (h : ∀ entry ∈ entries,
      Alphanumeric entry.1 ∧ Alphanumeric (Naming.capitalizeWord entry.2)) :
    ∀ name ∈ distinctNamesFrom taken entries, Alphanumeric name := by
  induction entries generalizing taken with
  | nil => simp [distinctNamesFrom]
  | cons entry rest ih =>
    obtain ⟨name, httpMethod⟩ := entry
    rw [List.forall_mem_cons] at h
    rw [distinctNamesFrom]
    refine List.forall_mem_cons.mpr ⟨?_, ih h.2⟩
    rw [finalName]
    split
    · exact alphanumeric_freeName (h.1.1.append h.1.2)
    · exact h.1.1

end Endpoint

/-- The name of the method for an operation has letters and digits only. -/
theorem Operation.alphanumeric_methodName (o : Operation) :
    Endpoint.Alphanumeric (methodName o) := by
  rw [methodName]
  split
  · split
    · exact fun c => Naming.alphanumeric_camelCase _
    · rename_i name hname _
      obtain ⟨id, -, rfl⟩ := Option.map_eq_some_iff.mp hname
      exact fun c => Naming.alphanumeric_camelCase _
  · exact fun c => Naming.alphanumeric_camelCase _

/-- What the method of an operation adds to a name is made of letters. -/
theorem Operation.alphanumeric_method {o : Operation}
    (h : o.method ∈ httpMethods.map Naming.upperCase) :
    Endpoint.Alphanumeric (Naming.capitalizeWord (Naming.lowerCase o.method)) := by
  have hmethods : ∀ m ∈ httpMethods.map Naming.upperCase,
      Endpoint.Alphanumeric (Naming.capitalizeWord (Naming.lowerCase m)) := by
    decide +kernel
  exact hmethods o.method h

/-! ## Groups -/

namespace Endpoint

variable {models : ModelSet} {os : List Operation} {endpoints : List Endpoint}

/-- The names under which operations become endpoints. -/
def namesOf (os : List Operation) : List String :=
  distinctNames (os.map fun o => (Operation.methodName o, Naming.lowerCase o.method))

/-- The endpoints of some operations, each under its final name. -/
theorem eq_zipWith_of_ofOperations (h : ofOperations models os = .ok endpoints) :
    endpoints = List.zipWith (fun o name => ofOperation o (models.types.lookup o) name) os
      (namesOf os) := by
  rw [ofOperations] at h
  cases hpaths : os.mapM pathText with
  | error e =>
    rw [hpaths] at h
    cases h
  | ok paths =>
    rw [hpaths] at h
    exact (Except.ok.inj h).symm

/-- The names of the endpoints are those under which the operations become endpoints, in the same
order. -/
theorem map_name_of_ofOperations (h : ofOperations models os = .ok endpoints) :
    endpoints.map Endpoint.name = namesOf os := by
  have hlength : (namesOf os).length = os.length := by
    rw [namesOf, distinctNames, length_distinctNamesFrom, List.length_map]
  rw [eq_zipWith_of_ofOperations h, List.map_zipWith, ← List.map_uncurry_zip_eq_zipWith]
  exact List.map_snd_zip hlength.le

/-- The endpoints have the methods, paths and descriptions of their operations, in order. -/
theorem map_shown_of_ofOperations (h : ofOperations models os = .ok endpoints) :
    endpoints.map (fun e => (e.method, e.path, e.description))
      = os.map fun o => (o.method, o.path, describe o) := by
  have hlength : os.length = (namesOf os).length := by
    rw [namesOf, distinctNames, length_distinctNamesFrom, List.length_map]
  rw [eq_zipWith_of_ofOperations h, List.map_zipWith, ← List.map_uncurry_zip_eq_zipWith]
  conv => rhs; rw [← List.map_fst_zip hlength.le, List.map_map]
  rfl

end Endpoint

namespace EndpointGroup

variable {document : Node} {basePaths : List String} {catalog : Catalog} {models : ModelSet}
  {groups : List EndpointGroup} {g : EndpointGroup}

/-- The endpoints of a group have distinct names. -/
theorem nodup_names (hgroups : ofCatalog models catalog = .ok groups) (hg : g ∈ groups) :
    (g.endpoints.map Endpoint.name).Nodup := by
  obtain ⟨os, -, hendpoints⟩ := exists_of_mem hgroups hg
  rw [Endpoint.map_name_of_ofOperations hendpoints]
  exact Endpoint.nodup_distinctNames _

/-- The endpoints of a group have names of letters and digits. -/
theorem alphanumeric_name (hcatalog : Catalog.ofDocument document basePaths = .ok catalog)
    (hgroups : ofCatalog models catalog = .ok groups) (hg : g ∈ groups) :
    ∀ e ∈ g.endpoints, Endpoint.Alphanumeric e.name := by
  obtain ⟨os, hentry, hendpoints⟩ := exists_of_mem hgroups hg
  intro e he
  -- The names come from those of operations, continued by their methods and by numbers.
  have hname := List.mem_map_of_mem (f := Endpoint.name) he
  rw [Endpoint.map_name_of_ofOperations hendpoints] at hname
  refine Endpoint.alphanumeric_distinctNamesFrom (fun entry hmem => ?_) _ hname
  obtain ⟨o, ho, rfl⟩ := List.mem_map.mp hmem
  have hmethod := Catalog.method_mem_of_mem_operations hcatalog
    (Catalog.mem_operations_of_mem hentry ho)
  exact ⟨o.alphanumeric_methodName, Operation.alphanumeric_method hmethod⟩

/-- The operations, models and groups of a document, if it goes through. -/
def ofDocument? (document : Node) (basePaths : List String) :
    Option (Catalog × ModelSet × List EndpointGroup) := do
  let catalog ← (Catalog.ofDocument document basePaths).toOption
  let models ← ((Generation.models { document } catalog).run {}).1.toOption
  let groups ← (ofCatalog models catalog).toOption
  return (catalog, models, groups)

/-- If a document goes through, its catalog, models and groups are what reading, a pass and grouping
give. -/
theorem of_ofDocument? (h : ofDocument? document basePaths = some (catalog, models, groups)) :
    Catalog.ofDocument document basePaths = .ok catalog ∧
      (∃ session, (Generation.models { document } catalog).run {} = (.ok models, session)) ∧
      ofCatalog models catalog = .ok groups := by
  have hok : ∀ {α : Type} {r : Except Failure α} {a : α}, r.toOption = some a → r = .ok a := by
    intro α r a hr
    cases r with
    | error e => cases hr
    | ok a' => rw [Option.some.inj hr]
  obtain ⟨catalog', hcatalog, h⟩ := Option.bind_eq_some_iff.mp h
  obtain ⟨models', hmodels, h⟩ := Option.bind_eq_some_iff.mp h
  obtain ⟨groups', hgroups, h⟩ := Option.bind_eq_some_iff.mp h
  cases h
  exact ⟨hok hcatalog, ⟨_, Prod.ext (hok hmodels) rfl⟩, hok hgroups⟩

end EndpointGroup

end ClientGen
