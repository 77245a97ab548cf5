import ClientGen.Proofs.Endpoint.FinalNames
import ClientGen.Proofs.Endpoint.Signatures
import ClientGen.Proofs.Naming.Recasing

/-!
# Identifiers

The names that stand for an operation in generated code are made of words of what the author of a
document wrote. They consist of letters and digits, but a word may start with a digit, and so does a
name that begins with it. Of the parameters of a function, those for the path are distinct; only one
of them can share its name with one of the fixed names behind.

* `Naming.opensWithDigit`: the first letter or digit of a text is a digit.
* `Naming.isIdentifierText_camelCase_append_iff`: then it is no identifier in camel case.
* `Endpoint.exists_eq_ofOperation`: what an endpoint of a catalog is made of.
* `Endpoint.names_are_identifiers_iff`: which operations have identifiers for all names.
-/

namespace ClientGen

open Text

namespace Naming

/-- The first ASCII letter or digit of a text is a digit. -/
def opensWithDigit (text : String) : Bool :=
  (text.toList.find? isAsciiAlphanumeric).any isAsciiDigit

variable {c : Char} {cs : List Char} {name : String}

theorem isIdentifierPart_of_alphanumeric (h : isAsciiAlphanumeric c) : isIdentifierPart c := by
  rw [isAsciiAlphanumeric] at h
  rw [isIdentifierPart, isIdentifierStart]
  cases hdigit : isAsciiDigit c <;> simp_all

/-- A letter can start an identifier, and no digit can. -/
theorem isIdentifierStart_iff (h : isAsciiAlphanumeric c) :
    isIdentifierStart c ↔ isAsciiDigit c = false := by
  have hall : ∀ n < 128, isAsciiAlphanumeric (Char.ofNat n) →
      (isIdentifierStart (Char.ofNat n) ↔ isAsciiDigit (Char.ofNat n) = false) := by decide +kernel
  exact of_ascii (p := fun c => isAsciiAlphanumeric c →
    (isIdentifierStart c ↔ isAsciiDigit c = false)) hall (toNat_lt_of_isAsciiAlphanumeric h) h

/-- Letters and digits are an identifier if the first of them is a letter. -/
theorem isIdentifierText_cons_iff (h : ∀ d ∈ c :: cs, isAsciiAlphanumeric d) :
    isIdentifierText (c :: cs) ↔ isAsciiDigit c = false := by
  obtain ⟨hc, hcs⟩ := List.forall_mem_cons.mp h
  have hparts : cs.all isIdentifierPart :=
    List.all_eq_true.mpr fun d hd => isIdentifierPart_of_alphanumeric (hcs d hd)
  rw [isIdentifierText, hparts, Bool.and_true, isIdentifierStart_iff hc]

theorem isIdentifierText_iff (h : Endpoint.Alphanumeric name) (hne : name ≠ "") :
    isIdentifierText name.toList ↔ opensWithDigit name = false := by
  obtain ⟨c, cs, hname⟩ := List.exists_cons_of_ne_nil
    (fun hnil => hne (String.toList_inj.mp hnil) : name.toList ≠ [])
  have halpha : ∀ d ∈ c :: cs, isAsciiAlphanumeric d := hname ▸ h
  have hfirst := halpha c List.mem_cons_self
  rw [opensWithDigit, hname, isIdentifierText_cons_iff halpha, List.find?_cons_of_pos hfirst]
  rfl

/-- Whether a text opens with a digit is seen from its letters and digits. -/
theorem opensWithDigit_eq (name : String) :
    opensWithDigit name = (name.toList.filter isAsciiAlphanumeric).head?.any isAsciiDigit := by
  rw [opensWithDigit, List.head?_filter]

/-- In camel case a name opens with a digit exactly if it does so as it is. -/
theorem opensWithDigit_camelCase (name : String) :
    opensWithDigit (camelCase name) = opensWithDigit name := by
  have halpha : (camelCase name).toList.filter isAsciiAlphanumeric = (camelCase name).toList :=
    List.filter_eq_self.mpr fun _ hd => alphanumeric_camelCase name hd
  rw [opensWithDigit_eq, opensWithDigit_eq, halpha, ← flatten_words, camelCase,
    String.toList_ofList, toList_pascalCase]
  cases hwords : words name.toList with
  | nil => rfl
  | cons w ws =>
    have hw : w ∈ words name.toList := hwords ▸ List.mem_cons_self
    obtain ⟨c, v, rfl⟩ := List.exists_cons_of_ne_nil (ne_nil_of_mem_words hw)
    have hword : ∀ d ∈ c :: v, isAsciiAlphanumeric d := fun d hd => alphanumeric_of_mem_words hw hd
    obtain ⟨hcapital, -, hdigit⟩ := toUpper_kind (hword c List.mem_cons_self)
    -- Neither of the two changes of case turns a letter into a digit.
    rw [List.flatMap_cons, properCase_eq hword, List.cons_append, uncapitalize,
      lowerChar_eq hcapital, List.singleton_append, List.flatten_cons, List.cons_append,
      List.head?_cons, List.head?_cons, Option.any_some, Option.any_some,
      (toLower_kind hcapital).2.2, hdigit]

/-- What is put behind a text that is not empty does not change how it opens. -/
theorem isIdentifierText_append_iff {more : String} (h : Endpoint.Alphanumeric name)
    (hne : name ≠ "") (hmore : Endpoint.Alphanumeric more) :
    isIdentifierText (name ++ more).toList ↔ isIdentifierText name.toList := by
  obtain ⟨c, cs, hname⟩ := List.exists_cons_of_ne_nil
    (fun hnil => hne (String.toList_inj.mp hnil) : name.toList ≠ [])
  have halpha : ∀ d ∈ c :: cs, isAsciiAlphanumeric d := hname ▸ h
  have hboth : ∀ d ∈ c :: (cs ++ more.toList), isAsciiAlphanumeric d := by
    have happend := h.append hmore
    rwa [Endpoint.Alphanumeric, String.toList_append, hname, List.cons_append] at happend
  rw [String.toList_append, hname, List.cons_append, isIdentifierText_cons_iff hboth,
    isIdentifierText_cons_iff halpha]

/-- A constant that is called after a name opens as the name does. -/
theorem isIdentifierText_camelCase_append_iff {more : String} (name : String)
    (hmore : Endpoint.Alphanumeric more) (hidentifier : isIdentifierText more.toList) :
    isIdentifierText (camelCase name ++ more).toList ↔ opensWithDigit name = false := by
  have halpha : Endpoint.Alphanumeric (camelCase name) := fun _ => alphanumeric_camelCase name
  rw [← opensWithDigit_camelCase]
  by_cases hne : camelCase name = ""
  · rw [hne, String.empty_append]
    exact iff_of_true hidentifier rfl
  · rw [isIdentifierText_append_iff halpha hne hmore, isIdentifierText_iff halpha hne]

end Naming

/-! ## Names of operations -/

namespace Operation

variable {o : Operation}

/-- The name that follows from method and path opens with the method. -/
theorem nameFromPath_opens (h : o.method ∈ httpMethods.map Naming.upperCase) :
    nameFromPath o ≠ "" ∧ Naming.opensWithDigit (nameFromPath o) = false := by
  -- Every HTTP method begins with a letter, and so does the name, as the method leads it.
  have hmethods : ∀ m ∈ httpMethods.map Naming.upperCase,
      ((Naming.lowerCase m).toList.find? isAsciiAlphanumeric).any fun c => !isAsciiDigit c := by
    decide +kernel
  obtain ⟨c, hfound, hletter⟩ := (Option.any_eq_true _ _).mp (hmethods o.method h)
  obtain ⟨more, hmore⟩ : ∃ more,
      " ".intercalate (Naming.lowerCase o.method :: (tellingSegments o.path).map segmentWords)
        = Naming.lowerCase o.method ++ more := by
    cases (tellingSegments o.path).map segmentWords with
    | nil => exact ⟨"", by rw [String.intercalate_singleton, String.append_empty]⟩
    | cons x rest => exact ⟨_, by rw [String.intercalate_cons_cons, String.append_assoc]⟩
  rw [nameFromPath, hmore]
  constructor
  · refine Naming.camelCase_ne_empty ⟨c, ?_, List.find?_some hfound⟩
    rw [String.toList_append]
    exact List.mem_append_left _ (List.mem_of_find?_eq_some hfound)
  · rw [Naming.opensWithDigit_camelCase, Naming.opensWithDigit, String.toList_append,
      List.find?_append, hfound]
    simpa using hletter

/-- The name of an operation opens with a digit exactly if its cleaned id does. -/
theorem methodName_opens (h : o.method ∈ httpMethods.map Naming.upperCase) :
    methodName o ≠ "" ∧ (Naming.opensWithDigit (methodName o) = false ↔
      ∀ id ∈ o.operationId, Naming.opensWithDigit (Naming.cleanOperationId id) = false) := by
  obtain ⟨hne, hopens⟩ := nameFromPath_opens h
  rw [methodName]
  cases o.operationId with
  | none => simpa using ⟨hne, hopens⟩
  | some id =>
    dsimp only [Option.map_some]
    split
    · -- An identifier without a letter or digit is cleaned to nothing, and the path gives the name.
      rename_i hempty
      refine ⟨hne, iff_of_true hopens ?_⟩
      intro id' hid
      rw [← Option.some.inj hid, String.isEmpty_iff.mp hempty]
      rfl
    · rename_i hempty
      refine ⟨by simpa using hempty, ?_⟩
      simp

end Operation

/-! ## Names of endpoints -/

namespace Endpoint

variable {document : Node} {basePaths : List String} {catalog : Catalog} {models : ModelSet}
  {tag : String} {os : List Operation} {endpoints : List Endpoint} {o : Operation} {e : Endpoint}

/-- An endpoint is made of its operation, under the name that is left for it. -/
theorem exists_of_mem_zip (h : ofOperations models os = .ok endpoints)
    (hoe : (o, e) ∈ os.zip endpoints) : ∃ taken, e = ofOperation o (models.types.lookup o)
      (finalName taken (Operation.methodName o) (Naming.lowerCase o.method)) := by
  obtain ⟨i, hi⟩ := List.mem_iff_getElem?.mp hoe
  obtain ⟨hoi, hei⟩ := List.getElem?_zip_eq_some.mp hi
  rw [eq_zipWith_of_ofOperations h, List.getElem?_zipWith_eq_some] at hei
  obtain ⟨o', name, ho', hname, rfl⟩ := hei
  obtain rfl : o' = o := Option.some.inj (ho'.symm.trans hoi)
  have hentry : (os.map fun o => (Operation.methodName o, Naming.lowerCase o.method))[i]?
      = some (Operation.methodName o', Naming.lowerCase o'.method) := by
    rw [List.getElem?_map, hoi]
    rfl
  have hfinal : (namesOf os)[i]? = _ := getElem?_distinctNamesFrom hentry
  exact ⟨_, by rw [Option.some.inj (hname.symm.trans hfinal)]⟩

/-- A final name is the name of the operation, with letters and digits behind it if need be. -/
theorem exists_finalName (taken : List String) (name : String) {httpMethod : String}
    (h : Alphanumeric (Naming.capitalizeWord httpMethod)) :
    ∃ more, Alphanumeric more ∧ finalName taken name httpMethod = name ++ more := by
  -- A name is kept, continued with the method, or continued and numbered.
  have hends := endsUp_finalName taken name httpMethod
  generalize finalName taken name httpMethod = final at hends ⊢
  cases hends with
  | kept => exact ⟨"", by decide, String.append_empty.symm⟩
  | continued => exact ⟨_, h, rfl⟩
  | numbered n => exact ⟨_, h.append (alphanumeric_toString n), String.append_assoc ..⟩

/-- An endpoint of a catalog is made of its operation, under the name of the operation with letters
and digits behind it if need be; the operation has a method of HTTP. -/
theorem exists_eq_ofOperation (hcatalog : Catalog.ofDocument document basePaths = .ok catalog)
    (htag : (tag, os) ∈ catalog) (hendpoints : ofOperations models os = .ok endpoints)
    (hoe : (o, e) ∈ os.zip endpoints) :
    o.method ∈ httpMethods.map Naming.upperCase ∧ ∃ more, Alphanumeric more ∧
      e = ofOperation o (models.types.lookup o) (Operation.methodName o ++ more) := by
  have hmethod : o.method ∈ httpMethods.map Naming.upperCase :=
    Catalog.method_mem_of_mem_operations hcatalog
      (Catalog.mem_operations_of_mem htag (List.of_mem_zip hoe).1)
  obtain ⟨taken, he⟩ := exists_of_mem_zip hendpoints hoe
  obtain ⟨more, hmore, hfinal⟩ :=
    exists_finalName taken (Operation.methodName o) (Operation.alphanumeric_method hmethod)
  exact ⟨hmethod, more, hmore, hfinal ▸ he⟩

end Endpoint

/-! ## Arguments -/

namespace PathTemplate

variable {args : List String} {name : String}

/-- An argument opens as its parameter does; a numbered name opens with a letter. -/
theorem isIdentifierText_argument_iff (args : List String) (name : String) :
    Naming.isIdentifierText (argument args name).toList ↔ Naming.opensWithDigit name = false := by
  have halpha : Endpoint.Alphanumeric (Naming.camelCase name) :=
    fun _ => Naming.alphanumeric_camelCase name
  rw [← Naming.opensWithDigit_camelCase, argument]
  split
  · rename_i hempty
    rw [String.isEmpty_iff.mp hempty, Naming.isIdentifierText_append_iff (by decide) (by decide)
      (Endpoint.alphanumeric_toString _)]
    exact iff_of_true (by decide) rfl
  · rename_i hempty
    exact Naming.isIdentifierText_iff halpha (by simpa using hempty)

/-- There is a digit in every number. -/
theorem exists_digit (n : Nat) : ∃ c ∈ (toString n).toList, isAsciiDigit c := by
  rw [Nat.toString_eq_ofList_toDigits, String.toList_ofList]
  obtain ⟨c, hc⟩ := List.exists_mem_of_ne_nil _ (Nat.toDigits_ne_nil (n := n) (b := 10))
  exact ⟨c, hc, Nat.isDigit_of_mem_toDigits (by decide) (by decide) hc⟩

/-- No number makes an argument that is called like something that is carried. -/
theorem argument_eq_name_iff (args : List String) (name : String) (carried : Carried) :
    argument args name = carried.name ↔ Naming.camelCase name = carried.name := by
  have hletters : carried.name.toList.all fun c => !isAsciiDigit c := by
    cases carried <;> decide
  rw [argument]
  split
  · rename_i hempty
    -- The number has a digit, and none of the fixed names has one.
    rw [String.isEmpty_iff.mp hempty]
    refine iff_of_false (fun heq => ?_) (by cases carried <;> decide)
    obtain ⟨c, hc, hdigit⟩ := exists_digit (args.length + 1)
    have hmem : c ∈ carried.name.toList := by
      rw [← heq, String.toList_append]
      exact List.mem_append_right _ hc
    have hletter := List.all_eq_true.mp hletters c hmem
    rw [hdigit] at hletter
    cases hletter
  · rfl

end PathTemplate

/-! ## All names of an endpoint -/

namespace Endpoint

variable {document : Node} {basePaths : List String} {catalog : Catalog} {models : ModelSet}
  {tag : String} {os : List Operation} {endpoints : List Endpoint} {o : Operation} {e : Endpoint}

/-- The parameters have identifiers for names unless one of the path opens with a digit. -/
theorem forall_identifier_arguments_iff (e : Endpoint) (headers : Bool)
    (h : e.template = .ofPath e.path) :
    (∀ name ∈ (e.arguments headers).map Argument.name, Naming.isIdentifierText name.toList) ↔
      ∀ parameter ∈ BasePath.parameters e.path, Naming.opensWithDigit parameter = false := by
  have hcarried : ∀ name ∈ (e.carried headers).map Carried.name,
      Naming.isIdentifierText name.toList := by
    intro name hname
    obtain ⟨carried, -, rfl⟩ := List.mem_map.mp hname
    cases carried <;> decide
  rw [map_name_arguments, List.forall_mem_append, and_iff_left hcarried, h]
  exact PathTemplate.forall_args_iff PathTemplate.isIdentifierText_argument_iff

/-- The parameters have distinct names unless one of the path is called like something that is
carried. -/
theorem nodup_arguments_iff (e : Endpoint) (headers : Bool) (h : e.template = .ofPath e.path) :
    ((e.arguments headers).map Argument.name).Nodup ↔
      ∀ parameter ∈ BasePath.parameters e.path, ∀ carried ∈ e.carried headers,
        Naming.camelCase parameter ≠ carried.name := by
  rw [map_name_arguments, List.nodup_append', h]
  have hargs := PathTemplate.nodup_args e.path
  have hcarried := e.nodup_map_name_carried headers
  rw [and_iff_right hargs, and_iff_right hcarried]
  have hdisjoint : (PathTemplate.ofPath e.path).args.Disjoint
      ((e.carried headers).map Carried.name) ↔ ∀ arg ∈ (PathTemplate.ofPath e.path).args,
        ∀ carried ∈ e.carried headers, arg ≠ carried.name := by
    simp [List.disjoint_left, eq_comm]
  rw [hdisjoint]
  exact PathTemplate.forall_args_iff fun earlier name =>
    forall₂_congr fun carried _ => (PathTemplate.argument_eq_name_iff earlier name carried).not

/-- The key of an endpoint, the constant that holds it and the parameters of the function that sends
its request are called by identifiers, unless the cleaned id, the tag or a parameter of the path
opens with a digit. The names of the parameters are distinct unless one of the path is called like
the body, the query parameters or the headers that the function takes too. -/
theorem names_are_identifiers_iff (hcatalog : Catalog.ofDocument document basePaths = .ok catalog)
    (htag : (tag, os) ∈ catalog) (hendpoints : ofOperations models os = .ok endpoints)
    (hoe : (o, e) ∈ os.zip endpoints) (headers : Bool) :
    let names := (e.arguments headers).map Argument.name
    (Naming.isIdentifierText e.name.toList ↔
        ∀ id ∈ o.operationId, Naming.opensWithDigit (Naming.cleanOperationId id) = false) ∧
      (Naming.isIdentifierText (EndpointGroup.constantOf tag).toList ↔
        Naming.opensWithDigit tag = false) ∧
      ((∀ name ∈ names, Naming.isIdentifierText name.toList) ↔
        ∀ parameter ∈ BasePath.parameters o.path, Naming.opensWithDigit parameter = false) ∧
      (names.Nodup ↔ ∀ parameter ∈ BasePath.parameters o.path, ∀ carried ∈ e.carried headers,
        Naming.camelCase parameter ≠ carried.name) := by
  intro names
  obtain ⟨hmethod, more, hmore, rfl⟩ := exists_eq_ofOperation hcatalog htag hendpoints hoe
  obtain ⟨hne, hopens⟩ := Operation.methodName_opens hmethod
  have halpha := o.alphanumeric_methodName
  refine ⟨?_, ?_, forall_identifier_arguments_iff _ headers rfl, nodup_arguments_iff _ headers rfl⟩
  · change Naming.isIdentifierText (Operation.methodName o ++ more).toList ↔ _
    rw [Naming.isIdentifierText_append_iff halpha hne hmore,
      Naming.isIdentifierText_iff halpha hne, hopens]
  · exact Naming.isIdentifierText_camelCase_append_iff tag (by decide) (by decide)

/-- What is called by names in generated code: the constant of a tag, the key of an endpoint, and
the parameters of the function that sends its request. -/
def shownNames (headers : Bool) (tag : String) (e : Endpoint) : String × String × List String :=
  (EndpointGroup.constantOf tag, e.name, (e.arguments headers).map Argument.name)

/-- A digit inside of a name does no harm, and a parameter without letters gets a number. -/
theorem names_are_identifiers_iff_numbered :
    let document := EndpointGroup.bodyDocument "put" "/stores/{store-2}/{***}" "put2nd" "v2 stores"
    ∃ catalog models tag os endpoints o e,
      Catalog.ofDocument document [] = .ok catalog ∧ (tag, os) ∈ catalog ∧
      ofOperations models os = .ok endpoints ∧ (o, e) ∈ os.zip endpoints ∧
      shownNames true tag e
        = ("v2StoresEndpoints", "put2Nd", ["store2", "param2", "payload", "headers"]) ∧
      Naming.opensWithDigit tag = false ∧
      (∀ id ∈ o.operationId, Naming.opensWithDigit (Naming.cleanOperationId id) = false) ∧
      ∀ parameter ∈ BasePath.parameters o.path, Naming.opensWithDigit parameter = false ∧
        ∀ carried ∈ e.carried true, Naming.camelCase parameter ≠ carried.name := by
  intro document
  have hshown : (EndpointGroup.ofDocument? document []).map
      (fun found => found.2.2.map fun g => g.endpoints.map (shownNames true g.tag))
      = some [[("v2StoresEndpoints", "put2Nd", ["store2", "param2", "payload", "headers"])]] := by
    decide +kernel
  obtain ⟨catalog, models, -, tag, os, endpoints, o, e, hcatalog, -, htag, hendpoints, hoe,
    hnames⟩ := EndpointGroup.exists_of_ofDocument? hshown
  obtain ⟨hkey, hconstant, harguments, hnodup⟩ :=
    names_are_identifiers_iff hcatalog htag hendpoints hoe true
  have heq := hnames
  simp only [shownNames, Prod.mk.injEq] at heq
  obtain ⟨hconstantOf, hname, hmap⟩ := heq
  rw [hconstantOf] at hconstant
  rw [hname] at hkey
  rw [hmap] at harguments hnodup
  exact ⟨catalog, models, tag, os, endpoints, o, e, hcatalog, htag, hendpoints, hoe, hnames,
    hconstant.mp (by decide), hkey.mp (by decide), fun parameter hparameter =>
      ⟨harguments.mp (by decide) parameter hparameter, hnodup.mp (by decide) parameter hparameter⟩⟩

/-- Names that are no identifiers, and two parameters of one name. -/
theorem exists_name_no_identifier :
    ¬ ∀ (document : Node) (catalog : Catalog) (models : ModelSet) (session : Session) (tag : String)
      (os : List Operation) (endpoints : List Endpoint) (o : Operation) (e : Endpoint)
      (headers : Bool), Catalog.ofDocument document [] = .ok catalog →
      (Generation.models { document } catalog).run {} = (.ok models, session) →
      (tag, os) ∈ catalog → ofOperations models os = .ok endpoints → (o, e) ∈ os.zip endpoints →
      let names := (e.arguments headers).map Argument.name
      Naming.isIdentifierText e.name.toList ∧
        Naming.isIdentifierText (EndpointGroup.constantOf tag).toList ∧
        (∀ name ∈ names, Naming.isIdentifierText name.toList) ∧ names.Nodup := by
  intro hall
  have hshown : (EndpointGroup.ofDocument?
      (EndpointGroup.bodyDocument "put" "/files/{payload}/{2nd}" "2faUpload" "3d models") []).map
      (fun found => found.2.2.map fun g => g.endpoints.map (shownNames true g.tag))
      = some [[("3DModelsEndpoints", "2FaUpload", ["payload", "2Nd", "payload", "headers"])]] := by
    decide +kernel
  obtain ⟨catalog, models, session, tag, os, endpoints, o, e, hcatalog, hmodels, htag, hendpoints,
    hoe, hnames⟩ := EndpointGroup.exists_of_ofDocument? hshown
  obtain ⟨hkey, -⟩ := hall _ _ _ _ _ _ _ _ _ true hcatalog hmodels htag hendpoints hoe
  simp only [shownNames, Prod.mk.injEq] at hnames
  rw [hnames.2.1] at hkey
  exact absurd hkey (by decide)

end Endpoint

end ClientGen
