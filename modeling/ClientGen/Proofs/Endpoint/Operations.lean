import ClientGen.Proofs.Run.Names

/-!
# Where operations come from

An operation of a catalog was made of a path of the document and a key of its path item that is an
HTTP method in some case. Folding the case brings no letter of another alphabet to a method of HTTP,
so the method of an operation is one of them in capital letters.

* `Text.upper_of_lower_ascii`: a text whose small letters are ASCII has the capital letters of
  these.
* `Catalog.exists_of_mem_operations`: the path and the key of an operation.
* `Catalog.method_mem_of_mem_operations`: the method of an operation.
* `EndpointGroup.exists_of_mem`, `EndpointGroup.exists_of_mem_catalog`: groups and the operations
  under their tags.
-/

namespace ClientGen

/-! ## Folding the case -/

namespace Text

variable {c : Char} {cs before : List Char}

theorem toNat_ofNat {n : Nat} (h : n.isValidChar) : (Char.ofNat n).toNat = n := by
  rw [Char.ofNat, dif_pos h]
  rfl

/-- The code points that a run of letters is taken to. They are characters, and the only one of
ASCII is the small k, which stands for the sign of a unit. -/
theorem bounds_of_mem_lowerRuns : ∀ r ∈ lowerRuns,
    (128 ≤ r.first + r.offset ∧ r.last + r.offset < 0xD800) ∨
      (0xDFFF < r.first + r.offset ∧ r.last + r.offset < 0x110000) ∨
      (r.first = r.last ∧ r.first + r.offset = 107) := by
  decide +kernel

/-- A character outside ASCII has a small form with a character outside ASCII, or that of the
letter k. -/
theorem exists_mem_lowerChar (h : ¬ c.toNat < 128) :
    ∃ d ∈ lowerChar c, 128 ≤ d.toNat ∨ d = 'k' := by
  rw [lowerChar, if_neg h]
  split
  · -- The capital I with a dot has a small form of two characters; the second is the dot.
    exact ⟨Char.ofNat 775, by decide, .inl (by decide)⟩
  · refine ⟨_, List.mem_singleton_self _, ?_⟩
    rw [CaseRun.convert]
    split
    · rename_i r hfound
      have hcontains := List.find?_some hfound
      simp only [CaseRun.contains, Bool.and_eq_true, decide_eq_true_eq] at hcontains
      obtain ⟨⟨hfirst, hlast⟩, -⟩ := hcontains
      rcases bounds_of_mem_lowerRuns r (List.mem_of_find?_eq_some hfound) with
        ⟨hlow, hhigh⟩ | ⟨hlow, hhigh⟩ | ⟨hsingle, hk⟩
      · left
        have hvalid : ((c.toNat : Int) + r.offset).toNat.isValidChar := .inl (by omega)
        rw [toNat_ofNat hvalid]
        omega
      · left
        have hvalid : ((c.toNat : Int) + r.offset).toNat.isValidChar :=
          .inr ⟨by omega, by omega⟩
        rw [toNat_ofNat hvalid]
        omega
      · right
        have hcode : ((c.toNat : Int) + r.offset).toNat = 107 := by omega
        rw [hcode]
    · left
      rw [Char.ofNat_toNat]
      omega

/-- Only characters of ASCII have a small form in ASCII without the letter k. -/
theorem ascii_of_lowerAfter (h : ∀ d ∈ lowerAfter before cs, d.toNat < 128 ∧ d ≠ 'k') :
    ∀ c ∈ cs, c.toNat < 128 := by
  induction cs generalizing before with
  | nil => simp
  | cons c cs ih =>
    rw [lowerAfter, List.forall_mem_append] at h
    obtain ⟨hc, hcs⟩ := h
    refine List.forall_mem_cons.mpr ⟨?_, ih hcs⟩
    by_contra houtside
    -- The capital sigma has two small forms, by its place in the word. Both are outside.
    by_cases hsigma : c = 'Σ'
    · rw [if_pos hsigma, List.forall_mem_singleton] at hc
      split at hc
      · exact absurd hc.1 (by decide)
      · exact absurd hc.1 (by decide)
    · rw [if_neg hsigma] at hc
      obtain ⟨d, hd, hd' | rfl⟩ := exists_mem_lowerChar houtside
      · have := (hc d hd).1
        omega
      · exact (hc 'k' hd).2 rfl

/-- Small letters of ASCII characters have the capital letters of these. -/
theorem upper_lowerAfter (h : ∀ c ∈ cs, c.toNat < 128) :
    upper (lowerAfter before cs) = upper cs := by
  -- All that the lowering does to ASCII is undone by the capitals, code point by code point.
  have hall : ∀ n < 128, (if Char.ofNat n = 'Σ' then ['σ'] else lowerChar (Char.ofNat n)).flatMap
      upperChar = upperChar (Char.ofNat n) := by decide +kernel
  induction cs generalizing before with
  | nil => rfl
  | cons c cs ih =>
    rw [List.forall_mem_cons] at h
    have hsigma : c ≠ 'Σ' := by
      rintro rfl
      exact absurd h.1 (by decide)
    have hc := of_ascii (p := fun c => (if c = 'Σ' then ['σ'] else lowerChar c).flatMap upperChar
      = upperChar c) hall h.1
    rw [if_neg hsigma] at hc
    have hcs : upper (lowerAfter (c :: before) cs) = upper cs := ih h.2
    rw [upper] at hcs ⊢
    rw [lowerAfter, if_neg hsigma, List.flatMap_append, hc, hcs]
    rfl

/-- A text whose small letters are ASCII, without the letter k, has the capital letters of these. -/
theorem upper_of_lower_ascii (h : ∀ d ∈ lower cs, d.toNat < 128 ∧ d ≠ 'k') :
    upper (lower cs) = upper cs :=
  upper_lowerAfter (ascii_of_lowerAfter h)

end Text

theorem Naming.toList_lowerCase (name : String) :
    (lowerCase name).toList = Text.lower name.toList :=
  String.toList_ofList

namespace Document

/-- The methods of HTTP are made of small letters of ASCII, without the letter k. -/
theorem letters_of_mem_httpMethods {method : String} (h : method ∈ httpMethods) :
    ∀ d ∈ method.toList, d.toNat < 128 ∧ d.isLower ∧ d ≠ 'k' := by
  have hall : httpMethods.all fun m => m.toList.all fun d =>
    d.toNat < 128 ∧ d.isLower ∧ d ≠ 'k' := by decide
  simp only [List.all_eq_true, decide_eq_true_eq] at hall
  exact hall method h

theorem lowerCase_mem_of_isMethodKey {key : Key} (h : isMethodKey key) :
    Naming.lowerCase key.label ∈ httpMethods := by
  simpa [isMethodKey] using h

/-- The key of an operation may have capital letters anywhere. Its small letters are those of a
method. -/
theorem letters_of_isMethodKey {key : Key} (h : isMethodKey key) :
    ∀ d ∈ Text.lower key.label.toList, d.toNat < 128 ∧ d ≠ 'k' := by
  intro d hd
  rw [← Naming.toList_lowerCase] at hd
  obtain ⟨hascii, -, hk⟩ := letters_of_mem_httpMethods (lowerCase_mem_of_isMethodKey h) d hd
  exact ⟨hascii, hk⟩

/-- The key of an operation stands for a method of HTTP. -/
theorem upperCase_mem_of_isMethodKey {key : Key} (h : isMethodKey key) :
    Naming.upperCase key.label ∈ httpMethods.map Naming.upperCase := by
  have hupper : Naming.upperCase (Naming.lowerCase key.label) = Naming.upperCase key.label := by
    rw [Naming.upperCase, Naming.toList_lowerCase,
      Text.upper_of_lower_ascii (letters_of_isMethodKey h)]
    rfl
  exact List.mem_map.mpr ⟨_, lowerCase_mem_of_isMethodKey h, hupper⟩

theorem isMethodKey_of_mem_rawOperations {item : Node} {raw : Key × Fields}
    (h : raw ∈ rawOperations item) : isMethodKey raw.1 := by
  obtain ⟨m, -, hm⟩ := List.mem_filterMap.mp h
  split at hm
  · rename_i hkey
    obtain ⟨fields, -, rfl⟩ := Option.map_eq_some_iff.mp hm
    exact hkey
  · cases hm

end Document

namespace Catalog

variable {document : Node} {basePaths : List String} {catalog : Catalog} {o : Operation}

/-- An operation of a catalog was made of a path, and of a key and the raw operation in its path
item. -/
theorem exists_of_mem_operations (h : ofDocument document basePaths = .ok catalog)
    (ho : o ∈ catalog.operations) : ∃ items, Document.paths document = .ok items ∧
      ∃ item ∈ items, ∃ raw ∈ Document.rawOperations item.2,
        Document.operation (BasePath.ofList basePaths) item.1 raw.1 raw.2 = .ok o := by
  obtain ⟨os, hos, hgroups⟩ := exists_of_ofDocument h
  exact Document.exists_of_mem_operations hos (hgroups.conserved.mem_iff.mp ho)

/-- The method of an operation is one of HTTP's in capital letters. -/
theorem method_mem_of_mem_operations (h : ofDocument document basePaths = .ok catalog)
    (ho : o ∈ catalog.operations) : o.method ∈ httpMethods.map Naming.upperCase := by
  obtain ⟨items, -, item, -, raw, hraw, hmade⟩ := exists_of_mem_operations h ho
  rw [Document.eq_of_operation hmade]
  exact Document.upperCase_mem_of_isMethodKey (Document.isMethodKey_of_mem_rawOperations hraw)

theorem mem_operations_of_mem {entry : String × List Operation} (hentry : entry ∈ catalog)
    (ho : o ∈ entry.2) : o ∈ catalog.operations :=
  List.mem_flatMap.mpr ⟨entry, hentry, ho⟩

end Catalog

namespace EndpointGroup

variable {models : ModelSet} {catalog : Catalog} {groups : List EndpointGroup}
  {g : EndpointGroup}

/-- The groups stand for the tags of the catalog, one for each. -/
theorem forall₂_of_ofCatalog (h : ofCatalog models catalog = .ok groups) :
    List.Forall₂ (fun entry g => g.tag = entry.1 ∧
      Endpoint.ofOperations models entry.2 = .ok g.endpoints) catalog groups := by
  refine (forall₂_of_mapM h).imp fun entry g hgroup => ?_
  cases hendpoints : Endpoint.ofOperations models entry.2 with
  | error e => simp [hendpoints, bind, Except.bind] at hgroup
  | ok endpoints =>
    simp only [hendpoints, bind, Except.bind, pure, Except.pure] at hgroup
    obtain rfl := Except.ok.inj hgroup
    exact ⟨rfl, rfl⟩

/-- The endpoints of a group are those of the operations under its tag. -/
theorem exists_of_mem (h : ofCatalog models catalog = .ok groups) (hg : g ∈ groups) :
    ∃ os, (g.tag, os) ∈ catalog ∧ Endpoint.ofOperations models os = .ok g.endpoints := by
  obtain ⟨⟨tag, os⟩, hentry, htag, hendpoints⟩ :=
    exists_of_mem_forall₂ (forall₂_of_ofCatalog h) hg
  exact ⟨os, htag ▸ hentry, hendpoints⟩

/-- The operations under a tag become the endpoints of a group. -/
theorem exists_of_mem_catalog (h : ofCatalog models catalog = .ok groups)
    {entry : String × List Operation} (hentry : entry ∈ catalog) :
    ∃ g ∈ groups, Endpoint.ofOperations models entry.2 = .ok g.endpoints := by
  obtain ⟨g, hg, -, hendpoints⟩ :=
    exists_of_mem_forall₂ (List.Forall₂.flip (forall₂_of_ofCatalog h)) hentry
  exact ⟨g, hg, hendpoints⟩

end EndpointGroup

end ClientGen
