import ClientGen.Proofs.Expansion.Levels
import ClientGen.Proofs.Expansion.Pass
import ClientGen.Proofs.Expansion.Settling
import ClientGen.Proofs.Naming.Words

/-!
# Termination

Does an expansion return, if only the limit on the depth of nesting is great enough?

* `Expander.resolve_returns_iff`: it does exactly if the names that it declares are bounded,
  whatever the limit.
* `Expander.resolve_recurring_ne_ok`: it need not, since an object in a list that leads back to the
  list gets a longer name every time.
-/

namespace ClientGen.Expander

open Expansion Schema

section Returns

variable {document : Node} {schema : Fields} {base suffix origin : String} {s : Session}

/-- An expansion returns with some limit exactly if no more than certain names are ever declared,
whatever the limit. -/
theorem resolve_returns_iff (hs : s.Faithful document)
    (hreq : ∀ t, Reaches document schema t → Schema.requiredNames t ≠ none) :
    (∃ limit ds t,
      (resolve ⟨document, limit⟩ (.object schema) base suffix origin).run s = (.ok ds, t)) ↔
    ∃ names : List String, ∀ limit,
      ((resolve ⟨document, limit⟩ (.object schema) base suffix origin).run s).2.names ⊆ names := by
  constructor
  · rintro ⟨limit, ds, t, h⟩
    -- Smaller limits declare fewer names, greater ones the same.
    refine ⟨t.names, fun limit' => ?_⟩
    rcases Int.le_total limit' limit with hle | hle
    · have hbelow := (below_resolve document hle (.object schema) base suffix origin).names s
      rw [h] at hbelow
      exact hbelow.subset
    · rw [(below_resolve document hle (.object schema) base suffix origin).run_eq h]
      exact List.Subset.refl _
  · rintro ⟨names, hnames⟩
    -- With `level` levels left, an expansion does what the limit `level - 1` allows.
    have hlevels : ∀ level : Nat, levels ⟨document, (level : Int) - 1⟩ = level := by
      intro level
      simp [levels]
    have hbelow : ∀ level : Nat, Below
        (declare ⟨document, 0⟩ level schema suffix { base, origin })
        (resolve ⟨document, (level : Int) - 1⟩ (.object schema) base suffix origin) := by
      intro level
      have h := (level_below document 0 ((level : Int) - 1) (Nat.le_refl level)).1 schema suffix
        { base, origin }
      rwa [resolve, hlevels]
    have hends : Ends names
        (fun level => declare ⟨document, 0⟩ level schema suffix { base, origin }) s :=
      settles (e := ⟨document, 0⟩) hreq hs suffix { base, origin }
    obtain ⟨ds, t, hreturns⟩ := hends.returns (Filter.Eventually.of_forall fun level =>
      List.Subset.trans ((hbelow level).names s).subset (hnames _))
    obtain ⟨level, hlevel⟩ := hreturns.exists
    exact ⟨(level : Int) - 1, ds, t, (hbelow level).run_eq hlevel⟩

/-- A schema with a property that refers to it. -/
def selfReferring : Fields := withProperties [(.text "next", pointing "#/Node")]

/-- The document that holds it. -/
def selfReferringDocument : Node := .object [(.text "Node", .object selfReferring)]

/-- Only the schema, the reference and the empty schema can be come to. -/
theorem reaches_selfReferring {t : Fields} (h : Reaches selfReferringDocument selfReferring t) :
    t = selfReferring ∨ t = [(.text "$ref", .text "#/Node")] ∨ t = [] := by
  -- Three schemas are closed under every step: the node itself, its pointer and the empty schema.
  induction h with
  | root => exact .inl rfl
  | target _ hpointer hresolve ih =>
    rcases ih with rfl | rfl | rfl
    · exact nomatch hpointer
    · obtain rfl : "#/Node" = _ := Option.some.inj hpointer
      obtain rfl : selfReferring = _ := Node.object.inj (Option.some.inj hresolve)
      exact .inl rfl
    · exact nomatch hpointer
  | part _ hmem ih =>
    rcases ih with rfl | rfl | rfl <;> exact absurd hmem List.not_mem_nil
  | own _ ih =>
    rcases ih with rfl | rfl | rfl
    · exact .inl rfl
    · exact .inr (.inl rfl)
    · exact .inr (.inr rfl)
  | option _ hmem ih =>
    rcases ih with rfl | rfl | rfl <;> exact absurd hmem List.not_mem_nil
  | items _ ih =>
    rcases ih with rfl | rfl | rfl <;> exact .inr (.inr rfl)
  | value _ hget ih =>
    rcases ih with rfl | rfl | rfl <;> exact nomatch hget
  | property _ hmem ih =>
    rcases ih with rfl | rfl | rfl
    · obtain ⟨-, hnode⟩ := Prod.mk.inj (List.mem_singleton.mp hmem)
      exact .inr (.inl (Node.object.inj hnode))
    · exact absurd hmem List.not_mem_nil
    · exact absurd hmem List.not_mem_nil

/-- A schema that refers to itself: its expansion returns, since its names are bounded. -/
theorem resolve_returns_iff_self_reference :
    ({} : Session).Faithful selfReferringDocument ∧
      (∀ t, Reaches selfReferringDocument selfReferring t → Schema.requiredNames t ≠ none) ∧
      ((∃ limit ds t, (resolve ⟨selfReferringDocument, limit⟩ (.object selfReferring) "Node" ""
          "").run {} = (.ok ds, t)) ↔
        ∃ names : List String, ∀ limit, ((resolve ⟨selfReferringDocument, limit⟩
          (.object selfReferring) "Node" "" "").run {}).2.names ⊆ names) := by
  have hs : ({} : Session).Faithful selfReferringDocument := fun pointer target h => by simp at h
  have hreq : ∀ t, Reaches selfReferringDocument selfReferring t →
      Schema.requiredNames t ≠ none := by
    intro t ht
    rcases reaches_selfReferring ht with rfl | rfl | rfl <;> decide
  exact ⟨hs, hreq, resolve_returns_iff hs hreq⟩

end Returns

/-! ## Endless expansions -/

/-- A schema with a property that refers to a list of such schemas. -/
def recurring : Fields := withProperties [(.text "p", pointing "#/T")]

/-- The list of such schemas. -/
def recurringList : Fields := [(.text "items", .object recurring)]

/-- The document that holds the list. -/
def recurringDocument : Node := .object [(.text "T", .object recurringList)]

section Endless

variable {limit : Int} {left : Nat} {s t : Session} {base origin : String} {chain : List String}

/-- A schema is typed only if there is a level left for the step. -/
theorem exists_typeStep_of_propertyType {e : Expander} {schema : Fields} {place : Place}
    {typed : Typed} (h : (e.propertyType left (.object schema) place).run s = (.ok typed, t)) :
    ∃ l typed', l < left ∧ (e.typeStep (fun target place => e.declare l target "" place)
      (e.propertyType l) schema place).run s = (.ok typed', t) := by
  cases left with
  | zero =>
    rw [propertyType] at h
    simp at h
  | succ l =>
    rw [propertyType, map_eq_pure_bind, run_bind_eq_ok_iff] at h
    obtain ⟨typed', u, hstep, hresult⟩ := h
    obtain ⟨-, rfl⟩ : orNullFor schema typed' = typed ∧ u = t := by simpa using hresult
    exact ⟨l, typed', Nat.lt_succ_self l, hstep⟩

theorem follow_recurring (limit : Int) (hs : s.Faithful recurringDocument) :
    ∃ u, (follow ⟨recurringDocument, limit⟩ [(.text "$ref", .text "#/T")] []).run s
        = (.ok (some recurringList, ["#/T"]), u) ∧
      u.Faithful recurringDocument ∧ u.names = s.names := by
  have hquiet := quiet_follow ⟨recurringDocument, limit⟩ [(.text "$ref", .text "#/T")] [] s
  refine ⟨_, ?_, hquiet.2.faithful hs, hquiet.1⟩
  have hresolve : Pointer.resolve recurringDocument "#/T" = some (.object recurringList) := rfl
  have hfound := (Reference.lookUp_eq_some_iff hs).mpr hresolve
  have hbound : Reference.chainBound recurringDocument = 1 + 1 + 1 := rfl
  have hpointer : pointer? [(.text "$ref", .text "#/T")] = some "#/T" := rfl
  have hlist : pointer? recurringList = none := rfl
  rw [run_follow, hbound, followWithin_succ, hpointer]
  rcases hl : Reference.lookUp recurringDocument "#/T" s with ⟨found, u⟩
  rw [hl] at hfound
  obtain rfl : found = some recurringList := hfound
  simp only [List.not_mem_nil, if_false, hl, followWithin_succ, hlist]

/-- Declaring the schema under a new name types its property. -/
theorem exists_propertyType_of_declare {ds : List Declaration}
    (hname : Naming.interfaceName base "" ∉ s.names)
    (h : (declare ⟨recurringDocument, limit⟩ left recurring "" { base, origin, chain }).run s
      = (.ok ds, t)) :
    ∃ l origin' typed u, l < left ∧ (propertyType ⟨recurringDocument, limit⟩ l (pointing "#/T")
      { base := base ++ "P", origin := origin' }).run
        { s with names := s.names ++ [Naming.interfaceName base ""] } = (.ok typed, u) := by
  cases left with
  | zero =>
    rw [declare] at h
    simp at h
  | succ l =>
    have hkind : kind recurring = .object := rfl
    have hrequired : requiredNames recurring = pure [] := rfl
    have hfields : fieldsUnder recurring "properties" = [(.text "p", pointing "#/T")] := rfl
    -- The name is free, so its declaration is built and reaches the pointer of its only property.
    simp only [declare, declareStep, hkind] at h
    rw [once, run_bind_of_ok (run_claim_of_not_mem hname)] at h
    simp only [if_true, body, interface, hrequired, hfields, interfaceProperties] at h
    obtain ⟨required, u, hpure, h⟩ := run_bind_eq_ok_iff.mp h
    obtain ⟨rfl, rfl⟩ : [] = required ∧ _ = u := by simpa [liftM, monadLift] using hpure
    obtain ⟨⟨properties, needs⟩, u, h, -⟩ := run_bind_eq_ok_iff.mp h
    obtain ⟨typed, u, htyped, -⟩ := run_bind_eq_ok_iff.mp h
    exact ⟨l, _, typed, u, Nat.lt_succ_self l, htyped⟩

/-- Typing the property types the list. -/
theorem exists_list_of_propertyType {typed : Typed} (hs : s.Faithful recurringDocument)
    (h : (propertyType ⟨recurringDocument, limit⟩ left (pointing "#/T") { base, origin }).run s
      = (.ok typed, t)) :
    ∃ l origin' chain' typed' s' t', l < left ∧ s'.Faithful recurringDocument ∧
      s'.names = s.names ∧ (propertyType ⟨recurringDocument, limit⟩ l (.object recurringList)
        { base, origin := origin', chain := chain' }).run s' = (.ok typed', t') := by
  obtain ⟨l, typed', hl, hstep⟩ := exists_typeStep_of_propertyType h
  obtain ⟨u, hfollow, hu, hnames⟩ := follow_recurring limit hs
  have hkind : kind [(.text "$ref", .text "#/T")] = .reference := rfl
  have hlist : (kind recurringList).isStructural = false := rfl
  simp only [typeStep, hkind] at hstep
  obtain ⟨found, v, hfound, hstep⟩ := run_bind_eq_ok_iff.mp hstep
  obtain ⟨rfl, rfl⟩ : (some recurringList, ["#/T"]) = found ∧ u = v := by
    simpa using hfollow.symm.trans hfound
  simp only [hlist, Bool.false_eq_true, if_false] at hstep
  exact ⟨l, _, _, typed', u, t, hl, hu, hnames, hstep⟩

/-- Typing the list declares the schema again, under a longer name. -/
theorem exists_declare_of_list {typed : Typed}
    (h : (propertyType ⟨recurringDocument, limit⟩ left (.object recurringList)
      { base, origin, chain }).run s = (.ok typed, t)) :
    ∃ l origin' chain' ds u, l < left ∧ (declare ⟨recurringDocument, limit⟩ l recurring ""
      { base := base ++ "Item", origin := origin', chain := chain' }).run s = (.ok ds, u) := by
  obtain ⟨l, typed', hl, hstep⟩ := exists_typeStep_of_propertyType h
  have hlist : kind recurringList = .array := rfl
  have hitems : items recurringList = recurring := rfl
  simp only [typeStep, hlist, hitems] at hstep
  obtain ⟨item, u, hitem, -⟩ := run_bind_eq_ok_iff.mp hstep
  obtain ⟨l', typed'', hl', hstep⟩ := exists_typeStep_of_propertyType hitem
  have hkind : kind recurring = .object := rfl
  simp only [typeStep, hkind] at hstep
  obtain ⟨ds, v, hdeclare, -⟩ := run_bind_eq_ok_iff.mp hstep
  exact ⟨l', _, _, ds, v, hl'.trans hl, hdeclare⟩

/-- As long as all declared names are shorter than the next one, the schema is declared again and
again, until the limit is met. -/
theorem declare_recurring_ne_ok {ds : List Declaration} (hs : s.Faithful recurringDocument)
    (hshorter : ∀ n ∈ s.names, n.length < (Naming.interfaceName base "").length) :
    (declare ⟨recurringDocument, limit⟩ left recurring "" { base, origin, chain }).run s
      ≠ (.ok ds, t) := by
  -- Down to the next declaration of the schema three levels are used up, and the name is longer by
  -- the five letters of `PItem` than all that are declared by then.
  induction left using Nat.strong_induction_on generalizing base origin chain s ds t with
  | _ left ih =>
    intro h
    have hname : Naming.interfaceName base "" ∉ s.names :=
      fun hmem => Nat.lt_irrefl _ (hshorter _ hmem)
    obtain ⟨l, origin₁, typed, u, hl, htyped⟩ := exists_propertyType_of_declare hname h
    obtain ⟨l₁, origin₂, chain₂, typed₁, s₁, t₁, hl₁, hs₁, hnames, hlist⟩ :=
      exists_list_of_propertyType (by exact hs) htyped
    obtain ⟨l₂, origin₃, chain₃, ds₂, u₂, hl₂, hdeclare⟩ := exists_declare_of_list hlist
    refine ih l₂ (by omega) hs₁ (fun n hn => ?_) hdeclare
    have hp : ("P".toList.filter Text.isAsciiAlphanumeric).length = 1 := by decide
    have hitem : ("Item".toList.filter Text.isAsciiAlphanumeric).length = 4 := by decide
    rw [Naming.length_interfaceName_append, Naming.length_interfaceName_append, hp, hitem]
    rw [hnames] at hn
    rcases List.mem_append.mp hn with hn | hn
    · have := hshorter n hn
      omega
    · rw [List.mem_singleton.mp hn]
      omega

/-- The expansion of an object in a list that leads back to the list returns with no limit. -/
theorem resolve_recurring_ne_ok :
    ¬ ∃ limit ds t, (resolve ⟨recurringDocument, limit⟩ (.object recurring) "" "" "").run {}
      = (.ok ds, t) := by
  rintro ⟨limit, ds, t, h⟩
  refine declare_recurring_ne_ok (fun pointer target hknown => ?_) (fun n hn => ?_) h
  · simp at hknown
  · simp at hn

end Endless

end ClientGen.Expander