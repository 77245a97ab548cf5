import ClientGen.Model.Generation
import ClientGen.Proofs.Expansion.Discipline
import ClientGen.Proofs.Expansion.Formed
import ClientGen.Proofs.Model.Tables

/-!
# What a pass over the operations produces

Three records are kept during a pass: the declarations of each module, the module of each declared
name, and the types of each operation. They agree after every operation.

* `ModelSet.Consistent`: the declarations and the owners tell the same.
* `ModelSet.Accounted`: the invariant of a pass.
* `Generation.accounted_models`: it holds of what a pass produces, and every operation has its
  types.
-/

namespace ClientGen

namespace ModelSet

/-- All declarations with the modules that hold them. -/
def placed (models : ModelSet) : List (String × Declaration) :=
  models.declarations.flatMap fun m => m.2.map (m.1, ·)

/-- The declared names. -/
def names (models : ModelSet) : List String := models.owners.map Prod.fst

/-- The owners are the modules that hold the declarations. No name is declared twice. -/
structure Consistent (models : ModelSet) : Prop where
  /-- No module comes twice. -/
  modules : models.modules.Nodup
  /-- Every module declares something. -/
  filled : ∀ m ∈ models.declarations, m.2 ≠ []
  /-- No name comes twice. -/
  nodup : models.names.Nodup
  /-- The owner of a name is the module that declares it. -/
  owners : models.owners.Perm (models.placed.map fun p => (p.2.name, p.1))

variable {models : ModelSet} {module name : String} {d : Declaration}

/-- One more declaration is placed. -/
theorem placed_addDeclaration (models : ModelSet) (module : String) (d : Declaration) :
    (addDeclaration module models d).placed.Perm (models.placed ++ [(module, d)]) := by
  unfold placed addDeclaration
  dsimp only
  induction models.declarations with
  | nil => simp [alter]
  | cons m declarations ih =>
    obtain ⟨module', ds⟩ := m
    rw [alter]
    split
    · rename_i h
      -- It comes before those of the later modules.
      simp only [List.flatMap_cons, List.map_append, List.map_singleton, h, List.append_assoc]
      exact List.perm_append_comm.append_left _
    · simp only [List.flatMap_cons, List.append_assoc]
      exact ih.append_left _

/-- Adding declarations to a module makes no other module. -/
theorem mem_modules_add {models : ModelSet} {module m : String} {ds : List Declaration}
    (hm : m ∈ (models.add module ds).modules) : m ∈ models.modules ∨ m = module := by
  induction ds generalizing models with
  | nil => exact .inl hm
  | cons d ds ih =>
    rcases ih hm with hm | hm
    · have hkeys := keys_alter [] (· ++ [d]) module models.declarations
      change m ∈ (alter module [] (· ++ [d]) models.declarations).map Prod.fst at hm
      rw [hkeys] at hm
      split at hm
      · exact .inl hm
      · rwa [List.mem_append, List.mem_singleton] at hm
    · exact .inr hm

/-- A declaration with a new name keeps the records consistent. -/
theorem Consistent.addDeclaration (h : models.Consistent) (module : String)
    (hd : d.name ∉ models.names) :
    (addDeclaration module models d).Consistent ∧
      (addDeclaration module models d).names = models.names ++ [d.name] := by
  have howners : (ModelSet.addDeclaration module models d).owners
      = models.owners ++ [(d.name, module)] := assign_of_not_mem hd
  have hnames : (ModelSet.addDeclaration module models d).names = models.names ++ [d.name] := by
    rw [names, howners, List.map_append, List.map_singleton, names]
  refine ⟨⟨nodup_keys_alter _ _ h.modules, fun m hm => ?_, ?_, ?_⟩, hnames⟩
  · rcases mem_alter _ _ hm with hm | ⟨ds, rfl⟩
    · exact h.filled m hm
    · simp
  · rw [hnames]
    exact List.nodup_append.mpr ⟨h.nodup, List.nodup_singleton _,
      fun a ha b hb hab => hd (List.mem_singleton.mp hb ▸ hab ▸ ha)⟩
  · -- The new declaration stands in its module and in the table of owners once each.
    have hplaced := (placed_addDeclaration models module d).map fun p => (p.2.name, p.1)
    rw [List.map_append] at hplaced
    rw [howners]
    exact (h.owners.append_right _).trans hplaced.symm

/-- What adding declarations with new names does to the records. -/
structure Extends (models : ModelSet) (module : String) (ds : List Declaration)
    (models' : ModelSet) : Prop where
  /-- The records stay consistent. -/
  consistent : models'.Consistent
  /-- The names come behind the known ones. -/
  names : models'.names = models.names ++ ds.map Declaration.name
  /-- The declarations are placed in the module. -/
  placed : models'.placed.Perm (models.placed ++ ds.map (module, ·))
  /-- No other module is new. -/
  modules : ∀ m ∈ models'.modules, m ∈ models.modules ∨ m = module
  /-- The types stay. -/
  types : models'.types = models.types

/-- Adding declarations with new names extends the records. -/
theorem Consistent.add (h : models.Consistent) (module : String) {ds : List Declaration}
    (hnew : ∀ d ∈ ds, d.name ∉ models.names) (hnodup : (ds.map Declaration.name).Nodup) :
    models.Extends module ds (models.add module ds) := by
  induction ds generalizing models with
  | nil => exact ⟨h, by simp [ModelSet.add], by simp [ModelSet.add], fun _ => .inl, rfl⟩
  | cons d ds ih =>
    rw [List.map_cons, List.nodup_cons] at hnodup
    obtain ⟨h', hnames⟩ := h.addDeclaration module (hnew d List.mem_cons_self)
    -- The first name is now taken, and the others differ from it.
    have hnew' : ∀ d' ∈ ds, d'.name ∉ (ModelSet.addDeclaration module models d).names := by
      intro d' hd' hmem
      rw [hnames, List.mem_append, List.mem_singleton] at hmem
      rcases hmem with hmem | hmem
      · exact hnew d' (List.mem_cons_of_mem _ hd') hmem
      · exact hnodup.1 (hmem ▸ List.mem_map_of_mem hd')
    have hrest := ih h' hnew' hnodup.2
    refine ⟨hrest.consistent, ?_, ?_, fun m hm => ?_, hrest.types⟩
    · calc ((ModelSet.addDeclaration module models d).add module ds).names
        _ = (models.names ++ [d.name]) ++ ds.map Declaration.name := by rw [hrest.names, hnames]
        _ = models.names ++ (d :: ds).map Declaration.name := by simp
    · refine hrest.placed.trans (((placed_addDeclaration models module d).append_right _).trans ?_)
      simp
    · exact mem_modules_add hm

/-- In consistent records a declaration is placed where it is listed. -/
theorem Consistent.mem_placed_iff (h : models.Consistent) :
    (module, d) ∈ models.placed ↔ d ∈ models.declarationsOf module := by
  have hmem : ∀ ds, (module, ds) ∈ models.declarations ↔
      models.declarations.lookup module = some ds :=
    fun ds => (lookup_eq_some_iff_mem h.modules).symm
  have hplaced : (module, d) ∈ models.placed ↔
      ∃ ds, (module, ds) ∈ models.declarations ∧ d ∈ ds := by
    simp only [placed, List.mem_flatMap, List.mem_map, Prod.mk.injEq, Prod.exists]
    constructor
    · rintro ⟨m, ds, hds, d', hd', rfl, rfl⟩
      exact ⟨ds, hds, hd'⟩
    · rintro ⟨ds, hds, hd⟩
      exact ⟨module, ds, hds, d, hd, rfl, rfl⟩
  rw [hplaced, declarationsOf]
  simp only [hmem]
  cases models.declarations.lookup module <;> simp

/-- In consistent records the owner of a name is the module that declares it. -/
theorem Consistent.lookup_owners_iff (h : models.Consistent) :
    models.owners.lookup name = some module ↔
      ∃ d ∈ models.declarationsOf module, d.name = name := by
  rw [lookup_eq_some_iff_mem h.nodup, h.owners.mem_iff, List.mem_map]
  constructor
  · rintro ⟨⟨m, d⟩, hd, hp⟩
    obtain ⟨rfl, rfl⟩ : d.name = name ∧ m = module := by simpa using hp
    exact ⟨d, h.mem_placed_iff.mp hd, rfl⟩
  · rintro ⟨d, hd, rfl⟩
    exact ⟨(module, d), h.mem_placed_iff.mpr hd, rfl⟩

/-- In consistent records the names of the declarations of a module are different. -/
theorem Consistent.nodup_declarationsOf (h : models.Consistent) (module : String) :
    ((models.declarationsOf module).map Declaration.name).Nodup := by
  have hnames : (models.placed.map fun p => p.2.name).Nodup := by
    have hnodup := (h.owners.map Prod.fst).nodup_iff.mp h.nodup
    rwa [List.map_map] at hnodup
  rw [declarationsOf]
  cases hfound : models.declarations.lookup module with
  | none => exact List.nodup_nil
  | some ds =>
    have hmem := (lookup_eq_some_iff_mem h.modules).mp hfound
    -- The declarations of the module are placed one after another.
    have hsub : (ds.map (module, ·)).Sublist models.placed :=
      List.sublist_flatten_of_mem (List.mem_map_of_mem (f := fun m => m.2.map (m.1, ·)) hmem)
    have hnodup := (hsub.map fun p => p.2.name).nodup hnames
    rwa [List.map_map] at hnodup

/-- In consistent records every module declares something. -/
theorem Consistent.declarationsOf_ne_nil (h : models.Consistent)
    (hmodule : module ∈ models.modules) : models.declarationsOf module ≠ [] := by
  obtain ⟨⟨m, ds⟩, hmem, rfl⟩ := List.mem_map.mp hmodule
  rw [declarationsOf, (lookup_eq_some_iff_mem h.modules).mpr hmem]
  exact h.filled _ hmem

/-- A module with a declaration is one of the modules. -/
theorem mem_modules_of_mem (hd : d ∈ models.declarationsOf module) : module ∈ models.modules := by
  rw [declarationsOf] at hd
  cases hfound : models.declarations.lookup module with
  | none => simp [hfound] at hd
  | some ds =>
    obtain ⟨p, hp, hkey⟩ := List.lookup_isSome_iff.mp (Option.isSome_of_mem hfound)
    exact List.mem_map.mpr ⟨p, hp, (beq_iff_eq.mp hkey).symm⟩

/-- A declared name has an owner. -/
theorem exists_owner (hname : name ∈ models.names) :
    ∃ module, models.owners.lookup name = some module := by
  obtain ⟨⟨n, module⟩, hmem, rfl⟩ := List.mem_map.mp hname
  exact Option.isSome_iff_exists.mp (List.lookup_isSome_iff.mpr ⟨_, hmem, by simp⟩)

end ModelSet

/-- The types of an operation that are not missing. -/
def OperationTypes.all (types : OperationTypes) : List String :=
  types.request.toList ++ types.response.toList ++ types.params.toList

/-- The text is a declared name, possibly in lists. -/
def RefersTo (names : List String) (type : String) : Prop :=
  ∃ r : TypeReference, type = r.text ∧ r.name ∈ names ∧ Naming.IsInterfaceName r.name

theorem RefersTo.mono {names names' : List String} {type : String} (h : RefersTo names type)
    (hsub : names ⊆ names') : RefersTo names' type := by
  obtain ⟨r, htype, hmem, hname⟩ := h
  exact ⟨r, htype, hsub hmem, hname⟩

/-- The invariant of a pass: the records agree with each other and with the names that the session
has claimed. -/
structure ModelSet.Accounted (models : ModelSet) (claimed : List String) : Prop where
  /-- The declarations and the owners tell the same. -/
  consistent : models.Consistent
  /-- What is declared is what was claimed. -/
  names : models.names.Perm claimed
  /-- The declarations are formed. -/
  formed : ∀ p ∈ models.placed, p.2.Formed
  /-- What a declaration uses is declared. -/
  uses : ∀ p ∈ models.placed, p.2.uses ⊆ models.names
  /-- Modules are named after resources. -/
  modules : ∀ m ∈ models.modules, ∃ resource, m = Naming.camelCase resource
  /-- The types of operations are declared. -/
  types : ∀ o types, models.types.lookup o = some types →
    ∀ type ∈ types.all, RefersTo models.names type

namespace Generation

open Expansion

variable {e : Expander} {models models' : ModelSet} {s t : Session}

theorem accounted_empty : ModelSet.Accounted {} [] where
  consistent := ⟨List.nodup_nil, by simp, List.nodup_nil, .nil⟩
  names := .nil
  formed := by simp [ModelSet.placed]
  uses := by simp [ModelSet.placed]
  modules := by simp [ModelSet.modules]
  types := by simp

/-- Declarations that come back from an expansion go into a module. -/
theorem accounted_add (h : models.Accounted s.names) {schema : Fields}
    {base suffix origin module : String} (hsuffix : suffix ∈ Naming.suffixes)
    (hmodule : ∃ resource, module = Naming.camelCase resource) {ds : List Declaration}
    (hr : (e.resolve (.object schema) base suffix origin).run s = (.ok ds, t)) :
    (models.add module ds).Accounted t.names ∧ (models.add module ds).types = models.types ∧
      models.names ⊆ (models.add module ds).names := by
  obtain ⟨events, hc⟩ := e.course_of_resolve hr
  obtain ⟨added, hnames, hperm, hnodup, hnew⟩ := hc.names_eq
  have hnew' : ∀ d ∈ ds, d.name ∉ models.names := fun d hd hmem =>
    hnew _ (hperm.mem_iff.mpr (List.mem_map_of_mem hd)) (h.names.mem_iff.mp hmem)
  have hext := h.consistent.add module hnew' (hperm.nodup_iff.mp hnodup)
  have hclaimed : (models.add module ds).names.Perm t.names := by
    rw [hext.names, hnames]
    exact h.names.append hperm.symm
  have hgrown : models.names ⊆ (models.add module ds).names := by
    rw [hext.names]
    exact List.subset_append_left _ _
  have hplaced : ∀ p ∈ (models.add module ds).placed, p ∈ models.placed ∨ p.2 ∈ ds := by
    intro p hp
    rcases List.mem_append.mp (hext.placed.mem_iff.mp hp) with hp | hp
    · exact .inl hp
    · obtain ⟨d, hd, rfl⟩ := List.mem_map.mp hp
      exact .inr hd
  refine ⟨⟨hext.consistent, hclaimed, fun p hp => ?_, fun p hp n hn => ?_, fun m hm => ?_,
    fun o types ho type htype => ?_⟩, hext.types, hgrown⟩
  · rcases hplaced p hp with hp | hp
    · exact h.formed p hp
    · exact e.formed_resolve hsuffix _ _ _ _ _ _ hr _ hp
  · rcases hplaced p hp with hp | hp
    · exact hgrown (h.uses p hp hn)
    · -- The names that a new declaration uses are claimed at the end of the expansion.
      obtain ⟨before, after, hds⟩ := List.append_of_mem hp
      refine hclaimed.mem_iff.mpr ?_
      rcases hc.uses_declared hds hn with hn | hn | ⟨hn, -⟩
      · exact hc.subset hn
      · obtain ⟨d, hd, rfl⟩ := List.mem_map.mp hn
        exact hc.name_mem (hds ▸ List.mem_append_left _ hd)
      · obtain ⟨d, hd, rfl⟩ := List.mem_map.mp hn
        exact hc.name_mem (hds ▸ List.mem_append_right _ hd)
  · rcases hext.modules m hm with hm | rfl
    · exact h.modules m hm
    · exact hmodule
  · exact (h.types o types (hext.types ▸ ho) type htype).mono hgrown

/-- Expanding a schema of an operation keeps the records in order, and its type is declared. -/
theorem accounted_expand (h : models.Accounted s.names) {types : OperationTypes}
    {label suffix : String} {schema : Option Fields} {type : Option String}
    (hr : (expand e types label suffix models schema).run s = (.ok (models', type), t))
    (hsuffix : suffix ∈ Naming.suffixes)
    (hmodule : ∃ resource, types.module = Naming.camelCase resource) :
    models'.Accounted t.names ∧ models'.types = models.types ∧ models.names ⊆ models'.names ∧
      ∀ text, type = some text → RefersTo models'.names text := by
  cases schema with
  | none =>
    obtain ⟨⟨rfl, rfl⟩, rfl⟩ : (models = models' ∧ none = type) ∧ s = t := by
      simpa [expand] using hr
    exact ⟨h, rfl, fun _ => id, by simp⟩
  | some schema =>
    obtain ⟨ds, u, hresolve, hr⟩ := run_bind_eq_ok_iff.mp hr
    obtain ⟨reference, v, hreference, hr⟩ := run_bind_eq_ok_iff.mp hr
    obtain ⟨⟨rfl, rfl⟩, rfl⟩ : (models.add types.module ds = models' ∧
        some reference.text = type) ∧ v = t := by simpa using hr
    obtain ⟨hadd, htypes, hgrown⟩ := accounted_add h hsuffix hmodule hresolve
    -- `typeReference` changes no names, so what the resolution declared stays accounted for.
    have hquiet :=
      ((quiet_reading e.document).typeReference rfl (.object schema) types.resource suffix u).1
    rw [hreference] at hquiet
    have hname := e.named_typeReference _ _ _ _ _ _ hreference
    refine ⟨hquiet ▸ hadd, htypes, hgrown, fun text htext => ?_⟩
    obtain rfl := Option.some.inj htext
    refine ⟨reference, rfl, hadd.names.mem_iff.mpr ?_, ?_⟩
    · rw [hname]
      exact e.claims_resolve hresolve
    · exact ⟨types.resource, suffix, hsuffix, hname⟩

/-- The models for one more operation keep the records in order, and the operation has types. -/
theorem accounted_forOperation (h : models.Accounted s.names) {o : Operation}
    (hr : (forOperation e models o).run s = (.ok models', t)) :
    models'.Accounted t.names ∧ (models'.types.lookup o).isSome ∧
      ∀ o', (models.types.lookup o').isSome → (models'.types.lookup o').isSome := by
  -- The three schemas are looked up before anything is declared.
  unfold forOperation at hr
  dsimp only at hr
  obtain ⟨request, s₁, hrequest, hr⟩ := run_bind_eq_ok_iff.mp hr
  obtain ⟨response, s₂, hresponse, hr⟩ := run_bind_eq_ok_iff.mp hr
  obtain ⟨query, s₃, hquery, hr⟩ := run_bind_eq_ok_iff.mp hr
  have hnames : s₃.names = s.names := by
    have h₁ := ((quiet_reading e.document).request o s).1
    have h₂ := ((quiet_reading e.document).response o s₁).1
    have h₃ := ((quiet_reading e.document).query o s₂).1
    rw [hrequest] at h₁
    rw [hresponse] at h₂
    rw [hquery] at h₃
    exact h₃.trans (h₂.trans h₁)
  rw [← hnames] at h
  obtain ⟨⟨models₁, type₁⟩, u₁, hexpand₁, hr⟩ := run_bind_eq_ok_iff.mp hr
  obtain ⟨⟨models₂, type₂⟩, u₂, hexpand₂, hr⟩ := run_bind_eq_ok_iff.mp hr
  obtain ⟨⟨models₃, type₃⟩, u₃, hexpand₃, hr⟩ := run_bind_eq_ok_iff.mp hr
  obtain ⟨h₁, htypes₁, -, href₁⟩ := accounted_expand h hexpand₁ (by decide) ⟨o.resource, rfl⟩
  obtain ⟨h₂, htypes₂, hsub₂, href₂⟩ :=
    accounted_expand h₁ hexpand₂ (by decide) ⟨o.resource, rfl⟩
  obtain ⟨h₃, htypes₃, hsub₃, href₃⟩ :=
    accounted_expand h₂ hexpand₃ (by decide) ⟨o.resource, rfl⟩
  obtain ⟨rfl, rfl⟩ : _ = models' ∧ u₃ = t := by simpa using hr
  have htypes : models₃.types = models.types := htypes₃.trans (htypes₂.trans htypes₁)
  refine ⟨⟨⟨h₃.consistent.modules, h₃.consistent.filled, h₃.consistent.nodup,
    h₃.consistent.owners⟩, h₃.names, h₃.formed, h₃.uses, h₃.modules,
    fun o' types ho' type htype => ?_⟩, by simp, fun o' ho' => ?_⟩
  · dsimp only at ho'
    rw [lookup_assign] at ho'
    split at ho'
    · -- The types that were found just now.
      obtain rfl := Option.some.inj ho'
      simp only [OperationTypes.all, List.mem_append, Option.mem_toList] at htype
      rcases htype with (htype | htype) | htype
      · exact ((href₁ _ htype).mono hsub₂).mono hsub₃
      · exact (href₂ _ htype).mono hsub₃
      · exact href₃ _ htype
    · exact h₃.types o' types ho' type htype
  · dsimp only
    rw [lookup_assign, htypes]
    split
    · rfl
    · exact ho'

/-- The models for some operations keep the records in order, and every operation has types. -/
theorem accounted_foldlM {os : List Operation} (h : models.Accounted s.names)
    (hr : (os.foldlM (forOperation e) models).run s = (.ok models', t)) :
    models'.Accounted t.names ∧ (∀ o ∈ os, (models'.types.lookup o).isSome) ∧
      ∀ o, (models.types.lookup o).isSome → (models'.types.lookup o).isSome := by
  induction os generalizing models s with
  | nil =>
    obtain ⟨rfl, rfl⟩ : models = models' ∧ s = t := by simpa using hr
    exact ⟨h, by simp, fun _ => id⟩
  | cons o os ih =>
    rw [List.foldlM_cons] at hr
    obtain ⟨models₁, u, hfirst, hr⟩ := run_bind_eq_ok_iff.mp hr
    obtain ⟨h₁, ho, hkeep⟩ := accounted_forOperation h hfirst
    obtain ⟨h', hos, hkeep'⟩ := ih h₁ hr
    exact ⟨h', List.forall_mem_cons.mpr ⟨hkeep' o ho, hos⟩, fun o' ho' => hkeep' o' (hkeep o' ho')⟩

/-- What a pass over a catalog produces is in order, and every operation has types. -/
theorem accounted_models {catalog : Catalog}
    (hr : (Generation.models e catalog).run s = (.ok models, t)) :
    models.Accounted t.names ∧ ∀ o ∈ catalog.operations, (models.types.lookup o).isSome := by
  obtain ⟨_, u, hforget, hr⟩ := run_bind_eq_ok_iff.mp hr
  obtain rfl : s.forgetNames = u := congrArg Prod.snd hforget
  obtain ⟨h, hos, -⟩ := accounted_foldlM accounted_empty hr
  exact ⟨h, hos⟩

end Generation

end ClientGen
