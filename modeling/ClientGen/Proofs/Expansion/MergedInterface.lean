import ClientGen.Proofs.Expansion.Formed
import ClientGen.Proofs.Expansion.Leaves
import ClientGen.Proofs.Expansion.Pass
import ClientGen.Proofs.Failure

/-!
# Interfaces of schemas put together from several

What the leaves of a schema come to, and the interface that is declared for it.

* `Schema.leafProperties`, `Schema.leafRequirements`: all that the leaves say, from left to right.
* `Merged.Gathers`: each property once, where it came first and as it came last; each required name
  once.
* `Expander.Lists`: the properties of an interface, told by the leaves.
* `Expander.merge_adds_leaves`: putting a schema together, and what is declared for it.
-/

namespace ClientGen

namespace Schema

/-- All properties of the leaves, from left to right. -/
def leafProperties (leaves : List Fields) : Fields :=
  leaves.flatMap (fieldsUnder · "properties")

/-- All names that the leaves require, from left to right. -/
def leafRequirements (leaves : List Fields) : List String :=
  leaves.flatMap fun leaf => (requiredNames leaf).getD []

/-- The keys of the properties, each where it comes first. -/
def leafKeys (leaves : List Fields) : List Key :=
  (leafProperties leaves).keys.eraseDupsBy Key.same

/-- The required names of all leaves can be read. -/
def Readable (leaves : List Fields) : Prop := ∀ leaf ∈ leaves, requiredNames leaf ≠ none

/-- If the required names of all leaves can be read, reading them one by one gives those of each. -/
theorem mapM_readRequired {leaves : List Fields} (h : Readable leaves) :
    leaves.mapM readRequired = .ok (leaves.map fun leaf => (requiredNames leaf).getD []) := by
  refine mapM_eq_map fun leaf hleaf => ?_
  obtain ⟨names, hnames⟩ := Option.ne_none_iff_exists'.mp (h leaf hleaf)
  rw [readRequired, hnames]
  rfl

/-- A name is required by some leaf exactly if it is among the required names of the leaves. -/
theorem mem_leafRequirements {leaves : List Fields} {name : String} :
    name ∈ leafRequirements leaves ↔
      ∃ leaf ∈ leaves, ∃ required, requiredNames leaf = some required ∧ name ∈ required := by
  rw [leafRequirements, List.mem_flatMap]
  refine exists_congr fun leaf => and_congr_right fun _ => ?_
  cases requiredNames leaf <;> simp

end Schema

namespace Merged

open Schema

/-- Each property stands where it came first, with the value that came last, and each required name
where it came first. -/
structure Gathers (m : Merged) (leaves : List Fields) : Prop where
  /-- The order of the properties. -/
  keys : m.properties.keys = leafKeys leaves
  /-- The values of the properties. -/
  values : ∀ key, m.properties.value? key = Fields.value? (leafProperties leaves).reverse key
  /-- The required names. -/
  required : m.required = (leafRequirements leaves).eraseDups

/-- Adding all leaves at once gathers them. -/
theorem gathers_add (leaves : List Fields) :
    (({} : Merged).add (leafProperties leaves) (leafRequirements leaves)).Gathers leaves where
  keys := Fields.keys_ofList _
  values := Fields.value?_ofList _
  required := by
    rw [add_eq, foldl_keepFirst_nil _ fun _ _ => BEq.comm]
    rfl

/-- If all required names can be read, the leaves come to what they say together. -/
theorem exists_gathers {leaves : List Fields} (h : Readable leaves) :
    ∃ merged, leaves.foldlM addLeaf {} = .ok merged ∧ merged.Gathers leaves := by
  refine ⟨_, ?_, gathers_add leaves⟩
  rw [foldlM_addLeaf, mapM_readRequired h, leafRequirements, List.flatMap_def]
  rfl

end Merged

namespace Expander

open Expansion Schema

variable {e : Expander}

/-- The properties of an interface that is declared for a schema with these leaves. -/
structure Lists (leaves : List Fields) (ps : List Property) : Prop where
  /-- There is one property for each key, in the order in which the keys come first. -/
  names : ps.map Property.name = (leafKeys leaves).map Key.label
  /-- A property may be missing if no leaf requires it. -/
  optional : ∀ p ∈ ps, p.optional = true ↔
    ∀ leaf ∈ leaves, ∀ required, Schema.requiredNames leaf = some required → p.name ∉ required
  /-- Names come twice only where different keys are spelled alike. -/
  once : (ps.map Property.name).Nodup ↔
    ∀ k ∈ leafKeys leaves, ∀ k' ∈ leafKeys leaves, k.label = k'.label → k = k'

/-- No key is listed twice. -/
theorem nodup_leafKeys (leaves : List Fields) : (leafKeys leaves).Nodup := by
  rw [leafKeys, ← Fields.keys_ofList]
  refine (Fields.distinct_ofList _).imp fun {a b} hab heq => ?_
  rw [heq, Key.same_self] at hab
  cases hab

/-- Keys that are texts are all spelled differently. -/
theorem eq_of_label_eq {k k' : Key} (hk : k.isText = true) (hk' : k'.isText = true)
    (h : k.label = k'.label) : k = k' := by
  cases k <;> cases k' <;> simp_all [Key.isText, Key.label]

/-- Where all keys are texts, as in a document read as JSON, no name comes twice. -/
theorem Lists.nodup_of_texts {leaves : List Fields} {ps : List Property} (h : Lists leaves ps)
    (htexts : ∀ k ∈ leafKeys leaves, k.isText = true) : (ps.map Property.name).Nodup :=
  h.once.mpr fun k hk k' hk' => eq_of_label_eq (htexts k hk) (htexts k' hk')

/-- The properties of an interface are those of the object, in the same order. -/
theorem interfaceProperties_lists (typeOf : Node → Place → Expansion Typed) (place : Place)
    (required : List String) (fields : Fields) :
    Returns (fun r => r.1.map Property.name = fields.keys.map Key.label ∧
        ∀ p ∈ r.1, p.optional = !required.contains p.name)
      (interfaceProperties typeOf place required fields) := by
  induction fields with
  | nil => exact returns_pure ⟨rfl, by simp⟩
  | cons field rest ih =>
    obtain ⟨key, schema⟩ := field
    rw [interfaceProperties]
    refine returns_then fun typed => ih.bind fun r hr => returns_pure ⟨?_, ?_⟩
    · rw [List.map_cons, hr.1, Fields.keys_cons, List.map_cons]
    · exact List.forall_mem_cons.mpr ⟨rfl, hr.2⟩

/-- The last declaration is an interface with the properties of the leaves. -/
def EndsWithInterface (name : String) (leaves : List Fields) (ds : List Declaration) : Prop :=
  ∃ needs d ps, ds = needs ++ [d] ∧ d.name = name ∧ d.body = .properties ps ∧ Lists leaves ps

/-- The interface that is declared for gathered leaves lists them. -/
theorem interface_lists {m : Merged} {leaves : List Fields} (hm : m.Gathers leaves)
    (typeOf : Node → Place → Expansion Typed) (name : String) (comment : DocComment)
    (place : Place) :
    Returns (EndsWithInterface name leaves)
      (interface typeOf name comment place m.properties m.required) := by
  refine (interfaceProperties_lists typeOf place m.required m.properties).bind fun r hr =>
    returns_pure ⟨_, _, r.1, rfl, rfl, rfl, ?_⟩
  obtain ⟨hnames, hoptional⟩ := hr
  rw [hm.keys] at hnames
  refine ⟨hnames, fun p hp => ?_, ?_⟩
  · rw [hoptional p hp, hm.required, Bool.not_eq_true', ← Bool.not_eq_true,
      List.contains_iff_mem, List.mem_eraseDups, mem_leafRequirements]
    simp only [not_exists, not_and]
  · rw [hnames]
    refine ⟨fun hnodup k hk k' hk' hlabel => ?_, fun hinj => ?_⟩
    · exact List.inj_on_of_nodup_map hnodup hk hk' hlabel
    · exact (nodup_leafKeys leaves).map_on hinj

/-- A schema that is put together ends with an interface that lists its leaves, if its name is free
and it has a property. -/
theorem lists_of_declare {schema : Fields} {suffix : String} {place : Place} {leaves : List Fields}
    {merged : Merged} (hkind : kind schema = .allOf)
    (hleaves : Leaves e.document place.chain schema leaves)
    (hmerged : leaves.foldlM Merged.addLeaf {} = .ok merged) (hgathers : merged.Gathers leaves)
    (hne : merged.properties ≠ []) {left : Nat} {s t : Session} {ds : List Declaration}
    (hs : s.Faithful e.document) (hfree : Naming.interfaceName place.base suffix ∉ s.names)
    (h : (e.declare left schema suffix place).run s = (.ok ds, t)) :
    EndsWithInterface (Naming.interfaceName place.base suffix) leaves ds := by
  cases left with
  | zero =>
    rw [declare] at h
    simp at h
  | succ left =>
    rw [declare, declareStep] at h
    simp only [hkind] at h
    rw [run_once_of_not_mem (by exact hfree)] at h
    simp only [body] at h
    obtain ⟨m, u, hrun, h⟩ := run_bind_eq_ok_iff.mp h
    -- The leaves are added in the session in which the name is claimed already.
    have hgiven := (gives_merge hleaves).eq_ok_of_run (by exact hs) hrun
    obtain rfl : merged = m := Except.ok.inj (hmerged.symm.trans hgiven)
    rw [if_neg (by simpa using hne)] at h
    exact interface_lists hgathers _ _ _ _ _ _ _ h

/-- A schema is put together by adding its leaves one after another, from left to right; there is
one list of leaves. If their required names can be read, each property stands where it came first,
with the value that came last, and each required name once. If there are properties, an interface is
declared with one of them for each key, in this order, which may be missing exactly if no leaf
requires it. -/
theorem merge_adds_leaves (e : Expander) (schema : Fields) (chain : List String) :
    ∃ leaves, (∀ other, Leaves e.document chain schema other ↔ other = leaves) ∧
      (∀ s : Session, s.Faithful e.document →
        ((e.merge schema chain).run s).1 = leaves.foldlM Merged.addLeaf {}) ∧
      (Readable leaves → ∃ merged, leaves.foldlM Merged.addLeaf {} = .ok merged ∧
        merged.Gathers leaves ∧
        (kind schema = .allOf → merged.properties ≠ [] →
          ∀ (place : Place) {left : Nat} {suffix : String} {s t : Session}
            {ds : List Declaration}, place.chain = chain → s.Faithful e.document →
            Naming.interfaceName place.base suffix ∉ s.names →
            (e.declare left schema suffix place).run s = (.ok ds, t) →
            EndsWithInterface (Naming.interfaceName place.base suffix) leaves ds)) := by
  obtain ⟨leaves, hleaves⟩ := exists_leaves e schema chain
  refine ⟨leaves, fun other => ⟨fun h => h.unique hleaves, fun h => h ▸ hleaves⟩,
    fun s hs => (gives_merge hleaves s hs).1, fun hreadable => ?_⟩
  obtain ⟨merged, hmerged, hgathers⟩ := Merged.exists_gathers hreadable
  refine ⟨merged, hmerged, hgathers, fun hkind hne place left suffix s t ds hchain hs hfree h => ?_⟩
  subst hchain
  exact lists_of_declare hkind hleaves hmerged hgathers hne hs hfree h

/-- What the schema of the next document says itself. -/
def cyclicOwn : Fields :=
  [(.text "properties", .object [(.text "x", .object [])]),
    (.text "required", .list [.text "y"])]

/-- A schema that is put together from itself and another one. -/
def cyclic : Fields :=
  (.text "allOf", .list [pointing "#/S", pointing "#/D"]) :: cyclicOwn

/-- The other schema. -/
def cyclicOther : Fields :=
  withProperties [(.text "y", .object []), (.text "x", .object [(.text "type", .text "string")])]

/-- The document that holds both. -/
def cyclicDocument : Node :=
  .object [(.text "S", .object cyclic), (.text "D", .object cyclicOther)]

/-- The schema is entered once more behind the reference to it, where the same reference is
skipped. -/
theorem leaves_cyclic :
    Leaves cyclicDocument [] cyclic [cyclicOther, cyclicOwn, cyclicOther, cyclicOwn] := by
  have hself : Follows cyclicDocument [] [(.text "$ref", .text "#/S")] (some cyclic, ["#/S"]) :=
    .along rfl List.not_mem_nil rfl (.here rfl)
  have hagain : Follows cyclicDocument ["#/S"] [(.text "$ref", .text "#/S")] (none, ["#/S"]) :=
    .again rfl List.mem_cons_self
  have hother : ∀ chain, "#/D" ∉ chain → Follows cyclicDocument chain
      [(.text "$ref", .text "#/D")] (some cyclicOther, "#/D" :: chain) :=
    fun chain hfresh => .along rfl hfresh rfl (.here rfl)
  have hinside : Flattened cyclicDocument ["#/S"] (members cyclic allOfKey) [cyclicOther] :=
    .skipped hagain (.leaf (hother _ (by decide)) (by decide) .nil)
  have hrest : Flattened cyclicDocument [] [[(.text "$ref", .text "#/D")]] [cyclicOther] :=
    .leaf (hother _ (by decide)) (by decide) .nil
  exact ⟨_, .inner hself (by decide) hinside hrest, rfl⟩

/-- The required names of these leaves can be read. -/
theorem readable_cyclic : Readable [cyclicOther, cyclicOwn, cyclicOther, cyclicOwn] := by
  unfold Readable
  decide

/-- The keys of these leaves, each where it comes first. -/
theorem leafKeys_cyclic :
    leafKeys [cyclicOther, cyclicOwn, cyclicOther, cyclicOwn] = [.text "y", .text "x"] := by
  decide

/-- The interface of a schema that is put together from itself. -/
theorem merge_adds_leaves_cyclic :
    ∃ leaves ds t, (∀ other, Leaves cyclicDocument [] cyclic other ↔ other = leaves) ∧
      Readable leaves ∧ kind cyclic = .allOf ∧
      Naming.interfaceName "Cyclic" "" ∉ ({} : Session).names ∧
      ((Expander.mk cyclicDocument 64).declare 3 cyclic ""
        { base := "Cyclic", origin := "" }).run {} = (.ok ds, t) ∧
      EndsWithInterface (Naming.interfaceName "Cyclic" "") leaves ds := by
  obtain ⟨leaves, hleaves, -, hdeclared⟩ := merge_adds_leaves ⟨cyclicDocument, 64⟩ cyclic []
  obtain rfl := (hleaves _).mp leaves_cyclic
  obtain ⟨merged, -, hgathers, hdeclared⟩ := hdeclared readable_cyclic
  have hne : merged.properties ≠ [] := by
    intro hnil
    have hkeys := hgathers.keys
    rw [hnil, leafKeys_cyclic] at hkeys
    cases hkeys
  have hrun : ∃ ds t, ((Expander.mk cyclicDocument 64).declare 3 cyclic ""
      { base := "Cyclic", origin := "" }).run {} = (.ok ds, t) := ⟨_, _, rfl⟩
  obtain ⟨ds, t, hrun⟩ := hrun
  have hkind : kind cyclic = .allOf := by decide
  have hfree : Naming.interfaceName "Cyclic" "" ∉ ({} : Session).names := List.not_mem_nil
  refine ⟨_, ds, t, hleaves, readable_cyclic, hkind, hfree, hrun, ?_⟩
  exact hdeclared hkind hne { base := "Cyclic", origin := "" } rfl (Session.faithful_empty _) hfree
    hrun

/-! ## Keys that are spelled alike -/

/-- Two parts with a property each: one under a number, one under the text of the number. -/
def yearly : Fields :=
  [(.text "allOf", .list
    [.object (withProperties [(.int 2024, .object [(.text "type", .text "string")])]),
      .object (withProperties [(.text "2024", .object [(.text "type", .text "number")])])])]

/-- The interface has two properties of one name. -/
theorem exists_repeated_property :
    ∃ needs d ps t, ((Expander.mk .null 64).resolve (.object yearly) "Rate" "Response" "").run {}
        = (.ok (needs ++ [d]), t) ∧
      d.body = .properties ps ∧ ps.map Property.name = ["2024", "2024"] :=
  ⟨[], _, _, _, rfl, rfl, rfl⟩

end Expander

end ClientGen
