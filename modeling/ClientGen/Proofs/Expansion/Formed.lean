import ClientGen.Proofs.Expansion.Run
import ClientGen.Proofs.Naming.Alphabet

/-!
# The form of declarations

Whatever a document says, expansions put declarations together from few parts: names of interfaces,
the words of the basic types, literal values, and unions, lists and records of such types.

* `TypeExpr.Formed`, `Declaration.Formed`: the types and declarations that expansions build.
* `Expansion.Returns`: what a computation returns, if it does.
* `Expander.formed_resolve`: an expansion returns formed declarations.
* `Expander.claims_resolve`: after an expansion of a schema its name is declared, and
  `Expander.named_typeReference`: other files refer to it by that name.
-/

namespace ClientGen

/-- The words of the basic types. -/
def TypeExpr.basicWords : List String := ["string", "number", "boolean", "null"]

/-- The types that expansions build. -/
inductive TypeExpr.Formed : TypeExpr → Prop
  /-- The type of all values. -/
  | any : Formed .any
  /-- A basic type. -/
  | basic {word : String} : word ∈ basicWords → Formed (.basic word)
  /-- An interface without suffix. -/
  | named (base : String) : Formed (.named (Naming.interfaceName base ""))
  /-- A literal value. -/
  | value (node : Node) : Formed (.value (literal node))
  /-- A union of types. -/
  | union {members : List TypeExpr} : (∀ t ∈ members, Formed t) → Formed (.union members)
  /-- A list of items. -/
  | array {item : TypeExpr} : Formed item → Formed (.array item)
  /-- An object with free keys. -/
  | record {value : TypeExpr} : Formed value → Formed (.record value)

/-- A formed type stays formed when null is allowed besides. -/
theorem TypeExpr.Formed.orNull {t : TypeExpr} (h : t.Formed) : t.orNull.Formed := by
  unfold TypeExpr.orNull
  split
  · exact h
  · refine .union fun u hu => ?_
    have hu : u = t ∨ u = .basic "null" := by simpa using hu
    rcases hu with rfl | rfl
    · exact h
    · exact .basic (by decide)

/-- A formed type uses names of interfaces. -/
theorem TypeExpr.Formed.isInterfaceName {t : TypeExpr} (h : t.Formed) {n : String}
    (hn : n ∈ t.names) : Naming.IsInterfaceName n := by
  induction h with
  | any => simp [names] at hn
  | basic _ => simp [names] at hn
  | value _ => simp [names] at hn
  | named base =>
    obtain rfl : n = Naming.interfaceName base "" := by simpa [names] using hn
    exact Naming.isInterfaceName_plain base
  | union _ ih =>
    obtain ⟨m, hm, hnm⟩ := mem_namesOf.mp hn
    exact ih m hm hnm
  | array _ ih => exact ih hn
  | record _ ih => exact ih hn

/-- The texts of several types are the texts of each. -/
theorem TypeExpr.texts_eq_map (types : List TypeExpr) : texts types = types.map text := by
  induction types with
  | nil => rfl
  | cons t types ih => rw [texts, ih, List.map_cons]

/-- The types in a declaration. -/
def Declaration.types (d : Declaration) : List TypeExpr :=
  match d.body with
  | .properties ps => ps.map Property.type
  | .anything => []
  | .alias type => [type]

/-- The names that a declaration uses are those of its types. -/
theorem Declaration.mem_uses {d : Declaration} {n : String} :
    n ∈ d.uses ↔ ∃ t ∈ d.types, n ∈ t.names := by
  unfold Declaration.uses Declaration.types
  cases d.body with
  | properties ps =>
    simp only [List.mem_flatMap, List.mem_map]
    exact ⟨fun ⟨p, hp, hn⟩ => ⟨p.type, ⟨p, hp, rfl⟩, hn⟩, fun ⟨_, ⟨p, hp, rfl⟩, hn⟩ => ⟨p, hp, hn⟩⟩
  | anything => simp
  | «alias» type => simp

/-- The declarations that expansions build. -/
structure Declaration.Formed (d : Declaration) : Prop where
  /-- The name is that of an interface. -/
  name : Naming.IsInterfaceName d.name
  /-- The types are formed. -/
  types : ∀ t ∈ d.types, t.Formed

/-- A formed type that needs formed declarations. -/
structure Typed.Formed (t : Typed) : Prop where
  /-- The type is formed. -/
  type : t.type.Formed
  /-- What it needs is formed. -/
  needs : ∀ d ∈ t.needs, d.Formed

namespace Expansion

variable {α β : Type} {P : α → Prop} {Q : β → Prop}

/-- Whatever the computation returns has the property. -/
def Returns (P : α → Prop) (x : Expansion α) : Prop := ∀ s a t, x.run s = (.ok a, t) → P a

/-- Returning a value with the property is returning something with the property. -/
theorem returns_pure {a : α} (h : P a) : Returns P (pure a) := by
  intro s b t hr
  obtain ⟨rfl, -⟩ : a = b ∧ s = t := by simpa using hr
  exact h

/-- A computation that fails returns nothing without the property. -/
theorem returns_throw (f : Failure) : Returns P (throw f) := by
  intro s a t hr
  simp at hr

/-- Nothing in particular is returned. -/
theorem returns_some (x : Expansion α) : Returns (fun _ => True) x := fun _ _ _ _ => trivial

/-- A sequence returns something with a property if its second part does, given what the first one
returns. -/
theorem Returns.bind {x : Expansion α} {f : α → Expansion β} (hx : Returns P x)
    (hf : ∀ a, P a → Returns Q (f a)) : Returns Q (x >>= f) := by
  intro s b t hr
  obtain ⟨a, u, hxr, hfr⟩ := run_bind_eq_ok_iff.mp hr
  exact hf a (hx s a u hxr) u b t hfr

/-- A computation behind one of which only its end matters. -/
theorem returns_then {x : Expansion α} {f : α → Expansion β} (hf : ∀ a, Returns Q (f a)) :
    Returns Q (x >>= f) :=
  (returns_some x).bind fun a _ => hf a

end Expansion

namespace Expander

open Expansion

/-- All declarations of the list are formed. -/
abbrev AllFormed (ds : List Declaration) : Prop := ∀ d ∈ ds, d.Formed

/-- Two lists of formed declarations make up one. -/
theorem allFormed_append {ds ds' : List Declaration} (h : AllFormed ds) (h' : AllFormed ds') :
    AllFormed (ds ++ ds') :=
  fun d hd => (List.mem_append.mp hd).elim (h d) (h' d)

/-- A formed declaration alone is a list of formed declarations. -/
theorem allFormed_singleton {d : Declaration} (h : d.Formed) : AllFormed [d] := by
  simpa [AllFormed] using h

/-- What comes back for a request is formed if the declarations found for it are. -/
theorem once_formed {r : Request} {x : Expansion (List Declaration)} (hx : Returns AllFormed x) :
    Returns AllFormed (once r x) := by
  refine returns_then fun fresh => ?_
  split
  · exact hx
  · exact returns_pure (by simp [AllFormed])

/-- The type of a schema that needs no declaration is formed. -/
theorem plainType_formed (schema : Fields) (origin : String) :
    Returns TypeExpr.Formed (plainType schema origin) := by
  have hwords : ∀ p ∈ Schema.primitiveTypes, p.2 ∈ TypeExpr.basicWords := by decide
  unfold plainType
  split
  · split
    · rename_i word _ _ basic hbasic
      obtain ⟨before, after, hsplit, -⟩ := List.lookup_eq_some_iff.mp hbasic
      refine returns_pure (.basic (hwords (word, basic) ?_))
      rw [hsplit]
      exact List.mem_append_right _ List.mem_cons_self
    · split
      · exact returns_pure (.record .any)
      · exact returns_then fun _ => returns_pure .any
  · exact returns_pure .any

/-- The type of enumerated values is formed. -/
theorem valuesType_formed (schema : Fields) : (valuesType schema).Formed := by
  refine .union fun t ht => ?_
  obtain ⟨v, -, rfl⟩ := List.mem_map.mp (TypeExpr.mem_of_mem_distinct ht)
  exact .value v

/-- A formed type stays formed when its schema allows null. -/
theorem orNullFor_formed {t : Typed} (h : t.Formed) (schema : Fields) :
    (orNullFor schema t).Formed := by
  unfold orNullFor
  split
  · exact ⟨h.type.orNull, h.needs⟩
  · exact h

/-! ## The parts of a step -/

section Parts

variable (e : Expander) {typeOf : Node → Place → Expansion Typed}
  (ht : ∀ node place, Returns Typed.Formed (typeOf node place))

include ht

/-- The types of the members of a choice are formed, and so is what they need. -/
theorem choiceTypes_formed (place : Place) (key : String) (members : List Fields) (i : Nat) :
    Returns (fun r => (∀ t ∈ r.1, t.Formed) ∧ AllFormed r.2)
      (choiceTypes typeOf place key members i) := by
  induction members generalizing i with
  | nil => exact returns_pure ⟨by simp, by simp [AllFormed]⟩
  | cons member rest ih =>
    rw [choiceTypes]
    refine (ht _ _).bind fun head hhead => (ih (i + 1)).bind fun r hr => returns_pure ⟨?_, ?_⟩
    · exact List.forall_mem_cons.mpr ⟨hhead.type, hr.1⟩
    · exact allFormed_append hhead.needs hr.2

/-- The type of a choice is formed. -/
theorem choiceType_formed (place : Place) (schema : Fields) :
    Returns Typed.Formed (choiceType typeOf place schema) := by
  refine (choiceTypes_formed ht place _ _ 0).bind fun r hr => returns_pure ⟨?_, hr.2⟩
  exact .union fun t htd => hr.1 t (TypeExpr.mem_of_mem_distinct htd)

/-- The types of properties are formed, and so is what they need. -/
theorem interfaceProperties_formed (place : Place) (required : List String) (fields : Fields) :
    Returns (fun r => (∀ p ∈ r.1, p.type.Formed) ∧ AllFormed r.2)
      (interfaceProperties typeOf place required fields) := by
  induction fields with
  | nil => exact returns_pure ⟨by simp, by simp [AllFormed]⟩
  | cons field rest ih =>
    obtain ⟨key, schema⟩ := field
    rw [interfaceProperties]
    refine (ht _ _).bind fun typed htyped => ih.bind fun r hr => returns_pure ⟨?_, ?_⟩
    · exact List.forall_mem_cons.mpr ⟨htyped.type, hr.1⟩
    · exact allFormed_append htyped.needs hr.2

/-- An interface with an interface name is formed, and so is what it needs. -/
theorem interface_formed {name : String} (hname : Naming.IsInterfaceName name)
    (comment : DocComment) (place : Place) (properties : Fields) (required : List String) :
    Returns AllFormed (interface typeOf name comment place properties required) := by
  refine (interfaceProperties_formed ht place required properties).bind fun r hr =>
    returns_pure (allFormed_append hr.2 (allFormed_singleton ⟨hname, fun t ht => ?_⟩))
  obtain ⟨p, hp, rfl⟩ := List.mem_map.mp ht
  exact hr.1 p hp

omit ht in
/-- The interface that allows every key is formed if its name is one. -/
theorem openInterface_formed {r : Request} (hr : Naming.IsInterfaceName r.name) (place : Place) :
    Returns AllFormed (pure [openInterface r place]) :=
  returns_pure (allFormed_singleton ⟨hr, by simp [openInterface, Declaration.types]⟩)

/-- The declaration of a request with an interface name is formed, whatever the kind of its
schema. -/
theorem body_formed {r : Request} (hr : Naming.IsInterfaceName r.name) (kind : Schema.Kind)
    (place : Place) : Returns AllFormed (e.body typeOf r kind place) := by
  unfold body
  dsimp only
  -- Put together from several, a choice, an object, anything else.
  split
  · refine returns_then fun merged => ?_
    split
    · exact openInterface_formed hr place
    · exact interface_formed ht hr _ _ _ _
  · refine (choiceType_formed ht _ _).bind fun typed htyped =>
      returns_pure (allFormed_append htyped.needs (allFormed_singleton ⟨hr, ?_⟩))
    simpa [Declaration.types] using htyped.type
  · exact returns_then fun _ => interface_formed ht hr _ _ _ _
  · exact openInterface_formed hr place

variable {again : Fields → Place → Expansion (List Declaration)}
  (hd : ∀ schema place, Returns AllFormed (again schema place))

include hd

/-- One level of declaring a schema gives formed declarations. -/
theorem declareStep_formed {suffix : String} (hsuffix : suffix ∈ Naming.suffixes)
    (schema : Fields) (place : Place) :
    Returns AllFormed (e.declareStep once again typeOf schema suffix place) := by
  have hname : Naming.IsInterfaceName (Naming.interfaceName place.base suffix) :=
    ⟨place.base, suffix, hsuffix, rfl⟩
  unfold declareStep
  dsimp only
  split
  · refine returns_then fun found => ?_
    split
    · exact hd _ _
    · exact returns_then fun _ => once_formed (openInterface_formed hname _)
  · exact hd _ _
  · exact once_formed (body_formed e ht hname _ _)

/-- One level of typing a schema gives a formed type. -/
theorem typeStep_formed (schema : Fields) (place : Place) :
    Returns Typed.Formed (e.typeStep again typeOf schema place) := by
  have hplain : Returns Typed.Formed (do
      let type : TypeExpr ← liftM (plainType schema place.origin)
      return { type }) :=
    (plainType_formed schema place.origin).bind fun type htype =>
      returns_pure ⟨htype, by simp⟩
  unfold typeStep
  -- One goal for each kind, in the order of the definition.
  split
  · refine returns_then fun found => ?_
    split
    · exact returns_then fun _ => returns_pure ⟨.any, by simp⟩
    · split
      · exact (hd _ _).bind fun _ hds => returns_pure ⟨.named _, hds⟩
      · exact ht _ _
  · exact (hd _ _).bind fun _ hds => returns_pure ⟨.named _, hds⟩
  · exact (hd _ _).bind fun _ hds => returns_pure ⟨.named _, hds⟩
  · exact choiceType_formed ht place schema
  · exact returns_pure ⟨valuesType_formed schema, by simp⟩
  · exact (ht _ _).bind fun item hitem => returns_pure ⟨.array hitem.type, hitem.needs⟩
  · split
    · exact (ht _ _).bind fun value hvalue => returns_pure ⟨.record hvalue.type, hvalue.needs⟩
    · exact returns_pure ⟨.record .any, by simp⟩
  · exact hplain
  · exact hplain

end Parts

variable (e : Expander)

/-- At every level, declarations and types are formed. -/
theorem level_formed (left : Nat) :
    (∀ schema, ∀ suffix ∈ Naming.suffixes, ∀ place,
      Returns AllFormed (e.declare left schema suffix place)) ∧
      ∀ node place, Returns Typed.Formed (e.propertyType left node place) := by
  -- Both functions at once, since each calls the other one level down.
  induction left with
  | zero =>
    refine ⟨fun schema suffix _ place => ?_, fun node place => ?_⟩
    · rw [declare]
      exact returns_throw _
    · rw [propertyType]
      exact returns_throw _
  | succ left ih =>
    obtain ⟨ihd, iht⟩ := ih
    refine ⟨fun schema suffix hsuffix place => ?_, fun node place => ?_⟩
    · rw [declare]
      exact declareStep_formed e iht (fun _ _ => ihd _ suffix hsuffix _) hsuffix _ _
    · cases node with
      | object schema =>
        rw [propertyType, map_eq_pure_bind]
        exact (typeStep_formed e iht (fun _ _ => ihd _ "" (by decide) _) _ _).bind
          fun _ htyped => returns_pure (orNullFor_formed htyped schema)
      | _ =>
        rw [propertyType]
        exact returns_pure ⟨.any, by simp⟩

/-- An expansion returns formed declarations. -/
theorem formed_resolve {suffix : String} (hsuffix : suffix ∈ Naming.suffixes) (node : Node)
    (base origin : String) : Returns AllFormed (e.resolve node base suffix origin) := by
  unfold resolve
  split
  · exact (level_formed e e.levels).1 _ suffix hsuffix _
  · split
    · exact returns_throw _
    · refine returns_then fun fresh => ?_
      split
      · exact returns_throw _
      · exact returns_pure (by simp [AllFormed])

/-! ## The name of the expanded schema -/

/-- A name that is asked for is declared afterwards. -/
theorem mem_names_of_once {r : Request} {x : Expansion (List Declaration)}
    (hx : Grows e.document x) {s t : Session} {ds : List Declaration}
    (h : (once r x).run s = (.ok ds, t)) : r.name ∈ t.names := by
  by_cases hmem : r.name ∈ s.names
  · have hgrown := hx.once r s
    rw [h] at hgrown
    exact hgrown.names.subset hmem
  · rw [run_once_of_not_mem hmem] at h
    have hgrown := hx { s with names := s.names ++ [r.name] }
    rw [h] at hgrown
    exact hgrown.names.subset (List.mem_append_right _ (List.mem_singleton_self _))

/-- A schema that is declared has its name declared afterwards, also when another schema stands for
it. -/
theorem mem_names_of_declare {left : Nat} {schema : Fields} {base suffix : String} {place : Place}
    (hbase : place.base = base) {s t : Session} {ds : List Declaration}
    (h : (e.declare left schema suffix place).run s = (.ok ds, t)) :
    Naming.interfaceName base suffix ∈ t.names := by
  induction left generalizing schema place s with
  | zero =>
    rw [declare] at h
    simp at h
  | succ left ih =>
    rw [declare] at h
    unfold declareStep at h
    dsimp only at h
    -- References and lists keep the base; everything else asks for the name.
    split at h
    · obtain ⟨found, u, -, h⟩ := run_bind_eq_ok_iff.mp h
      split at h
      · refine ih ?_ h
        exact hbase
      · obtain ⟨_, v, -, h⟩ := run_bind_eq_ok_iff.mp h
        exact hbase ▸ e.mem_names_of_once (grows_pure _) h
    · refine ih ?_ h
      exact hbase
    · exact hbase ▸ e.mem_names_of_once
        ((kept_grows e).body (fun _ _ => (grows_level e left).2 _ _) _ _ _) h

/-- After an expansion of a schema its name is declared. -/
theorem claims_resolve {schema : Fields} {base suffix origin : String} {s t : Session}
    {ds : List Declaration}
    (h : (e.resolve (.object schema) base suffix origin).run s = (.ok ds, t)) :
    Naming.interfaceName base suffix ∈ t.names := by
  unfold resolve at h
  refine e.mem_names_of_declare ?_ h
  rfl

/-- Other files refer to a schema by the name of its declaration. -/
theorem named_typeReference (node : Node) (base suffix : String) :
    Returns (fun r => r.name = Naming.interfaceName base suffix)
      (e.typeReference node base suffix) := by
  unfold typeReference
  dsimp only
  split
  · exact returns_then fun _ => returns_pure rfl
  · exact returns_then fun _ => returns_pure rfl

end Expander

end ClientGen
