import ClientGen.Proofs.Expansion.Outcome

/-!
# Open types

What becomes of a malformed schema: a property gets an open type, and a name is declared as an
interface that allows every key. Neither fails.

* `Schema.Malformed`: no object, a reference that leads nowhere, or an object of no known kind.
* `TypeExpr.IsOpen`: the open types.
* `Expander.Degrades`: malformed schemas become open types.
* `Expander.degrades`: they always do, unless no level of nesting is allowed at all.
-/

namespace ClientGen

/-- The node is a malformed schema. -/
inductive Schema.Malformed (document : Node) : Node → Prop
  /-- It is no object. -/
  | notAnObject {node : Node} : node.object? = none → Malformed document node
  /-- It is a reference that leads nowhere. -/
  | nowhere {schema : Fields} : kind schema = .reference →
    (∀ target, ¬ Leads document schema target) → Malformed document (.object schema)
  /-- It is an object that says nothing known. -/
  | unknown {schema : Fields} : kind schema = .unknown → Malformed document (.object schema)

/-- The type allows every value, or every object. -/
inductive TypeExpr.IsOpen : TypeExpr → Prop
  /-- All values. -/
  | any : IsOpen .any
  /-- All objects. -/
  | record : IsOpen (.record .any)
  /-- An open type, with null allowed besides. -/
  | orNull {t : TypeExpr} : IsOpen t → IsOpen t.orNull

namespace Expander

open Expansion Schema

variable {e : Expander} {allowed : Failure → Prop} {schema : Fields}

/-- Malformed schemas become open types: as the type of a property, and as a declared name. -/
structure Degrades (e : Expander) : Prop where
  /-- A malformed property has an open type and needs no declarations. -/
  typed {node : Node} {s : Session} : Malformed e.document node → s.Faithful e.document →
    ∀ left place, ∃ type t, (e.propertyType (left + 1) node place).run s = (.ok { type }, t) ∧
      type.IsOpen
  /-- A free name that is to stand for a malformed schema is declared open. -/
  declared {schema : Fields} {base suffix : String} {s : Session} :
    Malformed e.document (.object schema) → s.Faithful e.document →
    Naming.interfaceName base suffix ∉ s.names → ∀ origin, ∃ t,
      (e.resolve (.object schema) base suffix origin).run s =
        (.ok [openInterface ⟨Naming.interfaceName base suffix, schema⟩ { base, origin }], t)

/-- The type word of an object of no known kind is no basic type. -/
theorem lookup_eq_none_of_unknown {word : String} (hkind : kind schema = .unknown)
    (hword : (typeAndNullability schema).1 = some word) : primitiveTypes.lookup word = none := by
  cases hbasic : primitiveTypes.lookup word with
  | none => rfl
  | some basic =>
    have hany : (typeAndNullability schema).1.any fun t => (primitiveTypes.lookup t).isSome := by
      simp [hword, hbasic]
    rw [kind] at hkind
    simp only [hany, if_true] at hkind
    split_ifs at hkind

/-- The type of an object of no known kind is open. -/
theorem admits_plainType_of_unknown {document : Node} (hkind : kind schema = .unknown)
    (origin : String) :
    Admits document allowed (fun type => type.IsOpen) (plainType schema origin) := by
  unfold plainType
  split
  · rename_i word hword
    rw [lookup_eq_none_of_unknown hkind hword]
    dsimp only
    split
    · exact admits_pure .record
    · exact (admits_warn _).bind fun _ _ => admits_pure .any
  · exact admits_pure .any

/-- Nothing is found behind a reference that leads nowhere. -/
theorem admits_follow_of_nowhere (h : ∀ target, ¬ Leads e.document schema target)
    (chain : List String) :
    Admits e.document allowed (fun found => found.1 = none) (e.follow schema chain) := by
  refine (admits_follow e schema chain).mono (fun _ => id) fun found hfound => ?_
  exact Option.eq_none_iff_forall_ne_some.mpr fun target htarget => h target (hfound target htarget)

/-- A malformed property has an open type and needs no declarations. -/
theorem admits_propertyType_of_malformed {node : Node} (h : Malformed e.document node) (left : Nat)
    (place : Place) :
    Admits e.document allowed (fun typed => typed.type.IsOpen ∧ typed.needs = [])
      (e.propertyType (left + 1) node place) := by
  -- `null` beside an open type leaves it open.
  have horNull : ∀ (schema : Fields) (typed : Typed), typed.type.IsOpen ∧ typed.needs = [] →
      (orNullFor schema typed).type.IsOpen ∧ (orNullFor schema typed).needs = [] := by
    intro schema typed hopen
    unfold orNullFor
    split
    · exact ⟨.orNull hopen.1, hopen.2⟩
    · exact hopen
  cases h with
  | notAnObject hnode =>
    cases node with
    | object => cases hnode
    | _ => exact admits_pure ⟨.any, rfl⟩
  | @nowhere schema hkind hnowhere =>
    refine Admits.bind (P := fun typed => typed.type.IsOpen ∧ typed.needs = []) ?_
      fun typed htyped => admits_pure (horNull schema typed htyped)
    rw [typeStep, hkind]
    refine (admits_follow_of_nowhere hnowhere place.chain).bind fun found hfound => ?_
    obtain ⟨_, chain⟩ := found
    obtain rfl := hfound
    exact (admits_warn _).bind fun _ _ => admits_pure ⟨.any, rfl⟩
  | @unknown schema hkind =>
    refine Admits.bind (P := fun typed => typed.type.IsOpen ∧ typed.needs = []) ?_
      fun typed htyped => admits_pure (horNull schema typed htyped)
    rw [typeStep, hkind]
    exact (admits_plainType_of_unknown hkind _).bind fun type hopen => admits_pure ⟨hopen, rfl⟩

/-- One level of declaring a malformed schema declares it open if its name is free. -/
theorem declare_of_malformed {s : Session} (h : Malformed e.document (.object schema))
    (hs : s.Faithful e.document) (left : Nat) {suffix : String} {place : Place}
    (hfree : Naming.interfaceName place.base suffix ∉ s.names) :
    ∃ t, (e.declare (left + 1) schema suffix place).run s =
      (.ok [openInterface ⟨Naming.interfaceName place.base suffix, schema⟩ place], t) := by
  rw [declare, declareStep]
  cases h with
  | notAnObject hnode => cases hnode
  | unknown hkind =>
    rw [hkind]
    exact ⟨_, run_once_of_not_mem hfree _⟩
  | nowhere hkind hnowhere =>
    rw [hkind]
    obtain ⟨⟨_, chain⟩, t, hrun, rfl⟩ :=
      (admits_follow_of_nowhere hnowhere place.chain).exists_run_eq_ok hs
    -- Looking for the end of the chain claims no names.
    have hfree' : Naming.interfaceName place.base suffix ∉ t.names :=
      e.names_of_follow hrun ▸ hfree
    exact ⟨_, (run_bind_of_ok hrun _).trans (run_once_of_not_mem hfree' _)⟩

/-- Malformed schemas become open types, unless no level of nesting is allowed at all. -/
theorem degrades (e : Expander) (hlimit : 0 ≤ e.limit) : e.Degrades where
  typed h hs left place := by
    obtain ⟨⟨type, needs⟩, t, hrun, hopen, rfl⟩ :=
      (admits_propertyType_of_malformed h left place).exists_run_eq_ok hs
    exact ⟨type, t, hrun, hopen⟩
  declared h hs hfree origin := by
    obtain ⟨left, hleft⟩ := exists_levels_eq_succ hlimit
    rw [resolve, hleft]
    exact declare_of_malformed h hs left hfree

end Expander

end ClientGen
