import ClientGen.Proofs.Schema.UnionText
import ClientGen.Proofs.Expansion.Termination

/-!
# Types of nullable schemas

A type allows null if null is a member of its outermost union. Whether it does already is decided
by the texts between all bars of the type, those in parentheses, in angle brackets and in quoted
literals included.

* `TypeExpr.AdmitsNull`: a reader finds null in the outermost union.
* `TypeExpr.HidesNull`: null stands between bars inside of a member only.
* `TypeExpr.Formed.allowsNull_iff`: null is taken to be allowed in either case.
* `Expander.nullable_admits_null`: a nullable schema gets a type that admits null unless the type
  found for it hides one.
-/

namespace ClientGen

namespace TypeExpr

/-- The type is that of all values, or null is a member of its outermost union. -/
def AdmitsNull (t : TypeExpr) : Prop :=
  t.text = "any" ∨ "null".toList ∈ outermost 0 {} t.text.toList

instance (t : TypeExpr) : Decidable t.AdmitsNull := instDecidableOr

/-- Null is no member of the outermost union, but stands between bars inside of a member. -/
structure HidesNull (t : TypeExpr) : Prop where
  /-- A reader does not find null. -/
  not_admits : ¬ t.AdmitsNull
  /-- Bars inside of a member have null between them. -/
  inside : ∃ member ∈ outermost 0 {} t.text.toList, "null".toList ∈ betweenBars 0 member

variable {t : TypeExpr}

/-- The texts between all bars of a type are those of its members. -/
theorem Formed.betweenBars_text (h : t.Formed) :
    betweenBars 0 t.text.toList = (outermost 0 {} t.text.toList).flatMap (betweenBars 0) := by
  obtain ⟨ps, hne, hps, htext⟩ := h.putTogether
  rw [htext, betweenBars_joined hne hps, outermost_joined hne hps]

/-- A null that is hidden counts as well. -/
theorem Formed.allowsNull_iff (h : t.Formed) :
    t.allowsNull = true ↔ t.AdmitsNull ∨ t.HidesNull := by
  have hnull : betweenBars 0 "null".toList = ["null".toList] := by decide
  -- The test looks for the word between bars anywhere in the text, at all depths.
  have hallows : t.allowsNull = true ↔ t.text = "any" ∨
      ∃ member ∈ outermost 0 {} t.text.toList, "null".toList ∈ betweenBars 0 member := by
    rw [allowsNull, Bool.or_eq_true, beq_iff_eq, List.contains_iff_mem, h.betweenBars_text,
      List.mem_flatMap]
  constructor
  · intro hallowed
    by_cases hadmits : t.AdmitsNull
    · exact .inl hadmits
    · rcases hallows.mp hallowed with hany | hinside
      · exact absurd (.inl hany) hadmits
      · exact .inr ⟨hadmits, hinside⟩
  · rintro ((hany | hmem) | hhides)
    · exact hallows.mpr (.inl hany)
    · exact hallows.mpr (.inr ⟨_, hmem, by rw [hnull]; exact List.mem_singleton_self _⟩)
    · exact hallows.mpr (.inr hhides.inside)

/-- Behind a bar of its own, null is found. -/
theorem Formed.admitsNull_union (h : t.Formed) :
    (TypeExpr.union [t, .basic "null"]).AdmitsNull := by
  obtain ⟨ps, hne, hps, htext⟩ := h.putTogether
  have hword : Whole "null".toList := whole_of_plain (by decide)
  have hunion : (TypeExpr.union [t, .basic "null"]).text.toList
      = Text.joined bar.toList (ps ++ ["null".toList]) := by
    have htexts : (TypeExpr.union [t, .basic "null"]).text = bar.intercalate [t.text, "null"] := rfl
    rw [htexts, Text.toList_intercalate, Text.joined_append _ hne (List.cons_ne_nil _ _), ← htext]
    rfl
  refine .inr ?_
  rw [hunion, outermost_joined (List.append_ne_nil_of_left_ne_nil hne _)
    (List.forall_mem_append.mpr ⟨hps, List.forall_mem_singleton.mpr hword⟩)]
  exact List.mem_append_right _ (List.mem_singleton_self _)

/-- Allowing null has the effect that its name says, except on a type that hides null. -/
theorem Formed.admitsNull_orNull_iff (h : t.Formed) : t.orNull.AdmitsNull ↔ ¬ t.HidesNull := by
  rw [TypeExpr.orNull]
  split
  · rename_i hallows
    rcases h.allowsNull_iff.mp hallows with hadmits | hhides
    · exact ⟨fun _ hhides => hhides.not_admits hadmits, fun _ => hadmits⟩
    · exact ⟨fun hadmits => absurd hadmits hhides.not_admits, fun hnot => absurd hhides hnot⟩
  · rename_i hallows
    exact ⟨fun _ hhides => hallows (h.allowsNull_iff.mpr (.inr hhides)),
      fun _ => h.admitsNull_union⟩

end TypeExpr

namespace Expander

open Expansion Schema

/-- The type of a nullable schema admits null, unless the type found for the schema before null is
added hides one. -/
theorem nullable_admits_null (e : Expander) (left : Nat) (schema : Fields) (place : Place)
    {s t : Session} {typed : Typed} (hnullable : (typeAndNullability schema).2 = true)
    (h : (e.propertyType left (.object schema) place).run s = (.ok typed, t)) :
    ∃ l found, left = l + 1 ∧
      (e.typeStep (fun target place => e.declare l target "" place) (e.propertyType l) schema
        place).run s = (.ok found, t) ∧
      (typed.type.AdmitsNull ↔ ¬ found.type.HidesNull) := by
  cases left with
  | zero =>
    rw [propertyType] at h
    simp at h
  | succ l =>
    rw [propertyType, map_eq_pure_bind, run_bind_eq_ok_iff] at h
    obtain ⟨found, u, hstep, hresult⟩ := h
    obtain ⟨rfl, rfl⟩ : orNullFor schema found = typed ∧ u = t := by simpa using hresult
    -- What the step finds is a printed type, and only for these do the texts decide.
    have hformed : found.type.Formed :=
      (typeStep_formed e (level_formed e l).2
        (fun target place => (level_formed e l).1 target "" (by decide) place)
        schema place s found u hstep).type
    refine ⟨l, found, rfl, hstep, ?_⟩
    rw [orNullFor, if_pos hnullable]
    exact hformed.admitsNull_orNull_iff

/-- A nullable list of the texts and null. -/
def nullableList : Fields :=
  [(.text "type", .list [.text "array", .text "null"]),
    (.text "items", .object [(.text "type", .text "string"), (.text "nullable", .bool true)])]

/-- Null is added to the list besides the null of its items. -/
theorem nullable_admits_null_list :
    ∃ typed t, (typeAndNullability nullableList).2 = true ∧
      ((Expander.mk .null 64).propertyType 65 (.object nullableList)
        { base := "TP", origin := "/properties/p" }).run {} = (.ok typed, t) ∧
      typed.type.text = "(string | null)[] | null" ∧ typed.type.AdmitsNull := by
  have hnullable : (typeAndNullability nullableList).2 = true := rfl
  have hrun : ∃ typed t, ((Expander.mk .null 64).propertyType 65 (.object nullableList)
      { base := "TP", origin := "/properties/p" }).run {} = (.ok typed, t) ∧
      typed.type.text = "(string | null)[] | null" := ⟨_, _, rfl, rfl⟩
  have hlist : ∃ found t, ((Expander.mk .null 64).typeStep
      (fun target place => (Expander.mk .null 64).declare 64 target "" place)
      ((Expander.mk .null 64).propertyType 64) nullableList
      { base := "TP", origin := "/properties/p" }).run {} = (.ok found, t) ∧
      found.type.text = "(string | null)[]" := ⟨_, _, rfl, rfl⟩
  obtain ⟨typed, t, hrun, htext⟩ := hrun
  obtain ⟨list, u, hlist, hlistText⟩ := hlist
  obtain ⟨l, found, hleft, hstep, hadmits⟩ := nullable_admits_null _ 65 _ _ hnullable hrun
  obtain rfl : 64 = l := Nat.succ.inj hleft
  obtain ⟨rfl, rfl⟩ : list = found ∧ u = t := by simpa using hlist.symm.trans hstep
  refine ⟨typed, u, hnullable, hrun, htext, hadmits.mpr fun hhides => ?_⟩
  -- The null in the parentheses has a bar on one side of it only.
  have hinside := hhides.inside
  rw [hlistText] at hinside
  exact absurd hinside (by decide)

/-- A nullable map whose values are texts, null or numbers. -/
def nullableMap : Fields :=
  [(.text "type", .text "object"), (.text "nullable", .bool true),
    (.text "additionalProperties", .object
      [(.text "oneOf", .list
        [.object [(.text "type", .text "string")], .object [(.text "type", .text "null")],
          .object [(.text "type", .text "number")]])])]

/-- The type of the map lets no null in. -/
theorem exists_nullable_without_null :
    ∃ typed t, (typeAndNullability nullableMap).2 = true ∧
      ((Expander.mk .null 64).propertyType 65 (.object nullableMap)
        { base := "TP", origin := "/properties/p" }).run {} = (.ok typed, t) ∧
      typed.type.text = "Record<string, string | null | number>" ∧ ¬ typed.type.AdmitsNull :=
  ⟨_, _, rfl, rfl, rfl, by decide⟩

end Expander

end ClientGen
