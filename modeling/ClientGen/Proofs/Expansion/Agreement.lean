import ClientGen.Proofs.Expansion.Lists

/-!
# Declarations in different sessions

Names that are declared already are skipped, so two sessions can emit different declarations for one
schema. The declaration of the schema itself is the same in both: its types are found from the
document alone.

* `Expansion.Agree`: what two computations return, each in a session of its own, is related.
* `Expander.Emits`: some expansion of a schema at a place ends with a declaration.
* `Expander.level_agree`: the type of a property does not depend on the session, nor on the levels
  that are left.
* `Expander.Emits.unique`: a schema at a place has one declaration only.
* `Expander.resolve_last_unique`: two expansions of a schema end with the same declaration.
-/

namespace ClientGen

namespace Expansion

variable {α α' β β' : Type} {document : Node} {P : α → α' → Prop} {Q : β → β' → Prop}

/-- Whatever the two computations return, each in a session of its own with a faithful memory, is
related. Both memories stay faithful. -/
def Agree (document : Node) (P : α → α' → Prop) (x : Expansion α) (y : Expansion α') : Prop :=
  ∀ s s' t t' a b, s.Faithful document → s'.Faithful document →
    x.run s = (.ok a, t) → y.run s' = (.ok b, t') →
      t.Faithful document ∧ t'.Faithful document ∧ P a b

/-- Related results agree when they are returned. -/
theorem agree_pure {a : α} {b : α'} (h : P a b) : Agree document P (pure a) (pure b) := by
  intro s s' t t' a' b' hs hs' hx hy
  obtain ⟨rfl, rfl⟩ : a = a' ∧ s = t := by simpa using hx
  obtain ⟨rfl, rfl⟩ : b = b' ∧ s' = t' := by simpa using hy
  exact ⟨hs, hs', h⟩

/-- A computation that returns nothing agrees with every one. -/
theorem agree_throw_left (f : Failure) (y : Expansion α') :
    Agree document P (throw f : Expansion α) y := by
  intro s s' t t' a b _ _ hx
  simp at hx

/-- A computation agrees with every one that returns nothing. -/
theorem agree_throw_right (f : Failure) (x : Expansion α) :
    Agree document P x (throw f : Expansion α') := by
  intro s s' t t' a b _ _ _ hy
  simp at hy

/-- Sequences agree if their first parts do, and their second parts for all results that are
related. -/
theorem Agree.bind {x : Expansion α} {y : Expansion α'} {f : α → Expansion β}
    {g : α' → Expansion β'} (hxy : Agree document P x y)
    (hfg : ∀ a b, P a b → Agree document Q (f a) (g b)) :
    Agree document Q (x >>= f) (y >>= g) := by
  intro s s' u u' c c' hs hs' hx hy
  obtain ⟨a, t, hxa, hfa⟩ := run_bind_eq_ok_iff.mp hx
  obtain ⟨b, t', hyb, hgb⟩ := run_bind_eq_ok_iff.mp hy
  obtain ⟨ht, ht', hab⟩ := hxy s s' t t' a b hs hs' hxa hyb
  exact hfg a b hab t t' u u' c c' ht ht' hfa hgb

/-- What looks at schemas finds the same in all sessions. -/
theorem Steady.agree {x : Expansion α} (h : Steady document x) :
    Agree document (fun a b : α => a = b) x x := by
  intro s s' t t' a b hs hs' hx hy
  obtain ⟨houtcome, ht⟩ := h s s' hs hs'
  have ht' := (h s' s hs' hs).2
  rw [hx] at houtcome ht
  rw [hy] at houtcome ht'
  exact ⟨ht, ht', Except.ok.inj houtcome⟩

/-- Computations that lose nothing may return what they want. -/
theorem Grows.agree {x : Expansion α} {y : Expansion α'} (hx : Grows document x)
    (hy : Grows document y) (h : ∀ s t a, s.Faithful document → x.run s = (.ok a, t) →
      ∀ b, P a b) : Agree document P x y := by
  intro s s' t t' a b hs hs' hxa hyb
  have ht := (hx s).faithful hs
  have ht' := (hy s').faithful hs'
  rw [hxa] at ht
  rw [hyb] at ht'
  exact ⟨ht, ht', h s t a hs hxa b⟩

end Expansion

namespace Expander

open Expansion Schema

/-- Some expansion of the schema at the place ends with the declaration, whatever the levels that
are left and whatever the session. -/
def Emits (e : Expander) (schema : Fields) (suffix : String) (place : Place) (d : Declaration) :
    Prop :=
  ∃ left s t needs, s.Faithful e.document ∧
    (e.declare left schema suffix place).run s = (.ok (needs ++ [d]), t)

/-- Each of the declarations is that of some schema at some place. -/
def AllEmitted (e : Expander) (ds : List Declaration) : Prop :=
  ∀ d ∈ ds, ∃ schema suffix place, e.Emits schema suffix place d

/-- The types are the same. What the first one needs are declarations of schemas. -/
structure Alike (e : Expander) (a b : Typed) : Prop where
  /-- The types. -/
  type : a.type = b.type
  /-- What is needed. -/
  needs : e.AllEmitted a.needs

/-- Behind what they need, both lists have the same declaration. -/
def SameLast (e : Expander) (ds ds' : List Declaration) : Prop :=
  ∃ needs needs' d, ds = needs ++ [d] ∧ ds' = needs' ++ [d] ∧ e.AllEmitted needs

variable {e : Expander}

/-- No declarations are emitted declarations. -/
theorem allEmitted_nil : e.AllEmitted [] := fun _ hd => absurd hd List.not_mem_nil

/-- Two lists of emitted declarations make up one. -/
theorem AllEmitted.append {ds ds' : List Declaration} (h : e.AllEmitted ds)
    (h' : e.AllEmitted ds') : e.AllEmitted (ds ++ ds') :=
  fun d hd => (List.mem_append.mp hd).elim (h d) (h' d)

/-- What a step borrows finds the same in all sessions. -/
theorem Borrowed.agree {α : Type} {x : Expansion α} (h : Borrowed e x) :
    Agree e.document (fun a b : α => a = b) x x :=
  ((steady_reading e.document).borrowed rfl h).agree

/-! ## The parts of a step -/

section Parts

variable {typeOf typeOf' : Node → Place → Expansion Typed}
  (ht : ∀ node place, Agree e.document e.Alike (typeOf node place) (typeOf' node place))

include ht

/-- The types of the members of a choice agree, and what they need is emitted. -/
theorem choiceTypes_agree (place : Place) (key : String) (members : List Fields) (i : Nat) :
    Agree e.document (fun r r' => r.1 = r'.1 ∧ e.AllEmitted r.2)
      (choiceTypes typeOf place key members i) (choiceTypes typeOf' place key members i) := by
  induction members generalizing i with
  | nil => exact agree_pure ⟨rfl, allEmitted_nil⟩
  | cons member rest ih =>
    rw [choiceTypes, choiceTypes]
    apply (ht _ _).bind
    intro head head' hhead
    apply (ih (i + 1)).bind
    intro r r' hr
    refine agree_pure ⟨?_, hhead.needs.append hr.2⟩
    show head.type :: r.1 = head'.type :: r'.1
    rw [hhead.type, hr.1]

/-- The types of choices agree. -/
theorem choiceType_agree (place : Place) (schema : Fields) :
    Agree e.document e.Alike (choiceType typeOf place schema)
      (choiceType typeOf' place schema) := by
  apply (choiceTypes_agree ht place _ _ 0).bind
  intro r r' hr
  refine agree_pure ⟨?_, hr.2⟩
  show TypeExpr.union (TypeExpr.distinct r.1) = .union (TypeExpr.distinct r'.1)
  rw [hr.1]

/-- The properties of an interface agree, and what they need is emitted. -/
theorem interfaceProperties_agree (place : Place) (required : List String) (fields : Fields) :
    Agree e.document (fun r r' => r.1 = r'.1 ∧ e.AllEmitted r.2)
      (interfaceProperties typeOf place required fields)
      (interfaceProperties typeOf' place required fields) := by
  induction fields with
  | nil => exact agree_pure ⟨rfl, allEmitted_nil⟩
  | cons field rest ih =>
    obtain ⟨key, schema⟩ := field
    rw [interfaceProperties, interfaceProperties]
    apply (ht _ _).bind
    intro typed typed' htyped
    apply ih.bind
    intro r r' hr
    refine agree_pure ⟨?_, htyped.needs.append hr.2⟩
    -- Name, comment and requirement are read off the field.
    simp only [htyped.type, hr.1]

/-- Two expansions of an interface end with the same declaration. -/
theorem interface_agree (name : String) (comment : DocComment) (place : Place)
    (properties : Fields) (required : List String) :
    Agree e.document e.SameLast (interface typeOf name comment place properties required)
      (interface typeOf' name comment place properties required) := by
  apply (interfaceProperties_agree ht place required properties).bind
  intro r r' hr
  exact agree_pure ⟨r.2, r'.2, _, rfl, by rw [hr.1], hr.2⟩

omit ht in
/-- The interface that allows every key is the same in all sessions. -/
theorem openInterface_agree (r : Request) (place : Place) :
    Agree e.document e.SameLast (pure [openInterface r place]) (pure [openInterface r place]) :=
  agree_pure ⟨[], [], _, rfl, rfl, allEmitted_nil⟩

/-- Two expansions for a request end with the same declaration, whatever the kind of its schema. -/
theorem body_agree (r : Request) (kind : Kind) (place : Place) :
    Agree e.document e.SameLast (e.body typeOf r kind place) (e.body typeOf' r kind place) := by
  unfold body
  dsimp only
  -- Put together from several, a choice, an object, anything else.
  split
  · apply (Borrowed.merge r.schema place.chain).agree.bind
    rintro merged _ rfl
    split
    · exact openInterface_agree r place
    · exact interface_agree ht _ _ _ _ _
  · apply (choiceType_agree ht _ r.schema).bind
    intro typed typed' htyped
    exact agree_pure ⟨typed.needs, typed'.needs, _, rfl, by rw [htyped.type], htyped.needs⟩
  · apply (Borrowed.requiredNames (e := e) r.schema).agree.bind
    rintro required _ rfl
    exact interface_agree ht _ _ _ _ _
  · exact openInterface_agree r place

variable {again again' : Fields → Place → Expansion (List Declaration)}
  (hd : ∀ schema place,
    Agree e.document (fun ds _ => e.AllEmitted ds) (again schema place) (again' schema place))

include hd

/-- One level of typing a schema agrees, if typing and declaring do one level down. -/
theorem typeStep_agree (schema : Fields) (place : Place) :
    Agree e.document e.Alike (e.typeStep again typeOf schema place)
      (e.typeStep again' typeOf' schema place) := by
  unfold typeStep
  -- One goal for each kind, in the order of the definition. Where a schema gets a name of its own,
  -- the type is that name, whatever was declared for it.
  split
  · apply (Borrowed.follow schema place.chain).agree.bind
    rintro found _ rfl
    split
    · apply (Borrowed.warn _).agree.bind
      intro _ _ _
      exact agree_pure ⟨rfl, allEmitted_nil⟩
    · split
      · apply (hd _ _).bind
        intro needs _ hneeds
        exact agree_pure ⟨rfl, hneeds⟩
      · exact ht _ _
  · apply (hd _ _).bind
    intro needs _ hneeds
    exact agree_pure ⟨rfl, hneeds⟩
  · apply (hd _ _).bind
    intro needs _ hneeds
    exact agree_pure ⟨rfl, hneeds⟩
  · exact choiceType_agree ht place schema
  · exact agree_pure ⟨rfl, allEmitted_nil⟩
  · apply (ht _ _).bind
    intro item item' hitem
    exact agree_pure ⟨congrArg TypeExpr.array hitem.type, hitem.needs⟩
  · split
    · apply (ht _ _).bind
      intro value value' hvalue
      exact agree_pure ⟨congrArg TypeExpr.record hvalue.type, hvalue.needs⟩
    · exact agree_pure ⟨rfl, allEmitted_nil⟩
  all_goals
    apply (Borrowed.plainType schema place.origin).agree.bind
    rintro type _ rfl
    exact agree_pure ⟨rfl, allEmitted_nil⟩

end Parts

/-! ## All levels -/

/-- Types that are alike stay alike when null is allowed besides. -/
theorem orNullFor_alike (schema : Fields) {a b : Typed} (h : e.Alike a b) :
    e.Alike (orNullFor schema a) (orNullFor schema b) := by
  unfold orNullFor
  split
  · exact ⟨congrArg TypeExpr.orNull h.type, h.needs⟩
  · exact h

/-- What comes back for a requested name is emitted if it is built for a schema and a place. -/
theorem allEmitted_of_once {r : Request} {suffix : String} {place : Place}
    {x : Expansion (List Declaration)} (hx : Agree e.document e.SameLast x x) {s t : Session}
    {ds : List Declaration} (hs : s.Faithful e.document)
    (hemits : ∀ needs d, ds = needs ++ [d] → e.Emits r.schema suffix place d)
    (h : (once r x).run s = (.ok ds, t)) : e.AllEmitted ds := by
  by_cases hmem : r.name ∈ s.names
  · rw [run_once_of_mem hmem] at h
    obtain ⟨rfl, -⟩ : [] = ds ∧ s = t := by simpa using h
    exact allEmitted_nil
  · rw [run_once_of_not_mem hmem] at h
    -- Claiming the name leaves the memory as it is.
    have hclaimed : Session.Faithful e.document { s with names := s.names ++ [r.name] } := hs
    obtain ⟨-, -, needs, -, d, hds, -, hneeds⟩ := hx _ _ _ _ _ _ hclaimed hclaimed h h
    rw [hds]
    refine hneeds.append fun d' hd' => ?_
    obtain rfl := List.mem_singleton.mp hd'
    exact ⟨_, _, _, hemits needs d' hds⟩

/-- Whatever an expansion emits is the declaration of some schema at some place. -/
theorem allEmitted_of_declare {left : Nat}
    (ht : ∀ node place,
      Agree e.document e.Alike (e.propertyType left node place) (e.propertyType left node place))
    (hd : ∀ schema suffix place s t ds, s.Faithful e.document →
      (e.declare left schema suffix place).run s = (.ok ds, t) → e.AllEmitted ds)
    {schema : Fields} {suffix : String} {place : Place} {s t : Session} {ds : List Declaration}
    (hs : s.Faithful e.document)
    (h : (e.declare (left + 1) schema suffix place).run s = (.ok ds, t)) : e.AllEmitted ds := by
  have hemits : ∀ needs d, ds = needs ++ [d] → e.Emits schema suffix place d :=
    fun needs d hds => ⟨left + 1, s, t, needs, hs, hds ▸ h⟩
  rw [declare, declareStep] at h
  dsimp only at h
  -- References and lists hand over to another schema. All others end with their own declaration.
  split at h
  · obtain ⟨found, u, hfollow, h⟩ := run_bind_eq_ok_iff.mp h
    change (e.follow schema place.chain).run s = _ at hfollow
    have hu := (follows_of_run hs hfollow).1
    split at h
    · exact hd _ _ _ _ _ _ hu h
    · obtain ⟨_, v, hwarn, h⟩ := run_bind_eq_ok_iff.mp h
      obtain ⟨-, rfl⟩ := Prod.mk.inj hwarn
      refine allEmitted_of_once (openInterface_agree _ place) ?_ hemits h
      exact hu
  · exact hd _ _ _ _ _ _ hs h
  · exact allEmitted_of_once (body_agree ht _ _ place) hs hemits h

/-- The type of a property does not depend on the session, nor on the levels that are left. Whatever
is emitted on the way is the declaration of some schema at some place. -/
theorem level_agree (left : Nat) :
    (∀ left' node place,
      Agree e.document e.Alike (e.propertyType left node place) (e.propertyType left' node place)) ∧
    ∀ schema suffix place s t ds, s.Faithful e.document →
      (e.declare left schema suffix place).run s = (.ok ds, t) → e.AllEmitted ds := by
  -- Both at once: a property needs what is declared one level down, and that has properties.
  induction left with
  | zero =>
    constructor
    · intro left' node place
      rw [propertyType]
      exact agree_throw_left _ _
    · intro schema suffix place s t ds _ h
      rw [declare] at h
      simp at h
  | succ left ih =>
    obtain ⟨iht, ihd⟩ := ih
    refine ⟨fun left' node place => ?_, fun schema suffix place s t ds hs h =>
      allEmitted_of_declare (iht left) ihd hs h⟩
    cases left' with
    | zero =>
      rw [propertyType.eq_def e 0]
      exact agree_throw_right _ _
    | succ left' =>
      cases node with
      | object schema =>
        have hdeclared : ∀ target place, Agree e.document (fun ds _ => e.AllEmitted ds)
            (e.declare left target "" place) (e.declare left' target "" place) := by
          intro target place
          apply Grows.agree ((e.grows_level left).1 _ _ _) ((e.grows_level left').1 _ _ _)
          intro s t ds hs h _
          exact ihd _ _ _ _ _ _ hs h
        rw [propertyType, propertyType, map_eq_pure_bind, map_eq_pure_bind]
        apply (typeStep_agree (iht left') hdeclared schema place).bind
        intro typed typed' htyped
        exact agree_pure (orNullFor_alike schema htyped)
      | _ =>
        rw [propertyType, propertyType]
        exact agree_pure ⟨rfl, allEmitted_nil⟩

/-! ## The last declaration -/

/-- If its name is free, the declaration of a request comes last in both sessions, and it is the
same. -/
theorem sameLast_of_once {r : Request} {x y : Expansion (List Declaration)}
    (hxy : Agree e.document e.SameLast x y) {s s' t t' : Session} {ds ds' : List Declaration}
    (hs : s.Faithful e.document) (hs' : s'.Faithful e.document)
    (hfree : r.name ∉ s.names) (hfree' : r.name ∉ s'.names)
    (h : (once r x).run s = (.ok ds, t)) (h' : (once r y).run s' = (.ok ds', t')) :
    e.SameLast ds ds' := by
  rw [run_once_of_not_mem hfree] at h
  rw [run_once_of_not_mem hfree'] at h'
  refine (hxy _ _ _ _ _ _ ?_ ?_ h h').2.2
  · exact hs
  · exact hs'

/-- If its name is free, a schema has the same declaration in every session, whatever the levels
that are left. -/
theorem sameLast_of_declare {left left' : Nat} {schema : Fields} {suffix : String} {place : Place}
    {s s' t t' : Session} {ds ds' : List Declaration}
    (hs : s.Faithful e.document) (hs' : s'.Faithful e.document)
    (hfree : Naming.interfaceName place.base suffix ∉ s.names)
    (hfree' : Naming.interfaceName place.base suffix ∉ s'.names)
    (h : (e.declare left schema suffix place).run s = (.ok ds, t))
    (h' : (e.declare left' schema suffix place).run s' = (.ok ds', t')) : e.SameLast ds ds' := by
  -- The two walks go side by side until the name is claimed. Following references is the same in
  -- both sessions and leaves the name free.
  induction left generalizing left' schema place s s' with
  | zero =>
    rw [declare] at h
    simp at h
  | succ left ih =>
    cases left' with
    | zero =>
      rw [declare] at h'
      simp at h'
    | succ left' =>
      rw [declare, declareStep] at h h'
      dsimp only at h h'
      cases hkind : kind schema with
      | reference =>
        simp only [hkind] at h h'
        obtain ⟨found, u, hfollow, h⟩ := run_bind_eq_ok_iff.mp h
        obtain ⟨found', u', hfollow', h'⟩ := run_bind_eq_ok_iff.mp h'
        change (e.follow schema place.chain).run s = _ at hfollow
        change (e.follow schema place.chain).run s' = _ at hfollow'
        obtain ⟨hu, hu', rfl⟩ :=
          (Borrowed.follow schema place.chain).agree _ _ _ _ _ _ hs hs' hfollow hfollow'
        rw [← e.names_of_follow hfollow] at hfree
        rw [← e.names_of_follow hfollow'] at hfree'
        rcases found with ⟨_ | target, chain⟩
        · obtain ⟨_, v, hwarn, h⟩ := run_bind_eq_ok_iff.mp h
          obtain ⟨_, v', hwarn', h'⟩ := run_bind_eq_ok_iff.mp h'
          obtain ⟨-, rfl⟩ := Prod.mk.inj hwarn
          obtain ⟨-, rfl⟩ := Prod.mk.inj hwarn'
          refine sameLast_of_once (openInterface_agree _ place) ?_ ?_ ?_ ?_ h h'
          · exact hu
          · exact hu'
          · exact hfree
          · exact hfree'
        · refine ih hu hu' ?_ ?_ h h'
          · exact hfree
          · exact hfree'
      | array =>
        simp only [hkind] at h h'
        refine ih hs hs' ?_ ?_ h h'
        · exact hfree
        · exact hfree'
      | _ =>
        simp only [hkind] at h h'
        exact sameLast_of_once (body_agree ((level_agree left).1 left') _ _ place) hs hs' hfree
          hfree' h h'

/-- A schema at a place has one declaration, whatever is declared already when it is expanded. -/
theorem Emits.unique {schema : Fields} {suffix : String} {place : Place} {d d' : Declaration}
    (h : e.Emits schema suffix place d) (h' : e.Emits schema suffix place d') : d = d' := by
  obtain ⟨left, s, t, needs, hs, hrun⟩ := h
  obtain ⟨left', s', t', needs', hs', hrun'⟩ := h'
  -- Since something came back, the name was free.
  have hfree : Naming.interfaceName place.base suffix ∉ s.names := by
    rcases lastFor_of_declare rfl hrun with ⟨-, hnil⟩ | ⟨hfree, -⟩
    · simp at hnil
    · exact hfree
  have hfree' : Naming.interfaceName place.base suffix ∉ s'.names := by
    rcases lastFor_of_declare rfl hrun' with ⟨-, hnil⟩ | ⟨hfree, -⟩
    · simp at hnil
    · exact hfree
  obtain ⟨_, _, last, hds, hds', -⟩ := sameLast_of_declare hs hs' hfree hfree' hrun hrun'
  obtain ⟨-, hd⟩ := List.append_inj' hds rfl
  obtain ⟨-, hd'⟩ := List.append_inj' hds' rfl
  exact (List.singleton_inj.mp hd).trans (List.singleton_inj.mp hd').symm

/-- Two expansions of a node under a name that is free end with the same declaration, whatever is
declared already and whatever is remembered of pointers. What is declared already decides only which
declarations come before: each of them is the one declaration of some schema at some place. -/
theorem resolve_last_unique {node : Node} {base suffix origin : String} {s s' t t' : Session}
    {ds ds' : List Declaration} (hs : s.Faithful e.document) (hs' : s'.Faithful e.document)
    (hfree : Naming.interfaceName base suffix ∉ s.names)
    (hfree' : Naming.interfaceName base suffix ∉ s'.names)
    (h : (e.resolve node base suffix origin).run s = (.ok ds, t))
    (h' : (e.resolve node base suffix origin).run s' = (.ok ds', t')) :
    (∃ needs needs' d, ds = needs ++ [d] ∧ ds' = needs' ++ [d] ∧
        d.name = Naming.interfaceName base suffix) ∧
      ∀ d ∈ ds ++ ds', ∃ schema suffix place, e.Emits schema suffix place d ∧
        ∀ d', e.Emits schema suffix place d' → d' = d := by
  by_cases hnode : ∃ schema, node = .object schema
  · obtain ⟨schema, rfl⟩ := hnode
    obtain ⟨_, last, hlast, hname⟩ :=
      ((lastFor_of_resolve h).2.resolve_left fun hmem => hfree hmem.1).2
    rw [resolve] at h h'
    refine ⟨?_, fun d hd => ?_⟩
    · have hsame : e.SameLast ds ds' := by
        refine sameLast_of_declare hs hs' ?_ ?_ h h'
        · exact hfree
        · exact hfree'
      obtain ⟨needs, needs', d, rfl, rfl, -⟩ := hsame
      obtain ⟨-, hd⟩ := List.append_inj' hlast rfl
      obtain rfl := List.singleton_inj.mp hd
      exact ⟨needs, needs', d, rfl, rfl, hname⟩
    · have hemitted := ((level_agree e.levels).2 _ _ _ _ _ _ hs h).append
        ((level_agree e.levels).2 _ _ _ _ _ _ hs' h')
      obtain ⟨schema, suffix, place, hd⟩ := hemitted d hd
      exact ⟨schema, suffix, place, hd, fun d' hd' => hd'.unique hd⟩
  · -- A node that is no schema fails unless its name is taken.
    exact absurd (eq_of_resolve_of_not_object (not_exists.mp hnode) h).1 hfree

/-- The session after another call, which remembers a pointer and has declared one name. -/
def secondDeclared : Session where
  known := [("#/B", withProperties [(.text "a", pointing "#/A")])]
  names := ["IB"]

/-- The pointer that this session remembers is the one of the document. -/
theorem faithful_secondDeclared : secondDeclared.Faithful mutualDocument := by
  intro pointer target h
  have hpointer : pointer = "#/B" := by
    by_contra hne
    simp [secondDeclared, List.lookup_cons, beq_false_of_ne hne] at h
  subst hpointer
  obtain rfl : withProperties [(.text "a", pointing "#/A")] = target := by
    simpa [secondDeclared] using h
  rfl

/-- Of two schemas that refer to each other, the one that is declared already is not declared again.
The declaration of the other one is the same. -/
theorem resolve_last_unique_mutual :
    ∃ ds ds' t t', ({} : Session).Faithful mutualDocument ∧
      secondDeclared.Faithful mutualDocument ∧
      Naming.interfaceName "A" "" ∉ ({} : Session).names ∧
      Naming.interfaceName "A" "" ∉ secondDeclared.names ∧
      ((Expander.mk mutualDocument 64).resolve (pointing "#/A") "A" "" "").run {} = (.ok ds, t) ∧
      ((Expander.mk mutualDocument 64).resolve (pointing "#/A") "A" "" "").run secondDeclared
        = (.ok ds', t') ∧
      ds.map Declaration.name = ["IB", "IA"] ∧ ds'.map Declaration.name = ["IA"] ∧
      (∃ needs needs' d, ds = needs ++ [d] ∧ ds' = needs' ++ [d] ∧
        d.name = Naming.interfaceName "A" "") ∧
      ∀ d ∈ ds ++ ds', ∃ schema suffix place,
        (Expander.mk mutualDocument 64).Emits schema suffix place d ∧
          ∀ d', (Expander.mk mutualDocument 64).Emits schema suffix place d' → d' = d := by
  -- Both sessions run to their end by evaluation; the uniqueness is the theorem's.
  have hfree : Naming.interfaceName "A" "" ∉ ({} : Session).names := List.not_mem_nil
  have hfree' : Naming.interfaceName "A" "" ∉ secondDeclared.names := by decide +kernel
  have h : ∃ ds t,
      ((Expander.mk mutualDocument 64).resolve (pointing "#/A") "A" "" "").run {} = (.ok ds, t) ∧
      ds.map Declaration.name = ["IB", "IA"] :=
    ⟨_, _, rfl, by decide +kernel⟩
  have h' : ∃ ds t,
      ((Expander.mk mutualDocument 64).resolve (pointing "#/A") "A" "" "").run secondDeclared
        = (.ok ds, t) ∧
      ds.map Declaration.name = ["IA"] :=
    ⟨_, _, rfl, by decide +kernel⟩
  obtain ⟨ds, t, hrun, hnames⟩ := h
  obtain ⟨ds', t', hrun', hnames'⟩ := h'
  have hs := Session.faithful_empty mutualDocument
  exact ⟨ds, ds', t, t', hs, faithful_secondDeclared, hfree, hfree', hrun, hrun', hnames, hnames',
    resolve_last_unique hs faithful_secondDeclared hfree hfree' hrun hrun'⟩

end Expander

end ClientGen
