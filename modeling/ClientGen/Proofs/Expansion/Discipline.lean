import ClientGen.Proofs.Expansion.Course

/-!
# Expansions take courses

Every expansion that returns takes a `Course`, and its record tells which. A declaration on the
course is what the schema that the name was asked for is expanded to.

* `Recorded.Yields`: what a recorded expansion does when it returns.
* `Expander.Builds`: which declarations answer a request.
* `Expander.level_yields`: declaring a schema takes a course, and so does typing one; a type uses
  only names that were asked for.
* `Expander.course_of_resolve`: so does an expansion as the rest of the library calls it.
-/

namespace ClientGen

namespace Recorded

variable {α β : Type}

/-- When the expansion returns, in a session that comes after `start`, so does the session
afterwards, and the names before, the events that are added to the record, the result and the names
afterwards are related. -/
def Yields (document : Node) (start : Session) (x : Recorded α)
    (Q : List String → List Event → α → List String → Prop) : Prop :=
  ∀ log s a log' t, start.Precedes document s → x.run log s = (.ok (a, log'), t) →
    start.Precedes document t ∧ ∃ events, log' = log ++ events ∧ Q s.names events a t.names

variable {document : Node} {start : Session}
  {P Q : List String → List Event → α → List String → Prop}
  {S : List String → List Event → β → List String → Prop}

/-- What follows from what an expansion does holds as well. -/
theorem Yields.mono {x : Recorded α} (hx : Yields document start x P)
    (h : ∀ names events a names', P names events a names' → Q names events a names') :
    Yields document start x Q := by
  intro log s a log' t hs hr
  obtain ⟨ht, events, hlog, hp⟩ := hx log s a log' t hs hr
  exact ⟨ht, events, hlog, h _ _ _ _ hp⟩

/-- What an expansion does may rest on something that is known of all its results. -/
theorem Yields.of_result {x : Recorded α} {R : α → Prop}
    (hx : Yields document start x fun names events a names' => R a → Q names events a names')
    (hR : ∀ log s a log' t, start.Precedes document s → x.run log s = (.ok (a, log'), t) → R a) :
    Yields document start x Q := by
  intro log s a log' t hs hr
  obtain ⟨ht, events, hlog, hp⟩ := hx log s a log' t hs hr
  exact ⟨ht, events, hlog, hp (hR log s a log' t hs hr)⟩

/-- A computation that only returns adds no event. -/
theorem yields_pure {a : α} (h : ∀ names, Q names [] a names) :
    Yields document start (pure a) Q := by
  intro log s b log' t hs hr
  simp only [run_pure, Prod.mk.injEq, Except.ok.injEq] at hr
  obtain ⟨⟨rfl, rfl⟩, rfl⟩ := hr
  exact ⟨hs, [], by simp, h _⟩

/-- A sequence: what the second part does is told together with what the first part did. -/
theorem Yields.bind {x : Recorded α} {f : α → Recorded β} (hx : Yields document start x P)
    (hf : ∀ a, Yields document start (f a) fun mid events' b names' =>
      ∀ names events, P names events a mid → S names (events ++ events') b names') :
    Yields document start (x >>= f) S := by
  intro log s b log' t hs hr
  obtain ⟨a, mid, u, hxr, hfr⟩ := run_bind_eq_ok_iff.mp hr
  obtain ⟨hu, events, rfl, hp⟩ := hx log s a mid u hs hxr
  obtain ⟨ht, events', rfl, hafter⟩ := hf a _ u b log' t hu hfr
  exact ⟨ht, events ++ events', by simp, hafter _ _ hp⟩

/-- A result that is only changed afterwards. -/
theorem Yields.then_pure {x : Recorded α} {f : α → β} (hx : Yields document start x P)
    (h : ∀ names events a names', P names events a names' → S names events (f a) names') :
    Yields document start (x >>= fun a => pure (f a)) S :=
  hx.bind fun a => yields_pure fun mid names events hp => by
    rw [List.append_nil]
    exact h names events a mid hp

/-- What is borrowed leaves the names and the record as they are. -/
theorem Yields.borrow_bind {e : Expander} {x : Expansion α} {f : α → Recorded β}
    (hx : Expander.Borrowed e x) (hf : ∀ a, Yields e.document start (f a) S) :
    Yields e.document start ((liftM x : Recorded α) >>= f) S := by
  intro log s b log' t hs hr
  obtain ⟨a, mid, u, hxr, hfr⟩ := run_bind_eq_ok_iff.mp hr
  obtain ⟨hxs, rfl⟩ := run_liftM_eq_ok_iff.mp hxr
  obtain ⟨hnames, hquiet⟩ := hx.quiet s
  rw [hxs] at hnames hquiet
  have hq := hf a mid u b log' t (hs.trans hquiet) hfr
  rwa [hnames] at hq

/-- A computation that always fails does whatever is asked of those that return. -/
theorem yields_throw (f : Failure) :
    Yields document start (liftM (throw f : Expansion α) : Recorded α) Q := by
  intro log s a log' t _ hr
  simp [run_liftM_eq_ok_iff] at hr

end Recorded

/-- What can be told of the declaration of a request without expanding anything: its name, its
comment, and which properties it has. Types are left open. -/
structure Declaration.Answers (d : Declaration) (r : Request) : Prop where
  /-- The name is the requested one. -/
  name : d.name = r.name
  /-- The comment is that of the schema. -/
  comment : d.comment = .ofSchema r.schema
  /-- The properties are those of the schema, if it is an object with properties. -/
  properties : Schema.kind r.schema = .object → ∃ ps, d.body = .properties ps ∧
    ps.map Property.name = (Schema.fieldsUnder r.schema "properties").map fun f => f.1.label

namespace Expander

open Recorded

/-- The declaration is what the schema of the request is expanded to under the requested name, types
and all: it comes last when the schema is declared at some place, in a session after `start`. -/
structure Builds (e : Expander) (start : Session) (d : Declaration) (r : Request) : Prop where
  /-- What can be told without expanding anything. -/
  answers : d.Answers r
  /-- The expansion that ends with the declaration. -/
  run : ∃ left suffix place s t needs, Naming.interfaceName place.base suffix = r.name ∧
    start.Precedes e.document s ∧
      (e.declare left r.schema suffix place).run s = (.ok (needs ++ [d]), t)

/-- What a type needs comes back by a course, and the type uses names that were asked for. -/
structure TypedBy (B : Declaration → Request → Prop) (names : List String) (events : List Event)
    (t : Typed) (names' : List String) : Prop where
  /-- The course. -/
  course : Course B names events t.needs names'
  /-- The names are asked for. -/
  typing : ∀ n ∈ t.type.names, Typing events n

section Parts

variable {e : Expander} {start : Session} {B : Declaration → Request → Prop}
  {typeOf : Node → Place → Recorded Typed}
  (ht : ∀ node place, Yields e.document start (typeOf node place) (TypedBy B))

include ht

/-- Typing the members of a choice takes a course, and their types use names that were asked for. -/
theorem choiceTypes_yields (place : Place) (key : String) (members : List Fields) (i : Nat) :
    Yields e.document start (choiceTypes typeOf place key members i) fun names events r names' =>
      Course B names events r.2 names' ∧ ∀ n ∈ TypeExpr.namesOf r.1, Typing events n := by
  induction members generalizing i with
  | nil => exact yields_pure fun names => ⟨.still names, by simp [TypeExpr.namesOf]⟩
  | cons member rest ih =>
    rw [choiceTypes]
    refine (ht _ _).bind fun head => (ih (i + 1)).then_pure ?_
    rintro mid events' ⟨types, needs⟩ names' ⟨hc, hn⟩ names events hhead
    refine ⟨hhead.course.append hc, fun n hmem => ?_⟩
    rcases List.mem_append.mp hmem with hmem | hmem
    · exact (hhead.typing n hmem).append_left
    · exact (hn n hmem).append_right

/-- Typing a choice takes a course, and its type uses names that were asked for. -/
theorem choiceType_yields (place : Place) (schema : Fields) :
    Yields e.document start (choiceType typeOf place schema) (TypedBy B) := by
  refine (choiceTypes_yields ht place _ _ 0).then_pure ?_
  rintro names events ⟨types, needs⟩ names' ⟨hc, hn⟩
  refine ⟨hc, fun n hmem => hn n ?_⟩
  obtain ⟨t, htd, hnt⟩ := TypeExpr.mem_namesOf.mp hmem
  exact TypeExpr.mem_namesOf.mpr ⟨t, TypeExpr.mem_of_mem_distinct htd, hnt⟩

/-- Typing properties takes a course; their types use names that were asked for, and they keep the
labels of the fields. -/
theorem interfaceProperties_yields (place : Place) (required : List String) (fields : Fields) :
    Yields e.document start (interfaceProperties typeOf place required fields)
      fun names events r names' =>
        Course B names events r.2 names' ∧ (∀ p ∈ r.1, ∀ n ∈ p.type.names, Typing events n) ∧
          r.1.map Property.name = fields.map fun f => f.1.label := by
  induction fields with
  | nil => exact yields_pure fun names => ⟨.still names, by simp, rfl⟩
  | cons field rest ih =>
    obtain ⟨key, schema⟩ := field
    rw [interfaceProperties]
    refine (ht _ _).bind fun head => ih.then_pure ?_
    rintro mid events' ⟨properties, needs⟩ names' ⟨hc, hn, hnames⟩ names events hhead
    refine ⟨hhead.course.append hc, fun p hp n hmem => ?_, congrArg (key.label :: ·) hnames⟩
    rcases List.mem_cons.mp hp with rfl | hp
    · exact (hhead.typing n hmem).append_left
    · exact (hn p hp n hmem).append_right

/-- The declaration of a request comes last, after what it needs, and uses names that were asked
for. -/
def Built (B : Declaration → Request → Prop) (r : Request) (names : List String)
    (events : List Event) (ds : List Declaration) (names' : List String) : Prop :=
  ∃ needs d, ds = needs ++ [d] ∧ d.Answers r ∧ Course B names events needs names' ∧
    ∀ n ∈ d.uses, Typing events n

/-- Declaring an interface for a request ends with the declaration of the request. -/
theorem interface_yields (r : Request) (place : Place) (properties : Fields)
    (required : List String)
    (hkind : Schema.kind r.schema = .object →
      properties = Schema.fieldsUnder r.schema "properties") :
    Yields e.document start (interface typeOf r.name (.ofSchema r.schema) place properties required)
      (Built B r) := by
  refine (interfaceProperties_yields ht place required properties).then_pure ?_
  rintro names events ⟨ps, needs⟩ names' ⟨hc, hn, hnames⟩
  refine ⟨needs, _, rfl, ⟨rfl, rfl, fun h => ⟨ps, rfl, ?_⟩⟩, hc, fun n hmem => ?_⟩
  · rw [hnames, hkind h]
  obtain ⟨p, hp, hmem⟩ := List.mem_flatMap.mp hmem
  exact hn p hp n hmem

omit ht in
/-- The interface that allows every key is the declaration of a request, unless its schema is an
object. -/
theorem openInterface_yields (r : Request) (place : Place)
    (hkind : Schema.kind r.schema ≠ .object) :
    Yields e.document start (pure [openInterface r place]) (Built B r) :=
  yields_pure fun names => ⟨[], _, rfl, ⟨rfl, rfl, fun h => absurd h hkind⟩, .still names,
    by simp [openInterface, Declaration.uses]⟩

/-- Finding the declaration of a request ends with it, whatever the kind of its schema. -/
theorem body_yields (r : Request) {kind : Schema.Kind} (hkind : Schema.kind r.schema = kind)
    (place : Place) : Yields e.document start (e.body typeOf r kind place) (Built B r) := by
  unfold body
  dsimp only
  split
  · refine Yields.borrow_bind (.merge r.schema place.chain) fun merged => ?_
    split
    · exact openInterface_yields r place (by simp [hkind])
    · exact interface_yields ht r place _ _ (by simp [hkind])
  · refine (choiceType_yields ht _ r.schema).then_pure ?_
    intro names events t names' h
    exact ⟨t.needs, _, rfl, ⟨rfl, rfl, by simp [hkind]⟩, h.course, h.typing⟩
  · refine Yields.borrow_bind (e := e) (.requiredNames r.schema) fun _ => ?_
    exact interface_yields ht r place _ _ fun _ => rfl
  · exact openInterface_yields r place (by simp_all)

/-- If the declarations end with one of the request, it is one that may answer it. -/
def Admitted (B : Declaration → Request → Prop) (r : Request) (ds : List Declaration) : Prop :=
  ∀ needs d, ds = needs ++ [d] → d.Answers r → B d r

omit ht in
/-- A request is granted or finds its name taken. -/
theorem onceRecorded_yields (r : Request) {x : Recorded (List Declaration)}
    (hx : Yields e.document start x (Built B r)) :
    Yields e.document start (onceRecorded r x) fun names events ds names' =>
      Admitted B r ds → Course B names events ds names' ∧ .asked r ∈ events := by
  intro log s ds log' t hs hr
  obtain ⟨_, log₁, s₁, hnote, hr⟩ := run_bind_eq_ok_iff.mp hr
  simp only [run_note, Prod.mk.injEq, Except.ok.injEq, true_and] at hnote
  obtain ⟨rfl, rfl⟩ := hnote
  obtain ⟨fresh, log₂, s₂, hclaim, hr⟩ := run_bind_eq_ok_iff.mp hr
  obtain ⟨hclaimed, rfl⟩ := run_liftM_eq_ok_iff.mp hclaim
  by_cases hmem : r.name ∈ s.names
  · -- The name is taken: nothing comes back, and the request is all that is recorded.
    rw [Expansion.run_claim_of_mem hmem] at hclaimed
    obtain ⟨rfl, rfl⟩ : false = fresh ∧ s = s₂ := by simpa using hclaimed
    simp only [Bool.false_eq_true, if_false, run_pure, Prod.mk.injEq, Except.ok.injEq] at hr
    obtain ⟨⟨rfl, rfl⟩, rfl⟩ := hr
    exact ⟨hs, _, rfl, fun _ => ⟨.taken r hmem, by simp⟩⟩
  · -- The name is free: what is declared inside the schema finds it claimed.
    rw [Expansion.run_claim_of_not_mem hmem] at hclaimed
    simp only [Prod.mk.injEq, Except.ok.injEq] at hclaimed
    obtain ⟨rfl, rfl⟩ := hclaimed
    simp only [if_true] at hr
    obtain ⟨ds₁, log₃, s₃, hbody, hr⟩ := run_bind_eq_ok_iff.mp hr
    have hclaimed : start.Precedes e.document { s with names := s.names ++ [r.name] } :=
      hs.trans ⟨List.prefix_append _ _, id⟩
    obtain ⟨ht, events, rfl, needs, d, rfl, hanswers, hc, huses⟩ := hx _ _ _ _ _ hclaimed hbody
    obtain ⟨_, log₄, s₄, hnote, hr⟩ := run_bind_eq_ok_iff.mp hr
    simp only [run_note, run_pure, Prod.mk.injEq, Except.ok.injEq, true_and] at hnote hr
    obtain ⟨rfl, rfl⟩ := hnote
    obtain ⟨⟨rfl, rfl⟩, rfl⟩ := hr
    refine ⟨ht, .asked r :: events ++ [.declared r], by simp, fun hadmitted => ⟨?_, by simp⟩⟩
    exact .granted r d hmem hanswers.name (hadmitted needs d rfl hanswers) huses hc

omit ht in
/-- Enumerated values use no names. -/
theorem names_valuesType (schema : Fields) : (valuesType schema).names = [] := by
  refine List.eq_nil_iff_forall_not_mem.mpr fun n hn => ?_
  obtain ⟨t, ht, hnt⟩ := TypeExpr.mem_namesOf.mp hn
  obtain ⟨v, -, rfl⟩ := List.mem_map.mp (TypeExpr.mem_of_mem_distinct ht)
  simp [TypeExpr.names] at hnt

omit ht in
/-- A type that needs no declaration uses no names. -/
theorem names_plainType {schema : Fields} {origin : String} {s t : Session} {type : TypeExpr}
    (h : (plainType schema origin).run s = (.ok type, t)) : type.names = [] := by
  unfold plainType at h
  split at h
  · split at h
    · obtain ⟨rfl, -⟩ : _ = type ∧ s = t := by simpa using h
      rfl
    · split at h
      · obtain ⟨rfl, -⟩ : _ = type ∧ s = t := by simpa using h
        rfl
      · obtain ⟨_, u, -, hp⟩ := Expansion.run_bind_eq_ok_iff.mp h
        obtain ⟨rfl, -⟩ : _ = type ∧ u = t := by simpa using hp
        rfl
  · obtain ⟨rfl, -⟩ : _ = type ∧ s = t := by simpa using h
    rfl

omit ht in
/-- Typing a schema that needs no declaration takes the course on which nothing happens. -/
theorem plainType_yields (schema : Fields) (origin : String) :
    Yields e.document start
      (liftM (plainType schema origin) >>= fun type => pure { type : Typed }) (TypedBy B) := by
  intro log s typed log' t hs hr
  obtain ⟨type, mid, u, hx, hp⟩ := run_bind_eq_ok_iff.mp hr
  obtain ⟨hxs, rfl⟩ := run_liftM_eq_ok_iff.mp hx
  simp only [run_pure, Prod.mk.injEq, Except.ok.injEq] at hp
  obtain ⟨⟨rfl, rfl⟩, rfl⟩ := hp
  have hquiet := (Expansion.quiet_reading e.document).plainType schema origin
  obtain ⟨hnames, hafter⟩ := hquiet s
  rw [hxs] at hnames hafter
  refine ⟨hs.trans hafter, [], by simp, ?_, by simp [names_plainType hxs]⟩
  rw [hnames]
  exact .still s.names

variable {again : Fields → Place → Recorded (List Declaration)}

/-- Declaring a schema takes a course, if a declaration that comes last may answer a request for the
schema. A schema that gets a declaration of its own is asked for. -/
theorem declareStep_yields
    (hd : ∀ target place, Yields e.document start (again target place) (Course B))
    (schema : Fields) (suffix : String) (place : Place) :
    Yields e.document start (e.declareStep onceRecorded again typeOf schema suffix place)
      fun names events ds names' =>
        Admitted B { name := Naming.interfaceName place.base suffix, schema } ds →
          Course B names events ds names' ∧ ((Schema.kind schema).isStructural →
            .asked { name := Naming.interfaceName place.base suffix, schema } ∈ events) := by
  unfold declareStep
  dsimp only
  split
  · -- A reference is declared by its target, under the same name, or left open.
    rename_i hkind
    refine Yields.borrow_bind (.follow schema place.chain) fun found => ?_
    split
    · exact (hd _ _).mono fun _ _ _ _ hc _ =>
        ⟨hc, by simp [hkind, Schema.Kind.isStructural]⟩
    · refine Yields.borrow_bind (e := e) (.warn _) fun _ => ?_
      have hopen : ∀ r : Request, r.schema = schema →
          Yields e.document start (pure [openInterface r place]) (Built B r) :=
        fun r hr => openInterface_yields r place (by simp [hr, hkind])
      exact (onceRecorded_yields _ (hopen _ rfl)).mono fun _ _ _ _ h hadmitted =>
        ⟨(h hadmitted).1, fun _ => (h hadmitted).2⟩
  · -- A list is declared by its items, under the same name too.
    rename_i hkind
    exact (hd _ _).mono fun _ _ _ _ hc _ => ⟨hc, by simp [hkind, Schema.Kind.isStructural]⟩
  · exact (onceRecorded_yields _ (body_yields ht _ rfl place)).mono fun _ _ _ _ h hadmitted =>
      ⟨(h hadmitted).1, fun _ => (h hadmitted).2⟩

/-- Typing a schema takes a course, and the type uses names that were asked for. -/
theorem typeStep_yields
    (hd : ∀ schema place, (Schema.kind schema).isStructural →
      Yields e.document start (again schema place) fun names events ds names' =>
        Course B names events ds names' ∧ Typing events (Naming.interfaceName place.base ""))
    (schema : Fields) (place : Place) :
    Yields e.document start (e.typeStep again typeOf schema place) (TypedBy B) := by
  have hnamed : ∀ target place, (Schema.kind target).isStructural →
      Yields e.document start (again target place >>= fun needs =>
        pure { type := .named (Naming.interfaceName place.base ""), needs : Typed })
        (TypedBy B) := by
    intro target place hkind
    refine (hd target place hkind).then_pure fun names events ds names' h => ⟨h.1, fun n hn => ?_⟩
    obtain rfl : n = Naming.interfaceName place.base "" := by simpa [TypeExpr.names] using hn
    exact h.2
  have hplain : ∀ type : TypeExpr, type.names = [] →
      Yields e.document start (pure { type : Typed }) (TypedBy B) := by
    intro type hnames
    exact yields_pure fun names => ⟨.still names, by simp [hnames]⟩
  -- Names come from structural schemas only, here or behind a reference.
  unfold typeStep
  split
  · refine Yields.borrow_bind (.follow schema place.chain) fun found => ?_
    split
    · exact Yields.borrow_bind (e := e) (.warn _) fun _ => hplain .any rfl
    · split
      · rename_i hkind
        exact hnamed _ _ hkind
      · exact ht _ _
  · rename_i hkind
    exact hnamed schema place (by simp [hkind, Schema.Kind.isStructural])
  · rename_i hkind
    exact hnamed schema place (by simp [hkind, Schema.Kind.isStructural])
  · exact choiceType_yields ht place schema
  · exact hplain _ (names_valuesType schema)
  · refine (ht _ _).then_pure fun names events t names' h => ⟨h.course, h.typing⟩
  · split
    · refine (ht _ _).then_pure fun names events t names' h => ⟨h.course, h.typing⟩
    · exact hplain _ rfl
  · exact plainType_yields schema place.origin
  · exact plainType_yields schema place.origin

end Parts

variable (e : Expander) {start : Session} {B : Declaration → Request → Prop}

/-- A type that takes a course still does when null is allowed besides. -/
theorem orNullFor_typedBy {schema : Fields} {names names' : List String} {events : List Event}
    {t : Typed} (h : TypedBy B names events t names') :
    TypedBy B names events (orNullFor schema t) names' := by
  unfold orNullFor
  split
  · exact ⟨h.course, by simpa using h.typing⟩
  · exact h

/-- A declared schema that a type names is recorded as the reason of the type. -/
theorem namedRecorded_yields {again : Fields → Place → Recorded (List Declaration)}
    {schema : Fields} {place : Place}
    (h : Yields e.document start (again schema place) fun names events ds names' =>
      Course B names events ds names' ∧
        .asked { name := Naming.interfaceName place.base "", schema } ∈ events) :
    Yields e.document start (namedRecorded again schema place) fun names events ds names' =>
      Course B names events ds names' ∧ Typing events (Naming.interfaceName place.base "") := by
  intro log s ds log' t hs hr
  obtain ⟨ds', mid, u, hx, hr⟩ := run_bind_eq_ok_iff.mp hr
  obtain ⟨hu, events, rfl, hc, hasked⟩ := h log s ds' mid u hs hx
  obtain ⟨_, log₁, s₁, hnote, hr⟩ := run_bind_eq_ok_iff.mp hr
  simp only [run_note, run_pure, Prod.mk.injEq, Except.ok.injEq, true_and] at hnote hr
  obtain ⟨rfl, rfl⟩ := hnote
  obtain ⟨⟨rfl, rfl⟩, rfl⟩ := hr
  refine ⟨hu, _, List.append_assoc _ _ _, hc.typed _ hasked,
    { name := Naming.interfaceName place.base "", schema }, ?_, rfl⟩
  exact List.mem_append_right _ (List.mem_singleton_self _)

/-- What comes last when a schema is declared answers a request for the schema. -/
theorem admitted_of_run {left : Nat} {schema : Fields} {suffix : String} {place : Place}
    {s t : Session} {ds : List Declaration} (hs : start.Precedes e.document s)
    (h : (e.declare left schema suffix place).run s = (.ok ds, t)) :
    Admitted (e.Builds start) { name := Naming.interfaceName place.base suffix, schema } ds := by
  rintro needs d rfl hanswers
  exact ⟨hanswers, left, suffix, place, s, t, needs, rfl, hs, h⟩

/-- At every level, declaring a schema takes a course, and so does typing one. -/
theorem level_yields (start : Session) (left : Nat) :
    (∀ schema suffix place, Yields e.document start (e.declareRecorded left schema suffix place)
      fun names events ds names' => Course (e.Builds start) names events ds names' ∧
        ((Schema.kind schema).isStructural →
          .asked { name := Naming.interfaceName place.base suffix, schema } ∈ events)) ∧
      ∀ node place, Yields e.document start (e.propertyTypeRecorded left node place)
        (TypedBy (e.Builds start)) := by
  -- With no level left nothing returns; otherwise each function relies on both one level down.
  induction left with
  | zero =>
    refine ⟨fun schema suffix place => ?_, fun node place => ?_⟩
    · rw [declareRecorded]
      exact yields_throw _
    · rw [propertyTypeRecorded]
      exact yields_throw _
  | succ left ih =>
    obtain ⟨ihd, iht⟩ := ih
    refine ⟨fun schema suffix place => ?_, fun node place => ?_⟩
    · -- Whatever the step ends with, the expansion without its record ends with as well.
      have hadmitted : ∀ log s ds log' t, start.Precedes e.document s →
          (e.declareRecorded (left + 1) schema suffix place).run log s = (.ok (ds, log'), t) →
          Admitted (e.Builds start)
            { name := Naming.interfaceName place.base suffix, schema } ds :=
        fun log s ds log' t hs hr =>
          e.admitted_of_run hs (((erases_level e (left + 1)).1 schema suffix place).run_eq_ok hr)
      refine Yields.of_result ?_ hadmitted
      rw [declareRecorded]
      exact declareStep_yields iht (fun _ _ => (ihd _ _ _).mono fun _ _ _ _ h => h.1) _ _ _
    · cases node with
      | object schema =>
        rw [propertyTypeRecorded, map_eq_pure_bind]
        refine (typeStep_yields iht (fun target place hkind => ?_) schema place).then_pure
          fun _ _ _ _ h => orNullFor_typedBy h
        exact namedRecorded_yields e
          ((ihd target "" place).mono fun _ _ _ _ h => ⟨h.1, h.2 hkind⟩)
      | _ =>
        rw [propertyTypeRecorded]
        exact yields_pure fun names => ⟨.still names, by simp [TypeExpr.names]⟩

/-- A node that is no object returns only if its name is taken. -/
theorem resolve_of_not_object {node : Node} {base suffix origin : String} {s t : Session}
    {ds : List Declaration} (hnode : ∀ schema, node ≠ .object schema)
    (h : (e.resolve node base suffix origin).run s = (.ok ds, t)) : ds = [] ∧ t = s := by
  unfold resolve at h
  split at h
  · exact absurd rfl (hnode _)
  · split at h
    · simp at h
    · obtain ⟨fresh, u, hclaim, h⟩ := Expansion.run_bind_eq_ok_iff.mp h
      -- Only where the name is taken does such a call return.
      by_cases hmem : Naming.interfaceName base suffix ∈ s.names
      · rw [Expansion.run_claim_of_mem hmem] at hclaim
        obtain ⟨rfl, rfl⟩ : false = fresh ∧ s = u := by simpa using hclaim
        obtain ⟨rfl, rfl⟩ : [] = ds ∧ s = t := by simpa using h
        exact ⟨rfl, rfl⟩
      · rw [Expansion.run_claim_of_not_mem hmem] at hclaim
        simp only [Prod.mk.injEq, Except.ok.injEq] at hclaim
        obtain ⟨rfl, rfl⟩ := hclaim
        simp at h

/-- An expansion takes a course, and its record is that of the course. -/
theorem resolveRecorded_yields (start : Session) (node : Node) (base suffix origin : String) :
    Yields e.document start (e.resolveRecorded node base suffix origin)
      (Course (e.Builds start)) := by
  have hplain : (∀ schema, node ≠ .object schema) →
      Yields e.document start (liftM (e.resolve node base suffix origin))
        (Course (e.Builds start)) := by
    intro hnode log s ds log' t hs h
    obtain ⟨hr, rfl⟩ := run_liftM_eq_ok_iff.mp h
    obtain ⟨rfl, rfl⟩ := e.resolve_of_not_object hnode hr
    exact ⟨hs, [], by simp, .still _⟩
  cases node with
  | object schema => exact ((level_yields e start e.levels).1 _ _ _).mono fun _ _ _ _ h => h.1
  | _ => exact hplain (by simp)

/-- An expansion that returns takes a course. -/
theorem course_of_resolve {node : Node} {base suffix origin : String} {s t : Session}
    {ds : List Declaration} (h : (e.resolve node base suffix origin).run s = (.ok ds, t)) :
    ∃ events, Course (e.Builds s) s.names events ds t.names := by
  obtain ⟨log, hlog⟩ := (e.erases_resolve node base suffix origin).exists_log [] h
  obtain ⟨-, events, -, hc⟩ :=
    e.resolveRecorded_yields s node base suffix origin _ _ _ _ _ .rfl hlog
  exact ⟨events, hc⟩

end Expander

end ClientGen
