import ClientGen.Schema.Expansion

/-!
# Steps of an expansion

A step is written for any kind of computation that can borrow from expansions. Two runs of one step
whose parts correspond therefore correspond as a whole, whatever it is that is compared.

* `Borrowed`: the computations that a step borrows.
* `Respected`: a relation between computations that sequences and borrowed computations respect.
* `Respected.declareStep`, `Respected.typeStep`: then the steps respect it too.
* `Kept`: the same for a property of computations.
-/

namespace ClientGen.Expander

/-- The computations that the steps of an expansion borrow. None of them asks for declared names. -/
inductive Borrowed (e : Expander) : {α : Type} → Expansion α → Prop
  /-- Following references. -/
  | follow (schema : Fields) (chain : List String) : Borrowed e (e.follow schema chain)
  /-- Giving a warning. -/
  | warn (warning : String) : Borrowed e (warn warning)
  /-- Putting a schema together from its parts. -/
  | merge (schema : Fields) (chain : List String) : Borrowed e (e.merge schema chain)
  /-- Reading the required names. -/
  | requiredNames (schema : Fields) : Borrowed e (requiredNames schema)
  /-- Finding a type that needs no declaration. -/
  | plainType (schema : Fields) (origin : String) : Borrowed e (plainType schema origin)

variable {m n : Type → Type} [Monad m] [Monad n] [MonadLiftT Expansion m] [MonadLiftT Expansion n]

/-- A relation between computations that holds between equal results, borrowed computations, and
sequences of related parts. -/
structure Respected (e : Expander) (R : (α : Type) → m α → n α → Prop) : Prop where
  /-- Equal results are related. -/
  pure {α : Type} (a : α) : R α (pure a) (pure a)
  /-- Sequences of related parts are related. -/
  bind {α β : Type} {x : m α} {y : n α} {f : α → m β} {g : α → n β} :
    R α x y → (∀ a, R β (f a) (g a)) → R β (x >>= f) (y >>= g)
  /-- A borrowed computation is related to itself. -/
  borrow {α : Type} {x : Expansion α} : Borrowed e x → R α (liftM x) (liftM x)

namespace Respected

variable {e : Expander} {R : (α : Type) → m α → n α → Prop} (h : Respected e R)
  {typeOf : Node → Place → m Typed} {typeOf' : Node → Place → n Typed}
  (ht : ∀ node place, R Typed (typeOf node place) (typeOf' node place))

include h ht

/-- Typing the members of a choice corresponds if typing each of them does. -/
theorem choiceTypes (place : Place) (key : String) (members : List Fields) (i : Nat) :
    R _ (choiceTypes typeOf place key members i) (choiceTypes typeOf' place key members i) := by
  induction members generalizing i with
  | nil => exact h.pure _
  | cons member rest ih =>
    rw [Expander.choiceTypes, Expander.choiceTypes]
    exact h.bind (ht _ _) fun _ => h.bind (ih (i + 1)) fun _ => h.pure _

/-- Typing a choice corresponds if typing each of its members does. -/
theorem choiceType (place : Place) (schema : Fields) :
    R _ (choiceType typeOf place schema) (choiceType typeOf' place schema) :=
  h.bind (h.choiceTypes ht _ _ _ _) fun _ => h.pure _

/-- Typing properties corresponds if typing each of them does. -/
theorem interfaceProperties (place : Place) (required : List String) (fields : Fields) :
    R _ (interfaceProperties typeOf place required fields)
      (interfaceProperties typeOf' place required fields) := by
  induction fields with
  | nil => exact h.pure _
  | cons field rest ih =>
    obtain ⟨key, schema⟩ := field
    rw [Expander.interfaceProperties, Expander.interfaceProperties]
    exact h.bind (ht _ _) fun _ => h.bind ih fun _ => h.pure _

/-- Declaring an interface corresponds if typing its properties does. -/
theorem interface (name : String) (comment : DocComment) (place : Place) (properties : Fields)
    (required : List String) :
    R _ (interface typeOf name comment place properties required)
      (interface typeOf' name comment place properties required) :=
  h.bind (h.interfaceProperties ht _ _ _) fun _ => h.pure _

/-- Finding the declaration of a request corresponds, whatever the kind of its schema. -/
theorem body (r : Request) (kind : Schema.Kind) (place : Place) :
    R _ (e.body typeOf r kind place) (e.body typeOf' r kind place) := by
  unfold Expander.body
  dsimp only
  -- Put together from several, a choice, an object, anything else.
  split
  · refine h.bind (h.borrow (.merge _ _)) fun merged => ?_
    split
    · exact h.pure _
    · exact h.interface ht _ _ _ _ _
  · exact h.bind (h.choiceType ht _ _) fun _ => h.pure _
  · exact h.bind (h.borrow (.requiredNames _)) fun _ => h.interface ht _ _ _ _ _
  · exact h.pure _

variable {once : Request → m (List Declaration) → m (List Declaration)}
  {once' : Request → n (List Declaration) → n (List Declaration)}
  (ho : ∀ r x y, R _ x y → R _ (once r x) (once' r y))
  {again : Fields → Place → m (List Declaration)} {again' : Fields → Place → n (List Declaration)}
  (hd : ∀ schema place, R _ (again schema place) (again' schema place))

include hd

/-- One level of typing a schema corresponds, if declaring and typing do one level down. -/
theorem typeStep (schema : Fields) (place : Place) :
    R _ (e.typeStep again typeOf schema place) (e.typeStep again' typeOf' schema place) := by
  unfold Expander.typeStep
  -- One goal for each kind, in the order of the definition.
  split
  · refine h.bind (h.borrow (.follow _ _)) fun found => ?_
    split
    · exact h.bind (h.borrow (.warn _)) fun _ => h.pure _
    · split
      · exact h.bind (hd _ _) fun _ => h.pure _
      · exact ht _ _
  · exact h.bind (hd _ _) fun _ => h.pure _
  · exact h.bind (hd _ _) fun _ => h.pure _
  · exact h.choiceType ht _ _
  · exact h.pure _
  · exact h.bind (ht _ _) fun _ => h.pure _
  · split
    · exact h.bind (ht _ _) fun _ => h.pure _
    · exact h.pure _
  · exact h.bind (h.borrow (.plainType _ _)) fun _ => h.pure _
  · exact h.bind (h.borrow (.plainType _ _)) fun _ => h.pure _

include ho

/-- One level of declaring a schema corresponds, if declaring and typing do one level down, and
meeting requests does. -/
theorem declareStep (schema : Fields) (suffix : String) (place : Place) :
    R _ (e.declareStep once again typeOf schema suffix place)
      (e.declareStep once' again' typeOf' schema suffix place) := by
  unfold Expander.declareStep
  dsimp only
  -- Only references and lists hand over to another schema; all others claim the name.
  split
  · refine h.bind (h.borrow (.follow _ _)) fun found => ?_
    split
    · exact hd _ _
    · exact h.bind (h.borrow (.warn _)) fun _ => ho _ _ _ (h.pure _)
  · exact hd _ _
  · exact ho _ _ _ (h.body ht _ _ _)

end Respected

/-- A property of computations that equal results, borrowed computations and sequences have. -/
structure Kept (e : Expander) (P : (α : Type) → m α → Prop) : Prop where
  /-- Equal results have it. -/
  pure {α : Type} (a : α) : P α (pure a)
  /-- Sequences of parts that have it have it. -/
  bind {α β : Type} {x : m α} {f : α → m β} : P α x → (∀ a, P β (f a)) → P β (x >>= f)
  /-- Borrowed computations have it. -/
  borrow {α : Type} {x : Expansion α} : Borrowed e x → P α (liftM x)

namespace Kept

variable {e : Expander} {P : (α : Type) → m α → Prop} (h : Kept e P)
  {typeOf : Node → Place → m Typed} (ht : ∀ node place, P Typed (typeOf node place))
  {once : Request → m (List Declaration) → m (List Declaration)}
  (ho : ∀ r x, P _ x → P _ (once r x))
  {again : Fields → Place → m (List Declaration)} (hd : ∀ schema place, P _ (again schema place))

include h

/-- A property of computations is a relation that does not look at the second one. -/
theorem respected : Respected e (m := m) (n := m) fun α x _ => P α x where
  pure := h.pure
  bind := h.bind
  borrow := h.borrow

include ht

/-- Finding the declaration of a request has the property, whatever the kind of its schema. -/
theorem body (r : Request) (kind : Schema.Kind) (place : Place) :
    P _ (e.body typeOf r kind place) :=
  @Respected.body m m _ _ _ _ e _ h.respected typeOf typeOf ht r kind place

include hd

/-- One level of typing a schema has the property, if declaring and typing have it one level
down. -/
theorem typeStep (schema : Fields) (place : Place) : P _ (e.typeStep again typeOf schema place) :=
  @Respected.typeStep m m _ _ _ _ e _ h.respected typeOf typeOf ht again again hd schema place

include ho

/-- One level of declaring a schema has the property, if declaring and typing have it one level
down, and meeting requests keeps it. -/
theorem declareStep (schema : Fields) (suffix : String) (place : Place) :
    P _ (e.declareStep once again typeOf schema suffix place) :=
  @Respected.declareStep m m _ _ _ _ e _ h.respected typeOf typeOf ht once once
    (fun r x _ => ho r x) again again hd schema suffix place

end Kept

end ClientGen.Expander
