import ClientGen.Model.Generation
import ClientGen.Proofs.Expansion.Steps

/-!
# Properties of all computations of a pass

Whatever a pass computes is put together in sequence from a few operations: giving a result,
failing, giving a warning, looking up a pointer, and claiming a name. A property that these have,
and that a sequence has when its parts do, is therefore one of all computations of a pass.

* `Expansion.Reading`: a property of this kind that leaves claims aside.
* `Reading.follow`, `Reading.merge`, `Reading.typeReference`: what looks at schemas has it.
* `Reading.request`, `Reading.response`, `Reading.query`: what looks for schemas has it.
* `Expansion.Claiming`: a property of this kind that claims have too.
* `Claiming.resolve`, `Claiming.forOperation`: expansions have it.
-/

namespace ClientGen

namespace Expansion

variable {α β : Type}

/-- A computation that follows another one within a session that cannot fail. -/
theorem lift_bind (x : StateM Session α) (f : α → StateM Session β) :
    (ExceptT.lift (x >>= f) : Expansion β)
      = (ExceptT.lift x : Expansion α) >>= fun a => ExceptT.lift (f a) := rfl

/-- A property of computations that the operations without claims have, and sequences. -/
structure Reading (document : Node) (P : (α : Type) → Expansion α → Prop) : Prop where
  /-- Results have it. -/
  pure {α : Type} (a : α) : P α (pure a)
  /-- Failures have it. -/
  throw {α : Type} (f : Failure) : P α (throw f)
  /-- Sequences of parts that have it have it. -/
  bind {α β : Type} {x : Expansion α} {f : α → Expansion β} :
    P α x → (∀ a, P β (f a)) → P β (x >>= f)
  /-- Warnings have it. -/
  warn (warning : String) : P Unit (Expander.warn warning)
  /-- Looking up a pointer has it. -/
  lookUp (pointer : String) : P (Option Fields) (ExceptT.lift (Reference.lookUp document pointer))

namespace Reading

variable {document : Node} {P : (α : Type) → Expansion α → Prop} (h : Reading document P)

include h

/-- A result that is known already has the property, also as a failure. -/
theorem ofExcept (r : Except Failure α) : P α (ofExcept r) := by
  cases r with
  | error f => exact h.throw f
  | ok a => exact h.pure a

/-- Going through a list has the property if each of its steps has it. -/
theorem foldlM {f : β → α → Expansion β} (hf : ∀ b a, P β (f b a)) (xs : List α) (b : β) :
    P β (xs.foldlM f b) := by
  induction xs generalizing b with
  | nil => exact h.pure b
  | cons x xs ih =>
    rw [List.foldlM_cons]
    exact h.bind (hf b x) ih

/-! ## Looking for the schemas of an operation -/

/-- Replacing a node by what its references lead to has the property, for any number of steps. -/
theorem dereferenceWithin (fuel : Nat) (seen : List String) (node : Node) :
    P _ (ExceptT.lift (Reference.dereferenceWithin document fuel seen node)) := by
  fun_induction Reference.dereferenceWithin document fuel seen node with
  | case3 fuel seen fields pointer hvalue hseen => exact h.bind (h.warn _) fun _ => h.pure none
  | case4 fuel seen fields pointer hvalue hnew ih =>
    rw [lift_bind]
    refine h.bind (h.lookUp pointer) fun found => ?_
    rcases found with _ | target
    · exact h.pure none
    · exact ih target
  | _ => exact h.pure _

/-- Replacing a node by what its references lead to has the property. -/
theorem dereference (node : Node) : P _ (Lookup.dereference document node) :=
  h.dereferenceWithin (Reference.chainBound document) [] node

/-- Collecting the parameters of a list has it. -/
theorem collect (known : List (Lookup.ParameterId × Fields)) (source : Option Node) :
    P _ (Lookup.collect document known source) := by
  unfold Lookup.collect
  split
  · refine h.foldlM (fun known node => ?_) _ _
    refine h.bind (h.dereference node) fun found => ?_
    split
    · refine h.bind (h.ofExcept _) fun id => ?_
      split
      · exact h.pure _
      · exact h.pure _
    · exact h.pure _
  · exact h.pure _

/-- Finding the parameters of an operation has it. -/
theorem parameters (o : Operation) : P _ (Lookup.parameters document o) := by
  refine h.bind (h.ofExcept _) fun item => h.bind (h.ofExcept _) fun raw => ?_
  exact h.bind (h.collect _ _) fun _ => h.bind (h.collect _ _) fun _ => h.pure _

/-- Looking up what an operation sends has the property. -/
theorem request (o : Operation) : P _ (Lookup.request document o) := by
  refine h.bind (h.ofExcept _) fun raw => ?_
  dsimp only
  split
  case' h_1 => refine h.bind (h.dereference _) fun body => ?_
  case' h_2 => refine h.bind (h.pure none) fun body => ?_
  all_goals
    -- If the body has no schema, the parameters are looked at.
    split
    · exact h.pure _
    · refine h.bind (h.parameters o) fun ps => ?_
      split
      · exact h.pure _
      · exact h.pure _

/-- Finding the first schema among responses has it. -/
theorem firstSchema (responses : Fields) (codes : List String) :
    P _ (Lookup.firstSchema document responses codes) := by
  induction codes with
  | nil => exact h.pure _
  | cons code codes ih =>
    rw [Lookup.firstSchema]
    split
    case' h_1 => refine h.bind (h.dereference _) fun response => ?_
    case' h_2 => refine h.bind (h.pure none) fun response => ?_
    all_goals
      dsimp only
      split
      · exact h.pure _
      · exact ih

/-- Looking up what an operation answers has the property. -/
theorem response (o : Operation) : P _ (Lookup.response document o) := by
  refine h.bind (h.ofExcept _) fun raw => ?_
  split
  · exact h.firstSchema _ _
  · exact h.pure _

/-- Looking up the query parameters of an operation has the property. -/
theorem query (o : Operation) : P _ (Lookup.query document o) :=
  h.bind (h.parameters o) fun _ => h.pure _

/-! ## Looking at schemas -/

/-- Reading the required names has it. -/
theorem requiredNames (schema : Fields) : P _ (Expander.requiredNames schema) := by
  unfold Expander.requiredNames
  split
  · exact h.pure _
  · exact h.throw _

/-- Typing a schema that needs no declaration has it. -/
theorem plainType (schema : Fields) (origin : String) : P _ (Expander.plainType schema origin) := by
  unfold Expander.plainType
  split
  · split
    · exact h.pure _
    · split
      · exact h.pure _
      · exact h.bind (h.warn _) fun _ => h.pure _
  · exact h.pure _

variable {e : Expander} (hdocument : e.document = document)

include hdocument

/-- Following references has it, for any number of steps. -/
theorem followWithin (fuel : Nat) (schema : Fields) (chain : List String) :
    P _ (ExceptT.lift (e.followWithin fuel schema chain)) := by
  induction fuel generalizing schema chain with
  | zero => exact h.pure _
  | succ fuel ih =>
    rw [Expander.followWithin]
    split
    · exact h.pure _
    · -- A repeated pointer is warned of, a new one is looked up and followed.
      rename_i pointer _
      split
      · exact h.bind (h.warn _) fun _ => h.pure _
      · rw [lift_bind, hdocument]
        refine h.bind (h.lookUp pointer) fun found => ?_
        rcases found with _ | target
        · exact h.pure _
        · exact ih target (pointer :: chain)

/-- Following references has the property. -/
theorem follow (schema : Fields) (chain : List String) : P _ (e.follow schema chain) :=
  h.followWithin hdocument (Reference.chainBound e.document) schema chain

/-- Listing the parts of a schema has it. -/
theorem listedParts (chain : List String) (members : List Fields) :
    P _ (e.listedParts chain members) := by
  induction members with
  | nil => exact h.pure _
  | cons member rest ih =>
    rw [Expander.listedParts]
    refine h.bind (h.follow hdocument member chain) fun found => ?_
    rcases found with ⟨_ | part, partChain⟩
    · exact h.bind (h.warn _) fun _ => ih
    · exact h.bind ih fun _ => h.pure _

/-- Finding all parts of a schema has it. -/
theorem parts (schema : Fields) (chain : List String) : P _ (e.parts schema chain) :=
  h.bind (h.listedParts hdocument chain _) fun _ => h.pure _

/-- Putting a schema together from its parts has it, for any number of levels. -/
theorem mergeWithin (fuel : Nat) (schema : Fields) (chain : List String) :
    P _ (e.mergeWithin fuel schema chain) := by
  induction fuel generalizing schema chain with
  | zero => exact h.pure _
  | succ fuel ih =>
    rw [Expander.mergeWithin]
    refine h.bind (h.parts hdocument schema chain) fun parts => h.foldlM (fun merged part => ?_) _ _
    split
    · exact h.bind (ih _ _) fun _ => h.pure _
    · exact h.bind (h.requiredNames _) fun _ => h.pure _

/-- What a step borrows has the property. -/
theorem borrowed {α : Type} {x : Expansion α} (hx : Expander.Borrowed e x) : P α x := by
  cases hx with
  | follow schema chain => exact h.follow hdocument schema chain
  | warn w => exact h.warn w
  | merge schema chain => exact h.mergeWithin hdocument (e.mergeBound schema) schema chain
  | requiredNames schema => exact h.requiredNames schema
  | plainType schema origin => exact h.plainType schema origin

/-- Counting the lists around a schema has it, for any number of steps. -/
theorem listsWithin (fuel : Nat) (schema : Fields) (chain : List String) :
    P _ (e.listsWithin fuel schema chain) := by
  induction fuel generalizing schema chain with
  | zero => exact h.pure _
  | succ fuel ih =>
    rw [Expander.listsWithin]
    split
    · refine h.bind (h.follow hdocument schema chain) fun found => ?_
      split
      · exact ih _ _
      · exact h.pure _
    · exact h.bind (ih _ _) fun _ => h.pure _
    · exact h.pure _

/-- Finding the type by which other files refer to a schema has the property. -/
theorem typeReference (node : Node) (base suffix : String) :
    P _ (e.typeReference node base suffix) := by
  unfold Expander.typeReference
  dsimp only
  split
  · exact h.bind (h.listsWithin hdocument _ _ _) fun _ => h.pure _
  · exact h.bind (h.pure 0) fun _ => h.pure _

end Reading

/-- A property of computations that all operations have, and sequences. -/
structure Claiming (document : Node) (P : (α : Type) → Expansion α → Prop) : Prop
    extends Reading document P where
  /-- Claims have it. -/
  claim (name : String) : P Bool (Expander.claim name)

namespace Claiming

variable {P : (α : Type) → Expansion α → Prop}

/-- Meeting a request has the property if finding its declarations has it. -/
theorem once {document : Node} (h : Claiming document P) (r : Request)
    {x : Expansion (List Declaration)} (hx : P _ x) : P _ (Expander.once r x) := by
  refine h.bind (h.claim r.name) fun fresh => ?_
  split
  · exact hx
  · exact h.pure _

variable {e : Expander} (h : Claiming e.document P)

include h

/-- The steps of an expansion keep the property. -/
theorem kept : Expander.Kept e P where
  pure := h.pure
  bind := h.bind
  borrow hx := h.borrowed rfl hx

/-- At every level, declaring a schema has the property, and so does typing one. -/
theorem level (left : Nat) :
    (∀ schema suffix place, P _ (e.declare left schema suffix place)) ∧
      ∀ node place, P _ (e.propertyType left node place) := by
  -- Both functions at once, since each calls the other one level down.
  induction left with
  | zero =>
    refine ⟨fun schema suffix place => ?_, fun node place => ?_⟩
    · rw [Expander.declare]
      exact h.throw _
    · rw [Expander.propertyType]
      exact h.throw _
  | succ left ih =>
    obtain ⟨ihd, iht⟩ := ih
    refine ⟨fun schema suffix place => ?_, fun node place => ?_⟩
    · rw [Expander.declare]
      exact h.kept.declareStep iht (fun r _ hx => h.once r hx) (fun _ _ => ihd _ _ _) _ _ _
    · cases node with
      | object schema =>
        rw [Expander.propertyType, map_eq_pure_bind]
        exact h.bind (h.kept.typeStep iht (fun _ _ => ihd _ _ _) _ _) fun _ => h.pure _
      | _ =>
        rw [Expander.propertyType]
        exact h.pure _

/-- An expansion has the property. -/
theorem resolve (node : Node) (base suffix origin : String) :
    P _ (e.resolve node base suffix origin) := by
  unfold Expander.resolve
  split
  · exact (h.level e.levels).1 _ _ _
  · split
    · exact h.throw _
    · refine h.bind (h.claim _) fun fresh => ?_
      split
      · exact h.throw _
      · exact h.pure _

/-- Expanding a schema into the models of a module has it. -/
theorem expand (types : OperationTypes) (label suffix : String) (models : ModelSet)
    (schema : Option Fields) : P _ (Generation.expand e types label suffix models schema) := by
  cases schema with
  | none => exact h.pure _
  | some schema =>
    refine h.bind (h.resolve _ _ _ _) fun ds => ?_
    exact h.bind (h.typeReference rfl _ _ _) fun _ => h.pure _

/-- Expanding the schemas of an operation has the property. -/
theorem forOperation (models : ModelSet) (o : Operation) :
    P _ (Generation.forOperation e models o) := by
  refine h.bind (h.request o) fun sent => ?_
  refine h.bind (h.response o) fun received => h.bind (h.query o) fun asked => ?_
  -- Each of the three schemas goes on with the models that the one before it left.
  refine h.bind (h.expand _ _ _ _ _) fun first => h.bind (h.expand _ _ _ _ _) fun second => ?_
  exact h.bind (h.expand _ _ _ _ _) fun _ => h.pure _

end Claiming

end Expansion

end ClientGen
