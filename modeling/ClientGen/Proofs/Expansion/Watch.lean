import ClientGen.Proofs.Expansion.Walks

/-!
# Watched recursions

Following references, putting schemas together and counting the lists around a schema, watched for
the pointers that are looked up on the way down, and for the bounds on the number of steps.

* `Watch`: a session and what was watched in it.
* `Watching`: a computation that is watched.
* `Expander.mergeWatched`, `Expander.listsWatched`, `Expander.typeReferenceWatched`: the steps are
  those of `Expander.mergeWithin`, `Expander.listsWithin` and `Expander.typeReference`. Each is
  handed the way to where it starts.
* `Watching.Erases`: without the watch, a watched computation is a given one. The watched recursions
  are those of the program (`Expander.erases_mergeWatched`, `Expander.erases_listsWatched`,
  `Expander.erases_typeReferenceWatched`).
-/

namespace ClientGen

/-- A session and what was watched in it. -/
structure Watch where
  /-- The session. -/
  session : Session := {}
  /-- For every pointer that was looked up, the way down to it: the pointers that were followed to
  get there, the newest first, and in front the pointer itself. -/
  ways : List (List String) := []
  /-- Was a bound on the number of steps met? -/
  cut : Bool := false

/-- A computation that is watched. What was watched before a failure stays. -/
abbrev Watching := ExceptT Failure (StateM Watch)

namespace Watching

variable {α β γ δ : Type}

/-- The outcome of a watched computation. -/
def run (x : Watching α) (w : Watch) : Except Failure α × Watch := x w

/-- A computation in which there is nothing to watch. -/
def unwatched (x : Expansion α) : Watching α := fun w =>
  let (outcome, s) := x.run w.session
  (outcome, { w with session := s })

/-- Looks up a pointer at the end of a way. -/
def lookUp (document : Node) (way : List String) (pointer : String) :
    Watching (Option Fields) := fun w =>
  let (found, s) := Reference.lookUp document pointer w.session
  (.ok found, { w with session := s, ways := w.ways ++ [pointer :: way] })

/-- Gives a result because a bound is met. -/
def cut (a : α) : Watching α := fun w => (.ok a, { w with cut := true })

/-- A watched sequence runs its first part, and then its second part on what the first one
leaves. -/
theorem run_bind (x : Watching α) (f : α → Watching β) (w : Watch) :
    (x >>= f).run w = match x.run w with
      | (.ok a, u) => (f a).run u
      | (.error e, u) => (.error e, u) := by
  -- The state monad below hands the outcome and the watch over as they are.
  change (ExceptT.bindCont f (run x w).1) (run x w).2 = _
  rcases run x w with ⟨r | r, u⟩ <;> rfl

/-! ## Without the watch -/

/-- Without the watch, and with some of its result forgotten, the computation is a given one. -/
def Erases (forget : α → β) (x : Watching α) (y : Expansion β) : Prop :=
  ∀ w : Watch, y.run w.session = ((x.run w).1.map forget, (x.run w).2.session)

/-- A computation comes to what its watched form comes to, in the same session. -/
theorem Erases.run_eq {x : Watching α} {y : Expansion α} (h : Erases id x y) (w : Watch) :
    y.run w.session = ((x.run w).1, (x.run w).2.session) := by
  rw [h w]
  rcases x.run w with ⟨_ | _, u⟩ <;> rfl

/-- Returning a result without the watch is returning it. -/
theorem Erases.pure (forget : α → β) (a : α) : Erases forget (pure a) (pure (forget a)) :=
  fun _ => rfl

/-- A bound that is met leaves no mark without the watch. -/
theorem Erases.cut (forget : α → β) (a : α) :
    Erases forget (Watching.cut a) (Pure.pure (forget a)) :=
  fun _ => rfl

/-- A computation in which there is nothing to watch is itself without the watch. -/
theorem Erases.unwatched (x : Expansion α) : Erases id (Watching.unwatched x) x := by
  intro w
  change x.run w.session = ((x.run w.session).1.map id, (x.run w.session).2)
  rcases x.run w.session with ⟨_ | _, _⟩ <;> rfl

/-- A watched lookup is a lookup without the watch. -/
theorem Erases.lookUp (document : Node) (way : List String) (pointer : String) :
    Erases id (Watching.lookUp document way pointer)
      (ExceptT.lift (Reference.lookUp document pointer)) :=
  fun _ => rfl

/-- A watched sequence is a sequence without the watch, if its parts are. -/
theorem Erases.bind {forget : α → β} {forget' : γ → δ} {x : Watching α} {y : Expansion β}
    {f : α → Watching γ} {g : β → Expansion δ} (hx : Erases forget x y)
    (hf : ∀ a, Erases forget' (f a) (g (forget a))) : Erases forget' (x >>= f) (y >>= g) := by
  intro w
  rw [Expansion.run_bind, run_bind, hx w]
  rcases x.run w with ⟨e | a, u⟩
  · rfl
  · exact hf a u

/-- Going through a list, watched, is going through it without the watch, if each step is. -/
theorem Erases.foldlM {forget : α → β} {f : γ → α → Watching γ} {g : γ → β → Expansion γ}
    (hf : ∀ c a, Erases id (f c a) (g c (forget a))) (xs : List α) (c : γ) :
    Erases id (xs.foldlM f c) ((xs.map forget).foldlM g c) := by
  induction xs generalizing c with
  | nil => exact Erases.pure id c
  | cons a rest ih =>
    rw [List.map_cons, List.foldlM_cons, List.foldlM_cons]
    exact (hf c a).bind ih

end Watching

namespace Expander

open Watching

/-! ## The recursions -/

/-- `followWithin`, watched at the end of a way. The way goes on along the pointers followed. -/
def followWithinWatched (e : Expander) :
    Nat → Fields → List String → List String →
      Watching ((Option Fields × List String) × List String)
  | 0, _, chain, way => cut ((none, chain), way)
  | fuel + 1, schema, chain, way =>
    match Schema.pointer? schema with
    | none => pure ((some schema, chain), way)
    | some pointer =>
      if chain.contains pointer then do
        unwatched (warn ("Circular $ref " ++ pointer))
        return ((none, chain), way)
      else do
        match ← lookUp e.document way pointer with
        | none => return ((none, chain), way)
        | some target => followWithinWatched e fuel target (pointer :: chain) (pointer :: way)

/-- `follow`, watched. -/
def followWatched (e : Expander) (schema : Fields) (chain way : List String) :
    Watching ((Option Fields × List String) × List String) :=
  e.followWithinWatched (Reference.chainBound e.document) schema chain way

/-- `listedParts`, watched: each part with the way to it. -/
def listedPartsWatched (e : Expander) (chain way : List String) :
    List Fields → Watching (List ((Fields × List String) × List String))
  | [] => pure []
  | member :: rest => do
    match ← e.followWatched member chain way with
    | ((some part, partChain), partWay) =>
      return ((part, partChain), partWay) :: (← listedPartsWatched e chain way rest)
    | ((none, _), _) => do
      unwatched (warn ("Skipping unresolvable allOf member " ++ (Schema.pointer? member).getD ""))
      listedPartsWatched e chain way rest

/-- `parts`, watched. -/
def partsWatched (e : Expander) (schema : Fields) (chain way : List String) :
    Watching (List ((Fields × List String) × List String)) := do
  let listed ← e.listedPartsWatched chain way (Schema.members schema allOfKey)
  return listed ++ [((Schema.own schema, chain), way)]

/-- Adds one part to what was put together so far, watched. A part within which there are parts is
entered on the way to it. -/
def mergePartWatched (inner : Fields → List String → List String → Watching Merged)
    (merged : Merged) (part : (Fields × List String) × List String) : Watching Merged := do
  if Schema.kind part.1.1 = .allOf then
    let inner ← inner part.1.1 part.1.2 part.2
    return merged.add inner.properties inner.required
  else
    let required ← unwatched (requiredNames part.1.1)
    return merged.add (Schema.fieldsUnder part.1.1 "properties") required

/-- `mergeWithin`, watched. -/
def mergeWatched (e : Expander) : Nat → Fields → List String → List String → Watching Merged
  | 0, _, _, _ => cut {}
  | fuel + 1, schema, chain, way => do
    (← e.partsWatched schema chain way).foldlM (mergePartWatched (mergeWatched e fuel)) {}

/-- `listsWithin`, watched. -/
def listsWatched (e : Expander) : Nat → Fields → List String → List String → Watching Nat
  | 0, _, _, _ => cut 0
  | fuel + 1, schema, chain, way =>
    match Schema.kind schema with
    | .reference => do
      match ← e.followWatched schema chain way with
      | ((some target, chain), way) => listsWatched e fuel target chain way
      | ((none, _), _) => return 0
    | .array => do
      let n ← listsWatched e fuel (Schema.items schema) chain way
      return n + 1
    | _ => pure 0

/-- `typeReference`, watched. -/
def typeReferenceWatched (e : Expander) (node : Node) (base suffix : String) :
    Watching TypeReference := do
  let lists ← match node with
    | .object schema => e.listsWatched (e.mergeBound schema) schema [] []
    | _ => pure 0
  return { name := Naming.interfaceName base suffix, lists }

/-! ## Watching changes nothing -/

variable (e : Expander)

/-- Without the watch, following references for a number of steps is what it was. -/
theorem erases_followWithinWatched (fuel : Nat) (schema : Fields) (chain way : List String) :
    Erases Prod.fst (e.followWithinWatched fuel schema chain way)
      (ExceptT.lift (e.followWithin fuel schema chain)) := by
  induction fuel generalizing schema chain way with
  | zero => exact Erases.cut _ _
  | succ fuel ih =>
    rw [followWithinWatched, followWithin]
    cases Schema.pointer? schema with
    | none => exact Erases.pure _ _
    | some pointer =>
      dsimp only
      split
      · rw [Expansion.lift_bind]
        exact Erases.bind (Erases.unwatched (warn _)) fun _ => Erases.pure _ _
      · -- The same pointer is looked up in the same session; the way is only noted.
        rw [Expansion.lift_bind]
        refine (Erases.lookUp e.document way pointer).bind fun found => ?_
        cases found with
        | none => exact Erases.pure _ _
        | some target => exact ih target (pointer :: chain) (pointer :: way)

/-- Without the watch, following references is what it was. -/
theorem erases_followWatched (schema : Fields) (chain way : List String) :
    Erases Prod.fst (e.followWatched schema chain way) (e.follow schema chain) :=
  e.erases_followWithinWatched (Reference.chainBound e.document) schema chain way

/-- Without the watch and the ways, listing parts is what it was. -/
theorem erases_listedPartsWatched (chain way : List String) (members : List Fields) :
    Erases (List.map Prod.fst) (e.listedPartsWatched chain way members)
      (e.listedParts chain members) := by
  induction members with
  | nil => exact Erases.pure _ _
  | cons member rest ih =>
    rw [listedPartsWatched, listedParts]
    refine (e.erases_followWatched member chain way).bind fun found => ?_
    obtain ⟨⟨_ | part, partChain⟩, partWay⟩ := found
    · exact (Erases.unwatched (warn _)).bind fun _ => ih
    · exact ih.bind fun _ => Erases.pure _ _

/-- Without the watch and the ways, finding all parts is what it was. -/
theorem erases_partsWatched (schema : Fields) (chain way : List String) :
    Erases (List.map Prod.fst) (e.partsWatched schema chain way) (e.parts schema chain) := by
  refine (e.erases_listedPartsWatched chain way _).bind fun listed => ?_
  have hparts : listed.map Prod.fst ++ [(Schema.own schema, chain)]
      = (listed ++ [((Schema.own schema, chain), way)]).map Prod.fst := by
    rw [List.map_append, List.map_singleton]
  change Erases _ _ (pure (listed.map Prod.fst ++ [(Schema.own schema, chain)]))
  rw [hparts]
  exact Erases.pure _ _

/-- Without the watch, adding one part is what it was, if this holds one level of parts further
down. -/
theorem erases_mergePartWatched {fuel : Nat}
    {inner : Fields → List String → List String → Watching Merged}
    (h : ∀ schema chain way,
      Erases id (inner schema chain way) (e.mergeWithin fuel schema chain))
    (merged : Merged) (part : (Fields × List String) × List String) :
    Erases id (mergePartWatched inner merged part) (e.mergePart fuel merged part.1) := by
  unfold mergePartWatched mergePart
  split
  · exact (h _ _ _).bind fun _ => Erases.pure _ _
  · exact (Erases.unwatched (requiredNames _)).bind fun _ => Erases.pure _ _

/-- Without the watch, a schema is put together as by the program. -/
theorem erases_mergeWatched (fuel : Nat) (schema : Fields) (chain way : List String) :
    Erases id (e.mergeWatched fuel schema chain way) (e.mergeWithin fuel schema chain) := by
  induction fuel generalizing schema chain way with
  | zero => exact Erases.cut _ _
  | succ fuel ih =>
    rw [mergeWatched, mergeWithin_succ]
    refine (e.erases_partsWatched schema chain way).bind fun parts => ?_
    exact Erases.foldlM (e.erases_mergePartWatched ih) parts {}

/-- Without the watch, lists are counted as by the program. -/
theorem erases_listsWatched (fuel : Nat) (schema : Fields) (chain way : List String) :
    Erases id (e.listsWatched fuel schema chain way) (e.listsWithin fuel schema chain) := by
  induction fuel generalizing schema chain way with
  | zero => exact Erases.cut _ _
  | succ fuel ih =>
    rw [listsWatched, listsWithin]
    cases Schema.kind schema with
    | reference =>
      refine (e.erases_followWatched schema chain way).bind fun found => ?_
      obtain ⟨⟨_ | target, chain'⟩, way'⟩ := found
      · exact Erases.pure _ _
      · exact ih target chain' way'
    | array => exact (ih _ _ _).bind fun _ => Erases.pure _ _
    | _ => exact Erases.pure _ _

/-- Without the watch, the reference to a type is found as by the program. -/
theorem erases_typeReferenceWatched (node : Node) (base suffix : String) :
    Erases id (e.typeReferenceWatched node base suffix) (e.typeReference node base suffix) := by
  unfold typeReferenceWatched typeReference
  cases node with
  | object schema => exact (e.erases_listsWatched _ _ _ _).bind fun _ => Erases.pure _ _
  | _ => exact (Erases.pure id 0).bind fun _ => Erases.pure _ _

end Expander

end ClientGen
