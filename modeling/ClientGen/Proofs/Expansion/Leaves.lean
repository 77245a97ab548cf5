import ClientGen.Proofs.Expansion.Walks
import ClientGen.Proofs.Node.Updates

/-!
# Schemas put together from several, flattened

A schema put together from several is worked off part by part, and a part that is put together
itself is worked off first. It comes to the same to read off all leaves from left to right and to
add one after another.

* `Expansion.Gives`: what a computation comes to in every session of a document.
* `Schema.Leaves`: the leaves of a schema, told by the document alone. There is exactly one list of
  them (`Schema.Leaves.unique`, `Expander.exists_leaves`).
* `Merged.addLeaf`: one more leaf; `Merged.foldlM_addLeaf` says what several of them come to.
* `Expander.gives_merge`: a schema is put together by adding its leaves.
-/

namespace ClientGen

namespace Expansion

variable {α β : Type} {document : Node}

/-- In every session with a faithful memory, the computation has the outcome and leaves the memory
faithful. -/
def Gives (document : Node) (x : Expansion α) (outcome : Except Failure α) : Prop :=
  ∀ s : Session, s.Faithful document →
    (x.run s).1 = outcome ∧ (x.run s).2.Faithful document

/-- Returning a value gives it. -/
theorem gives_pure (a : α) : Gives document (pure a) (.ok a) := fun _ hs => ⟨rfl, hs⟩

/-- Failing gives the failure. -/
theorem gives_throw (f : Failure) : Gives document (throw f : Expansion α) (.error f) :=
  fun _ hs => ⟨rfl, hs⟩

/-- Giving a warning succeeds in every session. -/
theorem gives_warn (w : String) : Gives document (Expander.warn w) (.ok ()) :=
  fun _ hs => ⟨rfl, hs⟩

/-- A sequence comes to what the second part comes to after the first one. -/
theorem Gives.bind {x : Expansion α} {outcome : Except Failure α} {f : α → Expansion β}
    {g : α → Except Failure β} (hx : Gives document x outcome)
    (hf : ∀ a, outcome = .ok a → Gives document (f a) (g a)) :
    Gives document (x >>= f) (outcome >>= g) := by
  intro s hs
  obtain ⟨hrun, ht⟩ := hx s hs
  rw [run_bind]
  rcases hxs : x.run s with ⟨r, t⟩
  rw [hxs] at hrun ht
  obtain rfl : r = outcome := hrun
  cases r with
  | error e => exact ⟨rfl, ht⟩
  | ok a => exact hf a rfl t ht

/-- A first part that returns hands its result to the second one. -/
theorem Gives.bind_ok {x : Expansion α} {a : α} {f : α → Expansion β}
    {outcome : Except Failure β} (hx : Gives document x (.ok a))
    (hf : Gives document (f a) outcome) : Gives document (x >>= f) outcome := by
  intro s hs
  obtain ⟨hrun, ht⟩ := hx s hs
  rcases hxs : x.run s with ⟨r, t⟩
  rw [hxs] at hrun ht
  obtain rfl : r = .ok a := hrun
  rw [run_bind_of_ok hxs]
  exact hf t ht

/-- What a computation returns is what it comes to. -/
theorem Gives.eq_ok_of_run {x : Expansion α} {outcome : Except Failure α} {a : α} {s t : Session}
    (hx : Gives document x outcome) (hs : s.Faithful document) (h : x.run s = (.ok a, t)) :
    outcome = .ok a := by
  have houtcome := (hx s hs).1
  rw [h] at houtcome
  exact houtcome.symm

end Expansion

/-! ## The leaves -/

namespace Schema

variable {document : Node} {chain : List String} {schema : Fields}

/-- The leaves behind members that are listed. A member that leads nowhere, or to a pointer on its
own chain, is skipped. One that is put together itself stands for its own leaves. -/
inductive Flattened (document : Node) : List String → List Fields → List Fields → Prop
  /-- No members. -/
  | nil {chain : List String} : Flattened document chain [] []
  /-- A member that is skipped. -/
  | skipped {chain chain' : List String} {member : Fields} {rest leaves : List Fields} :
    Follows document chain member (none, chain') → Flattened document chain rest leaves →
    Flattened document chain (member :: rest) leaves
  /-- A member that is a leaf. -/
  | leaf {chain chain' : List String} {member target : Fields} {rest leaves : List Fields} :
    Follows document chain member (some target, chain') → kind target ≠ .allOf →
    Flattened document chain rest leaves →
    Flattened document chain (member :: rest) (target :: leaves)
  /-- A member that is put together itself. What it says itself is its last leaf. -/
  | inner {chain chain' : List String} {member target : Fields}
    {rest inside leaves : List Fields} :
    Follows document chain member (some target, chain') → kind target = .allOf →
    Flattened document chain' (members target Expander.allOfKey) inside →
    Flattened document chain rest leaves →
    Flattened document chain (member :: rest) (inside ++ [own target] ++ leaves)

/-- The leaves of a schema, from left to right. The last one is what it says itself. -/
def Leaves (document : Node) (chain : List String) (schema : Fields) (leaves : List Fields) :
    Prop :=
  ∃ listed, Flattened document chain (members schema Expander.allOfKey) listed ∧
    leaves = listed ++ [own schema]

/-- Members that are listed have one list of leaves. -/
theorem Flattened.unique {members leaves leaves' : List Fields}
    (h : Flattened document chain members leaves)
    (h' : Flattened document chain members leaves') : leaves = leaves' := by
  -- Both derivations walk the same members, and a walk along references has one outcome.
  induction h generalizing leaves' with
  | nil => cases h'; rfl
  | skipped hfollows _ ih =>
    cases h' with
    | skipped _ hrest => exact ih hrest
    | leaf hfollows' => simpa using hfollows.unique hfollows'
    | inner hfollows' => simpa using hfollows.unique hfollows'
  | leaf hfollows hkind _ ih =>
    cases h' with
    | skipped hfollows' => simpa using hfollows.unique hfollows'
    | leaf hfollows' _ hrest =>
      obtain ⟨rfl, rfl⟩ := by simpa using hfollows.unique hfollows'
      rw [ih hrest]
    | inner hfollows' hkind' =>
      obtain ⟨rfl, rfl⟩ := by simpa using hfollows.unique hfollows'
      exact absurd hkind' hkind
  | inner hfollows hkind _ _ ihinside ihrest =>
    cases h' with
    | skipped hfollows' => simpa using hfollows.unique hfollows'
    | leaf hfollows' hkind' =>
      obtain ⟨rfl, rfl⟩ := by simpa using hfollows.unique hfollows'
      exact absurd hkind hkind'
    | inner hfollows' _ hinside hrest =>
      obtain ⟨rfl, rfl⟩ := by simpa using hfollows.unique hfollows'
      rw [ihinside hinside, ihrest hrest]

/-- A schema has one list of leaves only. -/
theorem Leaves.unique {leaves leaves' : List Fields} (h : Leaves document chain schema leaves)
    (h' : Leaves document chain schema leaves') : leaves = leaves' := by
  obtain ⟨listed, hlisted, rfl⟩ := h
  obtain ⟨listed', hlisted', rfl⟩ := h'
  rw [hlisted.unique hlisted']

/-- The required names of a schema, if they can be read. -/
def readRequired (schema : Fields) : Except Failure (List String) :=
  match requiredNames schema with
  | some names => .ok names
  | none => .error .notIterable

end Schema

namespace Merged

open Schema

/-- Adds one more leaf. -/
def addLeaf (m : Merged) (leaf : Fields) : Except Failure Merged := do
  return m.add (fieldsUnder leaf "properties") (← readRequired leaf)

/-- Adding two leaves one after another is adding both at once. -/
theorem add_add (m : Merged) (properties properties' : Fields) (required required' : List String) :
    (m.add properties required).add properties' required'
      = m.add (properties ++ properties') (required ++ required') := by
  simp [add, Fields.update, List.foldl_append]

/-- Several leaves come to all of their properties and all of their requirements. -/
theorem foldlM_addLeaf (m : Merged) (leaves : List Fields) :
    leaves.foldlM addLeaf m = leaves.mapM readRequired >>= fun required =>
      .ok (m.add (leaves.flatMap (fieldsUnder · "properties")) required.flatten) := by
  induction leaves generalizing m with
  | nil => rfl
  | cons leaf rest ih =>
    rw [List.foldlM_cons, List.mapM_cons, addLeaf]
    -- The fold stops at the first leaf whose `required` cannot be read, and so does `mapM`.
    cases readRequired leaf with
    | error f => rfl
    | ok required =>
      change rest.foldlM addLeaf _ = _
      rw [ih]
      cases rest.mapM readRequired with
      | error f => rfl
      | ok names =>
        change Except.ok _ = Except.ok _
        rw [add_add, List.flatMap_cons, List.flatten_cons]

/-- Properties are updated, and required names are kept where they come first. -/
theorem add_eq (m : Merged) (properties : Fields) (required : List String) :
    m.add properties required = ⟨Fields.update m.properties properties,
      required.foldl (keepFirst (· == ·)) m.required⟩ := by
  have hstep : (fun (kept : List String) name =>
      if kept.contains name then kept else kept ++ [name]) = keepFirst (· == ·) := by
    funext kept name
    rw [keepFirst, List.contains_eq_any_beq]
    simp only [BEq.comm (a := name)]
  rw [add, hstep]

/-- Properties and requirements may be gathered first. -/
theorem add_gathered {m : Merged} (hm : m.properties.Distinct) (properties : Fields)
    (required : List String) :
    m.add (({} : Merged).add properties required).properties
        (({} : Merged).add properties required).required
      = m.add properties required := by
  have hproperties : Fields.update m.properties (Fields.update [] properties)
      = Fields.update m.properties properties := Fields.update_ofList hm properties
  rw [add_eq, add_eq m, add_eq, hproperties,
    foldl_keepFirst_foldl (· == ·) fun a b c hab hbc => by simp_all]

/-- Adding leaves keeps the names of the merged properties distinct. -/
theorem distinct_foldlM_addLeaf {m merged : Merged} (hm : m.properties.Distinct)
    {leaves : List Fields} (h : leaves.foldlM addLeaf m = .ok merged) :
    merged.properties.Distinct := by
  rw [foldlM_addLeaf] at h
  cases hnames : leaves.mapM readRequired with
  | error f => simp [hnames, bind, Except.bind] at h
  | ok required =>
    rw [hnames] at h
    obtain rfl := Except.ok.inj h
    exact hm.update _

/-- Adding one leaf keeps the names of the merged properties distinct. -/
theorem distinct_addLeaf {m merged : Merged} (hm : m.properties.Distinct) {leaf : Fields}
    (h : m.addLeaf leaf = .ok merged) : merged.properties.Distinct := by
  have hone : [leaf].foldlM addLeaf m = .ok merged := by
    rw [List.foldlM_cons, h]
    rfl
  exact distinct_foldlM_addLeaf hm hone

/-- A part that is put together itself may be added leaf by leaf. -/
theorem foldlM_addLeaf_inner {m : Merged} (hm : m.properties.Distinct) (leaves : List Fields) :
    (leaves.foldlM addLeaf {} >>= fun inner => .ok (m.add inner.properties inner.required))
      = leaves.foldlM addLeaf m := by
  rw [foldlM_addLeaf, foldlM_addLeaf]
  cases leaves.mapM readRequired with
  | error f => rfl
  | ok required => exact congrArg Except.ok (add_gathered hm _ _)

end Merged

namespace Expander

open Expansion Schema

variable {e : Expander} {schema : Fields} {chain : List String}

/-! ## Every schema has leaves -/

/-- Listed members have leaves, if there is room for every level below them. -/
theorem exists_flattened {n : Nat} {members : List Fields}
    (h : ∀ member ∈ members, Room e n member chain) :
    ∃ leaves, Flattened e.document chain members leaves := by
  -- Entering a part that is put together itself uses up a step; the members of one list do not.
  induction n using Nat.strong_induction_on generalizing members chain with
  | _ n ih =>
    induction members with
    | nil => exact ⟨[], .nil⟩
    | cons member rest ihrest =>
      obtain ⟨hmember, hrest⟩ := List.forall_mem_cons.mp h
      obtain ⟨leaves, hleaves⟩ := ihrest hrest
      have hfollows := follows_follow (e := e) (Session.faithful_empty _) member chain
      rcases hend : (e.followWithin (Reference.chainBound e.document) member chain {}).1
        with ⟨_ | target, chain'⟩ <;> rw [hend] at hfollows
      · exact ⟨leaves, .skipped hfollows hleaves⟩
      · by_cases hkind : kind target = .allOf
        · obtain ⟨m, rfl⟩ := Nat.exists_eq_add_one_of_ne_zero hmember.pos.ne'
          have htarget := (hmember.follows hfollows).1
          obtain ⟨inside, hinside⟩ := ih m (Nat.lt_succ_self m) fun part hpart =>
            htarget.member hpart
          exact ⟨_, .inner hfollows hkind hinside hleaves⟩
        · exact ⟨_, .leaf hfollows hkind hleaves⟩

/-- Every schema has leaves. -/
theorem exists_leaves (e : Expander) (schema : Fields) (chain : List String) :
    ∃ leaves, Leaves e.document chain schema leaves := by
  have hroom := room_mergeBound e schema chain
  obtain ⟨n, hn⟩ := Nat.exists_eq_add_one_of_ne_zero hroom.pos.ne'
  rw [hn] at hroom
  obtain ⟨listed, hlisted⟩ := exists_flattened fun member hmember => hroom.member hmember
  exact ⟨_, listed, hlisted, rfl⟩

/-! ## Putting a schema together -/

/-- Following references gives where they lead in the document. -/
theorem gives_follow {outcome : Option Fields × List String}
    (h : Follows e.document chain schema outcome) :
    Gives e.document (e.follow schema chain) (.ok outcome) := by
  intro s hs
  obtain ⟨t, hrun, ht⟩ := exists_run_of_follows hs h
  rw [hrun]
  exact ⟨rfl, ht⟩

/-- Reading the required names gives those that the schema says, or fails as it says. -/
theorem gives_requiredNames (schema : Fields) :
    Gives e.document (requiredNames schema) (readRequired schema) := by
  rw [requiredNames, readRequired]
  cases Schema.requiredNames schema with
  | none => exact gives_throw _
  | some names => exact gives_pure names

/-- Merging a part that is not put together from others adds it as a leaf. -/
theorem gives_mergePart_leaf {part : Fields × List String} (hkind : kind part.1 ≠ .allOf)
    (fuel : Nat) (m : Merged) :
    Gives e.document (e.mergePart fuel m part) (m.addLeaf part.1) := by
  rw [mergePart, if_neg hkind, Merged.addLeaf]
  exact (gives_requiredNames part.1).bind fun _ _ => gives_pure _

/-- Listed parts are found, and adding one after another adds their leaves. -/
structure Adds (e : Expander) (fuel : Nat) (members : List Fields) (chain : List String)
    (leaves : List Fields) (parts : List (Fields × List String)) : Prop where
  /-- The parts are found. -/
  found : Gives e.document (e.listedParts chain members) (.ok parts)
  /-- Their leaves are added. -/
  added {m : Merged} : m.properties.Distinct →
    Gives e.document (parts.foldlM (e.mergePart fuel) m) (leaves.foldlM Merged.addLeaf m)

/-- One level of parts is put together by adding the leaves behind the listed members, and then what
the schema says itself. -/
theorem Adds.gives_mergeWithin {fuel : Nat} {listed : List Fields}
    {parts : List (Fields × List String)}
    (h : Adds e fuel (members schema allOfKey) chain listed parts) :
    Gives e.document (e.mergeWithin (fuel + 1) schema chain)
      ((listed ++ [own schema]).foldlM Merged.addLeaf {}) := by
  have hparts : Gives e.document (e.parts schema chain) (.ok (parts ++ [(own schema, chain)])) :=
    h.found.bind_ok (gives_pure _)
  rw [mergeWithin_succ]
  refine hparts.bind_ok ?_
  rw [List.foldlM_append, List.foldlM_append]
  refine (h.added Fields.distinct_nil).bind fun m _ => ?_
  rw [List.foldlM_cons, List.foldlM_cons]
  exact (gives_mergePart_leaf (kind_own_ne_allOf schema) fuel m).bind fun _ _ => gives_pure _

/-- A part that is put together itself adds its own leaves. -/
theorem gives_mergePart_inner {part : Fields × List String} {leaves : List Fields} {fuel : Nat}
    (hkind : kind part.1 = .allOf)
    (h : Gives e.document (e.mergeWithin fuel part.1 part.2) (leaves.foldlM Merged.addLeaf {}))
    {m : Merged} (hm : m.properties.Distinct) :
    Gives e.document (e.mergePart fuel m part) (leaves.foldlM Merged.addLeaf m) := by
  rw [mergePart, if_pos hkind, ← Merged.foldlM_addLeaf_inner hm]
  exact h.bind fun _ _ => gives_pure _

/-- If the listed members have leaves and there is room, their parts are found, and adding these
adds the leaves. -/
theorem exists_adds {members leaves : List Fields} (h : Flattened e.document chain members leaves)
    {fuel : Nat} (hroom : ∀ member ∈ members, Room e fuel member chain) :
    ∃ parts, Adds e fuel members chain leaves parts := by
  induction h generalizing fuel with
  | nil => exact ⟨[], gives_pure _, fun _ => gives_pure _⟩
  | skipped hfollows _ ih =>
    obtain ⟨parts, hparts⟩ := ih (List.forall_mem_cons.mp hroom).2
    refine ⟨parts, ?_, hparts.added⟩
    rw [listedParts]
    exact (gives_follow hfollows).bind_ok ((gives_warn _).bind_ok hparts.found)
  | @leaf chain chain' member target rest leaves hfollows hkind _ ih =>
    obtain ⟨parts, hparts⟩ := ih (List.forall_mem_cons.mp hroom).2
    refine ⟨(target, chain') :: parts, ?_, fun {m} hm => ?_⟩
    · rw [listedParts]
      exact (gives_follow hfollows).bind_ok (hparts.found.bind_ok (gives_pure _))
    · rw [List.foldlM_cons, List.foldlM_cons]
      refine (gives_mergePart_leaf hkind fuel m).bind fun m' hm' => hparts.added ?_
      exact Merged.distinct_addLeaf hm hm'
  | @inner chain chain' member target rest inside leaves hfollows hkind _ _ ihinside ihrest =>
    obtain ⟨hmember, hrest⟩ := List.forall_mem_cons.mp hroom
    obtain ⟨parts, hparts⟩ := ihrest hrest
    -- The members of the part are one step further down than the part.
    have htarget := (hmember.follows hfollows).1
    obtain ⟨less, rfl⟩ := Nat.exists_eq_add_one_of_ne_zero htarget.pos.ne'
    have hroomInside : ∀ m ∈ Schema.members target allOfKey, Room e less m chain' :=
      fun m hm => htarget.member hm
    obtain ⟨partsInside, hinside⟩ := ihinside hroomInside
    refine ⟨(target, chain') :: parts, ?_, fun {m} hm => ?_⟩
    · rw [listedParts]
      exact (gives_follow hfollows).bind_ok (hparts.found.bind_ok (gives_pure _))
    · rw [List.foldlM_cons, List.foldlM_append]
      refine (gives_mergePart_inner hkind hinside.gives_mergeWithin hm).bind fun m' hm' => ?_
      exact hparts.added (Merged.distinct_foldlM_addLeaf hm hm')

/-- A schema is put together by adding its leaves one after another, from left to right. -/
theorem gives_merge {leaves : List Fields} (h : Leaves e.document chain schema leaves) :
    Gives e.document (e.merge schema chain) (leaves.foldlM Merged.addLeaf {}) := by
  obtain ⟨listed, hlisted, rfl⟩ := h
  have hroom := room_mergeBound e schema chain
  obtain ⟨n, hn⟩ := Nat.exists_eq_add_one_of_ne_zero hroom.pos.ne'
  rw [merge, hn]
  rw [hn] at hroom
  obtain ⟨parts, hparts⟩ := exists_adds hlisted fun member hmember => hroom.member hmember
  exact hparts.gives_mergeWithin

end Expander

end ClientGen
