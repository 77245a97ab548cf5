import ClientGen.Proofs.Expansion.Run

/-!
# Levels

What the limit on the depth of nesting can change about an expansion.

* `Expansion.Below`: the first computation ends as the second one does, unless it meets the limit.
* `Expander.below_resolve`: an expansion with a smaller limit is below one with a greater limit.
* `Expander.resolve_of_limit_le`: what an expansion returns, it returns under every greater limit.
-/

namespace ClientGen

namespace Expansion

variable {α β : Type} {document : Node}

/-- The first computation ends as the second one does, or it meets the limit before that and has
declared no other names. -/
def Below (x y : Expansion α) : Prop :=
  ∀ s : Session, x.run s = y.run s ∨ ∃ origin limit t,
    x.run s = (.error (.tooDeep origin limit), t) ∧ t.names <+: (y.run s).2.names

/-- A computation ends as it does itself. -/
theorem Below.refl (x : Expansion α) : Below x x := fun _ => .inl rfl

/-- What the first computation returns, the second one returns. -/
theorem Below.run_eq {x y : Expansion α} (h : Below x y) {s t : Session} {a : α}
    (hx : x.run s = (.ok a, t)) : y.run s = (.ok a, t) := by
  rcases h s with heq | ⟨origin, limit, u, hu, -⟩
  · rw [← heq, hx]
  · rw [hx] at hu
    simp at hu

/-- The names that the first computation declares are declared by the second one. -/
theorem Below.names {x y : Expansion α} (h : Below x y) (s : Session) :
    (x.run s).2.names <+: (y.run s).2.names := by
  rcases h s with heq | ⟨origin, limit, u, hu, hnames⟩
  · exact heq ▸ List.prefix_rfl
  · rwa [hu]

/-- A computation that meets the limit at once is below every one that loses no name. -/
theorem Grows.tooDeep_below {y : Expansion α} (hy : Grows document y) (origin : String)
    (limit : Int) : Below (throw (.tooDeep origin limit)) y :=
  fun s => .inr ⟨origin, limit, s, run_throw _ s, (hy s).names⟩

/-- A sequence stays below another one if its parts do and nothing is lost in the second parts. -/
theorem Below.bind {x y : Expansion α} {f g : α → Expansion β} (hxy : Below x y)
    (hfg : ∀ a, Below (f a) (g a)) (hg : ∀ a, Grows document (g a)) :
    Below (x >>= f) (y >>= g) := by
  intro s
  rcases hxy s with heq | ⟨origin, limit, u, hu, hnames⟩
  · rw [run_bind x f, run_bind y g, heq]
    rcases y.run s with ⟨e | a, t⟩
    · exact .inl rfl
    · exact hfg a t
  · -- The first part meets the limit; what the other one does behind it only adds names.
    refine .inr ⟨origin, limit, u, run_bind_of_error hu f, hnames.trans ?_⟩
    rcases hy : y.run s with ⟨e | a, t⟩
    · exact run_bind_of_error hy g ▸ List.prefix_rfl
    · rw [run_bind_of_ok hy]
      exact (hg a t).names

/-- Meeting a request stays below meeting it with more levels, if finding its declarations does. -/
theorem Below.once (r : Request) {x y : Expansion (List Declaration)} (hxy : Below x y)
    (hy : Grows document y) : Below (Expander.once r x) (Expander.once r y) := by
  have hafter : ∀ fresh : Bool, Grows document (if fresh then y else pure []) := by
    intro fresh
    split
    · exact hy
    · exact grows_pure _
  refine Below.bind (Below.refl _) (fun fresh => ?_) hafter
  split
  · exact hxy
  · exact Below.refl _

end Expansion

namespace Expander

open Expansion

variable (document : Node)

/-- Staying below a computation that loses no name is a relation that the steps of an expansion
respect. -/
theorem respected_below (e : Expander) :
    Respected e (m := Expansion) (n := Expansion) fun _ x y => Below x y ∧ Grows e.document y where
  pure a := ⟨Below.refl _, grows_pure a⟩
  bind hx hf := ⟨hx.1.bind (fun a => (hf a).1) fun a => (hf a).2, hx.2.bind fun a => (hf a).2⟩
  borrow hx := ⟨Below.refl _, hx.quiet.grows⟩

section Limit

variable (limit limit' : Int)

/-- Following references for a number of steps does not depend on the limit. -/
theorem followWithin_limit :
    followWithin ⟨document, limit⟩ = followWithin ⟨document, limit'⟩ := by
  delta followWithin
  rfl

/-- Following references does not depend on the limit. -/
theorem follow_limit : follow ⟨document, limit⟩ = follow ⟨document, limit'⟩ := by
  unfold follow
  rw [followWithin_limit document limit limit']

/-- Finding all parts of a schema does not depend on the limit. -/
theorem parts_limit : parts ⟨document, limit⟩ = parts ⟨document, limit'⟩ := by
  have hlisted : listedParts ⟨document, limit⟩ = listedParts ⟨document, limit'⟩ := by
    funext chain members
    induction members with
    | nil => rfl
    | cons member rest ih => rw [listedParts, listedParts, ih, follow_limit document limit limit']
  unfold parts
  rw [hlisted]

/-- Putting a schema together does not depend on the limit. -/
theorem merge_limit : merge ⟨document, limit⟩ = merge ⟨document, limit'⟩ := by
  have hwithin : mergeWithin ⟨document, limit⟩ = mergeWithin ⟨document, limit'⟩ := by
    funext fuel
    induction fuel with
    | zero => rfl
    | succ fuel ih =>
      funext schema chain
      rw [mergeWithin, mergeWithin, ih, parts_limit document limit limit']
  unfold merge
  rw [hwithin]
  rfl

/-- What is done at a level does not depend on the limit, except for what the failure says. -/
theorem declareStep_limit : @declareStep Expansion _ _ ⟨document, limit⟩
    = @declareStep Expansion _ _ ⟨document, limit'⟩ := by
  unfold declareStep body
  rw [follow_limit document limit limit', merge_limit document limit limit']

/-- One level of typing a schema depends on the limit only by what it does one level down. -/
theorem typeStep_limit :
    @typeStep Expansion _ _ ⟨document, limit⟩ = @typeStep Expansion _ _ ⟨document, limit'⟩ := by
  unfold typeStep
  rw [follow_limit document limit limit']

end Limit

/-- Fewer levels can only make an expansion meet the limit. -/
theorem level_below (limit limit' : Int) {left left' : Nat} (h : left ≤ left') :
    (∀ schema suffix place, Below (declare ⟨document, limit⟩ left schema suffix place)
      (declare ⟨document, limit'⟩ left' schema suffix place)) ∧
      ∀ node place, Below (propertyType ⟨document, limit⟩ left node place)
        (propertyType ⟨document, limit'⟩ left' node place) := by
  -- The induction is on the fewer levels: without any, the limit is met at once.
  induction left generalizing left' with
  | zero =>
    obtain ⟨hd, ht⟩ := grows_level ⟨document, limit'⟩ left'
    refine ⟨fun schema suffix place => ?_, fun node place => ?_⟩
    · rw [declare]
      exact (hd _ _ _).tooDeep_below _ _
    · rw [propertyType]
      exact (ht _ _).tooDeep_below _ _
  | succ left ih =>
    obtain ⟨left', rfl⟩ : ∃ n, left' = n + 1 := ⟨left' - 1, by omega⟩
    obtain ⟨ihd, iht⟩ := ih (Nat.le_of_succ_le_succ h)
    obtain ⟨hd, ht⟩ := grows_level ⟨document, limit'⟩ left'
    have hr := respected_below ⟨document, limit'⟩
    refine ⟨fun schema suffix place => ?_, fun node place => ?_⟩
    · rw [declare, declare, declareStep_limit document limit limit']
      exact (hr.declareStep (fun _ _ => ⟨iht _ _, ht _ _⟩)
        (fun r x y hxy => ⟨hxy.1.once r hxy.2, hxy.2.once r⟩)
        (fun _ _ => ⟨ihd _ _ _, hd _ _ _⟩) _ _ _).1
    · cases node with
      | object schema =>
        rw [propertyType, propertyType, map_eq_pure_bind, map_eq_pure_bind,
          typeStep_limit document limit limit']
        exact (hr.bind (hr.typeStep (fun _ _ => ⟨iht _ _, ht _ _⟩)
          (fun _ _ => ⟨ihd _ _ _, hd _ _ _⟩) _ _) fun _ => hr.pure _).1
      | _ =>
        rw [propertyType, propertyType]
        exact Below.refl _

/-- An expansion with a smaller limit is below one with a greater limit. -/
theorem below_resolve {limit limit' : Int} (h : limit ≤ limit') (node : Node)
    (base suffix origin : String) :
    Below (resolve ⟨document, limit⟩ node base suffix origin)
      (resolve ⟨document, limit'⟩ node base suffix origin) := by
  -- A larger limit gives more levels, and only an object uses them.
  have hlevels : levels ⟨document, limit⟩ ≤ levels ⟨document, limit'⟩ := by
    simp only [levels]
    omega
  by_cases hobject : ∃ schema, node = .object schema
  · obtain ⟨schema, rfl⟩ := hobject
    exact (level_below document limit limit' hlevels).1 _ _ _
  · -- Any other node is refused at level zero and needs no level otherwise.
    have hgrows := grows_resolve ⟨document, limit'⟩ node base suffix origin
    unfold resolve at hgrows ⊢
    split at hgrows
    · exact absurd ⟨_, rfl⟩ hobject
    · by_cases hzero : levels ⟨document, limit⟩ = 0
      · rw [if_pos hzero]
        exact hgrows.tooDeep_below _ _
      · rw [if_neg hzero, if_neg (by omega)]
        exact Below.refl _

/-- What an expansion returns under some limit, it returns under every greater one: the same
declarations, with the same names declared, the same warnings given and the same pointers
remembered. -/
theorem resolve_of_limit_le {limit limit' : Int} (h : limit ≤ limit') {node : Node}
    {base suffix origin : String} {s t : Session} {ds : List Declaration}
    (hrun : (resolve ⟨document, limit⟩ node base suffix origin).run s = (.ok ds, t)) :
    (resolve ⟨document, limit'⟩ node base suffix origin).run s = (.ok ds, t) :=
  (below_resolve document h node base suffix origin).run_eq hrun

/-- A document with an item that refers to the next one, and to an owner that is missing. -/
def chainedDocument : Node :=
  .object [(.text "Item", .object [(.text "properties", .object
    [(.text "next", .object [(.text "$ref", .text "#/Item")]),
      (.text "owner", .object [(.text "$ref", .text "#/Owner")])])])]

/-- The item is declared under two names, in a pass that has declared another name before. Its owner
is looked for each time, with a warning. A limit of 5 is enough. -/
theorem resolve_of_limit_le_chained :
    let item : Node := .object [(.text "$ref", .text "#/Item")]
    let s : Session := { names := ["IOther"] }
    ∃ ds t, (5 : Int) ≤ 64 ∧
      (resolve ⟨chainedDocument, 5⟩ item "First" "Response" "").run s = (.ok ds, t) ∧
      (resolve ⟨chainedDocument, 64⟩ item "First" "Response" "").run s = (.ok ds, t) ∧
      ds.map Declaration.name = ["IItem", "IFirstResponse"] ∧
      t.names = ["IOther", "IFirstResponse", "IItem"] ∧ t.warnings = List.replicate 2
        "Cannot resolve #/Owner at #/Item/properties/owner, typing it as any" := by
  intro item s
  have h : ∃ ds t,
      (resolve ⟨chainedDocument, 5⟩ item "First" "Response" "").run s = (.ok ds, t) ∧
      ds.map Declaration.name = ["IItem", "IFirstResponse"] ∧
      t.names = ["IOther", "IFirstResponse", "IItem"] ∧ t.warnings = List.replicate 2
        "Cannot resolve #/Owner at #/Item/properties/owner, typing it as any" :=
    ⟨_, _, rfl, by decide +kernel, by decide +kernel, by decide +kernel⟩
  obtain ⟨ds, t, hrun, hfound⟩ := h
  have hle : (5 : Int) ≤ 64 := by decide
  exact ⟨ds, t, hle, hrun, resolve_of_limit_le chainedDocument hle hrun, hfound⟩

end Expander

end ClientGen
