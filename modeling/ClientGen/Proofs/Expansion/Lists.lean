import ClientGen.Proofs.Expansion.Discipline
import ClientGen.Proofs.Expansion.Formed
import ClientGen.Proofs.Expansion.Pass
import ClientGen.Proofs.Expansion.Walks

/-!
# Lists around a declared schema

A schema may stand behind references and inside lists. Its declaration goes by the innermost schema,
and other files refer to it by the same name with the lists put back. The two are found by walks of
their own, one of which is limited in depth.

* `Counted`: an expansion that counts the lists that it goes through before it claims a name.
* `Expander.declareCounted`: the declarations of a schema, counted. The steps are those of
  `Expander.declare`.
* `Expander.counted_of_declare`: both walks go through the same number of lists.
* `Expander.resolve_declares_last`: what an expansion returns and declares, and how other files
  refer to it.
-/

namespace ClientGen

/-- An expansion that counts lists. -/
abbrev Counted := StateT Nat Expansion

namespace Counted

variable {α β : Type}

/-- The outcome of a counted expansion that starts with a count and in a session. -/
def run (x : Counted α) (n : Nat) (s : Session) : Except Failure (α × Nat) × Session :=
  Expansion.run (x n) s

/-- Counts one list. -/
def tick : Counted Unit := fun n => pure ((), n + 1)

/-- A list that is counted adds one to the count, and then the sequence goes on. -/
theorem run_tick_bind (f : Unit → Counted α) (n : Nat) (s : Session) :
    (tick >>= f).run n s = (f ()).run (n + 1) s := rfl

/-- What is not counted goes on with the same count. -/
theorem run_liftM_bind_of_ok {x : Expansion α} {f : α → Counted β} {s t : Session} {a : α}
    (h : x.run s = (.ok a, t)) (n : Nat) :
    ((liftM x : Counted α) >>= f).run n s = (f a).run n t := by
  have hbind : ((liftM x : Counted α) >>= f) n = x >>= fun a => f a n := by
    change (x >>= fun a => pure (a, n)) >>= (fun p => f p.1 p.2) = _
    simp
  rw [run, hbind, Expansion.run_bind_of_ok h]
  rfl

/-- What is not counted leaves the count as it is. -/
theorem run_liftM_of_ok {x : Expansion α} {s t : Session} {a : α} (h : x.run s = (.ok a, t))
    (n : Nat) : (liftM x : Counted α).run n s = (.ok (a, n), t) := by
  have hpure := run_liftM_bind_of_ok (f := pure) h n
  rwa [bind_pure] at hpure

end Counted

namespace Expander

open Expansion Schema

/-- `once`, counted. Inside the declarations nothing is counted any more. -/
def onceCounted (r : Request) (declarations : Counted (List Declaration)) :
    Counted (List Declaration) := do
  if ← (liftM (claim r.name) : Counted Bool) then declarations else return []

/-- `declare`, counted: a list is counted when its items are declared in its place. -/
def declareCounted (e : Expander) : Nat → Fields → String → Place → Counted (List Declaration)
  | 0, _, _, place => liftM (throw (.tooDeep place.origin e.limit) : Expansion (List Declaration))
  | left + 1, schema, suffix, place =>
    e.declareStep onceCounted
      (fun target place => do
        if kind schema = .array then Counted.tick
        declareCounted e left target suffix place)
      (fun node place => liftM (e.propertyType left node place)) schema suffix place

/-- `resolve`, counted. -/
def resolveCounted (e : Expander) (node : Node) (base suffix origin : String) :
    Counted (List Declaration) :=
  match node with
  | .object schema => e.declareCounted e.levels schema suffix { base, origin }
  | _ => liftM (e.resolve node base suffix origin)

variable {e : Expander}

/-! ## What is not counted -/

/-- Being an expansion in which nothing is counted is a relation that the steps of an expansion
respect. -/
theorem respected_lifted (e : Expander) :
    Respected e (m := Counted) (n := Expansion) fun _ x y => x = liftM y where
  pure a := (liftM_pure a).symm
  bind hx hf := by
    rw [hx, liftM_bind]
    exact congrArg _ (funext hf)
  borrow _ := rfl

/-- Inside a declaration nothing is counted. -/
theorem onceCounted_lifted (r : Request) (x : Expansion (List Declaration)) :
    onceCounted r (liftM x) = liftM (once r x) := by
  rw [onceCounted, once, liftM_bind]
  congr 1
  funext fresh
  split
  · rfl
  · exact (liftM_pure _).symm

/-- Finding the declaration of a request counts nothing. -/
theorem body_lifted (left : Nat) (r : Request) (kind : Kind) (place : Place) :
    e.body (fun node place => (liftM (e.propertyType left node place) : Counted Typed)) r kind place
      = liftM (e.body (e.propertyType left) r kind place) :=
  (respected_lifted e).body (fun _ _ => rfl) r kind place

/-! ## The two walks -/

/-- Declaring a schema goes through some number of lists, and so does the walk that finds the type
by which other files refer to it, if it has enough steps. -/
theorem counted_of_declare {left : Nat} {schema : Fields} {suffix : String} {place : Place}
    {s t : Session} {ds : List Declaration} {n : Nat} (hs : s.Faithful e.document)
    (hroom : Room e n schema place.chain)
    (h : (e.declare left schema suffix place).run s = (.ok ds, t)) :
    ∃ lists, (∀ count, (e.declareCounted left schema suffix place).run count s
        = (.ok (ds, count + lists), t)) ∧
      ∀ u : Session, u.Faithful e.document →
        ∃ v, (e.listsWithin n schema place.chain).run u = (.ok lists, v) := by
  -- The induction is on the levels. What bounds the other walk is carried along as `Room`.
  induction left generalizing schema place s n with
  | zero =>
    rw [declare] at h
    simp at h
  | succ left ih =>
    obtain ⟨m, rfl⟩ := Nat.exists_eq_add_one_of_ne_zero hroom.pos.ne'
    rw [declare, declareStep] at h
    simp only [declareCounted, declareStep, listsWithin]
    cases hkind : kind schema with
    | reference =>
      simp only [hkind, reduceCtorEq, if_false] at h ⊢
      obtain ⟨⟨_ | target, chain⟩, s', hfollow, h⟩ := run_bind_eq_ok_iff.mp h <;>
        change (e.follow schema place.chain).run s = _ at hfollow
      · -- The reference leads nowhere, so the name is claimed for what it says itself.
        obtain ⟨-, hnowhere⟩ := follows_of_run hs hfollow
        obtain ⟨_, s'', hwarn, h⟩ := run_bind_eq_ok_iff.mp h
        change (warn _).run s' = _ at hwarn
        refine ⟨0, fun count => ?_, fun u hu => ?_⟩
        · rw [Counted.run_liftM_bind_of_ok hfollow, Counted.run_liftM_bind_of_ok hwarn]
          rw [← liftM_pure (m := Expansion) (n := Counted), onceCounted_lifted]
          exact Counted.run_liftM_of_ok h count
        · obtain ⟨v, hv, -⟩ := exists_run_of_follows hu hnowhere
          exact ⟨v, by rw [run_bind_of_ok hv]; rfl⟩
      · obtain ⟨hs', hfollows⟩ := follows_of_run hs hfollow
        obtain ⟨lists, hcounted, hlists⟩ := ih hs' ((hroom.follows hfollows).2 hkind) h
        refine ⟨lists, fun count => ?_, fun u hu => ?_⟩
        · rw [Counted.run_liftM_bind_of_ok hfollow]
          exact hcounted count
        · obtain ⟨v, hv, hv'⟩ := exists_run_of_follows hu hfollows
          rw [run_bind_of_ok hv]
          exact hlists v hv'
    | array =>
      simp only [hkind, if_true] at h ⊢
      obtain ⟨lists, hcounted, hlists⟩ := ih hs (by exact hroom.items hkind) h
      refine ⟨lists + 1, fun count => ?_, fun u hu => ?_⟩
      · rw [Counted.run_tick_bind, hcounted]
        congr 3
        omega
      · obtain ⟨v, hv⟩ := hlists u hu
        exact ⟨v, by rw [run_bind_of_ok hv]; rfl⟩
    | _ =>
      -- Neither a reference nor a list: the name is claimed here.
      simp only [hkind] at h ⊢
      refine ⟨0, fun count => ?_, fun u hu => ⟨u, rfl⟩⟩
      rw [body_lifted, onceCounted_lifted]
      exact Counted.run_liftM_of_ok h count

/-! ## The last declaration -/

/-- The last declaration is that of the name. -/
def EndsWith (name : String) (ds : List Declaration) : Prop :=
  ∃ needs d, ds = needs ++ [d] ∧ d.name = name

/-- The interface that allows every key is the last declaration of its name. -/
theorem endsWith_openInterface (r : Request) (place : Place) :
    EndsWith r.name [openInterface r place] :=
  ⟨[], _, rfl, rfl⟩

/-- An interface is the last declaration of its name, behind what it needs. -/
theorem interface_endsWith (typeOf : Node → Place → Expansion Typed) (name : String)
    (comment : DocComment) (place : Place) (properties : Fields) (required : List String) :
    Returns (EndsWith name) (interface typeOf name comment place properties required) :=
  returns_then fun _ => returns_pure ⟨_, _, rfl, rfl⟩

/-- The declaration of a request comes last, whatever the kind of its schema. -/
theorem body_endsWith (typeOf : Node → Place → Expansion Typed) (r : Request) (kind : Kind)
    (place : Place) : Returns (EndsWith r.name) (e.body typeOf r kind place) := by
  unfold body
  dsimp only
  -- Put together from several, a choice, an object, anything else.
  split
  · refine returns_then fun merged => ?_
    split
    · exact returns_pure (endsWith_openInterface r place)
    · exact interface_endsWith _ _ _ _ _ _
  · exact returns_then fun _ => returns_pure ⟨_, _, rfl, rfl⟩
  · exact returns_then fun _ => interface_endsWith _ _ _ _ _ _
  · exact returns_pure (endsWith_openInterface r place)

/-- Nothing comes back for a name that is taken. For a free one the last declaration is its own. -/
def LastFor (name : String) (s : Session) (ds : List Declaration) : Prop :=
  name ∈ s.names ∧ ds = [] ∨ name ∉ s.names ∧ EndsWith name ds

/-- What comes back for a request is last for its name. -/
theorem lastFor_of_once {r : Request} {x : Expansion (List Declaration)}
    (hx : Returns (EndsWith r.name) x) {s t : Session} {ds : List Declaration}
    (h : (once r x).run s = (.ok ds, t)) : LastFor r.name s ds := by
  by_cases hmem : r.name ∈ s.names
  · rw [run_once_of_mem hmem] at h
    obtain ⟨rfl, -⟩ : [] = ds ∧ s = t := by simpa using h
    exact .inl ⟨hmem, rfl⟩
  · rw [run_once_of_not_mem hmem] at h
    exact .inr ⟨hmem, hx _ _ _ h⟩

/-- What comes back for a schema is last for the name of base and suffix. -/
theorem lastFor_of_declare {left : Nat} {schema : Fields} {base suffix : String} {place : Place}
    (hbase : place.base = base) {s t : Session} {ds : List Declaration}
    (h : (e.declare left schema suffix place).run s = (.ok ds, t)) :
    LastFor (Naming.interfaceName base suffix) s ds := by
  induction left generalizing schema place s with
  | zero =>
    rw [declare] at h
    simp at h
  | succ left ih =>
    rw [declare, declareStep] at h
    dsimp only at h
    -- References and lists hand over to another schema and claim nothing before that.
    split at h
    · obtain ⟨found, u, hfollow, h⟩ := run_bind_eq_ok_iff.mp h
      change (e.follow schema place.chain).run s = _ at hfollow
      rw [LastFor, ← e.names_of_follow hfollow]
      split at h
      · refine ih ?_ h
        exact hbase
      · obtain ⟨_, v, hwarn, h⟩ := run_bind_eq_ok_iff.mp h
        obtain ⟨-, rfl⟩ := Prod.mk.inj hwarn
        exact hbase ▸ lastFor_of_once (returns_pure (endsWith_openInterface _ _)) h
    · refine ih ?_ h
      exact hbase
    · exact hbase ▸ lastFor_of_once (body_endsWith _ _ _ _) h

/-! ## What an expansion returns, and how other files refer to it -/

/-- The expansion of a node that is no schema returns only if its name was declared before. -/
theorem eq_of_resolve_of_not_object {node : Node} (hnode : ∀ schema, node ≠ .object schema)
    {base suffix origin : String} {s t : Session} {ds : List Declaration}
    (h : (e.resolve node base suffix origin).run s = (.ok ds, t)) :
    Naming.interfaceName base suffix ∈ s.names ∧ ds = [] ∧ s = t := by
  unfold resolve at h
  split at h
  · exact absurd rfl (hnode _)
  · split at h
    · simp at h
    · by_cases hmem : Naming.interfaceName base suffix ∈ s.names
      · rw [run_bind_of_ok (run_claim_of_mem hmem)] at h
        obtain ⟨rfl, rfl⟩ : [] = ds ∧ s = t := by simpa using h
        exact ⟨hmem, rfl, rfl⟩
      · rw [run_bind_of_ok (run_claim_of_not_mem hmem)] at h
        simp at h

/-- After an expansion its name is declared, and what comes back is last for it. -/
theorem lastFor_of_resolve {node : Node} {base suffix origin : String} {s t : Session}
    {ds : List Declaration} (h : (e.resolve node base suffix origin).run s = (.ok ds, t)) :
    Naming.interfaceName base suffix ∈ t.names ∧
      LastFor (Naming.interfaceName base suffix) s ds := by
  by_cases hnode : ∃ schema, node = .object schema
  · obtain ⟨schema, rfl⟩ := hnode
    refine ⟨e.claims_resolve h, ?_⟩
    rw [resolve] at h
    refine lastFor_of_declare ?_ h
    rfl
  · obtain ⟨hmem, rfl, rfl⟩ := eq_of_resolve_of_not_object (not_exists.mp hnode) h
    exact ⟨hmem, .inl ⟨hmem, rfl⟩⟩

/-- An expansion and the type by which other files refer to its schema go through the same number
of lists. -/
theorem counted_of_resolve {node : Node} {base suffix origin : String} {s t : Session}
    {ds : List Declaration} (hs : s.Faithful e.document)
    (h : (e.resolve node base suffix origin).run s = (.ok ds, t)) :
    ∃ lists, (e.resolveCounted node base suffix origin).run 0 s = (.ok (ds, lists), t) ∧
      ∀ u : Session, u.Faithful e.document → ∃ v,
        (e.typeReference node base suffix).run u
          = (.ok ⟨Naming.interfaceName base suffix, lists⟩, v) := by
  by_cases hnode : ∃ schema, node = .object schema
  · obtain ⟨schema, rfl⟩ := hnode
    rw [resolve] at h
    obtain ⟨lists, hcounted, hlists⟩ := counted_of_declare hs (room_mergeBound e schema []) h
    refine ⟨lists, ?_, fun u hu => ?_⟩
    · rw [resolveCounted, hcounted, Nat.zero_add]
    · obtain ⟨v, hv⟩ := hlists u hu
      exact ⟨v, by rw [typeReference, run_bind_of_ok hv]; rfl⟩
  · -- A node that is no object has neither list levels nor a body to count in.
    have hother := not_exists.mp hnode
    refine ⟨0, ?_, fun u _ => ⟨u, ?_⟩⟩
    · cases node with
      | object schema => exact absurd rfl (hother schema)
      | _ => exact Counted.run_liftM_of_ok h 0
    · cases node with
      | object schema => exact absurd rfl (hother schema)
      | _ => rfl

/-- After an expansion its name is declared. Nothing comes back exactly if the name was declared
before; otherwise its declaration comes last, and no other one has that name. Other files refer to
the schema by the name, followed by a pair of brackets for each list that the expansion went through
before it claimed the name. -/
theorem resolve_declares_last {node : Node} {base suffix origin : String} {s t : Session}
    {ds : List Declaration} (hs : s.Faithful e.document)
    (h : (e.resolve node base suffix origin).run s = (.ok ds, t)) :
    Naming.interfaceName base suffix ∈ t.names ∧
      (ds = [] ↔ Naming.interfaceName base suffix ∈ s.names) ∧
      (ds ≠ [] → ∃ needs d, ds = needs ++ [d] ∧ d.name = Naming.interfaceName base suffix ∧
        ∀ other ∈ needs, other.name ≠ Naming.interfaceName base suffix) ∧
      ∃ lists, (e.resolveCounted node base suffix origin).run 0 s = (.ok (ds, lists), t) ∧
        ∀ u : Session, u.Faithful e.document → ∃ r v,
          (e.typeReference node base suffix).run u = (.ok r, v) ∧
            r.text = Naming.interfaceName base suffix ++ String.join (List.replicate lists "[]") := by
  obtain ⟨hmem, hlast⟩ := lastFor_of_resolve h
  obtain ⟨lists, hcounted, href⟩ := counted_of_resolve hs h
  refine ⟨hmem, ⟨fun hnil => ?_, fun htaken => ?_⟩, fun hne => ?_, lists, hcounted, fun u hu => ?_⟩
  · rcases hlast with ⟨htaken, -⟩ | ⟨-, needs, d, rfl, -⟩
    · exact htaken
    · simp at hnil
  · rcases hlast with ⟨-, hnil⟩ | ⟨hfree, -⟩
    · exact hnil
    · exact absurd htaken hfree
  · obtain ⟨needs, d, rfl, hname⟩ := (hlast.resolve_left fun h => hne h.2).2
    refine ⟨needs, d, rfl, hname, fun other hother heq => ?_⟩
    -- No name is declared twice.
    obtain ⟨events, hcourse⟩ := e.course_of_resolve h
    obtain ⟨added, -, hperm, hnodup, -⟩ := hcourse.names_eq
    have hnames := hperm.nodup_iff.mp hnodup
    rw [List.map_append, List.nodup_append] at hnames
    have hboth := hnames.2.2 _ (List.mem_map_of_mem hother) d.name (by simp)
    exact hboth (heq.trans hname.symm)
  · obtain ⟨v, hv⟩ := href u hu
    exact ⟨_, v, hv, rfl⟩

/-- A list of lists of objects, behind two references. -/
def matrixDocument : Node :=
  .object [(.text "Matrix", pointing "#/Rows"),
    (.text "Rows", .object [(.text "items", .object [(.text "items", pointing "#/Cell")])]),
    (.text "Cell", .object (withProperties [(.text "value", .object [])]))]

/-- The declaration goes by the cell, and the type by which other files refer to it names the two
lists. -/
theorem resolve_declares_last_matrix :
    ∃ ds t, ({} : Session).Faithful matrixDocument ∧
      ((Expander.mk matrixDocument 64).resolve (pointing "#/Matrix") "Get" "Response" "").run {}
        = (.ok ds, t) ∧
      Naming.interfaceName "Get" "Response" ∈ t.names ∧
      (ds = [] ↔ Naming.interfaceName "Get" "Response" ∈ ({} : Session).names) ∧
      (ds ≠ [] → ∃ needs d, ds = needs ++ [d] ∧ d.name = Naming.interfaceName "Get" "Response" ∧
        ∀ other ∈ needs, other.name ≠ Naming.interfaceName "Get" "Response") ∧
      ∃ lists, ((Expander.mk matrixDocument 64).resolveCounted (pointing "#/Matrix") "Get"
          "Response" "").run 0 {} = (.ok (ds, lists), t) ∧
        ∀ u : Session, u.Faithful matrixDocument → ∃ r v,
          ((Expander.mk matrixDocument 64).typeReference (pointing "#/Matrix") "Get"
            "Response").run u = (.ok r, v) ∧
            r.text = Naming.interfaceName "Get" "Response"
              ++ String.join (List.replicate lists "[]") :=
  ⟨_, _, Session.faithful_empty _, rfl, resolve_declares_last (Session.faithful_empty _) rfl⟩

end Expander

end ClientGen
