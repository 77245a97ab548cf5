import ClientGen.Proofs.Expansion.Run
import ClientGen.Proofs.Schema.Calls

/-!
# Outcomes of expansions

How an expansion can end, depending on what the schema at its start calls for.

* `Expansion.Admits`: the computation returns a result with a given property, or fails in an allowed
  way.
* `Expander.admits_follow`, `Expander.admits_parts`, `Expander.admits_merge`: what following
  references and putting a schema together come to.
* `Expander.admits_level`: an expansion admits no failures but those that some job on its way
  allows.
-/

namespace ClientGen

namespace Expansion

variable {α β : Type} {document : Node} {allowed : Failure → Prop} {P : α → Prop} {Q : β → Prop}

/-- In every session with a faithful memory, the computation returns a result with the property and
leaves the memory faithful, or it fails in an allowed way. -/
structure Admits (document : Node) (allowed : Failure → Prop) (P : α → Prop) (x : Expansion α) :
    Prop where
  /-- What returns has the property. -/
  returns {s t : Session} {a : α} :
    s.Faithful document → x.run s = (.ok a, t) → t.Faithful document ∧ P a
  /-- What fails is allowed to. -/
  fails {s t : Session} {f : Failure} : s.Faithful document → x.run s = (.error f, t) → allowed f

/-- Returning a result with the property is admitted. -/
theorem admits_pure {a : α} (h : P a) : Admits document allowed P (pure a) where
  returns hs hrun := by
    obtain ⟨rfl, rfl⟩ := by simpa using hrun
    exact ⟨hs, h⟩
  fails _ hrun := by simp at hrun

/-- Failing in an allowed way is admitted. -/
theorem admits_throw {f : Failure} (h : allowed f) :
    Admits document allowed P (throw f : Expansion α) where
  returns _ hrun := by simp at hrun
  fails _ hrun := by
    obtain ⟨rfl, -⟩ := by simpa using hrun
    exact h

/-- Giving a warning is admitted. -/
theorem admits_warn (w : String) :
    Admits document allowed (fun _ => True) (Expander.warn w) where
  returns hs hrun := by
    obtain rfl := by simpa using hrun
    exact ⟨hs, trivial⟩
  fails _ hrun := by simp at hrun

/-- A sequence is admitted if its first part is, and its second part for all results of the
first. -/
theorem Admits.bind {x : Expansion α} {f : α → Expansion β} (hx : Admits document allowed P x)
    (hf : ∀ a, P a → Admits document allowed Q (f a)) : Admits document allowed Q (x >>= f) where
  returns hs hrun := by
    obtain ⟨a, t, hxa, hfa⟩ := run_bind_eq_ok_iff.mp hrun
    obtain ⟨ht, ha⟩ := hx.returns hs hxa
    exact (hf a ha).returns ht hfa
  fails {s _ _} hs hrun := by
    rcases h : x.run s with ⟨e | a, t⟩
    · rw [run_bind_of_error h] at hrun
      obtain ⟨rfl, rfl⟩ := by simpa using hrun
      exact hx.fails hs h
    · rw [run_bind_of_ok h] at hrun
      obtain ⟨ht, ha⟩ := hx.returns hs h
      exact (hf a ha).fails ht hrun

/-- What is admitted stays so if more failures are allowed and less is asked of results. -/
theorem Admits.mono {R : α → Prop} {allowed' : Failure → Prop} {x : Expansion α}
    (hx : Admits document allowed P x) (hf : ∀ f, allowed f → allowed' f) (h : ∀ a, P a → R a) :
    Admits document allowed' R x where
  returns hs hrun := (hx.returns hs hrun).imp_right (h _)
  fails hs hrun := hf _ (hx.fails hs hrun)

/-- What must not fail returns. -/
theorem Admits.exists_run_eq_ok {x : Expansion α} (hx : Admits document (fun _ => False) P x)
    {s : Session} (hs : s.Faithful document) : ∃ a t, x.run s = (.ok a, t) ∧ P a := by
  rcases hrun : x.run s with ⟨f | a, t⟩
  · exact (hx.fails hs hrun).elim
  · exact ⟨a, t, rfl, (hx.returns hs hrun).2⟩

/-- Going through a list is admitted if each step keeps what is asked of the result. -/
theorem admits_foldlM {f : β → α → Expansion β} {xs : List α}
    (hf : ∀ b, Q b → ∀ x ∈ xs, Admits document allowed Q (f b x)) {b : β} (hb : Q b) :
    Admits document allowed Q (xs.foldlM f b) := by
  induction xs generalizing b with
  | nil => exact admits_pure hb
  | cons x xs ih =>
    rw [List.foldlM_cons]
    refine (hf b hb x List.mem_cons_self).bind fun b' hb' => ?_
    exact ih (fun b hb y hy => hf b hb y (List.mem_cons_of_mem _ hy)) hb'

/-- What every step establishes of its item holds of all items in the end. -/
theorem admits_foldlM_forall {R : α → Prop} {f : β → α → Expansion β} {xs : List α}
    (hf : ∀ b, ∀ x ∈ xs, Admits document allowed (fun _ => R x) (f b x)) (b : β) :
    Admits document allowed (fun _ => ∀ x ∈ xs, R x) (xs.foldlM f b) := by
  induction xs generalizing b with
  | nil => exact admits_pure (by simp)
  | cons x xs ih =>
    rw [List.foldlM_cons]
    refine (hf b x List.mem_cons_self).bind fun b' hx => ?_
    have hrest := ih (fun b y hy => hf b y (List.mem_cons_of_mem _ hy)) b'
    exact hrest.mono (fun _ => id) fun _ hxs => List.forall_mem_cons.mpr ⟨hx, hxs⟩

/-- With a step among them that never returns, several steps never return. -/
theorem admits_foldlM_stuck {f : β → α → Expansion β} {xs : List α}
    (hf : ∀ b, ∀ x ∈ xs, Admits document allowed (fun _ => True) (f b x)) {stuck : α}
    (hmem : stuck ∈ xs) (hstuck : ∀ b, Admits document allowed (fun _ => False) (f b stuck))
    (b : β) : Admits document allowed (fun _ => False) (xs.foldlM f b) := by
  have hother : ∀ b, ∀ x ∈ xs, Admits document allowed (fun _ => x ≠ stuck) (f b x) := by
    intro b x hx
    by_cases heq : x = stuck
    · subst heq
      exact (hstuck b).mono (fun _ => id) fun _ => False.elim
    · exact (hf b x hx).mono (fun _ => id) fun _ _ => heq
  exact (admits_foldlM_forall hother b).mono (fun _ => id) fun _ hnone => hnone stuck hmem rfl

/-- A claim never fails. -/
theorem admits_claim (name : String) :
    Admits document allowed (fun _ => True) (Expander.claim name) where
  returns {s _ _} hs hrun := by
    have ht := (grows_claim name s).faithful hs
    rw [hrun] at ht
    exact ⟨ht, trivial⟩
  fails {s _ _} _ hrun := by
    by_cases hmem : name ∈ s.names
    · simp [run_claim_of_mem hmem] at hrun
    · simp [run_claim_of_not_mem hmem] at hrun

/-- A request fails only as its declarations do. -/
theorem Admits.once (r : Request) {x : Expansion (List Declaration)}
    (hx : Admits document allowed (fun _ => True) x) :
    Admits document allowed (fun _ => True) (Expander.once r x) := by
  refine (admits_claim r.name).bind fun fresh _ => ?_
  split
  · exact hx
  · exact admits_pure trivial

/-! ## Outcomes that do not depend on the session -/

/-- In all sessions with a faithful memory, the computation has the same outcome and leaves the
memory faithful. -/
def Steady (document : Node) (x : Expansion α) : Prop :=
  ∀ s t : Session, s.Faithful document → t.Faithful document →
    (x.run s).1 = (x.run t).1 ∧ (x.run s).2.Faithful document

/-- A sequence of steady parts is steady. -/
theorem Steady.bind {x : Expansion α} {f : α → Expansion β} (hx : Steady document x)
    (hf : ∀ a, Steady document (f a)) : Steady document (x >>= f) := by
  intro s t hs ht
  obtain ⟨houtcome, hs'⟩ := hx s t hs ht
  obtain ⟨-, ht'⟩ := hx t s ht hs
  rw [run_bind, run_bind]
  rcases hxs : x.run s with ⟨r, s'⟩
  rcases hxt : x.run t with ⟨r', t'⟩
  rw [hxs, hxt] at houtcome
  rw [hxs] at hs'
  rw [hxt] at ht'
  obtain rfl : r = r' := houtcome
  cases r with
  | error e => exact ⟨rfl, hs'⟩
  | ok a => exact hf a s' t' hs' ht'

/-- What a steady computation returns, it returns in a new session. -/
theorem Steady.admits {x : Expansion α} (h : Steady document x) (hx : Admits document allowed P x) :
    Admits document allowed (fun a => P a ∧ (x.run {}).1 = .ok a) x where
  returns {s t a} hs hrun := by
    obtain ⟨ht, ha⟩ := hx.returns hs hrun
    have houtcome := (h s {} hs (Session.faithful_empty document)).1
    rw [hrun] at houtcome
    exact ⟨ht, ha, houtcome.symm⟩
  fails := hx.fails

/-- Looking at schemas and for schemas is steady. -/
theorem steady_reading (document : Node) : Reading document fun _ x => Steady document x where
  pure _ _ _ hs _ := ⟨rfl, hs⟩
  throw _ _ _ hs _ := ⟨rfl, hs⟩
  bind hx hf := hx.bind hf
  warn _ _ _ hs _ := ⟨rfl, hs⟩
  lookUp pointer s t hs ht := by
    refine ⟨?_, (Reference.lookUp_precedes document pointer s).2.faithful hs⟩
    change Except.ok (Reference.lookUp document pointer s).1 = Except.ok _
    rw [Reference.lookUp_eq hs, ← Reference.lookUp_eq ht]
    rfl

end Expansion

namespace Expander

open Expansion Schema

variable (e : Expander) {allowed : Failure → Prop}

/-! ## Looking at schemas -/

/-- Following references never fails: it takes as many steps as the document bounds. -/
theorem run_follow (schema : Fields) (chain : List String) (s : Session) :
    (e.follow schema chain).run s =
      (.ok (e.followWithin (Reference.chainBound e.document) schema chain s).1,
        (e.followWithin (Reference.chainBound e.document) schema chain s).2) := rfl

/-- What following references finds in a faithful memory, they lead to in the document. -/
theorem leads_of_followWithin {fuel : Nat} {schema target : Fields} {chain chain' : List String}
    {s : Session} (hs : s.Faithful e.document)
    (h : (e.followWithin fuel schema chain s).1 = (some target, chain')) :
    Leads e.document schema target := by
  induction fuel generalizing schema chain s with
  | zero =>
    -- Without a step left nothing is found.
    exact absurd (congrArg Prod.fst h) (Option.some_ne_none target).symm
  | succ fuel ih =>
    rw [followWithin_succ] at h
    split at h
    · rename_i hnone
      obtain ⟨rfl, -⟩ : schema = target ∧ chain = chain' := by simpa using h
      exact .here hnone
    · rename_i pointer hpointer
      -- Only a pointer that is not on the chain yet and names an object is followed.
      split at h
      · simp at h
      · have hl := Reference.lookUp_precedes e.document pointer s
        split at h
        · simp at h
        · rename_i found u hfound
          have hresolve : Pointer.resolve e.document pointer = some (.object found) :=
            (Reference.lookUp_eq_some_iff hs).mp (by rw [hfound])
          rw [hfound] at hl
          exact .along hpointer hresolve (ih (hl.2.faithful hs) h)

/-- Following references never fails, and finds what they lead to. -/
theorem admits_follow (schema : Fields) (chain : List String) :
    Admits e.document allowed (fun found => ∀ target, found.1 = some target →
      Leads e.document schema target) (e.follow schema chain) where
  returns {s _ _} hs hrun := by
    have ht := (e.quiet_follow schema chain s).2.faithful hs
    rw [hrun] at ht
    rw [run_follow] at hrun
    obtain ⟨rfl, -⟩ := by simpa using hrun
    exact ⟨ht, fun target htarget => leads_of_followWithin e hs (Prod.ext htarget rfl)⟩
  fails _ hrun := by
    rw [run_follow] at hrun
    simp at hrun

/-- Listing parts is admitted, and each part is where some member leads. -/
theorem admits_listedParts (chain : List String) (members : List Fields) :
    Admits e.document allowed (fun parts => ∀ part ∈ parts, ∃ member ∈ members,
      Leads e.document member part.1) (e.listedParts chain members) := by
  induction members with
  | nil => exact admits_pure (by simp)
  | cons member rest ih =>
    have hrest := ih.mono (fun _ => id) fun parts h part hpart =>
      let ⟨m, hm, hleads⟩ := h part hpart
      (⟨m, List.mem_cons_of_mem _ hm, hleads⟩ : ∃ m ∈ member :: rest, Leads e.document m part.1)
    rw [listedParts]
    refine (admits_follow e member chain).bind fun found hfound => ?_
    obtain ⟨_ | part, partChain⟩ := found
    · exact (admits_warn _).bind fun _ _ => hrest
    · refine hrest.bind fun parts hparts => admits_pure fun p hp => ?_
      rcases List.mem_cons.mp hp with rfl | hp
      · exact ⟨member, List.mem_cons_self, hfound part rfl⟩
      · exact hparts p hp

/-- The parts of a schema are always found. -/
theorem admits_parts (schema : Fields) (chain : List String) :
    Admits e.document allowed (fun parts => ∀ part ∈ parts, PartOf e.document schema part.1)
      (e.parts schema chain) := by
  refine (admits_listedParts e chain (members schema allOfKey)).bind fun listed hlisted => ?_
  refine admits_pure fun part hpart => ?_
  rcases List.mem_append.mp hpart with hpart | hpart
  · obtain ⟨member, hmember, hleads⟩ := hlisted part hpart
    exact .listed hmember hleads
  · obtain rfl := List.mem_singleton.mp hpart
    exact .own

/-- Required names that cannot be read are the only way for their reading to fail. -/
theorem admits_requiredNames {document : Node} {schema : Fields}
    (h : Schema.requiredNames schema = none → allowed .notIterable) :
    Admits document allowed (fun _ => True) (requiredNames schema) := by
  unfold requiredNames
  split
  · exact admits_pure trivial
  · rename_i hnone
    exact admits_throw (h hnone)

/-- Putting a schema together is admitted, if it may fail because of parts whose required names
cannot be read; every property comes from a part that contributes. -/
theorem admits_mergeWithin (fuel : Nat) {schema : Fields} (chain : List String)
    (hreads : ∀ part, Contributes e.document schema part → Schema.requiredNames part = none →
      allowed .notIterable) :
    Admits e.document allowed (fun merged => ∀ key node, (key, node) ∈ merged.properties →
      ∃ part k, Contributes e.document schema part ∧ (k, node) ∈ fieldsUnder part "properties")
      (e.mergeWithin fuel schema chain) := by
  induction fuel generalizing schema chain with
  | zero => exact admits_pure (by simp)
  | succ fuel ih =>
    rw [mergeWithin]
    refine (admits_parts e schema chain).bind fun parts hparts => ?_
    -- What is merged so far comes from schemas that contribute, and so does what is added.
    refine admits_foldlM (fun merged hmerged part hpart => ?_) (by simp)
    have hpartOf := hparts part hpart
    split
    · rename_i hkind
      refine (ih part.2 fun p hp => hreads p (.inner hpartOf hkind hp)).bind fun inner hinner => ?_
      refine admits_pure fun key node hmem => ?_
      obtain ⟨k, hk | hk⟩ := Fields.exists_mem_of_mem_update hmem
      · exact hmerged k node hk
      · obtain ⟨p, k', hp, hnode⟩ := hinner k node hk
        exact ⟨p, k', .inner hpartOf hkind hp, hnode⟩
    · rename_i hkind
      have hcontributes := Contributes.part hpartOf hkind
      refine (admits_requiredNames (hreads _ hcontributes)).bind fun required _ => ?_
      refine admits_pure fun key node hmem => ?_
      obtain ⟨k, hk | hk⟩ := Fields.exists_mem_of_mem_update hmem
      · exact hmerged k node hk
      · exact ⟨part.1, k, hcontributes, hk⟩

/-- Putting a schema together fails only if the required names of a schema that contributes to it
cannot be read. Its properties are those of the schemas that contribute. -/
theorem admits_merge {schema : Fields} (chain : List String)
    (hreads : ∀ part, Contributes e.document schema part → Schema.requiredNames part = none →
      allowed .notIterable) :
    Admits e.document allowed (fun merged => ∀ key node, (key, node) ∈ merged.properties →
      ∃ part k, Contributes e.document schema part ∧ (k, node) ∈ fieldsUnder part "properties")
      (e.merge schema chain) :=
  admits_mergeWithin e _ chain hreads

/-- A type that needs no declaration is always found. -/
theorem admits_plainType {document : Node} (schema : Fields) (origin : String) :
    Admits document allowed (fun _ => True) (plainType schema origin) := by
  unfold plainType
  split
  · split
    · exact admits_pure trivial
    · split
      · exact admits_pure trivial
      · exact (admits_warn _).bind fun _ _ => admits_pure trivial
  · exact admits_pure trivial

/-! ## Steps -/

section Steps

variable {e} {typeOf : Node → Place → Expansion Typed}
  {again : Fields → Place → Expansion (List Declaration)}

/-- Typing a choice is admitted if typing each of its options is. -/
theorem admits_choiceType {schema : Fields}
    (h : ∀ option ∈ (choices schema).2, ∀ place,
      Admits e.document allowed (fun _ => True) (typeOf (.object option) place)) (place : Place) :
    Admits e.document allowed (fun _ => True) (choiceType typeOf place schema) := by
  have htypes : ∀ key i, Admits e.document allowed (fun _ => True)
      (choiceTypes typeOf place key (choices schema).2 i) := by
    intro key
    generalize (choices schema).2 = options at h
    induction options with
    | nil => exact fun i => admits_pure trivial
    | cons option rest ih =>
      intro i
      have hrest := ih (fun o ho => h o (List.mem_cons_of_mem _ ho)) (i + 1)
      rw [choiceTypes]
      refine (h option List.mem_cons_self _).bind fun _ _ => ?_
      exact hrest.bind fun _ _ => admits_pure trivial
  exact (htypes _ _).bind fun _ _ => admits_pure trivial

/-- Declaring an interface is admitted if typing each of its properties is. -/
theorem admits_interface {properties : Fields}
    (h : ∀ key node, (key, node) ∈ properties → ∀ place,
      Admits e.document allowed (fun _ => True) (typeOf node place))
    (name : String) (comment : DocComment) (place : Place) (required : List String) :
    Admits e.document allowed (fun _ => True)
      (interface typeOf name comment place properties required) := by
  have hproperties : Admits e.document allowed (fun _ => True)
      (interfaceProperties typeOf place required properties) := by
    induction properties with
    | nil => exact admits_pure trivial
    | cons field rest ih =>
      obtain ⟨key, node⟩ := field
      have hrest := ih fun k v hv => h k v (List.mem_cons_of_mem _ hv)
      rw [interfaceProperties]
      refine (h key node List.mem_cons_self _).bind fun _ _ => ?_
      exact hrest.bind fun _ _ => admits_pure trivial
  exact hproperties.bind fun _ _ => admits_pure trivial

/-- The declaration of a claimed name fails only as the types inside its schema do, or because of
required names that cannot be read. -/
theorem admits_body {r : Request}
    (ht : ∀ node place, Calls e.document (.declare r.schema) (.type node) →
      Admits e.document allowed (fun _ => True) (typeOf node place))
    (hreads : ∀ schema, Reads e.document r.schema schema → Schema.requiredNames schema = none →
      allowed .notIterable) {kind : Kind} (hkind : Schema.kind r.schema = kind) (place : Place) :
    Admits e.document allowed (fun _ => True) (e.body typeOf r kind place) := by
  unfold body
  dsimp only
  -- A schema put together from several, a choice, an object, and any other kind.
  split
  · refine (admits_merge e place.chain fun part hpart =>
      hreads part (.merged hkind hpart)).bind fun merged hmerged => ?_
    split
    · exact admits_pure trivial
    · refine admits_interface (fun key node hnode place => ht node place ?_) _ _ _ _
      obtain ⟨part, k, hpart, hnode⟩ := hmerged key node hnode
      exact .merged hkind hpart hnode
  · have hchoice := admits_choiceType fun option hoption place =>
      ht (.object option) place (.option hkind hoption)
    exact (hchoice _).bind fun _ _ => admits_pure trivial
  · refine (admits_requiredNames (hreads _ (.object hkind))).bind fun required _ => ?_
    refine admits_interface (fun key node hnode place => ?_) _ _ _ _
    exact ht node place (.property hkind hnode)
  · exact admits_pure trivial

/-- One level of declaring a schema fails only as the jobs that it calls for do, or because of
required names that cannot be read. -/
theorem admits_declareStep {schema : Fields}
    (hd : ∀ target place, Calls e.document (.declare schema) (.declare target) →
      Admits e.document allowed (fun _ => True) (again target place))
    (ht : ∀ node place, Calls e.document (.declare schema) (.type node) →
      Admits e.document allowed (fun _ => True) (typeOf node place))
    (hreads : ∀ t, Reads e.document schema t → Schema.requiredNames t = none →
      allowed .notIterable) (suffix : String) (place : Place) :
    Admits e.document allowed (fun _ => True)
      (e.declareStep once again typeOf schema suffix place) := by
  unfold declareStep
  dsimp only
  split
  · rename_i hkind
    refine (admits_follow e schema place.chain).bind fun found hfound => ?_
    split
    · exact hd _ _ (.target hkind (hfound _ rfl))
    · exact (admits_warn _).bind fun _ _ => (admits_pure trivial).once _
  · rename_i hkind
    exact hd _ _ (.items hkind)
  · exact (admits_body ht hreads rfl place).once _

/-- One level of typing a schema fails only as the jobs that it calls for do. -/
theorem admits_typeStep {schema : Fields}
    (hd : ∀ target place, Calls e.document (.type (.object schema)) (.declare target) →
      Admits e.document allowed (fun _ => True) (again target place))
    (ht : ∀ node place, Calls e.document (.type (.object schema)) (.type node) →
      Admits e.document allowed (fun _ => True) (typeOf node place)) (place : Place) :
    Admits e.document allowed (fun _ => True) (e.typeStep again typeOf schema place) := by
  unfold typeStep
  -- One goal for each kind, in the order of the definition.
  split
  · rename_i hkind
    refine (admits_follow e schema place.chain).bind fun found hfound => ?_
    split
    · exact (admits_warn _).bind fun _ _ => admits_pure trivial
    · have hleads := hfound _ rfl
      split
      · rename_i hstructural
        exact (hd _ _ (.behind hkind hleads hstructural)).bind fun _ _ => admits_pure trivial
      · rename_i hplain
        exact ht _ _ (.through hkind hleads hplain)
  · rename_i hkind
    exact (hd _ _ (.named (.inl hkind))).bind fun _ _ => admits_pure trivial
  · rename_i hkind
    exact (hd _ _ (.named (.inr hkind))).bind fun _ _ => admits_pure trivial
  · rename_i hkind
    exact admits_choiceType (fun option hoption place => ht _ _ (.choice hkind hoption)) place
  · exact admits_pure trivial
  · rename_i hkind
    exact (ht _ _ (.item hkind)).bind fun _ _ => admits_pure trivial
  · rename_i hkind
    split
    · rename_i hget
      exact (ht _ _ (.value hkind hget (List.cons_ne_nil _ _))).bind fun _ _ => admits_pure trivial
    · exact admits_pure trivial
  · exact (admits_plainType _ _).bind fun _ _ => admits_pure trivial
  · exact (admits_plainType _ _).bind fun _ _ => admits_pure trivial

end Steps

variable (allowed) in
/-- What is fine for a number of levels is fine, one level down, for all that it calls for. Then an
expansion fails only at the last level, or because of required names that cannot be read. -/
theorem admits_level (Fine : Nat → Job → Prop)
    (hdeep : ∀ job, Fine 0 job → ∀ origin, allowed (.tooDeep origin e.limit))
    (hcalls : ∀ left job job', Fine (left + 1) job → Calls e.document job job' → Fine left job')
    (hreads : ∀ left schema t, Fine (left + 1) (.declare schema) → Reads e.document schema t →
      Schema.requiredNames t = none → allowed .notIterable) (left : Nat) :
    (∀ schema suffix place, Fine left (.declare schema) →
      Admits e.document allowed (fun _ => True) (e.declare left schema suffix place)) ∧
    ∀ node place, Fine left (.type node) →
      Admits e.document allowed (fun _ => True) (e.propertyType left node place) := by
  -- Both functions at once, since each calls the other one level down.
  induction left with
  | zero =>
    refine ⟨fun schema suffix place h => ?_, fun node place h => ?_⟩
    · rw [declare]
      exact admits_throw (hdeep _ h _)
    · rw [propertyType]
      exact admits_throw (hdeep _ h _)
  | succ left ih =>
    obtain ⟨ihd, iht⟩ := ih
    refine ⟨fun schema suffix place h => ?_, fun node place h => ?_⟩
    · rw [declare]
      exact admits_declareStep (fun _ _ hcall => ihd _ _ _ (hcalls _ _ _ h hcall))
        (fun _ _ hcall => iht _ _ (hcalls _ _ _ h hcall)) (fun t => hreads _ _ t h) _ _
    · cases node with
      | object schema =>
        rw [propertyType, map_eq_pure_bind]
        refine (admits_typeStep (fun _ _ hcall => ihd _ _ _ (hcalls _ _ _ h hcall))
          (fun _ _ hcall => iht _ _ (hcalls _ _ _ h hcall)) _).bind fun _ _ => admits_pure trivial
      | _ =>
        rw [propertyType]
        exact admits_pure trivial

/-! ## References to types -/

/-- Counting lists is admitted, whatever may fail. -/
theorem admits_listsWithin (fuel : Nat) (schema : Fields) (chain : List String) :
    Admits e.document allowed (fun _ => True) (e.listsWithin fuel schema chain) := by
  induction fuel generalizing schema chain with
  | zero => exact admits_pure trivial
  | succ fuel ih =>
    rw [listsWithin]
    split
    · refine (admits_follow e schema chain).bind fun found _ => ?_
      split
      · exact ih _ _
      · exact admits_pure trivial
    · exact (ih _ _).bind fun _ _ => admits_pure trivial
    · exact admits_pure trivial

/-- Finding the type by which other files refer to a schema never fails. -/
theorem admits_typeReference (schema : Fields) (base suffix : String) :
    Admits e.document allowed (fun _ => True) (e.typeReference (.object schema) base suffix) :=
  (admits_listsWithin e _ _ _).bind fun _ _ => admits_pure trivial

end Expander

end ClientGen
