import Mathlib.Data.Finset.Card
import Mathlib.Order.Filter.AtTopBot.Basic
import ClientGen.Proofs.Expansion.Follow

/-!
# Settling

An expansion with ever more levels settles on a result, unless it declares ever more names.

Between two declarations an expansion only goes down in a schema or one step further along a chain
of references, which repeats no pointer. It can go on for ever only by declaring new names for ever.

* `missing`: how many texts of a list are not yet in another one.
* `Expansion.Ends`: with more and more levels, the computation settles on a result, if it does not
  declare other than the given names.
* `Expander.settles`: expansions are of this kind.
-/

namespace ClientGen

/-- How many texts of the first list are not in the second one. -/
def missing (xs ys : List String) : Nat := (xs.toFinset \ ys.toFinset).card

/-- Fewer texts are missing from a list that holds more. -/
theorem missing_le {xs ys zs : List String} (h : ys ⊆ zs) : missing xs zs ≤ missing xs ys := by
  refine Finset.card_le_card (Finset.sdiff_subset_sdiff (Finset.Subset.refl _) ?_)
  exact fun y hy => List.mem_toFinset.mpr (h (List.mem_toFinset.mp hy))

/-- A text that comes in leaves fewer missing. -/
theorem missing_lt {xs ys zs : List String} (h : ys ⊆ zs) {x : String} (hx : x ∈ xs)
    (hy : x ∉ ys) (hz : x ∈ zs) : missing xs zs < missing xs ys := by
  refine Finset.card_lt_card (Finset.ssubset_iff_of_subset ?_ |>.mpr ⟨x, ?_, ?_⟩)
  · refine Finset.sdiff_subset_sdiff (Finset.Subset.refl _) ?_
    exact fun y hy => List.mem_toFinset.mpr (h (List.mem_toFinset.mp hy))
  · simp [hx, hy]
  · simp [hz]

namespace Expansion

open Filter

variable {α β : Type} {document : Node} {names : List String} {x : Nat → Expansion α}
  {s : Session}

/-- A computation for every number of levels ends, in a session: it loses no declared name, and if
it declares none but the given names when there are many levels, it settles on a result. -/
structure Ends (names : List String) (x : Nat → Expansion α) (s : Session) : Prop where
  /-- No declared name is lost. -/
  kept : ∀ level, s.names ⊆ ((x level).run s).2.names
  /-- If the names are bounded, the same result comes back with all large numbers of levels. -/
  returns : (∀ᶠ level in atTop, ((x level).run s).2.names ⊆ names) →
    ∃ a t, ∀ᶠ level in atTop, (x level).run s = (.ok a, t)

/-- A computation that returns and declares nothing, whatever the levels, ends. -/
theorem ends_of_run {y : Expansion α} {a : α} {t : Session} (h : y.run s = (.ok a, t))
    (hnames : t.names = s.names) : Ends names (fun _ => y) s := by
  refine ⟨fun _ => ?_, fun _ => ⟨a, t, Eventually.of_forall fun _ => h⟩⟩
  rw [h, hnames]
  exact List.Subset.refl _

/-- Returning a result ends at once. -/
theorem ends_pure (a : α) (s : Session) : Ends names (fun _ => pure a) s :=
  ends_of_run (run_pure a s) rfl

/-- A sequence ends if its parts do. -/
theorem Ends.bind {f : Nat → α → Expansion β} (hx : Ends names x s)
    (hf : ∀ level a t, (x level).run s = (.ok a, t) → Ends names (fun l => f l a) t) :
    Ends names (fun l => x l >>= f l) s := by
  have hkept : ∀ level,
      ((x level).run s).2.names ⊆ ((x level >>= f level).run s).2.names := by
    intro level
    rcases h : (x level).run s with ⟨e | a, t⟩
    · rw [run_bind_of_error h]
      exact List.Subset.refl _
    · rw [run_bind_of_ok h]
      exact (hf level a t h).kept level
  refine ⟨fun level => List.Subset.trans (hx.kept level) (hkept level), fun hwithin => ?_⟩
  obtain ⟨a, t, hfirst⟩ :=
    hx.returns (hwithin.mono fun level hlevel => List.Subset.trans (hkept level) hlevel)
  -- Where the first part has settled, the second one starts from one result and one session.
  obtain ⟨level, hlevel⟩ := hfirst.exists
  obtain ⟨b, u, hsecond⟩ := (hf level a t hlevel).returns
    ((hwithin.and hfirst).mono fun l hl => by rw [← run_bind_of_ok hl.2 (f l)]; exact hl.1)
  refine ⟨b, u, (hfirst.and hsecond).mono fun l hl => ?_⟩
  rw [run_bind_of_ok hl.1, hl.2]

/-- What ends with one level more ends. -/
theorem Ends.of_succ (hzero : s.names ⊆ ((x 0).run s).2.names)
    (h : Ends names (fun l => x (l + 1)) s) : Ends names x s := by
  have hsucc : ∀ {p : Nat → Prop}, (∀ᶠ l in atTop, p (l + 1)) ↔ ∀ᶠ l in atTop, p l := by
    intro p
    rw [← eventually_map (m := fun l => l + 1), map_add_atTop_eq_nat]
  refine ⟨fun level => ?_, fun hwithin => ?_⟩
  · cases level with
    | zero => exact hzero
    | succ level => exact h.kept level
  · obtain ⟨a, t, hreturns⟩ := h.returns (hsucc.mpr hwithin)
    exact ⟨a, t, hsucc.mp hreturns⟩

/-- A request ends if its declarations do once its name is claimed. Only a name among the given ones
matters. -/
theorem Ends.once {r : Request} {x : Nat → Expansion (List Declaration)}
    (hgrows : ∀ level, Grows document (x level))
    (hx : r.name ∉ s.names → r.name ∈ names →
      Ends names x { s with names := s.names ++ [r.name] }) :
    Ends names (fun l => Expander.once r (x l)) s := by
  by_cases hmem : r.name ∈ s.names
  · have hrun : ∀ level, (Expander.once r (x level)).run s = (.ok [], s) := fun level =>
      Expander.run_once_of_mem hmem _
    refine ⟨fun level => ?_, fun _ => ⟨[], s, Eventually.of_forall hrun⟩⟩
    rw [hrun]
    exact List.Subset.refl _
  · have hrun : ∀ level, (Expander.once r (x level)).run s
        = (x level).run { s with names := s.names ++ [r.name] } :=
      fun level => Expander.run_once_of_not_mem hmem (x level)
    have hkept : ∀ level, s.names ++ [r.name] ⊆ ((Expander.once r (x level)).run s).2.names := by
      intro level
      rw [hrun]
      exact (hgrows level { s with names := s.names ++ [r.name] }).names.subset
    have hfirst : s.names ⊆ s.names ++ [r.name] := List.subset_append_left _ _
    refine ⟨fun level => List.Subset.trans hfirst (hkept level), fun hwithin => ?_⟩
    -- The name stays declared, so it is among the given ones if all declared names are.
    obtain ⟨level, hlevel⟩ := hwithin.exists
    have hname : r.name ∈ names := hlevel (hkept level (by simp))
    simp only [hrun] at hwithin ⊢
    exact (hx hmem hname).returns hwithin

end Expansion

namespace Expander

open Expansion Schema

/-- A session of a pass over the document in which at most `n` of the names are not declared yet. -/
structure Ready (document : Node) (names : List String) (n : Nat) (s : Session) : Prop where
  /-- The memory is faithful. -/
  faithful : s.Faithful document
  /-- At most so many names are left. -/
  left : missing names s.names ≤ n

variable {e : Expander} {names : List String} {n : Nat}

/-- A session that comes after a ready one is ready. -/
theorem Ready.after {s t : Session} (hs : Ready e.document names n s)
    (h : s.Precedes e.document t) : Ready e.document names n t :=
  ⟨h.faithful hs.faithful, (missing_le h.names.subset).trans hs.left⟩

/-- The session after typing a node is ready if the one before is. -/
theorem Ready.after_propertyType {s t : Session} {left : Nat} {node : Node} {place : Place}
    {typed : Typed} (hs : Ready e.document names n s)
    (h : (e.propertyType left node place).run s = (.ok typed, t)) :
    Ready e.document names n t := by
  have hgrows := (grows_level e left).2 node place s
  rw [h] at hgrows
  exact hs.after hgrows

/-- After a borrowed computation that returns, a sequence ends if the rest does. -/
theorem Ready.bind {α β : Type} {y : Expansion α} {f : Nat → α → Expansion β} {P : α → Prop}
    {s : Session} (hs : Ready e.document names n s) (hy : Borrowed e y)
    (hreturns : Provides e.document P y)
    (hf : ∀ a t, P a → Ready e.document names n t → Ends names (fun l => f l a) t) :
    Ends names (fun l => y >>= f l) s := by
  obtain ⟨a, t, hrun, -, ha⟩ := hreturns s hs.faithful
  have hquiet := hy.quiet s
  rw [hrun] at hquiet
  refine (ends_of_run hrun hquiet.1).bind fun _ b u hb => ?_
  obtain ⟨rfl, rfl⟩ : a = b ∧ t = u := by simpa using hrun.symm.trans hb
  exact hf a t ha (hs.after hquiet.2)

section Parts

variable {place : Place}

/-- The types of the members of a choice end if that of each one does. -/
theorem choiceTypes_ends {key : String} {members : List Fields}
    (h : ∀ member ∈ members, ∀ i s, Ready e.document names n s →
      Ends names (fun l => e.propertyType l (.object member) (place.option key i)) s)
    (i : Nat) {s : Session} (hs : Ready e.document names n s) :
    Ends names (fun l => choiceTypes (e.propertyType l) place key members i) s := by
  induction members generalizing i s with
  | nil => exact ends_pure _ s
  | cons member rest ih =>
    simp only [choiceTypes]
    refine (h member List.mem_cons_self i s hs).bind fun level head t hhead => ?_
    have hrest := ih (fun m hm => h m (List.mem_cons_of_mem _ hm)) (i + 1)
      (hs.after_propertyType hhead)
    exact hrest.bind fun _ _ u _ => ends_pure _ u

/-- Typing a choice ends if typing each of its options does. -/
theorem choiceType_ends {schema : Fields}
    (h : ∀ option ∈ (choices schema).2, ∀ i s, Ready e.document names n s →
      Ends names (fun l =>
        e.propertyType l (.object option) (place.option (choices schema).1 i)) s)
    {s : Session} (hs : Ready e.document names n s) :
    Ends names (fun l => choiceType (e.propertyType l) place schema) s := by
  simp only [choiceType]
  exact (choiceTypes_ends h 0 hs).bind fun _ _ t _ => ends_pure _ t

/-- A node that is no schema has a type at every level but the lowest. -/
theorem propertyType_ends_of_not_object {node : Node} (h : ∀ schema, node ≠ .object schema)
    (s : Session) : Ends names (fun l => e.propertyType l node place) s := by
  refine Ends.of_succ (((grows_level e 0).2 node place s).names.subset) ?_
  cases node with
  | object schema => exact absurd rfl (h schema)
  | _ =>
    simp only [propertyType]
    exact ends_pure _ s

/-- The properties of an interface end if their types do. -/
theorem interfaceProperties_ends {required : List String} {fields : Fields}
    (h : ∀ key schema, (key, .object schema) ∈ fields → ∀ s, Ready e.document names n s →
      Ends names (fun l => e.propertyType l (.object schema) (place.property key.label)) s)
    {s : Session} (hs : Ready e.document names n s) :
    Ends names (fun l => interfaceProperties (e.propertyType l) place required fields) s := by
  induction fields generalizing s with
  | nil => exact ends_pure _ s
  | cons field rest ih =>
    obtain ⟨key, node⟩ := field
    -- Only an object node has levels to settle.
    have hnode : Ends names (fun l => e.propertyType l node (place.property key.label)) s := by
      by_cases hobject : ∃ schema, node = .object schema
      · obtain ⟨schema, rfl⟩ := hobject
        exact h key schema List.mem_cons_self s hs
      · exact propertyType_ends_of_not_object (fun schema hs => hobject ⟨schema, hs⟩) s
    simp only [interfaceProperties]
    refine hnode.bind fun level typed t htyped => ?_
    have hrest := ih (fun k v hmem => h k v (List.mem_cons_of_mem _ hmem))
      (hs.after_propertyType htyped)
    exact hrest.bind fun _ _ u _ => ends_pure _ u

/-- Declaring an interface ends if typing each of its properties does. -/
theorem interface_ends {name : String} {comment : DocComment} {properties : Fields}
    {required : List String}
    (h : ∀ key schema, (key, .object schema) ∈ properties → ∀ s, Ready e.document names n s →
      Ends names (fun l => e.propertyType l (.object schema) (place.property key.label)) s)
    {s : Session} (hs : Ready e.document names n s) :
    Ends names (fun l =>
      interface (e.propertyType l) name comment place properties required) s := by
  simp only [interface]
  exact (interfaceProperties_ends h hs).bind fun _ _ t _ => ends_pure _ t

variable {root : Fields}

/-- The declaration of a claimed name ends if the types of all schemas that can be come to do. -/
theorem body_ends
    (hreq : ∀ schema, Reaches e.document root schema → Schema.requiredNames schema ≠ none)
    (h : ∀ schema, Reaches e.document root schema → ∀ place s, Ready e.document names n s →
      Ends names (fun l => e.propertyType l (.object schema) place) s)
    {r : Request} (hr : Reaches e.document root r.schema) (kind : Kind) (place : Place)
    {s : Session} (hs : Ready e.document names n s) :
    Ends names (fun l => e.body (e.propertyType l) r kind place) s := by
  have hopen : Ends names (fun _ => (pure [openInterface r place] : Expansion _)) s :=
    ends_pure _ s
  -- Each kind reads what it needs from the schema first, and only its parts have levels.
  cases kind with
  | allOf =>
    simp only [body]
    refine hs.bind (.merge r.schema place.chain) (provides_merge e hreq hr place.chain)
      fun merged t hmerged ht => ?_
    split
    · exact ends_pure _ t
    · exact interface_ends (fun key schema hmem u hu =>
        h schema (hmerged key schema hmem) _ u hu) ht
  | oneOf =>
    simp only [body]
    refine (choiceType_ends (fun option hoption i s hs => h option (hr.option hoption) _ s hs)
      hs).bind fun _ _ t _ => ends_pure _ t
  | object =>
    simp only [body]
    refine hs.bind (e := e) (.requiredNames r.schema) (provides_requiredNames (hreq _ hr))
      fun required t _ ht => ?_
    exact interface_ends (fun key schema hmem u hu => h schema (hr.property hmem) _ u hu) ht
  | _ => exact hopen

end Parts

section Measure

variable (e : Expander) (root : Fields) (names : List String)

/-- The pointers that a chain of references can hold. -/
def pointersWithin : List String := e.document.pointers ++ (Node.object root).pointers

/-- Schemas settle when at most so many names are left, at most so many pointers that the chain does
not hold, and at most so many nodes in the schema. -/
def Settled (n k m : Nat) : Prop :=
  ∀ s, Ready e.document names n s → ∀ schema, Reaches e.document root schema →
    (Node.object schema).size ≤ m → ∀ place : Place,
    missing (e.pointersWithin root) place.chain ≤ k →
      (∀ suffix, Ends names (fun l => e.declare l schema suffix place) s) ∧
        Ends names (fun l => e.propertyType l (.object schema) place) s

variable {e root names} {n k m : Nat}

/-- Along a reference the chain gets longer, and there are fewer pointers left. -/
theorem Behind.missing_lt {schema target : Fields} {chain chain' : List String}
    (h : Behind e.document root schema chain target chain')
    (hschema : Reaches e.document root schema) (hkind : kind schema = .reference) :
    missing (e.pointersWithin root) chain' < missing (e.pointersWithin root) chain := by
  obtain ⟨pointer, hpointer⟩ := exists_pointer_of_reference hkind
  obtain ⟨hold, hnew⟩ := h.fresh pointer hpointer
  exact ClientGen.missing_lt h.subset (hschema.pointer_mem hpointer) hold hnew

variable
  (hreq : ∀ schema, Reaches e.document root schema → Schema.requiredNames schema ≠ none)
  (hn : ∀ n' < n, ∀ k m, Settled e root names n' k m)
  (hk : ∀ k' < k, ∀ m, Settled e root names n k' m)
  (hm : ∀ m' < m, Settled e root names n k m')

include hreq hn in
/-- What a request declares ends: behind the claim there is one name less left. -/
theorem once_body_ends {r : Request} (hr : Reaches e.document root r.schema) (kind : Kind)
    (place : Place) {s : Session} (hs : Ready e.document names n s) :
    Ends names (fun l => once r (e.body (e.propertyType l) r kind place)) s := by
  refine Ends.once (fun level => (kept_grows e).body (grows_level e level).2 r kind place)
    fun hfree hmem => ?_
  have hless : missing names (s.names ++ [r.name]) < n :=
    (missing_lt (List.subset_append_left _ _) hmem hfree (by simp)).trans_le hs.left
  refine body_ends hreq (fun schema hschema place t ht => ?_) hr kind place
    ⟨hs.faithful, Nat.le_refl _⟩
  exact (hn _ hless _ _ t ht schema hschema (Nat.le_refl _) place (Nat.le_refl _)).2

include hreq hn hk hm

/-- Declaring a schema ends, if schemas with fewer names, pointers or nodes left settle. -/
theorem declare_ends {s : Session} (hs : Ready e.document names n s) {schema : Fields}
    (hschema : Reaches e.document root schema) (hsize : (Node.object schema).size ≤ m)
    {place : Place} (hchain : missing (e.pointersWithin root) place.chain ≤ k) (suffix : String) :
    Ends names (fun l => e.declare l schema suffix place) s := by
  refine Ends.of_succ ((grows_level e 0).1 schema suffix place s).names.subset ?_
  simp only [declare, declareStep]
  have honce := fun kind => once_body_ends hreq hn
    (r := { name := Naming.interfaceName place.base suffix, schema }) hschema kind place hs
  cases hkind : kind schema with
  | reference =>
    refine hs.bind (.follow schema place.chain) (provides_follow e hschema place.chain)
      fun found t hfound ht => ?_
    obtain ⟨_ | target, chain⟩ := found
    · refine ht.bind (e := e) (.warn _) (provides_warn _) fun _ u _ hu => ?_
      have hgrows : ∀ ds : List Declaration, Grows e.document (pure ds) := grows_pure
      exact Ends.once (fun _ => hgrows _) fun _ _ => ends_pure _ _
    · -- The chain has one pointer more.
      have hbehind := hfound target rfl
      have hless := (hbehind.missing_lt hschema hkind).trans_le hchain
      exact (hk _ hless _ t ht target hbehind.reaches (Nat.le_refl _) _ (Nat.le_refl _)).1 suffix
  | array =>
    -- The chain stays, but the schema of the items is smaller.
    have hless := (size_items_lt hkind).trans_le hsize
    exact (hm _ hless s hs _ hschema.items (Nat.le_refl _)
      { place with origin := place.origin ++ "/items" } hchain).1 suffix
  | _ => exact honce _

/-- One level of typing a schema ends, if schemas with fewer names, pointers or nodes left
settle. -/
theorem typeStep_ends {s : Session} (hs : Ready e.document names n s) {schema : Fields}
    (hschema : Reaches e.document root schema) (hsize : (Node.object schema).size ≤ m)
    {place : Place} (hchain : missing (e.pointersWithin root) place.chain ≤ k) :
    Ends names (fun l => e.typeStep (fun target place => e.declare l target "" place)
      (e.propertyType l) schema place) s := by
  -- What is smaller than the schema is typed with the same chain.
  have hinside : ∀ {part : Fields}, Reaches e.document root part →
      (Node.object part).size < (Node.object schema).size →
      ∀ p : Place, p.chain = place.chain → ∀ t, Ready e.document names n t →
      Ends names (fun l => e.propertyType l (.object part) p) t := by
    intro part hpart hless p hp t ht
    exact (hm _ (hless.trans_le hsize) t ht part hpart (Nat.le_refl _) p (hp ▸ hchain)).2
  have hnamed : Ends names (fun l => e.declare l schema "" place) s :=
    declare_ends hreq hn hk hm hs hschema hsize hchain ""
  simp only [typeStep]
  cases hkind : kind schema with
  | reference =>
    refine hs.bind (.follow schema place.chain) (provides_follow e hschema place.chain)
      fun found t hfound ht => ?_
    obtain ⟨_ | target, chain⟩ := found
    · exact ht.bind (e := e) (.warn _) (provides_warn _) fun _ u _ _ => ends_pure _ u
    · have hbehind := hfound target rfl
      have hless := (hbehind.missing_lt hschema hkind).trans_le hchain
      have hsettled := hk _ hless _ t ht target hbehind.reaches (Nat.le_refl _)
      dsimp only
      split
      · exact ((hsettled _ (Nat.le_refl _)).1 "").bind fun _ _ u _ => ends_pure _ u
      · exact (hsettled _ (Nat.le_refl _)).2
  | object => exact hnamed.bind fun _ _ t _ => ends_pure _ t
  | allOf => exact hnamed.bind fun _ _ t _ => ends_pure _ t
  | oneOf =>
    exact choiceType_ends (fun option hoption i t ht =>
      hinside (hschema.option hoption) (part_of_mem_choices hoption).size_lt
        (place.option _ i) rfl t ht) hs
  | enumeration => exact ends_pure _ s
  | array =>
    have hitems := hinside hschema.items (size_items_lt hkind)
      { place with base := place.base ++ "Item", origin := place.origin ++ "/items" } rfl s hs
    exact hitems.bind fun _ _ t _ => ends_pure _ t
  | map =>
    dsimp only
    split
    · rename_i field fields hget
      have hvalue := hinside (hschema.value hget) (part_of_get? hget).size_lt
        { place with base := place.base ++ "Value",
                     origin := place.origin ++ "/additionalProperties" } rfl s hs
      exact hvalue.bind fun _ _ t _ => ends_pure _ t
    · exact ends_pure _ s
  | primitive =>
    exact hs.bind (e := e) (.plainType schema place.origin) (provides_plainType _ _)
      fun _ t _ _ => ends_pure _ t
  | unknown =>
    exact hs.bind (e := e) (.plainType schema place.origin) (provides_plainType _ _)
      fun _ t _ _ => ends_pure _ t

/-- Schemas settle if those with fewer names, pointers or nodes left do. -/
theorem settled_of_less : Settled e root names n k m := by
  intro s hs schema hschema hsize place hchain
  refine ⟨declare_ends hreq hn hk hm hs hschema hsize hchain, ?_⟩
  refine Ends.of_succ ((grows_level e 0).2 (.object schema) place s).names.subset ?_
  simp only [propertyType, map_eq_pure_bind]
  exact (typeStep_ends hreq hn hk hm hs hschema hsize hchain).bind fun _ _ t _ => ends_pure _ t

omit hn hk hm

/-- Schemas settle, however many names, pointers and nodes are left. -/
theorem settled (n k m : Nat) : Settled e root names n k m := by
  -- Names count most, then pointers, then nodes: a claim may start new chains and larger schemas,
  -- and a reference may lead to a larger schema.
  induction n using Nat.strong_induction_on generalizing k m with
  | _ n hn =>
    induction k using Nat.strong_induction_on generalizing m with
    | _ k hk =>
      induction m using Nat.strong_induction_on with
      | _ m hm => exact settled_of_less hreq hn hk hm

/-- Expansions with ever more levels settle on a result, if they do not declare ever more names. -/
theorem settles {s : Session} (hs : s.Faithful e.document) (suffix : String) (place : Place) :
    Ends names (fun l => e.declare l root suffix place) s :=
  (settled hreq _ _ _ s ⟨hs, Nat.le_refl _⟩ root .root (Nat.le_refl _) place (Nat.le_refl _)).1
    suffix

end Measure

end Expander

end ClientGen
