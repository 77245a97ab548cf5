import ClientGen.Model.Lookup
import ClientGen.Proofs.Document.Chains
import ClientGen.Proofs.Expansion.Outcome

/-!
# Parameters of malformed operations

Parameters are told apart by name and place, so a place that is a list or an object ends a pass.
Nothing else that stands among the parameters of an operation, in its body or in its responses does.

* `Lookup.HasCompoundPlace`, `Operation.ListsCompound`: a parameter goes to a list or an object.
* `Lookup.admits_parameters`, `Lookup.admits_request`, `Lookup.admits_query`: the schemas of an
  operation are looked for without a failure unless that is so.
* `Lookup.admits_response`: what comes back is always looked for without a failure.
-/

namespace ClientGen

namespace Lookup

open Expansion

variable {document : Node} {parameter : Fields} {source : Option Node} {f : Failure}

/-- The parameter has a name, and it goes to a place that is a list or an object. -/
def HasCompoundPlace (parameter : Fields) : Prop :=
  (∃ name, Fields.get? parameter "name" = some (.text name)) ∧
    ∃ place, Fields.get? parameter "in" = some place ∧ place.key? = none

/-- Behind its references, the node is a parameter that goes to a list or an object. -/
def IsCompound (document node : Node) : Prop :=
  ∃ steps parameter, Reference.Leads document steps node (.object parameter) ∧
    HasCompoundPlace parameter

/-- Among the listed parameters is one that goes to a list or an object. -/
def ListsCompound (document : Node) (source : Option Node) : Prop :=
  ∃ nodes, source = some (.list nodes) ∧ ∃ node ∈ nodes, IsCompound document node

/-- A parameter cannot be told apart exactly if it goes to a place that is a list or an object. -/
theorem parameterId?_eq_error_iff :
    parameterId? parameter = .error f ↔ f = .notAScalar ∧ HasCompoundPlace parameter := by
  unfold parameterId? HasCompoundPlace
  split
  · rename_i name hname
    rw [hname]
    split
    · rename_i hplace
      simp [hplace]
    · rename_i place hplace
      cases hkey : place.key? with
      | none => simp [hplace, hkey, eq_comm]
      | some key => simp [hplace, hkey]
  · rename_i hname
    refine ⟨(nomatch ·), ?_⟩
    rintro ⟨-, ⟨name, hget⟩, -⟩
    exact absurd hget (hname name)

/-- Replacing a node by what its references lead to never fails. -/
theorem run_dereference (node : Node) (s : Session) :
    (dereference document node).run s
      = (.ok (Reference.dereference document node s).1,
        (Reference.dereference document node s).2) := rfl

/-- Finding the end of a chain of references never fails. -/
theorem admits_dereference {allowed : Failure → Prop} (node : Node) :
    Admits document allowed (fun found => ∀ target, found = some target ↔
      ∃ steps, Reference.Leads document steps node target) (dereference document node) where
  returns {s t found} hs hrun := by
    have ht := ((quiet_reading document).dereference node s).2.faithful hs
    rw [hrun] at ht
    rw [run_dereference] at hrun
    obtain rfl : (Reference.dereference document node s).1 = found :=
      Except.ok.inj (Prod.mk.inj hrun).1
    exact ⟨ht, fun target => Reference.dereference_eq_some_iff hs⟩
  fails _ hrun := nomatch (Prod.mk.inj hrun).1

/-- Adds one listed parameter to those already known, behind its references. -/
def collectOne (document : Node) (known : List (ParameterId × Fields)) (node : Node) :
    Expansion (List (ParameterId × Fields)) := do
  match ← dereference document node with
  | some (.object parameter) =>
    match ← ofExcept (parameterId? parameter) with
    | some id => return put id parameter known
    | none => return known
  | _ => return known

theorem collect_list (known : List (ParameterId × Fields)) (nodes : List Node) :
    collect document known (some (.list nodes)) = nodes.foldlM (collectOne document) known := rfl

/-- A result that is known already is admitted if its failure is allowed. -/
theorem admits_ofExcept {α : Type} {allowed : Failure → Prop} {r : Except Failure α}
    (h : ∀ f, r = .error f → allowed f) :
    Admits document allowed (fun a => r = .ok a) (ofExcept r) := by
  cases r with
  | error f => exact admits_throw (h f rfl)
  | ok a => exact admits_pure rfl

/-- A listed parameter is added unless it goes to a list or an object. -/
theorem admits_collectOne (known : List (ParameterId × Fields)) (node : Node) :
    Admits document (fun f => f = .notAScalar ∧ IsCompound document node)
      (fun _ => ¬ IsCompound document node) (collectOne document known node) := by
  refine (admits_dereference node).bind fun found hfound => ?_
  split
  · rename_i parameter
    -- References lead to this parameter only, so its place decides.
    have hleads := (hfound (.object parameter)).mp rfl
    have hiff : IsCompound document node ↔ HasCompoundPlace parameter := by
      constructor
      · rintro ⟨steps, parameter', hleads', hplace⟩
        have heq := (hfound (.object parameter')).mpr ⟨steps, hleads'⟩
        obtain rfl := Node.object.inj (Option.some.inj heq)
        exact hplace
      · intro hplace
        obtain ⟨steps, hleads⟩ := hleads
        exact ⟨steps, parameter, hleads, hplace⟩
    rw [hiff]
    have hid : Admits document (fun f => f = .notAScalar ∧ HasCompoundPlace parameter)
        (fun _ => ¬ HasCompoundPlace parameter) (ofExcept (parameterId? parameter)) := by
      refine (admits_ofExcept fun f hf => parameterId?_eq_error_iff.mp hf).mono (fun _ => id) ?_
      intro id hok hplace
      have herror := parameterId?_eq_error_iff.mpr ⟨rfl, hplace⟩
      exact nomatch hok.symm.trans herror
    refine hid.bind fun id hnot => ?_
    split
    · exact admits_pure hnot
    · exact admits_pure hnot
  · rename_i hother
    refine admits_pure ?_
    rintro ⟨steps, parameter, hleads, -⟩
    exact hother parameter ((hfound (.object parameter)).mpr ⟨steps, hleads⟩)

/-- Listed parameters are collected unless one of them goes to a list or an object. -/
theorem admits_collect (known : List (ParameterId × Fields)) (source : Option Node) :
    Admits document (fun f => f = .notAScalar ∧ ListsCompound document source)
      (fun _ => ¬ ListsCompound document source) (collect document known source) := by
  -- What is no list holds no parameters.
  by_cases hsource : ∃ nodes, source = some (.list nodes)
  · obtain ⟨nodes, rfl⟩ := hsource
    rw [collect_list]
    have hall := admits_foldlM_forall (R := fun node => ¬ IsCompound document node)
      (fun known node hnode => (admits_collectOne known node).mono
        (fun f hf => (⟨hf.1, nodes, rfl, node, hnode, hf.2⟩ :
          f = .notAScalar ∧ ListsCompound document (some (.list nodes)))) fun _ => id) known
    refine hall.mono (fun _ => id) ?_
    rintro _ hnone ⟨_, hnodes, node, hnode, hcompound⟩
    obtain rfl := Node.list.inj (Option.some.inj hnodes)
    exact hnone node hnode hcompound
  · have hpure : collect document known source = pure known := by
      unfold collect
      split
      · exact absurd ⟨_, rfl⟩ hsource
      · rfl
    rw [hpure]
    exact admits_pure fun ⟨nodes, hnodes, _⟩ => hsource ⟨nodes, hnodes⟩

end Lookup

namespace Operation

variable {document : Node} {items : Fields}

/-- The operation or its path lists a parameter that goes to a list or an object. -/
def ListsCompound (document : Node) (o : Operation) : Prop :=
  ∃ members, (o.pathItem document = .ok members ∨ o.raw document = .ok members) ∧
    Lookup.ListsCompound document (Fields.get? members "parameters")

/-- In a document whose paths are an object, the item of every operation can be read. -/
theorem exists_pathItem (hpaths : Document.paths document = .ok items) (o : Operation) :
    ∃ members, o.pathItem document = .ok members := by
  rw [pathItem, hpaths]
  exact ⟨_, rfl⟩

/-- In a document whose paths are an object, every operation can be read. -/
theorem exists_raw (hpaths : Document.paths document = .ok items) (o : Operation) :
    ∃ members, o.raw document = .ok members := by
  obtain ⟨members, hmembers⟩ := exists_pathItem hpaths o
  rw [raw, hmembers]
  exact ⟨_, rfl⟩

end Operation

namespace Lookup

open Expansion

variable {document : Node} {items : Fields} (hpaths : Document.paths document = .ok items)
  (o : Operation)

include hpaths

/-- The parameters of an operation are found unless one of them goes to a list or an object. -/
theorem admits_parameters :
    Admits document (fun f => f = .notAScalar ∧ o.ListsCompound document)
      (fun _ => ¬ o.ListsCompound document) (parameters document o) := by
  obtain ⟨item, hitem⟩ := o.exists_pathItem hpaths
  obtain ⟨raw, hraw⟩ := o.exists_raw hpaths
  have hcompound : o.ListsCompound document ↔
      ListsCompound document (Fields.get? item "parameters") ∨
        ListsCompound document (Fields.get? raw "parameters") := by
    constructor
    · rintro ⟨members, hmembers | hmembers, hlists⟩
      · obtain rfl := Except.ok.inj (hitem.symm.trans hmembers)
        exact .inl hlists
      · obtain rfl := Except.ok.inj (hraw.symm.trans hmembers)
        exact .inr hlists
    · rintro (hlists | hlists)
      · exact ⟨item, .inl hitem, hlists⟩
      · exact ⟨raw, .inr hraw, hlists⟩
  rw [hcompound, parameters, hitem, hraw]
  -- Those of the path come first, then those of the operation.
  refine (admits_pure rfl).bind fun item' hitem' => ?_
  obtain rfl : item = item' := hitem'
  refine (admits_pure rfl).bind fun raw' hraw' => ?_
  obtain rfl : raw = raw' := hraw'
  refine Admits.bind ((admits_collect [] _).mono (fun f hf => ⟨hf.1, .inl hf.2⟩) fun _ => id)
    fun known hpath => ?_
  refine Admits.bind ((admits_collect known _).mono (fun f hf => ⟨hf.1, .inr hf.2⟩) fun _ => id)
    fun known hown => ?_
  exact admits_pure (not_or.mpr ⟨hpath, hown⟩)

/-- What is sent is looked for without a failure, unless a parameter goes to a list or an object. -/
theorem admits_request :
    Admits document (fun f => f = .notAScalar ∧ o.ListsCompound document) (fun _ => True)
      (request document o) := by
  obtain ⟨raw, hraw⟩ := o.exists_raw hpaths
  rw [request, hraw]
  refine (admits_pure trivial).bind (P := fun _ => True) fun raw _ => ?_
  dsimp only
  split
  case' h_1 => refine (admits_dereference _).bind fun body _ => ?_
  case' h_2 => refine (admits_pure trivial).bind (P := fun _ => True) fun body _ => ?_
  all_goals
    -- If the body has no schema, the parameters are looked at.
    split
    · exact admits_pure trivial
    · refine (admits_parameters hpaths o).bind fun ps _ => ?_
      split
      · exact admits_pure trivial
      · exact admits_pure trivial

omit hpaths in
/-- Finding the first schema among responses is admitted, whatever may fail. -/
theorem admits_firstSchema {allowed : Failure → Prop} (responses : Fields) (codes : List String) :
    Admits document allowed (fun _ => True) (firstSchema document responses codes) := by
  induction codes with
  | nil => exact admits_pure trivial
  | cons code codes ih =>
    rw [firstSchema]
    split
    case' h_1 => refine (admits_dereference _).bind fun response _ => ?_
    case' h_2 => refine (admits_pure trivial).bind (P := fun _ => True) fun response _ => ?_
    all_goals
      dsimp only
      split
      · exact admits_pure trivial
      · exact ih

/-- What comes back is looked for without a failure. -/
theorem admits_response {allowed : Failure → Prop} :
    Admits document allowed (fun _ => True) (response document o) := by
  obtain ⟨raw, hraw⟩ := o.exists_raw hpaths
  rw [response, hraw]
  refine (admits_pure trivial).bind (P := fun _ => True) fun raw _ => ?_
  split
  · exact admits_firstSchema _ _
  · exact admits_pure trivial

/-- The query parameters are found unless a parameter goes to a list or an object. -/
theorem admits_query :
    Admits document (fun f => f = .notAScalar ∧ o.ListsCompound document)
      (fun _ => ¬ o.ListsCompound document) (query document o) :=
  (admits_parameters hpaths o).bind fun _ hnone => admits_pure hnone

end Lookup

end ClientGen
