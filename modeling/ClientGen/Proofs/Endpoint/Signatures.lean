import ClientGen.Endpoint.Request
import ClientGen.Proofs.Endpoint.Placeholders

/-!
# Signatures

The parameters of the function that sends a request: the arguments of the path, each once, and one
for everything else that the request carries.

* `PathTemplate.nodup_args`, `PathTemplate.forall_args_iff`: the arguments of a path.
* `Endpoint.carried`: what a request of the endpoint has to carry.
* `Endpoint.map_name_arguments`: the names of the parameters.
-/

namespace ClientGen

namespace PathTemplate

open BasePath

variable {t : PathTemplate} {names : List String} {path : String}

/-! ## Arguments of a path -/

/-- Inserting a parameter adds the argument for it, unless it is there. -/
theorem args_insert (t : PathTemplate) (name : String) : (t.insert name).args
    = if t.args.contains (argument t.args name) then t.args
      else t.args ++ [argument t.args name] := rfl

/-- Inserting parameters leaves the arguments distinct. -/
theorem nodup_args_foldl_insert (h : t.args.Nodup) : (names.foldl insert t).args.Nodup := by
  induction names generalizing t with
  | nil => exact h
  | cons name names ih =>
    refine ih ?_
    rw [args_insert]
    split
    · exact h
    · rename_i hnew
      exact List.nodup_append'.mpr ⟨h, List.nodup_singleton _, by simpa using hnew⟩

/-- Every argument of a path comes once. -/
theorem nodup_args (path : String) : (ofPath path).args.Nodup :=
  nodup_args_foldl_insert List.nodup_nil

/-- All arguments were made for parameters. -/
theorem exists_of_mem_args {arg : String} (h : arg ∈ (names.foldl insert t).args) :
    arg ∈ t.args ∨ ∃ p ∈ identifiersFrom t.args names, p.2 = arg := by
  induction names generalizing t with
  | nil => exact .inl h
  | cons name names ih =>
    rw [identifiersFrom_cons]
    rcases ih h with hmem | ⟨p, hp, rfl⟩
    · -- The first name was already an argument, or its argument is the one that is added.
      rw [args_insert] at hmem
      split at hmem
      · exact .inl hmem
      · rcases List.mem_append.mp hmem with hmem | hmem
        · exact .inl hmem
        · refine .inr ⟨(name, argument t.args name), List.mem_cons_self, ?_⟩
          dsimp only
          exact (List.mem_singleton.mp hmem).symm
    · exact .inr ⟨p, List.mem_cons_of_mem _ hp, rfl⟩

/-- What holds of all arguments of a path, if it depends on the parameter alone that an argument
was made for. -/
theorem forall_args_iff {P Q : String → Prop}
    (h : ∀ earlier name, P (argument earlier name) ↔ Q name) :
    (∀ arg ∈ (ofPath path).args, P arg) ↔ ∀ name ∈ parameters path, Q name := by
  -- Which argument a name gets depends on the earlier ones, but `P` of it on the name only.
  have hmade : ∀ p ∈ identifiers path, (P p.2 ↔ Q p.1) := by
    intro p hp
    obtain ⟨earlier, harg⟩ := exists_argument_of_mem hp
    rw [harg]
    exact h earlier p.1
  have hnames : (identifiers path).map Prod.fst = parameters path := map_fst_identifiersFrom ..
  constructor
  · intro hall name hname
    rw [← hnames] at hname
    obtain ⟨p, hp, rfl⟩ := List.mem_map.mp hname
    have hmem : p.2 ∈ (ofPath path).args :=
      mem_args_of_mem_identifiersFrom (t := { args := [], text := plain path }) (.inl hp)
    exact (hmade p hp).mp (hall p.2 hmem)
  · intro hall arg harg
    obtain hnone | ⟨p, hp, rfl⟩ := exists_of_mem_args harg
    · exact absurd hnone List.not_mem_nil
    · exact (hmade p hp).mpr (hall p.1 (hnames ▸ List.mem_map_of_mem hp))

end PathTemplate

/-! ## What is carried -/

namespace Endpoint

/-- What a request of the endpoint has to carry besides its address, if callers may add headers or
not. -/
def carried (e : Endpoint) (headers : Bool) : List Carried :=
  (if e.request.isSome then [.payload] else []) ++ (if e.params.isSome then [.params] else [])
    ++ (if headers then [.headers] else [])

/-- There is one parameter for each argument of the path and one for everything that is carried. -/
theorem map_name_arguments (e : Endpoint) (headers : Bool) :
    (e.arguments headers).map Argument.name
      = e.template.args ++ (e.carried headers).map Carried.name := by
  have hpath : e.pathArguments.map Argument.name = e.template.args := by
    rw [pathArguments, List.map_map]
    exact List.map_id _
  rw [arguments, carried, List.map_append, List.map_append, List.map_append, hpath]
  cases e.request <;> cases e.params <;> cases headers <;> simp [Carried.name]

/-- What an endpoint carries has distinct names. -/
theorem nodup_map_name_carried (e : Endpoint) (headers : Bool) :
    ((e.carried headers).map Carried.name).Nodup := by
  rw [carried]
  cases e.request.isSome <;> cases e.params.isSome <;> cases headers <;> decide

/-- Every endpoint belongs to an operation. -/
theorem exists_mem_zip {models : ModelSet} {os : List Operation} {endpoints : List Endpoint}
    (h : ofOperations models os = .ok endpoints) {e : Endpoint} (he : e ∈ endpoints) :
    ∃ o, (o, e) ∈ os.zip endpoints := by
  have hlength : endpoints.length ≤ os.length := by
    rw [eq_zipWith_of_ofOperations h, List.length_zipWith]
    exact Nat.min_le_left _ _
  have hmem : e ∈ (os.zip endpoints).map Prod.snd := by rwa [List.map_snd_zip hlength]
  obtain ⟨⟨o, _⟩, hoe, rfl⟩ := List.mem_map.mp hmem
  exact ⟨o, hoe⟩

end Endpoint

/-! ## A document with one operation -/

namespace EndpointGroup

/-- A document with one operation under a tag, which sends a body. -/
def bodyDocument (method path id tag : String) : Node :=
  Run.objectOf "paths" (Run.objectOf path (Run.objectOf method (.object [
    (.text "operationId", .text id), (.text "tags", .list [.text tag]),
    (.text "requestBody", Run.objectOf "content" (Run.objectOf "application/json"
      (Run.objectOf "schema" (.object []))))])))

/-- The only endpoint of a document that goes through. -/
theorem exists_of_ofDocument? {document : Node} {basePaths : List String} {α : Type}
    {shown : String → Endpoint → α} {a : α}
    (h : (ofDocument? document basePaths).map
      (fun found => found.2.2.map fun g => g.endpoints.map (shown g.tag)) = some [[a]]) :
    ∃ catalog models session tag os endpoints o e,
      Catalog.ofDocument document basePaths = .ok catalog ∧
      (Generation.models { document } catalog).run {} = (.ok models, session) ∧
      (tag, os) ∈ catalog ∧ Endpoint.ofOperations models os = .ok endpoints ∧
      (o, e) ∈ os.zip endpoints ∧ shown tag e = a := by
  obtain ⟨⟨catalog, models, groups⟩, hfound, hshown⟩ := Option.map_eq_some_iff.mp h
  obtain ⟨hcatalog, ⟨session, hmodels⟩, hgroups⟩ := of_ofDocument? hfound
  obtain ⟨g, hg, hone⟩ : ∃ g ∈ groups, g.endpoints.map (shown g.tag) = [a] :=
    List.mem_map.mp (by rw [hshown]; exact List.mem_singleton_self _)
  obtain ⟨e, he, ha⟩ : ∃ e ∈ g.endpoints, shown g.tag e = a :=
    List.mem_map.mp (by rw [hone]; exact List.mem_singleton_self _)
  obtain ⟨os, htag, hendpoints⟩ := exists_of_mem hgroups hg
  obtain ⟨o, hoe⟩ := Endpoint.exists_mem_zip hendpoints he
  exact ⟨catalog, models, session, g.tag, os, g.endpoints, o, e, hcatalog, hmodels, htag,
    hendpoints, hoe, ha⟩

end EndpointGroup

end ClientGen
