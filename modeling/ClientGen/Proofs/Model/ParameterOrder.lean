import ClientGen.Proofs.Endpoint.Operations
import ClientGen.Proofs.Model.Parameters
import ClientGen.Proofs.Node.Updates

/-!
# Parameters that are listed more than once

Parameters are listed for a path and for an operation, some of them behind references, and one
parameter may be listed several times. Where places are texts, a parameter stands where its name and
place are listed first, and what it says is what is listed for them last.

* `Lookup.listed`: the parameters in a list, behind their references.
* `Lookup.override`: sets one parameter. `Lookup.admits_collect_listed`: collecting a list sets its
  parameters one after another.
* `Lookup.Merges`: the order of the parameters, and which ones win.
* `Lookup.Describes`: an object schema has the parameters as its properties.
* `Lookup.parameters_last_wins`: what is found for an operation.
-/

namespace ClientGen

namespace Lookup

open Expansion

variable {document : Node} {p q : Fields} {ps : List Fields}

/-! ## What is listed -/

/-- The name of a parameter and the place that it goes to, if that is a text. -/
def pairOf (parameter : Fields) : String × Option String :=
  (nameOf parameter, (Fields.get? parameter "in").bind Node.text?)

/-- If the parameter goes to a place, that is a text. -/
def hasTextPlace (parameter : Fields) : Bool :=
  (Fields.get? parameter "in").all fun place => place.text?.isSome

/-- The parameter that a node is behind its references: an object with a name. -/
def parameter? (document node : Node) : Option Fields :=
  match (Reference.dereference document node {}).1 with
  | some (.object parameter) =>
    match Fields.get? parameter "name" with
    | some (.text _) => some parameter
    | _ => none
  | _ => none

/-- The parameters in a list, in its order. -/
def listed (document : Node) : Option Node → List Fields
  | some (.list nodes) => nodes.filterMap (parameter? document)
  | _ => []

/-- Sets a parameter. One with the same name and place keeps its position. -/
def override : List Fields → Fields → List Fields
  | [], p => [p]
  | q :: rest, p => if pairOf q = pairOf p then p :: rest else q :: override rest p

/-- A node is a parameter if references lead from it to an object with a name. -/
theorem parameter?_eq_some_iff {node : Node} :
    parameter? document node = some p ↔
      (∃ steps, Reference.Leads document steps node (.object p)) ∧
        ∃ name, Fields.get? p "name" = some (.text name) := by
  rw [← Reference.dereference_eq_some_iff (Session.faithful_empty document)]
  unfold parameter?
  constructor
  · intro h
    split at h
    · rename_i parameter hfound
      split at h
      · rename_i name hname
        obtain rfl := Option.some.inj h
        exact ⟨hfound, name, hname⟩
      · cases h
    · cases h
  · rintro ⟨hfound, name, hname⟩
    simp only [hfound, hname]

/-! ## Setting parameters one after another -/

/-- Setting a parameter adds its name and place at the end, unless they are there. -/
theorem map_pairOf_override (ps : List Fields) (p : Fields) :
    (override ps p).map pairOf = keepFirst (· == ·) (ps.map pairOf) (pairOf p) := by
  induction ps with
  | nil => rfl
  | cons q rest ih =>
    rw [override, keepFirst, List.map_cons, List.any_cons]
    by_cases hpair : pairOf q = pairOf p
    · -- The new parameter has the pair of the one whose position it takes.
      rw [if_pos hpair, if_pos (by simp [hpair]), List.map_cons, hpair]
    · rw [if_neg hpair, List.map_cons, ih, keepFirst, beq_false_of_ne hpair, Bool.false_or]
      split
      · rfl
      · rfl

/-- Every pair stands where it came first. -/
theorem map_pairOf_foldl_override (ps added : List Fields) :
    (added.foldl override ps).map pairOf
      = (added.map pairOf).foldl (keepFirst (· == ·)) (ps.map pairOf) := by
  induction added generalizing ps with
  | nil => rfl
  | cons p rest ih =>
    rw [List.foldl_cons, ih, map_pairOf_override, List.map_cons, List.foldl_cons]

/-- Setting parameters one by one leaves the first of each name and place. -/
theorem map_pairOf_foldl_override_nil (added : List Fields) :
    (added.foldl override []).map pairOf = (added.map pairOf).eraseDups := by
  rw [map_pairOf_foldl_override, List.map_nil, foldl_keepFirst_nil _ fun _ _ => BEq.comm]
  rfl

/-- No name and place is left twice when parameters are set one by one. -/
theorem nodup_foldl_override (added : List Fields) :
    ((added.foldl override []).map pairOf).Nodup := by
  rw [map_pairOf_foldl_override_nil]
  exact nodup_eraseDups _

/-- After a parameter is set, its name and place lead to it, and all others to what they led to. -/
theorem find?_override (ps : List Fields) (p : Fields) (pair : String × Option String) :
    (override ps p).find? (pairOf · = pair)
      = if pairOf p = pair then some p else ps.find? (pairOf · = pair) := by
  induction ps with
  | nil =>
    rw [override, List.find?_cons]
    split <;> simp_all
  | cons q rest ih =>
    rw [override]
    by_cases hpair : pairOf q = pairOf p
    · -- The parameter is found under the pair under which the old one was found.
      rw [if_pos hpair, List.find?_cons, List.find?_cons, hpair]
      split <;> simp_all
    · rw [if_neg hpair, List.find?_cons, List.find?_cons, ih]
      by_cases hq : pairOf q = pair
      · have hother : pairOf p ≠ pair := fun h => hpair (hq.trans h.symm)
        simp [hq, hother]
      · simp [hq]

/-- The last of some parameters with a name and place. -/
def lastWith (pair : String × Option String) (ps : List Fields) : Option Fields :=
  (ps.filter (pairOf · = pair)).getLast?

/-- The last parameter with a name and place is among the others, or else the first one. -/
theorem lastWith_cons (pair : String × Option String) (p : Fields) (ps : List Fields) :
    lastWith pair (p :: ps) = (lastWith pair ps).or (if pairOf p = pair then some p else none) := by
  rw [lastWith, List.filter_cons]
  by_cases hpair : pairOf p = pair
  · rw [if_pos (by simpa using hpair), if_pos hpair, List.getLast?_cons, lastWith]
    cases (ps.filter (pairOf · = pair)).getLast? with
    | none => rfl
    | some last => rfl
  · rw [if_neg (by simpa using hpair), if_neg hpair, Option.or_none, lastWith]

/-- The last parameter of two runs is that of the second run, or else that of the first. -/
theorem lastWith_append (pair : String × Option String) (ps ps' : List Fields) :
    lastWith pair (ps ++ ps') = (lastWith pair ps').or (lastWith pair ps) := by
  rw [lastWith, List.filter_append, List.getLast?_append, lastWith, lastWith]

/-- Under every pair is the parameter that came last. -/
theorem find?_foldl_override (ps added : List Fields) (pair : String × Option String) :
    (added.foldl override ps).find? (pairOf · = pair)
      = (lastWith pair added).or (ps.find? (pairOf · = pair)) := by
  induction added generalizing ps with
  | nil => rfl
  | cons p rest ih =>
    rw [List.foldl_cons, ih, find?_override, lastWith_cons, Option.or_assoc]
    split <;> rfl

/-! ## Collecting a list -/

/-- What tells a parameter apart whose place is a text. -/
def idOf (parameter : Fields) : ParameterId :=
  ⟨(pairOf parameter).1, (pairOf parameter).2.elim .null .text⟩

/-- Two parameters are told apart exactly if their names or their places differ. -/
theorem same_idOf : (idOf p).same (idOf q) = true ↔ pairOf p = pairOf q := by
  -- A missing place counts as the null key, which no text is.
  rcases hp : pairOf p with ⟨name, place⟩
  rcases hq : pairOf q with ⟨name', place'⟩
  cases place <;> cases place' <;>
    simp [idOf, hp, hq, ParameterId.same, Key.same, Key.canonical]

/-- A parameter whose place is a text is told apart by its name and its place. -/
theorem parameterId?_eq (hplace : hasTextPlace p) {name : String}
    (hname : Fields.get? p "name" = some (.text name)) :
    parameterId? p = .ok (some (idOf p)) := by
  unfold parameterId? idOf pairOf nameOf
  unfold hasTextPlace at hplace
  rw [hname]
  cases hin : Fields.get? p "in" with
  | none => rfl
  | some place =>
    cases place with
    | text place => rfl
    | _ => simp [hin, Node.text?] at hplace

/-- Putting a parameter among others under what tells it apart is setting it. -/
theorem put_idOf (ps : List Fields) (p : Fields) :
    put (idOf p) p (ps.map fun q => (idOf q, q)) = (override ps p).map fun q => (idOf q, q) := by
  induction ps with
  | nil => rfl
  | cons q rest ih =>
    rw [List.map_cons, put, override]
    by_cases hpair : pairOf q = pairOf p
    · have hid : idOf q = idOf p := by rw [idOf, idOf, hpair]
      rw [if_pos (same_idOf.mpr hpair), if_pos hpair, List.map_cons, hid]
    · rw [if_neg fun hsame => hpair (same_idOf.mp hsame), if_neg hpair, ih, List.map_cons]

/-- A listed parameter is set behind its references. What is no parameter changes nothing. -/
theorem admits_collectOne_parameter (ps : List Fields) {node : Node}
    (hplace : ∀ p, parameter? document node = some p → hasTextPlace p) :
    Admits document (fun _ => False)
      (fun known => known = ((parameter? document node).toList.foldl override ps).map
        fun q => (idOf q, q))
      (collectOne document (ps.map fun q => (idOf q, q)) node) := by
  refine (admits_dereference node).bind fun found hfound => ?_
  split
  · rename_i parameter
    have hleads := (hfound (.object parameter)).mp rfl
    -- References lead to this object only, so its name decides whether it is a parameter.
    by_cases hname : ∃ name, Fields.get? parameter "name" = some (.text name)
    · have hparameter := parameter?_eq_some_iff.mpr ⟨hleads, hname⟩
      obtain ⟨name, hname⟩ := hname
      rw [parameterId?_eq (hplace _ hparameter) hname, hparameter]
      exact admits_pure (put_idOf ps parameter)
    · have hid : parameterId? parameter = .ok none := by
        unfold parameterId?
        split
        · rename_i name hget
          exact absurd ⟨name, hget⟩ hname
        · rfl
      have hnone : parameter? document node = none := by
        refine Option.eq_none_iff_forall_ne_some.mpr fun p hp => ?_
        obtain ⟨hleads', hname'⟩ := parameter?_eq_some_iff.mp hp
        have heq := (hfound (.object p)).mpr hleads'
        obtain rfl := Node.object.inj (Option.some.inj heq)
        exact hname hname'
      rw [hid, hnone]
      exact admits_pure rfl
  · rename_i hother
    have hnone : parameter? document node = none := by
      refine Option.eq_none_iff_forall_ne_some.mpr fun p hp => ?_
      exact hother p ((hfound (.object p)).mpr (parameter?_eq_some_iff.mp hp).1)
    rw [hnone]
    exact admits_pure rfl

/-- Collecting parameters from nodes sets them one by one, and does not fail. -/
theorem admits_foldlM_collectOne (ps : List Fields) {nodes : List Node}
    (hplaces : ∀ p ∈ nodes.filterMap (parameter? document), hasTextPlace p) :
    Admits document (fun _ => False)
      (fun known => known = ((nodes.filterMap (parameter? document)).foldl override ps).map
        fun q => (idOf q, q))
      (nodes.foldlM (collectOne document) (ps.map fun q => (idOf q, q))) := by
  induction nodes generalizing ps with
  | nil => exact admits_pure rfl
  | cons node rest ih =>
    -- A node gives one parameter or none, which is set before those of the rest.
    have hsplit : (node :: rest).filterMap (parameter? document)
        = (parameter? document node).toList ++ rest.filterMap (parameter? document) := by
      rw [List.filterMap_cons]
      cases parameter? document node with
      | none => rfl
      | some p => rfl
    rw [hsplit] at hplaces ⊢
    rw [List.foldlM_cons, List.foldl_append]
    refine (admits_collectOne_parameter ps fun p hp => ?_).bind ?_
    · exact hplaces p (List.mem_append_left _ (by simp [hp]))
    · rintro _ rfl
      exact ih _ fun p hp => hplaces p (List.mem_append_right _ hp)

/-- Collecting a list sets its parameters one after another. -/
theorem admits_collect_listed (ps : List Fields) {source : Option Node}
    (hplaces : ∀ p ∈ listed document source, hasTextPlace p) :
    Admits document (fun _ => False)
      (fun known => known = ((listed document source).foldl override ps).map fun q => (idOf q, q))
      (collect document (ps.map fun q => (idOf q, q)) source) := by
  -- What is no list holds no parameters.
  cases source with
  | none => exact admits_pure rfl
  | some node =>
    cases node with
    | list nodes => exact admits_foldlM_collectOne ps hplaces
    | _ => exact admits_pure rfl

/-! ## Parameters as properties -/

/-- The parameters of a list have different names and places, stand where these are listed first,
and are those that are listed last. What is listed for the operation counts before what is listed
for its path. -/
structure Merges (path own ps : List Fields) : Prop where
  /-- Each name and place stands where it is listed first. -/
  order : ps.map pairOf = ((path ++ own).map pairOf).eraseDups
  /-- No name and place comes twice. -/
  distinct : (ps.map pairOf).Nodup
  /-- What is listed last wins. -/
  last : ∀ p ∈ ps, (lastWith (pairOf p) own).or (lastWith (pairOf p) path) = some p

/-- Setting the parameters of a path and then those of an operation merges the two lists. -/
theorem merges_foldl_override (path own : List Fields) :
    Merges path own ((path ++ own).foldl override []) where
  order := map_pairOf_foldl_override_nil _
  distinct := nodup_foldl_override _
  last := by
    intro p hp
    obtain ⟨q, hq⟩ : ∃ q, ((path ++ own).foldl override []).find? (pairOf · = pairOf p) = some q :=
      Option.isSome_iff_exists.mp (List.find?_isSome.mpr ⟨p, hp, by simp⟩)
    -- No other parameter has the pair, so the one that is found is this one.
    have hpair : pairOf q = pairOf p := by simpa using List.find?_some hq
    have hsame : q = p := List.inj_on_of_nodup_map (nodup_foldl_override _)
      (List.mem_of_find?_eq_some hq) hp hpair
    rw [find?_foldl_override, List.find?_nil, Option.or_none, lastWith_append] at hq
    rw [hq, hsame]

/-- Merged parameters that go to one place have different names. -/
theorem Merges.nodup_names {path own : List Fields} (h : Merges path own ps) (place : String) :
    ((ps.filter (goesTo place)).map nameOf).Nodup := by
  -- With the place given, the name alone tells parameters apart.
  have hpairs : ((ps.filter (goesTo place)).map nameOf).map (fun name => (name, some place))
      = (ps.filter (goesTo place)).map pairOf := by
    rw [List.map_map]
    refine List.map_congr_left fun p hp => ?_
    have hplace : (Fields.get? p "in").bind Node.text? = some place := by
      simpa [goesTo] using (List.mem_filter.mp hp).2
    show (nameOf p, some place) = (nameOf p, (Fields.get? p "in").bind Node.text?)
    rw [hplace]
  have hdistinct : ((ps.filter (goesTo place)).map pairOf).Nodup :=
    h.distinct.sublist (List.filter_sublist.map pairOf)
  rw [← hpairs] at hdistinct
  exact hdistinct.of_map _

/-- An object schema has one property for each of the parameters, in their order, and requires those
that are marked as required. -/
structure Describes (schema : Fields) (ps : List Fields) : Prop where
  /-- The properties. -/
  properties : Fields.get? schema "properties"
    = some (.object (ps.map fun p => (.text (nameOf p), .object (parameterSchema p))))
  /-- No property comes twice. -/
  distinct : (ps.map nameOf).Nodup
  /-- The required properties. -/
  required : ∃ names, Fields.get? schema "required" = some (.list names) ∧
    (∀ node ∈ names, ∃ p ∈ ps, node = .text (nameOf p)) ∧
    ∀ p ∈ ps, .text (nameOf p) ∈ names ↔ Fields.get? p "required" = some (.bool true)

/-- A parameter is required exactly if it is marked by the value true. -/
theorem isRequired_iff : isRequired p = true ↔ Fields.get? p "required" = some (.bool true) := by
  unfold isRequired
  split
  · rename_i hrequired
    simp [hrequired]
  · rename_i hother
    simpa using hother

/-- The object schema made of parameters with different names describes them. -/
theorem describes_objectOf (h : (ps.map nameOf).Nodup) : Describes (objectOf ps) ps where
  properties := by
    -- The names are distinct, so no later parameter replaces a property.
    have hkeys : Fields.Distinct (ps.map fun p => (Key.text (nameOf p),
        Node.object (parameterSchema p))) := by
      rw [Fields.Distinct, Fields.keys, List.map_map, List.pairwise_map]
      refine (List.pairwise_map.mp h).imp fun {p q} hne => ?_
      show Key.same (.text (nameOf p)) (.text (nameOf q)) = false
      simpa [Key.same, Key.canonical] using hne
    show some (Node.object (Fields.ofList _)) = _
    rw [hkeys.ofList_eq]
  distinct := h
  required := by
    refine ⟨_, rfl, fun node hnode => ?_, fun p hp => ?_⟩
    · obtain ⟨p, hp, rfl⟩ := List.mem_map.mp hnode
      exact ⟨p, (List.mem_filter.mp hp).1, rfl⟩
    · rw [← isRequired_iff]
      constructor
      · intro hmem
        obtain ⟨q, hq, hname⟩ := List.mem_map.mp hmem
        obtain ⟨hq, hrequired⟩ := List.mem_filter.mp hq
        obtain rfl := List.inj_on_of_nodup_map h hq hp (Node.text.inj hname)
        exact hrequired
      · intro hrequired
        exact List.mem_map.mpr ⟨p, List.mem_filter.mpr ⟨hp, hrequired⟩, rfl⟩

end Lookup

/-! ## The parameters of an operation -/

namespace Operation

/-- The parameters listed for the path of an operation. -/
def pathParameters (document : Node) (o : Operation) : List Fields :=
  Lookup.listed document ((o.pathItem document).toOption.bind (Fields.get? · "parameters"))

/-- The parameters listed for an operation itself. -/
def ownParameters (document : Node) (o : Operation) : List Fields :=
  Lookup.listed document ((o.raw document).toOption.bind (Fields.get? · "parameters"))

end Operation

namespace Lookup

open Expansion

variable {document : Node} {items : Fields} (hpaths : Document.paths document = .ok items)
  {o : Operation}
  (hplaces : ∀ p ∈ o.pathParameters document ++ o.ownParameters document, hasTextPlace p)

include hpaths hplaces

/-- The parameters of an operation are those of its path and its own, set one after another. -/
theorem admits_parameters_override :
    Admits document (fun _ => False) (fun ps =>
      ps = (o.pathParameters document ++ o.ownParameters document).foldl override [])
      (parameters document o) := by
  obtain ⟨item, hitem⟩ := o.exists_pathItem hpaths
  obtain ⟨raw, hraw⟩ := o.exists_raw hpaths
  rw [Operation.pathParameters, Operation.ownParameters, hitem, hraw] at hplaces ⊢
  rw [parameters, hitem, hraw]
  refine (admits_pure rfl).bind fun item' hitem' => ?_
  obtain rfl : item = item' := hitem'
  refine (admits_pure rfl).bind fun raw' hraw' => ?_
  obtain rfl : raw = raw' := hraw'
  -- The parameters of the path come first, then the operation's own on the same list.
  refine (admits_collect_listed [] fun p hp => hplaces p (List.mem_append_left _ hp)).bind ?_
  rintro _ rfl
  refine (admits_collect_listed _ fun p hp => hplaces p (List.mem_append_right _ hp)).bind ?_
  rintro _ rfl
  refine admits_pure ?_
  rw [List.map_map, List.foldl_append]
  exact List.map_id _

/-- The schema for the query is made of the merged parameters that go there. -/
theorem admits_query_override :
    Admits document (fun _ => False) (fun asked => asked = objectOf?
      (((o.pathParameters document ++ o.ownParameters document).foldl override []).filter
        (goesTo "query"))) (query document o) := by
  refine (admits_parameters_override hpaths hplaces).bind ?_
  rintro _ rfl
  exact admits_pure rfl

omit hpaths in
/-- If all places are texts, the parameters of an operation are found. They have different names and
places, in the order in which these are listed first. Of several with one name and place the last
one of the operation itself counts, and if it has none the last one of the path. If any of them go
to the query, these are the properties of one object schema, in the same order. -/
theorem parameters_last_wins {basePaths : List String} {catalog : Catalog}
    (hcatalog : Catalog.ofDocument document basePaths = .ok catalog)
    (ho : o ∈ catalog.operations) {s : Session} (hs : s.Faithful document) :
    ∃ ps t asked u, (parameters document o).run s = (.ok ps, t) ∧
      Merges (o.pathParameters document) (o.ownParameters document) ps ∧
      (query document o).run s = (.ok asked, u) ∧
      (asked = none ↔ ps.filter (goesTo "query") = []) ∧
      ∀ schema, asked = some schema → Describes schema (ps.filter (goesTo "query")) := by
  obtain ⟨items, hpaths, -⟩ := Catalog.exists_of_mem_operations hcatalog ho
  obtain ⟨_, t, hparameters, rfl⟩ :=
    (admits_parameters_override hpaths hplaces).exists_run_eq_ok hs
  obtain ⟨_, u, hquery, rfl⟩ := (admits_query_override hpaths hplaces).exists_run_eq_ok hs
  have hmerges := merges_foldl_override (o.pathParameters document) (o.ownParameters document)
  refine ⟨_, t, _, u, hparameters, hmerges, hquery, ?_⟩
  have hnames := hmerges.nodup_names "query"
  -- Only an empty list has no schema.
  rcases hasked : List.filter (goesTo "query") _ with _ | ⟨p, ps⟩
  · exact ⟨by simp [objectOf?], fun schema hschema => nomatch hschema⟩
  · rw [hasked] at hnames
    refine ⟨by simp [objectOf?], fun schema hschema => ?_⟩
    obtain rfl := Option.some.inj hschema
    exact describes_objectOf hnames

end Lookup

/-- A path that lists a parameter behind a reference, a text, another parameter, and an object
without a name. The operation lists one parameter of the path again, and another one twice. -/
def relistedDocument : Node :=
  .object [
    (.text "paths", .object [(.text "/pets/{id}", .object [
      (.text "parameters", .list [
        .object [(.text "$ref", .text "#/Limit")],
        .text "id",
        .object [(.text "name", .text "id"), (.text "in", .text "path")],
        .object [(.text "in", .text "query")]]),
      (.text "get", .object [(.text "parameters", .list [
        .object [(.text "name", .text "sort"), (.text "in", .text "query")],
        .object [(.text "name", .text "limit"), (.text "in", .text "query"),
          (.text "required", .bool true)],
        .object [(.text "name", .text "sort"), (.text "in", .text "query"),
          (.text "description", .text "Order")]])])])]),
    (.text "Limit", .object [(.text "name", .text "limit"), (.text "in", .text "query")])]

/-- The parameter that is listed again keeps its place before those of the operation. -/
theorem Lookup.parameters_last_wins_relisted :
    ∃ catalog o, Catalog.ofDocument relistedDocument [] = .ok catalog ∧
      o ∈ catalog.operations ∧
      (∀ p ∈ o.pathParameters relistedDocument ++ o.ownParameters relistedDocument,
        Lookup.hasTextPlace p) ∧
      ({} : Session).Faithful relistedDocument ∧
      ((o.pathParameters relistedDocument ++ o.ownParameters relistedDocument).map Lookup.nameOf
        = ["limit", "id", "sort", "limit", "sort"]) ∧
      ∃ ps t asked u, (Lookup.parameters relistedDocument o).run {} = (.ok ps, t) ∧
        Lookup.Merges (o.pathParameters relistedDocument) (o.ownParameters relistedDocument) ps ∧
        (Lookup.query relistedDocument o).run {} = (.ok asked, u) ∧
        (asked = none ↔ ps.filter (Lookup.goesTo "query") = []) ∧
        ∀ schema, asked = some schema →
          Lookup.Describes schema (ps.filter (Lookup.goesTo "query")) := by
  have hcatalog : ∃ catalog o, Catalog.ofDocument relistedDocument [] = .ok catalog ∧
      o ∈ catalog.operations ∧
      (∀ p ∈ o.pathParameters relistedDocument ++ o.ownParameters relistedDocument,
        Lookup.hasTextPlace p) ∧
      ((o.pathParameters relistedDocument ++ o.ownParameters relistedDocument).map Lookup.nameOf
        = ["limit", "id", "sort", "limit", "sort"]) :=
    ⟨_, _, rfl, List.mem_cons_self, by decide +kernel, by decide +kernel⟩
  obtain ⟨catalog, o, hcatalog, ho, hplaces, hnames⟩ := hcatalog
  have hs := Session.faithful_empty relistedDocument
  exact ⟨catalog, o, hcatalog, ho, hplaces, hs, hnames,
    Lookup.parameters_last_wins hplaces hcatalog ho hs⟩

end ClientGen
