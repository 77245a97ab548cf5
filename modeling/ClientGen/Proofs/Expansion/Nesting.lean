import ClientGen.Proofs.Expansion.Levels
import ClientGen.Proofs.Expansion.Pass
import ClientGen.Proofs.Expansion.Settling
import ClientGen.Proofs.Schema.Height

/-!
# Nesting and references

What the limit on the depth of nesting counts: going down in a schema, and following references.

* `Expansion.MeetsLimit`: the computation meets the limit.
* `Descending`: references lead only downwards, so that no reference comes back to where it started.
* `Expander.exists_least_limit`: where references lead only downwards, there is a least limit that
  an expansion does not meet. It is bounded by the depth of the schemas times the number of schemas
  on the longest chain of references.
* `Expander.limit_counts_references`: it is not bounded by the depth of the schemas alone.
-/

namespace ClientGen

namespace Expansion

variable {α : Type} {document : Node} {P : α → Prop}

/-- The computation meets the limit on the depth of nesting. -/
def MeetsLimit (x : Expansion α) (s : Session) : Prop :=
  ∃ origin limit, (x.run s).1 = .error (.tooDeep origin limit)

/-- In every session with a faithful memory, the computation does not meet the limit, and what it
returns has the property. -/
def Spares (document : Node) (P : α → Prop) (x : Expansion α) : Prop :=
  ∀ s : Session, s.Faithful document →
    ¬ x.MeetsLimit s ∧ ∀ a t, x.run s = (.ok a, t) → t.Faithful document ∧ P a

/-- What is not allowed to meet the limit does not meet it. -/
theorem Admits.spares {x : Expansion α}
    (h : Admits document (fun f => ∀ origin limit, f ≠ .tooDeep origin limit) P x) :
    Spares document P x := by
  refine fun s hs => ⟨?_, fun a t hrun => h.returns hs hrun⟩
  rintro ⟨origin, limit, hlimit⟩
  exact h.fails hs (Prod.ext hlimit rfl) origin limit rfl

end Expansion

namespace Node

mutual

/-- A node on its own: a schema of texts stands in place of every reference in it. -/
def alone : Node → Node
  | .list items => .list (aloneItems items)
  | .object fields =>
    if (Schema.pointer? fields).isSome then .object [(.text "type", .text "string")]
    else .object (aloneFields fields)
  | node => node

/-- The items of a list on their own. -/
def aloneItems : List Node → List Node
  | [] => []
  | x :: xs => x.alone :: aloneItems xs

/-- The members of an object on their own. -/
def aloneFields : List (Key × Node) → List (Key × Node)
  | [] => []
  | (k, v) :: fs => (k, v.alone) :: aloneFields fs

end

end Node

/-- The objects that the pointers name hold only pointers of lower rank: references lead only
downwards. -/
def Descending (document : Node) (pointers : List String) (rank : String → Nat) : Prop :=
  ∀ p ∈ pointers, ∀ target, Pointer.resolve document p = some (.object target) →
    ∀ q ∈ (Node.object target).pointers, rank q < rank p

/-- The objects that the pointers name are nested at most so deep. -/
def FlatBehind (document : Node) (pointers : List String) (depth : Nat) : Prop :=
  ∀ p ∈ pointers, ∀ target, Pointer.resolve document p = some (.object target) →
    (Node.object target).height ≤ depth

namespace Expander

open Expansion Schema

variable {e : Expander} {root : Fields} {rank : String → Nat} {depth : Nat}

/-- A node fits into `n` levels: there is one for each node on the way down, and for every reference
that can be followed one more than the object behind it is deep. -/
def Fits (e : Expander) (root : Fields) (rank : String → Nat) (depth n : Nat) (node : Node) :
    Prop :=
  ∃ k, (∀ p ∈ node.pointers, p ∈ e.pointersWithin root ∧ rank p < k) ∧
    node.height + k * (depth + 1) ≤ n

namespace Fits

variable {n : Nat} {v w : Node} {schema target : Fields}

/-- A node that fits into some levels needs at least one. -/
theorem pos (h : Fits e root rank depth n v) : 0 < n := by
  obtain ⟨k, -, hle⟩ := h
  have := v.height_pos
  omega

/-- A node fits into more levels than it needs. -/
theorem mono {m : Nat} (h : Fits e root rank depth n v) (hnm : n ≤ m) :
    Fits e root rank depth m v := by
  obtain ⟨k, hk, hle⟩ := h
  exact ⟨k, hk, hle.trans hnm⟩

/-- What is nested less deep by some levels fits into so many fewer. -/
theorem inside (h : Fits e root rank depth n w) (hpointers : v.pointers ⊆ w.pointers) {j : Nat}
    (hheight : v.height + j ≤ w.height) : Fits e root rank depth (n - j) v := by
  obtain ⟨k, hk, hle⟩ := h
  exact ⟨k, fun p hp => hk p (hpointers hp), by omega⟩

/-- A node inside of another one needs a level less. -/
theorem part (h : Fits e root rank depth n w) (hpart : Node.Part v w) :
    Fits e root rank depth (n - 1) v :=
  h.inside hpart.pointers_subset hpart.height_lt

/-- A part that is listed in a schema needs two levels less. -/
theorem member {key : String} {part : Fields} (h : Fits e root rank depth n (.object schema))
    (hpart : part ∈ members schema key) : Fits e root rank depth (n - 2) (.object part) :=
  h.inside (part_of_mem_members hpart).pointers_subset (height_of_mem_members hpart)

/-- An option of a schema needs two levels less. -/
theorem option {option : Fields} (h : Fits e root rank depth n (.object schema))
    (hoption : option ∈ (choices schema).2) : Fits e root rank depth (n - 2) (.object option) :=
  h.inside (part_of_mem_choices hoption).pointers_subset (height_of_mem_choices hoption)

/-- A property of a schema needs two levels less. -/
theorem property {key : Key} (h : Fits e root rank depth n (.object schema))
    (hproperty : (key, v) ∈ fieldsUnder schema "properties") :
    Fits e root rank depth (n - 2) v :=
  h.inside (part_of_mem_fieldsUnder hproperty).pointers_subset
    (height_of_mem_fieldsUnder hproperty)

/-- The items of a list fit into one level less. -/
theorem items (h : Fits e root rank depth n (.object schema)) (hkind : kind schema = .array) :
    Fits e root rank depth (n - 1) (.object (items schema)) := by
  refine h.inside ?_ (height_items_lt hkind)
  rcases items_eq_nil_or_part schema with hnil | hpart
  · rw [hnil, Node.pointers, Node.pointersOfFields]
    exact List.nil_subset _
  · exact hpart.pointers_subset

variable (hdown : Descending e.document (e.pointersWithin root) rank)
  (hflat : FlatBehind e.document (e.pointersWithin root) depth)

include hdown hflat

/-- What a pointer names fits into fewer levels than the reference: the levels that the reference
has set aside are enough. -/
theorem behind (h : Fits e root rank depth n (.object schema)) {pointer : String}
    (hpointer : pointer? schema = some pointer)
    (hresolve : Pointer.resolve e.document pointer = some (.object target)) :
    Fits e root rank depth (n - 2) (.object target) := by
  obtain ⟨k, hk, hle⟩ := h
  have hmem := mem_pointers_of_pointer? hpointer
  obtain ⟨hwithin, hrank⟩ := hk pointer hmem
  have hdocument := Pointer.pointers_subset_of_resolve hresolve
  refine ⟨rank pointer, fun q hq => ⟨?_, hdown pointer hwithin target hresolve q hq⟩, ?_⟩
  · exact List.mem_append_left _ (hdocument hq)
  · have hheight := hflat pointer hwithin target hresolve
    have hpos := (Node.object schema).height_pos
    have hlevels : (rank pointer + 1) * (depth + 1) ≤ k * (depth + 1) :=
      Nat.mul_le_mul_right _ hrank
    rw [Nat.succ_mul] at hlevels
    omega

/-- Where a reference leads fits into the levels of the schema, and leaves two of them if the schema
itself is a reference. -/
theorem leads (h : Fits e root rank depth n (.object schema))
    (hleads : Leads e.document schema target) : Fits e root rank depth n (.object target) ∧
      (kind schema = .reference → Fits e root rank depth (n - 2) (.object target)) := by
  induction hleads generalizing n with
  | here hnone =>
    refine ⟨h, fun hkind => ?_⟩
    obtain ⟨pointer, hpointer⟩ := exists_pointer_of_reference hkind
    simp [hnone] at hpointer
  | along hpointer hresolve _ ih =>
    have hless := (ih (h.behind hdown hflat hpointer hresolve)).1
    exact ⟨hless.mono (Nat.sub_le n 2), fun _ => hless⟩

/-- A part that a schema is put together from fits into its levels. -/
theorem partOf {part : Fields} (h : Fits e root rank depth n (.object schema))
    (hpart : PartOf e.document schema part) : Fits e root rank depth n (.object part) := by
  cases hpart with
  | own =>
    have hsub : (own schema).Sublist schema := List.filter_sublist
    exact h.inside (j := 0) (Node.pointers_subset_of_sublist hsub)
      (Node.height_le_of_sublist hsub)
  | listed hmember hleads =>
    exact (((h.member hmember).mono (Nat.sub_le n 2)).leads hdown hflat hleads).1

/-- A schema that contributes properties to another one fits into the levels of that one. -/
theorem contributes {part : Fields} (h : Fits e root rank depth n (.object schema))
    (hpart : Contributes e.document schema part) : Fits e root rank depth n (.object part) := by
  induction hpart with
  | part hpart => exact h.partOf hdown hflat hpart
  | inner hmiddle _ _ ih => exact ih (h.partOf hdown hflat hmiddle)

end Fits

/-- A job fits into `left` levels. A declaration may use all of them. A type needs one more, since
it may have to be declared one level down. -/
def Job.Fits (e : Expander) (root : Fields) (rank : String → Nat) (depth left : Nat) : Job → Prop
  | .declare schema => Expander.Fits e root rank depth left (.object schema)
  | .type node => ∃ n < left, Expander.Fits e root rank depth n node

section Spared

variable (hdown : Descending e.document (e.pointersWithin root) rank)
  (hflat : FlatBehind e.document (e.pointersWithin root) depth)

/-! ## Levels that are enough -/

include hdown hflat

/-- What a job calls for fits into a level less. -/
theorem Job.Fits.calls {left : Nat} {job job' : Job}
    (h : job.Fits e root rank depth (left + 1)) (hcall : Calls e.document job job') :
    job'.Fits e root rank depth left := by
  -- Properties and members of choices are two levels down, so there is room for their types.
  have hinside : ∀ node, Expander.Fits e root rank depth (left + 1 - 2) node →
      Job.Fits e root rank depth left (.type node) := by
    intro node hnode
    have hpos := hnode.pos
    exact ⟨left + 1 - 2, by omega, hnode⟩
  cases hcall with
  | target hkind hleads => exact ((h.leads hdown hflat hleads).2 hkind).mono (by omega)
  | items hkind => exact h.items hkind
  | property _ hmem => exact hinside _ (h.property hmem)
  | merged _ hpart hmem => exact hinside _ ((h.contributes hdown hflat hpart).property hmem)
  | option _ hmem => exact hinside _ (h.option hmem)
  | named =>
    obtain ⟨n, hn, h⟩ := h
    exact h.mono (Nat.le_of_lt_succ hn)
  | behind _ hleads =>
    obtain ⟨n, hn, h⟩ := h
    exact (h.leads hdown hflat hleads).1.mono (Nat.le_of_lt_succ hn)
  | through hkind hleads =>
    obtain ⟨n, hn, h⟩ := h
    have hpos := h.pos
    exact ⟨n - 2, by omega, (h.leads hdown hflat hleads).2 hkind⟩
  | choice _ hmem =>
    obtain ⟨n, hn, h⟩ := h
    have hpos := h.pos
    exact ⟨n - 2, by omega, h.option hmem⟩
  | item hkind =>
    obtain ⟨n, hn, h⟩ := h
    have hpos := h.pos
    exact ⟨n - 1, by omega, h.items hkind⟩
  | value _ hget =>
    obtain ⟨n, hn, h⟩ := h
    have hpos := h.pos
    exact ⟨n - 1, by omega, h.part (part_of_get? hget)⟩

/-- What fits into the levels that are left does not meet the limit. -/
theorem level_spares (left : Nat) :
    (∀ schema suffix place, Fits e root rank depth left (.object schema) →
      Spares e.document (fun _ => True) (e.declare left schema suffix place)) ∧
      ∀ n < left, ∀ node place, Fits e root rank depth n node →
        Spares e.document (fun _ => True) (e.propertyType left node place) := by
  have hnone : ∀ job, ¬ Job.Fits e root rank depth 0 job := by
    rintro (schema | node) h
    · exact Nat.lt_irrefl 0 h.pos
    · obtain ⟨n, hn, -⟩ := h
      exact Nat.not_lt_zero n hn
  have hlevel := e.admits_level (fun f => ∀ origin limit, f ≠ .tooDeep origin limit)
    (Job.Fits e root rank depth) (fun job h => absurd h (hnone job))
    (fun _ _ _ h hcall => h.calls hdown hflat hcall) (fun _ _ _ _ _ _ _ _ => nofun) left
  exact ⟨fun schema suffix place h => (hlevel.1 schema suffix place h).spares,
    fun n hn node place h => (hlevel.2 node place ⟨n, hn, h⟩).spares⟩

end Spared

/-! ## The least limit -/

section Least

variable {document : Node} {schema : Fields} {base suffix origin : String} {s : Session} {r : Nat}

/-- Where a greater limit is met, a smaller one is met as well. -/
theorem meetsLimit_of_le {limit limit' : Int} (h : limit ≤ limit')
    (hmeets : (resolve ⟨document, limit'⟩ (.object schema) base suffix origin).MeetsLimit s) :
    (resolve ⟨document, limit⟩ (.object schema) base suffix origin).MeetsLimit s := by
  rcases below_resolve document h (.object schema) base suffix origin s with
    heq | ⟨origin', limit'', t, ht, -⟩
  · rwa [MeetsLimit, heq]
  · exact ⟨origin', limit'', by rw [ht]⟩

/-- Where references lead only downwards, an expansion has a least limit that it does not meet. With
schemas that are nested at most `depth` deep and at most `r` references one after another, it is
less than the depth of all schemas on the longest chain together. -/
theorem exists_least_limit (hs : s.Faithful document)
    (hdown : Descending document (document.pointers ++ (Node.object schema).pointers) rank)
    (hflat : FlatBehind document (document.pointers ++ (Node.object schema).pointers) depth)
    (hrank : ∀ p ∈ (Node.object schema).pointers, rank p < r)
    (hheight : (Node.object schema).height ≤ depth) :
    ∃ least : Nat, least + 1 < (r + 1) * (depth + 1) ∧ ∀ limit : Int,
      (resolve ⟨document, limit⟩ (.object schema) base suffix origin).MeetsLimit s ↔
        limit < least := by
  classical
  have hpos := (Node.object schema).height_pos
  have hmul : (r + 1) * (depth + 1) = r * (depth + 1) + (depth + 1) := Nat.succ_mul _ _
  obtain ⟨m, hm⟩ : ∃ m, depth + r * (depth + 1) = m + 1 := ⟨_, (Nat.succ_pred (by omega)).symm⟩
  -- The schema fits into one level more than the limit `m`, and that limit allows them.
  have hfits : Fits ⟨document, m⟩ schema rank depth (m + 1) (.object schema) :=
    ⟨r, fun p hp => ⟨List.mem_append_right _ hp, hrank p hp⟩, by omega⟩
  have hlevels : levels ⟨document, m⟩ = m + 1 := by
    simp only [levels]
    omega
  have hnot : ¬ (resolve ⟨document, m⟩ (.object schema) base suffix origin).MeetsLimit s := by
    rw [resolve, hlevels]
    exact ((level_spares hdown hflat _).1 schema suffix _ hfits s hs).1
  have henough : ∃ n : Nat,
      ¬ (resolve ⟨document, n⟩ (.object schema) base suffix origin).MeetsLimit s := ⟨m, hnot⟩
  refine ⟨Nat.find henough, ?_, fun limit => ⟨fun hmeets => ?_, fun hlt => ?_⟩⟩
  · have hle : Nat.find henough ≤ m := Nat.find_min' henough hnot
    omega
  · by_contra hge
    exact Nat.find_spec henough (meetsLimit_of_le (by omega) hmeets)
  · rcases lt_or_ge limit 0 with hneg | hnonneg
    · have hnone : levels ⟨document, limit⟩ = 0 := by
        simp only [levels]
        omega
      rw [resolve, hnone, declare]
      exact ⟨_, _, rfl⟩
    · obtain ⟨n, rfl⟩ := Int.eq_ofNat_of_zero_le hnonneg
      exact not_not.mp (Nat.find_min henough (by omega))

/-- A document with two objects, of which the first one refers to the second one. -/
def linkedDocument : Node :=
  .object [(.text "A", .object (withProperties [(.text "b", pointing "#/B")])),
    (.text "B", .object (withProperties [(.text "c", .object [(.text "type", .text "string")])]))]

/-- A schema that refers to the first object. -/
def linkedSchema : Fields := withProperties [(.text "a", pointing "#/A")]

/-- The rank of the references there: that to the first object is followed first. -/
def linkedRank (pointer : String) : Nat := if pointer = "#/A" then 1 else 0

/-- Each object on its own is flat, and so is the schema. -/
theorem linked_objects {pointer : String} {target : Fields}
    (hpointer : pointer ∈ linkedDocument.pointers ++ (Node.object linkedSchema).pointers)
    (hresolve : Pointer.resolve linkedDocument pointer = some (.object target)) :
    pointer = "#/A" ∧ target = withProperties [(.text "b", pointing "#/B")] ∨
      pointer = "#/B" ∧
        target = withProperties [(.text "c", .object [(.text "type", .text "string")])] := by
  have hpointers : linkedDocument.pointers ++ (Node.object linkedSchema).pointers
      = ["#/B", "#/A"] := rfl
  rw [hpointers] at hpointer
  have hcases : pointer = "#/B" ∨ pointer = "#/A" := by simpa using hpointer
  rcases hcases with rfl | rfl
  · exact .inr ⟨rfl, (Node.object.inj (Option.some.inj hresolve)).symm⟩
  · exact .inl ⟨rfl, (Node.object.inj (Option.some.inj hresolve)).symm⟩

/-- The references of this document lead only downwards. -/
theorem linked_descending :
    Descending linkedDocument (linkedDocument.pointers ++ (Node.object linkedSchema).pointers)
      linkedRank := by
  intro p hp target htarget q hq
  rcases linked_objects hp htarget with ⟨rfl, rfl⟩ | ⟨rfl, rfl⟩
  · obtain rfl : q = "#/B" := List.mem_singleton.mp hq
    decide
  · exact absurd hq List.not_mem_nil

/-- Two references, and schemas that are nested four deep. -/
theorem exists_least_limit_linked :
    ({} : Session).Faithful linkedDocument ∧
      Descending linkedDocument (linkedDocument.pointers ++ (Node.object linkedSchema).pointers)
        linkedRank ∧
      FlatBehind linkedDocument (linkedDocument.pointers ++ (Node.object linkedSchema).pointers)
        4 ∧
      (∀ p ∈ (Node.object linkedSchema).pointers, linkedRank p < 2) ∧
      (Node.object linkedSchema).height ≤ 4 ∧
      ∃ least : Nat, least + 1 < (2 + 1) * (4 + 1) ∧ ∀ limit : Int,
        (resolve ⟨linkedDocument, limit⟩ (.object linkedSchema) "Root" "" "").MeetsLimit {} ↔
          limit < least := by
  have hs : ({} : Session).Faithful linkedDocument := fun pointer target h => by simp at h
  have hflat : FlatBehind linkedDocument
      (linkedDocument.pointers ++ (Node.object linkedSchema).pointers) 4 := by
    intro p hp target htarget
    rcases linked_objects hp htarget with ⟨-, rfl⟩ | ⟨-, rfl⟩ <;> decide
  have hrank : ∀ p ∈ (Node.object linkedSchema).pointers, linkedRank p < 2 := by
    intro p hp
    obtain rfl : p = "#/A" := List.mem_singleton.mp hp
    decide
  have hheight : (Node.object linkedSchema).height ≤ 4 := by decide
  exact ⟨hs, linked_descending, hflat, hrank, hheight,
    exists_least_limit hs linked_descending hflat hrank hheight⟩

/-- It is not so that a limit which is met neither by a schema on its own nor by any object that
references name, each on its own, is not met by all of them together. -/
theorem limit_counts_references :
    ¬ ∀ (e : Expander) (schema : Fields) (base : String),
      (∃ rank, Descending e.document
        (e.document.pointers ++ (Node.object schema).pointers) rank) →
      (∀ base, ¬ (e.resolve (Node.object schema).alone base "" "").MeetsLimit {}) →
      (∀ p ∈ e.document.pointers ++ (Node.object schema).pointers, ∀ target,
        Pointer.resolve e.document p = some (.object target) →
          ∀ base, ¬ (e.resolve (Node.object target).alone base "" "").MeetsLimit {}) →
      ¬ (e.resolve (.object schema) base "" "").MeetsLimit {} := by
  intro h
  refine h ⟨linkedDocument, 4⟩ linkedSchema "Root" ⟨linkedRank, linked_descending⟩ ?_ ?_ ?_
  · rintro base ⟨origin, limit, hlimit⟩
    exact nomatch hlimit
  · rintro p hp target htarget base ⟨origin, limit, hlimit⟩
    rcases linked_objects hp htarget with ⟨-, rfl⟩ | ⟨-, rfl⟩
    · exact nomatch hlimit
    · exact nomatch hlimit
  · -- The second reference is followed at the limit, and there is a text behind it.
    exact ⟨_, _, rfl⟩

end Least

end Expander

end ClientGen
