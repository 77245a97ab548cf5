import ClientGen.Proofs.Expansion.Pass
import ClientGen.Proofs.Expansion.Watch

/-!
# Ways down a recursion

Putting schemas together and finding the reference to a type go on behind references, in a document
where these may lead in rings. On every way down, each pointer is followed once.

* `Watch.Orderly`: no bound was met, no pointer stands twice on a way, and none was on the chain at
  the start.
* `Watching.Coincide`: two computations that keep to this, and do the same.
* `Expander.Prolongs`: the chain at the end of a way.
* `Expander.coincide_mergeWatched`, `Expander.coincide_listsWatched`: with room for all steps the
  recursions keep to it, and greater bounds make no difference.
* `Expander.merge_and_typeReference_end`: so it is from every schema and every chain on.
-/

namespace ClientGen

/-- What was watched is in order: the memory is faithful, no bound was met, no pointer stands twice
on a way, and none that is on the chain at the start stands on one. -/
structure Watch.Orderly (document : Node) (start : List String) (w : Watch) : Prop where
  /-- The memory is faithful. -/
  faithful : w.session.Faithful document
  /-- No bound on the number of steps was met. -/
  uncut : w.cut = false
  /-- On no way a pointer was looked up twice. -/
  nodup : ∀ way ∈ w.ways, way.Nodup
  /-- On no way a pointer was looked up that is on the chain at the start. -/
  fresh : ∀ way ∈ w.ways, way.Disjoint start

namespace Watching

variable {α β : Type} {document : Node} {start way : List String} {P Q : α → Prop}
  {R : β → Prop}

/-- Where all is in order, two computations do the same and keep the order, and what they return has
a property. -/
def Coincide (document : Node) (start : List String) (Q : α → Prop) (x y : Watching α) : Prop :=
  ∀ w : Watch, w.Orderly document start → y.run w = x.run w ∧
    (x.run w).2.Orderly document start ∧ ∀ a, (x.run w).1 = .ok a → Q a

/-- Where all is in order, a computation keeps the order, and what it returns has a property. -/
abbrev Keeps (document : Node) (start : List String) (Q : α → Prop) (x : Watching α) : Prop :=
  Coincide document start Q x x

/-- Two computations that coincide do so if less is asked of what they return. -/
theorem Coincide.mono {x y : Watching α} (h : Coincide document start P x y)
    (hPQ : ∀ a, P a → Q a) : Coincide document start Q x y := by
  intro w hw
  obtain ⟨hrun, horderly, hresult⟩ := h w hw
  exact ⟨hrun, horderly, fun a ha => hPQ a (hresult a ha)⟩

/-- Returning a result with the property keeps the order. -/
theorem keeps_pure {a : α} (ha : Q a) : Keeps document start Q (pure a) := by
  intro w hw
  refine ⟨rfl, hw, fun b hb => ?_⟩
  obtain rfl : a = b := Except.ok.inj hb
  exact ha

/-- Sequences coincide if their first parts do, and their second parts for all results of these. -/
theorem Coincide.bind {x y : Watching α} {f g : α → Watching β} (hx : Coincide document start P x y)
    (hf : ∀ a, P a → Coincide document start R (f a) (g a)) :
    Coincide document start R (x >>= f) (y >>= g) := by
  intro w hw
  obtain ⟨hrun, horderly, hresult⟩ := hx w hw
  rw [run_bind, run_bind, hrun]
  rcases hxw : x.run w with ⟨e | a, u⟩ <;> rw [hxw] at horderly hresult
  · exact ⟨rfl, horderly, fun b hb => nomatch hb⟩
  · exact hf a (hresult a rfl) u horderly

/-- What needs no watching declares nothing and keeps the memory faithful. -/
theorem keeps_unwatched {x : Expansion α} (hx : Expansion.Quiet document x) :
    Keeps document start (fun _ => True) (unwatched x) := by
  intro w hw
  have hfaithful := (hx w.session).2.faithful hw.faithful
  exact ⟨rfl, ⟨hfaithful, hw.uncut, hw.nodup, hw.fresh⟩, fun _ _ => trivial⟩

/-- A pointer that is new on its way is looked up. -/
theorem keeps_lookUp {pointer : String} (hnodup : (pointer :: way).Nodup)
    (hfresh : (pointer :: way).Disjoint start) :
    Keeps document start (fun found => ∀ target, found = some target ↔
        Pointer.resolve document pointer = some (.object target))
      (lookUp document way pointer) := by
  intro w hw
  have hfaithful := (Reference.lookUp_precedes document pointer w.session).2.faithful hw.faithful
  refine ⟨rfl, ⟨hfaithful, hw.uncut, ?_, ?_⟩, fun found hfound target => ?_⟩
  · exact List.forall_mem_append.mpr ⟨hw.nodup, List.forall_mem_singleton.mpr hnodup⟩
  · exact List.forall_mem_append.mpr ⟨hw.fresh, List.forall_mem_singleton.mpr hfresh⟩
  · obtain rfl : (Reference.lookUp document pointer w.session).1 = found := Except.ok.inj hfound
    exact Reference.lookUp_eq_some_iff hw.faithful

/-- Going through a list coincides if each of its steps does. -/
theorem coincide_foldlM {f g : β → α → Watching β} {xs : List α}
    (hf : ∀ b, ∀ x ∈ xs, Coincide document start (fun _ => True) (f b x) (g b x)) (b : β) :
    Coincide document start (fun _ => True) (xs.foldlM f b) (xs.foldlM g b) := by
  induction xs generalizing b with
  | nil => exact keeps_pure trivial
  | cons x rest ih =>
    rw [List.foldlM_cons, List.foldlM_cons]
    refine (hf b x List.mem_cons_self).bind fun b' _ => ?_
    exact ih (fun b y hy => hf b y (List.mem_cons_of_mem _ hy)) b'

end Watching

namespace Expander

open Expansion Schema Watching

variable {e : Expander} {schema : Fields} {start chain way : List String} {k n fuel : Nat}

/-- The chain at the end of a way from the start: the pointers of the way stand in front, and each
of them is new. -/
structure Prolongs (start chain way : List String) : Prop where
  /-- The pointers of the way stand in front. -/
  chain_eq : chain = way ++ start
  /-- No pointer comes twice. -/
  nodup : way.Nodup
  /-- No pointer was followed before. -/
  fresh : way.Disjoint start

/-- The chain at the start is that at the end of the empty way. -/
theorem prolongs_start (start : List String) : Prolongs start start [] :=
  ⟨rfl, List.nodup_nil, List.disjoint_nil_left start⟩

/-- One more pointer, which is not on the chain yet. -/
theorem Prolongs.along (h : Prolongs start chain way) {pointer : String}
    (hfresh : pointer ∉ chain) : Prolongs start (pointer :: chain) (pointer :: way) := by
  rw [h.chain_eq, List.mem_append, not_or] at hfresh
  refine ⟨by rw [h.chain_eq, List.cons_append], ?_, ?_⟩
  · exact List.nodup_cons.mpr ⟨hfresh.1, h.nodup⟩
  · exact List.disjoint_cons_left.mpr ⟨hfresh.2, h.fresh⟩

/-! ## Following references -/

/-- Following references keeps the order, and the chain is prolonged along the way. -/
theorem keeps_followWithinWatched (hwithin : Within e k schema chain) (hfuel : k < fuel)
    (hway : Prolongs start chain way) :
    Keeps e.document start
      (fun found => Follows e.document chain schema found.1 ∧ Prolongs start found.1.2 found.2)
      (e.followWithinWatched fuel schema chain way) := by
  induction fuel generalizing schema chain way k with
  | zero => omega
  | succ fuel ih =>
    rw [followWithinWatched]
    cases hpointer : pointer? schema with
    | none => exact keeps_pure ⟨.here hpointer, hway⟩
    | some pointer =>
      dsimp only
      split
      · rename_i hmem
        refine (keeps_unwatched (quiet_warn _)).bind fun _ _ => keeps_pure ⟨?_, hway⟩
        exact .again hpointer (List.contains_iff_mem.mp hmem)
      · rename_i hmem
        -- New on the chain, so new on the way, which is a part of the chain.
        have hfresh : pointer ∉ chain := by simpa using hmem
        have halong := hway.along hfresh
        refine (keeps_lookUp halong.nodup halong.fresh).bind fun found hfound => ?_
        cases found with
        | none =>
          refine keeps_pure ⟨.nowhere hpointer hfresh fun target hresolve => ?_, hway⟩
          exact Option.some_ne_none target ((hfound target).mpr hresolve).symm
        | some target =>
          have hresolve := (hfound target).mp rfl
          obtain ⟨less, rfl, hless⟩ := hwithin.along hpointer hfresh hresolve
          refine (ih hless (by omega) halong).mono fun found hfound => ?_
          exact ⟨.along hpointer hfresh hresolve hfound.1, hfound.2⟩

/-- References are followed to what the document says, on the way there. -/
theorem keeps_followWatched (hway : Prolongs start chain way) (schema : Fields) :
    Keeps e.document start
      (fun found => Follows e.document chain schema found.1 ∧ Prolongs start found.1.2 found.2)
      (e.followWatched schema chain way) :=
  keeps_followWithinWatched (within_start e schema chain) (Nat.lt_succ_self _) hway

/-! ## Putting schemas together -/

/-- From a part at the end of its way at most `n` steps lead on. -/
structure Ahead (e : Expander) (n : Nat) (start : List String)
    (part : (Fields × List String) × List String) : Prop where
  /-- There is room for the steps. -/
  room : Room e n part.1.1 part.1.2
  /-- The way to the part. -/
  way : Prolongs start part.1.2 part.2

/-- Listing parts keeps the order, and each part has fewer levels ahead of it. -/
theorem keeps_listedPartsWatched (hway : Prolongs start chain way) {members : List Fields}
    (hroom : ∀ member ∈ members, Room e n member chain) :
    Keeps e.document start (fun parts => ∀ part ∈ parts, Ahead e n start part)
      (e.listedPartsWatched chain way members) := by
  induction members with
  | nil => exact keeps_pure (List.forall_mem_nil _)
  | cons member rest ih =>
    obtain ⟨hmember, hrest⟩ := List.forall_mem_cons.mp hroom
    rw [listedPartsWatched]
    refine (keeps_followWatched hway member).bind fun found hfound => ?_
    obtain ⟨⟨_ | target, chain'⟩, way'⟩ := found
    · exact (keeps_unwatched (quiet_warn _)).bind fun _ _ => ih hrest
    · obtain ⟨hfollows, hway'⟩ := hfound
      refine (ih hrest).bind fun parts hparts => keeps_pure ?_
      exact List.forall_mem_cons.mpr ⟨⟨(hmember.follows hfollows).1, hway'⟩, hparts⟩

/-- Of the parts of a schema, those that are put together themselves are one step further down. -/
theorem keeps_partsWatched (hway : Prolongs start chain way) (hroom : Room e (n + 1) schema chain) :
    Keeps e.document start
      (fun parts => ∀ part ∈ parts, kind part.1.1 = .allOf → Ahead e n start part)
      (e.partsWatched schema chain way) := by
  refine (keeps_listedPartsWatched hway fun member hmember => hroom.member hmember).bind
    fun listed hlisted => keeps_pure fun part hpart hkind => ?_
  rcases List.mem_append.mp hpart with hpart | hpart
  · exact hlisted part hpart
  · -- What the schema says itself is never entered.
    obtain rfl := List.mem_singleton.mp hpart
    exact absurd hkind (kind_own_ne_allOf schema)

/-- With room for all steps a schema is put together in order, and a greater bound makes no
difference. -/
theorem coincide_mergeWatched (hway : Prolongs start chain way) (hroom : Room e n schema chain)
    (hfuel : n ≤ fuel) :
    Coincide e.document start (fun _ => True) (e.mergeWatched n schema chain way)
      (e.mergeWatched fuel schema chain way) := by
  induction n generalizing schema chain way fuel with
  | zero => exact absurd hroom.pos (Nat.lt_irrefl 0)
  | succ n ih =>
    obtain ⟨fuel, rfl⟩ := Nat.exists_eq_add_one_of_ne_zero (Nat.ne_zero_of_lt hfuel)
    rw [mergeWatched, mergeWatched]
    -- The parts are the same under both bounds, and those that are entered have less room.
    refine (keeps_partsWatched hway hroom).bind fun parts hparts => ?_
    refine coincide_foldlM (fun merged part hpart => ?_) _
    unfold mergePartWatched
    split
    · rename_i hkind
      have hahead := hparts part hpart hkind
      exact (ih hahead.way hahead.room (Nat.le_of_succ_le_succ hfuel)).bind
        fun _ _ => keeps_pure trivial
    · exact (keeps_unwatched ((quiet_reading e.document).requiredNames _)).bind
        fun _ _ => keeps_pure trivial

/-! ## Counting lists -/

/-- With room for all steps the lists around a schema are counted in order, and a greater bound
makes no difference. -/
theorem coincide_listsWatched (hway : Prolongs start chain way) (hroom : Room e n schema chain)
    (hfuel : n ≤ fuel) :
    Coincide e.document start (fun _ => True) (e.listsWatched n schema chain way)
      (e.listsWatched fuel schema chain way) := by
  induction n generalizing schema chain way fuel with
  | zero => exact absurd hroom.pos (Nat.lt_irrefl 0)
  | succ n ih =>
    obtain ⟨fuel, rfl⟩ := Nat.exists_eq_add_one_of_ne_zero (Nat.ne_zero_of_lt hfuel)
    have hfuel := Nat.le_of_succ_le_succ hfuel
    rw [listsWatched, listsWatched]
    cases hkind : kind schema with
    | reference =>
      refine (keeps_followWatched hway schema).bind fun found hfound => ?_
      obtain ⟨⟨_ | target, chain'⟩, way'⟩ := found
      · exact keeps_pure trivial
      · -- A pointer less can be followed behind the reference, so whatever it names fits in.
        obtain ⟨hfollows, hway'⟩ := hfound
        exact ih hway' ((hroom.follows hfollows).2 hkind) hfuel
    | array => exact (ih hway (hroom.items hkind) hfuel).bind fun _ _ => keeps_pure trivial
    | _ => exact keeps_pure trivial

/-- The reference to a type is found in order. -/
theorem keeps_typeReferenceWatched (node : Node) (base suffix : String) :
    Keeps e.document [] (fun _ => True) (e.typeReferenceWatched node base suffix) := by
  unfold typeReferenceWatched
  cases node with
  | object schema =>
    have hlists := coincide_listsWatched (prolongs_start []) (room_mergeBound e schema []) le_rfl
    exact hlists.bind fun _ _ => keeps_pure trivial
  | _ => exact (keeps_pure (Q := fun _ => True) trivial).bind fun _ _ => keeps_pure trivial

/-! ## Every recursion ends -/

/-- A computation ends: it returns, or it fails in an allowed way. Watched, it does the same, and
all is in order: it meets no bound on its steps, and on each way down it looks up no pointer twice,
and none that is on the chain at the start. -/
structure Ends {α : Type} (e : Expander) (allowed : Failure → Prop) (start : List String)
    (s : Session) (x : Expansion α) (watched : Watching α) : Prop where
  /-- It returns, or it fails in an allowed way. -/
  outcome : (∃ a t, x.run s = (.ok a, t)) ∨ ∃ f t, x.run s = (.error f, t) ∧ allowed f
  /-- Watching changes nothing. -/
  run_eq : x.run s = ((watched.run { session := s }).1, (watched.run { session := s }).2.session)
  /-- All is in order. -/
  orderly : (watched.run { session := s }).2.Orderly e.document start

/-- A computation ends if, where all is in order, its watched form coincides with that of one whose
outcome is known. -/
theorem ends_of_coincide {α : Type} {allowed : Failure → Prop} {P Q : α → Prop} {s : Session}
    {x y : Expansion α} {x' y' : Watching α} (hs : s.Faithful e.document)
    (h : Coincide e.document start Q x' y') (hx : Erases id x' x) (hy : Erases id y' y)
    (houtcome : Admits e.document allowed P y) :
    e.Ends allowed start s y y' ∧ y.run s = x.run s := by
  obtain ⟨hrun, horderly, -⟩ := h { session := s }
    ⟨hs, rfl, List.forall_mem_nil _, List.forall_mem_nil _⟩
  rw [← hrun] at horderly
  refine ⟨⟨?_, hy.run_eq { session := s }, horderly⟩, ?_⟩
  · rcases hys : y.run s with ⟨f | a, t⟩
    · exact .inr ⟨f, t, rfl, houtcome.fails hs hys⟩
    · exact .inl ⟨a, t, rfl⟩
  · calc y.run s = ((y'.run { session := s }).1, (y'.run { session := s }).2.session) :=
          hy.run_eq { session := s }
      _ = ((x'.run { session := s }).1, (x'.run { session := s }).2.session) := by rw [hrun]
      _ = x.run s := (hx.run_eq { session := s }).symm

/-- In every document, from every schema and every chain on, and with whatever is remembered of
pointers, putting a schema together ends: it returns, or required names cannot be read. Counting the
lists around a schema returns, and so does finding the reference to a type, which starts with no
chain. No bound on the steps is met, and a greater one makes no difference. On each way down no
pointer is followed twice. -/
theorem merge_and_typeReference_end (e : Expander) {s : Session} (hs : s.Faithful e.document) :
    (∀ schema chain fuel, e.mergeBound schema ≤ fuel →
      e.Ends (· = .notIterable) chain s (e.mergeWithin fuel schema chain)
        (e.mergeWatched fuel schema chain []) ∧
      (e.mergeWithin fuel schema chain).run s = (e.merge schema chain).run s) ∧
    (∀ schema chain fuel, e.mergeBound schema ≤ fuel →
      e.Ends (fun _ => False) chain s (e.listsWithin fuel schema chain)
        (e.listsWatched fuel schema chain []) ∧
      (e.listsWithin fuel schema chain).run s
        = (e.listsWithin (e.mergeBound schema) schema chain).run s) ∧
    ∀ node base suffix, e.Ends (fun _ => False) [] s (e.typeReference node base suffix)
      (e.typeReferenceWatched node base suffix) := by
  refine ⟨fun schema chain fuel hfuel => ?_, fun schema chain fuel hfuel => ?_,
    fun node base suffix => ?_⟩
  · -- Fuel up to the bound is enough, and the watched run is the plain one with a record.
    have hroom := room_mergeBound e schema chain
    exact ends_of_coincide hs (coincide_mergeWatched (prolongs_start chain) hroom hfuel)
      (e.erases_mergeWatched _ _ _ _) (e.erases_mergeWatched _ _ _ _)
      (admits_mergeWithin e fuel chain fun _ _ _ => rfl)
  · have hroom := room_mergeBound e schema chain
    exact ends_of_coincide hs (coincide_listsWatched (prolongs_start chain) hroom hfuel)
      (e.erases_listsWatched _ _ _ _) (e.erases_listsWatched _ _ _ _)
      (admits_listsWithin e fuel schema chain)
  · have herases := e.erases_typeReferenceWatched node base suffix
    refine (ends_of_coincide hs (keeps_typeReferenceWatched node base suffix) herases herases
      (P := fun _ => True) ?_).1
    cases node with
    | object schema => exact admits_typeReference e schema base suffix
    | _ => exact (admits_pure (P := fun _ => True) trivial).bind fun _ _ => admits_pure trivial

/-- A document with two schemas that are put together from each other, and a list of itself. -/
def rings : Expander where
  document := .object [
    (.text "A", .object [(.text "allOf", .list [pointing "#/B", pointing "#/A"])]),
    (.text "B", .object [(.text "allOf", .list [pointing "#/A", pointing "#/L"])]),
    (.text "L", .object [(.text "items", pointing "#/L")])]

/-- A schema that is put together from the same part twice. -/
def doubled : Fields := [(.text "allOf", .list [pointing "#/A", pointing "#/A"])]

/-- In a document of rings both end. The same pointer is followed again on another way, but on none
it comes twice. -/
theorem merge_and_typeReference_end_rings :
    ({} : Session).Faithful rings.document ∧
      rings.Ends (· = .notIterable) ["#/L"] {} (rings.merge doubled ["#/L"])
        (rings.mergeWatched (rings.mergeBound doubled) doubled ["#/L"] []) ∧
      ((rings.mergeWatched (rings.mergeBound doubled) doubled ["#/L"] []).run {}).2.ways
        = [["#/A"], ["#/A"], ["#/B", "#/A"], ["#/B", "#/A"]] ∧
      rings.Ends (fun _ => False) [] {} (rings.typeReference (pointing "#/L") "L" "")
        (rings.typeReferenceWatched (pointing "#/L") "L" "") ∧
      ((rings.typeReferenceWatched (pointing "#/L") "L" "").run {}).2.ways = [["#/L"]] := by
  have hs : ({} : Session).Faithful rings.document := Session.faithful_empty _
  obtain ⟨hmerge, -, htype⟩ := merge_and_typeReference_end rings hs
  exact ⟨hs, (hmerge doubled ["#/L"] _ le_rfl).1, by decide +kernel, htype _ _ _,
    by decide +kernel⟩

end Expander

end ClientGen
