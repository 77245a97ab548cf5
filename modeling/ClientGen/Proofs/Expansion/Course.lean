import Mathlib.Data.List.Forall2
import Mathlib.Data.List.Nodup
import Mathlib.Tactic.Tauto
import ClientGen.Proofs.Expansion.Record
import ClientGen.Proofs.Failure

/-!
# The course of an expansion

What an expansion does with names, without the schemas that lead it there: a name is asked for; if
it is taken, nothing is declared; if it is free, it is claimed, what its declaration needs is
declared, and last the name itself. Types use names only because of such a request.

* `Course`: the courses, from the declared names before to those afterwards.
* `Course.names_eq`, `Course.uses_declared`, `Course.first_asked`: what holds of every course.
-/

namespace ClientGen

/-- The record says that a type is given by the name. -/
def Typing (events : List Event) (name : String) : Prop := ∃ r, .typed r ∈ events ∧ r.name = name

theorem Typing.append_left {events events' : List Event} {n : String} (h : Typing events n) :
    Typing (events ++ events') n := by
  obtain ⟨r, hr, hname⟩ := h
  exact ⟨r, List.mem_append_left _ hr, hname⟩

theorem Typing.append_right {events events' : List Event} {n : String} (h : Typing events' n) :
    Typing (events ++ events') n := by
  obtain ⟨r, hr, hname⟩ := h
  exact ⟨r, List.mem_append_right _ hr, hname⟩

/-- Does the event ask for the name? -/
def Event.asks (name : String) : Event → Bool
  | .asked r => r.name == name
  | _ => false

/-- In a record in which a name is not asked for, no event asks for it. -/
theorem Event.find?_asks_eq_none {events : List Event} {name : String}
    (hnone : ∀ r, .asked r ∈ events → r.name ≠ name) : events.find? (Event.asks name) = none := by
  rw [List.find?_eq_none]
  intro e he
  cases e with
  | asked r => simpa [Event.asks] using hnone r he
  | typed r => simp [Event.asks]
  | declared r => simp [Event.asks]

/-- The request whose declaration the event completes. -/
def Event.declared? : Event → Option Request
  | .declared r => some r
  | _ => none

/-- What an expansion can do with names: the names declared before, what happens, the declarations
that come back, and the names declared afterwards. `B` says which declarations may answer a
request. -/
inductive Course (B : Declaration → Request → Prop) :
    List String → List Event → List Declaration → List String → Prop
  /-- Nothing happens. -/
  | still (names : List String) : Course B names [] [] names
  /-- A name is asked for that is taken. -/
  | taken {names : List String} (r : Request) :
    r.name ∈ names → Course B names [.asked r] [] names
  /-- A name is asked for that is free. It is claimed first, and its declaration comes last. -/
  | granted {names names' : List String} {events : List Event} {needs : List Declaration}
    (r : Request) (d : Declaration) :
    r.name ∉ names → d.name = r.name → B d r → (∀ n ∈ d.uses, Typing events n) →
    Course B (names ++ [r.name]) events needs names' →
    Course B names (.asked r :: events ++ [.declared r]) (needs ++ [d]) names'
  /-- A type is given by a name that was asked for. -/
  | typed {names names' : List String} {events : List Event} {ds : List Declaration} (r : Request) :
    .asked r ∈ events → Course B names events ds names' →
    Course B names (events ++ [.typed r]) ds names'
  /-- One thing happens after another. -/
  | append {names mid names' : List String} {events events' : List Event}
    {ds ds' : List Declaration} :
    Course B names events ds mid → Course B mid events' ds' names' →
    Course B names (events ++ events') (ds ++ ds') names'

namespace Course

variable {B : Declaration → Request → Prop} {names names' : List String} {events : List Event}
  {ds : List Declaration}

/-- The new names are those of the declarations, each of them once. -/
theorem names_eq (h : Course B names events ds names') :
    ∃ added, names' = names ++ added ∧ added.Perm (ds.map Declaration.name) ∧ added.Nodup ∧
      ∀ n ∈ added, n ∉ names := by
  induction h with
  | still names => exact ⟨[], by simp⟩
  | taken r hr => exact ⟨[], by simp⟩
  | @granted names names' events needs r d hfree hname _ _ _ ih =>
    obtain ⟨added, rfl, hperm, hnodup, hnew⟩ := ih
    -- The claimed name is the first one that is added, its declaration the last one.
    refine ⟨r.name :: added, by simp, ?_, ?_, ?_⟩
    · have hlast := (List.perm_append_singleton d.name (needs.map Declaration.name)).symm
      rw [List.map_append, List.map_singleton, ← hname]
      exact (hperm.cons _).trans hlast
    · refine List.nodup_cons.mpr ⟨fun hmem => ?_, hnodup⟩
      exact hnew _ hmem (by simp)
    · intro n hn
      rcases List.mem_cons.mp hn with rfl | hn
      · exact hfree
      · exact fun hmem => hnew n hn (List.mem_append_left _ hmem)
  | typed r _ _ ih => exact ih
  | append _ _ ih ih' =>
    obtain ⟨added, rfl, hperm, hnodup, hnew⟩ := ih
    obtain ⟨added', rfl, hperm', hnodup', hnew'⟩ := ih'
    -- The second part starts with the names of the first one, so it adds none of them again.
    refine ⟨added ++ added', by simp, ?_, ?_, ?_⟩
    · rw [List.map_append]
      exact hperm.append hperm'
    · refine List.nodup_append.mpr ⟨hnodup, hnodup', fun a ha b hb hab => ?_⟩
      exact hnew' b hb (List.mem_append_right _ (hab ▸ ha))
    · intro n hn
      rcases List.mem_append.mp hn with hn | hn
      · exact hnew n hn
      · exact fun hmem => hnew' n hn (List.mem_append_left _ hmem)

/-- Declared names stay. -/
theorem subset (h : Course B names events ds names') : names ⊆ names' := by
  obtain ⟨added, rfl, -⟩ := h.names_eq
  exact List.subset_append_left _ _

/-- The name of each declaration is declared afterwards. -/
theorem name_mem (h : Course B names events ds names') {d : Declaration} (hd : d ∈ ds) :
    d.name ∈ names' := by
  obtain ⟨added, rfl, hperm, -⟩ := h.names_eq
  exact List.mem_append_right _ (hperm.mem_iff.mpr (List.mem_map_of_mem hd))

/-- A name declared afterwards was declared before, or it is that of a declaration. -/
theorem mem_or_mem (h : Course B names events ds names') {n : String} (hn : n ∈ names') :
    n ∈ names ∨ n ∈ ds.map Declaration.name := by
  obtain ⟨added, rfl, hperm, -⟩ := h.names_eq
  exact (List.mem_append.mp hn).imp_right hperm.mem_iff.mp

/-- A name that was asked for is declared afterwards. -/
theorem asked_mem (h : Course B names events ds names') {r : Request} (hr : .asked r ∈ events) :
    r.name ∈ names' := by
  induction h with
  | still names => simp at hr
  | taken q hq =>
    obtain rfl : r = q := by simpa using hr
    exact hq
  | granted q d _ _ _ _ hc ih =>
    -- The request itself is the first event, every other belongs to what is built inside.
    simp only [List.cons_append, List.mem_cons, Event.asked.injEq, List.mem_append, reduceCtorEq,
      List.not_mem_nil, or_false] at hr
    rcases hr with rfl | hr
    · exact hc.subset (by simp)
    · exact ih hr
  | typed q _ _ ih => exact ih (by simpa using hr)
  | append _ hc ih ih' =>
    rcases List.mem_append.mp hr with hr | hr
    · exact hc.subset (ih hr)
    · exact ih' hr

/-- A type is given by a name only if the name was asked for. -/
theorem asked_of_typed (h : Course B names events ds names') {r : Request}
    (hr : .typed r ∈ events) : .asked r ∈ events := by
  induction h with
  | still names => simp at hr
  | taken q hq => simp at hr
  | @granted _ _ events _ q d _ _ _ _ _ ih =>
    have hm : Event.typed r ∈ events := by simpa using hr
    simp [ih hm]
  | typed q hq _ ih =>
    rcases List.mem_append.mp hr with hr | hr
    · exact List.mem_append_left _ (ih hr)
    · obtain rfl : r = q := by simpa using hr
      exact List.mem_append_left _ hq
  | append _ _ ih ih' =>
    rcases List.mem_append.mp hr with hr | hr
    · exact List.mem_append_left _ (ih hr)
    · exact List.mem_append_right _ (ih' hr)

/-- A declared name stands before a name that is declared later. -/
theorem idxOf_le {pre post : List String} {a b : String} (ha : a ∈ pre) (hb : b ∉ pre) :
    (pre ++ post).idxOf a ≤ (pre ++ post).idxOf b := by
  rw [List.idxOf_append_of_mem ha, List.idxOf_append_of_notMem hb]
  have hlt := List.idxOf_lt_length_iff.mpr ha
  omega

/-- Where an element stands in two lists put together. -/
theorem eq_of_append_eq {α : Type} {xs ys before after : List α} {a : α}
    (h : xs ++ ys = before ++ a :: after) :
    (∃ rest, xs = before ++ a :: rest ∧ after = rest ++ ys) ∨
      ∃ rest, before = xs ++ rest ∧ ys = rest ++ a :: after := by
  rcases List.append_eq_append_iff.mp h with ⟨rest, hbefore, hys⟩ | ⟨rest, hxs, hafter⟩
  · exact .inr ⟨rest, hbefore, hys⟩
  · rcases List.cons_eq_append_iff.mp hafter with ⟨rfl, hys⟩ | ⟨rest', rfl, hafter⟩
    · exact .inr ⟨[], by simpa using hxs.symm, by simpa using hys⟩
    · exact .inl ⟨rest', hxs, by simpa using hafter⟩

/-- Every name that a declaration uses was declared before, or comes back earlier, or was claimed
no later than the name of the declaration and comes back no earlier. -/
theorem uses_declared (h : Course B names events ds names') {before after : List Declaration}
    {d : Declaration} (hds : ds = before ++ d :: after) {n : String} (hn : n ∈ d.uses) :
    n ∈ names ∨ n ∈ before.map Declaration.name ∨
      (n ∈ (d :: after).map Declaration.name ∧ names'.idxOf n ≤ names'.idxOf d.name) := by
  induction h generalizing before after with
  | still names => simp at hds
  | taken q hq => simp at hds
  | @granted names names' events needs r last hfree hname _ huses hc ih =>
    rcases List.eq_nil_or_concat after with rfl | ⟨after, a, rfl⟩
    · -- The declaration is the last one, that of the claimed name.
      obtain ⟨rfl, rfl⟩ : needs = before ∧ last = d := by simpa using hds
      obtain ⟨q, hq, rfl⟩ := huses n hn
      rcases hc.mem_or_mem (hc.asked_mem (hc.asked_of_typed hq)) with hmem | hmem
      · rcases List.mem_append.mp hmem with hmem | hmem
        · exact .inl hmem
        · have hself : q.name = last.name := by rw [hname, List.mem_singleton.mp hmem]
          exact .inr (.inr ⟨by simp [hself], hself ▸ Nat.le_refl _⟩)
      · exact .inr (.inl hmem)
    · -- The declaration is needed by that of the claimed name, which is still being built.
      obtain ⟨rfl, rfl⟩ : needs = before ++ d :: after ∧ last = a := by
        rw [List.concat_eq_append, ← List.cons_append, ← List.append_assoc] at hds
        simpa using List.append_inj' hds rfl
      rcases ih rfl with hmem | hmem | ⟨hmem, hle⟩
      · rcases List.mem_append.mp hmem with hmem | hmem
        · exact .inl hmem
        · obtain rfl := List.mem_singleton.mp hmem
          refine .inr (.inr ⟨by simp [hname], ?_⟩)
          obtain ⟨added, rfl, hperm, -, hnew⟩ := hc.names_eq
          exact idxOf_le (by simp) (hnew _ (hperm.mem_iff.mpr (by simp)))
      · exact .inr (.inl hmem)
      · refine .inr (.inr ⟨?_, hle⟩)
        rw [List.concat_eq_append, ← List.cons_append, List.map_append]
        exact List.mem_append_left _ hmem
  | typed q _ _ ih => exact ih hds
  | @append names mid names' events events' ds ds' hc hc' ih ih' =>
    obtain ⟨added, rfl, -⟩ := hc'.names_eq
    rcases eq_of_append_eq hds with ⟨rest, rfl, rfl⟩ | ⟨rest, rfl, rfl⟩
    · -- The declaration belongs to the first part.
      rcases ih rfl with hmem | hmem | ⟨hmem, hle⟩
      · exact .inl hmem
      · exact .inr (.inl hmem)
      · refine .inr (.inr ⟨?_, ?_⟩)
        · simp only [List.map_cons, List.map_append, List.mem_cons, List.mem_append] at hmem ⊢
          tauto
        · obtain ⟨u, hu, rfl⟩ := List.mem_map.mp hmem
          rw [List.idxOf_append_of_mem (hc.name_mem (List.mem_append_right _ hu)),
            List.idxOf_append_of_mem (hc.name_mem (by simp))]
          exact hle
    · -- The declaration belongs to the second part.
      rw [List.map_append, List.mem_append]
      rcases ih' rfl with hmem | hmem | hmem
      · exact (hc.mem_or_mem hmem).imp_right fun h => .inl (.inl h)
      · exact .inr (.inl (.inr hmem))
      · exact .inr (.inr hmem)

/-- The declarations that come back answer the requests that are recorded as declared, in the same
order. -/
theorem answers_declared (h : Course B names events ds names') :
    List.Forall₂ (fun d r => d.name = r.name ∧ B d r) ds
      (events.filterMap Event.declared?) := by
  induction h with
  | still names => exact .nil
  | taken r _ => exact .nil
  -- What is built inside comes first, and the request's own declaration last.
  | granted r d _ hname hbuilt _ _ ih =>
    have hlast : [Event.declared r].filterMap Event.declared? = [r] := rfl
    rw [List.cons_append, List.filterMap_cons_none rfl, List.filterMap_append, hlast]
    exact List.rel_append ih (.cons ⟨hname, hbuilt⟩ .nil)
  | typed r _ _ ih =>
    have hlast : [Event.typed r].filterMap Event.declared? = [] := rfl
    rw [List.filterMap_append, hlast, List.append_nil]
    exact ih
  | append _ _ ih ih' =>
    rw [List.filterMap_append]
    exact List.rel_append ih ih'

/-- The names that are recorded as declared are those of the declarations that come back. -/
theorem declared_names (h : Course B names events ds names') :
    (events.filterMap Event.declared?).map Request.name = ds.map Declaration.name := by
  have hanswered := h.answers_declared
  generalize events.filterMap Event.declared? = requests at hanswered
  clear h
  induction hanswered with
  | nil => rfl
  | cons hanswers _ ih => rw [List.map_cons, List.map_cons, ih, hanswers.1]

/-- No two of the declarations that come back have one name. -/
theorem nodup_names (h : Course B names events ds names') :
    (ds.map Declaration.name).Nodup := by
  obtain ⟨added, -, hperm, hnodup, -⟩ := h.names_eq
  exact hperm.nodup_iff.mp hnodup

/-- Only one of the declarations that come back has the name of a given one. -/
theorem filter_name_eq (h : Course B names events ds names') {d : Declaration} (hd : d ∈ ds) :
    ds.filter (fun other => other.name == d.name) = [d] := by
  have hlength : (ds.filter fun other => other.name == d.name).length = 1 := by
    have hcount := List.count_eq_one_of_mem h.nodup_names (List.mem_map_of_mem hd)
    rwa [List.count, List.countP_map, List.countP_eq_length_filter] at hcount
  obtain ⟨only, honly⟩ := List.length_eq_one_iff.mp hlength
  have hmem : d ∈ ds.filter fun other => other.name == d.name :=
    List.mem_filter.mpr ⟨hd, beq_self_eq_true d.name⟩
  rw [honly, List.mem_singleton] at hmem
  rw [honly, hmem]

/-- A request that is recorded as declared is answered by a declaration that comes back. -/
theorem exists_answer (h : Course B names events ds names') {r : Request}
    (hr : .declared r ∈ events) : ∃ d ∈ ds, d.name = r.name ∧ B d r :=
  exists_of_mem_forall₂ h.answers_declared (List.mem_filterMap.mpr ⟨_, hr, rfl⟩)

/-- Every name that a declaration uses is recorded as that of a type. -/
theorem typing_of_uses (h : Course B names events ds names') {d : Declaration} (hd : d ∈ ds)
    {n : String} (hn : n ∈ d.uses) : Typing events n := by
  induction h with
  | still names => simp at hd
  | taken q hq => simp at hd
  | @granted _ _ events _ q last _ _ _ huses _ ih =>
    have hinner : Typing events n := by
      rcases List.mem_append.mp hd with hd | hd
      · exact ih hd
      · exact huses n (List.mem_singleton.mp hd ▸ hn)
    -- The events inside stand behind the request and before the note that it is met.
    obtain ⟨r, hr, hname⟩ := hinner
    exact ⟨r, List.mem_append_left _ (List.mem_cons_of_mem _ hr), hname⟩
  | typed q _ _ ih => exact (ih hd).append_left
  | append _ _ ih ih' =>
    rcases List.mem_append.mp hd with hd | hd
    · exact (ih hd).append_left
    · exact (ih' hd).append_right

/-- A name is recorded as declared for one schema only. -/
theorem declared_unique (h : Course B names events ds names') {q r : Request}
    (hq : .declared q ∈ events) (hr : .declared r ∈ events) (hname : q.name = r.name) : q = r := by
  have hnames : ((events.filterMap Event.declared?).map Request.name).Nodup := by
    rw [h.declared_names]
    exact h.nodup_names
  have hmem : ∀ {p : Request}, .declared p ∈ events → p ∈ events.filterMap Event.declared? :=
    fun hp => List.mem_filterMap.mpr ⟨_, hp, rfl⟩
  exact List.inj_on_of_nodup_map hnames (hmem hq) (hmem hr) hname

/-- A name is declared only if it was asked for. -/
theorem asked_of_declared (h : Course B names events ds names') {r : Request}
    (hr : .declared r ∈ events) : .asked r ∈ events := by
  induction h with
  | still names => simp at hr
  | taken q hq => simp at hr
  | granted q d _ _ _ _ _ ih =>
    simp only [List.cons_append, List.mem_cons, reduceCtorEq, false_or, List.mem_append,
      Event.declared.injEq, List.not_mem_nil, or_false] at hr
    rcases hr with hr | rfl
    · exact List.mem_cons_of_mem _ (List.mem_append_left _ (ih hr))
    · exact List.mem_cons_self
  | typed q _ _ ih =>
    exact List.mem_append_left _ (ih (by simpa using hr))
  | append _ _ ih ih' =>
    rcases List.mem_append.mp hr with hr | hr
    · exact List.mem_append_left _ (ih hr)
    · exact List.mem_append_right _ (ih' hr)

/-- A name that is not asked for is not declared. -/
theorem mem_of_not_asked (h : Course B names events ds names') {name : String}
    (hnone : ∀ r, .asked r ∈ events → r.name ≠ name) (hmem : name ∈ names') : name ∈ names := by
  rcases h.mem_or_mem hmem with hmem | hmem
  · exact hmem
  · rw [← h.declared_names] at hmem
    obtain ⟨q, hq, hname⟩ := List.mem_map.mp hmem
    obtain ⟨e, he, hdeclared⟩ := List.mem_filterMap.mp hq
    cases e with
    | declared p =>
      obtain rfl : p = q := by simpa [Event.declared?] using hdeclared
      exact absurd hname (hnone p (h.asked_of_declared he))
    | asked p => simp [Event.declared?] at hdeclared
    | typed p => simp [Event.declared?] at hdeclared

/-- A free name is declared for the first schema that it is asked for. -/
theorem first_asked (h : Course B names events ds names') {name : String} {r : Request}
    (hr : .asked r ∈ events) (hname : r.name = name) (hfree : name ∉ names) :
    ∃ q, events.find? (Event.asks name) = some (.asked q) ∧ .declared q ∈ events := by
  induction h generalizing r with
  | still names => simp at hr
  | taken q hq =>
    obtain rfl : r = q := by simpa using hr
    exact absurd (hname ▸ hq) hfree
  | @granted names _ events _ q d _ _ _ _ _ ih =>
    by_cases hq : q.name = name
    · -- This very request is the first one, and its declaration is recorded at the end.
      exact ⟨q, by simp [Event.asks, hq], by simp⟩
    · have hm : Event.asked r ∈ events := by
        have hne : r ≠ q := fun h => hq (h ▸ hname)
        simpa [hne] using hr
      obtain ⟨p, hp, hd⟩ := ih hm hname (by simpa [hfree] using fun h => hq h.symm)
      exact ⟨p, by simp [Event.asks, hq, hp], by simp [hd]⟩
  | typed q _ _ ih =>
    obtain ⟨p, hp, hd⟩ := ih (by simpa using hr) hname hfree
    exact ⟨p, by simp [hp], List.mem_append_left _ hd⟩
  | @append names mid _ events events' ds _ hc _ ih ih' =>
    by_cases hfirst : ∃ q, Event.asked q ∈ events ∧ q.name = name
    · obtain ⟨q, hq, hqname⟩ := hfirst
      obtain ⟨p, hp, hd⟩ := ih hq hqname hfree
      exact ⟨p, by simp [hp], List.mem_append_left _ hd⟩
    · -- The name is not asked for in the first part, so it is still free after it.
      have hnone : ∀ q, Event.asked q ∈ events → q.name ≠ name :=
        fun q hq hqname => hfirst ⟨q, hq, hqname⟩
      have hm : Event.asked r ∈ events' :=
        (List.mem_append.mp hr).resolve_left fun hr => hnone r hr hname
      obtain ⟨p, hp, hd⟩ := ih' hm hname fun hmid => hfree (hc.mem_of_not_asked hnone hmid)
      refine ⟨p, ?_, List.mem_append_right _ hd⟩
      rw [List.find?_append, Event.find?_asks_eq_none hnone, Option.none_or, hp]

end Course

end ClientGen
