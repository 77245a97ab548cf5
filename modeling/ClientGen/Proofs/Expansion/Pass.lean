import ClientGen.Proofs.Expansion.Discipline

/-!
# Names over a pass

What the users of a resolver see of names over a whole pass, whatever they ask of it and in whatever
order.

* `Ledger.names_given_once`: no name is given out twice, and an expansion accounts for the names
  that it declares.
* `Expander.used_name_declared`: no declaration uses a name that stays undeclared, and a name comes
  before its use unless the use is a recursive one.
-/

namespace ClientGen

/-- A call of a resolver for the declarations of a node. -/
structure Call where
  /-- The node. -/
  node : Node
  /-- What the name is built from. -/
  base : String
  /-- What comes behind the name. -/
  suffix : String := ""
  /-- The way to the node, for messages. -/
  origin : String := ""

/-- What can be asked of a resolver. -/
inductive Demand where
  /-- The declarations of a node. -/
  | resolve (call : Call)
  /-- A name, for a declaration that is made elsewhere. -/
  | claim (name : String)
  /-- That the declared names be forgotten. -/
  | reset

/-- What was seen of a resolver since its names were last forgotten. -/
structure Ledger where
  /-- The session. -/
  session : Session
  /-- The declarations that came back. -/
  returned : List Declaration := []
  /-- The names that were granted on demand. -/
  granted : List String := []

/-- The declarations for the node of a call. -/
def Expander.answer (e : Expander) (c : Call) : Expansion (List Declaration) :=
  e.resolve c.node c.base c.suffix c.origin

/-- An expansion accounts for the names that it adds: each is that of a declaration that comes back,
and new. If it fails, no name is lost. -/
def Session.Accounts (s : Session) : Except Failure (List Declaration) × Session → Prop
  | (.ok ds, t) => ∃ added, t.names = s.names ++ added ∧ added.Perm (ds.map Declaration.name) ∧
      added.Nodup ∧ ∀ n ∈ added, n ∉ s.names
  | (.error _, t) => s.names <+: t.names

namespace Ledger

/-- The ledger after a call with the given outcome. -/
def answered (l : Ledger) : Except Failure (List Declaration) × Session → Ledger
  | (.ok ds, t) => { l with session := t, returned := l.returned ++ ds }
  | (.error _, t) => { l with session := t }

/-- The ledger after a name was claimed with the given outcome. -/
def claimed (l : Ledger) (name : String) : Bool × Session → Ledger
  | (true, t) => { l with session := t, granted := l.granted ++ [name] }
  | (false, t) => { l with session := t }

/-- Meets one demand. -/
def meet (e : Expander) (l : Ledger) : Demand → Ledger
  | .resolve call => l.answered ((e.answer call).run l.session)
  | .claim name => l.claimed name (Session.claim name l.session)
  | .reset => { session := l.session.forgetNames }

/-- The names that were given out. -/
def given (l : Ledger) : List String := l.returned.map Declaration.name ++ l.granted

/-- Every name that was given out is taken, and was given out once. -/
structure Sound (l : Ledger) : Prop where
  /-- Each name was given out once. -/
  nodup : l.given.Nodup
  /-- Each name is taken. -/
  taken : l.given ⊆ l.session.names

variable {l : Ledger}

/-- A sound ledger stays sound when new names are given out and taken. -/
theorem Sound.give (hl : l.Sound) {l' : Ledger} {added : List String}
    (hnames : l'.session.names = l.session.names ++ added)
    (hgiven : l'.given.Perm (l.given ++ added)) (hadded : added.Nodup)
    (hnew : ∀ n ∈ added, n ∉ l.session.names) : l'.Sound := by
  refine ⟨hgiven.nodup_iff.mpr ?_, fun n hn => ?_⟩
  · refine List.nodup_append.mpr ⟨hl.nodup, hadded, fun a ha b hb hab => ?_⟩
    exact hnew b hb (hab ▸ hl.taken ha)
  · rw [hnames]
    rcases List.mem_append.mp (hgiven.mem_iff.mp hn) with hn | hn
    · exact List.mem_append_left _ (hl.taken hn)
    · exact List.mem_append_right _ hn

/-- A call that accounts for its names keeps a ledger sound. -/
theorem Sound.answered (hl : l.Sound) {r : Except Failure (List Declaration) × Session}
    (hr : l.session.Accounts r) : (l.answered r).Sound := by
  rcases r with ⟨f | ds, t⟩
  · exact ⟨hl.nodup, fun n hn => hr.subset (hl.taken hn)⟩
  · obtain ⟨added, hnames, hperm, hadded, hnew⟩ := hr
    refine hl.give hnames ?_ hadded hnew
    -- The new declarations stand before the granted names, the new names behind them.
    calc (l.returned ++ ds).map Declaration.name ++ l.granted
      _ = l.returned.map Declaration.name ++ (ds.map Declaration.name ++ l.granted) := by simp
      List.Perm _ (l.returned.map Declaration.name ++ (l.granted ++ ds.map Declaration.name)) :=
        List.perm_append_comm.append_left _
      _ = l.given ++ ds.map Declaration.name := by simp [given]
      List.Perm _ (l.given ++ added) := hperm.symm.append_left _

/-- A claim keeps a ledger sound. -/
theorem Sound.claimed (hl : l.Sound) (name : String) :
    (l.claimed name (Session.claim name l.session)).Sound := by
  by_cases hmem : name ∈ l.session.names
  · rw [show Session.claim name l.session = (false, l.session) by simp [Session.claim, hmem]]
    exact hl
  · rw [show Session.claim name l.session
        = (true, { l.session with names := l.session.names ++ [name] }) by
      simp [Session.claim, hmem]]
    refine hl.give rfl ?_ (List.nodup_singleton name) (by simpa using hmem)
    rw [given, Ledger.claimed, given, List.append_assoc]

variable (e : Expander)

/-- Every call accounts for its names. -/
theorem accounts_answer (call : Call) (s : Session) : s.Accounts ((e.answer call).run s) := by
  have hgrows := e.grows_resolve call.node call.base call.suffix call.origin s
  change s.Precedes e.document ((e.answer call).run s).2 at hgrows
  rcases h : (e.answer call).run s with ⟨f | ds, t⟩
  · rw [h] at hgrows
    exact hgrows.names
  · obtain ⟨events, hc⟩ := e.course_of_resolve h
    exact hc.names_eq

/-- Meeting a demand keeps a ledger sound. -/
theorem Sound.meet (hl : l.Sound) (d : Demand) : (l.meet e d).Sound := by
  cases d with
  | resolve call => exact hl.answered (accounts_answer e call l.session)
  | claim name => exact hl.claimed name
  | reset => exact ⟨List.nodup_nil, List.nil_subset _⟩

/-- Meeting demands keeps a ledger sound. -/
theorem Sound.meets (hl : l.Sound) (demands : List Demand) :
    (demands.foldl (Ledger.meet e) l).Sound := by
  induction demands generalizing l with
  | nil => exact hl
  | cons d ds ih => exact ih (hl.meet e d)

/-- Whatever was asked of a resolver, no name was given out twice since the names were last
forgotten: the declarations that came back have different names, and none of them was granted on
demand. The next call accounts for its names as well. -/
theorem names_given_once (s : Session) (demands : List Demand) (call : Call) :
    let l := demands.foldl (Ledger.meet e) { session := s }
    (l.returned.map Declaration.name ++ l.granted).Nodup ∧
      l.session.Accounts ((e.answer call).run l.session) := by
  have hstart : Sound { session := s } := ⟨List.nodup_nil, List.nil_subset _⟩
  exact ⟨(hstart.meets e demands).nodup, accounts_answer e call _⟩

end Ledger

namespace Expander

variable (e : Expander)

/-! ## Used names -/

/-- A name that a declaration uses is declared afterwards. It was declared before the call, or its
declaration comes back earlier, or it was claimed no later than the name of the declaration that
uses it and its own declaration comes back no earlier: it was still being built. -/
theorem used_name_declared {call : Call} {s t : Session} {before after : List Declaration}
    {d : Declaration} (h : (e.answer call).run s = (.ok (before ++ d :: after), t)) {n : String}
    (hn : n ∈ d.uses) :
    n ∈ t.names ∧ (n ∈ s.names ∨ n ∈ before.map Declaration.name ∨
      (n ∈ (d :: after).map Declaration.name ∧ t.names.idxOf n ≤ t.names.idxOf d.name)) := by
  obtain ⟨events, hc⟩ := e.course_of_resolve h
  have huse := hc.uses_declared rfl hn
  refine ⟨?_, huse⟩
  rcases huse with hmem | hmem | ⟨hmem, -⟩
  · exact hc.subset hmem
  · obtain ⟨u, hu, rfl⟩ := List.mem_map.mp hmem
    exact hc.name_mem (List.mem_append_left _ hu)
  · obtain ⟨u, hu, rfl⟩ := List.mem_map.mp hmem
    exact hc.name_mem (List.mem_append_right _ hu)

/-- A node that refers to a pointer. -/
def pointing (pointer : String) : Node := .object [(.text "$ref", .text pointer)]

/-- A schema with the given properties. -/
def withProperties (fields : Fields) : Fields := [(.text "properties", .object fields)]

/-- Two schemas that refer to each other. -/
def mutualDocument : Node :=
  .object [(.text "A", .object (withProperties [(.text "b", pointing "#/B")])),
    (.text "B", .object (withProperties [(.text "a", pointing "#/A")]))]

/-- The schema that is declared first uses the name of the one that is still being built. -/
theorem used_name_declared_mutual :
    ∃ d after t,
      ((Expander.mk mutualDocument 64).answer { node := pointing "#/A", base := "A" }).run {}
        = (.ok ([] ++ d :: after), t) ∧
      "IA" ∈ d.uses ∧
      "IA" ∈ t.names ∧ ("IA" ∈ ({} : Session).names ∨ "IA" ∈ [].map Declaration.name ∨
        ("IA" ∈ (d :: after).map Declaration.name ∧
          t.names.idxOf "IA" ≤ t.names.idxOf d.name)) := by
  have h : ∃ d after t,
      ((Expander.mk mutualDocument 64).answer { node := pointing "#/A", base := "A" }).run {}
        = (.ok ([] ++ d :: after), t) ∧ "IA" ∈ d.uses :=
    ⟨_, _, _, rfl, by decide +kernel⟩
  obtain ⟨d, after, t, hrun, hn⟩ := h
  exact ⟨d, after, t, hrun, hn, used_name_declared _ hrun hn⟩

end Expander

end ClientGen
