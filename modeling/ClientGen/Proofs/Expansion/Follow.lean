import ClientGen.Proofs.Expansion.Outcome

/-!
# Behind references

What following references and putting schemas together find, in a session whose memory is faithful.

* `Expansion.Provides`: the computation returns a result with a given property.
* `Expander.Behind`: the schema behind a reference can be come to, and the pointer was not on the
  chain before. `Expander.provides_follow`: following references returns such schemas only.
* `Expander.provides_merge`: if the required names of all schemas can be read, then a schema can be
  put together from its parts, and the schemas of its properties can be come to.
-/

namespace ClientGen

namespace Expansion

variable {α : Type} {document : Node} {Q : α → Prop}

/-- In every session with a faithful memory, the computation returns, and its result has the
property. -/
def Provides (document : Node) (Q : α → Prop) (x : Expansion α) : Prop :=
  ∀ s : Session, s.Faithful document →
    ∃ a t, x.run s = (.ok a, t) ∧ t.Faithful document ∧ Q a

/-- What is not allowed to fail returns. -/
theorem Admits.provides {x : Expansion α} (h : Admits document (fun _ => False) Q x) :
    Provides document Q x := by
  intro s hs
  rcases hrun : x.run s with ⟨f | a, t⟩
  · exact (h.fails hs hrun).elim
  · exact ⟨a, t, rfl, h.returns hs hrun⟩

/-- Giving a warning always succeeds. -/
theorem provides_warn (w : String) : Provides document (fun _ => True) (Expander.warn w) :=
  (admits_warn w).provides

end Expansion

namespace Expander

open Expansion Schema

variable (e : Expander) {root : Fields}

/-- The schema behind a reference can be come to. The pointer was not on the chain before, and is
afterwards. -/
structure Behind (document : Node) (root schema : Fields) (chain : List String) (target : Fields)
    (chain' : List String) : Prop where
  /-- The schema can be come to. -/
  reaches : Reaches document root target
  /-- What was on the chain stays there. -/
  subset : chain ⊆ chain'
  /-- The pointer is new on the chain. -/
  fresh : ∀ pointer, pointer? schema = some pointer → pointer ∉ chain ∧ pointer ∈ chain'

/-- Where following a schema leads is behind it. -/
theorem behind_of_followWithin {fuel : Nat} {schema target : Fields} {chain chain' : List String}
    {s : Session} (hschema : Reaches e.document root schema) (hs : s.Faithful e.document)
    (h : (e.followWithin fuel schema chain s).1 = (some target, chain')) :
    Behind e.document root schema chain target chain' := by
  -- Along the chain the pointers add up, and each target is what the document says.
  induction fuel generalizing schema chain s with
  | zero => exact absurd (congrArg Prod.fst h) (Option.some_ne_none target).symm
  | succ fuel ih =>
    rw [followWithin_succ] at h
    split at h
    · rename_i hnone
      obtain ⟨rfl, rfl⟩ : schema = target ∧ chain = chain' := by simpa using h
      exact ⟨hschema, List.Subset.refl _, by simp [hnone]⟩
    · rename_i pointer hpointer
      split at h
      · simp at h
      · rename_i hfresh
        have hl := Reference.lookUp_precedes e.document pointer s
        split at h
        · simp at h
        · rename_i found u hfound
          have hresolve : Pointer.resolve e.document pointer = some (.object found) :=
            (Reference.lookUp_eq_some_iff hs).mp (by rw [hfound])
          rw [hfound] at hl
          obtain ⟨htarget, hsub, -⟩ :=
            ih (hschema.target hpointer hresolve) (hl.2.faithful hs) h
          refine ⟨htarget, List.Subset.trans (List.subset_cons_self _ _) hsub, ?_⟩
          rintro p hp
          obtain rfl : pointer = p := Option.some.inj (hpointer.symm.trans hp)
          exact ⟨hfresh, hsub List.mem_cons_self⟩

/-- Following references returns. -/
theorem provides_follow {schema : Fields} (hschema : Reaches e.document root schema)
    (chain : List String) :
    Provides e.document (fun found => ∀ target, found.1 = some target →
      Behind e.document root schema chain target found.2) (e.follow schema chain) := by
  intro s hs
  have ht := (e.quiet_follow schema chain s).2.faithful hs
  refine ⟨_, _, run_follow e schema chain s, ht, fun target htarget => ?_⟩
  exact behind_of_followWithin e hschema hs (Prod.ext htarget rfl)

/-- If the required names of a schema can be read, reading them provides them. -/
theorem provides_requiredNames {document : Node} {schema : Fields}
    (h : Schema.requiredNames schema ≠ none) :
    Provides document (fun _ => True) (requiredNames schema) :=
  (admits_requiredNames h).provides

/-- A schema can be put together from its parts if the required names of all schemas can be read,
and the schemas of its properties can be come to. -/
theorem provides_merge
    (hreq : ∀ schema, Reaches e.document root schema → Schema.requiredNames schema ≠ none)
    {schema : Fields} (hschema : Reaches e.document root schema) (chain : List String) :
    Provides e.document (fun merged => ∀ key property,
      (key, .object property) ∈ merged.properties → Reaches e.document root property)
      (e.merge schema chain) := by
  refine Admits.provides ?_
  have hmerge : Admits e.document (fun _ => False) _ (e.merge schema chain) :=
    admits_merge e chain fun part hpart => hreq part (hpart.reaches hschema)
  refine hmerge.mono (fun _ => id) fun merged hmerged key property hmem => ?_
  obtain ⟨part, k, hpart, hproperty⟩ := hmerged key (.object property) hmem
  exact (hpart.reaches hschema).property hproperty

/-- A type that needs no declaration is always found. -/
theorem provides_plainType {document : Node} (schema : Fields) (origin : String) :
    Provides document (fun _ => True) (plainType schema origin) :=
  (admits_plainType schema origin).provides

end Expander

end ClientGen
