import ClientGen.Proofs.Expansion.Agreement

/-!
# Shared names

Names are compared, not schemas: when a name is asked for again, for whatever schema, nothing is
declared. Over a pass a name therefore has one declaration, and it is that of the schema for which
the name was asked for first.

* `Expander.pass`: the declarations for several calls, and `Expander.passRecorded` its record.
* `Expander.DeclarationOf`: a declaration is the one that the schema of a request has.
* `Expander.pass_declares_first`: each name is declared once in a pass, from the schema that it was
  asked for first.
* `Expander.name_shared_by_different_schemas`: this need not be the schema because of which a type
  is given by the name.
-/

namespace ClientGen.Expander

variable (e : Expander)

/-- The declarations for several calls, one after another. -/
def pass (e : Expander) : List Call → Expansion (List Declaration)
  | [] => pure []
  | call :: calls => do
    let ds ← e.answer call
    let rest ← pass e calls
    return ds ++ rest

/-- `pass`, recorded. -/
def passRecorded (e : Expander) : List Call → Recorded (List Declaration)
  | [] => pure []
  | call :: calls => do
    let ds ← e.resolveRecorded call.node call.base call.suffix call.origin
    let rest ← passRecorded e calls
    return ds ++ rest

/-- Without its record, a recorded pass is the pass. -/
theorem erases_pass (calls : List Call) : (e.passRecorded calls).Erases (e.pass calls) := by
  induction calls with
  | nil => exact .pure []
  | cons call calls ih =>
    exact (e.erases_resolve _ _ _ _).bind fun _ => ih.bind fun _ => .pure _

/-- A pass that returns takes a course, and its record is that of the course. -/
theorem passRecorded_yields (start : Session) (calls : List Call) :
    (e.passRecorded calls).Yields e.document start (Course (e.Builds start)) := by
  induction calls with
  | nil => exact Recorded.yields_pure .still
  | cons call calls ih =>
    refine (e.resolveRecorded_yields start _ _ _ _).bind fun ds => ih.then_pure ?_
    exact fun mid events' rest names' hc' names events hc => hc.append hc'

/-- The declaration is the one that the schema of the request has under the requested name. It is
the only one that any expansion of the schema at some place ends with: its types, its comments and
what is optional in it are settled. -/
structure DeclarationOf (e : Expander) (r : Request) (d : Declaration) : Prop where
  /-- What can be told without expanding anything. -/
  answers : d.Answers r
  /-- The place, and that nothing else is emitted there for the schema. -/
  emitted : ∃ suffix place, Naming.interfaceName place.base suffix = r.name ∧
    e.Emits r.schema suffix place d ∧ ∀ d', e.Emits r.schema suffix place d' → d' = d

variable {e}

/-- What is built for a request after a session with a faithful memory is the declaration of its
schema. -/
theorem Builds.declarationOf {start : Session} {d : Declaration} {r : Request}
    (h : e.Builds start d r) (hstart : start.Faithful e.document) : e.DeclarationOf r d := by
  obtain ⟨left, suffix, place, s, t, needs, hname, hs, hrun⟩ := h.run
  have hemits : e.Emits r.schema suffix place d :=
    ⟨left, s, t, needs, hs.faithful hstart, hrun⟩
  exact ⟨h.answers, suffix, place, hname, hemits, fun d' hd' => hd'.unique hemits⟩

variable (e)

/-- Every pass that returns has a record. No two of the declarations that come back have one name;
in their order they are the declarations of the requests that are recorded as declared, and the
names that they use are recorded as those of types. When a type is given by a name because of a
schema, exactly one declaration with the name comes back, and it is the declaration of the schema
that the name was asked for first. -/
theorem pass_declares_first {calls : List Call} {s t : Session} {ds : List Declaration}
    (hnames : s.names = []) (hs : s.Faithful e.document)
    (h : (e.pass calls).run s = (.ok ds, t)) :
    ∃ log, (e.passRecorded calls).run [] s = (.ok (ds, log), t) ∧
      (ds.map Declaration.name).Nodup ∧
      List.Forall₂ (fun d r => e.DeclarationOf r d) ds (log.filterMap Event.declared?) ∧
      (∀ d ∈ ds, ∀ n ∈ d.uses, ∃ r, .typed r ∈ log ∧ r.name = n) ∧
      ∀ r, .typed r ∈ log → ∃ q d, q.name = r.name ∧
        log.find? (Event.asks r.name) = some (.asked q) ∧
        (∀ p, p.name = r.name → (.declared p ∈ log ↔ p = q)) ∧
        ds.filter (fun other => other.name == r.name) = [d] ∧ e.DeclarationOf q d := by
  obtain ⟨log, hlog⟩ := (e.erases_pass calls).exists_log [] h
  obtain ⟨-, events, hevents, hc⟩ := e.passRecorded_yields s calls _ _ _ _ _ .rfl hlog
  obtain rfl : log = events := hevents
  rw [hnames] at hc
  refine ⟨log, hlog, hc.nodup_names, ?_, fun d hd n hn => hc.typing_of_uses hd hn, fun r hr => ?_⟩
  · exact hc.answers_declared.imp fun d r hbuilt => hbuilt.2.declarationOf hs
  · -- The name of a type was asked for, and it was free at first.
    obtain ⟨q, hq, hdeclared⟩ := hc.first_asked (hc.asked_of_typed hr) rfl List.not_mem_nil
    have hname : q.name = r.name := by simpa [Event.asks] using List.find?_some hq
    obtain ⟨d, hd, hdname, hbuilt⟩ := hc.exists_answer hdeclared
    refine ⟨q, d, hname, hq, fun p hp => ⟨fun hmem => ?_, fun hpq => hpq ▸ hdeclared⟩, ?_,
      hbuilt.declarationOf hs⟩
    · exact hc.declared_unique hmem hdeclared (hp.trans hname.symm)
    · rw [← hname, ← hdname]
      exact hc.filter_name_eq hd

/-- Two components whose names differ only in the case of a letter. -/
def likeNamed : Node :=
  .object [(.text "Ab", .object (withProperties [(.text "x", .object [])])),
    (.text "ab", .object (withProperties [(.text "y", .object [])]))]

/-- A schema that refers to both. -/
def likeNaming : Call where
  node := .object (withProperties [(.text "p", pointing "#/Ab"), (.text "q", pointing "#/ab")])
  base := "Both"

/-- Of two components with one name, the first one is declared. -/
theorem pass_declares_first_like_named :
    ∃ ds t, ({} : Session).names = [] ∧ ({} : Session).Faithful likeNamed ∧
      ((Expander.mk likeNamed 64).pass [likeNaming]).run {} = (.ok ds, t) ∧
      ∃ log, ((Expander.mk likeNamed 64).passRecorded [likeNaming]).run [] {}
          = (.ok (ds, log), t) ∧
        (ds.map Declaration.name).Nodup ∧
        List.Forall₂ (fun d r => (Expander.mk likeNamed 64).DeclarationOf r d) ds
          (log.filterMap Event.declared?) ∧
        (∀ d ∈ ds, ∀ n ∈ d.uses, ∃ r, .typed r ∈ log ∧ r.name = n) ∧
        ∀ r, .typed r ∈ log → ∃ q d, q.name = r.name ∧
          log.find? (Event.asks r.name) = some (.asked q) ∧
          (∀ p, p.name = r.name → (.declared p ∈ log ↔ p = q)) ∧
          ds.filter (fun other => other.name == r.name) = [d] ∧
            (Expander.mk likeNamed 64).DeclarationOf q d :=
  ⟨_, _, rfl, Session.faithful_empty _, rfl,
    pass_declares_first _ rfl (Session.faithful_empty _) rfl⟩

/-- It is not so that the declaration of a name was always built from the schema because of which
the name is used. -/
theorem name_shared_by_different_schemas :
    ¬ ∀ (e : Expander) (calls : List Call) (s t : Session) (ds : List Declaration)
      (log : List Event), s.names = [] → s.Faithful e.document →
      (e.passRecorded calls).run [] s = (.ok (ds, log), t) →
      ∀ r, .typed r ∈ log → ∃ q, .declared q ∈ log ∧ q.name = r.name ∧ q.schema = r.schema := by
  intro h
  let both : Request := { name := "IBoth", schema := [(.text "properties", .object
    [(.text "p", pointing "#/Ab"), (.text "q", pointing "#/ab")])] }
  let first : Request := { name := "IAb", schema := withProperties [(.text "x", .object [])] }
  let second : Request := { name := "IAb", schema := withProperties [(.text "y", .object [])] }
  obtain ⟨q, hq, hname, hschema⟩ := h ⟨likeNamed, 64⟩ [likeNaming] {} _ _
    [.asked both, .asked first, .declared first, .typed first, .asked second, .typed second,
      .declared both] rfl (Session.faithful_empty _) rfl second (by simp)
  have hcases : q = first ∨ q = both := by simpa using hq
  rcases hcases with rfl | rfl
  · simp [first, second, withProperties] at hschema
  · simp [both, second] at hname

end ClientGen.Expander
