import ClientGen.Proofs.Expansion.Run

/-!
# Recorded expansions

An expansion that keeps a record: which names are asked for, and for which schemas, which types are
given by name, and for which schemas names are declared.

* `Event`: what is recorded.
* `Recorded`: an expansion that keeps a record.
* `Expander.declareRecorded`, `Expander.propertyTypeRecorded`: the expansion of a schema, recorded.
  The steps are those of `Expander.declare` and `Expander.propertyType`.
* `Expander.erases_resolve`: without its record, a recorded expansion is the expansion.
* `Recorded.Erases.exists_log`: so an expansion that returns has a record.
-/

namespace ClientGen

/-- What happens in an expansion, as far as it concerns names. -/
inductive Event where
  /-- A name is asked for, to stand for a schema. -/
  | asked (r : Request)
  /-- A property, an item, a value or a member of a choice is typed by a name, because of a
  schema. -/
  | typed (r : Request)
  /-- The declaration of a name from a schema is complete. -/
  | declared (r : Request)

/-- An expansion that keeps a record. The newest event comes last. -/
abbrev Recorded := StateT (List Event) Expansion

namespace Recorded

variable {α β : Type}

/-- The outcome of a recorded expansion that starts with a record and in a session. -/
def run (x : Recorded α) (log : List Event) (s : Session) :
    Except Failure (α × List Event) × Session :=
  Expansion.run (x log) s

/-- Records an event. -/
def note (event : Event) : Recorded Unit := fun log => pure ((), log ++ [event])

/-- Returning a result leaves the record and the session as they are. -/
@[simp]
theorem run_pure (a : α) (log : List Event) (s : Session) :
    run (pure a) log s = (.ok (a, log), s) := rfl

/-- A note adds its event at the end of the record. -/
@[simp]
theorem run_note (event : Event) (log : List Event) (s : Session) :
    (note event).run log s = (.ok ((), log ++ [event]), s) := rfl

/-- A recorded sequence returns exactly when its first part returns and then the second, on the
record that the first one leaves. -/
theorem run_bind_eq_ok_iff {x : Recorded α} {f : α → Recorded β} {log log' : List Event}
    {s t : Session} {b : β} :
    (x >>= f).run log s = (.ok (b, log'), t) ↔
      ∃ a mid u, x.run log s = (.ok (a, mid), u) ∧ (f a).run mid u = (.ok (b, log'), t) := by
  have h : (x >>= f) log = x log >>= fun p => f p.1 p.2 := rfl
  rw [run, h, Expansion.run_bind_eq_ok_iff]
  constructor
  · rintro ⟨⟨a, mid⟩, u, hx, hf⟩
    exact ⟨a, mid, u, hx, hf⟩
  · rintro ⟨a, mid, u, hx, hf⟩
    exact ⟨(a, mid), u, hx, hf⟩

/-- What is borrowed adds nothing to the record. -/
theorem run_liftM_eq_ok_iff {x : Expansion α} {log log' : List Event} {s t : Session} {a : α} :
    run (liftM x) log s = (.ok (a, log'), t) ↔ x.run s = (.ok a, t) ∧ log' = log := by
  have h : (liftM x : Recorded α) log = x >>= fun a => pure (a, log) := rfl
  rw [run, h, Expansion.run_bind_eq_ok_iff]
  constructor
  · rintro ⟨b, u, hx, hp⟩
    simp only [Expansion.run_pure, Prod.mk.injEq, Except.ok.injEq] at hp
    obtain ⟨⟨rfl, rfl⟩, rfl⟩ := hp
    exact ⟨hx, rfl⟩
  · rintro ⟨hx, rfl⟩
    exact ⟨a, t, hx, rfl⟩

/-! ## Without the record -/

/-- Without its record, the expansion is a given one. -/
def Erases (x : Recorded α) (y : Expansion α) : Prop := ∀ log, Prod.fst <$> x log = y

/-- Returning a result has nothing to record. -/
theorem Erases.pure (a : α) : Erases (pure a) (pure a) := fun _ => rfl

/-- What is borrowed is itself without the record. -/
theorem Erases.liftM (x : Expansion α) : Erases (liftM x) x := by
  intro log
  have h : (MonadLiftT.monadLift x : Recorded α) log = x >>= fun a => Pure.pure (a, log) := rfl
  change Prod.fst <$> ((MonadLiftT.monadLift x : Recorded α) log) = x
  rw [h]
  simp

/-- A recorded sequence is a sequence without the record, if its parts are. -/
theorem Erases.bind {x : Recorded α} {y : Expansion α} {f : α → Recorded β}
    {g : α → Expansion β} (hx : Erases x y) (hf : ∀ a, Erases (f a) (g a)) :
    Erases (x >>= f) (y >>= g) := by
  intro log
  have h : (x >>= f) log = x log >>= fun p => f p.1 p.2 := rfl
  calc Prod.fst <$> (x >>= f) log
      = x log >>= fun p => Prod.fst <$> f p.1 p.2 := by rw [h, map_bind]
    _ = x log >>= fun p => g p.1 := by simp only [hf _ _]
    _ = (Prod.fst <$> x log) >>= g := by rw [bind_map_left]
    _ = y >>= g := by rw [hx log]

/-- A note in front makes no difference without the record. -/
theorem Erases.note_bind (event : Event) {x : Recorded α} {y : Expansion α} (h : Erases x y) :
    Erases (note event >>= fun _ => x) y :=
  fun log => h (log ++ [event])

/-- A note behind makes no difference without the record. -/
theorem Erases.then_note (event : Event) {x : Recorded α} {y : Expansion α} (h : Erases x y) :
    Erases (x >>= fun a => note event >>= fun _ => Pure.pure a) y := by
  have hb := h.bind fun a => (Erases.pure a).note_bind event
  rwa [bind_pure] at hb

/-- When the recorded expansion returns, so does the one without the record, in the same way. -/
theorem Erases.run_eq_ok {x : Recorded α} {y : Expansion α} (h : Erases x y)
    {log log' : List Event} {s t : Session} {a : α} (hx : x.run log s = (.ok (a, log'), t)) :
    y.run s = (.ok a, t) := by
  rw [← h log, map_eq_pure_bind, Expansion.run_bind_eq_ok_iff]
  exact ⟨(a, log'), t, hx, rfl⟩

/-- An expansion that returns has a record. -/
theorem Erases.exists_log {x : Recorded α} {y : Expansion α} (h : Erases x y) (log : List Event)
    {s t : Session} {a : α} (hy : y.run s = (.ok a, t)) :
    ∃ log', x.run log s = (.ok (a, log'), t) := by
  rw [← h log, map_eq_pure_bind, Expansion.run_bind_eq_ok_iff] at hy
  obtain ⟨⟨b, log'⟩, u, hx, hp⟩ := hy
  simp only [Expansion.run_pure, Prod.mk.injEq, Except.ok.injEq] at hp
  obtain ⟨rfl, rfl⟩ := hp
  exact ⟨log', hx⟩

end Recorded

namespace Expander

open Recorded

/-- `once`, recorded: that the name is asked for, and that its declaration is complete. -/
def onceRecorded (r : Request) (declarations : Recorded (List Declaration)) :
    Recorded (List Declaration) := do
  note (.asked r)
  if ← (liftM (claim r.name) : Recorded Bool) then
    let ds ← declarations
    note (.declared r)
    return ds
  else return []

/-- Declares a schema that a type names, and records the type. -/
def namedRecorded (again : Fields → Place → Recorded (List Declaration)) (schema : Fields)
    (place : Place) : Recorded (List Declaration) := do
  let ds ← again schema place
  note (.typed { name := Naming.interfaceName place.base "", schema })
  return ds

mutual

/-- `declare`, recorded. -/
def declareRecorded (e : Expander) : Nat → Fields → String → Place → Recorded (List Declaration)
  | 0, _, _, place => liftM (throw (.tooDeep place.origin e.limit) : Expansion (List Declaration))
  | left + 1, schema, suffix, place =>
    e.declareStep onceRecorded (fun target place => declareRecorded e left target suffix place)
      (propertyTypeRecorded e left) schema suffix place

/-- `propertyType`, recorded. -/
def propertyTypeRecorded (e : Expander) : Nat → Node → Place → Recorded Typed
  | 0, _, place => liftM (throw (.tooDeep place.origin e.limit) : Expansion Typed)
  | _ + 1, .null, _ | _ + 1, .bool _, _ | _ + 1, .int _, _ | _ + 1, .real _, _
  | _ + 1, .text _, _ | _ + 1, .list _, _ => pure { type := .any }
  | left + 1, .object schema, place =>
    orNullFor schema <$> e.typeStep
      (namedRecorded fun target place => declareRecorded e left target "" place)
      (propertyTypeRecorded e left) schema place

end

/-- `resolve`, recorded. -/
def resolveRecorded (e : Expander) (node : Node) (base suffix origin : String) :
    Recorded (List Declaration) :=
  match node with
  | .object schema => e.declareRecorded e.levels schema suffix { base, origin }
  | _ => liftM (e.resolve node base suffix origin)

variable (e : Expander)

/-- Meeting a request, recorded, is meeting it without the record. -/
theorem erases_onceRecorded (r : Request) {x : Recorded (List Declaration)}
    {y : Expansion (List Declaration)} (h : Erases x y) :
    Erases (onceRecorded r x) (once r y) := by
  refine Erases.note_bind _ ((Erases.liftM _).bind fun fresh => ?_)
  split
  · exact h.then_note _
  · exact Erases.pure _

/-- Being an expansion without the record is a relation that the steps of an expansion respect. -/
theorem respected_erases :
    Respected e (m := Recorded) (n := Expansion) fun _ x y => Erases x y where
  pure a := Erases.pure a
  bind hx hf := hx.bind hf
  borrow {_ x} _ := Erases.liftM x

/-- Without its record, a recorded expansion is the expansion. -/
theorem erases_level (left : Nat) :
    (∀ schema suffix place,
      Erases (e.declareRecorded left schema suffix place) (e.declare left schema suffix place)) ∧
      ∀ node place,
        Erases (e.propertyTypeRecorded left node place) (e.propertyType left node place) := by
  -- Level by level the two take the same steps, and only the notes differ.
  induction left with
  | zero =>
    refine ⟨fun schema suffix place => ?_, fun node place => ?_⟩
    · rw [declareRecorded, declare]
      exact Erases.liftM _
    · rw [propertyTypeRecorded, propertyType]
      exact Erases.liftM _
  | succ left ih =>
    obtain ⟨ihd, iht⟩ := ih
    refine ⟨fun schema suffix place => ?_, fun node place => ?_⟩
    · rw [declareRecorded, declare]
      exact (respected_erases e).declareStep iht (fun r _ _ h => erases_onceRecorded r h)
        (fun _ _ => ihd _ _ _) _ _ _
    · cases node with
      | object schema =>
        rw [propertyTypeRecorded, propertyType, map_eq_pure_bind, map_eq_pure_bind]
        exact ((respected_erases e).typeStep iht (fun _ _ => (ihd _ _ _).then_note _) _ _).bind
          fun _ => Erases.pure _
      | _ =>
        rw [propertyTypeRecorded, propertyType]
        exact Erases.pure _

/-- Without its record, a recorded expansion is the expansion. -/
theorem erases_resolve (node : Node) (base suffix origin : String) :
    Erases (e.resolveRecorded node base suffix origin) (e.resolve node base suffix origin) := by
  cases node with
  | object schema => exact (erases_level e e.levels).1 _ _ _
  | _ => exact Erases.liftM _

end Expander

end ClientGen
