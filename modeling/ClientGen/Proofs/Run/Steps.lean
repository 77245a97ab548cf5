import ClientGen.Failure

/-!
# Steps over a state

Computations over the files and over a workspace may fail and keep their state up to the failure. A
sequence of them goes through when all of its parts do.

* `Step.run`: the outcome of a computation in a state.
* `Step.run_bind_eq_ok_iff`: a sequence returns when its parts do.
* `Step.run_ofExcept_eq_ok_iff`: a result that was computed before is taken over.
-/

namespace ClientGen.Step

variable {σ α β : Type}

/-- The result of a computation that starts in a state, and the state afterwards. -/
def run (x : ExceptT Failure (StateM σ) α) (s : σ) : Except Failure α × σ := x s

variable {x : ExceptT Failure (StateM σ) α} {f : α → ExceptT Failure (StateM σ) β}
  {s t : σ} {a : α} {b : β}

@[simp]
theorem run_pure (a : α) (s : σ) :
    run (pure a : ExceptT Failure (StateM σ) α) s = (.ok a, s) := rfl

@[simp]
theorem run_throw (e : Failure) (s : σ) :
    run (throw e : ExceptT Failure (StateM σ) α) s = (.error e, s) := rfl

@[simp]
theorem run_get (s : σ) : run (get : ExceptT Failure (StateM σ) σ) s = (.ok s, s) := rfl

@[simp]
theorem run_set (s t : σ) : run (set t : ExceptT Failure (StateM σ) PUnit) s = (.ok ⟨⟩, t) := rfl

/-- A sequence runs its first part, and then its second part on the state that the first one
leaves. -/
theorem run_bind (x : ExceptT Failure (StateM σ) α) (f : α → ExceptT Failure (StateM σ) β)
    (s : σ) : run (x >>= f) s = match run x s with
      | (.ok a, t) => run (f a) t
      | (.error e, t) => (.error e, t) := by
  -- The state monad below hands the outcome and the state over as they are.
  change (ExceptT.bindCont f (run x s).1) (run x s).2 = _
  rcases run x s with ⟨r | r, t⟩ <;> rfl

/-- After a first part that returns, a sequence goes on with its second part. -/
theorem run_bind_of_ok (h : run x s = (.ok a, t)) (f : α → ExceptT Failure (StateM σ) β) :
    run (x >>= f) s = run (f a) t := by
  rw [run_bind, h]

/-- A sequence returns exactly when its first part returns and then the second. -/
theorem run_bind_eq_ok_iff : run (x >>= f) s = (.ok b, t) ↔
    ∃ a u, run x s = (.ok a, u) ∧ run (f a) u = (.ok b, t) := by
  constructor
  · intro h
    rw [run_bind] at h
    rcases hx : run x s with ⟨e | a, u⟩
    · simp [hx] at h
    · rw [hx] at h
      exact ⟨a, u, rfl, h⟩
  · rintro ⟨a, u, hx, hf⟩
    rw [run_bind_of_ok hx, hf]

/-- A result that was computed before is taken over. -/
theorem run_ofExcept_eq_ok_iff {r : Except Failure α} :
    run (ofExcept r : ExceptT Failure (StateM σ) α) s = (.ok a, t) ↔ r = .ok a ∧ s = t := by
  cases r <;> simp [ofExcept]

end ClientGen.Step
