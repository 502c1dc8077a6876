import Mathlib.Tactic.Lemma
import Bundler.Compile.Work

/-!
# Laws of work

What each piece of work gives and leaves behind, read off the work it starts from.
-/

namespace Bundler.Compile.WorkM

variable {σ α β : Type} {work : Work σ}

@[simp] lemma carryOut_pure (a : α) (work : Work σ) :
    carryOut (pure a : WorkM σ α) work = (.ok a, work) := rfl

/-- The second piece of work begins where the first one ends, unless that fails. -/
lemma carryOut_bind (act : WorkM σ α) (next : α → WorkM σ β) (work : Work σ) :
    carryOut (act >>= next) work = match carryOut act work with
      | (.ok a, work) => carryOut (next a) work
      | (.error failure, work) => (.error failure, work) := by
  simp only [carryOut, ExceptT.run, bind, ExceptT.bind, ExceptT.mk, StateT.bind, ExceptT.bindCont]
  cases act work with
  | mk result work =>
    cases result <;> rfl

/-- Work in two pieces succeeds if both succeed. -/
lemma carryOut_bind_eq_ok_iff {act : WorkM σ α} {next : α → WorkM σ β} {b : β} :
    (carryOut (act >>= next) work).1 = .ok b ↔
      ∃ a, (carryOut act work).1 = .ok a ∧
        (carryOut (next a) (carryOut act work).2).1 = .ok b := by
  rw [carryOut_bind]
  cases carryOut act work with
  | mk result work =>
    cases result <;> simp

@[simp] lemma carryOut_get (work : Work σ) :
    carryOut (get : WorkM σ (Work σ)) work = (.ok work, work) := rfl

@[simp] lemma carryOut_set (work' work : Work σ) :
    carryOut (set work' : WorkM σ PUnit) work = (.ok ⟨⟩, work') := rfl

@[simp] lemma carryOut_modify (f : Work σ → Work σ) (work : Work σ) :
    carryOut (modify f : WorkM σ PUnit) work = (.ok ⟨⟩, f work) := rfl

@[simp] lemma carryOut_throw (failure : Failure) (work : Work σ) :
    carryOut (throw failure : WorkM σ α) work = (.error failure, work) := rfl

@[simp] lemma carryOut_ofExcept (result : Except Failure α) (work : Work σ) :
    carryOut (MonadExcept.ofExcept result : WorkM σ α) work = (result, work) := by
  cases result <;> rfl

@[simp] lemma carryOut_onWorkspace (act : Workspace → Except Failure α × Workspace)
    (work : Work σ) : carryOut (onWorkspace act) work
      = ((act work.workspace).1, { work with workspace := (act work.workspace).2 }) := by
  simp [onWorkspace, carryOut_bind]

/-- A second piece of work that fails takes the place of the outcome of the first. -/
lemma carryOut_thenAlways (act : WorkM σ α) (last : WorkM σ Unit) (work : Work σ) :
    carryOut (thenAlways act last) work = match carryOut last (carryOut act work).2 with
      | (.ok (), work') => ((carryOut act work).1, work')
      | (.error failure, work') => (.error failure, work') := by
  have hrun : carryOut (liftM (act.run) : WorkM σ (Except Failure α)) work
      = (.ok (carryOut act work).1, (carryOut act work).2) := rfl
  rw [thenAlways, carryOut_bind, hrun]
  dsimp only
  rw [carryOut_bind]
  split <;> simp [*]

/-- Work with something to do always afterwards only succeeds if it succeeds itself. -/
lemma carryOut_thenAlways_ok {act : WorkM σ α} {last : WorkM σ Unit} {a : α}
    (h : (carryOut (thenAlways act last) work).1 = .ok a) : (carryOut act work).1 = .ok a := by
  rw [carryOut_thenAlways] at h
  split at h
  · exact h
  · cases h

end Bundler.Compile.WorkM
