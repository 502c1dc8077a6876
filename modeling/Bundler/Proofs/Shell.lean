import Mathlib.Tactic.Lemma
import Bundler.CommandLine.Shell

/-!
# Laws of the shell

What each piece of work of a command gives and leaves behind, read off the shell that it starts
from, and the two ways in which a failure ends it.
-/

namespace Bundler.CommandLine

/-- The last thing printed to the error output is a line. -/
def Shell.EndsWith (sh : Shell) (line : String) : Prop :=
  ∃ before, sh.journal.errors = before ++ ShellM.printed line

/-- A line has been printed to the error output. -/
def Shell.HasTold (sh : Shell) (line : String) : Prop :=
  ∃ before after, sh.journal.errors = before ++ ShellM.printed line ++ after

namespace ShellM

variable {α β : Type} {sh sh' : Shell} {failure : Failure}

/-! ### Laws of the shell -/

/-- What a piece of work of a command gives and the shell that it leaves behind. -/
def runOn (act : ShellM α) (sh : Shell) : Except Stop α × Shell := act.run.run sh

@[simp] lemma runOn_pure (a : α) (sh : Shell) : runOn (pure a : ShellM α) sh = (.ok a, sh) := rfl

@[simp] lemma runOn_get (sh : Shell) : runOn (get : ShellM Shell) sh = (.ok sh, sh) := rfl

@[simp] lemma runOn_set (sh' sh : Shell) : runOn (set sh' : ShellM PUnit) sh = (.ok ⟨⟩, sh') := rfl

@[simp] lemma runOn_throw (stop : Stop) (sh : Shell) :
    runOn (throw stop : ShellM α) sh = (.error stop, sh) := rfl

@[simp] lemma runOn_say (line : String) (sh : Shell) :
    runOn (say line) sh = (.ok (), { sh with output := sh.output ++ printed line }) := rfl

@[simp] lemma runOn_complain (line : String) (sh : Shell) :
    runOn (complain line) sh = (.ok (), { sh with
      journal := { sh.journal with errors := sh.journal.errors ++ printed line } }) := rfl

/-- The second piece of work begins where the first one ends, unless that stops. -/
lemma runOn_bind (act : ShellM α) (next : α → ShellM β) (sh : Shell) :
    runOn (act >>= next) sh = match runOn act sh with
      | (.ok a, sh) => runOn (next a) sh
      | (.error stop, sh) => (.error stop, sh) := by
  simp only [runOn, ExceptT.run, bind, ExceptT.bind, ExceptT.mk, StateT.bind, StateT.run,
    ExceptT.bindCont]
  cases act sh with
  | mk result sh =>
    cases result <;> rfl

lemma runOn_bind_ok {act : ShellM α} {a : α} (next : α → ShellM β)
    (h : runOn act sh = (.ok a, sh')) : runOn (act >>= next) sh = runOn (next a) sh' := by
  rw [runOn_bind, h]

/-- How a command ends if it stops in a piece of work. -/
lemma execute_eq (act : ShellM Unit) (sh : Shell) :
    execute act sh = match runOn act sh with
      | (.ok (), sh) => (none, sh)
      | (.error stop, sh) => (some stop, sh) := rfl

/-! ### Two ways to end -/

/-- The work ends by a failure: it is reported, with an exit of status one, or leaves the work. -/
def EndsBy (reported : Bool) (failure : Failure) (x : Except Stop α × Shell) : Prop :=
  if reported then x.1 = .error (.exit 1) ∧ x.2.EndsWith ("Error: " ++ failure.message)
  else x.1 = .error (.escape failure)

lemma EndsBy.bind {reported : Bool} {act : ShellM α} (next : α → ShellM β)
    (h : EndsBy reported failure (runOn act sh)) :
    EndsBy reported failure (runOn (act >>= next) sh) := by
  rw [runOn_bind]
  cases hact : runOn act sh with
  | mk result sh' =>
    rw [hact] at h
    cases reported with
    | true =>
      obtain ⟨hstop, hends⟩ := h
      cases hstop
      exact ⟨rfl, hends⟩
    | false =>
      obtain rfl : result = .error (.escape failure) := h
      rfl

@[simp] lemma runOn_orFail_ok (isReported : Failure → Bool) (a : α) (sh : Shell) :
    runOn (orFail isReported (.ok a)) sh = (.ok a, sh) := rfl

/-- A result that is a failure is reported if it is of the right kind. -/
lemma orFail_endsBy (isReported : Failure → Bool) (failure : Failure) (sh : Shell) :
    EndsBy (isReported failure) failure
      (runOn (orFail isReported (.error failure) : ShellM α) sh) := by
  unfold EndsBy orFail
  dsimp only
  split
  · exact ⟨rfl, _, rfl⟩
  · rfl

end ShellM

end Bundler.CommandLine
