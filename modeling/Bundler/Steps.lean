/-!
# Work in steps

Tasks that run at the same time share a state and take their steps in turns. What a step does, and
how its task goes on, may depend on the state that it finds, which other tasks have changed in the
meantime.

A list of turns tells which task takes the next step. What is left when the turns are used up is
done one task after another, so every order in which the steps can be taken is one of such a list,
and the empty one runs the tasks one after another.
-/

namespace Bundler

/-- A task on a state that it shares with others. -/
inductive Steps (s α : Type) where
  | done (result : α)
  | step (change : s → s) (next : s → Steps s α)

namespace Steps

variable {s t α β : Type}

/-- A task that goes on where another one ends. -/
def bind : Steps s α → (α → Steps s β) → Steps s β
  | done a, next => next a
  | step change rest, next => step change fun w => (rest w).bind next

instance : Monad (Steps s) where
  pure := done
  bind := bind

/-- A single step with an answer. -/
def once (act : s → α × s) : Steps s α := step (fun w => (act w).2) fun w => done (act w).1

/-- The task of which each step changes a part of the state. -/
def onPart (part : s → t) (put : t → s → s) : Steps t α → Steps s α
  | done a => done a
  | step change next =>
    step (fun w => put (change (part w)) w) fun w => (next (part w)).onPart part put

/-- Take all steps of a task in a row. -/
def run : Steps s α → s → α × s
  | done a, w => (a, w)
  | step change next, w => (next w).run (change w)

/-- Take the first step of a task. -/
def first : Steps s α → s → Steps s α × s
  | done a, w => (done a, w)
  | step change next, w => (next w, change w)

/-- Take all steps of one task after those of another. -/
def runAll : List (Steps s α) → s → List α × s
  | [], w => ([], w)
  | task :: tasks, w =>
    let (a, w) := task.run w
    let (as, w) := runAll tasks w
    (a :: as, w)

/-- Take steps of the tasks with the given indices, and in the end all that are left. -/
def together : List Nat → List (Steps s α) → s → List α × s
  | [], tasks, w => runAll tasks w
  | i :: turns, tasks, w =>
    match tasks[i]? with
    | none => together turns tasks w
    | some task =>
      let (task, w) := task.first w
      together turns (tasks.set i task) w

end Steps

end Bundler
