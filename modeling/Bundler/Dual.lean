import Bundler.Failure

/-!
# Functions for two contexts

Work that has to wait for files is called in one of two ways. A caller in a running event loop is
given the work and waits for it. Any other caller is given its result: the work is done before the
call returns.
-/

namespace Bundler

/-- Where a call comes from. -/
inductive CallContext where
  | outside
  /-- From work that runs in an event loop. -/
  | inLoop
  deriving DecidableEq, Repr

/-- A function as it is defined: as work in steps, or as an ordinary one. -/
inductive Routine (γ s α : Type) where
  | work (of : γ → Steps s α)
  | plain (of : γ → s → α × s)

/-- What a call gives: a result, or work to wait for. -/
inductive Called (s α : Type) where
  | value (a : α)
  | work (rest : Steps s α)

namespace Called

variable {s α : Type}

/-- Whether there is something to wait for. -/
def isAwaitable : Called s α → Bool
  | .value _ => false
  | .work _ => true

/-- Wait for what a call gave, if need be. -/
def wait : Called s α → s → α × s
  | .value a, w => (a, w)
  | .work rest, w => rest.run w

end Called

/-- The function that can be called in both contexts. An ordinary function cannot be made one. -/
def dual {γ s α : Type} (routine : Routine γ s α) :
    Except Failure (CallContext → γ → s → Called s α × s) :=
  match routine with
  | .plain _ => .error (.unsuitable "@dual can only be applied to async def functions")
  | .work of => .ok fun context args w =>
    match context with
    | .outside =>
      let (a, w) := (of args).run w
      (.value a, w)
    | .inLoop => (.work (of args), w)

end Bundler
