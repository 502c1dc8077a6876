/-!
# One after another

`inOrder` takes the items of a list through a step that may fail, carrying a state along. A failure
ends the run: the items after it are never started, and the state is left as the failing step left
it.
-/

namespace Bundler

variable {α ε σ : Type}

/-- Take the items through a step, one after another, up to the first failure. -/
def inOrder (step : α → σ → Except ε Unit × σ) : List α → σ → Except ε Unit × σ
  | [], s => (.ok (), s)
  | a :: as, s =>
    match step a s with
    | (.error e, s) => (.error e, s)
    | (.ok (), s) => inOrder step as s

end Bundler
