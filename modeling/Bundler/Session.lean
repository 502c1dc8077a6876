import Bundler.Element
import Bundler.Failure

/-!
# Sessions

A session collects the elements of one compilation in order, and the names whose load has begun.
Once it is finished it takes no more elements.
-/

namespace Bundler

/-- The elements and names collected so far. -/
structure Session where
  base : Path
  elements : List Element := []
  loaded : List String := []
  closed : Bool := false

namespace Session

/-- Add an element at the end. -/
def append (s : Session) (element : Element) : Except Failure Session :=
  if s.closed then .error (.closed (.append element.name))
  else .ok { s with elements := s.elements ++ [element] }

/-- Note that the load of a name has begun; the answer tells whether it is new. -/
def mark (s : Session) (name : String) : Bool × Session :=
  if s.loaded.contains name then (false, s) else (true, { s with loaded := name :: s.loaded })

/-- Close the session. Its elements are the tree, unless only dependencies were asked for. -/
def finish (s : Session) (dependencyTarget : Value) : Except Failure (Option Tree × Session) :=
  if s.closed then .error (.closed .finish)
  else .ok (if dependencyTarget.truthy then none else some s.elements, { s with closed := true })

end Session

end Bundler
