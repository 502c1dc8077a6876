import Bundler.Entry

/-!
# Elements

The parts of a compiled tree, in the order in which they are written: compiled units, statements
that evaluate a registered module, and bare elements that only carry a name.
-/

namespace Bundler

/-- The result of compiling one module or script. -/
structure CompiledUnit where
  name : String
  kind : String := "module"
  text : String := ""
  dependencies : List String := []
  deriving DecidableEq, Repr, Inhabited

/-- A part of a compiled tree. -/
inductive Element where
  | compiled (unit : CompiledUnit)
  /-- Evaluate the module registered under a name. -/
  | evaluation (name : String)
  /-- A name and nothing to write. -/
  | bare (name : String)
  deriving DecidableEq, Repr, Inhabited

/-- The name of an element. -/
def Element.name : Element → String
  | .compiled unit => unit.name
  | .evaluation name | .bare name => name

/-- The compiled units among some elements. -/
def Element.units (elements : List Element) : List CompiledUnit :=
  elements.filterMap fun
    | .compiled unit => some unit
    | _ => none

/-- Elements in the order in which they are written. -/
abbrev Tree := List Element

end Bundler
