import Bundler.Yaml.Fault

/-!
# YAML tokens

The words of a YAML text, among them those that stand for a change of indentation.
-/

namespace Bundler.Yaml

/-- How a scalar is written. -/
inductive Style where
  | plain
  | quoted
  | block
  deriving DecidableEq, Repr

/-- The words of a YAML text. -/
inductive Word where
  | streamStart
  | streamEnd
  /-- A version directive with its two numbers. -/
  | version (major minor : Nat)
  /-- A directive that gives a tag handle a meaning. -/
  | tagHandle (handle start : String)
  /-- A directive without a meaning. -/
  | otherDirective
  | documentStart
  | documentEnd
  | blockSequenceStart
  | blockMappingStart
  | blockEnd
  | flowSequenceStart
  | flowSequenceEnd
  | flowMappingStart
  | flowMappingEnd
  | flowEntry
  | blockEntry
  | key
  | value
  | alias (name : String)
  | anchor (name : String)
  /-- A tag with the handle, if it has one. -/
  | tag (handle : Option String) (suffix : String)
  | scalar (text : String) (style : Style)
  deriving DecidableEq, Repr

/-- A word and the place where it stands. -/
structure Token where
  word : Word
  start : Mark
  stop : Mark
  deriving Repr

end Bundler.Yaml
