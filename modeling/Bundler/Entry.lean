import Bundler.Text.Split

/-!
# Entries

An entry is a file that the caller asks for, loaded as a module with its dependencies or as a plain
script.
-/

namespace Bundler

/-- How an entry is loaded. -/
inductive EntryKind where
  | module
  | script
  deriving DecidableEq, Repr, Inhabited

/-- The word for a kind. -/
def EntryKind.word : EntryKind → String
  | .module => "module"
  | .script => "script"

/-- The kind of a word. -/
def EntryKind.ofWord? (word : String) : Option EntryKind :=
  if word = "module" then some .module
  else if word = "script" then some .script
  else none

/-- A file to load. -/
structure Entry where
  name : String
  kind : EntryKind := .module
  deriving DecidableEq, Repr, Inhabited

namespace Entry

/-- Read an entry: `script:path` and `module:path` name the kind, anything else is the name of a
module. -/
def parse (spec : String) : Entry :=
  match Text.cut ':' spec.toList with
  | (word, some (c :: rest)) =>
    match EntryKind.ofWord? (String.ofList word) with
    | some kind => ⟨String.ofList (c :: rest), kind⟩
    | none => ⟨spec, .module⟩
  | _ => ⟨spec, .module⟩

end Entry

end Bundler
