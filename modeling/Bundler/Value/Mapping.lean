import Bundler.Value.Basic

/-!
# Mappings

A mapping is a list of entries in the order in which their keys were first given. Writing a key
that is present replaces its value and keeps its place; a new key goes to the end.
-/

namespace Bundler.Mapping

/-- The value of a key. -/
def get? (m : Mapping) (key : Scalar) : Option Value :=
  (m.find? fun e => e.1.same key).map (·.2)

/-- Whether a key is present. -/
def contains (m : Mapping) (key : Scalar) : Bool := m.any fun e => e.1.same key

/-- The mapping with `value` at `key`. -/
def insert (m : Mapping) (key : Scalar) (value : Value) : Mapping :=
  match m with
  | [] => [(key, value)]
  | e :: m => if e.1.same key then (e.1, value) :: m else e :: insert m key value

/-- The mapping that results from writing some entries in order. -/
def ofEntries (entries : List (Scalar × Value)) : Mapping :=
  entries.foldl (fun m e => insert m e.1 e.2) []

/-- The value of a textual key. -/
def getText? (m : Mapping) (key : String) : Option Value := get? m (.text key)

/-- The value of a textual key, null if there is none. -/
def getD (m : Mapping) (key : String) : Value := (getText? m key).getD .null

/-- The keys in order. -/
def keys (m : Mapping) : List Scalar := m.map (·.1)

end Bundler.Mapping
