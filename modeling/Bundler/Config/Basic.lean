import Bundler.Value.Access
import Bundler.Value.Equality

/-!
# Configurations

A configuration is a mapping, usually nested, with a section for the compilation and one for the
log. Values are looked up by one key or by several keys joined by dots.
-/

namespace Bundler

/-- A configuration. -/
structure Config where
  data : Value
  deriving Repr

namespace Config

/-- The keys that a dotted key joins. -/
def keysOf (key : String) : List String := (Text.split '.' key.toList).map String.ofList

/-- The value at a key of a value, if the value is a mapping that has it. -/
def child? (v : Value) (key : String) : Option Value :=
  match v with
  | .mapping m => Mapping.getText? m key
  | _ => none

/-- The value at the end of a path of keys; null on the way counts as missing. -/
def lookup? (v : Value) : List String → Option Value
  | [] => some v
  | key :: keys =>
    match child? v key with
    | none => none
    | some v => if v.isNull then none else lookup? v keys

/-- The value of a dotted key, null and missing values being replaced by `default`. -/
def get (c : Config) (key : String) (default : Value) : Value :=
  (lookup? c.data (keysOf key)).getD default

/-- Whether there is anything at the end of a path of keys. -/
def hasPath (v : Value) : List String → Bool
  | [] => true
  | key :: keys =>
    match child? v key with
    | none => false
    | some v => hasPath v keys

/-- Whether a dotted key is present. -/
def contains (c : Config) (key : String) : Bool := hasPath c.data (keysOf key)

/-- What indexing gives: a nested configuration or another value. -/
inductive Found where
  | config (c : Config)
  | value (v : Value)
  deriving Repr

/-- What an item is: a mapping is a nested configuration. -/
def Found.ofValue : Value → Found
  | .mapping m => .config ⟨.mapping m⟩
  | v => .value v

/-- The failure of indexing by a key that is not there. -/
def noKey (key : Value) : Failure := .missingKey ("Config key '" ++ key.shown ++ "' not found")

/-- Whether a text occurs in another. -/
def occursIn (part : List Char) : List Char → Bool
  | [] => part.isEmpty
  | c :: cs => part.isPrefixOf (c :: cs) || occursIn part cs

/-- Whether a value has a key: of a list its items count as keys, of a text the texts in it. -/
def hasKey (v key : Value) : Except Failure Bool :=
  match v, key with
  | .mapping m, .scalar key => .ok (Mapping.contains m key)
  | .list items, key => .ok (items.any (·.equals key))
  | .text s, .text part => .ok (occursIn part.toList s.toList)
  | v, key => .error (.unsuitable (v.typeName ++ " has no key " ++ key.quoted))

/-- The item of a key that is taken as it is. -/
def itemAt (c : Config) (key : Value) : Except Failure Found := do
  if ← hasKey c.data key then .ok (.ofValue (← c.data.item key)) else .error (noKey key)

/-- The item of a key. A key with a dot is a path of keys, at the end of which null stands for
missing values. -/
def item (c : Config) (key : Value) : Except Failure Found :=
  match key with
  | .text s => if s.toList.contains '.' then .ok (.value (c.get s .null)) else itemAt c key
  | _ => itemAt c key

/-- The item of an item: a value that is no configuration is indexed by itself. -/
def Found.item (f : Found) (key : Value) : Except Failure Found :=
  match f with
  | .config c => c.item key
  | .value v => (v.item key).map .value

/-- The item at the end of a path of keys. -/
def itemAlong (c : Config) (keys : List Value) : Except Failure Found :=
  keys.foldlM Found.item (.config c)

/-- The section of a key, empty if there is none or it counts as false. -/
def sectionOf (c : Config) (key : String) : Value :=
  match child? c.data key with
  | some v => if v.truthy then v else .mapping []
  | none => .mapping []

/-- The settings of the compilation. -/
def compileSection (c : Config) : Value := c.sectionOf "compile"

/-- The settings of the log. -/
def logSection (c : Config) : Value := c.sectionOf "logging"

/-- The sections that have to be mappings. -/
def sectionKeys : List String := ["compile", "logging"]

/-- The sections that are there but no mappings, with the names of their types. -/
def misshapen (m : Mapping) : List (String × String) :=
  sectionKeys.filterMap fun key =>
    let v := Mapping.getD m key
    if v.isNull || v.isMapping then none else some (key, v.typeName)

/-- Check the shape of a configuration. -/
def validate (c : Config) : Except Failure Unit :=
  match c.data with
  | .mapping m =>
    match misshapen m with
    | [] => .ok ()
    | sections => .error (.configuration (.sectionsNotMapping sections))
  | v => .error (.configuration (.notMapping v.typeName))

end Config

end Bundler
