import Bundler.Calendar.Date
import Bundler.Number.Binary64

/-!
# Values

The data of a configuration: scalars, sequences and mappings. The keys of a mapping are scalars,
kept in the order in which they were first given.

Two keys are the same if they are equal as numbers, whatever their types: `1`, `1.0` and `true`
name one entry.
-/

namespace Bundler

open Number Calendar

/-- A value without parts. -/
inductive Scalar where
  | null
  | bool (b : Bool)
  | int (n : Int)
  | float (x : Binary64)
  | text (s : String)
  | bytes (bs : List UInt8)
  | date (d : Date)
  | moment (t : Moment)
  deriving DecidableEq, Repr, Inhabited

/-- A value of a configuration. -/
inductive Value where
  | scalar (s : Scalar)
  | list (items : List Value)
  | tuple (items : List Value)
  | set (members : List Scalar)
  | mapping (entries : List (Scalar × Value))
  deriving Repr, Inhabited

/-- Keys with their values, in order. -/
abbrev Mapping := List (Scalar × Value)

namespace Value

@[match_pattern] abbrev null : Value := .scalar .null
@[match_pattern] abbrev bool (b : Bool) : Value := .scalar (.bool b)
@[match_pattern] abbrev int (n : Int) : Value := .scalar (.int n)
@[match_pattern] abbrev text (s : String) : Value := .scalar (.text s)

/-- Whether the value is null. -/
def isNull : Value → Bool
  | .null => true
  | _ => false

/-- Whether the value is a mapping. -/
def isMapping : Value → Bool
  | .mapping _ => true
  | _ => false

/-- The entries of a mapping. -/
def entries? : Value → Option Mapping
  | .mapping entries => some entries
  | _ => none

end Value

/-- Zero, the empty text, null and `false` count as false. -/
def Scalar.truthy : Scalar → Bool
  | .null => false
  | .bool b => b
  | .int n => n != 0
  | .float x => !x.isZero
  | .text s => !s.isEmpty
  | .bytes bs => !bs.isEmpty
  | .date _ | .moment _ => true

/-- An empty collection counts as false, as an empty or zero scalar does. -/
def Value.truthy : Value → Bool
  | .scalar s => s.truthy
  | .list items | .tuple items => !items.isEmpty
  | .set members => !members.isEmpty
  | .mapping entries => !entries.isEmpty

/-- The representative of a key among the keys that name the same entry: an integer for the
numbers that equal one, universal time for a moment whose offset is known. -/
def Scalar.key : Scalar → Scalar
  | .bool b => .int (if b then 1 else 0)
  | .float x => match x.truncate? with
    | some n => if x.equalsInt n then .int n else .float x
    | none => .float x
  | .moment t => .moment t.universal
  | s => s

/-- Whether two keys name the same entry. -/
def Scalar.same (a b : Scalar) : Bool := a.key == b.key

end Bundler
