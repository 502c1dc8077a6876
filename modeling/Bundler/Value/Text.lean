import Bundler.Number.Shortest
import Bundler.Text.Quoted
import Bundler.Value.Basic

/-!
# The text of a value

Messages show a value in two forms: `quoted`, where a text stands in quotes, and `shown`, where a
text stands as it is. The parts of a collection are always quoted. `typeName` is the word for the
kind of a value.
-/

namespace Bundler

open Number Calendar

/-- The offset of a moment as a duration in days and seconds, both without the zero parts. -/
private def durationText (seconds : Int) : String :=
  let days := seconds.fdiv 86400
  let rest := seconds - days * 86400
  let parts := (if days = 0 then [] else ["days=" ++ toString days])
    ++ (if rest = 0 then [] else ["seconds=" ++ toString rest])
  "datetime.timedelta(" ++ (if parts.isEmpty then "0" else String.intercalate ", " parts) ++ ")"

/-- The constructor call of a moment; trailing zero seconds and microseconds are left out. -/
private def momentText (t : Moment) : String :=
  let fine := if t.microsecond != 0 then [t.second, t.microsecond]
    else if t.second != 0 then [t.second] else []
  let fields := [t.date.year, t.date.month, t.date.day, t.hour, t.minute] ++ fine
  let zone := match t.offset with
    | none => []
    | some 0 => ["tzinfo=datetime.timezone.utc"]
    | some n => ["tzinfo=datetime.timezone(" ++ durationText n ++ ")"]
  "datetime.datetime(" ++ String.intercalate ", " (fields.map toString ++ zone) ++ ")"

/-- A scalar with its text in quotes. -/
def Scalar.quoted : Scalar → String
  | .null => "None"
  | .bool b => if b then "True" else "False"
  | .int n => toString n
  | .float x => x.text
  | .text s => Text.Quoted.ofText s
  | .bytes bs => Text.Quoted.ofBytes bs
  | .date d =>
    "datetime.date(" ++ String.intercalate ", " ([d.year, d.month, d.day].map toString) ++ ")"
  | .moment t => momentText t

mutual

/-- A value with every text in quotes. -/
def Value.quoted : Value → String
  | .scalar s => s.quoted
  | .list items => "[" ++ String.intercalate ", " (Value.quotedItems items) ++ "]"
  | .tuple [item] => "(" ++ item.quoted ++ ",)"
  | .tuple items => "(" ++ String.intercalate ", " (Value.quotedItems items) ++ ")"
  | .set [] => "set()"
  | .set (m :: ms) => "\x7b" ++ String.intercalate ", " ((m :: ms).map Scalar.quoted) ++ "\x7d"
  | .mapping entries => "\x7b" ++ String.intercalate ", " (Value.quotedEntries entries) ++ "\x7d"

/-- The items of a list, quoted. -/
def Value.quotedItems : List Value → List String
  | [] => []
  | item :: items => item.quoted :: Value.quotedItems items

/-- The entries of a mapping, quoted. -/
def Value.quotedEntries : List (Scalar × Value) → List String
  | [] => []
  | (key, value) :: entries => (key.quoted ++ ": " ++ value.quoted) :: Value.quotedEntries entries

end

/-- A scalar as it stands in a message. -/
def Scalar.shown : Scalar → String
  | .text s => s
  | .date d => d.text
  | .moment t => t.text " "
  | s => s.quoted

/-- A value as it stands in a message. -/
def Value.shown : Value → String
  | .scalar s => s.shown
  | v => v.quoted

/-- The word for the kind of a scalar. -/
def Scalar.typeName : Scalar → String
  | .null => "NoneType"
  | .bool _ => "bool"
  | .int _ => "int"
  | .float _ => "float"
  | .text _ => "str"
  | .bytes _ => "bytes"
  | .date _ => "date"
  | .moment _ => "datetime"

/-- The word for the kind of a value. -/
def Value.typeName : Value → String
  | .scalar s => s.typeName
  | .list _ => "list"
  | .tuple _ => "tuple"
  | .set _ => "set"
  | .mapping _ => "dict"

/-- The word for the kind of a value with the library that defines it. -/
def Value.fullTypeName (v : Value) : String :=
  match v with
  | .scalar (.date _) | .scalar (.moment _) => "datetime." ++ v.typeName
  | _ => v.typeName

/-! ### What can be shown -/

/-- The most digits of an integer that is shown. -/
def digitLimit : Nat := 4300

/-- Whether a scalar is no integer of too many digits. -/
def Scalar.isPresentable : Scalar → Bool
  | .int n => decide (n.natAbs < Nat.pow 10 digitLimit)
  | _ => true

mutual

/-- Whether a value has no integer of too many digits. -/
def Value.isPresentable : Value → Bool
  | .scalar s => s.isPresentable
  | .list items | .tuple items => Value.arePresentable items
  | .set members => members.all Scalar.isPresentable
  | .mapping entries => Value.haveOnlyPresentable entries

/-- Whether no item of a list has an integer of too many digits. -/
def Value.arePresentable : List Value → Bool
  | [] => true
  | item :: items => item.isPresentable && Value.arePresentable items

/-- Whether no entry of a mapping has an integer of too many digits. -/
def Value.haveOnlyPresentable : List (Scalar × Value) → Bool
  | [] => true
  | (key, value) :: entries =>
    key.isPresentable && value.isPresentable && Value.haveOnlyPresentable entries

end

end Bundler
