import Bundler.Number.Arithmetic
import Bundler.Number.Read
import Bundler.Text.Base64
import Bundler.Text.Digit
import Bundler.Text.Hex
import Bundler.Text.Lower
import Bundler.Text.Quoted
import Bundler.Yaml.Fault
import Bundler.Yaml.Tag

/-!
# Scalars by kind

The value that a text stands for as a scalar of a kind. A text that is tagged as something it does
not have the form of is refused.
-/

namespace Bundler.Yaml

open Number

/-- The refusal of an empty text where a number is wanted. -/
def emptyNumber : Failure := .foreign "IndexError" "string index out of range"

/-- The letter that stands behind a zero as the mark of a base. -/
def markOf : (base : Nat) → Option Char
  | 2 => some 'b'
  | 8 => some 'o'
  | 16 => some 'x'
  | _ => none

/-- The most characters of a text that are shown where it is refused as an integer. -/
def shownLimit : Nat := 200

/-- The failure of a text that is no integer to a base. -/
def notAnInteger (base : Nat) (cs : List Char) : Failure :=
  .invalid ("invalid literal for int() with base " ++ toString base ++ ": "
    ++ String.ofList ((Text.Quoted.ofText (String.ofList cs)).toList.take shownLimit))

/-- The integer of a text to a base, with an optional sign and the mark of the base. In decimal
notation the number of digits is limited. -/
def integerIn (base : Nat) (cs : List Char) : Except Failure Int :=
  let (negative, ds) := takeSign (Text.numeral cs)
  let ds := match ds with
    | '0' :: c :: rest => if markOf base = some c.toLower then rest else ds
    | ds => ds
  let count := (ds.takeWhile Char.isDigit).length
  if base = 10 ∧ digitLimit < count then .error (.tooManyDigits count)
  else match if ds.isEmpty then none else Text.valueIn? base ds with
    | some n => .ok (if negative then -(n : Int) else n)
    | none => .error (notAnInteger base cs)

/-- The integer of a text to base ten. -/
def decimal (cs : List Char) : Except Failure Int := integerIn 10 cs

/-- The number whose parts to base sixty are given, the last part first. -/
def sexagesimal (parts : List Int) : Int :=
  (parts.foldl (fun (sum, base) part => (sum + part * base, base * 60)) ((0 : Int), (1 : Int))).1

/-- The sign of a text and the text behind it; the empty text has none. -/
def signOf (cs : List Char) : Except Failure (Bool × List Char) :=
  if cs.isEmpty then .error emptyNumber else .ok (takeSign cs)

/-- The integer of a text. Underscores do not count. -/
def integerOf (text : String) : Except Failure Int := do
  let (negative, cs) ← signOf (text.toList.filter (· != '_'))
  let n ← match cs with
    | ['0'] => .ok 0
    | '0' :: 'b' :: ds => integerIn 2 ds
    | '0' :: 'x' :: ds => integerIn 16 ds
    | [] => .error emptyNumber
    | '0' :: _ => integerIn 8 cs
    | cs =>
      if cs.contains ':' then do
        .ok (sexagesimal (← (Text.split ':' cs).mapM decimal).reverse)
      else decimal cs
  .ok (if negative then -n else n)

/-- The floating-point number of a text in decimal notation. -/
def floatText (cs : List Char) : Except Failure Binary64 :=
  match Binary64.read? (String.ofList (Text.numeral cs)) with
  | some x => .ok x
  | none => .error (.invalid ("could not convert string to float: "
      ++ Text.Quoted.ofText (String.ofList cs)))

/-- The sum of the parts of a number to base sixty, the last part first, from the value of the first
of them on. Every value is rounded on its own. -/
def sexagesimalFloat (value : Nat) (sum : Binary64) : List Binary64 → Except Failure Binary64
  | [] => .ok sum
  | part :: parts =>
    let unit := Binary64.ofInt value
    if unit.ratio?.isNone then .error (.outOfRange "int too large to convert to float")
    else sexagesimalFloat (value * 60) (sum.add (part.scale unit)) parts

/-- The floating-point number of a text. Underscores do not count. What is no number gets a label of
its own, unless it is written as such. -/
def floatOf (text : String) (label : Nat) : Except Failure Binary64 := do
  let (negative, cs) ← signOf (Text.lower (String.ofList (text.toList.filter (· != '_')))).toList
  match String.ofList cs with
  | ".inf" => .ok (Binary64.infinity negative)
  | ".nan" => .ok Binary64.notANumber
  | _ =>
    let x ← if cs.contains ':' then do
        sexagesimalFloat 1 (Binary64.ofInt 0) (← (Text.split ':' cs).mapM floatText).reverse
      else floatText cs
    .ok (if x.isNotANumber then .notANumber label else if negative then x.negate else x)

/-- The truth value of a text. -/
def boolOf (text : String) : Except Failure Bool :=
  let word := Text.lower text
  match boolWords.lookup word with
  | some b => .ok b
  | none => .error (.missingKey word)

/-- The scalar that a text stands for as one of a kind; `none` if the kind is none of a scalar. The
label tells values apart that are no numbers. -/
def Kind.scalar? (kind : Kind) (text : String) (start : Mark) (label : Nat) :
    Option (Except Refusal Scalar) :=
  match kind with
  | .null => some (.ok .null)
  | .bool => some ((boolOf text).map .bool |>.mapError .unreadable)
  | .int => some ((integerOf text).map .int |>.mapError .unreadable)
  | .float => some ((floatOf text label).map .float |>.mapError .unreadable)
  | .binary =>
    some (match if text.toList.all (·.toNat < 0x80) then Text.Base64.decode text.toList else none with
      | some bytes => .ok (.bytes bytes)
      | none => .error (.malformed ⟨.malformedBinary, some start⟩))
  | .timestamp =>
    some (match Timestamp.read? text.toList with
      | some t => t.scalar.mapError .unreadable
      | none => .error (.unreadable
          (.unsupported "'NoneType' object has no attribute 'groupdict'")))
  | .text => some (.ok (.text text))
  | _ => none

end Bundler.Yaml
