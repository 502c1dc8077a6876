import Bundler.Number.Places
import Bundler.Number.Read
import Bundler.Value.Mapping
import Bundler.Value.Text

/-!
# Percent templates

A template is a text with fields such as `%s`, `%5.2f` or `%(name)s`. Fields take their values
from a list of arguments in order or from a mapping by name.
-/

namespace Bundler.Percent

open Number

/-- The values a template is filled with. -/
inductive Args where
  | positional (values : List Value)
  | named (values : Mapping)

/-- Why a template cannot be filled. -/
inductive Fault where
  /-- The template ends inside a field. -/
  | incomplete
  /-- The template ends inside the name of a field. -/
  | incompleteName
  /-- A field has a conversion that does not exist. -/
  | unsupported (conversion : Char) (index : Nat)
  /-- A width is written with too many digits. -/
  | tooWide
  /-- A precision is written with too many digits. -/
  | tooPrecise
  /-- What is no number is to be shown as an integer. -/
  | noInteger
  /-- A named field is filled from a list. -/
  | notAMapping
  | notEnoughArguments
  | tooManyArguments
  /-- A mapping has no value for a named field. -/
  | missing (name : String)
  /-- A value is of a kind that the conversion cannot show. -/
  | mismatch (message : String)
  /-- A number is outside the range that its use allows. -/
  | outOfRange (message : String)
  /-- A field is too wide to be written. -/
  | noSpace
  deriving Repr

/-- The wording of a fault. -/
def Fault.message : Fault → String
  | .incomplete => "incomplete format"
  | .incompleteName => "incomplete format key"
  | .unsupported c i =>
    "unsupported format character '" ++ String.ofList [if 0x1f ≤ c.toNat ∧ c.toNat < 0x7f then c else '?']
      ++ "' (0x" ++ String.ofList (Nat.toDigits 16 c.toNat) ++ ") at index " ++ toString i
  | .tooWide => "width too big"
  | .tooPrecise => "precision too big"
  | .noInteger => "cannot convert float NaN to integer"
  | .notAMapping => "format requires a mapping"
  | .notEnoughArguments => "not enough arguments for format string"
  | .tooManyArguments => "not all arguments converted during string formatting"
  | .missing name => Text.Quoted.ofText name
  | .mismatch message | .outOfRange message => message
  | .noSpace => "out of memory"

/-- The flags, the least width and the precision of a field. -/
structure Spec where
  left : Bool
  plus : Bool
  blank : Bool
  alternate : Bool
  zero : Bool
  width : Nat
  precision : Option Nat

/-- A converted value before it is filled up to a width: a sign, with any mark of a base, and what
follows it. -/
structure Converted where
  sign : String := ""
  body : String
  /-- Whether the width may be filled with zeros, which go behind the sign. -/
  numeric : Bool := false

/-- The widest field that is written. -/
def widestField : Nat := Nat.pow 2 24

/-- A converted value filled up to the width. -/
def Spec.pad (spec : Spec) (c : Converted) : Except Fault String :=
  let n := spec.width - (c.sign.length + c.body.length)
  let fill (c : Char) := String.ofList (List.replicate n c)
  if widestField < n then .error .noSpace
  else if spec.left then .ok (c.sign ++ c.body ++ fill ' ')
  else if c.numeric && spec.zero then .ok (c.sign ++ fill '0' ++ c.body)
  else .ok (fill ' ' ++ c.sign ++ c.body)

/-- The sign of a number. -/
def Spec.sign (spec : Spec) (negative : Bool) : String :=
  if negative then "-" else if spec.plus then "+" else if spec.blank then " " else ""

/-- A text cut to the precision. -/
def Spec.text (spec : Spec) (s : String) : Converted :=
  match spec.precision with
  | some n => { body := String.ofList (s.toList.take n) }
  | none => { body := s }

/-- An integer has room for fewer digits than the greatest precision. -/
def mostDigits : Nat := Nat.pow 2 31 - 4

/-- An integer in a base, behind the mark of the base if the alternate form is asked for. -/
def Spec.integer (spec : Spec) (base : Nat) (mark : String) (n : Int) : Except Fault Converted :=
  let precision := spec.precision.getD 0
  if mostDigits < precision then .error (.outOfRange "precision too large")
  else if widestField < precision then .error .noSpace
  else
    let ds := Nat.toDigits base n.natAbs
    let ds := List.replicate (precision - ds.length) '0' ++ ds
    .ok { sign := spec.sign (n < 0) ++ if spec.alternate then mark else ""
          body := String.ofList ds, numeric := true }

/-- The greatest precision. -/
def greatestPrecision : Nat := Nat.pow 2 31 - 1

/-- A floating-point number in fixed, scientific or general form. In scientific form the greatest
precision leaves no room for the leading digit and counts as none. -/
def Spec.float (spec : Spec) (conversion : Char) (x : Binary64) : Except Fault Converted :=
  let precision := spec.precision.getD 6
  let precision := if conversion = 'e' ∧ precision = greatestPrecision then 0 else precision
  let number (negative : Bool) (body : String) : Converted :=
    { sign := spec.sign negative, body, numeric := true }
  match x.form with
  | .notANumber => .ok (number false "nan")
  | .infinite negative => .ok (number negative "inf")
  | .finite negative _ _ =>
    let (num, den) := (x.ratio?.map (·.2)).getD (0, 1)
    if (conversion ≠ 'g' ∨ spec.alternate) ∧ widestField < precision then .error .noSpace
    else .ok (number negative
      (if conversion = 'f' then fixedText precision num den spec.alternate
        else if conversion = 'e' then scientificText precision num den spec.alternate
        else generalText precision num den spec.alternate))

/-- The text in upper case, as far as it is ASCII. -/
private def upper (s : String) : String := String.ofList (s.toList.map Char.toUpper)

/-- The converted value in upper case, as far as it is ASCII. -/
def Converted.upper (c : Converted) : Converted :=
  { c with sign := Percent.upper c.sign, body := Percent.upper c.body }

/-- The text with what is not ASCII escaped. -/
private def asciiOnly (s : String) : String :=
  String.ofList (s.toList.flatMap fun c =>
    if c.toNat < 0x80 then [c]
    else if c.toNat < 0x100 then '\\' :: 'x' :: Text.hexDigits 2 c.toNat
    else if c.toNat < 0x10000 then '\\' :: 'u' :: Text.hexDigits 4 c.toNat
    else '\\' :: 'U' :: Text.hexDigits 8 c.toNat)

/-- The integer that a value is. -/
def exactInteger? : Value → Option Int
  | .int n => some n
  | .bool b => some (if b then 1 else 0)
  | _ => none

/-- The fault of a value of the wrong kind. -/
private def wrongKind (conversion : Char) (wanted : String) (v : Value) : Fault :=
  .mismatch ("%" ++ String.ofList [conversion] ++ " format: " ++ wanted ++ " is required, not "
    ++ v.typeName)

/-- The integer that a value stands for, cut toward zero. -/
def toInteger (conversion : Char) (v : Value) : Except Fault Int :=
  match v with
  | .scalar (.float x) =>
    match x.form with
    | .notANumber => .error .noInteger
    | .infinite _ => .error (.outOfRange "cannot convert float infinity to integer")
    | .finite .. => .ok (x.truncate?.getD 0)
  | v => match exactInteger? v with
    | some n => .ok n
    | none => .error (wrongKind conversion "a real number" v)

/-- The floating-point number that a value stands for. -/
def toFloat (v : Value) : Except Fault Binary64 :=
  match v with
  | .scalar (.float x) => .ok x
  | v => match exactInteger? v with
    | some n =>
      match (Binary64.ofInt n).form with
      | .infinite _ => .error (.outOfRange "int too large to convert to float")
      | _ => .ok (.ofInt n)
    | none => .error (.mismatch ("must be real number, not " ++ v.typeName))

/-- The character that a value is or whose number it is. -/
def toCharacter (v : Value) : Except Fault String :=
  match v with
  | .text s => if s.length = 1 then .ok s else .error (.mismatch "%c requires int or char")
  | v => match exactInteger? v with
    | some n =>
      if 0 ≤ n ∧ n < 0x110000 then .ok (String.ofList [Char.ofNat n.toNat])
      else .error (.outOfRange "%c arg not in range(0x110000)")
    | none => .error (.mismatch "%c requires int or char")

/-- A value shown by a conversion. -/
def Spec.convert (spec : Spec) (conversion : Char) (index : Nat) (v : Value) :
    Except Fault Converted :=
  match conversion with
  | 's' => .ok (spec.text v.shown)
  | 'r' => .ok (spec.text v.quoted)
  | 'a' => .ok (spec.text (asciiOnly v.quoted))
  | 'c' => (toCharacter v).map fun s => { body := s }
  | 'd' | 'i' | 'u' => (toInteger conversion v).bind (spec.integer 10 "")
  | 'o' | 'x' | 'X' =>
    match exactInteger? v with
    | none => .error (wrongKind conversion "an integer" v)
    | some n =>
      if conversion = 'o' then spec.integer 8 "0o" n
      else if conversion = 'x' then spec.integer 16 "0x" n
      else (spec.integer 16 "0x" n).map Converted.upper
  | 'e' | 'f' | 'g' => (toFloat v).bind (spec.float conversion)
  | 'E' | 'F' | 'G' => (toFloat v).bind fun x => (spec.float conversion.toLower x).map Converted.upper
  | _ => .error (.unsupported conversion index)

/-- The values that are still to be used: a mapping as a whole counts as one. -/
structure State where
  rest : List Value
  named : Option Mapping

/-- The next value in order. -/
def State.next (st : State) : Except Fault (Value × State) :=
  match st.rest with
  | v :: rest => .ok (v, { st with rest })
  | [] => .error .notEnoughArguments

/-- The name of a field up to the parenthesis that closes it, and what follows. -/
def readName : Nat → List Char → Option (List Char × List Char)
  | _, [] => none
  | depth, c :: cs =>
    if c = ')' ∧ depth = 0 then some ([], cs)
    else
      let depth := if c = '(' then depth + 1 else if c = ')' then depth - 1 else depth
      (readName depth cs).map fun (name, rest) => (c :: name, rest)

/-- A width or precision: digits, which must not exceed `limit`, or a star for an amount that is
taken from the arguments and must fit into as many bits. -/
def readAmount (limit : Nat) (excess : Fault) (cs : List Char) (st : State) :
    Except Fault (Option Int × List Char × State) :=
  match cs with
  | '*' :: cs => do
    let (v, st) ← st.next
    match exactInteger? v with
    | some n =>
      if -(limit : Int) - 1 ≤ n ∧ n ≤ limit then .ok (some n, cs, st)
      else .error (.outOfRange "int too large")
    | none => .error (.mismatch "* wants int")
  | _ =>
    let ds := cs.takeWhile Char.isDigit
    let n := ofDigits ds
    if ds.isEmpty then .ok (none, cs, st)
    else if limit < n then .error excess
    else .ok (some n, cs.dropWhile Char.isDigit, st)

/-- The greatest width. -/
def greatestWidth : Nat := Nat.pow 2 63 - 1

/-- The value and the rest of a field that may have a name, behind its percent sign. -/
def readNamed (cs : List Char) (st : State) : Except Fault (List Char × State) :=
  match cs with
  | '(' :: cs => match st.named with
    | none => .error .notAMapping
    | some m => match readName 0 cs with
      | none => .error .incompleteName
      | some (name, cs) => match Mapping.getText? m (String.ofList name) with
        | some v => .ok (cs, { st with rest := [v] })
        | none => .error (.missing (String.ofList name))
  | _ => .ok (cs, st)

/-- A letter for the size of a number, which has no effect, is skipped. -/
def skipSize : List Char → List Char
  | c :: cs => if c = 'h' ∨ c = 'l' ∨ c = 'L' then cs else c :: cs
  | [] => []

/-- A field behind its percent sign: its text, what follows it, and the values left. A second
percent sign stands for itself, but only if nothing comes between the two. The least width has no
opposite and counts as none. -/
def field (length : Nat) (cs : List Char) (st : State) :
    Except Fault (String × List Char × State) :=
  match cs with
  | '%' :: cs => .ok ("%", cs, st)
  | cs => do
    let (cs, st) ← readNamed cs st
    let isFlag := fun c : Char => "-+ #0".toList.contains c
    let flags := cs.takeWhile isFlag
    let (width, cs, st) ← readAmount greatestWidth .tooWide (cs.dropWhile isFlag) st
    let (precision, cs, st) ← match cs with
      | '.' :: cs => do
        let (n, cs, st) ← readAmount greatestPrecision .tooPrecise cs st
        .ok (some (n.getD 0).toNat, cs, st)
      | _ => .ok (none, cs, st)
    match skipSize cs with
    | [] => .error .incomplete
    | c :: cs =>
      let width := width.getD 0
      let spec : Spec :=
        { left := flags.contains '-' || width < 0, plus := flags.contains '+',
          blank := flags.contains ' ', alternate := flags.contains '#', zero := flags.contains '0',
          width := if greatestWidth < width.natAbs then 0 else width.natAbs, precision }
      let (v, st) ← st.next
      let s ← (← spec.convert c (length - cs.length - 1) v) |> spec.pad
      .ok (s, cs, st)

/-- Fill the fields of a template, of which there are fewer than `fuel`. -/
def fillFrom (length : Nat) : Nat → List Char → State → Except Fault (List Char × State)
  | 0, _, st => .ok ([], st)
  | _ + 1, [], st => .ok ([], st)
  | fuel + 1, c :: cs, st =>
    if c = '%' then do
      let (s, cs, st) ← field length cs st
      let (more, st) ← fillFrom length fuel cs st
      .ok (s.toList ++ more, st)
    else do
      let (more, st) ← fillFrom length fuel cs st
      .ok (c :: more, st)

/-- A template with its fields filled. -/
def fill (template : String) (args : Args) : Except Fault String := do
  let cs := template.toList
  let st : State := match args with
    | .positional values => ⟨values, none⟩
    | .named values => ⟨[.mapping values], some values⟩
  let (out, st) ← fillFrom cs.length (cs.length + 1) cs st
  if st.named.isNone && !st.rest.isEmpty then .error .tooManyArguments
  else .ok (String.ofList out)

end Bundler.Percent
