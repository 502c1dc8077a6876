import Bundler.Number.Binary64

/-!
# Reading numbers

Digit runs and decimal notation with an optional point and exponent.
-/

namespace Bundler.Number

/-- The value of a run of decimal digits. -/
def ofDigits (ds : List Char) : Nat := ds.foldl (fun n c => n * 10 + (c.toNat - '0'.toNat)) 0

/-- The leading sign and the rest. -/
def takeSign : List Char → Bool × List Char
  | '-' :: cs => (true, cs)
  | '+' :: cs => (false, cs)
  | cs => (false, cs)

/-- An exponent, with its letter, or nothing. -/
def readExponent? : List Char → Option Int
  | [] => some 0
  | c :: cs =>
    if c = 'e' ∨ c = 'E' then
      let (negative, ds) := takeSign cs
      if ds.isEmpty ∨ !ds.all Char.isDigit then none
      else some (if negative then -(ofDigits ds : Int) else ofDigits ds)
    else none

/-- A number in decimal notation: digits on at least one side of the point. -/
def readDecimal? (negative : Bool) (cs : List Char) : Option Binary64 := do
  let whole := cs.takeWhile Char.isDigit
  let rest := cs.dropWhile Char.isDigit
  let (places, rest) := match rest with
    | '.' :: rest => (rest.takeWhile Char.isDigit, rest.dropWhile Char.isDigit)
    | _ => ([], rest)
  if whole.isEmpty ∧ places.isEmpty then none
  else
    let e ← readExponent? rest
    some (Binary64.ofDecimal negative (ofDigits (whole ++ places)) (e - places.length))

/-- A floating-point number from its text: decimal notation, `inf` or `nan`, with a sign. -/
def Binary64.read? (s : String) : Option Binary64 :=
  let (negative, cs) := takeSign s.toList
  let word := String.ofList (cs.map Char.toLower)
  if word = "inf" ∨ word = "infinity" then some (.infinity negative)
  else if word = "nan" then some (.notANumber)
  else readDecimal? negative cs

end Bundler.Number
