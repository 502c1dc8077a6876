import Bundler.Number.Shortest

/-!
# Decimal text of a given precision

A floating-point number with a fixed number of decimal places, in scientific notation, or in
whichever of the two is shorter. The exact value is rounded once, a half going to the even
neighbour.
-/

namespace Bundler.Number

/-- Digits with a point and more digits behind them. The point may be left out if nothing follows
it. -/
def pointed (whole places : List Char) (keepPoint : Bool) : List Char :=
  if places.isEmpty && !keepPoint then whole else whole ++ '.' :: places

/-- No floating-point number has more decimal places or significant digits than this; those behind
are zeros. -/
def mostFigures : Nat := 1100

/-- The zeros behind the figures that a floating-point number may have. -/
def furtherZeros (figures : Nat) : List Char := List.replicate (figures - mostFigures) '0'

/-- The quotient that a floating-point number is, not negative, with `places` decimal places. -/
def fixedText (places num den : Nat) (keepPoint : Bool) : String :=
  let exact := min places mostFigures
  let ds := digits (roundDiv (num * Nat.pow 10 exact) den)
  let ds := List.replicate (exact + 1 - ds.length) '0' ++ ds
  let whole := ds.length - exact
  String.ofList (pointed (ds.take whole) (ds.drop whole ++ furtherZeros places) keepPoint)

/-- The first digits of the quotient that a floating-point number is, `places` more than one, and the
exponent of the first. -/
def leadingDigits (places num den : Nat) : List Char × Int :=
  if num = 0 then (List.replicate (places + 1) '0', 0)
  else
    let exact := min places mostFigures
    let top := decimalExponent num den
    let unit := top - exact
    let n := if 0 ≤ unit then roundDiv num (den * Nat.pow 10 unit.toNat)
      else roundDiv (num * Nat.pow 10 (-unit).toNat) den
    let ds := digits n
    let (ds, top) := if ds.length = exact + 2 then (ds.dropLast, top + 1) else (ds, top)
    (ds ++ furtherZeros places, top)

/-- A quotient in scientific notation with `places` digits behind the point. -/
def scientificText (places num den : Nat) (keepPoint : Bool) : String :=
  let (ds, exponent) := leadingDigits places num den
  String.ofList (pointed (ds.take 1) (ds.drop 1) keepPoint) ++ "e" ++ exponentText exponent

/-- The text without the zeros at the end of its decimal places. -/
def dropPlaceZeros (s : String) : String :=
  let mantissa := s.toList.takeWhile (· ≠ 'e')
  let exponent := s.toList.dropWhile (· ≠ 'e')
  if mantissa.contains '.' then
    let short := (mantissa.reverse.dropWhile (· == '0'))
    let short := if short.head? = some '.' then short.tail else short
    String.ofList (short.reverse ++ exponent)
  else s

/-- A quotient with `figures` significant digits, positional unless its exponent lies below `-4` or
reaches `figures`. The zeros at the end of the decimal places may be left out. -/
def generalText (figures num den : Nat) (keepZeros : Bool) : String :=
  let figures := max (if keepZeros then figures else min figures mostFigures) 1
  let (_, exponent) := leadingDigits (figures - 1) num den
  let s := if -4 ≤ exponent ∧ exponent < figures then
      fixedText (figures - 1 - exponent).toNat num den keepZeros
    else scientificText (figures - 1) num den keepZeros
  if keepZeros then s else dropPlaceZeros s

end Bundler.Number
