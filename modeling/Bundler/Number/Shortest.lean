import Bundler.Number.Binary64

/-!
# Shortest decimal text

The text of a floating-point number has the fewest digits that are read back as the same number,
and of those the digits nearest to it. It is positional while the decimal exponent lies between
`-4` and `15` and scientific outside.
-/

namespace Bundler.Number

/-- The decimal digits of a number. -/
def digits (n : Nat) : List Char := Nat.toDigits 10 n

/-- The integer `k` with `10 ^ k ≤ num / den < 10 ^ (k + 1)`, for a positive quotient. -/
def decimalExponent (num den : Nat) : Int :=
  if den ≤ num then (digits (num / den)).length - 1
  else
    let t := (digits (den / num)).length - 1
    if den ≤ num * Nat.pow 10 t then -t else -(t + 1)

/-- A decimal number `coefficient * 10 ^ exponent`. -/
structure Decimal where
  coefficient : Nat
  exponent : Int
  deriving DecidableEq, Repr

/-- The real numbers that round to a floating-point number, over a common denominator: `low`,
`value` and `high`, and whether the ends belong to them. -/
structure Interval where
  low : Nat
  value : Nat
  high : Nat
  den : Nat
  closed : Bool

/-- The numbers that round to `m * 2 ^ q`. Below a power of two the neighbour is half as far. -/
def Interval.of (m : Nat) (q : Int) : Interval :=
  let below := if m = Nat.pow 2 52 ∧ Binary64.leastExponent < q then 1 else 2
  let (scale, den) := if 2 ≤ q then (Nat.pow 2 (q - 2).toNat, 1) else (1, Nat.pow 2 (2 - q).toNat)
  { low := (4 * m - below) * scale, value := 4 * m * scale, high := (4 * m + 2) * scale, den,
    closed := m % 2 == 0 }

/-- Whether `n * 10 ^ k` rounds to the number of the interval. -/
def Interval.contains (i : Interval) (n : Nat) (k : Int) : Bool :=
  let (num, den) := if 0 ≤ k then (n * Nat.pow 10 k.toNat, 1) else (n, Nat.pow 10 (-k).toNat)
  let x := num * i.den
  let low := i.low * den
  let high := i.high * den
  if i.closed then low ≤ x && x ≤ high else low < x && x < high

/-- The multiple of `10 ^ k` nearest to the number, of the two around it that round to it. -/
def Interval.nearest? (i : Interval) (k : Int) : Option Decimal :=
  let (num, den) :=
    if 0 ≤ k then (i.value, i.den * Nat.pow 10 k.toNat)
    else (i.value * Nat.pow 10 (-k).toNat, i.den)
  let floor := num / den
  let best := roundDiv num den
  let other := if best = floor then floor + 1 else floor
  if i.contains best k then some ⟨best, k⟩
  else if i.contains other k then some ⟨other, k⟩
  else none

/-- The decimal number with the fewest digits that rounds to `m * 2 ^ q`, for a positive `m`.
Seventeen digits always suffice. -/
def shortest (m : Nat) (q : Int) : Decimal :=
  let i := Interval.of m q
  let top := decimalExponent i.value i.den
  ((List.range 17).findSome? fun (n : Nat) => i.nearest? (top - n)).getD ⟨m, q⟩

/-- Digits with a sign and at least two places for a decimal exponent. -/
def exponentText (e : Int) : String :=
  let ds := digits e.natAbs
  (if e < 0 then "-" else "+") ++ String.ofList (if ds.length < 2 then '0' :: ds else ds)

/-- The text of a positive decimal number without trailing zeros. -/
def Decimal.text (d : Decimal) : String :=
  let ds := ((digits d.coefficient).reverse.dropWhile (· == '0')).reverse
  let point : Int := (digits d.coefficient).length + d.exponent
  if point ≤ -4 ∨ 16 < point then
    match ds with
    | [] => "0"
    | [c] => String.ofList [c] ++ "e" ++ exponentText (point - 1)
    | c :: cs => String.ofList (c :: '.' :: cs) ++ "e" ++ exponentText (point - 1)
  else if point ≤ 0 then "0." ++ String.ofList (List.replicate (-point).toNat '0' ++ ds)
  else if ds.length ≤ point.toNat then
    String.ofList (ds ++ List.replicate (point.toNat - ds.length) '0') ++ ".0"
  else String.ofList (ds.take point.toNat ++ '.' :: ds.drop point.toNat)

/-- The shortest text of a floating-point number. -/
def Binary64.text (x : Binary64) : String :=
  match x.form with
  | .notANumber => "nan"
  | .infinite negative => if negative then "-inf" else "inf"
  | .finite negative m q =>
    (if negative then "-" else "") ++ if m = 0 then "0.0" else (shortest m q).text

end Bundler.Number
