import Bundler.Number.Round

/-!
# Floating-point numbers of 64 bits

A number is its bit pattern: the sign, eleven bits of exponent and fifty-two of fraction. It is
read as a sign and an exact product `significand * 2 ^ exponent`, and made from an exact quotient
by one correct rounding.
-/

namespace Bundler.Number

/-- A floating-point number, by its bits. -/
structure Binary64 where
  bits : UInt64
  deriving DecidableEq, Repr, Inhabited

namespace Binary64

/-- What a bit pattern stands for. -/
inductive Form where
  /-- The number `± significand * 2 ^ exponent`. -/
  | finite (negative : Bool) (significand : Nat) (exponent : Int)
  | infinite (negative : Bool)
  | notANumber
  deriving DecidableEq, Repr

/-- The exponent of the least positive number. -/
def leastExponent : Int := -1074

/-- The sign, significand and exponent of a bit pattern. -/
def form (x : Binary64) : Form :=
  let n := x.bits.toNat
  let negative := decide (Nat.pow 2 63 ≤ n)
  let field : Nat := n / Nat.pow 2 52 % Nat.pow 2 11
  let fraction := n % Nat.pow 2 52
  if field = 2047 then
    if fraction = 0 then .infinite negative else .notANumber
  else if field = 0 then .finite negative fraction leastExponent
  else .finite negative (Nat.pow 2 52 + fraction) ((field : Int) - 1075)

/-- The number with the given sign and the 63 other bits. -/
def ofMagnitude (negative : Bool) (magnitude : Nat) : Binary64 :=
  ⟨UInt64.ofNat ((if negative then Nat.pow 2 63 else 0) + magnitude)⟩

/-- Infinity of either sign. -/
def infinity (negative : Bool) : Binary64 := ofMagnitude negative (2047 * Nat.pow 2 52)

/-- A bit pattern that is no number. There are many of them, told apart by a label. -/
def notANumber (label : Nat := 0) : Binary64 :=
  ofMagnitude false (2047 * Nat.pow 2 52 + Nat.pow 2 51 + label % Nat.pow 2 51)

/-- Whether a bit pattern is no number. -/
def isNotANumber (x : Binary64) : Bool := x.form == .notANumber

/-- The number `significand * 2 ^ exponent` for a significand of at most fifty-three bits, or
infinity if it is too large. -/
def ofScaled (negative : Bool) (significand : Nat) (exponent : Int) : Binary64 :=
  let (m, q) := if significand = Nat.pow 2 53 then (Nat.pow 2 52, exponent + 1)
    else (significand, exponent)
  if m < Nat.pow 2 52 then ofMagnitude negative m
  else
    let field := (q + 1075).toNat
    if 2047 ≤ field then infinity negative
    else ofMagnitude negative (field * Nat.pow 2 52 + (m - Nat.pow 2 52))

/-- The number nearest to `num / den`; a tie goes to the even significand. -/
def ofRatio (negative : Bool) (num den : Nat) : Binary64 :=
  if num = 0 then ofMagnitude negative 0
  else
    let guess : Int := num.log2 - den.log2 - 52
    let scaled (q : Int) : Nat × Nat :=
      if 0 ≤ q then (num, den * Nat.pow 2 q.toNat) else (num * Nat.pow 2 (-q).toNat, den)
    let reached := (scaled guess).2 * Nat.pow 2 52 ≤ (scaled guess).1
    let exponent := max (if reached then guess else guess - 1) leastExponent
    let (n, d) := scaled exponent
    ofScaled negative (roundDiv n d) exponent

/-- Beyond this power of ten either way there are only infinity and zero. -/
def decimalReach : Nat := 400

/-- The number nearest to `digits * 10 ^ exponent`. -/
def ofDecimal (negative : Bool) (digits : Nat) (exponent : Int) : Binary64 :=
  if digits = 0 ∨ exponent + digits.log2 + 1 < -decimalReach then ofMagnitude negative 0
  else if decimalReach < exponent then infinity negative
  else if 0 ≤ exponent then ofRatio negative (digits * Nat.pow 10 exponent.toNat) 1
  else ofRatio negative digits (Nat.pow 10 (-exponent).toNat)

/-- The number nearest to an integer. -/
def ofInt (n : Int) : Binary64 := ofRatio (n < 0) n.natAbs 1

/-- The exact quotient of a finite number: its sign, numerator and denominator. -/
def ratio? (x : Binary64) : Option (Bool × Nat × Nat) :=
  match x.form with
  | .finite negative m q =>
    if 0 ≤ q then some (negative, m * Nat.pow 2 q.toNat, 1)
    else some (negative, m, Nat.pow 2 (-q).toNat)
  | _ => none

/-- Whether the number is zero of either sign. -/
def isZero (x : Binary64) : Bool := x.bits.toNat % Nat.pow 2 63 == 0

/-- Whether the number equals the integer `n`. -/
def equalsInt (x : Binary64) (n : Int) : Bool :=
  match x.ratio? with
  | some (negative, num, den) =>
    n.natAbs * den == num && (num == 0 || negative == decide (n < 0))
  | none => false

/-- The integer part of a finite number, toward zero. -/
def truncate? (x : Binary64) : Option Int :=
  x.ratio?.map fun (negative, num, den) =>
    if negative then -((num / den : Nat) : Int) else ((num / den : Nat) : Int)

end Binary64

end Bundler.Number
