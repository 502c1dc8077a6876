import Bundler.Number.Binary64

/-!
# Sums and products of floating-point numbers

Both are the exact result, rounded once.
-/

namespace Bundler.Number.Binary64

/-- The number opposite in sign. -/
def negate (x : Binary64) : Binary64 :=
  match x.form with
  | .finite negative _ _ | .infinite negative =>
    ofMagnitude (!negative) (x.bits.toNat % Nat.pow 2 63)
  | .notANumber => x

/-- A signed quotient. -/
def ofSigned (n : Int) (den : Nat) : Binary64 := ofRatio (n < 0) n.natAbs den

/-- A finite number as a signed numerator and a denominator. -/
def signed? (x : Binary64) : Option (Int × Nat) :=
  x.ratio?.map fun (negative, num, den) => (if negative then -(num : Int) else num, den)

/-- The sum of two numbers. Infinity with the opposite infinity gives no number. -/
def add (x y : Binary64) : Binary64 :=
  match x.signed?, y.signed? with
  | some (a, b), some (c, d) => ofSigned (a * d + c * b) (b * d)
  | some _, none => y
  | none, some _ => x
  | none, none => if x = y then x else notANumber

/-- The product of a number and a positive finite one. -/
def scale (x y : Binary64) : Binary64 :=
  match x.signed?, y.signed? with
  | some (a, b), some (c, d) => ofSigned (a * c) (b * d)
  | _, _ => x

end Bundler.Number.Binary64
