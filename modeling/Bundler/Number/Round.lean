/-!
# Rounding of quotients

The integer nearest to a quotient of natural numbers, a half going to the even neighbour.
-/

namespace Bundler.Number

/-- The integer nearest to `n / d`; a half goes to the even neighbour. -/
def roundDiv (n d : Nat) : Nat :=
  let floor := n / d
  let twice := 2 * (n % d)
  if twice < d then floor
  else if d < twice then floor + 1
  else floor + floor % 2

end Bundler.Number
