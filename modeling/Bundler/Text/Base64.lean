/-!
# Base 64

Bytes written in base 64. Characters outside the alphabet are skipped, and what follows the padding
is not read.
-/

namespace Bundler.Text.Base64

/-- The value of a character of the alphabet. -/
def value? (c : Char) : Option Nat :=
  if 'A' ≤ c ∧ c ≤ 'Z' then some (c.toNat - 'A'.toNat)
  else if 'a' ≤ c ∧ c ≤ 'z' then some (c.toNat - 'a'.toNat + 26)
  else if '0' ≤ c ∧ c ≤ '9' then some (c.toNat - '0'.toNat + 52)
  else if c = '+' then some 62
  else if c = '/' then some 63
  else none

/-- The bytes of a text, read from a place in a group of four: `position` characters of the group
have been read, `left` holds their bits that are not yet in a byte, and `pads` counts the signs of
padding just before. -/
def decodeFrom (position left pads : Nat) : List Char → Option (List UInt8)
  | [] => if position = 0 then some [] else none
  | c :: cs =>
    if c = '=' then
      if 2 ≤ position ∧ 4 ≤ position + pads + 1 then some []
      else decodeFrom position left (if 2 ≤ position then pads + 1 else pads) cs
    else match value? c with
      | none => decodeFrom position left pads cs
      | some n =>
        match position with
        | 0 => decodeFrom 1 n 0 cs
        | 1 => (decodeFrom 2 (n % 16) 0 cs).map ((left * 4 + n / 16).toUInt8 :: ·)
        | 2 => (decodeFrom 3 (n % 4) 0 cs).map ((left * 16 + n / 4).toUInt8 :: ·)
        | _ => (decodeFrom 0 0 0 cs).map ((left * 64 + n).toUInt8 :: ·)

/-- The bytes of a text, if its last group is complete. -/
def decode (cs : List Char) : Option (List UInt8) := decodeFrom 0 0 0 cs

end Bundler.Text.Base64
