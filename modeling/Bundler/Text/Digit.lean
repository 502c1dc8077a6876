import Bundler.Text.Blank

/-!
# Decimal digits

The decimal digits of Unicode 14. In every script they are ten characters in a row, so that the
zeros tell them all. A number may be written with the digits of any script.
-/

namespace Bundler.Text

/-- The zeros of the scripts. -/
def zeros : Array Nat :=
  #[0x30, 0x660, 0x6F0, 0x7C0, 0x966, 0x9E6, 0xA66, 0xAE6, 0xB66, 0xBE6, 0xC66, 0xCE6, 0xD66,
    0xDE6, 0xE50, 0xED0, 0xF20, 0x1040, 0x1090, 0x17E0, 0x1810, 0x1946, 0x19D0, 0x1A80, 0x1A90,
    0x1B50, 0x1BB0, 0x1C40, 0x1C50, 0xA620, 0xA8D0, 0xA900, 0xA9D0, 0xA9F0, 0xAA50, 0xABF0, 0xFF10,
    0x104A0, 0x10D30, 0x11066, 0x110F0, 0x11136, 0x111D0, 0x112F0, 0x11450, 0x114D0, 0x11650,
    0x116C0, 0x11730, 0x118E0, 0x11950, 0x11C50, 0x11D50, 0x11DA0, 0x16A60, 0x16AC0, 0x16B50,
    0x1D7CE, 0x1D7D8, 0x1D7E2, 0x1D7EC, 0x1D7F6, 0x1E140, 0x1E2F0, 0x1E950, 0x1FBF0]

/-- The value of a decimal digit. -/
def digitValue? (c : Char) : Option Nat :=
  (zeros.find? fun first => first ≤ c.toNat && c.toNat < first + 10).map (c.toNat - ·)

/-- Whether a character is a decimal digit of any script. -/
def isDigit (c : Char) : Bool := (digitValue? c).isSome

/-- The ASCII digit of a value. -/
def digitOf (n : Nat) : Char := Char.ofNat ('0'.toNat + n)

/-- A character as it counts in a number: a digit of any script as an ASCII digit, a blank beyond
ASCII as a space. -/
def numeralChar (c : Char) : Char :=
  if c.toNat < 0x80 then c
  else match digitValue? c with
    | some n => digitOf n
    | none => if isBlank c then ' ' else c

/-- Whether a character may stand around a number. -/
def isMargin (c : Char) : Bool := c == ' ' || ('\t' ≤ c && c ≤ '\r')

/-- The characters of a number without what may stand around it. -/
def numeral (cs : List Char) : List Char :=
  let cs := (cs.map numeralChar).dropWhile isMargin
  (cs.reverse.dropWhile isMargin).reverse

end Bundler.Text
