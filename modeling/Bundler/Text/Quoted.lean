import Bundler.Text.Hex
import Bundler.Text.Printable

/-!
# Quoted texts

A text in quotes, as messages show it: single quotes unless the text holds a single quote and no
double one. The quote, the backslash and what cannot be printed are escaped.
-/

namespace Bundler.Text.Quoted

/-- The single quote. -/
def single : Char := '\x27'

/-- The double quote. -/
def double : Char := '\x22'

/-- The quote put around a text of the given characters. -/
def quoteFor (cs : List Char) : Char :=
  if cs.contains single && !cs.contains double then double else single

/-- How a character is shown between `quote`s. -/
def showChar (quote c : Char) : List Char :=
  if c = quote ∨ c = '\\' then ['\\', c]
  else if c = '\n' then ['\\', 'n']
  else if c = '\r' then ['\\', 'r']
  else if c = '\t' then ['\\', 't']
  else if isPrintable c then [c]
  else if c.toNat < 0x100 then '\\' :: 'x' :: hexDigits 2 c.toNat
  else if c.toNat < 0x10000 then '\\' :: 'u' :: hexDigits 4 c.toNat
  else '\\' :: 'U' :: hexDigits 8 c.toNat

/-- A text in quotes. -/
def ofText (s : String) : String :=
  let quote := quoteFor s.toList
  String.ofList (quote :: s.toList.flatMap (showChar quote) ++ [quote])

/-- Bytes in quotes behind the letter `b`; a byte that is no printable ASCII character is shown by
its number. -/
def ofBytes (bytes : List UInt8) : String :=
  let cs := bytes.map fun b => Char.ofNat b.toNat
  let quote := quoteFor cs
  let shown := cs.flatMap fun c =>
    if c.toNat < 0x80 then showChar quote c else '\\' :: 'x' :: hexDigits 2 c.toNat
  String.ofList ('b' :: quote :: shown ++ [quote])

end Bundler.Text.Quoted
