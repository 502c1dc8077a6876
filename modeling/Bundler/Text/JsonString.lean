import Bundler.Text.Hex

/-!
# JSON strings

A text written as a JSON string in printable ASCII: a character beyond U+FFFF becomes the escapes
of its two surrogates. `encode` writes the string with its quotes; `decode` reads one from the
front of a text.
-/

namespace Bundler.Text.JsonString

/-- The quotation mark. -/
def quote : Char := '\x22'

/-- The escape of a code unit of sixteen bits. -/
def unit (n : Nat) : List Char := '\\' :: 'u' :: hexDigits 4 n

/-- How a character is written inside the quotes. -/
def encodeChar (c : Char) : List Char :=
  if c = quote then ['\\', quote]
  else if c = '\\' then ['\\', '\\']
  else if c = '\x08' then ['\\', 'b']
  else if c = '\x0c' then ['\\', 'f']
  else if c = '\n' then ['\\', 'n']
  else if c = '\r' then ['\\', 'r']
  else if c = '\t' then ['\\', 't']
  else if 0x20 ≤ c.toNat ∧ c.toNat < 0x7F then [c]
  else if c.toNat < 0x10000 then unit c.toNat
  else
    let n := c.toNat - 0x10000
    unit (0xD800 + n / 0x400) ++ unit (0xDC00 + n % 0x400)

/-- The characters inside the quotes. -/
def encodeBody (cs : List Char) : List Char := cs.flatMap encodeChar

/-- The JSON string of a text. -/
def encode (s : String) : String := String.ofList (quote :: encodeBody s.toList ++ [quote])

/-- The JSON array of the strings of some texts. -/
def encodeArray (ss : List String) : String :=
  "[" ++ String.intercalate ", " (ss.map encode) ++ "]"

/-- The code unit of four hexadecimal digits at the front of a text. -/
def decodeUnit : List Char → Option (Nat × List Char)
  | a :: b :: c :: d :: cs => (valueIn? 16 [a, b, c, d]).map (·, cs)
  | _ => none

/-- The character of one written inside the quotes, and the text behind it. -/
def decodeChar : List Char → Option (Char × List Char)
  | '\\' :: 'u' :: cs => do
    let (high, cs) ← decodeUnit cs
    if 0xD800 ≤ high ∧ high < 0xDC00 then
      match cs with
      | '\\' :: 'u' :: cs =>
        let (low, cs) ← decodeUnit cs
        if 0xDC00 ≤ low ∧ low < 0xE000 then
          some (Char.ofNat (0x10000 + (high - 0xD800) * 0x400 + (low - 0xDC00)), cs)
        else none
      | _ => none
    else if 0xDC00 ≤ high ∧ high < 0xE000 then none
    else some (Char.ofNat high, cs)
  | '\\' :: c :: cs =>
    if c = quote then some (quote, cs)
    else if c = '\\' then some ('\\', cs)
    else if c = '/' then some ('/', cs)
    else if c = 'b' then some ('\x08', cs)
    else if c = 'f' then some ('\x0c', cs)
    else if c = 'n' then some ('\n', cs)
    else if c = 'r' then some ('\r', cs)
    else if c = 't' then some ('\t', cs)
    else none
  | c :: cs => if c = '\\' ∨ c = quote ∨ c.toNat < 0x20 then none else some (c, cs)
  | [] => none

/-- The characters up to the closing quote, of which there are fewer than `fuel`, and the text
behind it. -/
def decodeBody : Nat → List Char → Option (List Char × List Char)
  | 0, _ => none
  | fuel + 1, cs =>
    if cs.head? = some quote then some ([], cs.tail)
    else do
      let (c, rest) ← decodeChar cs
      let (more, rest) ← decodeBody fuel rest
      some (c :: more, rest)

/-- The text of the JSON string at the front of `cs`, and what stands behind it. -/
def decode (cs : List Char) : Option (List Char × List Char) :=
  match cs with
  | c :: rest => if c = quote then decodeBody (rest.length + 1) rest else none
  | [] => none

end Bundler.Text.JsonString
