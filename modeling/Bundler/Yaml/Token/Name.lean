import Bundler.Text.Hex
import Bundler.Text.Utf8
import Bundler.Yaml.Token

/-!
# Anchors, tags and directives

The words that begin with `&`, `*`, `!` and, at the start of a line, `%`.
-/

namespace Bundler.Yaml

/-- The characters of names. -/
def isNameChar (c : Char) : Bool := c.isAlphanum || c == '-' || c == '_'

/-- The characters of the identifiers that tags give. -/
def isIdentifierChar (c : Char) : Bool :=
  c.isAlphanum || "-;/?:@&=+$,_.!~*'()[]%".toList.contains c

namespace Cursor

/-- The anchor or alias at the cursor. -/
def anchorName (c : Cursor) : Except Fault (String × Cursor) :=
  let (name, c) := c.next.span isNameChar
  if name.isEmpty then .error (c.fault .malformedAnchor)
  else if c.gapAt 0 || c.sees fun ch => "?:,]\x7d%@\x60".toList.contains ch then
    .ok (String.ofList name, c)
  else .error (c.fault .malformedAnchor)

/-- The escaped bytes at the cursor; `fuel` bounds their number. -/
def escapedBytes (fuel : Nat) (c : Cursor) : Except Fault (List UInt8 × Cursor) :=
  match fuel with
  | 0 => .ok ([], c)
  | fuel + 1 =>
    match c.rest with
    | '%' :: a :: b :: _ =>
      match Text.valueIn? 16 [a, b] with
      | some n => do
        let (bytes, c) ← escapedBytes fuel (c.skip 3)
        .ok (n.toUInt8 :: bytes, c)
      | none => .error (c.next.fault .malformedTag)
    | '%' :: _ => .error (c.next.fault .malformedTag)
    | _ => .ok ([], c)

/-- The identifier at the cursor; `fuel` bounds the number of its parts. -/
def identifierParts (fuel : Nat) (c : Cursor) : Except Fault (List Char × Cursor) :=
  match fuel with
  | 0 => .ok ([], c)
  | fuel + 1 =>
    let (plain, c) := c.span fun ch => isIdentifierChar ch && ch != '%'
    if c.sees (· == '%') then do
      let (bytes, after) ← escapedBytes c.rest.length c
      match Text.Utf8.decode ⟨bytes.toArray⟩ with
      | .error _ => .error (c.fault .malformedTag)
      | .ok escaped =>
        let (more, after) ← identifierParts fuel after
        .ok (plain ++ escaped ++ more, after)
    else .ok (plain, c)

/-- The identifier at the cursor, which is not empty. -/
def identifier (c : Cursor) : Except Fault (String × Cursor) := do
  let (cs, after) ← identifierParts (c.rest.length + 1) c
  if after.mark.index = c.mark.index then .error (c.fault .malformedTag)
  else .ok (String.ofList cs, after)

/-- The tag handle at the cursor: one exclamation mark, or two with a name between them. -/
def handle (c : Cursor) : Except Fault (String × Cursor) :=
  if !c.sees (· == '!') then .error (c.fault .malformedTag)
  else if c.peekAt 1 = some ' ' then .ok ("!", c.next)
  else
    let (name, after) := c.next.span isNameChar
    if after.sees (· == '!') then .ok (String.ofList ('!' :: name ++ ['!']), after.next)
    else .error (after.fault .malformedTag)

/-- Whether a second exclamation mark follows before the next space. -/
def hasHandle (c : Cursor) : Bool :=
  let ahead := c.rest.drop 1
  (ahead.dropWhile fun ch => ch != '!' && ch != ' ' && !isBreak ch).head? == some '!'

/-- The tag at the cursor. -/
def tag (c : Cursor) : Except Fault (Word × Cursor) := do
  let (word, c) ←
    if c.peekAt 1 = some '<' then do
      let (suffix, c) ← (c.skip 2).identifier
      if c.sees (· == '>') then .ok (Word.tag none suffix, c.next)
      else .error (c.fault .malformedTag)
    else if c.gapAt 1 then .ok (Word.tag none "!", c.next)
    else if c.hasHandle then do
      let (handle, c) ← c.handle
      let (suffix, c) ← c.identifier
      .ok (Word.tag (some handle) suffix, c)
    else do
      let (suffix, c) ← c.next.identifier
      .ok (Word.tag (some "!") suffix, c)
  if c.spaceAt 0 then .ok (word, c) else .error (c.fault .malformedTag)

/-- The number at the cursor, which is limited in its digits. -/
def number (c : Cursor) : Except Refusal (Nat × Cursor) :=
  let (digits, after) := c.span Char.isDigit
  if digits.isEmpty then .error (c.refuse .malformedDirective)
  else if digitLimit < digits.length then .error (.unreadable (.tooManyDigits digits.length))
  else .ok (digits.foldl (fun n d => n * 10 + (d.toNat - '0'.toNat)) 0, after)

/-- A word followed by a space, a break or the end of the text. -/
def closed (c : Cursor) (word : Word) : Except Refusal (Word × Cursor) :=
  if c.spaceAt 0 then .ok (word, c) else .error (c.refuse .malformedDirective)

/-- The directive at the cursor, without the rest of its line. -/
def directiveWord (c : Cursor) : Except Refusal (Word × Cursor) := do
  let (name, after) := c.next.span isNameChar
  if name.isEmpty || !after.spaceAt 0 then .error (after.refuse .malformedDirective)
  else match String.ofList name with
    | "YAML" => do
      let (major, c) ← after.skipSpaces.number
      if !c.sees (· == '.') then .error (c.refuse .malformedDirective)
      else do
        let (minor, c) ← c.next.number
        c.closed (.version major minor)
    | "TAG" => do
      let (handle, c) ← after.skipSpaces.handle.mapError .malformed
      if !c.sees (· == ' ') then .error (c.refuse .malformedDirective)
      else do
        let (start, c) ← c.skipSpaces.identifier.mapError .malformed
        c.closed (.tagHandle handle start)
    | _ => .ok (.otherDirective, after.skipLine)

/-- The cursor behind the rest of a line, which may hold a comment. -/
def restOfLine (c : Cursor) (problem : Problem) : Except Fault Cursor :=
  let c := c.skipSpaces.skipComment
  if c.atLineEnd then .ok c.lineBreak.2 else .error (c.fault problem)

end Cursor

end Bundler.Yaml
