import Bundler.Text.CharRange

/-!
# Positions in a YAML text

A cursor is the rest of a text together with its position. Line ends are unified before, so that a
break is a line feed, a next line or one of the two Unicode separators.
-/

namespace Bundler.Yaml

/-- A position, counted from zero. -/
structure Mark where
  index : Nat := 0
  line : Nat := 0
  column : Nat := 0
  deriving DecidableEq, Repr, Inhabited

/-- Whether a character ends a line. -/
def isBreak (c : Char) : Bool := c == '\n' || c == '\x85' || c == '\u2028' || c == '\u2029'

/-- The byte order mark, which has no width. -/
def byteOrderMark : Char := '\uFEFF'

/-- The position behind a character. -/
def Mark.after (m : Mark) (c : Char) : Mark :=
  if isBreak c then ⟨m.index + 1, m.line + 1, 0⟩
  else ⟨m.index + 1, m.line, if c = byteOrderMark then m.column else m.column + 1⟩

/-- The rest of a text and its position. -/
structure Cursor where
  rest : List Char
  mark : Mark := {}
  deriving Inhabited

namespace Cursor

/-- The next character, if there is one. -/
def peek (c : Cursor) : Option Char := c.rest.head?

/-- The character `n` places ahead, if there is one. -/
def peekAt (c : Cursor) (n : Nat) : Option Char := c.rest[n]?

/-- Whether the next character is of a class. -/
def sees (c : Cursor) (p : Char → Bool) : Bool := c.peek.any p

/-- Whether the text goes on with the given characters. -/
def startsWith (c : Cursor) (cs : List Char) : Bool := cs.isPrefixOf c.rest

/-- The cursor one character ahead. -/
def next (c : Cursor) : Cursor :=
  match c.rest with
  | [] => c
  | ch :: rest => ⟨rest, c.mark.after ch⟩

/-- The cursor `n` characters ahead. -/
def skip (c : Cursor) (n : Nat) : Cursor :=
  ⟨c.rest.drop n, (c.rest.take n).foldl Mark.after c.mark⟩

/-- The characters of a class at the cursor, and the cursor behind them. -/
def span (c : Cursor) (p : Char → Bool) : List Char × Cursor :=
  let cs := c.rest.takeWhile p
  (cs, ⟨c.rest.dropWhile p, cs.foldl Mark.after c.mark⟩)

/-- The cursor behind the characters of a class. -/
def skipWhile (c : Cursor) (p : Char → Bool) : Cursor := (c.span p).2

/-- The cursor behind the spaces. -/
def skipSpaces (c : Cursor) : Cursor := c.skipWhile (· == ' ')

/-- The cursor behind the rest of the line. -/
def skipLine (c : Cursor) : Cursor := c.skipWhile fun ch => !isBreak ch

/-- The cursor behind a comment, if there is one. -/
def skipComment (c : Cursor) : Cursor := if c.sees (· == '#') then c.skipLine else c

/-- Whether the text ends here. -/
def atEnd (c : Cursor) : Bool := c.rest.isEmpty

/-- Whether the line or the text ends here. -/
def atLineEnd (c : Cursor) : Bool := c.atEnd || c.sees isBreak

/-- Whether there is a blank at a place, or a break or the end of the text. -/
def gapAt (c : Cursor) (n : Nat) : Bool :=
  (c.peekAt n).all fun ch => ch == ' ' || ch == '\t' || isBreak ch

/-- Whether there is a space at a place, or a break or the end of the text. -/
def spaceAt (c : Cursor) (n : Nat) : Bool := (c.peekAt n).all fun ch => ch == ' ' || isBreak ch

/-- The break at the cursor as it counts in a scalar, and the cursor behind it. The Unicode
separators are kept, other breaks count as a line feed. -/
def lineBreak (c : Cursor) : List Char × Cursor :=
  match c.peek with
  | some ch =>
    if ch = '\u2028' ∨ ch = '\u2029' then ([ch], c.next)
    else if isBreak ch then (['\n'], c.next)
    else ([], c)
  | none => ([], c)

/-- Whether a line that separates documents begins here. -/
def atSeparator (c : Cursor) : Bool :=
  (c.startsWith ['-', '-', '-'] || c.startsWith ['.', '.', '.']) && c.gapAt 3

end Cursor

end Bundler.Yaml
