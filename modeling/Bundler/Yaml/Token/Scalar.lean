import Bundler.Text.Hex
import Bundler.Yaml.Token

/-!
# Scalars

Plain, quoted and block scalars. A break inside a plain or quoted scalar counts as a space if no
further break follows; further breaks are kept. A block scalar keeps its breaks or folds them in
the same way, and its header says what becomes of the breaks at its end.
-/

namespace Bundler.Yaml

namespace Cursor

/-- What a break and the breaks behind it contribute to a scalar. -/
def folded (first : List Char) (breaks : List Char) : List Char :=
  if first ≠ ['\n'] then first ++ breaks
  else if breaks = [] then [' ']
  else breaks

/-! ### Plain scalars -/

/-- Whether a plain scalar ends before the rest of a text; in a flow collection more characters end
it. -/
def endsPlain (inFlow : Bool) : List Char → Bool
  | [] => true
  | c :: rest =>
    c == ' ' || c == '\t' || isBreak c
      || (c == ':' && rest.head?.all fun d => d == ' ' || d == '\t' || isBreak d
          || (inFlow && ",[]\x7b\x7d".toList.contains d))
      || (inFlow && ",?[]\x7b\x7d".toList.contains c)

/-- The number of characters up to the end of a word of a plain scalar. -/
def plainLength (inFlow : Bool) : List Char → Nat
  | [] => 0
  | c :: rest => if endsPlain inFlow (c :: rest) then 0 else plainLength inFlow rest + 1

/-- The breaks and spaces at the cursor; `none` if a line that separates documents follows. `fuel`
bounds their number. -/
def plainBreaks (fuel : Nat) (c : Cursor) : Option (List Char) × Cursor :=
  match fuel with
  | 0 => (some [], c)
  | fuel + 1 =>
    if c.sees (· == ' ') then plainBreaks fuel c.next
    else if c.sees isBreak then
      let (b, c) := c.lineBreak
      if c.atSeparator then (none, c)
      else
        let (more, c) := plainBreaks fuel c
        (more.map (b ++ ·), c)
    else (some [], c)

/-- What stands between two words of a plain scalar. -/
structure Gap where
  /-- What it contributes to the scalar; `none` ends the scalar. -/
  text : Option (List Char)
  /-- Whether there was a break. -/
  broken : Bool
  cursor : Cursor

/-- The gap behind a word of a plain scalar. -/
def plainGap (c : Cursor) : Gap :=
  let (spaces, c) := c.span (· == ' ')
  if c.sees isBreak then
    let (first, c) := c.lineBreak
    if c.atSeparator then ⟨none, true, c⟩
    else
      let (breaks, c) := plainBreaks (c.rest.length + 1) c
      ⟨breaks.map (folded first), true, c⟩
  else ⟨if spaces.isEmpty then none else some spaces, false, c⟩

/-- A plain scalar, whether a simple key may follow it and the cursor behind it. -/
structure Plain where
  text : List Char
  keyAllowed : Bool
  stop : Mark
  cursor : Cursor

/-- The words of a plain scalar at the cursor, after the characters `gap`. -/
def plainWords (inFlow : Bool) (indent : Int) (fuel : Nat) (gap : List Char) (sofar : Plain) :
    Plain :=
  match fuel with
  | 0 => sofar
  | fuel + 1 =>
    let c := sofar.cursor
    if c.sees (· == '#') then sofar
    else
      let n := plainLength inFlow c.rest
      if n = 0 then sofar
      else
        let behind := c.skip n
        let g := plainGap behind
        let sofar : Plain :=
          ⟨sofar.text ++ gap ++ c.rest.take n, g.broken, behind.mark, g.cursor⟩
        match g.text with
        | none => sofar
        | some gap =>
          if g.cursor.sees (· == '#') || (!inFlow && decide ((g.cursor.mark.column : Int) < indent))
          then sofar
          else plainWords inFlow indent fuel gap sofar

/-- The plain scalar at the cursor, in a block indented by less than `indent`. -/
def plain (inFlow : Bool) (indent : Int) (c : Cursor) : Plain :=
  plainWords inFlow indent (c.rest.length + 1) [] ⟨[], false, c.mark, c⟩

/-! ### Quoted scalars -/

/-- The characters that an escape of one letter stands for. -/
def escapes : List (Char × Char) :=
  [('0', '\x00'), ('a', '\x07'), ('b', '\x08'), ('t', '\t'), ('\t', '\t'), ('n', '\n'),
    ('v', '\x0b'), ('f', '\x0c'), ('r', '\r'), ('e', '\x1b'), (' ', ' '), ('\x22', '\x22'),
    ('\\', '\\'), ('/', '/'), ('N', '\x85'), ('_', '\xa0'), ('L', '\u2028'), ('P', '\u2029')]

/-- The number of hexadecimal digits of an escape that gives a code point. -/
def escapeWidth? : Char → Option Nat
  | 'x' => some 2
  | 'u' => some 4
  | 'U' => some 8
  | _ => none

/-- The refusal of an escape that gives a number above the greatest code point. -/
def noCodePoint (n : Nat) : Refusal :=
  .unreadable (if n < Nat.pow 2 31 then .invalid "chr() arg not in range(0x110000)"
    else .foreign "OverflowError" "signed integer is greater than maximum")

/-- The code point that the two halves of a surrogate pair give. -/
def pairedCodePoint (high low : Nat) : Nat := 0x10000 + (high - 0xD800) * 0x400 + (low - 0xDC00)

/-- The second half of a surrogate pair, if an escape for one is at the cursor. -/
def lowSurrogate? (c : Cursor) : Option Nat :=
  match c.rest with
  | '\\' :: 'u' :: ds =>
    match Text.valueIn? 16 (ds.take 4) with
    | some n => if 0xDC00 ≤ n ∧ n < 0xE000 ∧ 4 ≤ ds.length then some n else none
    | none => none
  | _ => none

/-- The character of a number given by an escape, and the cursor behind the escapes that give it: half
of a surrogate pair needs the other half and is replaced if it stands alone. -/
def codePoint (n : Nat) (c : Cursor) : Char × Cursor :=
  if n < 0xD800 ∨ 0xE000 ≤ n then (Char.ofNat n, c)
  else match if n < 0xDC00 then lowSurrogate? c else none with
    | some low => (Char.ofNat (pairedCodePoint n low), c.skip 6)
    | none => ('\uFFFD', c)

/-- The breaks at the cursor and the blanks between them; `fuel` bounds their number. -/
def quotedBreaks (fuel : Nat) (c : Cursor) : Except Fault (List Char × Cursor) :=
  match fuel with
  | 0 => .ok ([], c)
  | fuel + 1 =>
    if c.atSeparator then .error (c.fault .separatorInQuote)
    else
      let c := c.skipWhile fun ch => ch == ' ' || ch == '\t'
      if c.sees isBreak then do
        let (b, c) := c.lineBreak
        let (more, c) ← quotedBreaks fuel c
        .ok (b ++ more, c)
      else .ok ([], c)

/-- The character that the escape behind a backslash stands for. -/
def escape (c : Cursor) : Except Refusal (List Char × Cursor) :=
  match c.peek with
  | none => .error (c.refuse .malformedEscape)
  | some ch =>
    match escapes.lookup ch with
    | some e => .ok ([e], c.next)
    | none =>
      match escapeWidth? ch with
      | some width =>
        let c := c.next
        let digits := c.rest.take width
        match (if digits.length = width then Text.valueIn? 16 digits else none) with
        | none => .error (c.refuse .malformedEscape)
        | some n =>
          if 0x110000 ≤ n then .error (noCodePoint n)
          else
            let (ch, c) := codePoint n (c.skip width)
            .ok ([ch], c)
      | none =>
        if isBreak ch then
          (quotedBreaks (c.rest.length + 1) c.lineBreak.2).mapError .malformed
        else .error (c.refuse .malformedEscape)

/-- The characters at the cursor up to the closing quote, a blank or a break; `fuel` bounds their
number. -/
def quotedWord (double : Bool) (fuel : Nat) (c : Cursor) :
    Except Refusal (List Char × Cursor) :=
  match fuel with
  | 0 => .ok ([], c)
  | fuel + 1 =>
    match c.rest with
    | [] => .ok ([], c)
    | ch :: rest =>
      if ch = ' ' ∨ ch = '\t' ∨ isBreak ch then .ok ([], c)
      else if ch = '\x27' ∧ !double then
        if rest.head? = some '\x27' then do
          let (more, c) ← quotedWord double fuel (c.skip 2)
          .ok ('\x27' :: more, c)
        else .ok ([], c)
      else if ch = '\x22' ∧ double then .ok ([], c)
      else if ch = '\\' ∧ double then do
        let (e, c) ← escape c.next
        let (more, c) ← quotedWord double fuel c
        .ok (e ++ more, c)
      else do
        let (more, c) ← quotedWord double fuel c.next
        .ok (ch :: more, c)

/-- What the blanks and breaks at the cursor contribute to a quoted scalar. -/
def quotedGap (c : Cursor) : Except Fault (List Char × Cursor) :=
  let (blanks, c) := c.span fun ch => ch == ' ' || ch == '\t'
  if c.atEnd then .error (c.fault .unclosedQuote)
  else if c.sees isBreak then do
    let (first, c) := c.lineBreak
    let (breaks, c) ← quotedBreaks (c.rest.length + 1) c
    .ok (folded first breaks, c)
  else .ok (blanks, c)

/-- The words of a quoted scalar and the gaps between them; `fuel` bounds their number. -/
def quotedParts (double : Bool) (fuel : Nat) (c : Cursor) :
    Except Refusal (List Char × Cursor) :=
  match fuel with
  | 0 => .ok ([], c)
  | fuel + 1 => do
    let (word, c) ← quotedWord double (c.rest.length + 1) c
    if c.sees (· == if double then '\x22' else '\x27') then .ok (word, c)
    else do
      let (gap, c) ← (quotedGap c).mapError .malformed
      let (more, c) ← quotedParts double fuel c
      .ok (word ++ gap ++ more, c)

/-- The quoted scalar at the cursor. -/
def quoted (double : Bool) (c : Cursor) : Except Refusal (List Char × Cursor) := do
  let (cs, c) ← quotedParts double (c.rest.length + 1) c.next
  .ok (cs, c.next)

/-! ### Block scalars -/

/-- What becomes of the breaks at the end of a block scalar: all go, one stays, all stay. -/
inductive Chomping where
  | strip
  | clip
  | keep
  deriving DecidableEq, Repr

/-- The header of a block scalar. -/
structure Header where
  chomping : Chomping := .clip
  indent : Option Nat := none

/-- The chomping sign at the cursor. -/
def chompingSign (c : Cursor) : Option Chomping :=
  match c.peek with
  | some '+' => some .keep
  | some '-' => some .strip
  | _ => none

/-- The indentation digit at the cursor, which is not zero. -/
def indentDigit (c : Cursor) : Except Fault (Option Nat × Cursor) :=
  match c.peek with
  | some ch =>
    if ch = '0' then .error (c.fault .malformedBlockHeader)
    else if ch.isDigit then .ok (some (ch.toNat - '0'.toNat), c.next)
    else .ok (none, c)
  | none => .ok (none, c)

/-- The header of a block scalar at the cursor, up to the next line. -/
def blockHeader (c : Cursor) : Except Fault (Header × Cursor) := do
  let (header, c) ← match c.chompingSign with
    | some chomping => do
      let (indent, c) ← c.next.indentDigit
      .ok (({ chomping, indent } : Header), c)
    | none => do
      let (indent, c) ← c.indentDigit
      match indent, c.chompingSign with
      | some _, some chomping => .ok (({ chomping, indent } : Header), c.next)
      | _, _ => .ok (({ indent } : Header), c)
  if !c.spaceAt 0 then .error (c.fault .malformedBlockHeader)
  else
    let c := c.skipSpaces.skipComment
    if c.atLineEnd then .ok (header, c.lineBreak.2) else .error (c.fault .malformedBlockHeader)

/-- The breaks at the cursor, the greatest indentation seen on the way, and the cursor behind them;
`fuel` bounds the number of characters. -/
def blockIndent (fuel : Nat) (greatest : Nat) (c : Cursor) : List Char × Nat × Cursor :=
  match fuel with
  | 0 => ([], greatest, c)
  | fuel + 1 =>
    if c.sees (· == ' ') then blockIndent fuel (max greatest c.next.mark.column) c.next
    else if c.sees isBreak then
      let (b, c) := c.lineBreak
      let (more, greatest, c) := blockIndent fuel greatest c
      (b ++ more, greatest, c)
    else ([], greatest, c)

/-- The cursor behind at most as many spaces as lead to an indentation. -/
def skipIndent (indent : Nat) (c : Cursor) : Cursor :=
  c.skip (min (indent - c.mark.column) (c.rest.takeWhile (· == ' ')).length)

/-- The breaks at the cursor with the indentation between them; `fuel` bounds their number. -/
def blockBreaks (indent fuel : Nat) (c : Cursor) : List Char × Cursor :=
  match fuel with
  | 0 => ([], c)
  | fuel + 1 =>
    let c := c.skipIndent indent
    if c.sees isBreak then
      let (b, c) := c.lineBreak
      let (more, c) := blockBreaks indent fuel c
      (b ++ more, c)
    else ([], c)

/-- The lines of a block scalar from the cursor on, with the last break and the breaks behind it
apart; `fuel` bounds their number. -/
def blockLines (fold : Bool) (indent fuel : Nat) (c : Cursor) :
    List Char × List Char × List Char × Cursor :=
  match fuel with
  | 0 => ([], [], [], c)
  | fuel + 1 =>
    let indented := c.sees fun ch => ch == ' ' || ch == '\t'
    let (line, c) := c.span fun ch => !isBreak ch
    let (b, c) := c.lineBreak
    let (breaks, c) := blockBreaks indent (c.rest.length + 1) c
    if c.mark.column = indent ∧ !c.atEnd then
      let gap :=
        if fold && b == ['\n'] && !indented && !c.sees fun ch => ch == ' ' || ch == '\t' then
          if breaks = [] then [' '] else []
        else b
      let (more, b', breaks', c) := blockLines fold indent fuel c
      (line ++ gap ++ breaks ++ more, b', breaks', c)
    else (line, b, breaks, c)

/-- The block scalar at the cursor, in a block of the given indentation. -/
def block (fold : Bool) (indent : Int) (c : Cursor) : Except Fault (List Char × Cursor) := do
  let (header, c) ← c.next.blockHeader
  let least := (max (indent + 1) 1).toNat
  let (breaks, indent, c) := match header.indent with
    | none =>
      let (breaks, greatest, c) := blockIndent (c.rest.length + 1) 0 c
      (breaks, max least greatest, c)
    | some n =>
      let indent := least + n - 1
      let (breaks, c) := blockBreaks indent (c.rest.length + 1) c
      (breaks, indent, c)
  let (text, last, breaks, c) :=
    if c.mark.column = indent ∧ !c.atEnd then
      let (text, last, tail, c) := blockLines fold indent (c.rest.length + 1) c
      (breaks ++ text, last, tail, c)
    else ([], [], breaks, c)
  .ok (text ++ (if header.chomping = .strip then [] else last)
    ++ (if header.chomping = .keep then breaks else []), c)

end Cursor

end Bundler.Yaml
