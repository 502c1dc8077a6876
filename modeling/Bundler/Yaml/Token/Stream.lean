import Bundler.Yaml.Token.Name
import Bundler.Yaml.Token.Scalar

/-!
# The tokens of a text

A scalar, alias or collection may turn out to be the key of a mapping only at the colon behind it,
on the same line. Tokens are therefore held back as long as the first of them may be such a key,
and a key token is put in front of it when the colon comes.

`Token.ofText` gives the tokens up to the first fault, and the fault. A token that is still held
back at a fault is not among them.
-/

namespace Bundler.Yaml

/-- A place where a simple key may have begun. -/
structure KeyPlace where
  /-- The number of the token that is the key. -/
  token : Nat
  /-- Whether nothing but a key may stand there. -/
  required : Bool
  mark : Mark
  deriving Repr

/-- How far a text has been read. -/
structure Reader where
  cursor : Cursor
  /-- The number of open flow collections. -/
  flow : Nat := 0
  /-- The tokens that are held back. -/
  held : List Token := []
  /-- The number of tokens that have been given away. -/
  given : Nat := 0
  /-- The indentation of the innermost block, -1 outside of all. -/
  indent : Int := -1
  /-- The indentations of the blocks around it. -/
  indents : List Int := []
  /-- Whether a simple key may begin at the cursor. -/
  keyAllowed : Bool := true
  /-- The places where a simple key may have begun, by the number of open flow collections. -/
  keys : List (Nat × KeyPlace) := []
  done : Bool := false

namespace Reader

/-- The greatest length of a simple key. -/
def keyLimit : Nat := 1024

/-- Whether the cursor has gone too far from a place for it to be a simple key. -/
def isStale (r : Reader) (key : KeyPlace) : Bool :=
  key.mark.line != r.cursor.mark.line || keyLimit < r.cursor.mark.index - key.mark.index

/-- Forget the places that cannot be simple keys any more. -/
def dropStale (r : Reader) : Except Refusal Reader :=
  if r.keys.any fun e => r.isStale e.2 && e.2.required then
    .error (r.cursor.refuse .missingColon)
  else .ok { r with keys := r.keys.filter fun e => !r.isStale e.2 }

/-- Forget the place of the innermost collection. -/
def dropKey (r : Reader) : Except Refusal Reader :=
  match r.keys.lookup r.flow with
  | none => .ok r
  | some key =>
    if key.required then .error (r.cursor.refuse .missingColon)
    else .ok { r with keys := r.keys.filter (·.1 != r.flow) }

/-- Note that a simple key may begin at the cursor. -/
def noteKey (r : Reader) : Except Refusal Reader :=
  if r.keyAllowed then do
    let required := r.flow == 0 && r.indent == r.cursor.mark.column
    let r ← r.dropKey
    let key : KeyPlace := ⟨r.given + r.held.length, required, r.cursor.mark⟩
    .ok { r with keys := r.keys ++ [(r.flow, key)] }
  else .ok r

/-- Hold a token without length. -/
def hold (r : Reader) (word : Word) : Reader :=
  { r with held := r.held ++ [⟨word, r.cursor.mark, r.cursor.mark⟩] }

/-- Hold a word that ends at a cursor, and go on there. -/
def take (r : Reader) (word : Word) (stop : Cursor) : Reader :=
  { r with held := r.held ++ [⟨word, r.cursor.mark, stop.mark⟩], cursor := stop }

/-- Hold a word of one character. -/
def takeOne (r : Reader) (word : Word) : Reader := r.take word r.cursor.next

/-- Allow a simple key at the cursor or not. -/
def allowKey (r : Reader) (allowed : Bool) : Reader := { r with keyAllowed := allowed }

/-- The indentations that are left, and the number of blocks closed, where the blocks indented by
more than `column` end. -/
def closeBlocks (column : Int) (indent : Int) (indents : List Int) : Nat × Int × List Int :=
  if column < indent then
    match indents with
    | [] => (1, -1, [])
    | outer :: indents =>
      let (n, indent, indents) := closeBlocks column outer indents
      (n + 1, indent, indents)
  else (0, indent, indents)

/-- End the blocks that are indented by more than `column`. -/
def unwind (r : Reader) (column : Int) : Reader :=
  if r.flow != 0 then r
  else
    let (n, indent, indents) := closeBlocks column r.indent r.indents
    { r with
      indent, indents
      held := r.held ++ List.replicate n ⟨.blockEnd, r.cursor.mark, r.cursor.mark⟩ }

/-- The reader in a block indented by `column`, and whether that block is new. -/
def indentTo (r : Reader) (column : Nat) : Bool × Reader :=
  if r.indent < column then
    (true, { r with indent := column, indents := r.indent :: r.indents })
  else (false, r)

/-- Begin a block at the cursor if it is indented by more than the current one. -/
def beginBlock (r : Reader) (word : Word) : Reader :=
  if r.flow != 0 then r
  else match r.indentTo r.cursor.mark.column with
    | (true, r) => r.hold word
    | (false, r) => r

/-- The reader behind blanks, comments and breaks; `fuel` bounds the number of lines. A key may begin
on a new line of a block. -/
def skipGap (fuel : Nat) (r : Reader) : Reader :=
  match fuel with
  | 0 => r
  | fuel + 1 =>
    let c := r.cursor.skipSpaces.skipComment
    if c.sees isBreak then
      skipGap fuel
        { r with cursor := c.lineBreak.2, keyAllowed := r.keyAllowed || r.flow == 0 }
    else { r with cursor := c }

/-- The reader at the next token. A byte order mark at the start of the text is skipped. -/
def toToken (r : Reader) : Reader :=
  let c := r.cursor
  let c := if c.mark.index = 0 ∧ c.sees (· == byteOrderMark) then c.next else c
  skipGap (c.rest.length + 1) { r with cursor := c }

/-! ### The tokens by their first character -/

/-- Take the end of the text. -/
def takeEnd (r : Reader) : Except Refusal Reader := do
  let r ← (r.unwind (-1)).dropKey
  .ok ({ r with keyAllowed := false, keys := [], done := true }.hold .streamEnd)

/-- Take a directive. -/
def takeDirective (r : Reader) : Except Refusal Reader := do
  let r ← (r.unwind (-1)).dropKey
  let (word, c) ← r.cursor.directiveWord
  let c ← (c.restOfLine .malformedDirective).mapError .malformed
  .ok ((r.take word c).allowKey false)

/-- Take a line that separates documents. -/
def takeSeparator (r : Reader) (word : Word) : Except Refusal Reader := do
  let r ← (r.unwind (-1)).dropKey
  .ok ((r.take word (r.cursor.skip 3)).allowKey false)

/-- Take the start of a flow collection. -/
def takeFlowStart (r : Reader) (word : Word) : Except Refusal Reader := do
  let r ← r.noteKey
  .ok ({ r with flow := r.flow + 1 }.takeOne word |>.allowKey true)

/-- Take the end of a flow collection. -/
def takeFlowEnd (r : Reader) (word : Word) : Except Refusal Reader := do
  let r ← r.dropKey
  .ok ({ r with flow := r.flow - 1 }.takeOne word |>.allowKey false)

/-- Take a comma. -/
def takeFlowEntry (r : Reader) : Except Refusal Reader := do
  let r ← (r.allowKey true).dropKey
  .ok (r.takeOne .flowEntry)

/-- Take a hyphen that begins an entry. -/
def takeBlockEntry (r : Reader) : Except Refusal Reader :=
  if r.flow == 0 && !r.keyAllowed then .error (r.cursor.refuse .misplacedEntry)
  else do
    let r ← ((r.beginBlock .blockSequenceStart).allowKey true).dropKey
    .ok (r.takeOne .blockEntry)

/-- Take a question mark that begins a key. -/
def takeKey (r : Reader) : Except Refusal Reader :=
  if r.flow == 0 && !r.keyAllowed then .error (r.cursor.refuse .misplacedKey)
  else do
    let r ← ((r.beginBlock .blockMappingStart).allowKey (r.flow == 0)).dropKey
    .ok (r.takeOne .key)

/-- Put a key token, and the start of a block if one begins, in front of the simple key. -/
def insertKey (r : Reader) (key : KeyPlace) : Reader :=
  let place := key.token - r.given
  let word (w : Word) : Token := ⟨w, key.mark, key.mark⟩
  let (new, r) := if r.flow == 0 then r.indentTo key.mark.column else (false, r)
  let words := if new then [word .blockMappingStart, word .key] else [word .key]
  { r with held := r.held.take place ++ words ++ r.held.drop place }

/-- Take a colon that begins a value. -/
def takeValue (r : Reader) : Except Refusal Reader :=
  match r.keys.lookup r.flow with
  | some key =>
    let r := insertKey { r with keys := r.keys.filter (·.1 != r.flow) } key
    .ok ((r.allowKey false).takeOne .value)
  | none =>
    if r.flow == 0 && !r.keyAllowed then .error (r.cursor.refuse .misplacedValue)
    else do
      let r ← ((r.beginBlock .blockMappingStart).allowKey (r.flow == 0)).dropKey
      .ok (r.takeOne .value)

/-- Take an anchor or an alias. -/
def takeName (r : Reader) (word : String → Word) : Except Refusal Reader := do
  let r ← r.noteKey
  let (name, c) ← r.cursor.anchorName.mapError .malformed
  .ok ((r.take (word name) c).allowKey false)

/-- Take a tag. -/
def takeTag (r : Reader) : Except Refusal Reader := do
  let r ← r.noteKey
  let (word, c) ← r.cursor.tag.mapError .malformed
  .ok ((r.take word c).allowKey false)

/-- Take a block scalar. -/
def takeBlockScalar (r : Reader) (fold : Bool) : Except Refusal Reader := do
  let r ← (r.allowKey true).dropKey
  let (cs, c) ← (r.cursor.block fold r.indent).mapError .malformed
  .ok (r.take (.scalar (String.ofList cs) .block) c)

/-- Take a quoted scalar. -/
def takeQuoted (r : Reader) (double : Bool) : Except Refusal Reader := do
  let r ← r.noteKey
  let (cs, c) ← r.cursor.quoted double
  .ok ((r.take (.scalar (String.ofList cs) .quoted) c).allowKey false)

/-- Take a plain scalar. -/
def takePlain (r : Reader) : Except Refusal Reader := do
  let r ← r.noteKey
  let p := r.cursor.plain (r.flow != 0) (r.indent + 1)
  .ok { r with
    held := r.held ++ [⟨.scalar (String.ofList p.text) .plain, r.cursor.mark, p.stop⟩]
    cursor := p.cursor
    keyAllowed := p.keyAllowed }

/-- Whether a plain scalar may begin at the cursor. -/
def startsPlain (r : Reader) : Bool :=
  match r.cursor.peek with
  | none => false
  | some ch =>
    !(ch == ' ' || ch == '\t' || isBreak ch || "-?:,[]\x7b\x7d#&*!|>'\"%@\x60".toList.contains ch)
      || (!r.cursor.gapAt 1 && (ch == '-' || (r.flow == 0 && (ch == '?' || ch == ':'))))

/-- Whether the indicator at the cursor stands alone, which a flow collection does not ask for. -/
def standsAlone (r : Reader) : Bool := r.flow != 0 || r.cursor.gapAt 1

/-- Take the next token. -/
def takeToken (r : Reader) : Except Refusal Reader := do
  let r ← r.toToken.dropStale
  let r := r.unwind r.cursor.mark.column
  let c := r.cursor
  let lineStart := c.mark.column == 0
  match c.peek with
  | none => r.takeEnd
  | some ch =>
    if ch = '%' ∧ lineStart then r.takeDirective
    else if ch = '-' ∧ lineStart ∧ c.atSeparator then r.takeSeparator .documentStart
    else if ch = '.' ∧ lineStart ∧ c.atSeparator then r.takeSeparator .documentEnd
    else if ch = '[' then r.takeFlowStart .flowSequenceStart
    else if ch = '\x7b' then r.takeFlowStart .flowMappingStart
    else if ch = ']' then r.takeFlowEnd .flowSequenceEnd
    else if ch = '\x7d' then r.takeFlowEnd .flowMappingEnd
    else if ch = ',' then r.takeFlowEntry
    else if ch = '-' ∧ c.gapAt 1 then r.takeBlockEntry
    else if ch = '?' ∧ r.standsAlone then r.takeKey
    else if ch = ':' ∧ r.standsAlone then r.takeValue
    else if ch = '*' then r.takeName .alias
    else if ch = '&' then r.takeName .anchor
    else if ch = '!' then r.takeTag
    else if ch = '|' ∧ r.flow = 0 then r.takeBlockScalar false
    else if ch = '>' ∧ r.flow = 0 then r.takeBlockScalar true
    else if ch = '\x27' then r.takeQuoted false
    else if ch = '\x22' then r.takeQuoted true
    else if r.startsPlain then r.takePlain
    else .error (c.refuse .strayCharacter)

/-! ### Giving tokens away -/

/-- Whether the first token that is held may still turn out to be a simple key. -/
def firstMayBeKey (r : Reader) : Bool := r.keys.any fun e => e.2.token == r.given

/-- The first token and the reader without it, once it is settled; `fuel` bounds the number of
tokens that are taken before. -/
def give (fuel : Nat) (r : Reader) : Except Refusal (Option (Token × Reader)) :=
  match fuel with
  | 0 => .ok none
  | fuel + 1 =>
    if r.done then .ok (first r)
    else if r.held.isEmpty then do give fuel (← r.takeToken)
    else do
      let r ← r.dropStale
      if r.firstMayBeKey then do give fuel (← r.takeToken)
      else .ok (first r)
where
  /-- The first token that is held. -/
  first (r : Reader) : Option (Token × Reader) :=
    match r.held with
    | [] => none
    | t :: held => some (t, { r with held, given := r.given + 1 })

/-- The next step of a reader in front of a place from which on it cannot read. -/
def giveBefore (barrier : Option Barrier) (r : Reader) : Except Refusal (Option (Token × Reader)) :=
  let stop (index : Nat) (otherwise : Except Refusal (Option (Token × Reader))) :=
    match barrier with
    | some b => if b.index ≤ index then .error b.refusal else otherwise
    | none => otherwise
  let step := r.give (r.cursor.rest.length + 2)
  match step with
  | .ok (some (_, r)) => stop r.cursor.mark.index step
  | .error (.malformed ⟨_, some mark⟩) => stop mark.index step
  | .error _ | .ok none => step

/-- The tokens that a reader gives away, and the refusal at their end; `fuel` bounds their
number. -/
def tokens (barrier : Option Barrier) (fuel : Nat) (r : Reader) : List Token × Option Refusal :=
  match fuel with
  | 0 => ([], none)
  | fuel + 1 =>
    match r.giveBefore barrier with
    | .error refusal => ([], some refusal)
    | .ok none => ([], none)
    | .ok (some (t, r)) =>
      let (ts, refusal) := tokens barrier fuel r
      (t :: ts, refusal)

end Reader

/-- The tokens of a text up to the first fault or the place from which on it cannot be read, and the
refusal there. A character gives rise to at most four tokens: itself, the start of a block, a key,
and the end of a block. -/
def Token.ofText (cs : List Char) (barrier : Option Barrier) : List Token × Option Refusal :=
  let r : Reader := { cursor := ⟨cs, {}⟩ }
  (r.hold .streamStart).tokens barrier (4 * cs.length + 8)

end Bundler.Yaml
