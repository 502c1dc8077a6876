import Bundler.Yaml.Token.Stream

/-!
# YAML events

The structure of a stream: what begins, what ends and which scalars and aliases stand between. The
events of a list of tokens are found by a machine with a stack of states; each state says what may
come next.

`Event.ofTokens` gives the events up to the first fault, and the fault.
-/

namespace Bundler.Yaml

/-- How the tag of a node is found. -/
inductive TagForm where
  /-- The tag is written. -/
  | written (tag : String)
  /-- The tag follows from the text of a scalar. -/
  | byText
  /-- The tag follows from the shape of the node: a text, a sequence or a mapping. -/
  | byShape
  deriving DecidableEq, Repr

/-- What an event tells. -/
inductive Happening where
  | streamStart
  | streamEnd
  | documentStart
  | documentEnd
  | alias (name : String)
  | scalar (anchor : Option String) (tag : TagForm) (text : String)
  | sequenceStart (anchor : Option String) (tag : TagForm)
  | sequenceEnd
  | mappingStart (anchor : Option String) (tag : TagForm)
  | mappingEnd
  deriving DecidableEq, Repr

/-- An event and the place where it begins. -/
structure Event where
  what : Happening
  start : Mark
  deriving Repr

/-- What is expected next. -/
inductive Expectation where
  | streamStart
  | firstDocument
  | document
  | documentContent
  | documentEnd
  | blockNode
  | sequenceFirstEntry
  | sequenceEntry
  | indentlessEntry
  | mappingFirstKey
  | mappingKey
  | mappingValue
  | flowSequenceFirstEntry
  | flowSequenceEntry
  | pairKey
  | pairValue
  | pairEnd
  | flowMappingFirstKey
  | flowMappingKey
  | flowMappingValue
  | flowMappingEmptyValue
  | nothing
  deriving DecidableEq, Repr

/-- The machine that finds the events. -/
structure Machine where
  tokens : List Token
  refusal : Option Refusal
  /-- What is expected next. -/
  expected : Expectation := .streamStart
  /-- What is expected once the nodes that are open have ended. -/
  later : List Expectation := []
  /-- The meanings of the tag handles. -/
  handles : List (String × String) := []

/-- An event and the machine behind it, or a refusal. -/
abbrev Machine.Step := Except Refusal (Event × Machine)

/-- The tag handles that need no directive. -/
def defaultHandles : List (String × String) := [("!", "!"), ("!!", "tag:yaml.org,2002:")]

namespace Machine

/-- The next token. At the end of the tokens stands what the text was refused for. -/
def peek (m : Machine) : Except Refusal Token :=
  match m.tokens with
  | t :: _ => .ok t
  | [] => .error (m.refusal.getD (.malformed ⟨.missingContent, none⟩))

/-- The machine without the next token. -/
def drop (m : Machine) : Machine := { m with tokens := m.tokens.tail }

/-- The refusal at a token. -/
def refuse (problem : Problem) (t : Token) : Refusal := .malformed ⟨problem, some t.start⟩

/-- The machine that expects something else next. -/
def expect (m : Machine) (e : Expectation) : Machine := { m with expected := e }

/-- The machine that expects something once the coming node has ended. -/
def expectLater (m : Machine) (e : Expectation) : Machine := { m with later := e :: m.later }

/-- The machine behind a node that has ended. -/
def resume (m : Machine) : Machine :=
  { m with expected := m.later.headD .nothing, later := m.later.tail }

/-- An empty scalar at a place. -/
def empty (mark : Mark) (m : Machine) : Event × Machine := (⟨.scalar none .byText "", mark⟩, m)

/-! ### Nodes -/

/-- The anchor and the tag in front of a node. -/
structure Properties where
  anchor : Option String := none
  tag : Option (Option String × String) := none
  start : Option Mark := none
  tagMark : Option Mark := none

/-- The anchor and the tag at the front of the tokens, in either order, at most one of each. -/
def properties (m : Machine) : Except Refusal (Properties × Machine) := do
  let t ← m.peek
  match t.word with
  | .anchor name =>
    let m := m.drop
    let u ← m.peek
    match u.word with
    | .tag handle suffix =>
      .ok (⟨some name, some (handle, suffix), some t.start, some u.start⟩, m.drop)
    | _ => .ok (⟨some name, none, some t.start, none⟩, m)
  | .tag handle suffix =>
    let m := m.drop
    let u ← m.peek
    match u.word with
    | .anchor name => .ok (⟨some name, some (handle, suffix), some t.start, some t.start⟩, m.drop)
    | _ => .ok (⟨none, some (handle, suffix), some t.start, some t.start⟩, m)
  | _ => .ok ({}, m)

/-- The tag that a handle and a suffix write. -/
def fullTag (m : Machine) (p : Properties) : Except Refusal (Option String) :=
  match p.tag with
  | none => .ok none
  | some (none, suffix) => .ok (some suffix)
  | some (some handle, suffix) =>
    match m.handles.lookup handle with
    | some start => .ok (some (start ++ suffix))
    | none => .error (.malformed ⟨.undefinedHandle, p.tagMark⟩)

/-- How the tag of a collection is found. -/
def collectionTag : Option String → TagForm
  | none | some "!" => .byShape
  | some tag => .written tag

/-- How the tag of a scalar is found. -/
def scalarTag (style : Style) : Option String → TagForm
  | none => if style = .plain then .byText else .byShape
  | some "!" => .byText
  | some tag => .written tag

/-- A node. In a block, collections may be written by indentation, and as a value of a mapping a
sequence needs none. -/
def node (inBlock indentless : Bool) (m : Machine) : Step := do
  let t ← m.peek
  match t.word with
  | .alias name => .ok (⟨.alias name, t.start⟩, m.drop.resume)
  | _ =>
    let (p, m) ← m.properties
    let tag ← m.fullTag p
    let t ← m.peek
    let start := p.start.getD t.start
    let sequence (m : Machine) : Step :=
      .ok (⟨.sequenceStart p.anchor (collectionTag tag), start⟩, m)
    let mapping (m : Machine) : Step :=
      .ok (⟨.mappingStart p.anchor (collectionTag tag), start⟩, m)
    let other : Step :=
      if p.anchor.isSome || tag.isSome then
        .ok (⟨.scalar p.anchor (scalarTag .plain tag) "", start⟩, m.resume)
      else .error (refuse .missingContent t)
    match t.word with
    | .blockEntry => if indentless then sequence (m.expect .indentlessEntry) else other
    | .scalar text style =>
      .ok (⟨.scalar p.anchor (scalarTag style tag) text, start⟩, m.drop.resume)
    | .flowSequenceStart => sequence (m.expect .flowSequenceFirstEntry)
    | .flowMappingStart => mapping (m.expect .flowMappingFirstKey)
    | .blockSequenceStart => if inBlock then sequence (m.expect .sequenceFirstEntry) else other
    | .blockMappingStart => if inBlock then mapping (m.expect .mappingFirstKey) else other
    | _ => other

/-- A node whose end is followed by something expected, or an empty scalar if one of some words
comes at once. -/
def nodeOrEmpty (m : Machine) (inBlock indentless : Bool) (ends : List Word) (next : Expectation)
    (mark : Mark) : Step := do
  let t ← m.peek
  if ends.contains t.word then .ok (empty mark (m.expect next))
  else (m.expectLater next).node inBlock indentless

/-! ### Documents -/

/-- The directives at the front of the tokens; `fuel` bounds their number. -/
def directives (fuel : Nat) (versionSeen : Bool) (m : Machine) : Except Refusal Machine :=
  match fuel with
  | 0 => .ok m
  | fuel + 1 => do
    let t ← m.peek
    match t.word with
    | .version major _ =>
      if versionSeen then .error (refuse .repeatedDirective t)
      else if major ≠ 1 then .error (refuse .unknownVersion t)
      else directives fuel true m.drop
    | .tagHandle handle start =>
      if (m.handles.lookup handle).isSome then .error (refuse .repeatedDirective t)
      else directives fuel versionSeen { m.drop with handles := (handle, start) :: m.handles }
    | .otherDirective => directives fuel versionSeen m.drop
    | _ => .ok m

/-- The machine behind the ends of documents; `fuel` bounds their number. -/
def skipEnds (fuel : Nat) (m : Machine) : Except Refusal Machine :=
  match fuel with
  | 0 => .ok m
  | fuel + 1 => do
    let t ← m.peek
    if t.word = .documentEnd then skipEnds fuel m.drop else .ok m

/-- The start of a document with its directives, or the end of the stream. -/
def document (m : Machine) : Step := do
  let m ← m.skipEnds (m.tokens.length + 1)
  let t ← m.peek
  if t.word = .streamEnd then .ok (⟨.streamEnd, t.start⟩, m.drop.expect .nothing)
  else
    let m ← directives (m.tokens.length + 1) false { m with handles := [] }
    let u ← m.peek
    if u.word ≠ .documentStart then .error (refuse .missingDocumentStart u)
    else
      let m := { m.drop with handles := m.handles ++ defaultHandles }
      .ok (⟨.documentStart, t.start⟩, (m.expectLater .documentEnd).expect .documentContent)

/-- Whether a word starts a document or ends the stream. -/
def isDocumentBound : Word → Bool
  | .version .. | .tagHandle .. | .otherDirective | .documentStart | .streamEnd => true
  | _ => false

/-! ### Collections -/

/-- The end of a block collection. -/
def blockEnd (m : Machine) (what : Happening) : Step := do
  let t ← m.peek
  if t.word = .blockEnd then .ok (⟨what, t.start⟩, m.drop.resume)
  else .error (refuse .unclosedBlock t)

/-- The next entry of a block sequence, or its end. -/
def sequenceEntry (m : Machine) : Step := do
  let t ← m.peek
  if t.word = .blockEntry then
    m.drop.nodeOrEmpty true false [.blockEntry, .blockEnd] .sequenceEntry t.stop
  else m.blockEnd .sequenceEnd

/-- The next entry of a sequence that is indented like the mapping around it, or its end. -/
def indentlessEntry (m : Machine) : Step := do
  let t ← m.peek
  if t.word = .blockEntry then
    m.drop.nodeOrEmpty true false [.blockEntry, .key, .value, .blockEnd] .indentlessEntry t.stop
  else .ok (⟨.sequenceEnd, t.start⟩, m.resume)

/-- The next key of a block mapping, or its end. -/
def mappingKey (m : Machine) : Step := do
  let t ← m.peek
  if t.word = .key then
    m.drop.nodeOrEmpty true true [.key, .value, .blockEnd] .mappingValue t.stop
  else m.blockEnd .mappingEnd

/-- The value of a key of a block mapping. -/
def mappingValue (m : Machine) : Step := do
  let t ← m.peek
  if t.word = .value then
    m.drop.nodeOrEmpty true true [.key, .value, .blockEnd] .mappingKey t.stop
  else .ok (empty t.start (m.expect .mappingKey))

/-- The machine behind the comma that has to come between entries of a flow collection. -/
def skipComma (m : Machine) (isFirst : Bool) : Except Refusal Machine := do
  if isFirst then .ok m
  else
    let t ← m.peek
    if t.word = .flowEntry then .ok m.drop else .error (refuse .unclosedFlow t)

/-- The next entry of a flow sequence, or its end. An entry may be a pair. -/
def flowSequenceEntry (m : Machine) (isFirst : Bool) : Step := do
  let t ← m.peek
  if t.word = .flowSequenceEnd then .ok (⟨.sequenceEnd, t.start⟩, m.drop.resume)
  else
    let m ← m.skipComma isFirst
    let t ← m.peek
    if t.word = .key then .ok (⟨.mappingStart none .byShape, t.start⟩, m.expect .pairKey)
    else if t.word = .flowSequenceEnd then .ok (⟨.sequenceEnd, t.start⟩, m.drop.resume)
    else (m.expectLater .flowSequenceEntry).node false false

/-- The key of a pair in a flow sequence. -/
def pairKey (m : Machine) : Step := do
  let t ← m.peek
  m.drop.nodeOrEmpty false false [.value, .flowEntry, .flowSequenceEnd] .pairValue t.stop

/-- The value of a pair in a flow sequence. -/
def pairValue (m : Machine) : Step := do
  let t ← m.peek
  if t.word = .value then
    m.drop.nodeOrEmpty false false [.flowEntry, .flowSequenceEnd] .pairEnd t.stop
  else .ok (empty t.start (m.expect .pairEnd))

/-- The next key of a flow mapping, or its end. A key may stand without a value. -/
def flowMappingKey (m : Machine) (isFirst : Bool) : Step := do
  let t ← m.peek
  if t.word = .flowMappingEnd then .ok (⟨.mappingEnd, t.start⟩, m.drop.resume)
  else
    let m ← m.skipComma isFirst
    let t ← m.peek
    if t.word = .key then
      m.drop.nodeOrEmpty false false [.value, .flowEntry, .flowMappingEnd] .flowMappingValue t.stop
    else if t.word = .flowMappingEnd then .ok (⟨.mappingEnd, t.start⟩, m.drop.resume)
    else (m.expectLater .flowMappingEmptyValue).node false false

/-- The value of a key of a flow mapping. -/
def flowMappingValue (m : Machine) : Step := do
  let t ← m.peek
  if t.word = .value then
    m.drop.nodeOrEmpty false false [.flowEntry, .flowMappingEnd] .flowMappingKey t.stop
  else .ok (empty t.start (m.expect .flowMappingKey))

/-! ### The machine -/

/-- The next event. -/
def step (m : Machine) : Step := do
  let t ← m.peek
  match m.expected with
  | .streamStart => .ok (⟨.streamStart, t.start⟩, m.drop.expect .firstDocument)
  | .firstDocument =>
    if isDocumentBound t.word then m.document
    else
      .ok (⟨.documentStart, t.start⟩,
        { m with handles := defaultHandles }.expectLater .documentEnd |>.expect .blockNode)
  | .document => m.document
  | .documentContent =>
    if isDocumentBound t.word || t.word = .documentEnd then .ok (empty t.start m.resume)
    else m.node true false
  | .documentEnd =>
    let m' := if t.word = .documentEnd then m.drop else m
    .ok (⟨.documentEnd, t.start⟩, m'.expect .document)
  | .blockNode => m.node true false
  | .sequenceFirstEntry => m.drop.sequenceEntry
  | .sequenceEntry => m.sequenceEntry
  | .indentlessEntry => m.indentlessEntry
  | .mappingFirstKey => m.drop.mappingKey
  | .mappingKey => m.mappingKey
  | .mappingValue => m.mappingValue
  | .flowSequenceFirstEntry => m.drop.flowSequenceEntry true
  | .flowSequenceEntry => m.flowSequenceEntry false
  | .pairKey => m.pairKey
  | .pairValue => m.pairValue
  | .pairEnd => .ok (⟨.mappingEnd, t.start⟩, m.expect .flowSequenceEntry)
  | .flowMappingFirstKey => m.drop.flowMappingKey true
  | .flowMappingKey => m.flowMappingKey false
  | .flowMappingValue => m.flowMappingValue
  | .flowMappingEmptyValue => .ok (empty t.start (m.expect .flowMappingKey))
  | .nothing => .error (m.refusal.getD (.malformed ⟨.missingContent, none⟩))

/-- The events up to the end of the stream or the first refusal; `fuel` bounds their number. -/
def events (fuel : Nat) (m : Machine) : List Event × Option Refusal :=
  match fuel with
  | 0 => ([], none)
  | fuel + 1 =>
    match m.step with
    | .error refusal => ([], some refusal)
    | .ok (e, m) =>
      if e.what = .streamEnd then ([e], none)
      else
        let (es, refusal) := events fuel m
        (e :: es, refusal)

end Machine

/-- The events of some tokens up to the first fault, and that fault. A token gives rise to at most
four events. -/
def Event.ofTokens (tokens : List Token) (refusal : Option Refusal) :
    List Event × Option Refusal :=
  Machine.events (4 * tokens.length + 4) { tokens, refusal }

end Bundler.Yaml
