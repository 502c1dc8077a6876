import Bundler.Value.Graph
import Bundler.Yaml.Node
import Bundler.Yaml.Scalar

/-!
# The content of a document

A document is read into a graph of values, in which the collection that an alias stands for is one
cell. The entries of mappings that a merge key names come before the own entries of a mapping,
which win. Collections are filled in the order in which they were first met, so that a collection
may hold itself.

`Content.ofText` reads a text.
-/

namespace Bundler.Yaml

/-- The content of a document. -/
structure Content where
  graph : Graph
  root : Item
  /-- Whether a collection may occur in several places. -/
  shared : Bool

/-- How far the content of some nodes has been found. -/
structure Filling where
  /-- The number of the text among those that are read together. -/
  origin : Nat
  /-- The number of pairs in all mappings. -/
  pairCount : Nat
  nodes : Array Node
  /-- The items of the nodes that have been met. -/
  items : Array (Option Item)
  cells : Array Cell
  /-- The collections that have been met and not filled, the first one first. -/
  waiting : List Nat := []

namespace Filling

/-- The refusal of a node. -/
def refuse (problem : Problem) (start : Mark) : Refusal := .malformed ⟨problem, some start⟩

/-- The node with a number. -/
def node (s : Filling) (n : Nat) : Node := s.nodes.getD n ⟨none, .scalar "", {}⟩

/-- The pairs of a mapping node. -/
def pairs? (node : Node) : Option (List (Nat × Nat)) :=
  match node.shape with
  | .mapping pairs => some pairs
  | _ => none

/-- A number that no other node has, in this text or in the one it is laid over. -/
def label (s : Filling) (n : Nat) : Nat := 2 * n + s.origin % 2 + 1

/-- The filling with other pairs in a mapping node. -/
def setPairs (s : Filling) (n : Nat) (pairs : List (Nat × Nat)) : Filling :=
  { s with nodes := s.nodes.modify n fun node => { node with shape := .mapping pairs } }

/-- The text that stands for a node where a scalar is wanted: of a mapping, the value of its default
key. `fuel` bounds the number of nested mappings. -/
def scalarText (s : Filling) (fuel : Nat) (n : Nat) : Except Refusal String :=
  let node := s.node n
  match fuel, node.shape with
  | _, .scalar text => .ok text
  | fuel + 1, .mapping pairs =>
    match pairs.find? fun p => (s.node p.1).kind == some .default with
    | some p => scalarText s fuel p.2
    | none => .error (refuse .unexpectedShape node.start)
  | _, _ => .error (refuse .unexpectedShape node.start)

/-- The item of a node. A collection is left to be filled later. -/
def item (s : Filling) (n : Nat) : Except Refusal (Item × Filling) :=
  match s.items.getD n none with
  | some item => .ok (item, s)
  | none =>
    let node := s.node n
    let met (item : Item) (s : Filling) : Item × Filling :=
      (item, { s with items := s.items.set! n (some item) })
    match node.kind with
    | none | some .merge | some .default | some .indicator =>
      .error (refuse .unknownTag node.start)
    | some .sequence | some .orderedMapping | some .pairs =>
      .ok (met (.cell n) { s with
        cells := s.cells.set! n (.list []), waiting := s.waiting ++ [n] })
    | some .mapping =>
      .ok (met (.cell n) { s with
        cells := s.cells.set! n (.mapping []), waiting := s.waiting ++ [n] })
    | some .set =>
      .ok (met (.cell n) { s with
        cells := s.cells.set! n (.set []), waiting := s.waiting ++ [n] })
    | some kind => do
      let text ← scalarText s s.nodes.size n
      if kind = .timestamp ∧ (pairs? node).isSome then
        .error (.unreadable (.unsuitable "a mapping is no timestamp"))
      else match kind.scalar? text node.start (s.label n) with
        | some scalar => .ok (met (.scalar (← scalar)) s)
        | none => .error (refuse .unknownTag node.start)

/-- The items of some nodes in order. -/
def itemsOf (s : Filling) : List Nat → Except Refusal (List Item × Filling)
  | [] => .ok ([], s)
  | n :: ns => do
    let (item, s) ← s.item n
    let (items, s) ← itemsOf s ns
    .ok (item :: items, s)

/-! ### Merge keys -/

/-- The nodes that a merge key names: a mapping or the items of a sequence. -/
def mergeSources (s : Filling) (value : Nat) : Except Refusal (List Nat) :=
  let node := s.node value
  match node.shape with
  | .mapping _ => .ok [value]
  | .sequence items => .ok items
  | .scalar _ => .error (refuse .unexpectedShape node.start)

/-- Replace the merge keys of a mapping node, from the first one on, by the pairs they name; those named
before are `merged`. Of several mappings that one key names the first wins. A mapping that one of its
own merge keys names is met without that key. `fuel` bounds the number of merge keys. -/
def flatten (fuel : Nat) (s : Filling) (n : Nat) (merged : List (Nat × Nat)) :
    Except Refusal Filling :=
  match fuel with
  | 0 => .ok s
  | fuel + 1 => do
    let pairs := (pairs? (s.node n)).getD []
    match pairs.findIdx? fun p => (s.node p.1).kind == some .merge with
    | none =>
      let nodes := pairs.foldl (fun nodes p => nodes.modify p.1 fun key =>
        if key.kind = some .default then { key with kind := some .text } else key) s.nodes
      .ok ({ s with nodes }.setPairs n (merged ++ pairs))
    | some i =>
      let sources ← s.mergeSources ((pairs[i]?.getD (n, n)).2)
      let s ← sources.foldlM (fun s source =>
        if (pairs? (s.node source)).isSome then flatten fuel s source []
        else .error (refuse .unexpectedShape (s.node source).start))
        (s.setPairs n (pairs.eraseIdx i))
      flatten fuel s n
        (merged ++ sources.reverse.flatMap fun source => (pairs? (s.node source)).getD [])

/-! ### Filling collections -/

/-- The entries of some pairs. A key has to be a scalar. -/
def entriesOf (s : Filling) (sofar : List (Scalar × Item)) :
    List (Nat × Nat) → Except Refusal (List (Scalar × Item) × Filling)
  | [] => .ok (sofar, s)
  | (key, value) :: pairs => do
    let (k, s) ← s.item key
    match k with
    | .scalar k => do
      let (v, s) ← s.item value
      entriesOf s (Graph.insert sofar k v) pairs
    | _ => .error (refuse .unhashableKey (s.node key).start)

/-- The entries of a mapping node. -/
def mappingEntries (s : Filling) (n : Nat) :
    Except Refusal (List (Scalar × Item) × Filling) := do
  match pairs? (s.node n) with
  | none => .error (refuse .unexpectedShape (s.node n).start)
  | some _ => do
    let s ← flatten (s.pairCount + 1) s n []
    entriesOf s [] ((pairs? (s.node n)).getD [])

/-- The pairs of a sequence of mappings with one entry each. -/
def pairItems (s : Filling) : List Nat → Except Refusal (List Item × Filling)
  | [] => .ok ([], s)
  | n :: ns => do
    match pairs? (s.node n) with
    | some [(key, value)] => do
      let (k, s) ← s.item key
      let (v, s) ← s.item value
      let (items, s) ← pairItems s ns
      .ok (.pair k v :: items, s)
    | _ => .error (refuse .unexpectedShape (s.node n).start)

/-- The filling with the content of a cell. -/
def setCell (s : Filling) (n : Nat) (cell : Cell) : Filling :=
  { s with cells := s.cells.set! n cell }

/-- Fill the collection of a node. -/
def fill (s : Filling) (n : Nat) : Except Refusal Filling := do
  let node := s.node n
  match node.kind with
  | some .mapping => do
    let (entries, s) ← s.mappingEntries n
    .ok (s.setCell n (.mapping entries))
  | some .set => do
    let (entries, s) ← s.mappingEntries n
    .ok (s.setCell n (.set (entries.map (·.1))))
  | kind =>
    match node.shape with
    | .sequence children => do
      let (items, s) ← if kind = some .sequence then s.itemsOf children else s.pairItems children
      .ok (s.setCell n (.list items))
    | _ => .error (refuse .unexpectedShape node.start)

/-- Fill the collections that wait, and those that are met on the way; `fuel` bounds their number. -/
def fillAll (fuel : Nat) (s : Filling) : Except Refusal Filling :=
  match fuel, s.waiting with
  | 0, _ | _, [] => .ok s
  | fuel + 1, n :: waiting => do fillAll fuel (← { s with waiting }.fill n)

end Filling

/-- The content of some nodes; nothing at all counts as null. -/
def Content.ofNodes (nodes : Nodes) (origin : Nat) : Except Refusal Content := do
  let size := nodes.nodes.size
  let pairCount := nodes.nodes.foldl (fun n node => n + ((Filling.pairs? node).getD []).length) 0
  let s : Filling :=
    ⟨origin, pairCount, nodes.nodes, Array.replicate size none, Array.replicate size (.list []), []⟩
  match nodes.root with
  | none => .ok ⟨⟨#[]⟩, .scalar .null, false⟩
  | some root => do
    let (item, s) ← s.item root
    let s ← s.fillAll (size + 1)
    .ok ⟨⟨s.cells⟩, item, nodes.shared⟩

/-- The characters of a YAML text, as closed ranges of code points. -/
def printableRanges : Array (Nat × Nat) :=
  #[(0x09, 0x0A), (0x0D, 0x0D), (0x20, 0x7E), (0x85, 0x85), (0xA0, 0xD7FF), (0xE000, 0xFFFD),
    (0x10000, 0x10FFFF)]

/-- A text is read in pieces of this many characters, the first two at once. -/
def pieceSize : Nat := 4096

/-- The index of the first character of the piece with the character at an index. -/
def pieceStart (index : Nat) : Nat := if index < 2 * pieceSize then 0 else index - index % pieceSize

/-- The place from which on a text cannot be read because of a character in it, if there is one. -/
def unprintableFrom? (cs : List Char) : Option Barrier :=
  (cs.findIdx? fun c => !Text.inRanges printableRanges c).map fun index =>
    ⟨pieceStart index, .malformed ⟨.unprintable, none⟩⟩

/-- The content of a text with unified line ends. What cannot be read is noticed only when the reader
comes to it, also if the text is cut off at a place from which on it cannot be read. `nesting` is the
greatest number of collections inside one another. -/
def Content.ofText (nesting : Nat) (cs : List Char) (origin : Nat) (cutOff : Option Barrier) :
    Except Refusal Content := do
  let barrier := (unprintableFrom? cs).elim cutOff fun b =>
    if cutOff.any fun c => c.index ≤ b.index then cutOff else some b
  let (tokens, refusal) := Token.ofText cs barrier
  let (events, refusal) := Event.ofTokens tokens refusal
  Content.ofNodes (← Nodes.ofEvents nesting events refusal) origin

end Bundler.Yaml
