import Bundler.Yaml.Event
import Bundler.Yaml.Tag

/-!
# Nodes

The nodes of a document, numbered in the order in which they begin. An alias is the number of the
node it stands for, so that a node may occur in several places, and even inside itself.

`Nodes.ofEvents` puts the nodes together and refuses a stream of more than one document.
-/

namespace Bundler.Yaml

/-- The shape of a node, with the numbers of the nodes in it. -/
inductive Shape where
  | scalar (text : String)
  | sequence (items : List Nat)
  | mapping (pairs : List (Nat × Nat))
  deriving Repr

/-- A node. -/
structure Node where
  /-- What the node is, if its tag is one of YAML itself. -/
  kind : Option Kind
  shape : Shape
  start : Mark
  deriving Repr

/-- The nodes of a document by their numbers. -/
structure Nodes where
  nodes : Array Node := #[]
  /-- The node that is the whole document, if there is one. -/
  root : Option Nat := none
  /-- Whether there are aliases. -/
  shared : Bool := false

/-- A collection that has not ended yet. -/
structure OpenNode where
  number : Nat
  isMapping : Bool
  /-- The numbers of the nodes in it, the last first. -/
  children : List Nat := []

/-- The nodes found so far. -/
structure Composition where
  found : Nodes := {}
  /-- The collections that have not ended, the innermost first. -/
  openNodes : List OpenNode := []
  anchors : List (String × Nat) := []
  /-- Whether a document has begun. -/
  begun : Bool := false

namespace Composition

/-- Keys and values in turn as pairs. -/
def pairUp : List Nat → List (Nat × Nat)
  | key :: value :: rest => (key, value) :: pairUp rest
  | _ => []

/-- The composition with a node at its place: in the innermost open collection, or as the root. -/
def attach (s : Composition) (number : Nat) : Composition :=
  match s.openNodes with
  | [] => { s with found := { s.found with root := some number } }
  | o :: rest => { s with openNodes := { o with children := number :: o.children } :: rest }

/-- The composition with a new node, and its number. -/
def add (s : Composition) (anchor : Option String) (node : Node) :
    Except Refusal (Nat × Composition) :=
  let number := s.found.nodes.size
  let added := { s with found := { s.found with nodes := s.found.nodes.push node } }
  match anchor with
  | none => .ok (number, added.attach number)
  | some name =>
    if (s.anchors.lookup name).isSome then
      .error (.malformed ⟨.repeatedAnchor, some node.start⟩)
    else .ok (number, { added.attach number with anchors := (name, number) :: s.anchors })

/-- The kind of a node whose tag is found in some way. -/
def kindOf (tag : TagForm) (byText byShape : Kind) : Option Kind :=
  match tag with
  | .written tag => Kind.ofTag? tag
  | .byText => some byText
  | .byShape => some byShape

/-- The composition in which the innermost open collection has ended. -/
def close (s : Composition) : Composition :=
  match s.openNodes with
  | [] => s
  | o :: rest =>
    let children := o.children.reverse
    let shape := if o.isMapping then .mapping (pairUp children) else .sequence children
    let nodes := s.found.nodes.modify o.number fun node => { node with shape }
    { s with found := { s.found with nodes }, openNodes := rest }

/-- The composition with a new collection that has not ended; `nesting` is the greatest number of
collections inside one another. -/
def begin (nesting : Nat) (s : Composition) (anchor : Option String) (node : Node)
    (isMapping : Bool) : Except Refusal Composition := do
  let (number, s) ← s.add anchor node
  if nesting ≤ s.openNodes.length then .error (.unreadable .nestedTooDeep)
  else .ok { s with openNodes := ⟨number, isMapping, []⟩ :: s.openNodes }

/-- The composition after an event. -/
def step (nesting : Nat) (s : Composition) (e : Event) : Except Refusal Composition :=
  match e.what with
  | .streamStart | .streamEnd => .ok s
  | .documentStart =>
    if s.begun then .error (.malformed ⟨.secondDocument, some e.start⟩)
    else .ok { s with begun := true }
  | .documentEnd => .ok { s with anchors := [] }
  | .alias name =>
    match s.anchors.lookup name with
    | some number => .ok { s.attach number with found := { (s.attach number).found with shared := true } }
    | none => .error (.malformed ⟨.undefinedAlias, some e.start⟩)
  | .scalar anchor tag text => do
    let (_, s) ← s.add anchor ⟨kindOf tag (.ofText text) .text, .scalar text, e.start⟩
    .ok s
  | .sequenceStart anchor tag =>
    begin nesting s anchor ⟨kindOf tag .sequence .sequence, .sequence [], e.start⟩ false
  | .mappingStart anchor tag =>
    begin nesting s anchor ⟨kindOf tag .mapping .mapping, .mapping [], e.start⟩ true
  | .sequenceEnd | .mappingEnd => .ok s.close

end Composition

/-- The nodes of the only document of a stream. -/
def Nodes.ofEvents (nesting : Nat) (events : List Event) (refusal : Option Refusal) :
    Except Refusal Nodes := do
  let s ← events.foldlM (Composition.step nesting) {}
  match refusal with
  | some refusal => .error refusal
  | none => .ok s.found

end Bundler.Yaml
