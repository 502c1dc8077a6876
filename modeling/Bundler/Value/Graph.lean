import Bundler.Value.Overlay

/-!
# Values that share parts

In a graph the collections are numbered cells, and a cell may occur in several places. Changing a
mapping changes it in all of its places. A graph without cycles is unfolded into a value.
-/

namespace Bundler

/-- A part of a graph. -/
inductive Item where
  | scalar (s : Scalar)
  /-- A collection by its number. -/
  | cell (number : Nat)
  /-- Two items side by side. -/
  | pair (first second : Item)
  deriving Repr, Inhabited

/-- A collection. -/
inductive Cell where
  | list (items : List Item)
  | set (members : List Scalar)
  | mapping (entries : List (Scalar × Item))
  deriving Repr, Inhabited

/-- Numbered collections. -/
structure Graph where
  cells : Array Cell
  deriving Repr

namespace Graph

/-- Enter a key into a list of entries; a key that is present keeps its place. -/
def insert (entries : List (Scalar × Item)) (key : Scalar) (item : Item) : List (Scalar × Item) :=
  match entries with
  | [] => [(key, item)]
  | e :: entries =>
    if e.1.same key then (e.1, item) :: entries else e :: insert entries key item

/-- The item of a key. -/
def get? (entries : List (Scalar × Item)) (key : Scalar) : Option Item :=
  (entries.find? fun e => e.1.same key).map (·.2)

/-- The entries of the mapping that an item is. -/
def entries? (g : Graph) (item : Item) : Option (Nat × List (Scalar × Item)) :=
  match item with
  | .cell n => match g.cells[n]? with
    | some (.mapping entries) => some (n, entries)
    | _ => none
  | _ => none

/-! ### Unfolding -/

/-- The value of an item, unless it is nested more than `depth` deep. -/
def value? (g : Graph) : (depth : Nat) → Item → Option Value
  | _, .scalar s => some (.scalar s)
  | 0, _ => none
  | depth + 1, .pair first second => do
    some (.tuple [← g.value? depth first, ← g.value? depth second])
  | depth + 1, .cell n =>
    match g.cells[n]? with
    | some (.list items) => (items.mapM (g.value? depth)).map .list
    | some (.set members) => some (.set members)
    | some (.mapping entries) =>
      (entries.mapM fun e => (g.value? depth e.2).map fun v => (e.1, v)).map .mapping
    | none => none

/-- A nesting depth that a graph without cycles does not exceed. -/
def depthLimit (g : Graph) : Nat := 2 * g.cells.size + 2

/-- The value of an item, if the graph has no cycle below it. -/
def unfold (g : Graph) (item : Item) : Option Value := g.value? g.depthLimit item

/-! ### Overlays -/

/-- The item with its numbers raised. -/
def raise (by_ : Nat) : Item → Item
  | .scalar s => .scalar s
  | .cell n => .cell (n + by_)
  | .pair first second => .pair (raise by_ first) (raise by_ second)

/-- The cell with the numbers in it raised. -/
def raiseCell (by_ : Nat) : Cell → Cell
  | .list items => .list (items.map (raise by_))
  | .set members => .set members
  | .mapping entries => .mapping (entries.map fun e => (e.1, raise by_ e.2))

/-- The graph with the cells of another one behind its own. -/
def join (g h : Graph) : Graph := ⟨g.cells ++ h.cells.map (raiseCell g.cells.size)⟩

/-- Lay the entries of a mapping over the mapping with a number, in all of its places; `none` if
the mappings are nested more than `depth` deep. -/
def overlayAt : (depth : Nat) → Graph → (base : Nat) → List (Scalar × Item) → Option Graph
  | 0, _, _, _ => none
  | depth + 1, g, base, top =>
    top.foldlM (fun g e => do
      let entries := match g.cells[base]? with
        | some (.mapping entries) => entries
        | _ => []
      match (get? entries e.1).bind g.entries?, g.entries? e.2 with
      | some (n, _), some (_, top) => overlayAt depth g n top
      | _, _ => some ⟨g.cells.set! base (.mapping (insert entries e.1 e.2))⟩) g

end Graph

end Bundler
