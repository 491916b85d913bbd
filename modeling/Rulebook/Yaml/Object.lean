import Rulebook.Value
import Rulebook.Yaml.Graph
import Rulebook.Yaml.ScalarValue

/-!
# Objects

What is made of the vertices of a graph. A scalar is made at once. A collection is empty when it is
made, so that it can be one of its own items, and waits to be filled; filling makes the objects that
it holds. Collections are filled in the order in which they were made. An object is made once.
-/

namespace Rulebook.Yaml

/-- What is made of a vertex; other objects are meant by the numbers of their vertices. -/
inductive Object where
  | scalar (value : Value)
  | list (items : List Nat)
  /-- A list of so many pairs, which are of no use to anyone. -/
  | pairs (count : Nat)
  /-- Fields by their names; keys that are not texts are left out, since nothing asks for them. -/
  | record (fields : List (String × Nat))
  | set

/-- Whether an object can be a key: collections cannot. -/
def Object.isKey : Object → Bool
  | scalar _ => true
  | _ => false

/-- The new object of a vertex. -/
def Object.ofVertex (g : Graph) (v : Nat) : Except ReadFault Object :=
  match g.tag v with
  | .sequence => .ok (.list [])
  | .orderedMap | .pairs => .ok (.pairs 0)
  | .mapping => .ok (.record [])
  | .set => .ok .set
  | tag => do return .scalar (← tag.value (← orMalformed (g.textOf? g.vertices.size v)))

/-- The objects made so far. -/
structure Making where
  graph : Graph
  /-- How many merge keys there can be. -/
  merges : Nat
  /-- The objects by the numbers of their vertices. -/
  objects : Array (Option Object)
  /-- The collections that have not been filled, the newest first. -/
  waiting : List Nat := []

namespace Making

/-- Nothing made of a graph yet. -/
def ofGraph (graph : Graph) : Making where
  graph := graph
  merges := graph.entryCount
  objects := Array.replicate graph.vertices.size none

/-- The object of a vertex. -/
def object? (m : Making) (v : Nat) : Option Object :=
  m.objects[v]?.join

/-- The object of a vertex set. -/
def setObject (m : Making) (v : Nat) (x : Object) : Making :=
  { m with objects := m.objects.setIfInBounds v (some x) }

/-- The object of a vertex made, unless it is there. -/
def make (m : Making) (v : Nat) : Except ReadFault Making := do
  if (m.object? v).isSome then return m
  let x ← Object.ofVertex m.graph v
  let m := m.setObject v x
  return if x.isKey then m else { m with waiting := v :: m.waiting }

/-- The field of an entry, if its key is a text. -/
def field? (m : Making) (e : Nat × Nat) : Option (String × Nat) :=
  match m.object? e.1 with
  | some (.scalar (.text name)) => some (name.legible, e.2)
  | _ => none

/-- The keys and values of some entries made; the keys cannot be collections. -/
def makeEntries (m : Making) (entries : List (Nat × Nat)) : Except ReadFault Making :=
  entries.foldlM (fun m (key, value) => do
    let m ← m.make key
    if (m.object? key).any Object.isKey then m.make value else throw .malformed) m

/-- The keys and values of a mapping made, after it has been flattened: its entries. -/
def makeMapping (m : Making) (v : Nat) : Except ReadFault (List (Nat × Nat) × Making) := do
  let graph ← orMalformed (m.graph.flatten? m.merges v)
  let entries ← orMalformed (graph.entries? v)
  return (entries, ← { m with graph }.makeEntries entries)

/-- The pairs of a sequence of mappings with one entry each made, which are not flattened. -/
def makePairs (m : Making) (items : List Nat) : Except ReadFault Making :=
  items.foldlM (fun m v =>
    match m.graph.entries? v with
    | some [(key, value)] => do (← m.make key).make value
    | _ => throw .malformed) m

/-- A collection filled. -/
def fill (m : Making) (v : Nat) : Except ReadFault Making :=
  match m.object? v with
  | some (.list _) => do
    let items ← orMalformed (m.graph.items? v)
    return (← items.foldlM make m).setObject v (.list items)
  | some (.pairs _) => do
    let items ← orMalformed (m.graph.items? v)
    return (← m.makePairs items).setObject v (.pairs items.length)
  | some (.record _) => do
    let (entries, m) ← m.makeMapping v
    return m.setObject v (.record (entries.filterMap m.field?))
  | some .set => do
    let (_, m) ← m.makeMapping v
    return m
  | _ => .ok m

/-- All collections filled, in at most so many rounds: one round fills those that the one before
has made. -/
def fillAll : (rounds : Nat) → Making → Except ReadFault Making
  | 0, m => .ok m
  | rounds + 1, m =>
    if m.waiting.isEmpty then .ok m
    else do fillAll rounds (← m.waiting.reverse.foldlM fill { m with waiting := [] })

end Making

/-- The objects of a graph that can be reached from a root. Every round fills a collection that
has not been filled before, so there are not more rounds than vertices. -/
def Graph.objects (g : Graph) (root : Nat) : Except ReadFault (Array (Option Object)) := do
  let m ← (Making.ofGraph g).make root
  return (← m.fillAll g.vertices.size).objects

end Rulebook.Yaml
