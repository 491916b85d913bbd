import Rulebook.Yaml.Node
import Rulebook.Yaml.Tag

/-!
# Graphs of nodes

A name stands for the very node that it was given to, so a document is a graph: a node can be at
several places and can even be inside itself. The vertices are numbered in the order in which their
nodes begin.

A mapping is flattened before its fields are looked at: each merge key is taken out and the entries
of the mappings that it names, flattened as well, are put in front. A key `=` is a text from then
on. As vertices are shared, both can be seen from every other place where they are used.
-/

namespace Rulebook.Yaml

/-- What a node holds; other nodes are meant by their numbers. -/
inductive Content where
  | scalar (text : RawText)
  | sequence (items : List Nat)
  | mapping (entries : List (Nat × Nat))

/-- A node with its tag. -/
structure Vertex where
  tag : Tag
  content : Content

/-- The vertices by number. -/
structure Graph where
  vertices : Array Vertex := #[]

namespace Graph

/-- The tag of a vertex. -/
def tag (g : Graph) (v : Nat) : Tag :=
  match g.vertices[v]? with
  | some x => x.tag
  | none => .unknown

/-- The text of a scalar. -/
def scalar? (g : Graph) (v : Nat) : Option RawText :=
  match g.vertices[v]? with
  | some ⟨_, .scalar text⟩ => some text
  | _ => none

/-- The items of a sequence. -/
def items? (g : Graph) (v : Nat) : Option (List Nat) :=
  match g.vertices[v]? with
  | some ⟨_, .sequence items⟩ => some items
  | _ => none

/-- The entries of a mapping. -/
def entries? (g : Graph) (v : Nat) : Option (List (Nat × Nat)) :=
  match g.vertices[v]? with
  | some ⟨_, .mapping entries⟩ => some entries
  | _ => none

/-- The graph with another tag at a vertex. -/
def setTag (g : Graph) (v : Nat) (tag : Tag) : Graph :=
  ⟨g.vertices.modify v fun x => { x with tag }⟩

/-- The graph with other content at a vertex. -/
def setContent (g : Graph) (v : Nat) (content : Content) : Graph :=
  ⟨g.vertices.modify v fun x => { x with content }⟩

/-- How many entries the mappings of a graph have. -/
def entryCount (g : Graph) : Nat :=
  g.vertices.foldl (fun n x => match x.content with
    | .mapping entries => n + entries.length
    | _ => n) 0

/-- The text of a vertex where a scalar is asked for: that of a scalar, or that of the value of the
first key `=` of a mapping. Mappings are followed `depth` levels deep. -/
def textOf? (g : Graph) : (depth v : Nat) → Option RawText
  | depth, v =>
    match g.entries? v with
    | none => g.scalar? v
    | some entries =>
      match depth, entries.find? fun e => g.tag e.1 = .default with
      | depth + 1, some e => textOf? g depth e.2
      | _, _ => none

/-! ## Flattening -/

/-- The value of the first merge key, and the entries without it. -/
def takeMerge? (g : Graph) : List (Nat × Nat) → Option (Nat × List (Nat × Nat))
  | [] => none
  | e :: entries =>
    if g.tag e.1 = .merge then some (e.2, entries)
    else (takeMerge? g entries).map fun (source, rest) => (source, e :: rest)

/-- What the value of a merge key names: the items of a sequence, or the value itself. -/
def sources (g : Graph) (v : Nat) : List Nat :=
  (g.items? v).getD [v]

/-- The graph with the keys `=` among some made texts. -/
def plainKeys (g : Graph) (entries : List (Nat × Nat)) : Graph :=
  entries.foldl (fun g e => if g.tag e.1 = .default then g.setTag e.1 .text else g) g

/-- Flattens a mapping, where the graph has at most `merges` merge keys. Of the sources of one key
the first one counts, so its entries come last. -/
def flatten? : (merges : Nat) → Graph → Nat → Option Graph
  | merges, g, v => do
    let entries ← g.entries? v
    match merges, g.takeMerge? entries with
    | _, none => return g.plainKeys entries
    | 0, some _ => none
    | merges + 1, some (source, rest) =>
      -- the key is taken out first, since the mapping may be among its own sources
      let g := g.setContent v (.mapping rest)
      let (g, brought) ← (g.sources source).foldlM (fun (g, brought) s => do
        let g ← flatten? merges g s
        return (g, (← g.entries? s) :: brought)) (g, [])
      let g ← flatten? merges g v
      return g.setContent v (.mapping (brought.flatten ++ (← g.entries? v)))

end Graph

/-! ## The graph of a document -/

/-- The graph of the part of a document that has been read, and the numbers of the names. -/
structure Sketch where
  graph : Graph := {}
  names : List (String × Nat) := []

namespace Sketch

/-- One more vertex: its number, and the sketch with it. A name is given once. -/
def add? (s : Sketch) (p : Properties) (x : Vertex) : Option (Nat × Sketch) :=
  let v := s.graph.vertices.size
  let graph : Graph := ⟨s.graph.vertices.push x⟩
  match p.anchor with
  | none => some (v, { s with graph })
  | some name =>
    if s.names.any (·.1 == name) then none else some (v, ⟨graph, (name, v) :: s.names⟩)

/-- The sketch with other content at a vertex. -/
def setContent (s : Sketch) (v : Nat) (content : Content) : Sketch :=
  { s with graph := s.graph.setContent v content }

mutual

/-- One more node with all that is inside it. The number of a collection can be meant by its own
items. -/
def draw? (s : Sketch) : Node → Option (Nat × Sketch)
  | .scalar p text plain => s.add? p ⟨Tag.ofScalar p.tag plain text.chars, .scalar text⟩
  | .sequence p items => do
    let (v, s) ← s.add? p ⟨Tag.ofCollection .sequence p.tag, .sequence []⟩
    let (items, s) ← drawItems? s items
    return (v, s.setContent v (.sequence items))
  | .mapping p entries => do
    let (v, s) ← s.add? p ⟨Tag.ofCollection .mapping p.tag, .mapping []⟩
    let (entries, s) ← drawEntries? s entries
    return (v, s.setContent v (.mapping entries))
  | .reference name => (s.names.lookup name).map (·, s)

/-- Some more nodes in order. -/
def drawItems? (s : Sketch) : List Node → Option (List Nat × Sketch)
  | [] => some ([], s)
  | node :: nodes => do
    let (v, s) ← draw? s node
    let (vs, s) ← drawItems? s nodes
    return (v :: vs, s)

/-- Some more keys with their values in order. -/
def drawEntries? (s : Sketch) : List (Node × Node) → Option (List (Nat × Nat) × Sketch)
  | [] => some ([], s)
  | (key, value) :: nodes => do
    let (k, s) ← draw? s key
    let (v, s) ← draw? s value
    let (vs, s) ← drawEntries? s nodes
    return ((k, v) :: vs, s)

end

end Sketch

/-- The number of the root and the graph of a document. -/
def Graph.ofNode? (root : Node) : Option (Nat × Graph) :=
  (Sketch.draw? {} root).map fun (v, s) => (v, s.graph)

end Rulebook.Yaml
