import Rulebook.Value
import Rulebook.Yaml.Object

/-!
# Reading YAML

The value that a YAML text of one document writes. Tags other than those of the standard types are
refused. As a collection can be inside itself, a value may have no end: it is cut off where it is
nested deeper than the reader asks for.
-/

namespace Rulebook.Yaml

/-- Whether a character can stand in a document. -/
def isPrintable (c : Char) : Bool :=
  let n := c.toNat
  n = 0x09 || n = 0x0A || n = 0x0D || (0x20 ≤ n && n ≤ 0x7E) || n = 0x85 ||
    (0xA0 ≤ n && n ≤ 0xD7FF) || (0xE000 ≤ n && n ≤ 0xFFFD) || 0x10000 ≤ n

/-- The value of an object, given those of the objects inside it. -/
def Object.value (inside : Nat → Value) : Object → Value
  | scalar value => value
  | list items => .list (items.map inside)
  | pairs count => .list (List.replicate count .other)
  | record fields => .record (fields.map fun f => (f.1, inside f.2))
  | set => .other

/-- The values of objects, in which collections nested deeper than so many levels are `other`. -/
def valuesOf (objects : Array (Option Object)) : (levels : Nat) → Array Value
  | 0 => objects.map fun
    | some (.scalar value) => value
    | _ => .other
  | levels + 1 =>
    let inside := valuesOf objects levels
    objects.map fun
      | some x => x.value fun v => inside[v]?.getD .other
      | none => .other

/-- The value that a whole text writes, up to so many levels of collections; a text without a
document is null. -/
def read (levels : Nat) (text : String) : Except ReadFault Value := do
  let s := text.toList
  if !s.all isPrintable then throw .malformed
  match ← orMalformed (Node.ofTokens? (← orMalformed (Token.ofText? s))) with
  | none => return .null
  | some node =>
    let (root, graph) ← orMalformed (Graph.ofNode? node)
    return (valuesOf (← graph.objects root) levels)[root]?.getD .other

end Rulebook.Yaml
