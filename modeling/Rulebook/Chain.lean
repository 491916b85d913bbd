import Rulebook.Operator

/-!
# Chains

The one shape of every expression: a head operand followed by pairs of an operator and an operand,
all of one precedence. Precedence comes only from chains whose operands are chains.

Everything an expression is asked for has a part that is the same in every chain: the values, the
names, the size and the depth are those of the operands, put together here.
-/

namespace Rulebook

/-- The sum of some numbers. -/
def total (ns : List Nat) : Nat :=
  ns.foldr (· + ·) 0

/-- The greatest of some numbers, zero if there are none. -/
def greatest (ns : List Nat) : Nat :=
  ns.foldr max 0

/-- A head operand and the pairs that follow it. -/
structure Chain (ω α : Type) where
  head : α
  tail : List (ω × α)
deriving DecidableEq, Repr

namespace Chain

variable {ω α β ε : Type}

/-- The operands from left to right. -/
def operands (c : Chain ω α) : List α :=
  c.head :: c.tail.map Prod.snd

/-- The chain with every operand replaced. -/
def map (f : α → β) (c : Chain ω α) : Chain ω β :=
  ⟨f c.head, c.tail.map fun p => (p.1, f p.2)⟩

/-- The value of a chain from the values of its operands, from left to right; the first operand
that has none decides the error. -/
def reduce [Operator ω β] (value : α → Except ε β) (c : Chain ω α) : Except ε β := do
  c.tail.foldlM (fun acc p => do return Operator.apply p.1 acc (← value p.2)) (← value c.head)

/-- The names in a chain, from left to right and with repetitions. -/
def names (f : α → List String) (c : Chain ω α) : List String :=
  c.operands.flatMap f

/-- How many nodes a chain has, itself included. -/
def size (f : α → Nat) (c : Chain ω α) : Nat :=
  1 + total (c.operands.map f)

/-- How many nodes stand on the longest way down from a chain, itself included. -/
def depth (f : α → Nat) (c : Chain ω α) : Nat :=
  1 + greatest (c.operands.map f)

/-- Whether two chains have the same operators and equal operands. -/
def equal [BEq ω] (eq : α → β → Bool) (c : Chain ω α) (d : Chain ω β) : Bool :=
  eq c.head d.head && c.tail.length == d.tail.length &&
    (c.tail.zip d.tail).all fun p => p.1.1 == p.2.1 && eq p.1.2 p.2.2

/-- Reads a chain: the head, then pairs as long as an operator and an operand follow. A pair that
is not complete ends the chain in front of its operator. -/
def read [Operator ω β] (operand : Reader α) : Reader (Chain ω α) := fun s => do
  let ⟨head, s₁, h₁⟩ ← operand s
  let (tail, ⟨s₂, h₂⟩) ← (Operator.read.andThen operand).many s₁
  return ⟨⟨head, tail⟩, s₂, Nat.lt_of_le_of_lt h₂ h₁⟩

/-! ## Laws -/

@[simp]
theorem operands_map (f : α → β) (c : Chain ω α) : (c.map f).operands = c.operands.map f := by
  simp [operands, map, Function.comp_def]

theorem length_operands (c : Chain ω α) : c.operands.length = c.tail.length + 1 := by
  simp [operands]

/-- The size of a chain of replaced operands. -/
theorem size_map (f : β → Nat) (g : α → β) (c : Chain ω α) :
    (c.map g).size f = c.size fun a => f (g a) := by
  simp [size, Function.comp_def]

/-- The depth of a chain of replaced operands. -/
theorem depth_map (f : β → Nat) (g : α → β) (c : Chain ω α) :
    (c.map g).depth f = c.depth fun a => f (g a) := by
  simp [depth, Function.comp_def]

@[simp]
theorem reduce_nil [Operator ω β] (value : α → Except ε β) (head : α) :
    (⟨head, []⟩ : Chain ω α).reduce value = value head := by
  cases h : value head <;> simp [reduce, h, bind, Except.bind, pure, Except.pure]

end Chain

end Rulebook
