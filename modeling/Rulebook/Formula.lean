import Rulebook.Bindings
import Rulebook.Chain
import Rulebook.Number.Numeral
import Rulebook.Text.Word

/-!
# Formulas

A formula is a sum of terms, a term a product of factors, and a factor a numeral, a name or a
formula in parentheses. Operators of one kind are taken from left to right.

What a formula is asked for is a `Factor.fold`: it says what a constant, a variable and a pair of
parentheses give, and the chains between them put it together. Reading and reducing take a limit
on how many parentheses may be open at once. A chain of any length is within every limit.
-/

namespace Rulebook

/-- A leaf of a term. -/
inductive Factor where
  | const (value : Float)
  | var (name : String)
  | parens (inner : Chain Additive (Chain Multiplicative Factor))

/-- Factors joined by `*` and `/`. -/
abbrev Term := Chain Multiplicative Factor

/-- Terms joined by `+` and `-`. -/
abbrev Formula := Chain Additive Term

/-! ## Folds over factors -/

section Fold

variable {β : Type} (const : Float → β) (var : String → β)
  (parens : Chain Additive (Chain Multiplicative β) → β)

mutual

/-- Replaces each constructor of a factor, from the leaves up. -/
def Factor.fold : Factor → β
  | .const value => const value
  | .var name => var name
  | .parens ⟨head, tail⟩ => parens ⟨foldTerm head, foldTerms tail⟩

/-- `Factor.fold` of every factor of a term. -/
def foldTerm : Chain Multiplicative Factor → Chain Multiplicative β
  | ⟨head, tail⟩ => ⟨head.fold, foldFactors tail⟩

/-- `Factor.fold` of the factors behind the head of a term. -/
def foldFactors : List (Multiplicative × Factor) → List (Multiplicative × β)
  | [] => []
  | (o, f) :: rest => (o, f.fold) :: foldFactors rest

/-- `Factor.fold` of the terms behind the head of a formula. -/
def foldTerms : List (Additive × Chain Multiplicative Factor) →
    List (Additive × Chain Multiplicative β)
  | [] => []
  | (o, t) :: rest => (o, foldTerm t) :: foldTerms rest

end

theorem foldFactors_eq (l : List (Multiplicative × Factor)) :
    foldFactors const var parens l = l.map fun p => (p.1, p.2.fold const var parens) := by
  induction l with
  | nil => rfl
  | cons p rest ih => obtain ⟨o, f⟩ := p; simp [foldFactors, ih]

theorem foldTerm_eq (t : Term) :
    foldTerm const var parens t = t.map (Factor.fold const var parens) := by
  obtain ⟨head, tail⟩ := t
  simp [foldTerm, Chain.map, foldFactors_eq]

theorem foldTerms_eq (l : List (Additive × Term)) :
    foldTerms const var parens l =
      l.map fun p => (p.1, p.2.map (Factor.fold const var parens)) := by
  induction l with
  | nil => rfl
  | cons p rest ih => obtain ⟨o, t⟩ := p; simp [foldTerms, foldTerm_eq, ih]

/-- A fold of parentheses is what they make of the folds of the factors inside. -/
theorem Factor.fold_parens (e : Formula) :
    (Factor.parens e).fold const var parens =
      parens (e.map fun t => t.map (Factor.fold const var parens)) := by
  obtain ⟨head, tail⟩ := e
  simp [Factor.fold, Chain.map, foldTerm_eq, foldTerms_eq]

end Fold

/-! ## Reading -/

namespace Factor

/-- Reads a numeral or a name, and the blanks behind it; `s` is the text with its blanks. -/
def readLeaf (s : List Char) : Except Fault (Reading Factor s) :=
  match hn : Number.Numeral.read? (Text.skipBlanks s) with
  | some (x, rest) => .ok ⟨.const x.toFloat, Text.skipBlanks rest, by
      have h₁ := Text.length_skipBlanks_le s
      have h₂ := Number.Numeral.length_read?_lt hn
      have h₃ := Text.length_skipBlanks_le rest
      omega⟩
  | none =>
    match hw : Text.takeWord? (Text.skipBlanks s) with
    | some (word, rest) => .ok ⟨.var (String.ofList word), Text.skipBlanks rest, by
        have h₁ := Text.length_skipBlanks_le s
        have h₂ := Text.length_takeWord?_lt hw
        have h₃ := Text.length_skipBlanks_le rest
        omega⟩
    | none => .error (.mismatch s .factor)

/-- Reads a factor and the blanks on both sides of it, where `inside` reads what stands between
parentheses. Parentheses that do not close are no factor. -/
def readWith (inside : Reader Formula) : Reader Factor := fun s =>
  match hp : Text.skipBlanks s with
  | '(' :: t => do
    match ← attempt (inside t) with
    | some ⟨e, ')' :: rest, h⟩ =>
      return ⟨.parens e, Text.skipBlanks rest, by
        have h₁ := Text.length_skipBlanks_le s
        have h₂ := Text.length_skipBlanks_le rest
        simp only [hp, List.length_cons] at h h₁
        omega⟩
    | _ => throw (.mismatch s .factor)
  | _ => readLeaf s

/-- Reads a factor with at most `limit` parentheses open at once. -/
def read : (limit : Nat) → Reader Factor
  | 0 => readWith fun _ => .error .tooDeep
  | limit + 1 => readWith (Chain.read (Chain.read (read limit)))

end Factor

/-- Reads a term with at most `limit` parentheses open at once. -/
def Term.read (limit : Nat) : Reader Term :=
  Chain.read (Factor.read limit)

/-- Reads a formula with at most `limit` parentheses open at once. -/
def Formula.read (limit : Nat) : Reader Formula :=
  Chain.read (Term.read limit)

/-! ## Reducing -/

/-- The value of a factor with at most `limit` parentheses nested. -/
def Factor.reduce (bindings : Bindings Float) (limit : Nat) (f : Factor) :
    Except ReduceFault Float :=
  f.fold (fun value _ => .ok value) (fun name _ => bindings.lookup name) inParens limit
where
  /-- Parentheses use up one level of the limit. -/
  inParens (e : Chain Additive (Chain Multiplicative (Nat → Except ReduceFault Float))) :
      Nat → Except ReduceFault Float
    | 0 => .error .tooDeep
    | limit + 1 => e.reduce fun t => t.reduce fun value => value limit

/-- The value of a term. -/
def Term.reduce (bindings : Bindings Float) (limit : Nat) (t : Term) : Except ReduceFault Float :=
  Chain.reduce (Factor.reduce bindings limit) t

/-- The value of a formula. -/
def Formula.reduce (bindings : Bindings Float) (limit : Nat) (e : Formula) :
    Except ReduceFault Float :=
  Chain.reduce (Term.reduce bindings limit) e

/-! ## Names, size and depth -/

/-- The names in a factor, from left to right. -/
def Factor.names : Factor → List String :=
  fold (fun _ => []) (fun name => [name]) (Chain.names (Chain.names id))

/-- The names in a term, from left to right. -/
def Term.names (t : Term) : List String :=
  Chain.names Factor.names t

/-- The names in a formula, from left to right. -/
def Formula.names (e : Formula) : List String :=
  Chain.names Term.names e

/-- How many nodes a factor has. -/
def Factor.size : Factor → Nat :=
  fold (fun _ => 1) (fun _ => 1) fun e => 1 + e.size (Chain.size id)

/-- How many nodes a term has. -/
def Term.size (t : Term) : Nat :=
  Chain.size Factor.size t

/-- How many nodes a formula has. -/
def Formula.size (e : Formula) : Nat :=
  Chain.size Term.size e

/-- How many levels a factor has. -/
def Factor.depth : Factor → Nat :=
  fold (fun _ => 1) (fun _ => 1) fun e => 1 + e.depth (Chain.depth id)

/-- How many levels a term has. -/
def Term.depth (t : Term) : Nat :=
  Chain.depth Factor.depth t

/-- How many levels a formula has. -/
def Formula.depth (e : Formula) : Nat :=
  Chain.depth Term.depth e

/-! ## Equality

Constants are equal as numbers, so `0.0` and `-0.0` are. -/

/-- Whether two factors are equal. -/
def Factor.equal : Factor → Factor → Bool :=
  fold
    (fun x g => match g with | .const y => x == y | _ => false)
    (fun x g => match g with | .var y => x == y | _ => false)
    (fun e g => match g with | .parens d => e.equal (Chain.equal fun eq => eq) d | _ => false)

instance : BEq Factor := ⟨Factor.equal⟩

instance : BEq Term := ⟨Chain.equal Factor.equal⟩

instance : BEq Formula := ⟨Chain.equal (Chain.equal Factor.equal)⟩

end Rulebook
