import Rulebook.Proofs.Expression.Reads

/-!
# Reduction and the leaves of an expression

Reducing visits every leaf of an expression from left to right, those inside parentheses included,
whatever the value is by then. Main statement: a matcher, and a formula within the limit on
parentheses, has a value exactly if each of its names has one, and else the error names the first
leaf without a value. There is no other outcome.

What a part of an expression does is said by `LeavesDecide`. It holds of a single leaf, and it
passes from the operands of a chain to the chain, whose leaves are those of its operands in a row.
-/

namespace Rulebook

variable {ι α β γ ω : Type}

/-! ## Leaves -/

/-- The name that a literal looks up. -/
def Literal.name? : Literal → Option String
  | .const _ => none
  | .var name => some name
  | .negated name => some name

/-- The name that a factor looks up, if it is a leaf. -/
def Factor.name? : Factor → Option String
  | .var name => some name
  | _ => none

/-- The leaves of a matcher from left to right. -/
def Matcher.leaves (m : Matcher) : List Literal :=
  m.operands

/-- The leaves of a factor from left to right. -/
def Factor.leaves : Factor → List Factor :=
  fold (fun x => [.const x]) (fun name => [.var name]) fun e =>
    e.operands.flatMap fun t => t.operands.flatMap id

/-- The leaves of a term from left to right. -/
def Term.leaves (t : Term) : List Factor :=
  t.operands.flatMap Factor.leaves

/-- The leaves of a formula from left to right, those inside parentheses included. -/
def Formula.leaves (e : Formula) : List Factor :=
  e.operands.flatMap Term.leaves

theorem Factor.leaves_parens (e : Formula) : (Factor.parens e).leaves = Formula.leaves e := by
  unfold Factor.leaves
  rw [Factor.fold_parens]
  simp only [Chain.operands_map, List.flatMap_map]
  rfl

/-- The names of a matcher are those at its leaves. -/
theorem Matcher.mem_names_iff {m : Matcher} {name : String} :
    name ∈ m.names ↔ ∃ leaf ∈ m.leaves, leaf.name? = some name := by
  refine List.mem_flatMap.trans (exists_congr fun l => and_congr_right fun _ => ?_)
  cases l <;> simp [Literal.names, Literal.name?, eq_comm]

theorem Factor.mem_names_iff {f : Factor} {name : String} :
    name ∈ f.names ↔ ∃ leaf ∈ f.leaves, leaf.name? = some name := by
  -- by the factor; the names and the leaves in parentheses are those of the factors inside
  induction f using Factor.induct with
  | const x => simp [Factor.names, Factor.leaves, Factor.fold, Factor.name?]
  | var other => simp [Factor.names, Factor.leaves, Factor.fold, Factor.name?, eq_comm]
  | parens e ih =>
    rw [Factor.names_parens, Factor.leaves_parens]
    simp only [Formula.names, Term.names, Chain.names, Formula.leaves, Term.leaves,
      List.mem_flatMap]
    constructor
    · rintro ⟨t, ht, f, hf, hname⟩
      obtain ⟨leaf, hleaf, hleafname⟩ := (ih t ht f hf).mp hname
      exact ⟨leaf, ⟨t, ht, f, hf, hleaf⟩, hleafname⟩
    · rintro ⟨leaf, ⟨t, ht, f, hf, hleaf⟩, hleafname⟩
      exact ⟨t, ht, f, hf, (ih t ht f hf).mpr ⟨leaf, hleaf, hleafname⟩⟩

/-- The names of a formula are those at its leaves. -/
theorem Formula.mem_names_iff {e : Formula} {name : String} :
    name ∈ e.names ↔ ∃ leaf ∈ e.leaves, leaf.name? = some name := by
  rw [← Factor.names_parens, ← Factor.leaves_parens]
  exact Factor.mem_names_iff

/-! ## Outcomes by the leaves -/

/-- A leaf needs no value, or it has one. -/
def Settled (name? : ι → Option String) (bindings : Bindings α) (leaf : ι) : Prop :=
  ∀ name, name? leaf = some name → bindings name ≠ none

/-- An outcome is that of going over some leaves from left to right: a value if all are settled,
else the error of the first one that is not. -/
inductive LeavesDecide (name? : ι → Option String) (bindings : Bindings α) :
    List ι → Except ReduceFault β → Prop where
  | value {leaves : List ι} (x : β) :
      (∀ leaf ∈ leaves, Settled name? bindings leaf) → LeavesDecide name? bindings leaves (.ok x)
  | missing {before after : List ι} {leaf : ι} {name : String} :
      (∀ other ∈ before, Settled name? bindings other) → name? leaf = some name →
      bindings name = none →
      LeavesDecide name? bindings (before ++ leaf :: after) (.error (.undefinedVariable name))

namespace LeavesDecide

variable {name? : ι → Option String} {bindings : Bindings α} {leaves more : List ι} {leaf : ι}
  {name : String} {fault : ReduceFault} {x : β} {outcome : Except ReduceFault β}

theorem const (x : β) (h : name? leaf = none) : LeavesDecide name? bindings [leaf] (.ok x) := by
  refine .value x fun other hother => ?_
  obtain rfl := List.mem_singleton.mp hother
  intro name hname
  simp [h] at hname

theorem lookup (h : name? leaf = some name) :
    LeavesDecide name? bindings [leaf] (bindings.lookup name) := by
  unfold Bindings.lookup
  cases hb : bindings name with
  | some x =>
    refine .value x fun other hother => ?_
    obtain rfl := List.mem_singleton.mp hother
    intro other hother
    obtain rfl := Option.some.inj (h.symm.trans hother)
    simp [hb]
  | none =>
    have hbefore : ∀ other ∈ ([] : List ι), Settled name? bindings other :=
      fun other hother => absurd hother List.not_mem_nil
    exact .missing hbefore h hb

theorem map (h : LeavesDecide name? bindings leaves outcome) (f : β → γ) :
    LeavesDecide name? bindings leaves (outcome.map f) := by
  cases h with
  | value x hsettled => exact .value (f x) hsettled
  | missing hbefore hname hnone => exact .missing hbefore hname hnone

/-- Behind leaves that are all settled the others decide. -/
theorem append_of_ok (h : LeavesDecide name? bindings leaves (.ok x : Except ReduceFault β))
    {outcome : Except ReduceFault γ} (hmore : LeavesDecide name? bindings more outcome) :
    LeavesDecide name? bindings (leaves ++ more) outcome := by
  cases h with
  | value x hsettled =>
    cases hmore with
    | value y hmore =>
      refine .value y fun leaf hleaf => ?_
      rcases List.mem_append.mp hleaf with hleaf | hleaf
      · exact hsettled leaf hleaf
      · exact hmore leaf hleaf
    | @missing before after leaf name hbefore hname hnone =>
      rw [← List.append_assoc]
      refine .missing (fun other hother => ?_) hname hnone
      rcases List.mem_append.mp hother with hother | hother
      · exact hsettled other hother
      · exact hbefore other hother

/-- Behind a leaf without a value none is looked at. -/
theorem append_of_error
    (h : LeavesDecide name? bindings leaves (.error fault : Except ReduceFault β)) :
    LeavesDecide name? bindings (leaves ++ more) (.error fault : Except ReduceFault γ) := by
  cases h with
  | missing hbefore hname hnone =>
    rw [List.append_assoc, List.cons_append]
    exact .missing hbefore hname hnone

variable [Operator ω β] {f : γ → List ι} {value : γ → Except ReduceFault β}

theorem reduceFrom {tail : List (ω × γ)}
    (h : ∀ p ∈ tail, LeavesDecide name? bindings (f p.2) (value p.2)) (acc : β) :
    LeavesDecide name? bindings (tail.flatMap fun p => f p.2)
      (Chain.reduceFrom value acc tail) := by
  -- by the pairs: no value so far keeps the operand of the next one from being looked at
  induction tail generalizing acc with
  | nil => exact .value acc fun _ hleaf => absurd hleaf List.not_mem_nil
  | cons p tail ih =>
    obtain ⟨o, a⟩ := p
    have ha := h (o, a) List.mem_cons_self
    rw [Chain.reduceFrom_cons, List.flatMap_cons]
    cases hv : value a with
    | error fault =>
      simp only [hv] at ha
      exact ha.append_of_error
    | ok x =>
      simp only [hv] at ha
      exact ha.append_of_ok (ih (fun p hp => h p (List.mem_cons_of_mem _ hp)) _)

/-- The leaves of a chain are those of its operands in a row. -/
theorem chain {c : Chain ω γ}
    (h : ∀ a ∈ c.operands, LeavesDecide name? bindings (f a) (value a)) :
    LeavesDecide name? bindings (c.operands.flatMap f) (c.reduce value) := by
  have hhead := h c.head List.mem_cons_self
  have htail := reduceFrom (f := f) fun p hp =>
    h p.2 (List.mem_cons_of_mem _ (List.mem_map_of_mem hp))
  rw [Chain.reduce_eq, Chain.operands, List.flatMap_cons, List.flatMap_map]
  cases hv : value c.head with
  | error fault =>
    simp only [hv] at hhead
    exact hhead.append_of_error
  | ok x =>
    simp only [hv] at hhead
    exact hhead.append_of_ok (htail x)

end LeavesDecide

theorem Literal.leavesDecide (bindings : Bindings Bool) (l : Literal) :
    LeavesDecide name? bindings [l] (l.reduce bindings) := by
  cases l with
  | const value => exact .const value rfl
  | var name => exact .lookup rfl
  | negated name =>
    have hlookup : LeavesDecide name? bindings [negated name] (bindings.lookup name) := .lookup rfl
    exact hlookup.map (!·)

theorem Matcher.leavesDecide (bindings : Bindings Bool) (m : Matcher) :
    LeavesDecide Literal.name? bindings m.leaves (m.reduce bindings) := by
  have h : LeavesDecide Literal.name? bindings (m.operands.flatMap fun l => [l])
      (m.reduce bindings) :=
    .chain fun l _ => l.leavesDecide bindings
  rwa [List.flatMap_singleton'] at h

theorem Factor.leavesDecide (bindings : Bindings Float) (f : Factor) :
    LeavesDecide name? bindings f.leaves (f.reduceFreely bindings) := by
  -- by the factor; parentheses have the leaves and the value of what stands inside
  induction f using Factor.induct with
  | const x => exact .const x rfl
  | var name => exact .lookup rfl
  | parens e ih =>
    rw [leaves_parens, reduceFreely_parens]
    exact .chain fun t ht => .chain fun f hf => ih t ht f hf

/-- Within the limit on parentheses the leaves of a formula decide. -/
theorem Formula.leavesDecide (bindings : Bindings Float) {limit : Nat} {e : Formula}
    (h : e.nesting ≤ limit) :
    LeavesDecide Factor.name? bindings e.leaves (e.reduce bindings limit) := by
  rw [reduce_eq_reduceFreely h]
  exact .chain fun _ _ => .chain fun f _ => f.leavesDecide bindings

/-! ## The leftmost variable without a value -/

/-- An outcome is an error exactly if some name has no value. The error then names the leftmost of
the leaves without a value; otherwise the outcome is a value. -/
structure FailsOnLeftmost (name? : ι → Option String) (bindings : Bindings α)
    (names : List String) (leaves : List ι) (outcome : Except ReduceFault β) : Prop where
  undefined_iff : (∃ name, outcome = .error (.undefinedVariable name)) ↔
    ∃ name ∈ names, bindings name = none
  leftmost_iff : ∀ name, outcome = .error (.undefinedVariable name) ↔
    ∃ before leaf after, leaves = before ++ leaf :: after ∧ name? leaf = some name ∧
      bindings name = none ∧ ∀ other ∈ before, Settled name? bindings other
  value_iff : (∃ x, outcome = .ok x) ↔ ∀ name ∈ names, bindings name ≠ none
  ne_tooDeep : outcome ≠ .error .tooDeep

/-- There is one first entry without a property. -/
theorem eq_of_first {P : ι → Prop} {before before' after after' : List ι} {a b : ι}
    (h : before ++ a :: after = before' ++ b :: after') (hbefore : ∀ c ∈ before, P c) (ha : ¬ P a)
    (hbefore' : ∀ c ∈ before', P c) (hb : ¬ P b) : a = b := by
  -- by both beginnings at once: where one ends, so does the other
  induction before generalizing before' with
  | nil =>
    cases before' with
    | nil => exact (List.cons.inj h).1
    | cons c before' =>
      obtain ⟨rfl, -⟩ := List.cons.inj h
      exact absurd (hbefore' a List.mem_cons_self) ha
  | cons c before ih =>
    cases before' with
    | nil =>
      obtain ⟨rfl, -⟩ := List.cons.inj h
      exact absurd (hbefore c List.mem_cons_self) hb
    | cons d before' =>
      exact ih (List.cons.inj h).2 (fun c hc => hbefore c (List.mem_cons_of_mem _ hc))
        fun c hc => hbefore' c (List.mem_cons_of_mem _ hc)

theorem LeavesDecide.failsOnLeftmost {name? : ι → Option String} {bindings : Bindings α}
    {names : List String} {leaves : List ι} {outcome : Except ReduceFault β}
    (h : LeavesDecide name? bindings leaves outcome)
    (hnames : ∀ {name}, name ∈ names ↔ ∃ leaf ∈ leaves, name? leaf = some name) :
    FailsOnLeftmost name? bindings names leaves outcome := by
  cases h with
  | value x hsettled =>
    have hbound : ∀ name ∈ names, bindings name ≠ none := by
      intro name hname
      obtain ⟨leaf, hleaf, hleafname⟩ := hnames.mp hname
      exact hsettled leaf hleaf name hleafname
    refine ⟨iff_of_false ?_ ?_, fun name => iff_of_false nofun ?_, iff_of_true ⟨x, rfl⟩ hbound,
      nofun⟩
    · rintro ⟨name, h⟩
      cases h
    · rintro ⟨name, hname, hnone⟩
      exact hbound name hname hnone
    · rintro ⟨before, leaf, after, rfl, hname, hnone, -⟩
      exact hsettled leaf (by simp) name hname hnone
  | @missing before after leaf name hbefore hname hnone =>
    have hmem : name ∈ names := hnames.mpr ⟨leaf, by simp, hname⟩
    have hunsettled : ∀ {other : ι} {n : String}, name? other = some n → bindings n = none →
        ¬ Settled name? bindings other := fun hn hnone hsettled => hsettled _ hn hnone
    refine ⟨iff_of_true ⟨name, rfl⟩ ⟨name, hmem, hnone⟩, fun other => ⟨fun h => ?_, ?_⟩,
      iff_of_false ?_ fun h => h name hmem hnone, nofun⟩
    · obtain rfl : name = other := by simpa using h
      exact ⟨before, leaf, after, rfl, hname, hnone, hbefore⟩
    · -- both ways to split the leaves end at the first one that is not settled
      rintro ⟨before', leaf', after', heq, hname', hnone', hbefore'⟩
      obtain rfl := eq_of_first heq hbefore (hunsettled hname hnone) hbefore'
        (hunsettled hname' hnone')
      obtain rfl := Option.some.inj (hname.symm.trans hname')
      rfl
    · rintro ⟨x, h⟩
      cases h

/-- Reduction fails exactly on a missing variable and names the leftmost one, whatever the values of
the others are. So it is for every matcher, and for every formula whose parentheses are nested
within the limit; no operand is passed over because the value is known without it. -/
theorem reduce_fails_on_leftmost_missing :
    (∀ (bindings : Bindings Bool) (m : Matcher),
      FailsOnLeftmost Literal.name? bindings m.names m.leaves (m.reduce bindings)) ∧
    ∀ (bindings : Bindings Float) (limit : Nat) (e : Formula), e.nesting ≤ limit →
      FailsOnLeftmost Factor.name? bindings e.names e.leaves (e.reduce bindings limit) :=
  ⟨fun bindings m => (m.leavesDecide bindings).failsOnLeftmost Matcher.mem_names_iff,
    fun bindings _ _ h => (Formula.leavesDecide bindings h).failsOnLeftmost Formula.mem_names_iff⟩

/-- In `(D/E)*F`, where `D` alone has a value, `E` is the one that is missed. -/
theorem reduce_fails_on_leftmost_missing_inside :
    Formula.nesting ⟨⟨.parens ⟨⟨.var "D", [(.divide, .var "E")]⟩, []⟩,
        [(.multiply, .var "F")]⟩, []⟩ ≤ 1 ∧
      Formula.reduce (fun name => if name = "D" then some 0 else none) 1
        ⟨⟨.parens ⟨⟨.var "D", [(.divide, .var "E")]⟩, []⟩, [(.multiply, .var "F")]⟩, []⟩ =
          .error (.undefinedVariable "E") := by
  have hnesting : Formula.nesting ⟨⟨.parens ⟨⟨.var "D", [(.divide, .var "E")]⟩, []⟩,
      [(.multiply, .var "F")]⟩, []⟩ ≤ 1 := by decide
  refine ⟨hnesting, ?_⟩
  apply ((reduce_fails_on_leftmost_missing.2 _ 1 _ hnesting).leftmost_iff "E").mpr
  refine ⟨[.var "D"], .var "E", [.var "F"], rfl, rfl, rfl, fun other hother => ?_⟩
  obtain rfl := List.mem_singleton.mp hother
  intro name hname
  obtain rfl : "D" = name := by simpa [Factor.name?] using hname
  simp

/-- A conjunction with a false constant has no value either if its other operand has none. -/
example : Matcher.reduce (fun _ => none) ⟨.const false, [(.and, .var "MISSING")]⟩ =
    .error (.undefinedVariable "MISSING") := rfl

end Rulebook
