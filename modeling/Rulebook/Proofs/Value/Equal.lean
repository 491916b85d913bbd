import Rulebook.Number.Shortest
import Rulebook.Proofs.Value.Fold

/-!
# Equal data

When two values are the same datum: numbers by what they stand for, in whatever way they are held,
where the truth values are one and zero; lists item by item; records by their fields in any order.
A value that is no datum of a request or a rule is not equal to any.
-/

namespace Rulebook.Value

/-! ## Numbers -/

/-- What a value is as a number: an integer or a double. -/
def number? : Value → Option (Int ⊕ Float)
  | .bool value => some (.inl value.toInt)
  | .int value => some (.inl value)
  | .float value => some (.inr value)
  | _ => none

/-- Whether a double stands for an integer exactly. -/
def standsFor (x : Float) (n : Int) : Bool :=
  let bits := x.toBits.toNat
  let magnitude := bits % Number.signBit
  let (num, den) := Number.ratioOfBits magnitude
  magnitude < Number.infinityBits && num == n.natAbs * den &&
    (n == 0 || decide (n < 0) == decide (Number.signBit ≤ bits))

/-- Whether two numbers are equal. -/
def sameNumber : Int ⊕ Float → Int ⊕ Float → Bool
  | .inl m, .inl n => m == n
  | .inr x, .inr y => x == y
  | .inl n, .inr x => standsFor x n
  | .inr x, .inl n => standsFor x n

/-! ## Parts -/

/-- What is held under a name, if anything; of two entries with one name the later counts. -/
def last? {β : Type} (name : String) (entries : List (String × β)) : Option β :=
  (entries.reverse.find? fun f => f.1 == name).map Prod.snd

/-- What a value has under a name; what is no record has nothing there. -/
def get (v : Value) (name : String) : Value :=
  match v with
  | .record fields => field fields name
  | _ => .null

/-! ## Equality -/

/-- Whether two scalars are equal. -/
def equalScalar : Value → Value → Bool
  | .null, .null => true
  | .text s, .text t => s == t
  | v, w =>
    match v.number?, w.number? with
    | some m, some n => sameNumber m n
    | _, _ => false

/-- Whether a list has as many items as there are tests, and each item passes its test. -/
def equalItems (tests : List (Value → Bool)) : Value → Bool
  | .list items => tests.length == items.length && (tests.zip items).all fun p => p.1 p.2
  | _ => false

/-- Whether a record has the fields that there are tests for and no others, and each field passes
its test. -/
def equalFields (tests : List (String × (Value → Bool))) : Value → Bool
  | .record fields =>
    (tests.map Prod.fst ++ fields.map Prod.fst).all fun name =>
      (last? name tests).any fun test => (last? name fields).any test
  | _ => false

/-- Whether two values are the same datum. -/
def equal : Value → Value → Bool :=
  fold equalScalar equalItems fun _ tests => equalFields tests

instance : BEq Value := ⟨equal⟩

/-! ## Laws -/

variable {fs gs : List (String × Value)} {name : String} {v w : Value}

theorem beq_text (s t : String) : (text s == text t) = (s == t) := by
  show (RawText.ofString s == RawText.ofString t) = (s == t)
  rw [Bool.eq_iff_iff, beq_iff_eq, beq_iff_eq]
  exact ⟨RawText.ofString_injective, congrArg _⟩

/-- Lists are equal when they are of one length and item by item. -/
theorem beq_eq_all_zip {α : Type} [BEq α] (l m : List α) :
    (l == m) = (l.length == m.length && (l.zip m).all fun p => p.1 == p.2) := by
  induction l generalizing m with
  | nil => cases m <;> rfl
  | cons a l ih =>
    cases m with
    | nil => rfl
    | cons b m =>
      rw [List.cons_beq_cons, ih, Bool.and_left_comm]
      simp

theorem beq_list (vs ws : List Value) : (list vs == list ws) = (vs == ws) := by
  show (list vs).equal (list ws) = _
  rw [equal, fold_list, equalItems, List.length_map, List.zip_map_left, List.all_map,
    beq_eq_all_zip]
  rfl

theorem last?_map {β γ : Type} (f : β → γ) (name : String) (entries : List (String × β)) :
    last? name (entries.map fun p => (p.1, f p.2)) = (last? name entries).map f := by
  simp [last?, ← List.map_reverse, List.find?_map, Function.comp_def]

/-- Records are equal when they have equal data under each name that one of them has. -/
theorem beq_record :
    (record fs == record gs) = (fs.map Prod.fst ++ gs.map Prod.fst).all fun name =>
      (last? name fs).any fun v => (last? name gs).any fun w => v == w := by
  show (record fs).equal (record gs) = _
  rw [equal, fold_record, equalFields, List.map_map]
  simp only [last?_map, Option.any_map]
  rfl

theorem mem_of_last? {β : Type} {entries : List (String × β)} {b : β}
    (h : last? name entries = some b) : name ∈ entries.map Prod.fst := by
  obtain ⟨f, hf, -⟩ := Option.map_eq_some_iff.mp h
  obtain rfl : f.1 = name := by simpa using List.find?_some hf
  exact List.mem_map_of_mem (List.mem_reverse.mp (List.mem_of_find?_eq_some hf))

theorem field_eq_last? (fields : List (String × Value)) (name : String) :
    field fields name = (last? name fields).getD .null := by
  unfold field last?
  cases fields.reverse.find? fun f => f.1 == name <;> rfl

/-- Equal records have equal fields, those included that are not there. -/
theorem beq_field (h : (record fs == record gs) = true) (name : String) :
    (field fs name == field gs name) = true := by
  rw [beq_record, List.all_eq_true] at h
  rw [field_eq_last?, field_eq_last?]
  cases hf : last? name fs with
  | some v =>
    have hname := h name (List.mem_append_left _ (mem_of_last? hf))
    cases hg : last? name gs with
    | some w => simpa [hf, hg] using hname
    | none => simp [hf, hg] at hname
  | none =>
    cases hg : last? name gs with
    | some w =>
      have hname := h name (List.mem_append_right _ (mem_of_last? hg))
      simp [hf] at hname
    | none => rfl

/-- Equal data have equal parts. -/
theorem beq_get (h : (v == w) = true) (name : String) : (v.get name == w.get name) = true := by
  cases v with
  | record fs =>
    cases w with
    | record gs => exact beq_field h name
    | _ => contradiction
  | _ =>
    -- what is no record has nothing under any name, and is not equal to a record
    cases w with
    | record gs => contradiction
    | _ => rfl

/-- The number one, the truth value and the double are one datum, and a text is another. -/
example : (bool true == float 1) = true ∧ (int 1 == float 1) = true ∧
    (int 1 == text "1") = false := by
  decide

end Rulebook.Value
