import Mathlib.Tactic.Common
import Rulebook.Proofs.Number.TooLarge
import Rulebook.Request

/-!
# Which values are requests

`Request.Fits` is the schema of requests, as a relation between a value and the request that it
stands for. A value without such a request is rejected with a reason, but for one case: where D, E
or F is an integer too large for a double, and everything that is checked before it is in order
(`Request.Overflows`), the conversion fails and no reason comes out.
-/

namespace Rulebook

/-! ## Steps that may fail -/

section Steps

variable {ε α β : Type} {x : Except ε α} {f : α → Except ε β}

theorem bind_eq_ok_iff {b : β} : (x >>= f) = .ok b ↔ ∃ a, x = .ok a ∧ f a = .ok b := by
  cases x <;> simp [bind, Except.bind]

theorem bind_eq_error_iff {e : ε} :
    (x >>= f) = .error e ↔ x = .error e ∨ ∃ a, x = .ok a ∧ f a = .error e := by
  cases x <;> simp [bind, Except.bind]

end Steps

/-! ## The schema -/

/-- The datum is a number, and has a nearest double. -/
inductive Value.IsNumber : Value → Float → Prop where
  | float (x : Float) : Value.IsNumber (.float x) x
  | int {n : Int} {x : Float} : Number.ofInt? n = some x → Value.IsNumber (.int n) x

/-- The datum is an integer without a finite nearest double. -/
def Value.IsTooLarge (value : Value) : Prop :=
  ∃ n, value = .int n ∧ Number.TooLarge n

/-- The fields hold the values of the six variables. -/
structure Variables.Fits (fields : List (String × Value)) (values : Variables) : Prop where
  a : Value.field fields "A" = .bool values.a
  b : Value.field fields "B" = .bool values.b
  c : Value.field fields "C" = .bool values.c
  d : (Value.field fields "D").IsNumber values.d
  e : (Value.field fields "E").IsNumber values.e
  f : (Value.field fields "F").IsNumber values.f

/-- The value holds the rules and the variables of a request. -/
inductive Request.Fits : Value → Request → Prop where
  | mk {fields entries : List (String × Value)} {rules : List RawText} {values : Variables} :
      Value.field fields "additional_rules" = .list (rules.map .text) →
      Value.field fields "variables" = .record entries →
      Variables.Fits entries values → Request.Fits (.record fields) ⟨rules, values⟩

/-- A, B and C are truth values, and of D, E and F the first one that is no number with a nearest
double is an integer that is too large. -/
inductive Variables.Overflows (fields : List (String × Value)) : Prop where
  | mk {a b c : Bool} {before after : List String} {name : String} :
      Value.field fields "A" = .bool a → Value.field fields "B" = .bool b →
      Value.field fields "C" = .bool c → ["D", "E", "F"] = before ++ name :: after →
      (∀ other ∈ before, ∃ x, (Value.field fields other).IsNumber x) →
      (Value.field fields name).IsTooLarge → Variables.Overflows fields

/-- The value is a request but for its variables, and these overflow. -/
inductive Request.Overflows : Value → Prop where
  | mk {fields entries : List (String × Value)} {rules : List RawText} :
      Value.field fields "additional_rules" = .list (rules.map .text) →
      Value.field fields "variables" = .record entries →
      Variables.Overflows entries → Request.Overflows (.record fields)

/-! ## Single fields -/

theorem Value.texts?_cons (item : Value) (items : List Value) :
    (Value.list (item :: items)).texts? =
      match item with
      | .text t => (Value.list items).texts?.map (t :: ·)
      | _ => none := by
  cases item with
  | text t =>
    simp only [Value.texts?, List.mapM_cons, Option.map_eq_bind]
    rfl
  | _ => simp [Value.texts?, List.mapM_cons]

theorem Value.texts?_list {items : List Value} {rules : List RawText} :
    (Value.list items).texts? = some rules ↔ items = rules.map .text := by
  induction items generalizing rules with
  | nil => cases rules <;> simp [Value.texts?]
  | cons item items ih =>
    rw [Value.texts?_cons]
    cases item with
    | text t =>
      simp only [Option.map_eq_some_iff, ih]
      cases rules with
      | nil => simp
      | cons rule rules => simp [and_comm]
    | _ => cases rules <;> simp

theorem Value.texts?_eq_some_iff {value : Value} {rules : List RawText} :
    value.texts? = some rules ↔ value = .list (rules.map .text) := by
  cases value with
  | list items => simp [Value.texts?_list]
  | _ => simp [Value.texts?]

namespace Variables

variable {fields : List (String × Value)} {name : String}

theorem truthOf_eq_ok_iff {truth : Bool} :
    truthOf fields name = .ok truth ↔ Value.field fields name = .bool truth := by
  unfold truthOf
  cases Value.field fields name <;> simp

theorem truthOf_ne_overflow : truthOf fields name ≠ .error .overflow := by
  unfold truthOf
  cases Value.field fields name <;> simp

theorem numberOf_eq_ok_iff {x : Float} :
    numberOf fields name = .ok x ↔ (Value.field fields name).IsNumber x := by
  unfold numberOf
  constructor
  · intro h
    split at h
    · obtain rfl := Except.ok.inj h
      rename_i hfield
      exact hfield ▸ .float _
    · rename_i n hfield
      split at h
      · rename_i hn
        obtain rfl := Except.ok.inj h
        exact hfield ▸ .int hn
      · simp at h
    · simp at h
  · intro h
    generalize Value.field fields name = value at h
    cases h with
    | float x => rfl
    | int hn => simp only [hn]

theorem numberOf_eq_overflow_iff :
    numberOf fields name = .error .overflow ↔ (Value.field fields name).IsTooLarge := by
  unfold numberOf Value.IsTooLarge
  simp only [← Number.ofInt?_eq_none_iff]
  cases Value.field fields name with
  | int n => cases h : Number.ofInt? n <;> simp [h]
  | _ => simp

/-! ## Variables and requests -/

theorem ofValue_eq_ok_iff {values : Variables} :
    ofValue (.record fields) = .ok values ↔ Fits fields values := by
  simp only [ofValue, bind_eq_ok_iff, truthOf_eq_ok_iff, numberOf_eq_ok_iff, pure, Except.pure,
    Except.ok.injEq]
  constructor
  · rintro ⟨a, ha, b, hb, c, hc, d, hd, e, he, f, hf, rfl⟩
    exact ⟨ha, hb, hc, hd, he, hf⟩
  · rintro ⟨ha, hb, hc, hd, he, hf⟩
    exact ⟨_, ha, _, hb, _, hc, _, hd, _, he, _, hf, rfl⟩

theorem ofValue_eq_overflow_iff :
    ofValue (.record fields) = .error .overflow ↔ Overflows fields := by
  simp only [ofValue, bind_eq_error_iff, truthOf_eq_ok_iff, numberOf_eq_ok_iff, pure, Except.pure,
    truthOf_ne_overflow, numberOf_eq_overflow_iff, false_or, reduceCtorEq, and_false, exists_false,
    or_false]
  constructor
  · rintro ⟨a, ha, b, hb, c, hc, h⟩
    rcases h with hd | ⟨d, hd, he | ⟨e, he, hf⟩⟩
    · exact @Overflows.mk fields a b c [] ["E", "F"] "D" ha hb hc rfl (by simp) hd
    · exact @Overflows.mk fields a b c ["D"] ["F"] "E" ha hb hc rfl (by simpa using ⟨d, hd⟩) he
    · exact @Overflows.mk fields a b c ["D", "E"] [] "F" ha hb hc rfl
        (by simpa using ⟨⟨d, hd⟩, e, he⟩) hf
  · rintro ⟨ha, hb, hc, hnames, hbefore, hname⟩
    rename_i a b c before after name
    refine ⟨a, ha, b, hb, c, hc, ?_⟩
    -- the integer stands for D, for E behind a number, or for F behind two
    rcases before with _ | ⟨d, _ | ⟨e, _ | ⟨f, before⟩⟩⟩
    · obtain ⟨rfl, -⟩ := List.cons.inj hnames
      exact .inl hname
    · simp only [List.cons_append, List.nil_append, List.cons.injEq] at hnames
      obtain ⟨rfl, rfl, -⟩ := hnames
      obtain ⟨x, hd⟩ := hbefore "D" (by simp)
      exact .inr ⟨x, hd, .inl hname⟩
    · simp only [List.cons_append, List.nil_append, List.cons.injEq] at hnames
      obtain ⟨rfl, rfl, rfl, -⟩ := hnames
      obtain ⟨x, hd⟩ := hbefore "D" (by simp)
      obtain ⟨y, he⟩ := hbefore "E" (by simp)
      exact .inr ⟨x, hd, .inr ⟨y, he, hname⟩⟩
    · simp at hnames

end Variables

namespace Request

variable {value : Value} {request : Request}

theorem ofValue_eq_ok_iff : ofValue value = .ok request ↔ Fits value request := by
  constructor
  · intro h
    cases value with
    | record fields =>
      simp only [ofValue] at h
      split at h
      · simp at h
      · rename_i rules hrules
        rw [bind_eq_ok_iff] at h
        obtain ⟨values, hvalues, hrequest⟩ := h
        obtain rfl := Except.ok.inj hrequest
        cases hfield : Value.field fields "variables" with
        | record entries =>
          rw [hfield] at hvalues
          exact .mk (Value.texts?_eq_some_iff.mp hrules) hfield
            (Variables.ofValue_eq_ok_iff.mp hvalues)
        | _ => simp [hfield, Variables.ofValue] at hvalues
    | _ => simp [ofValue] at h
  · rintro ⟨hrules, hvariables, hvalues⟩
    simp only [ofValue, Value.texts?_eq_some_iff.mpr hrules, hvariables,
      Variables.ofValue_eq_ok_iff.mpr hvalues]
    rfl

theorem ofValue_eq_overflow_iff : ofValue value = .error .overflow ↔ Overflows value := by
  constructor
  · intro h
    cases value with
    | record fields =>
      simp only [ofValue] at h
      split at h
      · simp at h
      · rename_i rules hrules
        rw [bind_eq_error_iff] at h
        rcases h with h | ⟨values, -, h⟩
        · cases hfield : Value.field fields "variables" with
          | record entries =>
            rw [hfield] at h
            exact .mk (Value.texts?_eq_some_iff.mp hrules) hfield
              (Variables.ofValue_eq_overflow_iff.mp h)
          | _ => simp [hfield, Variables.ofValue] at h
        · simp [pure, Except.pure] at h
    | _ => simp [ofValue] at h
  · rintro ⟨hrules, hvariables, hvalues⟩
    simp only [ofValue, Value.texts?_eq_some_iff.mpr hrules, hvariables,
      Variables.ofValue_eq_overflow_iff.mpr hvalues]
    rfl

/-- A value stands for one request at most. -/
theorem Fits.unique {request' : Request} (h : Fits value request) (h' : Fits value request') :
    request = request' :=
  Except.ok.inj ((ofValue_eq_ok_iff.mpr h).symm.trans (ofValue_eq_ok_iff.mpr h'))

end Request

end Rulebook
