import Mathlib.Data.List.Forall2
import Rulebook.Proofs.Request.Fits
import Rulebook.Proofs.Value.Equal
import Rulebook.Service

/-!
# The checks of a request

Nine checks stand between a value and a request. `Request.checks` has them in order, each as a test
that looks at the value alone, and with the rejection of a value that fails it. Main statement:
unless an integer is too large for a double, the first check that fails gives the rejection, and a
value that passes all of them is the request that it holds. What no check looks at has no part in
the answer of the service.
-/

namespace Rulebook

/-! ## Kinds of data -/

namespace Value

/-- Whether a value is a record. -/
def isRecord : Value → Bool
  | record _ => true
  | _ => false

/-- Whether a value is a list of texts. -/
def isTexts : Value → Bool
  | list items => items.all fun
    | text _ => true
    | _ => false
  | _ => false

/-- Whether a value is a truth value. -/
def isTruth : Value → Bool
  | bool _ => true
  | _ => false

/-- Whether a value is a number; a truth value is none. -/
def isNumber : Value → Bool
  | int _ => true
  | float _ => true
  | _ => false

/-- What a value holds for a variable of a request, null if there is nothing. -/
def given (value : Value) (name : String) : Value :=
  (value.get "variables").get name

theorem isRecord_iff {value : Value} :
    value.isRecord = true ↔ ∃ fields, value = .record fields := by
  cases value <;> simp [isRecord]

theorem isTexts_eq (value : Value) : value.isTexts = value.texts?.isSome := by
  cases value with
  | list items =>
    induction items with
    | nil => rfl
    | cons item items ih =>
      rw [texts?_cons]
      cases item with
      | text t =>
        rw [Option.isSome_map, ← ih]
        rfl
      | _ => rfl
  | _ => rfl

end Value

/-! ## The checks -/

/-- A test of a value, and the rejection of a value that fails it. -/
structure Check where
  passes : Value → Bool
  rejection : Rejection

/-- The check of a variable of the matchers. -/
def Check.truth (name : String) : Check where
  passes value := (value.given name).isTruth
  rejection := .variableNotTruth name

/-- The check of a variable of the formulas. -/
def Check.number (name : String) : Check where
  passes value := (value.given name).isNumber
  rejection := .variableNotNumber name

namespace Variables

/-- The names of the variables of the matchers. -/
def truthNames : List String := ["A", "B", "C"]

/-- The names of the variables of the formulas. -/
def numberNames : List String := ["D", "E", "F"]

/-- The checks of the six variables, in order. -/
def checks : List Check :=
  truthNames.map .truth ++ numberNames.map .number

end Variables

namespace Request

/-- The checks of a request, in order. -/
def checks : List Check :=
  [⟨Value.isRecord, .requestNotObject⟩,
    ⟨fun value => (value.get "additional_rules").isTexts, .rulesNotTexts⟩,
    ⟨fun value => (value.get "variables").isRecord, .variablesNotObject⟩] ++
  Variables.checks

/-- The first check of a request that a value fails. -/
def firstFailing? (value : Value) : Option Check :=
  checks.find? fun check => !check.passes value

/-- The request has the rules that the value holds, in order, and its tables have the six variables
and no others: the truth values as they are, the numbers as doubles. -/
structure Carries (value : Value) (request : Request) : Prop where
  rules_eq : value.get "additional_rules" = .list (request.rules.map .text)
  truths : List.Forall₂ (fun name entry => entry.1 = name ∧ value.given name = .bool entry.2)
    Variables.truthNames request.values.truthTable
  numbers : List.Forall₂ (fun name entry => entry.1 = name ∧ (value.given name).IsNumber entry.2)
    Variables.numberNames request.values.numberTable

/-- Two values hold the same for every check: both are records or neither is, with the same
additional rules; both have a record of variables or neither has, with the same for each of the six.
Whatever else they hold may differ. -/
structure Alike (value value' : Value) : Prop where
  isRecord_eq : value.isRecord = value'.isRecord
  rules_eq : value.get "additional_rules" = value'.get "additional_rules"
  variables_eq : (value.get "variables").isRecord = (value'.get "variables").isRecord
  given_eq : ∀ name ∈ Variables.truthNames ++ Variables.numberNames,
    value.given name = value'.given name

end Request

/-! ## Checks in a row -/

/-- What comes of a value behind some checks in a row: a check that fails ends it with its
rejection, and behind the last one stands a result with a property. -/
inductive Guarded {α : Type} (value : Value) (P : α → Prop) :
    List Check → Except RequestFault α → Prop where
  | fails {check : Check} {checks : List Check} :
      check.passes value = false →
      Guarded value P (check :: checks) (.error (.rejected check.rejection))
  | passes {check : Check} {checks : List Check} {r : Except RequestFault α} :
      check.passes value = true → Guarded value P checks r → Guarded value P (check :: checks) r
  | done {a : α} : P a → Guarded value P [] (.ok a)

namespace Guarded

variable {α β : Type} {value : Value} {P : α → Prop} {Q : β → Prop} {check : Check}
  {checks more : List Check} {r x : Except RequestFault α} {f : α → Except RequestFault β}

/-- A step behind other checks comes to its own checks with a result of the step in front. -/
theorem bind (hx : Guarded value P checks x) (hf : ∀ a, P a → Guarded value Q more (f a)) :
    Guarded value Q (checks ++ more) (x >>= f) := by
  -- by the checks in front of the step, since one that fails keeps it from being taken
  induction hx with
  | fails hfail => exact .fails hfail
  | passes hpass _ ih => exact .passes hpass ih
  | done ha => exact hf _ ha

theorem bind_single (hx : Guarded value P [check] x)
    (hf : ∀ a, P a → Guarded value Q more (f a)) : Guarded value Q (check :: more) (x >>= f) :=
  hx.bind hf

/-- The first check that fails gives the rejection. -/
theorem eq_rejected (h : Guarded value P checks r)
    (hfirst : checks.find? (fun check => !check.passes value) = some check) :
    r = .error (.rejected check.rejection) := by
  induction h with
  | fails hfail =>
    rw [List.find?_cons_of_pos (by simpa using hfail)] at hfirst
    obtain rfl := Option.some.inj hfirst
    rfl
  | passes hpass _ ih =>
    rw [List.find?_cons_of_neg (by simpa using hpass)] at hfirst
    exact ih hfirst
  | done => cases hfirst

/-- If no check fails there is a result. -/
theorem exists_ok (h : Guarded value P checks r)
    (hpass : ∀ check ∈ checks, check.passes value = true) : ∃ a, r = .ok a := by
  induction h with
  | fails hfail =>
    rw [hpass _ List.mem_cons_self] at hfail
    cases hfail
  | passes _ _ ih => exact ih fun check hcheck => hpass check (List.mem_cons_of_mem _ hcheck)
  | done _ => exact ⟨_, rfl⟩

/-- Behind a result all checks have passed. -/
theorem passes_of_ok {a : α} (h : Guarded value P checks (.ok a)) :
    (∀ check ∈ checks, check.passes value = true) ∧ P a := by
  -- the induction is over any outcome, and those that are rejections fall away
  generalize hr : (Except.ok a : Except RequestFault α) = r at h
  induction h with
  | fails _ => cases hr
  | passes hpass _ ih => exact ⟨List.forall_mem_cons.mpr ⟨hpass, (ih hr).1⟩, (ih hr).2⟩
  | done ha =>
    obtain rfl := Except.ok.inj hr
    exact ⟨fun _ hcheck => absurd hcheck List.not_mem_nil, ha⟩

end Guarded

/-! ## The variables -/

namespace Variables

variable {value value' : Value} {entries entries' : List (String × Value)} {name : String}

theorem given_eq_field (h : value.get "variables" = .record entries) :
    value.given name = Value.field entries name := by
  rw [Value.given, h]
  rfl

theorem guarded_truthOf (h : value.get "variables" = .record entries) :
    Guarded value (fun truth => Value.field entries name = .bool truth) [.truth name]
      (truthOf entries name) := by
  have hpasses : (Check.truth name).passes value = (Value.field entries name).isTruth :=
    congrArg Value.isTruth (given_eq_field h)
  unfold truthOf
  cases hfield : Value.field entries name with
  | bool truth => exact .passes (hpasses.trans (congrArg Value.isTruth hfield)) (.done rfl)
  | _ => exact .fails (hpasses.trans (congrArg Value.isTruth hfield))

/-- Behind the check of a number only its conversion can fail, for an integer that is too large. -/
theorem guarded_numberOf (h : value.get "variables" = .record entries)
    (hlarge : ¬ (value.given name).IsTooLarge) :
    Guarded value (fun x => (Value.field entries name).IsNumber x) [.number name]
      (numberOf entries name) := by
  have hpasses : (Check.number name).passes value = (Value.field entries name).isNumber :=
    congrArg Value.isNumber (given_eq_field h)
  rw [given_eq_field h] at hlarge
  unfold numberOf
  cases hfield : Value.field entries name with
  | float x =>
    exact .passes (hpasses.trans (congrArg Value.isNumber hfield)) (.done (Value.IsNumber.float x))
  | int n =>
    refine .passes (hpasses.trans (congrArg Value.isNumber hfield)) ?_
    dsimp only
    cases hn : Number.ofInt? n with
    | some x => exact .done (Value.IsNumber.int hn)
    | none => exact absurd ⟨n, hfield, Number.ofInt?_eq_none_iff.mp hn⟩ hlarge
  | _ => exact .fails (hpasses.trans (congrArg Value.isNumber hfield))

theorem guarded_ofValue (h : value.get "variables" = .record entries)
    (hlarge : ∀ name ∈ numberNames, ¬ (value.given name).IsTooLarge) :
    Guarded value (Fits entries) checks (ofValue (.record entries)) := by
  obtain ⟨hd, he, hf⟩ : ¬ (value.given "D").IsTooLarge ∧ ¬ (value.given "E").IsTooLarge ∧
      ¬ (value.given "F").IsTooLarge := by
    simpa [numberNames] using hlarge
  -- one variable after the other, each behind its own check
  refine (guarded_truthOf h).bind_single fun a ha => ?_
  refine (guarded_truthOf h).bind_single fun b hb => ?_
  refine (guarded_truthOf h).bind_single fun c hc => ?_
  refine (guarded_numberOf h hd).bind_single fun d hd => ?_
  refine (guarded_numberOf h he).bind_single fun e he => ?_
  refine (guarded_numberOf h hf).bind_single fun f hf => ?_
  exact .done ⟨ha, hb, hc, hd, he, hf⟩

theorem truthOf_congr (h : Value.field entries name = Value.field entries' name) :
    truthOf entries name = truthOf entries' name := by
  rw [truthOf, truthOf, h]

theorem numberOf_congr (h : Value.field entries name = Value.field entries' name) :
    numberOf entries name = numberOf entries' name := by
  rw [numberOf, numberOf, h]

theorem ofValue_of_isRecord_eq_false (h : value.isRecord = false) :
    ofValue value = .error (.rejected .variablesNotObject) := by
  cases value with
  | record _ => cases h
  | _ => rfl

/-- The variables depend on six fields. -/
theorem ofValue_congr (hrecord : value.isRecord = value'.isRecord)
    (h : ∀ name ∈ truthNames ++ numberNames, value.get name = value'.get name) :
    ofValue value = ofValue value' := by
  cases hvalue : value.isRecord with
  | false =>
    rw [ofValue_of_isRecord_eq_false hvalue,
      ofValue_of_isRecord_eq_false (hrecord.symm.trans hvalue)]
  | true =>
    obtain ⟨entries, rfl⟩ := Value.isRecord_iff.mp hvalue
    obtain ⟨entries', rfl⟩ := Value.isRecord_iff.mp (hrecord.symm.trans hvalue)
    have hfield : ∀ name ∈ truthNames ++ numberNames,
        Value.field entries name = Value.field entries' name := h
    rw [ofValue, ofValue, truthOf_congr (hfield "A" (by decide)),
      truthOf_congr (hfield "B" (by decide)), truthOf_congr (hfield "C" (by decide)),
      numberOf_congr (hfield "D" (by decide)), numberOf_congr (hfield "E" (by decide)),
      numberOf_congr (hfield "F" (by decide))]

end Variables

/-! ## The request -/

namespace Request

variable {value value' : Value} {request : Request}

theorem guarded_ofValue (hlarge : ∀ name ∈ Variables.numberNames, ¬ (value.given name).IsTooLarge) :
    Guarded value (Fits value) checks (ofValue value) := by
  -- the rules are looked at before the variables, whatever these are
  cases value with
  | record fields =>
    refine .passes rfl ?_
    have htexts := Value.isTexts_eq (Value.field fields "additional_rules")
    rw [ofValue]
    cases hrules : (Value.field fields "additional_rules").texts? with
    | none => exact .fails (htexts.trans (congrArg Option.isSome hrules))
    | some rules =>
      refine .passes (htexts.trans (congrArg Option.isSome hrules)) ?_
      cases hvariables : Value.field fields "variables" with
      | record entries =>
        have hget : (Value.record fields).get "variables" = .record entries := hvariables
        refine .passes (congrArg Value.isRecord hget) ?_
        exact (Variables.guarded_ofValue hget hlarge).bind fun values hvalues =>
          .done (.mk (Value.texts?_eq_some_iff.mp hrules) hvariables hvalues)
      | _ => exact .fails (congrArg Value.isRecord hvariables)
  | _ => exact .fails rfl

theorem Fits.carries (h : Fits value request) : Carries value request := by
  obtain ⟨hrules, hvariables, ha, hb, hc, hd, he, hf⟩ := h
  rename_i fields entries rules values
  have hgiven : ∀ name, (Value.record fields).given name = Value.field entries name := fun _ =>
    Variables.given_eq_field hvariables
  refine ⟨hrules, ?_, ?_⟩
  · simp [Variables.truthNames, Variables.truthTable, hgiven, ha, hb, hc]
  · simp [Variables.numberNames, Variables.numberTable, hgiven, hd, he, hf]

theorem ofValue_of_isRecord_eq_false (h : value.isRecord = false) :
    ofValue value = .error (.rejected .requestNotObject) := by
  cases value with
  | record _ => cases h
  | _ => rfl

/-- What comes of a value depends on what the checks look at. -/
theorem ofValue_congr (h : Alike value value') : ofValue value = ofValue value' := by
  obtain ⟨hrecord, hrules, hvariables, hgiven⟩ := h
  cases hvalue : value.isRecord with
  | false =>
    rw [ofValue_of_isRecord_eq_false hvalue,
      ofValue_of_isRecord_eq_false (hrecord.symm.trans hvalue)]
  | true =>
    obtain ⟨fields, rfl⟩ := Value.isRecord_iff.mp hvalue
    obtain ⟨fields', rfl⟩ := Value.isRecord_iff.mp (hrecord.symm.trans hvalue)
    have htexts : Value.field fields "additional_rules" = Value.field fields' "additional_rules" :=
      hrules
    have hvalues : Variables.ofValue (Value.field fields "variables") =
        Variables.ofValue (Value.field fields' "variables") :=
      Variables.ofValue_congr hvariables hgiven
    rw [ofValue, ofValue, htexts, hvalues]

/-- Requests are checked in a fixed order, and nothing else in a value counts. Unless an integer is
too large, a value is a request exactly if it passes all checks, and then the request carries what
the value holds; else its rejection is that of the first check that it fails. And two values that
hold the same for every check get the same answer. -/
theorem requests_are_checked_in_order [Limits] :
    (∀ value : Value, (∀ name ∈ Variables.numberNames, ¬ (value.given name).IsTooLarge) →
      ((∃ request, ofValue value = .ok request) ↔
        ∀ check ∈ checks, check.passes value = true) ∧
      (∀ request, ofValue value = .ok request → Carries value request) ∧
      ∀ rejection, ofValue value = .error (.rejected rejection) ↔
        ∃ check, firstFailing? value = some check ∧ check.rejection = rejection) ∧
    ∀ value value' : Value, Alike value value' → Service.handle value = Service.handle value' := by
  refine ⟨fun value hlarge => ?_, fun value value' h => ?_⟩
  · have hguarded := guarded_ofValue hlarge
    refine ⟨⟨?_, hguarded.exists_ok⟩, fun request h => ?_, fun rejection => ⟨fun h => ?_, ?_⟩⟩
    · rintro ⟨request, h⟩
      rw [h] at hguarded
      exact hguarded.passes_of_ok.1
    · rw [h] at hguarded
      exact hguarded.passes_of_ok.2.carries
    · cases hfirst : firstFailing? value with
      | none =>
        -- then there would be a request and no rejection
        have hpass : ∀ check ∈ checks, check.passes value = true := by
          simpa [firstFailing?] using hfirst
        obtain ⟨request, hrequest⟩ := hguarded.exists_ok hpass
        cases h.symm.trans hrequest
      | some check =>
        have hrejected := h.symm.trans (hguarded.eq_rejected hfirst)
        obtain rfl : rejection = check.rejection := by simpa using hrejected
        exact ⟨check, rfl, rfl⟩
    · rintro ⟨check, hfirst, rfl⟩
      exact hguarded.eq_rejected hfirst
  · unfold Service.handle
    rw [ofValue_congr h]

/-- A value with further fields, no additional rules, and what it holds for E and F. -/
def sample (e f : Value) (more : List (String × Value)) : Value :=
  .record (more ++ [("additional_rules", .list []), ("variables", .record
    [("A", .bool true), ("B", .bool true), ("C", .bool false), ("D", .int (-3)), ("E", e),
      ("F", f)])])

/-- A truth value is no number, and E is missed before F. With numbers for both there is a request.
A note beside them changes nothing. -/
theorem requests_are_checked_in_order_sample :
    (∀ name ∈ Variables.numberNames, ¬ ((sample (.bool true) .null []).given name).IsTooLarge) ∧
      ofValue (sample (.bool true) .null []) = .error (.rejected (.variableNotNumber "E")) ∧
      (∀ name ∈ Variables.numberNames, ¬ ((sample (.int 4) (.float 42) []).given name).IsTooLarge) ∧
      (∃ request, ofValue (sample (.int 4) (.float 42) []) = .ok request) ∧
      Alike (sample (.int 4) (.float 42) [("note", .text "hot")]) (sample (.int 4) (.float 42) []) ∧
      Service.handle (sample (.int 4) (.float 42) [("note", .text "hot")]) =
        Service.handle (sample (.int 4) (.float 42) []) := by
  have hsmall : ∀ n : Int, n.natAbs ≤ 4 → ¬ (Value.int n).IsTooLarge := by
    rintro n hn ⟨m, hm, hlarge⟩
    obtain rfl := Value.int.inj hm
    exact absurd (Nat.le_trans hlarge hn) (by decide +kernel)
  have hmisfit : ∀ name ∈ Variables.numberNames,
      ¬ ((sample (.bool true) .null []).given name).IsTooLarge := by
    simp only [Variables.numberNames, List.forall_mem_cons]
    exact ⟨hsmall _ (by decide), nofun, nofun, nofun⟩
  have hfit : ∀ name ∈ Variables.numberNames,
      ¬ ((sample (.int 4) (.float 42) []).given name).IsTooLarge := by
    simp only [Variables.numberNames, List.forall_mem_cons]
    exact ⟨hsmall _ (by decide), hsmall _ (by decide), nofun, nofun⟩
  have halike : Alike (sample (.int 4) (.float 42) [("note", .text "hot")])
      (sample (.int 4) (.float 42) []) :=
    ⟨rfl, rfl, rfl, fun _ _ => rfl⟩
  refine ⟨hmisfit, ?_, hfit, ?_, halike, requests_are_checked_in_order.2 _ _ halike⟩
  · exact ((requests_are_checked_in_order.1 _ hmisfit).2.2 _).mpr ⟨.number "E", rfl, rfl⟩
  · exact (requests_are_checked_in_order.1 _ hfit).1.mpr (by decide)

end Request

end Rulebook
