import Rulebook.Proofs.Request.Fits
import Rulebook.Proofs.Store.Adding
import Rulebook.Proofs.Store.Outcome
import Rulebook.Service

/-!
# The answers of the service

What a sender may rely on (`Service.Answers`): status 400 and a reason for a value that is no
request, 422 and the message of the error for a request whose rules do not all read or that has no
solution, else 200 with the label and the number. Main statement: every value gets such an answer
but for those in which an integer that is too large is converted. These get none at all.
-/

namespace Rulebook

open Store (Reads)

/-! ## The outcome of a request -/

/-- The outcome of a request: the error of the first rule that does not read, else that of solving
with the base rules and those of the request. -/
inductive Request.Outcome [Limits] (request : Request) : Except SolveError Solution → Prop where
  | unread {before after : List RawText} {text : RawText} {entries : List Store.Entry}
      {e : ParseError} :
      request.rules = before ++ text :: after → Reads before entries →
      Store.Entry.ofText text = .error e → Request.Outcome request (.error (.parse e))
  | solved {entries : List Store.Entry} {r : Except SolveError Solution} :
      Reads request.rules entries →
      Store.Solves (Store.base.pushAll entries) request.values.truths request.values.numbers r →
      Request.Outcome request r

namespace Request

variable [Limits] {request : Request} {r : Except SolveError Solution}

theorem Outcome.solve_eq (h : request.Outcome r) : request.solve = r := by
  unfold Request.solve Request.store Store.extend
  cases h with
  | unread hrules hbefore he =>
    rw [hrules, Store.addAll_of_error_behind hbefore he]
    rfl
  | solved hreads hsolves =>
    rw [Store.addAll_of_reads hreads]
    exact hsolves.solve_eq

theorem exists_outcome (request : Request) : ∃ r, request.Outcome r := by
  rcases Store.reads_or request.rules with ⟨entries, hreads⟩ | ⟨_, _, _, _, e, hrules, hbefore, he⟩
  · obtain ⟨r, hr⟩ := Store.exists_solves (Store.base.pushAll entries) request.values.truths
      request.values.numbers
    exact ⟨r, .solved hreads hr⟩
  · exact ⟨.error (.parse e), .unread hrules hbefore he⟩

/-- A request has one outcome, the one that is computed. -/
theorem solve_eq_iff_outcome : request.solve = r ↔ request.Outcome r := by
  refine ⟨?_, Outcome.solve_eq⟩
  rintro rfl
  -- there is some outcome, and it is the one that is computed
  obtain ⟨r, hr⟩ := exists_outcome request
  rwa [hr.solve_eq]

end Request

/-! ## Numbers in an answer -/

/-- A double is finite if it is neither infinite nor no number. -/
theorem isFinite_eq (x : Float) : x.isFinite = !(x.isNaN || x.isInf) := by
  unfold Float.isFinite Float.isNaN Float.isInf
  unfold Float.Model.isFinite Float.Model.isNaN Float.Model.isInf
  cases x.toModel.unpack <;> rfl

theorem Response.finiteOrNull_eq (x : Float) :
    Response.finiteOrNull x = if x.isNaN ∨ x.isInf then .null else .float x := by
  unfold Response.finiteOrNull
  rw [isFinite_eq]
  cases x.isNaN <;> cases x.isInf <;> rfl

/-! ## The promise -/

namespace Service

section AnyLimit

variable [Limits]

/-- What a sender may rely on in the answer to a value. -/
structure Answers (value : Value) (response : Response) : Prop where
  rejected_iff : response.status = 400 ↔ ¬ ∃ request, Request.Fits value request
  unsolved_iff : response.status = 422 ↔
    ∃ request e, Request.Fits value request ∧ request.Outcome (.error e)
  solved_iff : response.status = 200 ↔
    ∃ request s, Request.Fits value request ∧ request.Outcome (.ok s)
  rejected_body : response.status = 400 →
    ∃ rejection : Rejection, response.body = .record [("reason", .text rejection.reason)]
  unsolved_body : ∀ request e, Request.Fits value request → request.Outcome (.error e) →
    response.body = .record [("reason", .text e.message)]
  solved_body : ∀ request s, Request.Fits value request → request.Outcome (.ok s) →
    response.body = .record [("H", .text s.label),
      ("K", if s.value.isNaN ∨ s.value.isInf then .null else .float s.value)]

variable {value : Value} {request : Request}

theorem answers_rejected (h : ¬ ∃ request, Request.Fits value request) (rejection : Rejection) :
    Answers value (.rejected rejection) where
  rejected_iff := iff_of_true rfl h
  unsolved_iff := iff_of_false (by simp [Response.status])
    fun ⟨request, _, hfits, _⟩ => h ⟨request, hfits⟩
  solved_iff := iff_of_false (by simp [Response.status])
    fun ⟨request, _, hfits, _⟩ => h ⟨request, hfits⟩
  rejected_body _ := ⟨rejection, rfl⟩
  unsolved_body request _ hfits _ := absurd ⟨request, hfits⟩ h
  solved_body request _ hfits _ := absurd ⟨request, hfits⟩ h

/-- Where a value stands for a request, its outcome is the one that is computed for it. -/
theorem exists_outcome_iff (h : Request.Fits value request) {α : Type}
    (f : α → Except SolveError Solution) :
    (∃ request a, Request.Fits value request ∧ request.Outcome (f a)) ↔
      ∃ a, request.solve = f a := by
  constructor
  · rintro ⟨request', a, h', houtcome⟩
    obtain rfl := h'.unique h
    exact ⟨a, houtcome.solve_eq⟩
  · rintro ⟨a, ha⟩
    exact ⟨request, a, h, Request.solve_eq_iff_outcome.mp ha⟩

theorem answers_answer (h : Request.Fits value request) : Answers value request.answer where
  rejected_iff := by
    refine iff_of_false ?_ (not_not.mpr ⟨request, h⟩)
    unfold Request.answer
    cases request.solve <;> simp [Response.status]
  unsolved_iff := by
    rw [exists_outcome_iff h]
    unfold Request.answer
    cases request.solve <;> simp [Response.status]
  solved_iff := by
    rw [exists_outcome_iff h]
    unfold Request.answer
    cases request.solve <;> simp [Response.status]
  rejected_body := by
    unfold Request.answer
    cases request.solve <;> simp [Response.status]
  unsolved_body := by
    intro request' e h' he
    obtain rfl := h'.unique h
    rw [Request.answer, he.solve_eq]
    rfl
  solved_body := by
    intro request' s h' hs
    obtain rfl := h'.unique h
    rw [Request.answer, hs.solve_eq]
    simp only [Response.body, Response.finiteOrNull_eq]

/-! ## Every value but some -/

theorem handle_eq_integer_iff : handle value = .error .integer ↔ Request.Overflows value := by
  rw [← Request.ofValue_eq_overflow_iff]
  unfold Service.handle
  cases Request.ofValue value with
  | ok request => simp
  | error fault => cases fault <;> simp

/-- Every value is answered as promised, but for those in which an integer that is too large is
converted; for these there is no answer. -/
theorem handle_overflows_or_answers (value : Value) :
    (Request.Overflows value ∧ handle value = .error .integer) ∨
      (¬ Request.Overflows value ∧
        ∃ response, handle value = .ok response ∧ Answers value response) := by
  by_cases hover : Request.Overflows value
  · exact .inl ⟨hover, handle_eq_integer_iff.mpr hover⟩
  · refine .inr ⟨hover, ?_⟩
    unfold Service.handle
    cases hr : Request.ofValue value with
    | ok request => exact ⟨_, rfl, answers_answer (Request.ofValue_eq_ok_iff.mp hr)⟩
    | error fault =>
      cases fault with
      | rejected rejection =>
        refine ⟨_, rfl, answers_rejected ?_ rejection⟩
        -- a request that the value stood for would have been read
        rintro ⟨request, hfits⟩
        simp [Request.ofValue_eq_ok_iff.mpr hfits] at hr
      | overflow => exact absurd (Request.ofValue_eq_overflow_iff.mp hr) hover

end AnyLimit

/-- A request without an answer. -/
theorem handle_ten_pow_ne_ok :
    ¬ ∃ response, handle (.record [("additional_rules", .list []), ("variables", .record
      [("A", .bool true), ("B", .bool true), ("C", .bool false), ("D", .int (10 ^ 400 : Nat)),
        ("E", .int 1), ("F", .int 1)])]) = .ok response := by
  have hlarge : Number.TooLarge ((10 ^ 400 : Nat) : Int) := by
    unfold Number.TooLarge
    rw [Int.natAbs_natCast]
    decide +kernel
  rintro ⟨response, h⟩
  rw [handle_eq_integer_iff.mpr] at h
  · simp at h
  · exact @Request.Overflows.mk _ _ [] rfl rfl
      (@Variables.Overflows.mk _ true true false [] ["E", "F"] "D" rfl rfl rfl rfl
        (fun _ hmem => absurd hmem List.not_mem_nil) ⟨_, rfl, hlarge⟩)

end Service

end Rulebook
