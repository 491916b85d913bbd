import Rulebook.CommandLine.Run
import Rulebook.Proofs.Request.Fits

/-!
# What a call loads

A call finds the value of its request, and what comes of a file of further rules, on a host that may
fail in many ways. Main statement: behind the rules of the request the call puts those of the file,
and without the latter it loads nothing. Where the value is no request, that alone is to blame.
-/

namespace Rulebook.CommandLine

variable {ε : Type} {host : Host ε} {o : Options} {value : Value} {text : String}
  {found : Except (Failure Rejection ε) (List RawText)}

/-- The call reads the value as its request. -/
def Options.Decodes (o : Options) (host : Host ε) (value : Value) : Prop :=
  ∃ text, host.text o.request = .ok text ∧ host.decode o.requestFormat text = .ok value

/-- The call names no file of further rules. -/
def Options.NoFile (o : Options) : Prop :=
  o.rules = none ∨ o.rules = some ""

/-- The call names a file of further rules, and this comes of reading it behind the request. -/
def Options.ReadsFile (o : Options) (host : Host ε) (text : Except (Failure Rejection ε) String) :
    Prop :=
  ∃ path, o.rules = some path ∧ path ≠ "" ∧ (host.after o.request).text path = text

/-- What comes of the file of further rules, be there one or not: some rules, or why there are
none. -/
inductive Options.FindsRules (o : Options) (host : Host ε) :
    Except (Failure Rejection ε) (List RawText) → Prop where
  | noFile : o.NoFile → FindsRules o host (.ok [])
  | unreadable {failure : Failure Rejection ε} :
      o.ReadsFile host (.error failure) → FindsRules o host (.error failure)
  | undecodable {text : String} {complaint : Option String} :
      o.ReadsFile host (.ok text) → host.decode .yaml text = .error (.known complaint) →
      FindsRules o host (.error (.known (.malformed .yaml complaint)))
  | escapes {text : String} {error : ε} :
      o.ReadsFile host (.ok text) → host.decode .yaml text = .error (.escapes error) →
      FindsRules o host (.error (.escapes error))
  | empty {text : String} :
      o.ReadsFile host (.ok text) → host.decode .yaml text = .ok .null →
      FindsRules o host (.ok [])
  | rules {text : String} {more : List RawText} :
      o.ReadsFile host (.ok text) → host.decode .yaml text = .ok (.list (more.map .text)) →
      FindsRules o host (.ok more)
  | notTexts {text : String} {value : Value} :
      o.ReadsFile host (.ok text) → host.decode .yaml text = .ok value → value ≠ .null →
      (∀ more : List RawText, value ≠ .list (more.map .text)) →
      FindsRules o host (.error (.known .fileNotTexts))

/-- Something comes of the file in any case. -/
theorem exists_findsRules (o : Options) (host : Host ε) : ∃ found, o.FindsRules host found := by
  cases hpath : o.rules with
  | none => exact ⟨_, .noFile (.inl hpath)⟩
  | some path =>
    by_cases hempty : path = ""
    · exact ⟨_, .noFile (.inr (hempty ▸ hpath))⟩
    · cases htext : (host.after o.request).text path with
      | error failure => exact ⟨_, .unreadable ⟨path, hpath, hempty, htext⟩⟩
      | ok text =>
        have hfile : o.ReadsFile host (.ok text) := ⟨path, hpath, hempty, htext⟩
        cases hdecode : host.decode .yaml text with
        | error failure =>
          cases failure with
          | known complaint => exact ⟨_, .undecodable hfile hdecode⟩
          | escapes error => exact ⟨_, .escapes hfile hdecode⟩
        | ok value =>
          by_cases hnull : value = .null
          · exact ⟨_, .empty hfile (hnull ▸ hdecode)⟩
          · cases htexts : value.texts? with
            | some more =>
              rw [Value.texts?_eq_some_iff.mp htexts] at hdecode
              exact ⟨_, .rules hfile hdecode⟩
            | none =>
              refine ⟨_, .notTexts hfile hdecode hnull fun more heq => ?_⟩
              rw [Value.texts?_eq_some_iff.mpr heq] at htexts
              cases htexts

/-! ## Loading -/

/-- What comes of the file, as a call computes it. -/
def Options.moreRules (o : Options) (host : Host ε) : Except (Failure Rejection ε) (List RawText) :=
  match o.rules with
  | none => .ok []
  | some path =>
    if path.isEmpty then .ok []
    else do host.rules (← (host.after o.request).text path)

/-- A call looks at the file only if the value is a request. -/
theorem load_eq (hvalue : o.Decodes host value) :
    o.load host = do
      let request ← (Request.ofValue value).mapError host.failure
      let more ← o.moreRules host
      return { request with rules := request.rules ++ more } := by
  obtain ⟨text, htext, hdecode⟩ := hvalue
  unfold Options.load Options.moreRules Codec.request Codec.read
  simp only [htext, hdecode, Except.mapError, bind, Except.bind]
  cases Request.ofValue value with
  | error fault => rfl
  | ok request =>
    -- no path and the empty one put nothing behind the rules
    cases o.rules with
    | none => simp [pure, Except.pure]
    | some path =>
      cases hempty : path.isEmpty with
      | true => simp [pure, Except.pure, hempty]
      | false =>
        simp only [hempty]
        cases (host.after o.request).text path <;> rfl

theorem rules_of_failure {failure : Failure (Option String) ε}
    (h : host.decode .yaml text = .error failure) :
    host.rules text = .error (failure.map (.malformed .yaml)) := by
  unfold Codec.rules Codec.read
  rw [h]
  rfl

theorem rules_of_value (h : host.decode .yaml text = .ok value) :
    host.rules text = (rulesOfValue value).mapError .known := by
  unfold Codec.rules Codec.read
  rw [h]
  rfl

theorem rulesOfValue_of_texts {more : List RawText} :
    rulesOfValue (.list (more.map .text)) = .ok more := by
  rw [rulesOfValue, Value.texts?_list.mpr rfl]
  exact Value.noConfusion

theorem rulesOfValue_of_not_texts (hnull : value ≠ .null)
    (htexts : ∀ more : List RawText, value ≠ .list (more.map .text)) :
    rulesOfValue value = .error .fileNotTexts := by
  have hnone : value.texts? = none := by
    rw [Option.eq_none_iff_forall_ne_some]
    exact fun more h => htexts more (Value.texts?_eq_some_iff.mp h)
  rw [rulesOfValue, hnone]
  exact hnull

theorem moreRules_of_text (h : o.ReadsFile host (.ok text)) :
    o.moreRules host = host.rules text := by
  obtain ⟨path, hpath, hempty, htext⟩ := h
  unfold Options.moreRules
  simp only [hpath, String.isEmpty_iff, hempty, htext]
  rfl

theorem Options.FindsRules.moreRules_eq (h : o.FindsRules host found) :
    o.moreRules host = found := by
  cases h with
  | noFile h =>
    unfold Options.moreRules
    obtain h | h := h
    · rw [h]
    · rw [h]
      rfl
  | unreadable h =>
    obtain ⟨path, hpath, hempty, htext⟩ := h
    unfold Options.moreRules
    simp only [hpath, String.isEmpty_iff, hempty, htext]
    rfl
  | undecodable hfile hdecode =>
    rw [moreRules_of_text hfile, rules_of_failure hdecode]
    rfl
  | escapes hfile hdecode =>
    rw [moreRules_of_text hfile, rules_of_failure hdecode]
    rfl
  | empty hfile hdecode =>
    rw [moreRules_of_text hfile, rules_of_value hdecode]
    rfl
  | rules hfile hdecode =>
    rw [moreRules_of_text hfile, rules_of_value hdecode, rulesOfValue_of_texts]
    rfl
  | notTexts hfile hdecode hnull htexts =>
    rw [moreRules_of_text hfile, rules_of_value hdecode, rulesOfValue_of_not_texts hnull htexts]
    rfl

/-- Behind a request, what comes of the file counts. -/
theorem load_of_fits {request : Request} (hvalue : o.Decodes host value)
    (hfits : Request.Fits value request) (hfound : o.FindsRules host found) :
    o.load host = found.map fun more => { request with rules := request.rules ++ more } := by
  rw [load_eq hvalue, Request.ofValue_eq_ok_iff.mpr hfits, hfound.moreRules_eq]
  rfl

/-- What is wrong with the value counts before all else. -/
theorem load_of_value_fault {fault : RequestFault} (hvalue : o.Decodes host value)
    (hfault : Request.ofValue value = .error fault) :
    o.load host = .error (host.failure fault) := by
  rw [load_eq hvalue, hfault]
  rfl

end Rulebook.CommandLine
