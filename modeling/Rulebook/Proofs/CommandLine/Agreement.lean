import Rulebook.Proofs.CommandLine.Loading
import Rulebook.Proofs.Store.Adding

/-!
# The command line and the service

A call of the command line does not go through the service: it reads the request by itself, puts the
rules of a file behind those of the request, and has its own way with errors. Main statement: on any
host, what it prints is the answer of the service all the same, to the decoded value or, where there
is a file, to the value with all the rules in it. Of a bad request and a bad file the request is to
blame, and the rules are shown exactly if all of them read. An error that the decoder raises on the
file, or the encoder on the rules, is one that no answer of the service stands for: it leaves the
call without an outcome.
-/

namespace Rulebook

/-! ## A value with other rules -/

/-- The fields with another value in one of them. -/
def Value.replaceField (fields : List (String × Value)) (name : String) (value : Value) :
    List (String × Value) :=
  fields.map fun f => if f.1 = name then (name, value) else f

/-- The value with other additional rules. -/
def Value.withRules (rules : List RawText) : Value → Value
  | record fields =>
    .record (replaceField fields "additional_rules" (.list (rules.map .text)))
  | value => value

namespace Value

variable {fields : List (String × Value)} {name other : String}

/-- The field of a name is replaced in its place. -/
theorem find?_replaceField (fields : List (String × Value)) (name other : String) (value : Value) :
    ((replaceField fields name value).reverse.find? fun f => f.1 == other) =
      (fields.reverse.find? fun f => f.1 == other).map
        fun f => if f.1 = name then (name, value) else f := by
  unfold replaceField
  rw [← List.map_reverse, List.find?_map]
  congr 2
  -- a field that is replaced keeps its name, so the same fields are passed over
  funext f
  show ((if f.1 = name then (name, value) else f).1 == other) = (f.1 == other)
  split
  · rename_i hname
    rw [hname]
  · rfl

theorem field_replaceField_of_ne (h : other ≠ name) (value : Value) :
    field (replaceField fields name value) other = field fields other := by
  unfold field
  rw [find?_replaceField]
  cases hfind : fields.reverse.find? fun f => f.1 == other with
  | none => rfl
  | some f =>
    have hother : f.1 = other := by simpa using List.find?_some hfind
    have hname : f.1 ≠ name := hother ▸ h
    rw [Option.map_some, if_neg hname]

/-- A field that is there has its new value. -/
theorem field_replaceField_self (h : field fields name ≠ .null) (value : Value) :
    field (replaceField fields name value) name = value := by
  unfold field at h ⊢
  rw [find?_replaceField]
  cases hfind : fields.reverse.find? fun f => f.1 == name with
  | none =>
    rw [hfind] at h
    exact absurd rfl h
  | some f =>
    have hname : f.1 = name := by simpa using List.find?_some hfind
    rw [Option.map_some, if_pos hname]

end Value

/-- The value of a request with other rules is that of the request with other rules. -/
theorem Request.Fits.withRules {value : Value} {request : Request} (h : Fits value request)
    (rules : List RawText) : Fits (value.withRules rules) { request with rules := rules } := by
  obtain ⟨hrules, hvariables, hvalues⟩ := h
  refine .mk ?_ ?_ hvalues
  · apply Value.field_replaceField_self
    rw [hrules]
    exact Value.noConfusion
  · rw [Value.field_replaceField_of_ne (by decide)]
    exact hvariables

theorem Service.handle_of_fits [Limits] {value : Value} {request : Request}
    (h : Request.Fits value request) : handle value = .ok request.answer := by
  unfold handle
  rw [Request.ofValue_eq_ok_iff.mpr h]

namespace CommandLine

section AnyHost

variable [Limits] {ε : Type} {host : Host ε} {arguments : List String} {o : Options} {value : Value}
  {request : Request}

/-! ## Printing -/

/-- The call prints the answer as a line of JSON and exits with 0 exactly if that is a solution.
Where an integer is too large for an answer, there is no outcome either. -/
def Prints (host : Host ε) (arguments : List String) (answer : Except Overflow Response) : Prop :=
  host.run arguments =
    match answer with
    | .ok r => .ok ⟨if r.status = 200 then 0 else 1, Json.render r.body ++ "\n"⟩
    | .error .integer => .error host.overflow

/-- The call prints a reason and exits with 1. -/
def PrintsReason (host : Host ε) (arguments : List String) (reason : RawText) : Prop :=
  host.run arguments = .ok ⟨1, Json.render (Response.reasonBody reason) ++ "\n"⟩

theorem run_of_parse (hparse : Options.parse arguments = .ok o) :
    host.run arguments = o.run host := by
  unfold Host.run
  rw [hparse]

theorem run_of_load (hparse : Options.parse arguments = .ok o) (hload : o.load host = .ok request) :
    host.run arguments = o.outcome host request := by
  rw [run_of_parse hparse, Options.run, hload]

theorem printsReason_of_load {rejection : Rejection} (hparse : Options.parse arguments = .ok o)
    (hload : o.load host = .error (.known rejection)) :
    PrintsReason host arguments rejection.reason := by
  unfold PrintsReason
  rw [run_of_parse hparse, Options.run, hload]
  rfl

theorem run_of_load_escapes {error : ε} (hparse : Options.parse arguments = .ok o)
    (hload : o.load host = .error (.escapes error)) : host.run arguments = .error error := by
  rw [run_of_parse hparse, Options.run, hload]

theorem prints_of_load (hparse : Options.parse arguments = .ok o) (hsolve : o.dumpRules = false)
    (hload : o.load host = .ok request) : Prints host arguments (.ok request.answer) := by
  unfold Prints
  rw [run_of_load hparse hload, Options.outcome, hsolve]
  rfl

/-! ## Agreement -/

/-- How a call with some options, which reads a value as its request, agrees with the service. -/
structure Agrees (host : Host ε) (arguments : List String) (o : Options) (value : Value) :
    Prop where
  /-- Of the file comes one thing. -/
  file : ∃! found, o.FindsRules host found
  /-- Without a file the answer is the one to the value. -/
  plain : o.NoFile → o.dumpRules = false → Prints host arguments (Service.handle value)
  /-- The rules of a file are as good as further rules in the value. -/
  further : ∀ request more, Request.Fits value request → o.FindsRules host (.ok more) →
    o.dumpRules = false →
    Prints host arguments (Service.handle (value.withRules (request.rules ++ more)))
  /-- A value that is no request gets what it gets from the service, whatever there is in the file
  and whatever is asked for. -/
  malformed : (¬ ∃ request, Request.Fits value request) →
    (Service.handle value = .error .integer ∧ host.run arguments = .error host.overflow) ∨
      ∃ rejection, Service.handle value = .ok (.rejected rejection) ∧
        PrintsReason host arguments rejection.reason
  /-- Behind a request the file may be the reason. -/
  fileRejected : ∀ request rejection, Request.Fits value request →
    o.FindsRules host (.error (.known rejection)) → PrintsReason host arguments rejection.reason
  /-- A file on which an error is raised that is not caught leaves no outcome. -/
  fileEscapes : ∀ request error, Request.Fits value request →
    o.FindsRules host (.error (.escapes error)) → host.run arguments = .error error
  /-- Rules that all read are shown behind the base rules, and nothing is solved. Only the encoder
  can fail then. -/
  shown : ∀ request more, Request.Fits value request → o.FindsRules host (.ok more) →
    o.dumpRules = true → (∀ text ∈ request.rules ++ more, (Store.Entry.ofText text).isOk) →
    ∃ store, Store.base.addAll (request.rules ++ more) = (store, none) ∧
      host.run arguments = (host.encode store.form).map fun yaml => ⟨0, yaml⟩
  /-- Where one does not read, none is shown, and the reason is that of the service. -/
  notShown : ∀ request more, Request.Fits value request → o.FindsRules host (.ok more) →
    o.dumpRules = true → ¬ (∀ text ∈ request.rules ++ more, (Store.Entry.ofText text).isOk) →
    ∃ e, Service.handle (value.withRules (request.rules ++ more)) = .ok (.unsolved e) ∧
      PrintsReason host arguments e.message

/-- The store of a request can be had if all its rules read. -/
theorem exists_store_of_reads (request : Request)
    (hreads : ∀ text ∈ request.rules, (Store.Entry.ofText text).isOk) :
    ∃ store, Store.base.addAll request.rules = (store, none) ∧ request.store = .ok store := by
  obtain ⟨entries, hentries⟩ := Store.exists_reads_iff.mpr hreads
  have hadd : Store.base.addAll request.rules = (Store.base.pushAll entries, none) :=
    Store.addAll_of_reads hentries
  refine ⟨_, hadd, ?_⟩
  unfold Request.store Store.extend
  rw [hadd]

/-- Else it is what stands in the way of an answer. -/
theorem exists_store_error (request : Request)
    (hreads : ¬ ∀ text ∈ request.rules, (Store.Entry.ofText text).isOk) :
    ∃ e, request.store = .error e ∧ request.answer = .unsolved e := by
  obtain h | ⟨before, bad, after, entries, e, hrules, hbefore, hbad⟩ := Store.reads_or request.rules
  · exact absurd (Store.exists_reads_iff.mp h) hreads
  · have hstore : request.store = .error (.parse e) := by
      unfold Request.store Store.extend
      rw [hrules, Store.addAll_of_error_behind hbefore hbad]
    refine ⟨_, hstore, ?_⟩
    unfold Request.answer Request.solve
    rw [hstore]
    rfl

/-- On every host, a call prints what the service answers, unless an error escapes it. -/
theorem run_agrees_with_service (hparse : Options.parse arguments = .ok o)
    (hvalue : o.Decodes host value) : Agrees host arguments o value where
  file := by
    obtain ⟨found, hfound⟩ := exists_findsRules o host
    refine ⟨found, hfound, fun other hother => ?_⟩
    rw [← hother.moreRules_eq, ← hfound.moreRules_eq]
  plain hfile hsolve := by
    cases hrequest : Request.ofValue value with
    | ok request =>
      have hfits := Request.ofValue_eq_ok_iff.mp hrequest
      -- no file is as good as one without rules
      have hload : o.load host = .ok { request with rules := request.rules ++ [] } :=
        load_of_fits hvalue hfits (.noFile hfile)
      rw [List.append_nil] at hload
      rw [Service.handle_of_fits hfits]
      exact prints_of_load hparse hsolve hload
    | error fault =>
      have hload := load_of_value_fault hvalue hrequest
      unfold Prints Service.handle
      rw [hrequest]
      cases fault with
      | rejected rejection => exact printsReason_of_load hparse hload
      | overflow => exact run_of_load_escapes hparse hload
  further request more hfits hmore hsolve := by
    rw [Service.handle_of_fits (hfits.withRules _)]
    exact prints_of_load hparse hsolve (load_of_fits hvalue hfits hmore)
  malformed hmalformed := by
    unfold Service.handle
    cases hrequest : Request.ofValue value with
    | ok request => exact absurd ⟨request, Request.ofValue_eq_ok_iff.mp hrequest⟩ hmalformed
    | error fault =>
      have hload := load_of_value_fault hvalue hrequest
      cases fault with
      | rejected rejection => exact .inr ⟨rejection, rfl, printsReason_of_load hparse hload⟩
      | overflow => exact .inl ⟨rfl, run_of_load_escapes hparse hload⟩
  fileRejected request rejection hfits hfile :=
    printsReason_of_load hparse (load_of_fits hvalue hfits hfile)
  fileEscapes request error hfits hfile :=
    run_of_load_escapes hparse (load_of_fits hvalue hfits hfile)
  shown request more hfits hmore hshow hreads := by
    obtain ⟨store, hadd, hstore⟩ :=
      exists_store_of_reads { request with rules := request.rules ++ more } hreads
    refine ⟨store, hadd, ?_⟩
    rw [run_of_load hparse (load_of_fits hvalue hfits hmore), Options.outcome, hshow, hstore]
    rfl
  notShown request more hfits hmore hshow hreads := by
    obtain ⟨e, hstore, hanswer⟩ :=
      exists_store_error { request with rules := request.rules ++ more } hreads
    refine ⟨e, ?_, ?_⟩
    -- the service stops at the store as well, before it looks at the variables
    · rw [Service.handle_of_fits (hfits.withRules _), ← hanswer]
    · unfold PrintsReason
      rw [run_of_load hparse (load_of_fits hvalue hfits hmore), Options.outcome, hshow, hstore]
      rfl

end AnyHost

/-! ## Two files -/

/-- A request on standard input, and the text in every file. -/
def besides (file : String) : Surroundings where
  input :=
    "\x7b\"additional_rules\": [], \"variables\": " ++
      "\x7b\"A\": true, \"B\": true, \"C\": false, \"D\": 1, \"E\": 2, \"F\": 3\x7d\x7d"
  file _ := .ok file

theorem eq_ok_of_toOption {ε α : Type} {x : Except ε α} {a : α} (h : x.toOption = some a) :
    x = .ok a := by
  cases x with
  | error e => cases h
  | ok b =>
    obtain rfl := Option.some.inj h
    rfl

theorem exists_decodes_besides (file : String) :
    ∃ value request, Options.Decodes { rules := some "more" } (besides file).host value ∧
      Request.Fits value request := by
  have hinput : (((besides "").host.text "-").toOption.bind fun text =>
      ((besides "").host.decode .json text).toOption.bind fun value =>
        (Request.ofValue value).toOption).isSome := by
    decide +kernel
  obtain ⟨request, hrequest⟩ := Option.isSome_iff_exists.mp hinput
  obtain ⟨text, htext, hrequest⟩ := Option.bind_eq_some_iff.mp hrequest
  obtain ⟨value, hvalue, hrequest⟩ := Option.bind_eq_some_iff.mp hrequest
  exact ⟨value, request, ⟨text, eq_ok_of_toOption htext, eq_ok_of_toOption hvalue⟩,
    Request.ofValue_eq_ok_iff.mp (eq_ok_of_toOption hrequest)⟩

theorem readsFile_besides (file : String) :
    Options.ReadsFile { rules := some "more" } (besides file).host
      (.ok (String.ofList (Text.unifyNewlines file.toList))) :=
  ⟨"more", rfl, by decide, rfl⟩

/-- A file with one rule gets the same answer as the rule in the request. -/
theorem run_agrees_with_service_on_file :
    ∃ value request,
      Options.Decodes { rules := some "more" } (besides "- true => H = Q").host value ∧
        Request.Fits value request ∧
        Options.FindsRules { rules := some "more" } (besides "- true => H = Q").host
          (.ok [.ofString "true => H = Q"]) ∧
        Prints (besides "- true => H = Q").host ["--rules", "more"]
          (Service.handle (value.withRules (request.rules ++ [.ofString "true => H = Q"]))) := by
  obtain ⟨value, request, hdecodes, hfits⟩ := exists_decodes_besides "- true => H = Q"
  have hfile : ((besides "- true => H = Q").host.decode .yaml
      (String.ofList (Text.unifyNewlines "- true => H = Q".toList))).toOption.bind Value.texts? =
        some [.ofString "true => H = Q"] := by
    decide +kernel
  obtain ⟨list, hlist, hfile⟩ := Option.bind_eq_some_iff.mp hfile
  have hfinds : Options.FindsRules { rules := some "more" } (besides "- true => H = Q").host
      (.ok [.ofString "true => H = Q"]) := by
    refine .rules (readsFile_besides _) ?_
    rw [eq_ok_of_toOption hlist, Value.texts?_eq_some_iff.mp hfile]
  exact ⟨value, request, hdecodes, hfits, hfinds,
    (run_agrees_with_service rfl hdecodes).further request _ hfits hfinds rfl⟩

/-- A list of one number, whose first place is worth more than any double. -/
def manyPlaces : List Char :=
  "- 1".toList ++ (List.replicate 180 ":0".toList).flatten ++ ".0".toList

theorem eq_error_of_map {ε α β : Type} {x : Except ε α} {f : α → β} {e : ε}
    (h : x.map f = .error e) : x = .error e := by
  cases x with
  | error e' =>
    obtain rfl := Except.error.inj h
    rfl
  | ok a => cases h

theorem read_manyPlaces : Yaml.read 2 (String.ofList manyPlaces) = .error .overflow := by
  apply eq_error_of_map (f := fun _ => ())
  unfold Yaml.read
  -- the text is long, so that its characters are given and not taken from it
  rw [String.toList_ofList]
  decide +kernel

theorem decode_standard_of_overflow {ε : Type} {overflow noValue : ε} {text : String}
    (h : Yaml.read 2 text = .error .overflow) :
    (Codec.standard overflow noValue).decode .yaml text = .error (.escapes overflow) := by
  unfold Codec.standard
  simp only [h]
  rfl

/-- A file that holds such a number leaves a call without an outcome, though the request is one. -/
theorem run_many_places_ne_ok :
    (∃ value request,
      Options.Decodes { rules := some "more" } (besides (String.ofList manyPlaces)).host value ∧
        Request.Fits value request) ∧
      ¬ ∃ outcome, run ["--rules", "more"] (besides (String.ofList manyPlaces)) = .ok outcome := by
  obtain ⟨value, request, hdecodes, hfits⟩ := exists_decodes_besides (String.ofList manyPlaces)
  refine ⟨⟨value, request, hdecodes, hfits⟩, ?_⟩
  have hnewlines : Text.unifyNewlines manyPlaces = manyPlaces := by decide +kernel
  have hfile := readsFile_besides (String.ofList manyPlaces)
  rw [String.toList_ofList, hnewlines] at hfile
  have hdecode : (besides (String.ofList manyPlaces)).host.decode .yaml (String.ofList manyPlaces) =
      .error (.escapes .integer) :=
    decode_standard_of_overflow read_manyPlaces
  have hload := load_of_fits hdecodes hfits (.escapes hfile hdecode)
  rintro ⟨outcome, houtcome⟩
  rw [run, run_of_load_escapes rfl hload] at houtcome
  cases houtcome

end CommandLine

end Rulebook
