import Rulebook.Yaml.Token

/-!
# Nodes of YAML

The tree that tokens describe. An empty place where a node is expected is an empty plain scalar.
The tags of nodes are given in full, their handles having been looked up.
-/

namespace Rulebook.Yaml

/-- What stands before a node: a name by which it can be meant again, and a tag. -/
structure Properties where
  anchor : Option String := none
  tag : Option String := none

/-- A node of a document. -/
inductive Node where
  | scalar (properties : Properties) (text : RawText) (plain : Bool)
  | sequence (properties : Properties) (items : List Node)
  | mapping (properties : Properties) (entries : List (Node × Node))
  | reference (name : String)

/-- The node of an empty place. -/
def Node.blank : Node :=
  .scalar {} "" true

/-- What tag handles stand for. -/
abbrev Handles := List (String × String)

/-- The handles that need no directive. -/
def Handles.default : Handles :=
  [("!", "!"), ("!!", "tag:yaml.org,2002:")]

/-- A value read off the front of some tokens, and the rest. -/
structure Parsed (α : Type) (ts : List Token) where
  value : α
  rest : List Token
  not_longer : rest.length ≤ ts.length

/-- The same reading made into another value, seen from more tokens. -/
def Parsed.widen {α β : Type} {ts us : List Token} (r : Parsed α ts) (f : α → β)
    (h : ts.length ≤ us.length) : Parsed β us :=
  ⟨f r.value, r.rest, Nat.le_trans r.not_longer h⟩

/-- The places where a node may be missing. -/
inductive Place where
  | blockItem
  | indentlessItem
  | blockField
  | flowItem
  | flowItemValue
  | flowField
  | flowFieldValue

namespace Place

/-- Whether the place in front of some tokens is empty, since they cannot begin a node there. -/
def isEmpty : Place → List Token → Bool
  | _, [] => false
  | blockItem, t :: _ => (t matches .blockEntry | .blockEnd)
  | indentlessItem, t :: _ => (t matches .blockEntry | .key | .value | .blockEnd)
  | blockField, t :: _ => (t matches .key | .value | .blockEnd)
  | flowItem, t :: _ => (t matches .value | .flowEntry | .flowSequenceEnd)
  | flowItemValue, t :: _ => (t matches .flowEntry | .flowSequenceEnd)
  | flowField, t :: _ => (t matches .value | .flowEntry | .flowMappingEnd)
  | flowFieldValue, t :: _ => (t matches .flowEntry | .flowMappingEnd)

/-- Whether block collections may stand at a place. -/
def inBlock : Place → Bool
  | blockItem | indentlessItem | blockField => true
  | flowItem | flowItemValue | flowField | flowFieldValue => false

/-- Whether items without an indentation of their own may stand at a place. -/
def allowsIndentless : Place → Bool
  | blockField => true
  | _ => false

end Place

namespace Node

/-- The tag of a handle and a suffix. -/
def tagOf? (handles : Handles) : Option String → String → Option String
  | none, suffix => some suffix
  | some handle, suffix => (handles.lookup handle).map (· ++ suffix)

/-- Reads the properties in front of a node, in either order. -/
def readProperties (handles : Handles) (ts : List Token) : Option (Parsed Properties ts) :=
  match ts with
  | .anchor a :: .tag h s :: rest =>
    (tagOf? handles h s).map fun tag => ⟨⟨some a, some tag⟩, rest, by simp; omega⟩
  | .tag h s :: .anchor a :: rest =>
    (tagOf? handles h s).map fun tag => ⟨⟨some a, some tag⟩, rest, by simp; omega⟩
  | .anchor a :: rest => some ⟨⟨some a, none⟩, rest, by simp⟩
  | .tag h s :: rest => (tagOf? handles h s).map fun tag => ⟨⟨none, some tag⟩, rest, by simp⟩
  | rest => some ⟨{}, rest, Nat.le_refl _⟩

/-- An empty node, which has to have some property. -/
def readBlank {ts : List Token} (p : Properties) (rest : List Token)
    (h : rest.length ≤ ts.length) : Option (Parsed Node ts) :=
  if p.anchor.isSome || p.tag.isSome then some ⟨scalar p "" true, rest, h⟩ else none

/-- Skips the comma before an item that is not the first. -/
def skipComma (first : Bool) (ts : List Token) :
    Option { rest : List Token // rest.length + (!first).toNat ≤ ts.length } :=
  match first, ts with
  | true, ts => some ⟨ts, Nat.le_refl _⟩
  | false, .flowEntry :: t => some ⟨t, Nat.le_refl _⟩
  | false, _ => none

mutual

/-- Reads a node. Block collections are only allowed where `block` says so, and items without
indentation of their own only as the key or the value of a field. -/
def read (handles : Handles) (block indentless : Bool) (ts : List Token) :
    Option (Parsed Node ts) :=
  match readProperties handles ts with
  | none => none
  | some ⟨p, rest, h⟩ =>
    match hr : rest with
    | .reference name :: t =>
      if p.anchor.isSome || p.tag.isSome then readBlank p rest (hr ▸ h)
      else some ⟨reference name, t, by simp at h; omega⟩
    | .scalar text plain :: t => some ⟨scalar p text plain, t, by simp at h; omega⟩
    | .flowSequenceStart :: t =>
      (readFlowItems handles true t).map (·.widen (sequence p) (by simp at h; omega))
    | .flowMappingStart :: t =>
      (readFlowFields handles true t).map (·.widen (mapping p) (by simp at h; omega))
    | .blockSequenceStart :: t =>
      if block then (readItems handles t).map (·.widen (sequence p) (by simp at h; omega))
      else readBlank p rest (hr ▸ h)
    | .blockMappingStart :: t =>
      if block then (readFields handles t).map (·.widen (mapping p) (by simp at h; omega))
      else readBlank p rest (hr ▸ h)
    | .blockEntry :: t =>
      if indentless then
        (readIndentless handles (.blockEntry :: t)).map (·.widen (sequence p) h)
      else readBlank p rest (hr ▸ h)
    | _ => readBlank p rest (hr ▸ h)
termination_by 4 * ts.length + 1
decreasing_by all_goals simp only [List.length_cons, Bool.toNat_true] at *; omega

/-- Reads a node, unless its place is empty. -/
def readAt (handles : Handles) (place : Place) (ts : List Token) : Option (Parsed Node ts) :=
  if place.isEmpty ts then some ⟨blank, ts, Nat.le_refl _⟩
  else read handles place.inBlock place.allowsIndentless ts
termination_by 4 * ts.length + 2
decreasing_by omega

/-- Reads the items of a block sequence and its end. -/
def readItems (handles : Handles) (ts : List Token) : Option (Parsed (List Node) ts) :=
  match ts with
  | .blockEntry :: t =>
    match readAt handles .blockItem t with
    | none => none
    | some ⟨item, r, h⟩ => (readItems handles r).map (·.widen (item :: ·) (by simp; omega))
  | .blockEnd :: t => some ⟨[], t, by simp⟩
  | _ => none
termination_by 4 * ts.length
decreasing_by all_goals simp only [List.length_cons] at *; omega

/-- Reads the items of a block sequence that has no indentation and so no end of its own. -/
def readIndentless (handles : Handles) (ts : List Token) : Option (Parsed (List Node) ts) :=
  match ts with
  | .blockEntry :: t =>
    match readAt handles .indentlessItem t with
    | none => none
    | some ⟨item, r, h⟩ => (readIndentless handles r).map (·.widen (item :: ·) (by simp; omega))
  | rest => some ⟨[], rest, Nat.le_refl _⟩
termination_by 4 * ts.length
decreasing_by all_goals simp only [List.length_cons] at *; omega

/-- Reads the fields of a block mapping and its end. -/
def readFields (handles : Handles) (ts : List Token) : Option (Parsed (List (Node × Node)) ts) :=
  match ts with
  | .key :: t =>
    match readAt handles .blockField t with
    | none => none
    | some ⟨key, r, h⟩ =>
      match readFieldValue handles .blockField r with
      | none => none
      | some ⟨value, r', h'⟩ =>
        (readFields handles r').map (·.widen ((key, value) :: ·) (by simp; omega))
  | .blockEnd :: t => some ⟨[], t, by simp⟩
  | _ => none
termination_by 4 * ts.length
decreasing_by all_goals simp only [List.length_cons] at *; omega

/-- Reads the value of a field, which is empty if no colon stands before it. -/
def readFieldValue (handles : Handles) (place : Place) (ts : List Token) :
    Option (Parsed Node ts) :=
  match ts with
  | .value :: t => (readAt handles place t).map (·.widen id (by simp))
  | rest => some ⟨blank, rest, Nat.le_refl _⟩
termination_by 4 * ts.length
decreasing_by all_goals simp only [List.length_cons] at *; omega

/-- Reads the items of a flow sequence and its end; before all but the first stands a comma. An
item with a key is a mapping of one field. -/
def readFlowItems (handles : Handles) (first : Bool) (ts : List Token) :
    Option (Parsed (List Node) ts) :=
  match ts with
  | .flowSequenceEnd :: t => some ⟨[], t, by simp⟩
  | ts =>
    match skipComma first ts with
    | none => none
    | some ⟨ts₁, h₁⟩ =>
      match hts : ts₁ with
      | .flowSequenceEnd :: t => some ⟨[], t, by simp at h₁; omega⟩
      | .key :: t =>
        match readAt handles .flowItem t with
        | none => none
        | some ⟨key, r, h⟩ =>
          match readFieldValue handles .flowItemValue r with
          | none => none
          | some ⟨value, r', h'⟩ =>
            (readFlowItems handles false r').map
              (·.widen (mapping {} [(key, value)] :: ·) (by simp at h₁; omega))
      | ts₁ =>
        match read handles false false ts₁ with
        | none => none
        | some ⟨item, r, h⟩ =>
          (readFlowItems handles false r).map (·.widen (item :: ·) (by omega))
termination_by 4 * ts.length + 3 + first.toNat
decreasing_by
  all_goals
    cases first <;>
      simp only [List.length_cons, Bool.toNat_true, Bool.toNat_false, Bool.not_true,
        Bool.not_false] at * <;>
      omega

/-- Reads the fields of a flow mapping and its end; before all but the first stands a comma. A
node without a colon is the key of an empty value. -/
def readFlowFields (handles : Handles) (first : Bool) (ts : List Token) :
    Option (Parsed (List (Node × Node)) ts) :=
  match ts with
  | .flowMappingEnd :: t => some ⟨[], t, by simp⟩
  | ts =>
    match skipComma first ts with
    | none => none
    | some ⟨ts₁, h₁⟩ =>
      match hts : ts₁ with
      | .flowMappingEnd :: t => some ⟨[], t, by simp at h₁; omega⟩
      | .key :: t =>
        match readAt handles .flowField t with
        | none => none
        | some ⟨key, r, h⟩ =>
          match readFieldValue handles .flowFieldValue r with
          | none => none
          | some ⟨value, r', h'⟩ =>
            (readFlowFields handles false r').map
              (·.widen ((key, value) :: ·) (by simp at h₁; omega))
      | ts₁ =>
        match read handles false false ts₁ with
        | none => none
        | some ⟨key, r, h⟩ =>
          (readFlowFields handles false r).map (·.widen ((key, blank) :: ·) (by omega))
termination_by 4 * ts.length + 3 + first.toNat
decreasing_by
  all_goals
    cases first <;>
      simp only [List.length_cons, Bool.toNat_true, Bool.toNat_false, Bool.not_true,
        Bool.not_false] at * <;>
      omega

end

end Node

/-! ## Documents -/

/-- The handles of some directives; a version has to be 1 and may be given once, and so may a
handle. -/
def Handles.ofDirectives? : List Directive → Option Handles
  | directives => do
    let versions := directives.filterMap fun
      | .version major _ => some major
      | _ => none
    let tags := directives.filterMap fun
      | .tag handle stem => some (handle, stem)
      | _ => none
    let handlesOnce := (tags.map Prod.fst).eraseDups.length = tags.length
    if versions.all (· = 1) ∧ versions.length ≤ 1 ∧ handlesOnce then
      some (tags ++ Handles.default)
    else none

/-- The directives in front of some tokens. -/
def takeDirectives : List Token → List Directive × List Token
  | .directive d :: rest =>
    let (ds, rest) := takeDirectives rest
    (d :: ds, rest)
  | rest => ([], rest)

/-- The root of the one document that some tokens hold, if there is a document. The marker of its
start may only be left out if no directives stand before it. -/
def Node.ofTokens? (ts : List Token) : Option (Option Node) := do
  let finish (rest : List Token) (root : Node) : Option (Option Node) :=
    if (rest.dropWhile (· matches .documentEnd)).isEmpty then some (some root) else none
  match ts with
  | [] => some none
  | .directive _ :: _ | .documentStart :: _ =>
    let (directives, rest) := takeDirectives ts
    let handles ← Handles.ofDirectives? directives
    match rest with
    | .documentStart :: rest =>
      match rest with
      | [] | .directive _ :: _ | .documentStart :: _ | .documentEnd :: _ => finish rest blank
      | _ =>
        let r ← Node.read handles true false rest
        finish r.rest r.value
    | _ => none
  | _ =>
    let r ← Node.read Handles.default true false ts
    finish r.rest r.value

end Rulebook.Yaml
