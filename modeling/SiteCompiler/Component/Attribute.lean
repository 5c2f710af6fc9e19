import SiteCompiler.Text.Blank
import SiteCompiler.Text.Search
set_option autoImplicit false

/-! # Attributes of a tag

The source between a tag's name and its `>` is read as a list of attributes. A name is a run of
characters that are neither blank nor one of `"`, `'`, `>`, `/`, `=`; whatever else stands between
attributes is passed over. A name may be followed by `=` and a value: in double quotes, in single
quotes, or bare. Where a value is begun and not finished, the name stands alone and reading goes on
right after it.
-/

namespace SiteCompiler.Component

/-- How the value of an attribute is written. -/
inductive Value where
  | absent
  | quoted (text : List Char)
  | bare (text : List Char)
  deriving DecidableEq, Repr

/-- The text of a value; an absent one is empty. -/
def Value.text : Value → List Char
  | .absent => []
  | .quoted text => text
  | .bare text => text

/-- Whether the value is written without quotes. -/
def Value.isBare : Value → Bool
  | .bare _ => true
  | _ => false

/-- One attribute as it is written. -/
structure Attribute where
  name : List Char
  value : Value
  deriving DecidableEq, Repr

/-- The characters of an attribute name. -/
def isAttributeNameChar (c : Char) : Bool :=
  !(isBlank c || c == '"' || c == '\'' || c == '>' || c == '/' || c == '=')

/-- The characters of a value without quotes. -/
def isBareValueChar (c : Char) : Bool :=
  !(isBlank c || c == '"' || c == '\'' || c == '=' || c == '<' || c == '>' || c == '`')

/-- The text up to the next `quote`, and what follows that quote. -/
def quotedText? (quote : Char) (cs : List Char) : Option (List Char × List Char) :=
  match cs.dropWhile (· ≠ quote) with
  | [] => none
  | _ :: rest => some (cs.takeWhile (· ≠ quote), rest)

/-- The value that begins here, blanks before it passed over. -/
def valueText? (cs : List Char) : Option (Value × List Char) :=
  match cs.dropWhile isBlank with
  | '"' :: rest => (quotedText? '"' rest).map fun cut => (.quoted cut.1, cut.2)
  | '\'' :: rest => (quotedText? '\'' rest).map fun cut => (.quoted cut.1, cut.2)
  | rest =>
      match rest.takeWhile isBareValueChar with
      | [] => none
      | text => some (.bare text, rest.dropWhile isBareValueChar)

/-- An equals sign and the value after it, blanks passed over. -/
def assignedValue? (cs : List Char) : Option (Value × List Char) :=
  match cs.dropWhile isBlank with
  | '=' :: rest => valueText? rest
  | _ => none

/-- The first attribute of a source, and the source after it. -/
def nextAttribute? (cs : List Char) : Option (Attribute × List Char) :=
  let here := cs.dropWhile fun c => !isAttributeNameChar c
  match here.takeWhile isAttributeNameChar with
  | [] => none
  | name =>
      let after := here.dropWhile isAttributeNameChar
      match assignedValue? after with
      | some (value, rest) => some (⟨name, value⟩, rest)
      | none => some (⟨name, .absent⟩, after)

theorem length_dropWhile_le (p : Char → Bool) (cs : List Char) :
    (cs.dropWhile p).length ≤ cs.length :=
  (List.dropWhile_sublist p).length_le

theorem length_quotedText? {quote : Char} {cs text rest : List Char}
    (h : quotedText? quote cs = some (text, rest)) : rest.length ≤ cs.length := by
  unfold quotedText? at h
  split at h
  · cases h
  · next c rest' hd =>
    cases h
    have := length_dropWhile_le (· ≠ quote) cs
    rw [hd] at this
    simp only [List.length_cons] at this
    omega

theorem length_valueText? {cs rest : List Char} {value : Value}
    (h : valueText? cs = some (value, rest)) : rest.length ≤ cs.length := by
  have hb := length_dropWhile_le isBlank cs
  unfold valueText? at h
  split at h
  · next r hd =>
    obtain ⟨⟨a, b⟩, hcut, heq⟩ := Option.map_eq_some_iff.1 h
    cases heq
    have := length_quotedText? hcut
    rw [hd, List.length_cons] at hb
    simp only
    omega
  · next r hd =>
    obtain ⟨⟨a, b⟩, hcut, heq⟩ := Option.map_eq_some_iff.1 h
    cases heq
    have := length_quotedText? hcut
    rw [hd, List.length_cons] at hb
    simp only
    omega
  · split at h
    · cases h
    · cases h
      exact Nat.le_trans (length_dropWhile_le _ _) hb

theorem length_assignedValue? {cs rest : List Char} {value : Value}
    (h : assignedValue? cs = some (value, rest)) : rest.length ≤ cs.length := by
  have hb := length_dropWhile_le isBlank cs
  unfold assignedValue? at h
  split at h
  · next r hd =>
    have := length_valueText? h
    rw [hd, List.length_cons] at hb
    omega
  · cases h

/-- Reading an attribute uses up some of the source. -/
theorem length_nextAttribute? {cs rest : List Char} {a : Attribute}
    (h : nextAttribute? cs = some (a, rest)) : rest.length < cs.length := by
  have hs := length_dropWhile_le (fun c => !isAttributeNameChar c) cs
  unfold nextAttribute? at h
  simp only at h
  split at h
  · cases h
  · next name hname =>
    have hsplit := congrArg List.length
      (List.takeWhile_append_dropWhile (p := isAttributeNameChar)
        (l := cs.dropWhile fun c => !isAttributeNameChar c))
    rw [List.length_append] at hsplit
    have hpos : 0 < ((cs.dropWhile fun c => !isAttributeNameChar c).takeWhile
        isAttributeNameChar).length := List.length_pos_iff.2 hname
    split at h
    · next value rest' hv =>
      cases h
      have := length_assignedValue? hv
      omega
    · cases h
      omega

/-- The attributes of a source, in order. -/
def attributes (cs : List Char) : List Attribute :=
  match _h : nextAttribute? cs with
  | none => []
  | some (a, rest) => a :: attributes rest
termination_by cs.length
decreasing_by exact length_nextAttribute? (by assumption)

/-- Whether the source ends with a bare value, with nothing after it. -/
def endsInBareValue (cs : List Char) : Bool :=
  match _h : nextAttribute? cs with
  | none => false
  | some (a, rest) => (a.value.isBare && rest.isEmpty) || endsInBareValue rest
termination_by cs.length
decreasing_by exact length_nextAttribute? (by assumption)

/-- Whether the source of a tag closes the tag in place: it ends with a `/`, blanks aside, that
does not belong to a bare value. -/
def closesItself (cs : List Char) : Bool :=
  let source := Text.trimEnd cs
  source.getLast? == some '/' && !endsInBareValue source

/-- Names with values, the first value of each name. Names are in lower case, as far as they are
ASCII. -/
def attributeMap (cs : List Char) : List (String × String) :=
  (attributes cs).foldl (fun found a =>
      let name := String.ofList (Text.lowercase a.name)
      if (found.lookup name).isSome then found
      else found ++ [(name, String.ofList a.value.text)])
    []

end SiteCompiler.Component
