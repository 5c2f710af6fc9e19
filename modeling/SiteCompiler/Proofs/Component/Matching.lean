import SiteCompiler.Proofs.Component.Span
set_option autoImplicit false

/-! # Which end tag closes an element

Count the tags of one name: one up for a start tag that does not close itself, one down for an end
tag (`balance`). An element runs to the place where the count that begins with its own start tag
comes down to nothing for the first time. If it never does, the element is its start tag alone
(`findComponents_matched`). In both cases the next element is the first one that begins behind it.
-/

namespace SiteCompiler.Component

open Text (utf8Length)

variable {name : String}

/-! ## Counting tags -/

/-- What a piece adds to the number of open elements of a name. -/
def Piece.weight (name : String) : Piece → Int
  | .tag t =>
      if t.name ≠ name then 0
      else if t.closing then -1
      else if t.selfClosing then 0
      else 1
  | _ => 0

/-- What pieces add, together, to the number of open elements of a name. -/
def balance (name : String) : List Piece → Int
  | [] => 0
  | piece :: pieces => piece.weight name + balance name pieces

@[simp] theorem balance_nil : balance name [] = 0 := rfl

@[simp] theorem balance_cons (piece : Piece) (pieces : List Piece) :
    balance name (piece :: pieces) = piece.weight name + balance name pieces := rfl

theorem weight_eq_of_nesting (name : String) (piece : Piece) :
    piece.weight name = match piece.nesting name with
      | some true => 1
      | some false => -1
      | none => 0 := by
  cases piece with
  | tag t =>
      simp only [Piece.weight, Piece.nesting]
      split
      · rfl
      · split
        · rfl
        · split <;> rfl
  | _ => rfl

theorem Tag.weight_eq_one {t : Tag} (hclosing : t.closing = false) (hself : t.selfClosing = false) :
    (Piece.tag t).weight t.name = 1 := by
  simp [Piece.weight, hclosing, hself]

/-! ## The end of an element -/

/-- One step of the search for the end of the outermost of `depth + 1` open elements. What the step
does is settled by the piece alone. -/
theorem splitAtEnd?_cons (name : String) (depth : Nat) (piece : Piece) :
    (depth + 1 + piece.weight name = 0 ∧
        ∀ pieces, splitAtEnd? name depth (piece :: pieces) = some ([piece], pieces)) ∨
      ∃ depth' : Nat, (depth : Int) + piece.weight name = depth' ∧
        ∀ pieces, splitAtEnd? name depth (piece :: pieces)
          = (splitAtEnd? name depth' pieces).map fun cut => (piece :: cut.1, cut.2) := by
  have hweight := weight_eq_of_nesting name piece
  cases hnesting : piece.nesting name with
  | none =>
      rw [hnesting] at hweight
      refine Or.inr ⟨depth, by simp only [hweight]; omega, fun pieces => ?_⟩
      simp [splitAtEnd?, hnesting]
  | some opens =>
      rw [hnesting] at hweight
      cases opens with
      | true =>
          refine Or.inr ⟨depth + 1, by simp only [hweight]; omega, fun pieces => ?_⟩
          simp [splitAtEnd?, hnesting]
      | false =>
          cases depth with
          | zero =>
              -- This end tag closes the outermost element.
              refine Or.inl ⟨by simp only [hweight]; omega, fun pieces => ?_⟩
              simp [splitAtEnd?, hnesting]
          | succ depth =>
              refine Or.inr ⟨depth, by simp only [hweight]; omega, fun pieces => ?_⟩
              simp [splitAtEnd?, hnesting]

/-- The cut at the end of an element is where the count comes down to nothing, and it has not done
so before. -/
theorem balance_of_splitAtEnd? {depth : Nat} {pieces as bs : List Piece}
    (h : splitAtEnd? name depth pieces = some (as, bs)) :
    depth + 1 + balance name as = 0 ∧
      ∀ front, front <+: as → front ≠ as → 0 < depth + 1 + balance name front := by
  induction pieces generalizing depth as bs with
  | nil => cases h
  | cons piece pieces ih =>
      rcases splitAtEnd?_cons name depth piece with
        ⟨hweight, hsplit⟩ | ⟨depth', hweight, hsplit⟩
      · rw [hsplit] at h
        cases h
        refine ⟨by rw [balance_cons, balance_nil]; omega, ?_⟩
        intro front hfront hne
        rcases List.prefix_cons_iff.1 hfront with rfl | ⟨more, rfl, hmore⟩
        · rw [balance_nil]
          omega
        · rw [List.prefix_nil.1 hmore] at hne
          exact absurd rfl hne
      · rw [hsplit] at h
        obtain ⟨cut, hcut, heq⟩ := Option.map_eq_some_iff.1 h
        obtain ⟨rfl, -⟩ := Prod.mk.inj heq
        obtain ⟨hbalance, hpositive⟩ := ih hcut
        refine ⟨by rw [balance_cons]; omega, ?_⟩
        intro front hfront hne
        rcases List.prefix_cons_iff.1 hfront with rfl | ⟨more, rfl, hmore⟩
        · rw [balance_nil]
          omega
        · -- The count of the rest begins at the depth behind the first piece.
          have hcount := hpositive more hmore fun heq => hne (by rw [heq])
          rw [balance_cons]
          omega

/-- If there is no cut, the count never comes down to nothing. -/
theorem balance_pos_of_splitAtEnd?_eq_none {depth : Nat} {pieces : List Piece}
    (h : splitAtEnd? name depth pieces = none) {front : List Piece} (hfront : front <+: pieces) :
    0 < depth + 1 + balance name front := by
  induction pieces generalizing depth front with
  | nil =>
      rw [List.prefix_nil.1 hfront, balance_nil]
      omega
  | cons piece pieces ih =>
      rcases List.prefix_cons_iff.1 hfront with rfl | ⟨more, rfl, hmore⟩
      · rw [balance_nil]
        omega
      · rcases splitAtEnd?_cons name depth piece with
          ⟨-, hsplit⟩ | ⟨depth', hweight, hsplit⟩
        · rw [hsplit] at h
          cases h
        · rw [hsplit, Option.map_eq_none_iff] at h
          have hcount := ih h hmore
          rw [balance_cons]
          omega

/-! ## The element that follows -/

/-- The first component start tag among pieces from byte `start` on is where the next element
begins, if there is one. -/
def BeginsNext (start : Nat) (pieces : List Piece) : Option ComponentElement → Prop
  | none => ∀ piece ∈ pieces, piece.componentTag? = none
  | some e => ∃ gap t rest, pieces = gap ++ .tag t :: rest ∧
      (∀ piece ∈ gap, piece.componentTag? = none) ∧ (Piece.tag t).componentTag? = some t ∧
      e.component = t.component ∧ e.start = start + utf8Length (sources gap)

theorem beginsNext_elementsAfter (front pieces : List Piece) :
    BeginsNext (utf8Length (sources front)) pieces (elementsAfter front pieces).head? := by
  induction pieces generalizing front with
  | nil =>
      rw [elementsAfter_nil]
      intro piece hpiece
      cases hpiece
  | cons piece pieces ih =>
      cases ht : piece.componentTag? with
      | some t =>
          obtain ⟨rfl, -⟩ := source_of_componentTag? ht
          rw [elementsAfter_cons_of_some ht]
          refine ⟨[], t, pieces, rfl, ?_, ht, rfl, rfl⟩
          intro piece hpiece
          cases hpiece
      | none =>
          have hnext := ih (front ++ [piece])
          rw [elementsAfter_cons_of_none ht]
          cases hhead : (elementsAfter (front ++ [piece]) pieces).head? with
          | none =>
              rw [hhead] at hnext
              intro other hother
              rcases List.mem_cons.1 hother with rfl | hother
              · exact ht
              · exact hnext other hother
          | some e =>
              rw [hhead] at hnext
              obtain ⟨gap, t, rest, rfl, hgap, hopens, hcomponent, hstart⟩ := hnext
              refine ⟨piece :: gap, t, rest, rfl, ?_, hopens, hcomponent, ?_⟩
              · intro other hother
                rcases List.mem_cons.1 hother with rfl | hother
                · exact ht
                · exact hgap other hother
              · rw [hstart, sources_append, sources_cons, sources_cons, sources_nil,
                  List.append_nil, Text.utf8Length_append, Text.utf8Length_append, Nat.add_assoc]

/-! ## Matching -/

/-- What an element is: `t` is its start tag, `inside` are the pieces behind the start tag that
belong to it, `after` are the pieces behind the element. -/
structure Matched (html : String) (e : ComponentElement) (before : List Piece) (t : Tag)
    (inside after : List Piece) : Prop where
  pieces_eq : scan html.toList = before ++ .tag t :: (inside ++ after)
  opens : t.closing = false ∧ isComponentTag t.name = true
  component_eq : e.component = t.component
  start_eq : e.start = utf8Length (sources before)
  stop_eq : e.stop = utf8Length (sources (before ++ .tag t :: inside))
  /-- A tag that closes itself is an element alone. -/
  alone : t.selfClosing = true → inside = []
  /-- If the count from the start tag on comes down to nothing, the element ends with the end tag
  at which it does so first. -/
  closed : t.selfClosing = false →
    (∃ more, more <+: inside ++ after ∧ balance t.name (.tag t :: more) = 0) →
      balance t.name (.tag t :: inside) = 0 ∧
      (∀ front, front <+: inside → front ≠ inside → 0 < balance t.name (.tag t :: front)) ∧
      ∃ front closer, inside = front ++ [.tag closer] ∧ closer.closing = true ∧
        closer.name = t.name
  /-- If the count never comes down to nothing, the start tag is an element alone. -/
  unclosed : t.selfClosing = false →
    (∀ more, more <+: inside ++ after → balance t.name (.tag t :: more) ≠ 0) → inside = []

theorem ElementAt.matched {html : String} {e : ComponentElement} {before inside after : List Piece}
    {t : Tag} (h : ElementAt (scan html.toList) e before t inside after) :
    Matched html e before t inside after := by
  obtain ⟨-, hclosing, hname⟩ := source_of_componentTag? h.opens
  refine ⟨h.pieces_eq, ⟨hclosing, hname⟩, h.component_eq, h.start_eq, h.stop_eq, ?_, ?_, ?_⟩
  · intro hself
    rcases h.cut_cases with ⟨-, hnil⟩ | ⟨hself', -⟩ | ⟨hself', -⟩
    · exact hnil
    all_goals
      rw [hself] at hself'
      cases hself'
  · intro hself hexists
    have hone := Tag.weight_eq_one hclosing hself
    rcases h.cut_cases with ⟨hself', -⟩ | ⟨-, hsplit, -⟩ | ⟨-, hsplit⟩
    · rw [hself] at hself'
      cases hself'
    · -- Without an end tag, no prefix is balanced.
      obtain ⟨more, hmore, hzero⟩ := hexists
      have hpos := balance_pos_of_splitAtEnd?_eq_none hsplit hmore
      rw [balance_cons, hone] at hzero
      omega
    · obtain ⟨hzero, hpos⟩ := balance_of_splitAtEnd? hsplit
      refine ⟨?_, ?_, exists_tag_of_splitAtEnd? hsplit⟩
      · rw [balance_cons, hone]
        omega
      · intro front hfront hne
        have hcount := hpos front hfront hne
        rw [balance_cons, hone]
        omega
  · intro hself hnever
    have hone := Tag.weight_eq_one hclosing hself
    rcases h.cut_cases with ⟨-, hnil⟩ | ⟨-, -, hnil⟩ | ⟨-, hsplit⟩
    · exact hnil
    · exact hnil
    · -- With an end tag, the pieces up to it are a balanced prefix.
      obtain ⟨hzero, -⟩ := balance_of_splitAtEnd? hsplit
      have hcount := hnever inside (List.prefix_append inside after)
      rw [balance_cons, hone] at hcount
      omega

/-- **End tags are matched exactly**: every element is cut where the count of its name says, and the
next element is the first one that begins behind it. -/
theorem findComponents_matched {html : String} {earlier later : List ComponentElement}
    {e : ComponentElement} (h : findComponents html = earlier ++ e :: later) :
    ∃ before t inside after, Matched html e before t inside after ∧
      BeginsNext e.stop after later.head? := by
  obtain ⟨before, t, inside, after, hat, rfl⟩ := exists_elementAt_scan h
  refine ⟨before, t, inside, after, hat.matched, ?_⟩
  rw [hat.stop_eq]
  exact beginsNext_elementsAfter _ _

/-- An element that closes itself inside one of its name, which is closed behind a nested one, and
an element that nothing closes. -/
def nestedPage : String := "<c-a><c-a/><c-a><c-b></c-a></C-A><c-d><c-a></c-b>"

theorem findComponents_matched_nestedPage :
    (findComponents nestedPage).map (fun e => e.source nestedPage)
      = ["<c-a><c-a/><c-a><c-b></c-a></C-A>", "<c-d>", "<c-a>"] ∧
    ∃ before t inside after,
      Matched nestedPage ⟨⟨"c-d", "d", []⟩, 33, 38⟩ before t inside after ∧
      BeginsNext 38 after (some ⟨⟨"c-a", "a", []⟩, 38, 43⟩) := by
  have hfound : findComponents nestedPage = [⟨⟨"c-a", "a", []⟩, 0, 33⟩]
      ++ ⟨⟨"c-d", "d", []⟩, 33, 38⟩ :: [⟨⟨"c-a", "a", []⟩, 38, 43⟩] := by decide +kernel
  exact ⟨by decide +kernel, findComponents_matched hfound⟩

end SiteCompiler.Component
