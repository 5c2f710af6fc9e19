import SiteCompiler.Proofs.Component.Matching
import Mathlib.Data.List.Infix
set_option autoImplicit false

/-! # Nested pieces are passed over

Pieces are *nested* if, for each component name, the counts of `Matching` come down to nothing at
their end and never fall below on the way. The search for an end tag that goes through such pieces
leaves them at the depth at which it has come (`splitAtEnd?_append_of_nested`). So an element of a
document ends inside nested pieces only if it begins there, and the cut of a document into segments
does not depend on which nested pieces stand inside an element (`map_outline_segmentsOf`).
-/

namespace SiteCompiler.Component

variable {name : String}

/-! ## The search for an end tag in two lists of pieces -/

theorem weight_eq_zero_of_ne {t : Tag} (h : t.name ≠ name) : (Piece.tag t).weight name = 0 :=
  if_pos h

theorem Tag.weight_eq_neg_one {t : Tag} (hclosing : t.closing = true) :
    (Piece.tag t).weight t.name = -1 := by
  simp [Piece.weight, hclosing]

theorem balance_append (as bs : List Piece) :
    balance name (as ++ bs) = balance name as + balance name bs := by
  induction as with
  | nil => simp
  | cons piece as ih => rw [List.cons_append, balance_cons, balance_cons, ih, Int.add_assoc]

theorem splitAtEnd?_eq_none_iff {depth : Nat} {pieces : List Piece} :
    splitAtEnd? name depth pieces = none ↔
      ∀ front, front <+: pieces → 0 < depth + 1 + balance name front := by
  constructor
  · intro h front hfront
    exact balance_pos_of_splitAtEnd?_eq_none h hfront
  · intro h
    cases hsplit : splitAtEnd? name depth pieces with
    | none => rfl
    | some cut =>
        -- The pieces in front of the cut would be counted down to nothing.
        obtain ⟨hzero, -⟩ := balance_of_splitAtEnd? hsplit
        have hpos := h cut.1 ⟨cut.2, append_of_splitAtEnd? hsplit⟩
        omega

theorem splitAtEnd?_append_of_some {depth : Nat} {as xs ys : List Piece}
    (h : splitAtEnd? name depth as = some (xs, ys)) (bs : List Piece) :
    splitAtEnd? name depth (as ++ bs) = some (xs, ys ++ bs) := by
  induction as generalizing depth xs with
  | nil => cases h
  | cons piece as ih =>
      rcases splitAtEnd?_cons name depth piece with ⟨-, hsplit⟩ | ⟨depth', -, hsplit⟩
      · rw [hsplit] at h
        cases h
        exact hsplit _
      · rw [hsplit] at h
        obtain ⟨cut, hcut, heq⟩ := Option.map_eq_some_iff.1 h
        cases heq
        rw [List.cons_append, hsplit, ih hcut]
        rfl

/-- A search that does not end goes on, at the depth to which it has come. -/
theorem splitAtEnd?_append_of_none {depth depth' : Nat} {as : List Piece}
    (h : splitAtEnd? name depth as = none) (hdepth : (depth : Int) + balance name as = depth')
    (bs : List Piece) :
    splitAtEnd? name depth (as ++ bs)
      = (splitAtEnd? name depth' bs).map fun cut => (as ++ cut.1, cut.2) := by
  induction as generalizing depth with
  | nil =>
      obtain rfl : depth = depth' := by
        rw [balance_nil] at hdepth
        omega
      simp
  | cons piece as ih =>
      rcases splitAtEnd?_cons name depth piece with ⟨-, hsplit⟩ | ⟨middle, hmiddle, hsplit⟩
      · rw [hsplit] at h
        cases h
      · rw [hsplit, Option.map_eq_none_iff] at h
        rw [balance_cons, ← Int.add_assoc, hmiddle] at hdepth
        rw [List.cons_append, hsplit, ih h hdepth, Option.map_map]
        rfl

/-! ## Nested pieces -/

/-- Pieces in which the start tags and the end tags of each component name are properly nested. -/
structure Nested (pieces : List Piece) : Prop where
  /-- There are as many end tags as start tags. -/
  settled : ∀ name, isComponentTag name = true → balance name pieces = 0
  /-- Up to no place there are more end tags than start tags. -/
  nonneg : ∀ name, isComponentTag name = true → ∀ front, front <+: pieces → 0 ≤ balance name front

/-- The name of a tag. -/
def Piece.name? : Piece → Option String
  | .tag t => some t.name
  | _ => none

/-- The names of the tags among pieces. -/
def tagNames (pieces : List Piece) : List String := pieces.filterMap Piece.name?

theorem balance_eq_zero_of_not_mem {pieces : List Piece} (h : name ∉ tagNames pieces) :
    balance name pieces = 0 := by
  induction pieces with
  | nil => rfl
  | cons piece pieces ih =>
      cases piece with
      | tag t =>
          have hnames : tagNames (.tag t :: pieces) = t.name :: tagNames pieces := rfl
          rw [hnames, List.mem_cons, not_or] at h
          rw [balance_cons, ih h.2, weight_eq_zero_of_ne (Ne.symm h.1)]
          rfl
      | _ =>
          rw [balance_cons, ih h]
          rfl

/-- Only the names that occur have to be counted. -/
theorem nested_iff {pieces : List Piece} :
    Nested pieces ↔ ∀ name ∈ tagNames pieces, isComponentTag name = true →
      balance name pieces = 0 ∧ ∀ front ∈ pieces.inits, 0 ≤ balance name front := by
  constructor
  · intro h name _ hname
    exact ⟨h.settled name hname, fun front hfront =>
      h.nonneg name hname front ((List.mem_inits _ _).1 hfront)⟩
  · intro h
    refine ⟨fun name hname => ?_, fun name hname front hfront => ?_⟩
    · by_cases hmem : name ∈ tagNames pieces
      · exact (h name hmem hname).1
      · exact balance_eq_zero_of_not_mem hmem
    · by_cases hmem : name ∈ tagNames pieces
      · exact (h name hmem hname).2 front ((List.mem_inits _ _).2 hfront)
      · obtain ⟨rest, rfl⟩ := hfront
        rw [tagNames, List.filterMap_append] at hmem
        have hfront : name ∉ tagNames front := fun hfront => hmem (List.mem_append_left _ hfront)
        exact Int.le_of_eq (balance_eq_zero_of_not_mem hfront).symm

instance (pieces : List Piece) : Decidable (Nested pieces) := decidable_of_iff _ nested_iff.symm

/-- A search that goes through nested pieces leaves them at the depth at which it has come. -/
theorem splitAtEnd?_append_of_nested {pieces : List Piece} (h : Nested pieces)
    (hname : isComponentTag name = true) (depth : Nat) (bs : List Piece) :
    splitAtEnd? name depth (pieces ++ bs)
      = (splitAtEnd? name depth bs).map fun cut => (pieces ++ cut.1, cut.2) := by
  refine splitAtEnd?_append_of_none (splitAtEnd?_eq_none_iff.2 fun front hfront => ?_) ?_ bs
  · have := h.nonneg name hname front hfront
    omega
  · rw [h.settled name hname, Int.add_zero]

/-! ## Elements around nested pieces -/

/-- A start tag of a component that does not close itself, and an end tag of its name. -/
structure Encloses (t closer : Tag) : Prop where
  opens : (Piece.tag t).componentTag? = some t
  selfClosing_eq : t.selfClosing = false
  closing_eq : closer.closing = true
  name_eq : closer.name = t.name

variable {t closer : Tag}

theorem Encloses.isComponentTag (h : Encloses t closer) : isComponentTag t.name = true :=
  (source_of_componentTag? h.opens).2.2

/-- An element around nested pieces is nested. -/
theorem Encloses.nested (h : Encloses t closer) {inside : List Piece} (hinside : Nested inside) :
    Nested (.tag t :: (inside ++ [.tag closer])) := by
  -- The two tags count one up and one down, or not at all.
  have hweights : ∀ name, (0 : Int) ≤ (Piece.tag t).weight name ∧
      (Piece.tag t).weight name + (Piece.tag closer).weight name = 0 := by
    intro name
    by_cases hname : t.name = name
    · subst hname
      have hone := Tag.weight_eq_one (source_of_componentTag? h.opens).2.1 h.selfClosing_eq
      have hneg := Tag.weight_eq_neg_one h.closing_eq
      rw [h.name_eq] at hneg
      rw [hone, hneg]
      decide
    · rw [weight_eq_zero_of_ne hname, weight_eq_zero_of_ne (h.name_eq ▸ hname)]
      decide
  have htotal : ∀ name, SiteCompiler.Component.isComponentTag name = true →
      balance name (.tag t :: (inside ++ [.tag closer])) = 0 := by
    intro name hname
    have hsum := (hweights name).2
    have hsettled := hinside.settled name hname
    rw [balance_cons, balance_append, balance_cons, balance_nil]
    omega
  refine ⟨htotal, fun name hname front hfront => ?_⟩
  rcases List.prefix_cons_iff.1 hfront with rfl | ⟨more, rfl, hmore⟩
  · exact Int.le_refl 0
  · rcases List.prefix_concat_iff.1 hmore with rfl | hmore
    · exact Int.le_of_eq (htotal name hname).symm
    · have hnonneg := hinside.nonneg name hname more hmore
      have hopen := (hweights name).1
      rw [balance_cons]
      omega

/-- An element around nested pieces ends with its own end tag. -/
theorem Encloses.elementPieces (h : Encloses t closer) {inside : List Piece}
    (hinside : Nested inside) (bs : List Piece) :
    elementPieces t (inside ++ .tag closer :: bs) = (inside ++ [.tag closer], bs) := by
  have hend : splitAtEnd? t.name 0 (.tag closer :: bs) = some ([.tag closer], bs) := by
    simp [splitAtEnd?, Piece.nesting, h.name_eq, h.closing_eq]
  rw [SiteCompiler.Component.elementPieces, if_neg (by simp [h.selfClosing_eq]),
    splitAtEnd?_append_of_nested hinside h.isComponentTag, hend]
  rfl

/-- An element that begins in front of nested pieces ends in front of them or behind them, in a
place that does not depend on these pieces. -/
theorem elementPieces_append_nested {u : Tag} (hu : isComponentTag u.name = true)
    (as bs : List Piece) :
    (∃ xs ys, as = xs ++ ys ∧ ∀ inner, Nested inner →
        elementPieces u (as ++ (inner ++ bs)) = (xs, ys ++ (inner ++ bs))) ∨
      ∃ xs ys, bs = xs ++ ys ∧ ∀ inner, Nested inner →
        elementPieces u (as ++ (inner ++ bs)) = (as ++ (inner ++ xs), ys) := by
  unfold elementPieces
  by_cases hself : u.selfClosing = true
  · exact Or.inl ⟨[], as, rfl, fun inner _ => by rw [if_pos hself]⟩
  simp only [if_neg hself]
  cases hfront : splitAtEnd? u.name 0 as with
  | some cut =>
      refine Or.inl ⟨cut.1, cut.2, (append_of_splitAtEnd? hfront).symm, fun inner _ => ?_⟩
      rw [splitAtEnd?_append_of_some hfront]
      rfl
  | none =>
      -- The search comes to the nested pieces at some depth, and leaves them at the same one.
      have hpos := splitAtEnd?_eq_none_iff.1 hfront as (List.prefix_refl as)
      obtain ⟨depth, hdepth⟩ : ∃ depth : Nat, ((0 : Nat) : Int) + balance u.name as = depth :=
        ⟨(balance u.name as).toNat, by omega⟩
      have hpass : ∀ inner, Nested inner → splitAtEnd? u.name 0 (as ++ (inner ++ bs))
          = (splitAtEnd? u.name depth bs).map fun cut => (as ++ (inner ++ cut.1), cut.2) := by
        intro inner hinner
        rw [splitAtEnd?_append_of_none hfront hdepth, splitAtEnd?_append_of_nested hinner hu,
          Option.map_map]
        rfl
      cases hback : splitAtEnd? u.name depth bs with
      | some cut =>
          refine Or.inr ⟨cut.1, cut.2, (append_of_splitAtEnd? hback).symm, fun inner hinner => ?_⟩
          rw [hpass inner hinner, hback]
          rfl
      | none =>
          refine Or.inl ⟨[], as, rfl, fun inner hinner => ?_⟩
          rw [hpass inner hinner, hback]
          rfl

/-! ## Segments -/

/-- A segment without what stands inside its element. -/
def Segment.outline : Segment → Segment
  | .text source => .text source
  | .component ref _ => .component ref []

/-- **What is nested inside an element plays no part in the cut of a document.** The induction is on
the pieces in front of the element; an element that begins there ends before it or behind it. -/
theorem map_outline_segmentsOf (h : Encloses t closer) {inside inside' : List Piece}
    (hinside : Nested inside) (hinside' : Nested inside') (as bs : List Piece) :
    (segmentsOf (as ++ .tag t :: (inside ++ .tag closer :: bs))).map Segment.outline
      = (segmentsOf (as ++ .tag t :: (inside' ++ .tag closer :: bs))).map Segment.outline := by
  have hwrap : ∀ inner : List Piece, Piece.tag t :: (inner ++ .tag closer :: bs)
      = .tag t :: (inner ++ [.tag closer]) ++ bs := by simp
  induction hlen : as.length using Nat.strong_induction_on generalizing as with
  | _ n ih =>
      subst hlen
      cases as with
      | nil =>
          rw [List.nil_append, List.nil_append, segmentsOf_cons_of_some h.opens,
            segmentsOf_cons_of_some h.opens, h.elementPieces hinside, h.elementPieces hinside']
          rfl
      | cons piece as =>
          rw [List.cons_append, List.cons_append]
          cases hpiece : piece.componentTag? with
          | none =>
              rw [segmentsOf_cons_of_none hpiece, segmentsOf_cons_of_none hpiece, List.map_cons,
                List.map_cons, ih as.length (Nat.lt_succ_self _) as rfl]
          | some u =>
              obtain ⟨rfl, -, hu⟩ := source_of_componentTag? hpiece
              have hnested := h.nested hinside
              have hnested' := h.nested hinside'
              rw [segmentsOf_cons_of_some hpiece, segmentsOf_cons_of_some hpiece, List.map_cons,
                List.map_cons, hwrap, hwrap]
              rcases elementPieces_append_nested hu as bs with
                ⟨xs, ys, rfl, hcut⟩ | ⟨xs, ys, rfl, hcut⟩
              · have hshort : ys.length < (Piece.tag u :: (xs ++ ys)).length := by
                  simp only [List.length_cons, List.length_append]
                  omega
                have hrest := ih ys.length hshort ys rfl
                rw [hwrap, hwrap] at hrest
                rw [hcut _ hnested, hcut _ hnested', hrest]
              · rw [hcut _ hnested, hcut _ hnested']
                rfl

end SiteCompiler.Component
