import SiteCompiler.Stylesheet.Minify
import SiteCompiler.Proofs.Sequence
import Mathlib.Data.List.Basic
set_option autoImplicit false

/-! # When a stylesheet is empty

A stylesheet without chunks is empty. Any other one begins with the statement that orders the
layers. What a minifier makes of that is its own affair, but the order of layers has a meaning, so
something is left of it (`KeepsLayers`). With such a minifier, or with none, a stylesheet is empty
exactly if there are no chunks (`generate_ne_empty_iff`).

The minifier at hand is of that kind (`keepsLayers_minify`): the statement is read as the first item
of the text (`items_orderStatement`), which stays the first one whatever follows, and a layer that
is named is written (`rulesText_layer_ne_empty`).
-/

namespace SiteCompiler.Stylesheet

/-! ## The first statement -/

theorem ofText_of_first {c : Char} {rest : List Char} {token : Token} {n : Nat}
    (h : Token.first c rest = (some token, n + 1)) :
    Token.ofText (c :: rest) = token :: Token.ofText (rest.drop n) := by
  rw [Token.ofText, h]
  rfl

/-- The tokens of the statement that orders the layers, up to its semicolon. -/
def orderTokens : List Token :=
  [.mark '@', .name "layer".toList, .space, .name "global".toList, .mark ',', .space,
    .name "layout".toList, .mark ',', .space, .name "components".toList, .mark ',', .space,
    .name "utils".toList]

theorem ofText_orderStatement (more : List Char) : Token.ofText (orderStatement.toList ++ more)
    = orderTokens ++ .mark ';' :: Token.ofText more := by
  have hstatement : orderStatement.toList
      = '@' :: "layer global, layout, components, utils;".toList := by
    decide +kernel
  rw [hstatement, List.cons_append]
  -- One step for each token; the text behind the semicolon is not looked at.
  iterate 14 refine (ofText_of_first rfl).trans (congrArg (List.cons _) ?_)
  rfl

/-- The outermost of the frames in reading. -/
def outermost (frames : Frame × List Frame) : Frame := frames.2.getLast?.getD frames.1

theorem outermost_cons (inner frame : Frame) (outer : List Frame) :
    outermost (inner, frame :: outer) = outermost (frame, outer) := by
  cases outer with
  | nil => rfl
  | cons around outer =>
      show ((frame :: around :: outer).getLast?).getD inner
        = ((around :: outer).getLast?).getD frame
      rw [List.getLast?_cons_cons, List.getLast?_cons, Option.getD_some, Option.getD_some]

/-- Changing the innermost frame leaves the items of the outermost one, or adds to them. -/
theorem items_outermost_mono {frame frame' : Frame} (h : frame.items <+: frame'.items)
    (outer : List Frame) :
    (outermost (frame, outer)).items <+: (outermost (frame', outer)).items := by
  cases outer with
  | nil => exact h
  | cons around outer =>
      simpa only [outermost_cons] using List.prefix_refl (outermost (around, outer)).items

theorem readToken_keeps {frames frames' : Frame × List Frame} {token : Token}
    (h : readToken frames token = .ok frames') :
    (outermost frames).items <+: (outermost frames').items := by
  obtain ⟨frame, outer⟩ := frames
  unfold readToken at h
  split at h
  · next heq =>
      cases heq
      cases h
      simpa only [outermost_cons] using List.prefix_refl (outermost (frame, outer)).items
  · cases h
  · next heq =>
      cases heq
      cases h
      rw [outermost_cons]
      exact items_outermost_mono (List.prefix_append _ _) _
  · next heq =>
      cases heq
      cases h
      exact items_outermost_mono (List.prefix_append _ _) _
  · next heq =>
      cases heq
      cases h
      refine items_outermost_mono ?_ outer
      exact List.prefix_refl frame.items

theorem readTokens_keeps {tokens : List Token} {frames frames' : Frame × List Frame}
    (h : tokens.foldlM readToken frames = .ok frames') :
    (outermost frames).items <+: (outermost frames').items := by
  induction tokens generalizing frames with
  | nil =>
      cases h
      exact List.prefix_refl _
  | cons token tokens ih =>
      rw [List.foldlM_cons] at h
      obtain ⟨next, hread, h⟩ := Sequence.bind_eq_ok_iff.1 h
      exact (readToken_keeps hread).trans (ih h)

theorem closeAll_keeps (frame : Frame) (outer : List Frame) :
    (outermost (frame, outer)).items <+: closeAll frame outer := by
  induction outer generalizing frame with
  | nil =>
      show frame.items <+: frame.finish
      unfold Frame.finish
      split
      · exact List.prefix_refl _
      · exact List.prefix_append _ _
  | cons around outer ih =>
      rw [outermost_cons]
      exact (items_outermost_mono (List.prefix_append _ _) outer).trans
        (ih (around.addBlock frame.finish))

theorem items_orderStatement {more : List Char} {read : List Item}
    (h : items (orderStatement.toList ++ more) = .ok read) :
    ∃ rest, read = .statement orderTokens :: rest := by
  have hstart : orderTokens.foldlM readToken ((⟨[], []⟩, []) : Frame × List Frame)
      = .ok (⟨[], orderTokens⟩, []) := rfl
  have hfold : (Token.mark ';' :: Token.ofText more).foldlM readToken
      ((⟨[], orderTokens⟩, []) : Frame × List Frame)
      = (Token.ofText more).foldlM readToken (⟨[.statement orderTokens], []⟩, []) := rfl
  rw [items] at h
  obtain ⟨frames, hread, h⟩ := Sequence.bind_eq_ok_iff.1 h
  rw [ofText_orderStatement, List.foldlM_append, hstart] at hread
  obtain ⟨rest, hrest⟩ :=
    (readTokens_keeps (hfold.symm.trans hread)).trans (closeAll_keeps frames.1 frames.2)
  cases h
  exact ⟨rest, hrest.symm⟩

theorem rules_orderStatement {more : String} {read : List Rule}
    (h : rules (orderStatement ++ more) = .ok read) :
    ∃ rest, read = .layerNames (Layer.all.map Layer.name) :: rest := by
  rw [rules, String.toList_append] at h
  obtain ⟨found, hitems, h⟩ := Sequence.bind_eq_ok_iff.1 h
  obtain ⟨rest, rfl⟩ := items_orderStatement hitems
  have hnames : layerNames? (Token.trim orderTokens) = some (Layer.all.map Layer.name) := by
    decide +kernel
  rw [rulesOf] at h
  obtain ⟨rule, hrule, h⟩ := Sequence.bind_eq_ok_iff.1 h
  obtain ⟨rules, -, h⟩ := Sequence.bind_eq_ok_iff.1 h
  simp only [Rule.ofItem, hnames] at hrule
  cases hrule
  cases h
  exact ⟨rules, rfl⟩

/-! ## Layers are written -/

/-- Rules that begin with the block of a layer. -/
def BeginsWithLayer (rules : List Rule) : Prop :=
  ∃ name inner rest, rules = .layer name inner :: rest

theorem beginsWithLayer_place {done : List Rule} (h : BeginsWithLayer done) (rule : Rule) :
    BeginsWithLayer (place done rule) := by
  obtain ⟨name, inner, rest, rfl⟩ := h
  unfold place
  split
  · next other rules =>
      split
      · rw [List.map_cons, Rule.extend]
        split
        · exact ⟨name, _, _, rfl⟩
        · exact ⟨name, _, _, rfl⟩
      · exact ⟨name, inner, _, rfl⟩
  · exact ⟨name, inner, _, rfl⟩

theorem beginsWithLayer_foldl (rules : List Rule) {done : List Rule} (h : BeginsWithLayer done) :
    BeginsWithLayer (rules.foldl place done) := by
  induction rules generalizing done with
  | nil => exact h
  | cons rule rules ih => exact ih (beginsWithLayer_place h rule)

theorem beginsWithLayer_tidy (name : String) (names : List String) (rest : List Rule) :
    BeginsWithLayer (tidy (.layerNames (name :: names) :: rest)) := by
  rw [tidy, tidyAll, Rule.tidy, List.map_cons, List.cons_append, List.foldl_cons]
  exact beginsWithLayer_foldl _ ⟨name, [], [], rfl⟩

theorem append_ne_empty {a : String} (h : a ≠ "") (b : String) : a ++ b ≠ "" := by
  intro heq
  have hlist := congrArg String.toList heq
  rw [String.toList_append] at hlist
  exact h (String.toList_injective (List.append_eq_nil_iff.1 hlist).1)

theorem namesText_ne_empty {named : List String} (h : named ≠ []) : namesText named ≠ "" := by
  have hfalse : named.isEmpty = false := by
    cases named with
    | nil => exact absurd rfl h
    | cons name named => rfl
  rw [namesText, hfalse]
  exact append_ne_empty (append_ne_empty (by decide) _) _

/-- Names of layers that are only named are written at last. -/
theorem rulesText_ne_empty (rules : List Rule) {named : List String} (h : named ≠ []) :
    rulesText named rules ≠ "" := by
  have hother : ∀ text text' : String, namesText named ++ text ++ text' ≠ "" := fun text text' =>
    append_ne_empty (append_ne_empty (namesText_ne_empty h) text) text'
  induction rules generalizing named with
  | nil => exact namesText_ne_empty h
  | cons rule rules ih =>
      cases rule with
      | style selectors declarations => exact hother _ _
      | layerNames names => exact hother _ _
      | layer name inner =>
          cases inner with
          | cons first inner => exact hother _ _
          | nil =>
              have hnamed : named ++ [name] ≠ [] := by simp
              exact ih hnamed fun text text' =>
                append_ne_empty (append_ne_empty (namesText_ne_empty hnamed) text) text'

theorem rulesText_layer_ne_empty {rules : List Rule} (h : BeginsWithLayer rules) :
    rulesText [] rules ≠ "" := by
  obtain ⟨name, inner, rest, rfl⟩ := h
  cases inner with
  | nil => exact rulesText_ne_empty rest (List.cons_ne_nil name [])
  | cons first inner =>
      have hlayer : (Rule.layer name (first :: inner)).text ≠ "" :=
        append_ne_empty (append_ne_empty (by decide) name) _
      have hrule : "" ++ (Rule.layer name (first :: inner)).text ≠ "" := by
        rwa [String.empty_append]
      exact append_ne_empty hrule _

/-! ## Generated text -/

theorem blocks_eq_nil_iff {chunks : Chunks} : blocks chunks = [] ↔ ∀ layer, chunks layer = [] := by
  rw [blocks, List.map_eq_nil_iff, List.filter_eq_nil_iff]
  constructor
  · intro h layer
    simpa using h layer (Layer.mem_all layer)
  · intro h layer _
    rw [h layer]
    simp

theorem layered_eq_empty {chunks : Chunks} (h : ∀ layer, chunks layer = []) :
    layered chunks = "" := by
  rw [layered, blocks_eq_nil_iff.2 h]

theorem exists_layered {chunks : Chunks} (h : ¬ ∀ layer, chunks layer = []) :
    ∃ more, layered chunks = orderStatement ++ more := by
  rw [layered]
  split
  · next hblocks => exact absurd (blocks_eq_nil_iff.1 hblocks) h
  · exact ⟨_, String.append_assoc⟩

/-- Minifiers that leave something of a text that orders the layers. -/
def KeepsLayers (minify : String → Except CssError String) : Prop :=
  ∀ more css, minify (orderStatement ++ more) = .ok css → css ≠ ""

/-- **A stylesheet is empty exactly if it has no chunks**, minified or not. -/
theorem generate_ne_empty_iff {minify : String → Except CssError String} {chunks : Chunks}
    {minified : Bool} {text : String} (hkeeps : minified = true → KeepsLayers minify)
    (h : generate minify chunks minified = .ok text) :
    text ≠ "" ↔ ¬ ∀ layer, chunks layer = [] := by
  constructor
  · intro hne hempty
    rw [generate, layered_eq_empty hempty] at h
    simp only [ne_eq, not_true_eq_false, decide_false, Bool.and_false, Bool.false_eq_true,
      if_false] at h
    cases h
    exact hne rfl
  · intro hchunks
    obtain ⟨more, hlayered⟩ := exists_layered hchunks
    rw [generate, hlayered] at h
    split at h
    · next hminified =>
        rw [Bool.and_eq_true] at hminified
        exact hkeeps hminified.1 more text h
    · cases h
      exact append_ne_empty (by decide +kernel) more

theorem keepsLayers_minify : KeepsLayers minify := by
  intro more css h
  rw [minify] at h
  split at h
  · cases h
  · next hrules =>
      obtain ⟨rest, rfl⟩ := rules_orderStatement hrules
      rw [← Except.ok.inj h]
      exact rulesText_layer_ne_empty (beginsWithLayer_tidy _ _ rest)

end SiteCompiler.Stylesheet
