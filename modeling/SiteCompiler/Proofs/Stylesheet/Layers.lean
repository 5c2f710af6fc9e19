import SiteCompiler.Proofs.Stylesheet.Generate
import Mathlib.Data.String.Basic
set_option autoImplicit false

/-! # Layers stay separate

The layered text is put together without a look at what the chunks hold. Here it is read by the
rules for comments, strings and escapes, with a count of the braces that are open (`Place.step`).
What a chunk does depends on the depth only in that it must not go below it, so a chunk that closes
what it opens (`ClosedCss`) can stand in any block, and the brace that closes the block is the one
that was written for it (`partsFrom_block`). Hence the layered text is the statement that orders
the layers and one block for each layer that has chunks (`generate_parts`).
-/

namespace SiteCompiler.Stylesheet

/-! ## Reading CSS -/

/-- What a character has to say, outside comments and strings. -/
inductive Mark where
  | text
  | opens
  | closes
  | ends
  deriving DecidableEq, Repr

/-- Where in CSS text a character stands. -/
inductive Mode where
  | code
  /-- Behind a slash, with which a comment may begin. -/
  | slash
  /-- Behind a backslash outside strings. -/
  | escape
  | comment
  /-- Behind an asterisk, with which the end of a comment may begin. -/
  | asterisk
  | quoted (quote : Char)
  /-- Behind a backslash in a string. -/
  | quotedEscape (quote : Char)
  /-- Behind an escaped carriage return, to which a line feed may belong. -/
  | quotedReturn (quote : Char)
  deriving DecidableEq, Repr

/-- Reads a character outside comments and strings. -/
def codeStep (c : Char) : Mode × Mark :=
  if c = '\x7b' then (.code, .opens)
  else if c = '\x7d' then (.code, .closes)
  else if c = ';' then (.code, .ends)
  else if c = '/' then (.slash, .text)
  else if c = '\\' then (.escape, .text)
  else if c = '"' ∨ c = '\'' then (.quoted c, .text)
  else (.code, .text)

/-- Reads a character of a string, which a line break leaves unclosed. -/
def stringStep (quote c : Char) : Option (Mode × Mark) :=
  if c = quote then some (.code, .text)
  else if c = '\\' then some (.quotedEscape quote, .text)
  else if c ∈ ['\n', '\r', '\x0c'] then none
  else some (.quoted quote, .text)

namespace Mode

/-- Reads a character. -/
def step : Mode → Char → Option (Mode × Mark)
  | code, c => some (codeStep c)
  | slash, c => if c = '*' then some (comment, .text) else some (codeStep c)
  | escape, _ => some (code, .text)
  | comment, c => some (if c = '*' then asterisk else comment, .text)
  | asterisk, c => some (if c = '/' then code else if c = '*' then asterisk else comment, .text)
  | quoted quote, c => stringStep quote c
  | quotedEscape quote, c => some (if c = '\r' then quotedReturn quote else quoted quote, .text)
  | quotedReturn quote, c => if c = '\n' then some (quoted quote, .text) else stringStep quote c

/-- Whether a comment or a string is open. -/
def isOpen : Mode → Bool
  | code | slash | escape => false
  | comment | asterisk | quoted _ | quotedEscape _ | quotedReturn _ => true

end Mode

/-- Where a reader stands: in which part of the text, and in how many open braces. -/
structure Place where
  mode : Mode
  depth : Nat
  deriving DecidableEq, Repr

namespace Place

/-- The place in front of a text. -/
def start : Place := ⟨.code, 0⟩

/-- Reads a character. A brace that closes nothing cannot be read. -/
def step (place : Place) (c : Char) : Option Place :=
  (place.mode.step c).bind fun (mode, mark) =>
    match mark, place.depth with
    | .opens, depth => some ⟨mode, depth + 1⟩
    | .closes, 0 => none
    | .closes, depth + 1 => some ⟨mode, depth⟩
    | _, depth => some ⟨mode, depth⟩

/-- Reads a text. -/
def after (place : Place) (cs : List Char) : Option Place := cs.foldlM step place

/-- Whether everything is closed: comments, strings and braces. -/
def isClosed (place : Place) : Bool := place.depth == 0 && !place.mode.isOpen

end Place

/-- CSS text that, read on its own, closes its comments and strings, and whose braces are balanced.
-/
def ClosedCss (chunk : String) : Prop :=
  ∃ place, Place.start.after chunk.toList = some place ∧ place.isClosed = true

instance (chunk : String) : Decidable (ClosedCss chunk) :=
  decidable_of_iff ((Place.start.after chunk.toList).any Place.isClosed = true) (by
    rw [Option.any_eq_true]
    rfl)

/-! ## The parts of a text -/

/-- What stands outside all braces, or between two braces there. -/
inductive Part where
  | statement (text : String)
  | block (head body : String)
  /-- Text behind the last statement or block. -/
  | rest (text : String)
  deriving DecidableEq, Repr

/-- The part as it stands in the text. -/
def Part.source : Part → String
  | statement text => text
  | block head body => head ++ "\x7b" ++ body ++ "\x7d"
  | rest text => text

/-- The parts of a text that is read from a place on. `head` stands in front of it outside all
braces, and `body` in the braces that are open. -/
def partsFrom : Place → List Char → List Char → List Char → Option (List Part)
  | place, head, _, [] =>
      if place.isClosed then some (if head.isEmpty then [] else [.rest (String.ofList head)])
      else none
  | ⟨mode, 0⟩, head, _, c :: cs =>
      match mode.step c with
      | none => none
      | some (mode, .opens) => partsFrom ⟨mode, 1⟩ head [] cs
      | some (_, .closes) => none
      | some (mode, .ends) =>
          (partsFrom ⟨mode, 0⟩ [] [] cs).map (.statement (String.ofList (head ++ [c])) :: ·)
      | some (mode, .text) => partsFrom ⟨mode, 0⟩ (head ++ [c]) [] cs
  | ⟨mode, depth + 1⟩, head, body, c :: cs =>
      match Place.step ⟨mode, depth + 1⟩ c with
      | none => none
      | some ⟨mode, 0⟩ =>
          (partsFrom ⟨mode, 0⟩ [] [] cs).map
            (.block (String.ofList head) (String.ofList body) :: ·)
      | some ⟨mode, depth + 1⟩ => partsFrom ⟨mode, depth + 1⟩ head (body ++ [c]) cs

/-- The parts of a text; none if it does not close what it opens. -/
def parts? (text : String) : Option (List Part) := partsFrom .start [] [] text.toList

/-! ## Reading deeper inside -/

namespace Place

variable {place : Place} {mode mode' : Mode} {depth depth' : Nat} {cs : List Char}

theorem after_nil (place : Place) : place.after [] = some place := rfl

theorem after_cons (place : Place) (c : Char) (cs : List Char) :
    place.after (c :: cs) = (place.step c).bind fun next => next.after cs := by
  rw [after, List.foldlM_cons]
  rfl

theorem after_append (place : Place) (cs more : List Char) :
    place.after (cs ++ more) = (place.after cs).bind fun next => next.after more := by
  rw [after, List.foldlM_append]
  rfl

/-- A character that can be read at some depth does the same one level deeper. -/
theorem step_deeper {c : Char} (h : step ⟨mode, depth⟩ c = some ⟨mode', depth'⟩) :
    step ⟨mode, depth + 1⟩ c = some ⟨mode', depth' + 1⟩ := by
  rw [step] at h ⊢
  obtain ⟨⟨next, mark⟩, hmode, h⟩ := Option.bind_eq_some_iff.1 h
  rw [hmode, Option.bind_some]
  cases mark with
  | text => cases h; rfl
  | opens => cases h; rfl
  | ends => cases h; rfl
  | closes =>
      cases depth with
      | zero => cases h
      | succ depth => cases h; rfl

/-- Behind closed text a line break is nothing but a blank. -/
theorem step_newline (h : place.isClosed = true) : place.step '\n' = some start := by
  obtain ⟨mode, depth⟩ := place
  simp only [isClosed, Bool.and_eq_true, beq_iff_eq, Bool.not_eq_true'] at h
  obtain ⟨rfl, hmode⟩ := h
  cases mode with
  | code => decide
  | slash => decide
  | escape => decide
  | comment => cases hmode
  | asterisk => cases hmode
  | quoted quote => cases hmode
  | quotedEscape quote => cases hmode
  | quotedReturn quote => cases hmode

end Place

/-- Text that is read in open braces, and does not close the outermost of them, is a part of what
stands in these. -/
theorem partsFrom_inner {mode mode' : Mode} {depth depth' : Nat} {cs : List Char}
    (h : Place.after ⟨mode, depth⟩ cs = some ⟨mode', depth'⟩) (head body more : List Char) :
    partsFrom ⟨mode, depth + 1⟩ head body (cs ++ more)
      = partsFrom ⟨mode', depth' + 1⟩ head (body ++ cs) more := by
  induction cs generalizing mode depth body with
  | nil =>
      cases h
      rw [List.nil_append, List.append_nil]
  | cons c cs ih =>
      rw [Place.after_cons] at h
      obtain ⟨⟨next, nextDepth⟩, hstep, h⟩ := Option.bind_eq_some_iff.1 h
      rw [List.cons_append, partsFrom, Place.step_deeper hstep]
      simp only
      rw [ih h, List.append_assoc, List.singleton_append]

/-- Characters that stand for themselves only. -/
def PlainText (cs : List Char) : Prop := ∀ c ∈ cs, codeStep c = (.code, .text)

instance (cs : List Char) : Decidable (PlainText cs) :=
  decidable_of_iff (cs.all (fun c => codeStep c = (.code, .text)) = true) (by simp [PlainText])

theorem partsFrom_plain {cs : List Char} (hplain : PlainText cs) (head more : List Char) :
    partsFrom .start head [] (cs ++ more) = partsFrom .start (head ++ cs) [] more := by
  induction cs generalizing head with
  | nil => rw [List.nil_append, List.append_nil]
  | cons c cs ih =>
      obtain ⟨hc, hcs⟩ := List.forall_mem_cons.1 hplain
      rw [List.cons_append, Place.start, partsFrom, Mode.step, hc]
      exact (ih hcs (head ++ [c])).trans (by rw [List.append_assoc, List.singleton_append]; rfl)

theorem partsFrom_statement {cs : List Char} (hplain : PlainText cs) (more : List Char) :
    partsFrom .start [] [] (cs ++ ';' :: more)
      = (partsFrom .start [] [] more).map (.statement (String.ofList (cs ++ [';'])) :: ·) := by
  rw [partsFrom_plain hplain, List.nil_append]
  rfl

/-- A block is closed by the brace that is written behind its body, whatever closed text the body
is. -/
theorem partsFrom_block {head body : List Char} (hhead : PlainText head)
    (hbody : Place.start.after body = some .start) (more : List Char) :
    partsFrom .start [] [] (head ++ '\x7b' :: (body ++ '\x7d' :: more))
      = (partsFrom .start [] [] more).map
          (.block (String.ofList head) (String.ofList body) :: ·) := by
  have hopen : partsFrom .start head [] ('\x7b' :: (body ++ '\x7d' :: more))
      = partsFrom ⟨.code, 1⟩ head [] (body ++ '\x7d' :: more) := rfl
  rw [partsFrom_plain hhead, List.nil_append, hopen, partsFrom_inner hbody, List.nil_append]
  rfl

/-! ## The reading keeps the text -/

theorem stringStep_mark {quote c : Char} {next : Mode} {mark : Mark}
    (h : stringStep quote c = some (next, mark)) : mark = .text := by
  unfold stringStep at h
  split_ifs at h
  all_goals
    cases h
    rfl

/-- Only a brace outside comments and strings opens or closes a block. -/
theorem Mode.eq_of_step {mode next : Mode} {mark : Mark} {c : Char}
    (h : mode.step c = some (next, mark)) :
    (mark = .opens → c = '\x7b') ∧ (mark = .closes → c = '\x7d') := by
  have hcode (h : codeStep c = (next, mark)) :
      (mark = .opens → c = '\x7b') ∧ (mark = .closes → c = '\x7d') := by
    unfold codeStep at h
    split_ifs at h
    all_goals
      cases h
      simp [*]
  have htext (h : mark = .text) : (mark = .opens → c = '\x7b') ∧ (mark = .closes → c = '\x7d') := by
    simp [h]
  cases mode with
  | code => exact hcode (Option.some.inj h)
  | slash =>
      rw [step] at h
      split_ifs at h
      · exact htext (Prod.mk.inj (Option.some.inj h)).2.symm
      · exact hcode (Option.some.inj h)
  | escape => exact htext (Prod.mk.inj (Option.some.inj h)).2.symm
  | comment => exact htext (Prod.mk.inj (Option.some.inj h)).2.symm
  | asterisk => exact htext (Prod.mk.inj (Option.some.inj h)).2.symm
  | quoted quote => exact htext (stringStep_mark h)
  | quotedEscape quote => exact htext (Prod.mk.inj (Option.some.inj h)).2.symm
  | quotedReturn quote =>
      rw [step] at h
      split_ifs at h
      · exact htext (Prod.mk.inj (Option.some.inj h)).2.symm
      · exact htext (stringStep_mark h)

theorem Place.eq_of_step_zero {mode mode' : Mode} {depth : Nat} {c : Char}
    (h : Place.step ⟨mode, depth + 1⟩ c = some ⟨mode', 0⟩) : c = '\x7d' := by
  rw [Place.step] at h
  obtain ⟨⟨next, mark⟩, hmode, h⟩ := Option.bind_eq_some_iff.1 h
  cases mark with
  | text => cases h
  | opens => cases h
  | ends => cases h
  | closes => exact (Mode.eq_of_step hmode).2 rfl

/-- Nothing of a text is lost when it is read in parts. -/
theorem join_source_of_partsFrom {mode : Mode} {depth : Nat} {head body cs : List Char}
    {parts : List Part} (h : partsFrom ⟨mode, depth⟩ head body cs = some parts) :
    (String.join (parts.map Part.source)).toList
      = if depth = 0 then head ++ cs else head ++ '\x7b' :: (body ++ cs) := by
  induction cs generalizing mode depth head body parts with
  | nil =>
      rw [partsFrom] at h
      split at h
      · next hclosed =>
          simp only [Place.isClosed, Bool.and_eq_true, beq_iff_eq] at hclosed
          rw [if_pos hclosed.1]
          cases h
          split
          · next hempty => simp [List.isEmpty_iff.1 hempty]
          · simp [Part.source]
      · cases h
  | cons c cs ih =>
      cases depth with
      | zero =>
          rw [if_pos rfl]
          rw [partsFrom] at h
          split at h
          · cases h
          · next hstep =>
              rw [ih h, if_neg Nat.one_ne_zero, (Mode.eq_of_step hstep).1 rfl, List.nil_append]
          · cases h
          · obtain ⟨later, hlater, rfl⟩ := Option.map_eq_some_iff.1 h
            rw [List.map_cons, String.join_cons, String.toList_append, ih hlater]
            simp [Part.source]
          · rw [ih h]
            simp
      | succ depth =>
          rw [if_neg (Nat.succ_ne_zero depth)]
          rw [partsFrom] at h
          split at h
          · cases h
          · next hstep =>
              obtain ⟨later, hlater, rfl⟩ := Option.map_eq_some_iff.1 h
              rw [List.map_cons, String.join_cons, String.toList_append, ih hlater,
                Place.eq_of_step_zero hstep]
              simp [Part.source]
          · rw [ih h]
            simp

theorem join_source_of_parts? {text : String} {parts : List Part} (h : parts? text = some parts) :
    String.join (parts.map Part.source) = text := by
  have hkept := join_source_of_partsFrom h
  rw [if_pos rfl, List.nil_append] at hkept
  exact String.toList_injective hkept

/-! ## The layered text -/

theorem ClosedCss.after_line {chunk : String} (h : ClosedCss chunk) :
    Place.start.after (chunk.toList ++ ['\n']) = some .start := by
  obtain ⟨place, hafter, hclosed⟩ := h
  rw [Place.after_append, hafter, Option.bind_some, Place.after_cons,
    Place.step_newline hclosed, Option.bind_some, Place.after_nil]

/-- What stands in the block of a layer: its chunks, with a line break around each. -/
def blockBody (chunks : List String) : String := "\n" ++ String.intercalate "\n" chunks ++ "\n"

theorem after_intercalate {chunks : List String} (h : ∀ chunk ∈ chunks, ClosedCss chunk) :
    Place.start.after ((String.intercalate "\n" chunks).toList ++ ['\n']) = some .start := by
  induction chunks with
  | nil => rfl
  | cons chunk chunks ih =>
      obtain ⟨hchunk, hchunks⟩ := List.forall_mem_cons.1 h
      cases chunks with
      | nil =>
          rw [String.intercalate_singleton]
          exact hchunk.after_line
      | cons next chunks =>
          have hbreak : "\n".toList = ['\n'] := rfl
          rw [String.intercalate_cons_cons, String.toList_append, String.toList_append, hbreak,
            List.append_assoc, Place.after_append, hchunk.after_line, Option.bind_some]
          exact ih hchunks

theorem after_blockBody {chunks : List String} (h : ∀ chunk ∈ chunks, ClosedCss chunk) :
    Place.start.after (blockBody chunks).toList = some .start := by
  have hsource : (blockBody chunks).toList
      = '\n' :: ((String.intercalate "\n" chunks).toList ++ ['\n']) := by
    simp [blockBody]
  rw [hsource, Place.after_cons]
  exact after_intercalate h

/-- What stands in front of the block of a layer. -/
def blockHead (layer : Layer) : String := "\n@layer " ++ layer.name ++ " "

theorem plainText_blockHead (layer : Layer) : PlainText (blockHead layer).toList := by
  cases layer <;> decide +kernel

theorem partsFrom_blocks {chunks : Chunks}
    (hclosed : ∀ layer, ∀ chunk ∈ chunks layer, ClosedCss chunk) (layers : List Layer) :
    partsFrom .start [] [] (String.join (layers.map fun layer =>
        "\n" ++ block layer (chunks layer))).toList
      = some (layers.map fun layer => .block (blockHead layer) (blockBody (chunks layer))) := by
  induction layers with
  | nil => rfl
  | cons layer layers ih =>
      have hblock : ("\n" ++ block layer (chunks layer)).toList = (blockHead layer).toList
          ++ '\x7b' :: ((blockBody (chunks layer)).toList ++ ['\x7d']) := by
        simp [block, blockHead, blockBody]
      have hsource : (String.join ((layer :: layers).map fun layer =>
            "\n" ++ block layer (chunks layer))).toList
          = (blockHead layer).toList ++ '\x7b' :: ((blockBody (chunks layer)).toList
            ++ '\x7d' :: (String.join (layers.map fun layer =>
              "\n" ++ block layer (chunks layer))).toList) := by
        rw [List.map_cons, String.join_cons, String.toList_append, hblock]
        simp
      rw [hsource, partsFrom_block (plainText_blockHead layer) (after_blockBody (hclosed layer)),
        ih, Option.map_some, String.ofList_toList, String.ofList_toList, List.map_cons]

/-- The layers that have chunks. -/
def usedLayers (chunks : Chunks) : List Layer :=
  Layer.all.filter fun layer => !(chunks layer).isEmpty

theorem join_newline {texts : List String} (h : texts ≠ []) :
    "\n" ++ String.intercalate "\n" texts = String.join (texts.map ("\n" ++ ·)) := by
  induction texts with
  | nil => exact absurd rfl h
  | cons text texts ih =>
      cases texts with
      | nil => simp
      | cons next texts =>
          rw [String.intercalate_cons_cons, List.map_cons, String.join_cons,
            ← ih (List.cons_ne_nil next texts)]
          simp only [String.append_assoc]

theorem layered_eq {chunks : Chunks} (h : ¬ ∀ layer, chunks layer = []) :
    layered chunks = orderStatement ++ String.join ((usedLayers chunks).map fun layer =>
      "\n" ++ block layer (chunks layer)) := by
  have hne : blocks chunks ≠ [] := fun hnil => h (blocks_eq_nil_iff.1 hnil)
  have hlayered : layered chunks
      = orderStatement ++ "\n" ++ String.intercalate "\n" (blocks chunks) := by
    rw [layered]
    split
    · next hnil => exact absurd hnil hne
    · rfl
  rw [hlayered, String.append_assoc, join_newline hne, blocks, List.map_map]
  rfl

theorem parts?_layered {chunks : Chunks}
    (hclosed : ∀ layer, ∀ chunk ∈ chunks layer, ClosedCss chunk)
    (h : ¬ ∀ layer, chunks layer = []) :
    parts? (layered chunks) = some (.statement orderStatement :: (usedLayers chunks).map
      fun layer => .block (blockHead layer) (blockBody (chunks layer))) := by
  have hstatement : orderStatement.toList = orderStatement.toList.dropLast ++ [';'] := by
    decide +kernel
  have hplain : PlainText orderStatement.toList.dropLast := by decide +kernel
  rw [parts?, layered_eq h, String.toList_append, hstatement, List.append_assoc,
    List.singleton_append, partsFrom_statement hplain, partsFrom_blocks hclosed, ← hstatement,
    String.ofList_toList]
  rfl

/-- **Layers stay separate.** If every chunk closes its comments, strings and braces, the text is
empty without chunks, and otherwise it is the statement that orders the layers and, in their order,
one block for each layer that has chunks, which holds these and nothing else. The parts make up the
whole text, so no chunk stands outside the block of its layer. -/
theorem generate_parts (minify : String → Except CssError String) (chunks : Chunks)
    (hclosed : ∀ layer, ∀ chunk ∈ chunks layer, ClosedCss chunk) :
    ∃ text, generate minify chunks false = .ok text ∧
      ((∀ layer, chunks layer = []) → text = "") ∧
      ((∃ layer, chunks layer ≠ []) →
        parts? text = some (.statement orderStatement :: (usedLayers chunks).map fun layer =>
          .block ("\n@layer " ++ layer.name ++ " ")
            ("\n" ++ String.intercalate "\n" (chunks layer) ++ "\n"))) ∧
      ∀ parts, parts? text = some parts → String.join (parts.map Part.source) = text := by
  refine ⟨layered chunks, rfl, layered_eq_empty, ?_, fun parts => join_source_of_parts?⟩
  rintro ⟨layer, hlayer⟩
  exact parts?_layered hclosed fun hnone => hlayer (hnone layer)

/-- Chunks with braces in strings, in comments and behind a backslash, and one that ends in half of
what begins a comment. -/
def braceChunks : Chunks
  | .global => ["a\x7b\x7d/* \x7b ' */", ".b::before\x7bcontent:'\x7d\\'\x7b'\x7d"]
  | .utils => [".c\\\x7b\x7b\x7d/"]
  | _ => []

theorem generate_parts_braceChunks : ∃ text, generate minify braceChunks false = .ok text ∧
    parts? text = some [.statement "@layer global, layout, components, utils;",
      .block "\n@layer global "
        "\na\x7b\x7d/* \x7b ' */\n.b::before\x7bcontent:'\x7d\\'\x7b'\x7d\n",
      .block "\n@layer utils " "\n.c\\\x7b\x7b\x7d/\n"] := by
  have hclosed : ∀ layer, ∀ chunk ∈ braceChunks layer, ClosedCss chunk := by
    intro layer
    cases layer <;> decide +kernel
  obtain ⟨text, htext, -, hparts, -⟩ := generate_parts minify braceChunks hclosed
  refine ⟨text, htext, (hparts ⟨.global, by decide⟩).trans ?_⟩
  decide +kernel

end SiteCompiler.Stylesheet
