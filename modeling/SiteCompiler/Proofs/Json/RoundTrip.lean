import SiteCompiler.Proofs.Json.Token
import Mathlib.Data.List.Forall2
set_option autoImplicit false

/-! # Values are read back from their text

The text of a value is read token by token (`reads_render`), whatever its margins are and whatever
follows it. The tokens are then put together from the left: at each of them it is known which lists
and records are open and what they already hold (`Context`), so a value is delivered to the place
where it is waited for (`run_tokens`). Hence every value is read back from its text
(`ofText?_pretty`), and different values have different texts.
-/

namespace SiteCompiler.JsonValue

/-! ## The tokens of a value -/

mutual

/-- The tokens of a value. -/
def tokens : JsonValue → List Token
  | null => [.null]
  | number n => [.number n]
  | text s => [.text s]
  | list elements =>
      .openList :: ([.comma].intercalate (tokensOfElements elements) ++ [.closeList])
  | record fields =>
      .openRecord :: ([.comma].intercalate (tokensOfFields fields) ++ [.closeRecord])

/-- The tokens of each element of a list. -/
def tokensOfElements : List JsonValue → List (List Token)
  | [] => []
  | element :: rest => element.tokens :: tokensOfElements rest

/-- The tokens of each field of a record. -/
def tokensOfFields : List (String × JsonValue) → List (List Token)
  | [] => []
  | (name, value) :: rest => (.text name :: .colon :: value.tokens) :: tokensOfFields rest

end

/-- The text is read as these tokens if `rest` follows it. -/
def Reads (cs : List Char) (ts : List Token) (rest : List Char) : Prop :=
  tokens? (cs ++ rest) = (tokens? rest).map (ts ++ ·)

theorem Reads.append {as bs rest : List Char} {ts us : List Token} (ha : Reads as ts (bs ++ rest))
    (hb : Reads bs us rest) : Reads (as ++ bs) (ts ++ us) rest := by
  rw [Reads] at ha hb ⊢
  rw [List.append_assoc, ha, hb, Option.map_map]
  congr 1
  funext vs
  exact (List.append_assoc ts us vs).symm

theorem reads_nil (rest : List Char) : Reads [] [] rest := by
  rw [Reads, List.nil_append]
  cases tokens? rest <;> rfl

theorem reads_spaces {cs : List Char} (h : ∀ c ∈ cs, isSpace c = true) (rest : List Char) :
    Reads cs [] rest := by
  induction cs with
  | nil => exact reads_nil rest
  | cons c cs ih =>
      have htail := ih fun d hd => h d (List.mem_cons_of_mem c hd)
      rw [Reads] at htail ⊢
      rw [List.cons_append, tokens?_space (h c List.mem_cons_self), htail]

theorem reads_token (c : Char) (cs : List Char) {rest : List Char} {token : Token}
    (hspace : isSpace c = false) (htoken : token? (c :: (cs ++ rest)) = some (token, rest)) :
    Reads (c :: cs) [token] rest :=
  tokens?_token hspace htoken (by simp)

theorem reads_quoted (s : String) (rest : List Char) : Reads (quoted s).toList [.text s] rest := by
  have hlist : (quoted s).toList = '"' :: (s.toList.flatMap escapeChar ++ ['"']) := by
    simp [quoted]
  rw [hlist]
  refine reads_token _ _ rfl ?_
  rw [List.append_assoc, List.singleton_append, token?, stringText?_escaped, Option.map_some,
    String.ofList_toList]

theorem reads_number (n : Nat) {rest : List Char} (hrest : EndsNumber rest) :
    Reads (toString n).toList [.number n] rest := by
  have hne : (toString n).toList ≠ [] := by
    rw [toList_toString]
    exact Nat.toDigits_ne_nil
  have hnumber := number?_toString n hrest
  obtain ⟨c, cs, hcs⟩ := List.exists_cons_of_ne_nil hne
  have hc : c.isDigit = true := isDigit_of_mem_toString (by rw [hcs]; exact List.mem_cons_self)
  rw [hcs] at hnumber ⊢
  refine reads_token c cs (isSpace_eq_false_of_isDigit hc) ?_
  rw [token?_digit hc, ← List.cons_append, hnumber]
  rfl

/-! ## The text of a value -/

/-- The part of a text is read as these tokens wherever no digit follows it. -/
def ReadsPart (part : String) (ts : List Token) : Prop :=
  ∀ rest, EndsNumber rest → Reads part.toList ts rest

theorem reads_margin (depth : Nat) (rest : List Char) : Reads (margin depth).toList [] rest := by
  refine reads_spaces (fun c hc => ?_) rest
  rw [margin, String.toList_ofList] at hc
  rw [List.eq_of_mem_replicate hc]
  rfl

theorem reads_newline (rest : List Char) : Reads "\n".toList [] rest :=
  reads_spaces (List.forall_mem_singleton.2 rfl) rest

theorem reads_lines {lines : List String} {tss : List (List Token)}
    (h : List.Forall₂ ReadsPart lines tss) :
    ReadsPart (String.intercalate ",\n" lines) ([.comma].intercalate tss) := by
  induction h with
  | nil => exact fun rest _ => reads_nil rest
  | @cons line ts lines tss hline hlines ih =>
      intro rest hrest
      cases hlines with
      | nil =>
          rw [String.intercalate_singleton, List.intercalate_singleton]
          exact hline rest hrest
      | cons =>
          -- A comma comes next, so that a number at the end of this line ends there.
          have hcomma : ∀ after, Reads ",\n".toList [.comma] after := fun after =>
            (reads_token ',' [] rfl rfl).append (reads_newline after)
          rw [String.intercalate_cons_cons, List.intercalate_cons_cons, String.append_assoc,
            List.append_assoc, String.toList_append, String.toList_append]
          exact (hline _ (endsNumber_cons rfl _)).append ((hcomma _).append (ih rest hrest))

/-- Brackets with parts in between are read, on however many lines they stand. -/
theorem reads_enclosed {opening closing : String} {first last : Token} {depth : Nat}
    {parts : List String} {tss : List (List Token)}
    (hopening : ∀ rest, Reads opening.toList [first] rest)
    (hclosing : ∀ rest, Reads closing.toList [last] rest)
    (hparts : List.Forall₂ ReadsPart parts tss) (rest : List Char) :
    Reads (enclosed opening closing depth parts).toList
      (first :: ([.comma].intercalate tss ++ [last])) rest := by
  rw [enclosed]
  split
  · next hempty =>
      rw [List.isEmpty_iff] at hempty
      rw [hempty] at hparts
      cases hparts
      rw [String.toList_append]
      exact (hopening _).append (hclosing rest)
  · -- Each part stands on a line of its own behind its margin, which adds no token.
    have hlines : List.Forall₂ ReadsPart (parts.map (margin (depth + 1) ++ ·)) tss := by
      rw [List.forall₂_map_left_iff]
      refine hparts.imp fun part ts hpart after hafter => ?_
      rw [String.toList_append]
      exact (reads_margin _ _).append (hpart after hafter)
    simp only [String.append_assoc, String.toList_append]
    exact (hopening _).append ((reads_newline _).append ((reads_lines hlines _
      (endsNumber_cons rfl _)).append ((reads_newline _).append ((reads_margin _ _).append
        (hclosing rest)))))

theorem reads_null (rest : List Char) : Reads "null".toList [.null] rest :=
  reads_token 'n' ['u', 'l', 'l'] rfl rfl

theorem reads_openList (rest : List Char) : Reads "[".toList [.openList] rest :=
  reads_token '[' [] rfl rfl

theorem reads_closeList (rest : List Char) : Reads "]".toList [.closeList] rest :=
  reads_token ']' [] rfl rfl

theorem reads_openRecord (rest : List Char) : Reads "\x7b".toList [.openRecord] rest :=
  reads_token '\x7b' [] rfl rfl

theorem reads_closeRecord (rest : List Char) : Reads "\x7d".toList [.closeRecord] rest :=
  reads_token '\x7d' [] rfl rfl

mutual

/-- A value is read token by token, whatever its margins are. -/
theorem reads_render (depth : Nat) : ∀ v : JsonValue, ReadsPart (v.render depth) v.tokens
  | .null => by
      rw [render, tokens]
      exact fun rest _ => reads_null rest
  | .number n => by
      rw [render, tokens]
      exact fun _ hrest => reads_number n hrest
  | .text s => by
      rw [render, tokens]
      exact fun rest _ => reads_quoted s rest
  | .list elements => by
      rw [render, tokens]
      exact fun rest _ => reads_enclosed reads_openList reads_closeList
        (reads_renderAll (depth + 1) elements) rest
  | .record fields => by
      rw [render, tokens]
      exact fun rest _ => reads_enclosed reads_openRecord reads_closeRecord
        (reads_renderFields (depth + 1) fields) rest

theorem reads_renderAll (depth : Nat) : ∀ elements : List JsonValue,
    List.Forall₂ ReadsPart (renderAll depth elements) (tokensOfElements elements)
  | [] => .nil
  | element :: rest => .cons (reads_render depth element) (reads_renderAll depth rest)

theorem reads_renderFields (depth : Nat) : ∀ fields : List (String × JsonValue),
    List.Forall₂ ReadsPart (renderFields depth fields) (tokensOfFields fields)
  | [] => .nil
  | (name, value) :: rest => by
      refine .cons ?_ (reads_renderFields depth rest)
      intro after hafter
      have hspace : ∀ c ∈ [' '], isSpace c = true := List.forall_mem_singleton.2 rfl
      have hcolon : ∀ after, Reads ": ".toList [.colon] after := fun after =>
        (reads_token ':' [] rfl rfl).append (reads_spaces hspace after)
      rw [String.toList_append, String.toList_append, List.append_assoc]
      exact (reads_quoted name _).append ((hcolon _).append (reads_render depth value after hafter))

end

theorem tokens?_pretty (v : JsonValue) : tokens? v.pretty.toList = some v.tokens := by
  have hread := reads_render 0 v [] endsNumber_nil
  rw [Reads, List.append_nil, tokens?_nil, Option.map_some, List.append_nil] at hread
  exact hread

/-! ## Putting tokens together -/

/-- Where a value is waited for: at the top, in a list behind some elements, or in a record behind
some fields and a name. -/
inductive Context where
  | top
  | element (before : List JsonValue) (outer : Context)
  | field (before : List (String × JsonValue)) (name : String) (outer : Context)

/-- What has been read, up to what can come next. -/
inductive State where
  | value (context : Context)
  | name (before : List (String × JsonValue)) (outer : Context)
  | colon (before : List (String × JsonValue)) (name : String) (outer : Context)
  | done (v : JsonValue) (context : Context)

/-- Takes one more token. A list or record can end at its beginning or behind a value, but not
behind a comma. -/
def step : State → Token → Option State
  | .value context, .null => some (.done .null context)
  | .value context, .number n => some (.done (.number n) context)
  | .value context, .text s => some (.done (.text s) context)
  | .value context, .openList => some (.value (.element [] context))
  | .value context, .openRecord => some (.name [] context)
  | .value (.element [] outer), .closeList => some (.done (.list []) outer)
  | .name [] outer, .closeRecord => some (.done (.record []) outer)
  | .name before outer, .text s => some (.colon before s outer)
  | .colon before name outer, .colon => some (.value (.field before name outer))
  | .done v (.element before outer), .comma => some (.value (.element (before ++ [v]) outer))
  | .done v (.element before outer), .closeList => some (.done (.list (before ++ [v])) outer)
  | .done v (.field before name outer), .comma => some (.name (before ++ [(name, v)]) outer)
  | .done v (.field before name outer), .closeRecord =>
      some (.done (.record (before ++ [(name, v)])) outer)
  | _, _ => none

/-- The value that tokens make. -/
def ofTokens? (ts : List Token) : Option JsonValue :=
  match ts.foldlM step (.value .top) with
  | some (.done v .top) => some v
  | _ => none

/-- The value that a text stands for. -/
def ofText? (s : String) : Option JsonValue := (tokens? s.toList).bind ofTokens?

theorem step_text (before : List (String × JsonValue)) (outer : Context) (s : String) :
    step (.name before outer) (.text s) = some (.colon before s outer) := by
  cases before <;> rfl

theorem run_field (before : List (String × JsonValue)) (name : String) (outer : Context)
    (ts : List Token) : (Token.text name :: Token.colon :: ts).foldlM step (.name before outer)
      = ts.foldlM step (.value (.field before name outer)) := by
  rw [List.foldlM_cons, step_text]
  rfl

mutual

/-- A value is delivered where it is waited for. -/
theorem run_tokens : ∀ (v : JsonValue) (context : Context),
    v.tokens.foldlM step (.value context) = some (.done v context)
  | .null, _ => rfl
  | .number _, _ => rfl
  | .text _, _ => rfl
  | .list [], _ => rfl
  | .list (element :: rest), context => by
      rw [tokens, List.foldlM_cons]
      exact run_elements (element :: rest) (List.cons_ne_nil _ _) [] context
  | .record [], _ => rfl
  | .record (field :: rest), context => by
      rw [tokens, List.foldlM_cons]
      exact run_fields (field :: rest) (List.cons_ne_nil _ _) [] context

theorem run_elements : ∀ (elements : List JsonValue), elements ≠ [] →
    ∀ (before : List JsonValue) (outer : Context),
    ([Token.comma].intercalate (tokensOfElements elements) ++ [Token.closeList]).foldlM step
      (.value (.element before outer)) = some (.done (.list (before ++ elements)) outer)
  | [], hne, _, _ => absurd rfl hne
  | [element], _, before, outer => by
      rw [tokensOfElements, tokensOfElements, List.intercalate_singleton, List.foldlM_append,
        run_tokens element]
      rfl
  | element :: next :: rest, _, before, outer => by
      -- The first element joins those before, and the comma waits for the next one.
      have hrest := run_elements (next :: rest) (List.cons_ne_nil _ _) (before ++ [element]) outer
      rw [List.append_assoc] at hrest
      rw [tokensOfElements, tokensOfElements, List.intercalate_cons_cons, ← tokensOfElements,
        List.append_assoc, List.append_assoc, List.foldlM_append, run_tokens element]
      exact hrest

theorem run_fields : ∀ (fields : List (String × JsonValue)), fields ≠ [] →
    ∀ (before : List (String × JsonValue)) (outer : Context),
    ([Token.comma].intercalate (tokensOfFields fields) ++ [Token.closeRecord]).foldlM step
      (.name before outer) = some (.done (.record (before ++ fields)) outer)
  | [], hne, _, _ => absurd rfl hne
  | [(name, v)], _, before, outer => by
      rw [tokensOfFields, tokensOfFields, List.intercalate_singleton, List.foldlM_append,
        run_field, run_tokens v]
      rfl
  | (name, v) :: next :: rest, _, before, outer => by
      have hrest := run_fields (next :: rest) (List.cons_ne_nil _ _) (before ++ [(name, v)]) outer
      rw [List.append_assoc] at hrest
      rw [tokensOfFields, tokensOfFields, List.intercalate_cons_cons, ← tokensOfFields,
        List.append_assoc, List.append_assoc, List.foldlM_append, run_field, run_tokens v]
      exact hrest

end

/-- Every value is read back from its text. -/
theorem ofText?_pretty (v : JsonValue) : ofText? v.pretty = some v := by
  rw [ofText?, tokens?_pretty, Option.bind_some, ofTokens?, run_tokens]

end SiteCompiler.JsonValue
