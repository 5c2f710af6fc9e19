import SiteCompiler.JsonValue
import SiteCompiler.Proofs.Text.Search
set_option autoImplicit false

/-! # The tokens of a JSON text

A JSON text is a sequence of tokens with blanks in between: brackets and marks, `null`, numbers and
strings. A string may use any of the escapes of JSON, so there are many ways to write a text; the
escapes that values are written with are read back (`stringText?_escaped`), and so are the digits of
a number (`number?_toString`), as long as no other digit follows them. Only natural numbers are
read.
-/

namespace SiteCompiler.JsonValue

/-- A token of a JSON text. -/
inductive Token where
  | openList
  | closeList
  | openRecord
  | closeRecord
  | comma
  | colon
  | null
  | number (n : Nat)
  | text (s : String)
  deriving DecidableEq, Repr

/-! ## Reading tokens -/

/-- The blanks between tokens. -/
def isSpace (c : Char) : Bool := c == ' ' || c == '\n' || c == '\r' || c == '\t'

/-- The code unit that four hexadecimal digits stand for. -/
def codeUnit? (cs : List Char) : Option Nat :=
  let digits := cs.take 4
  if digits.length = 4 && digits.all fun c => (Text.hexDigit? c).isSome then
    some (Text.digitsValue 16 digits)
  else none

/-- The character that an escape stands for and the length of the escape, behind its backslash. A
character that has no code unit of its own is written as a pair of them. -/
def escape? : List Char → Option (Char × Nat)
  | '"' :: _ => some ('"', 1)
  | '\\' :: _ => some ('\\', 1)
  | '/' :: _ => some ('/', 1)
  | 'b' :: _ => some ('\x08', 1)
  | 'f' :: _ => some ('\x0c', 1)
  | 'n' :: _ => some ('\n', 1)
  | 'r' :: _ => some ('\r', 1)
  | 't' :: _ => some ('\t', 1)
  | 'u' :: rest =>
      match codeUnit? rest with
      | none => none
      | some unit =>
          if unit < 0xD800 || 0xE000 ≤ unit then some (Char.ofNat unit, 5)
          else
            match rest.drop 4 with
            | '\\' :: 'u' :: more =>
                match codeUnit? more with
                | none => none
                | some low =>
                    if unit < 0xDC00 && 0xDC00 ≤ low && low < 0xE000 then
                      some (Char.ofNat (0x10000 + (unit - 0xD800) * 0x400 + (low - 0xDC00)), 11)
                    else none
            | _ => none
  | _ => none

/-- The text of a string up to its closing quote, and what follows that quote. -/
def stringText? (cs : List Char) : Option (List Char × List Char) :=
  match cs with
  | [] => none
  | '"' :: rest => some ([], rest)
  | '\\' :: rest =>
      match escape? rest with
      | some (c, length) => (stringText? (rest.drop length)).map fun read => (c :: read.1, read.2)
      | none => none
  | c :: rest =>
      if c.toNat < 0x20 then none else (stringText? rest).map fun read => (c :: read.1, read.2)
termination_by cs.length
decreasing_by all_goals (simp only [List.length_cons, List.length_drop]; omega)

/-- The number that begins here: digits, of which the first is zero only if there is no other. -/
def number? (cs : List Char) : Option (Nat × List Char) :=
  match cs.takeWhile Char.isDigit with
  | [] => none
  | '0' :: _ :: _ => none
  | digits => some (Nat.ofDigitChars 10 digits 0, cs.dropWhile Char.isDigit)

/-- The token that begins here, and what follows it. -/
def token? : List Char → Option (Token × List Char)
  | '[' :: rest => some (.openList, rest)
  | ']' :: rest => some (.closeList, rest)
  | '\x7b' :: rest => some (.openRecord, rest)
  | '\x7d' :: rest => some (.closeRecord, rest)
  | ',' :: rest => some (.comma, rest)
  | ':' :: rest => some (.colon, rest)
  | 'n' :: 'u' :: 'l' :: 'l' :: rest => some (.null, rest)
  | '"' :: rest => (stringText? rest).map fun read => (.text (String.ofList read.1), read.2)
  | cs => (number? cs).map fun read => (.number read.1, read.2)

/-- The tokens of a text. -/
def tokens? (cs : List Char) : Option (List Token) :=
  match cs with
  | [] => some []
  | c :: rest =>
      if isSpace c then tokens? rest
      else
        match token? (c :: rest) with
        | none => none
        | some (token, after) =>
            if after.length ≤ rest.length then (tokens? after).map (token :: ·) else none
termination_by cs.length
decreasing_by all_goals (simp only [List.length_cons]; omega)

theorem tokens?_nil : tokens? [] = some [] := by rw [tokens?]

theorem tokens?_space {c : Char} (h : isSpace c = true) (rest : List Char) :
    tokens? (c :: rest) = tokens? rest := by
  rw [tokens?, if_pos h]

theorem tokens?_token {c : Char} {rest after : List Char} {token : Token}
    (hspace : isSpace c = false) (htoken : token? (c :: rest) = some (token, after))
    (hlength : after.length ≤ rest.length) :
    tokens? (c :: rest) = (tokens? after).map (token :: ·) := by
  rw [tokens?, if_neg (by simp [hspace]), htoken]
  exact if_pos hlength

/-! ## Strings -/

theorem codeUnit?_hexDigits : ∀ n < 0x20,
    codeUnit? ['0', '0', Text.hexDigit (n / 16), Text.hexDigit (n % 16)] = some n := by
  decide

theorem codeUnit?_append {digits : List Char} (h : digits.length = 4) (rest : List Char) :
    codeUnit? (digits ++ rest) = codeUnit? digits := by
  have htake : (digits ++ rest).take 4 = digits := by rw [← h, List.take_left]
  have htake' : digits.take 4 = digits := by rw [← h, List.take_length]
  rw [codeUnit?, codeUnit?, htake, htake']

/-- A control character is written as its code unit. -/
theorem escape?_codeUnit {c : Char} (h : c.toNat < 0x20) (rest : List Char) :
    escape? (['u', '0', '0', Text.hexDigit (c.toNat / 16), Text.hexDigit (c.toNat % 16)] ++ rest)
      = some (c, 5) := by
  have hlength : ['0', '0', Text.hexDigit (c.toNat / 16),
      Text.hexDigit (c.toNat % 16)].length = 4 := rfl
  have hunit := codeUnit?_append hlength rest
  rw [codeUnit?_hexDigits c.toNat h] at hunit
  have hsmall : (decide (c.toNat < 0xD800) || decide (0xE000 ≤ c.toNat)) = true := by
    simp only [Bool.or_eq_true, decide_eq_true_eq]
    omega
  simp only [List.cons_append, List.nil_append] at hunit ⊢
  rw [escape?, hunit]
  simp only [hsmall, if_true, Char.ofNat_toNat]

theorem stringText?_escape (escape : List Char) {rest : List Char} {c : Char}
    (h : escape? (escape ++ rest) = some (c, escape.length)) :
    stringText? ('\\' :: (escape ++ rest))
      = (stringText? rest).map fun read => (c :: read.1, read.2) := by
  rw [stringText?, h]
  simp only [List.drop_left]

/-- A character is read as it is written, whatever follows it. -/
theorem stringText?_escapeChar (c : Char) (rest : List Char) :
    stringText? (escapeChar c ++ rest)
      = (stringText? rest).map fun read => (c :: read.1, read.2) := by
  unfold escapeChar
  split
  -- The last case is that of all characters without an escape of their own.
  case h_8 hquote hbackslash _ _ _ _ _ =>
    split
    · next hcontrol => exact stringText?_escape _ (escape?_codeUnit hcontrol rest)
    · next hcontrol =>
        rw [List.singleton_append, stringText?]
        · exact if_neg hcontrol
        · exact hquote
        · exact hbackslash
  all_goals exact stringText?_escape [_] rfl

theorem stringText?_escaped (cs rest : List Char) :
    stringText? (cs.flatMap escapeChar ++ '"' :: rest) = some (cs, rest) := by
  induction cs with
  | nil => rw [List.flatMap_nil, List.nil_append, stringText?]
  | cons c cs ih =>
      rw [List.flatMap_cons, List.append_assoc, stringText?_escapeChar, ih]
      rfl

/-! ## Numbers -/

/-- The text does not go on with a digit. -/
def EndsNumber (rest : List Char) : Prop := ∀ c, rest.head? = some c → c.isDigit = false

theorem endsNumber_nil : EndsNumber [] := nofun

theorem endsNumber_cons {c : Char} (h : c.isDigit = false) (rest : List Char) :
    EndsNumber (c :: rest) := by
  rintro _ ⟨⟩
  exact h

/-- The digits of a number begin with zero only if it is zero. -/
theorem head?_toDigits_ne {n : Nat} (h : n ≠ 0) : (Nat.toDigits 10 n).head? ≠ some '0' := by
  induction n using Nat.strong_induction_on with
  | _ n ih =>
      by_cases hlt : n < 10
      · rw [Nat.toDigits_of_lt_base hlt]
        have hdigit : ∀ m < 10, m ≠ 0 → Nat.digitChar m ≠ '0' := by decide
        simpa using hdigit n hlt h
      · rw [Nat.toDigits_of_base_le (by decide) (by omega),
          List.head?_append_of_ne_nil _ Nat.toDigits_ne_nil]
        exact ih (n / 10) (by omega) (by omega)

theorem toList_toString (n : Nat) : (toString n).toList = Nat.toDigits 10 n := by
  rw [Nat.toString_eq_ofList_toDigits, String.toList_ofList]

theorem isDigit_of_mem_toString {n : Nat} {c : Char} (h : c ∈ (toString n).toList) :
    c.isDigit = true := by
  rw [toList_toString] at h
  exact Nat.isDigit_of_mem_toDigits (by decide) (by decide) h

theorem number?_toString (n : Nat) {rest : List Char} (hrest : EndsNumber rest) :
    number? ((toString n).toList ++ rest) = some (n, rest) := by
  have hrun : ∀ c ∈ (toString n).toList, c.isDigit = true := fun _ => isDigit_of_mem_toString
  rw [number?, Text.takeWhile_append_run hrun hrest, Text.dropWhile_append_run hrun hrest,
    toList_toString]
  split
  -- The digits of a number are neither none nor a zero with more behind it.
  · next hnil => exact absurd hnil Nat.toDigits_ne_nil
  · next c digits hzero =>
      by_cases hn : n = 0
      · rw [hn] at hzero
        cases hzero
      · exact absurd (by rw [hzero]; rfl) (head?_toDigits_ne hn)
  · rw [Nat.ofDigitChars_ten_toDigits]

theorem token?_digit {c : Char} (h : c.isDigit = true) (cs : List Char) :
    token? (c :: cs) = (number? (c :: cs)).map fun read => (.number read.1, read.2) := by
  unfold token?
  split
  case h_9 => rfl
  all_goals
    next heq =>
      rw [(List.cons.inj heq).1] at h
      cases h

theorem isSpace_eq_false_of_isDigit {c : Char} (h : c.isDigit = true) : isSpace c = false := by
  rw [Bool.eq_false_iff]
  intro hspace
  simp only [isSpace, Bool.or_eq_true, beq_iff_eq] at hspace
  rcases hspace with ((rfl | rfl) | rfl) | rfl <;> cases h

end SiteCompiler.JsonValue
