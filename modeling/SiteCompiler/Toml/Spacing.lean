set_option autoImplicit false

/-! # Blanks, comments and line ends

Blanks are spaces and tabs. A comment runs from `#` to the end of its line. Lines end with a line
feed, which a carriage return may precede.
-/

namespace SiteCompiler.Toml

/-- The blanks within a line. -/
def isInlineBlank (c : Char) : Bool := c == ' ' || c == '\t'

/-- The characters that can stand in a comment or a string: all but controls, save the tab. -/
def isTextChar (c : Char) : Bool := c == '\t' || (0x20 ≤ c.toNat && c.toNat ≠ 0x7F)

/-- What follows the blanks. -/
def skipBlanks (cs : List Char) : List Char := cs.dropWhile isInlineBlank

/-- What follows the comment, if one begins here. -/
def skipComment : List Char → List Char
  | '#' :: rest => rest.dropWhile isTextChar
  | cs => cs

/-- What follows the line end that stands here; the end of the text is one too. -/
def lineEnd? : List Char → Option (List Char)
  | [] => some []
  | '\n' :: rest => some rest
  | '\r' :: '\n' :: rest => some rest
  | _ => none

theorem length_skipBlanks_le (cs : List Char) : (skipBlanks cs).length ≤ cs.length :=
  (List.dropWhile_sublist _).length_le

theorem length_skipComment_le (cs : List Char) : (skipComment cs).length ≤ cs.length := by
  unfold skipComment
  split
  · exact Nat.le_succ_of_le (List.dropWhile_sublist _).length_le
  · exact Nat.le_refl _

/-- What follows the blanks, comments and line ends that stand here. -/
def skipLines (cs : List Char) : List Char :=
  match _h : skipComment (skipBlanks cs) with
  | '\n' :: rest => skipLines rest
  | '\r' :: '\n' :: rest => skipLines rest
  | rest => rest
termination_by cs.length
decreasing_by
  all_goals
    have := length_skipBlanks_le cs
    have := length_skipComment_le (skipBlanks cs)
    simp_all only [List.length_cons]
    omega

end SiteCompiler.Toml
