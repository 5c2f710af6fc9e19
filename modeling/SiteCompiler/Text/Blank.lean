set_option autoImplicit false

/-! # Blank characters

Attribute lists, class attributes and configuration values are cut at *blanks*: the characters
with the Unicode property `White_Space`. This is a larger set than the blanks of ASCII (a
no-break space or an ideographic space counts), and every place that trims or splits text uses
this one set.
-/

namespace SiteCompiler

/-- The characters with the Unicode property `White_Space`. -/
def isBlank (c : Char) : Bool :=
  let n := c.toNat
  (0x09 ≤ n && n ≤ 0x0D) || n == 0x20 || n == 0x85 || n == 0xA0 || n == 0x1680
    || (0x2000 ≤ n && n ≤ 0x200A) || n == 0x2028 || n == 0x2029 || n == 0x202F
    || n == 0x205F || n == 0x3000

namespace Text

/-- The text without the blanks at its end. -/
def trimEnd (cs : List Char) : List Char := (cs.reverse.dropWhile isBlank).reverse

/-- The maximal runs of characters that are not blank, in order. -/
def words (cs : List Char) : List (List Char) :=
  (cs.splitOnP isBlank).filter (fun w => !w.isEmpty)

end Text

end SiteCompiler
