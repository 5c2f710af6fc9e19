import SiteCompiler.Text.Utf8
set_option autoImplicit false

/-! # Texts of the operating system

File names and paths are bytes, and the operating system does not care whether they are UTF-8. Any
text can be such a name (`OsText.ofText`, which is inserted where a text stands for a name). For a
reader a name is read as a text, with a replacement character where it is not UTF-8
(`OsText.text`); two names can then look the same.
-/

namespace SiteCompiler

/-- A text of the operating system. -/
structure OsText where
  bytes : List UInt8
  deriving DecidableEq, Repr, Inhabited

namespace OsText

/-- The bytes of a text in UTF-8. -/
def ofText (s : String) : OsText := ⟨Text.bytes s⟩

instance : Coe String OsText := ⟨ofText⟩

/-- The text for a reader. -/
def text (s : OsText) : String := Text.ofBytes s.bytes

/-- The number of bytes. -/
def size (s : OsText) : Nat := s.bytes.length

/-- Whether there are no bytes. -/
def isEmpty (s : OsText) : Bool := s.bytes.isEmpty

instance : Append OsText := ⟨fun s t => ⟨s.bytes ++ t.bytes⟩⟩

/-- The parts with a separator between them. -/
def intercalate (separator : OsText) (parts : List OsText) : OsText :=
  ⟨separator.bytes.intercalate (parts.map bytes)⟩

/-- Names are sorted by their bytes. -/
instance : LE OsText := ⟨fun s t => s.bytes ≤ t.bytes⟩

instance : DecidableLE OsText := fun s t => inferInstanceAs (Decidable (s.bytes ≤ t.bytes))

end OsText

end SiteCompiler
