set_option autoImplicit false

/-! # Texts and bytes

A text is written as bytes in UTF-8 (`bytes`). Bytes that come from elsewhere need not be UTF-8:
they are read with a replacement character for every stretch that cannot be part of a character
(`ofBytes`). Such a stretch is as long as it can be: the beginning of a character that is not
finished is one stretch, and any other byte that does not fit is one by itself.

The reader goes byte by byte. Between characters it keeps nothing; inside a character it keeps the
number that the bytes so far make, and what the next byte may be.
-/

namespace SiteCompiler.Text

/-- The bytes of a text in UTF-8. -/
def bytes (s : String) : List UInt8 := s.toUTF8.data.toList

/-- The character that is read where bytes are not UTF-8. -/
def replacement : Char := '\ufffd'

/-- A character of which some bytes have been read. -/
structure Unfinished where
  /-- The number of bytes that are still to come. -/
  missing : Nat
  /-- The number that the bytes so far make. -/
  number : Nat
  /-- The least byte that can come next. -/
  low : Nat
  /-- The greatest byte that can come next. -/
  high : Nat

/-- The character of several bytes that begins with this one. The next byte is restricted where a
shorter form, a surrogate or a number beyond the last character would come out. -/
def begin? (byte : Nat) : Option Unfinished :=
  if 0xC2 ≤ byte && byte ≤ 0xDF then some ⟨1, byte - 0xC0, 0x80, 0xBF⟩
  else if 0xE0 ≤ byte && byte ≤ 0xEF then
    some ⟨2, byte - 0xE0, if byte = 0xE0 then 0xA0 else 0x80, if byte = 0xED then 0x9F else 0xBF⟩
  else if 0xF0 ≤ byte && byte ≤ 0xF4 then
    some ⟨3, byte - 0xF0, if byte = 0xF0 then 0x90 else 0x80, if byte = 0xF4 then 0x8F else 0xBF⟩
  else none

/-- What a byte between characters gives: characters, and what it leaves unfinished. -/
def readFirst (byte : Nat) : List Char × Option Unfinished :=
  if byte < 0x80 then ([Char.ofNat byte], none)
  else
    match begin? byte with
    | some unfinished => ([], some unfinished)
    | none => ([replacement], none)

/-- What a byte gives. One that does not go on with an unfinished character stands between
characters. -/
def readByte (state : Option Unfinished) (byte : Nat) : List Char × Option Unfinished :=
  match state with
  | none => readFirst byte
  | some unfinished =>
      if unfinished.low ≤ byte && byte ≤ unfinished.high then
        let number := unfinished.number * 64 + (byte - 0x80)
        if unfinished.missing ≤ 1 then ([Char.ofNat number], none)
        else ([], some ⟨unfinished.missing - 1, number, 0x80, 0xBF⟩)
      else (replacement :: (readFirst byte).1, (readFirst byte).2)

/-- The characters that bytes are read as, where a character may be unfinished. -/
def readBytes : Option Unfinished → List UInt8 → List Char
  | none, [] => []
  | some _, [] => [replacement]
  | state, byte :: rest =>
      let read := readByte state byte.toNat
      read.1 ++ readBytes read.2 rest

/-- The text that bytes are read as. -/
def ofBytes (bytes : List UInt8) : String := String.ofList (readBytes none bytes)

end SiteCompiler.Text
