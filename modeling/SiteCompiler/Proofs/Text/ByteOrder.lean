import SiteCompiler.Proofs.Text.Utf8
set_option autoImplicit false

/-! # The order of bytes

Texts are sorted by their bytes in UTF-8. This is the order that comparing character by character
gives (`bytes_lt_bytes_iff`): of two characters the greater one has the greater encoding, and no
encoding begins with another.
-/

namespace SiteCompiler.Text

/-! ## Two characters -/

theorem ofNat_lt_iff {m n : Nat} (hm : m < 256) (hn : n < 256) :
    UInt8.ofNat m < UInt8.ofNat n ↔ m < n := by
  rw [UInt8.lt_iff_toNat_lt, UInt8.toNat_ofNat_of_lt' hm, UInt8.toNat_ofNat_of_lt' hn]

theorem ofNat_eq_iff {m n : Nat} (hm : m < 256) (hn : n < 256) :
    UInt8.ofNat m = UInt8.ofNat n ↔ m = n := by
  rw [← UInt8.toNat_inj, UInt8.toNat_ofNat_of_lt' hm, UInt8.toNat_ofNat_of_lt' hn]

/-- The greater of two numbers is the greater one in all but the last six bits, or in these. -/
theorem sextet_cases {m n : Nat} (h : m < n) :
    m / 64 < n / 64 ∨ m / 64 = n / 64 ∧ m % 64 < n % 64 := by
  omega

/-- The encodings of two characters differ in a byte that is greater for the greater character,
whatever stands behind them. -/
theorem utf8EncodeChar_append_lt {c d : Char} (h : c < d) (xs ys : List UInt8) :
    String.utf8EncodeChar c ++ xs < String.utf8EncodeChar d ++ ys := by
  have hd : d.val.toNat < 0x110000 := d.valid.elim (by omega) And.right
  rw [Char.lt_def, UInt32.lt_iff_toNat_lt] at h
  unfold String.utf8EncodeChar
  generalize c.val.toNat = m at h
  generalize d.val.toNat = n at h hd
  dsimp only
  repeat' split
  all_goals
    simp (disch := omega) only [List.cons_append, List.nil_append, List.cons_lt_cons_iff,
      ofNat_lt_iff, ofNat_eq_iff]
  -- Two encodings of four bytes differ first in the first six bits from the left that differ.
  case isFalse.isFalse.isFalse.isFalse.isFalse.isFalse =>
    rcases sextet_cases h with h | ⟨h, h0⟩
    · rcases sextet_cases h with h | ⟨h, h1⟩
      · rcases sextet_cases h with h | ⟨h, h2⟩
        · omega
        · omega
      · omega
    · omega
  all_goals omega

/-! ## Two texts -/

theorem flatMap_utf8EncodeChar_lt {as bs : List Char} (h : as < bs) :
    as.flatMap String.utf8EncodeChar < bs.flatMap String.utf8EncodeChar := by
  induction as generalizing bs with
  | nil =>
      cases bs with
      | nil => exact absurd h (List.lt_irrefl _)
      | cons b bs =>
          rw [List.flatMap_nil, List.flatMap_cons]
          cases hb : String.utf8EncodeChar b with
          | nil => exact absurd hb String.utf8EncodeChar_ne_nil
          | cons x xs => exact List.nil_lt_cons _ _
  | cons a as ih =>
      cases bs with
      | nil => exact absurd h (List.not_lt_nil _)
      | cons b bs =>
          rw [List.flatMap_cons, List.flatMap_cons]
          rcases List.cons_lt_cons_iff.1 h with hab | ⟨rfl, hrest⟩
          · exact utf8EncodeChar_append_lt hab _ _
          · exact List.append_left_lt (ih hrest)

theorem bytes_lt_bytes_iff {s t : String} : bytes s < bytes t ↔ s < t := by
  have hmono {s t : String} (h : s < t) : bytes s < bytes t := by
    rw [bytes_eq, bytes_eq]
    exact flatMap_utf8EncodeChar_lt (String.lt_iff.1 h)
  refine ⟨fun h => ?_, hmono⟩
  by_contra hnot
  by_cases heq : t = s
  · rw [heq] at h
    exact List.lt_irrefl _ h
  · exact List.lt_asymm h (hmono (Std.lt_of_le_of_ne (Std.not_lt.1 hnot) heq))

theorem bytes_le_bytes_iff {s t : String} : bytes s ≤ bytes t ↔ s ≤ t := not_congr bytes_lt_bytes_iff

end SiteCompiler.Text
