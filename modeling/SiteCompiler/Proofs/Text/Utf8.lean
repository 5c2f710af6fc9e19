import SiteCompiler.Text.Utf8
import Mathlib.Algebra.Group.Nat.Defs
import Mathlib.Data.List.Basic
set_option autoImplicit false

/-! # Reading bytes as text

What has been written as bytes is read back unchanged (`ofBytes_bytes`). What is read from other
bytes agrees with them in everything that is ASCII: an ASCII character is read exactly where its
byte stands, and the bytes on both sides of it are read apart (`ofBytes_append_cons`). The reason
is that a character of several bytes is never an ASCII one, however its bytes go on: the numbers
that it can still become lie between `Unfinished.least` and `Unfinished.bound` (`Unfinished.Sound`).
-/

namespace SiteCompiler.Text

/-! ## Writing -/

theorem bytes_eq (s : String) : bytes s = s.toList.flatMap String.utf8EncodeChar := by
  rw [bytes, String.toUTF8_eq_toByteArray, ← String.utf8Encode_toList, List.utf8Encode,
    List.data_toByteArray]

theorem bytes_append (s t : String) : bytes (s ++ t) = bytes s ++ bytes t := by
  rw [bytes_eq, bytes_eq, bytes_eq, String.toList_append, List.flatMap_append]

/-! ## Reading one byte -/

theorem readBytes_cons (state : Option Unfinished) (byte : UInt8) (rest : List UInt8) :
    readBytes state (byte :: rest) = (readByte state byte.toNat).1
      ++ readBytes (readByte state byte.toNat).2 rest := by
  cases state <;> rfl

theorem readFirst_of_lt {byte : Nat} (h : byte < 0x80) :
    readFirst byte = ([Char.ofNat byte], none) := if_pos h

theorem le_of_begin? {byte : Nat} {unfinished : Unfinished} (h : begin? byte = some unfinished) :
    0x80 ≤ byte := by
  by_contra hlt
  rw [begin?, if_neg (by simp; omega), if_neg (by simp; omega), if_neg (by simp; omega)] at h
  cases h

theorem readFirst_of_begin? {byte : Nat} {unfinished : Unfinished}
    (h : begin? byte = some unfinished) : readFirst byte = ([], some unfinished) := by
  have hbyte := le_of_begin? h
  rw [readFirst, if_neg (by omega), h]

/-- A byte that fits is the last one of its character, or more are to come. -/
theorem readByte_of_fits {unfinished : Unfinished} {byte : Nat} (hlow : unfinished.low ≤ byte)
    (hhigh : byte ≤ unfinished.high) : readByte (some unfinished) byte =
      if unfinished.missing ≤ 1 then
        ([Char.ofNat (unfinished.number * 64 + (byte - 0x80))], none)
      else
        ([],
          some ⟨unfinished.missing - 1, unfinished.number * 64 + (byte - 0x80), 0x80, 0xBF⟩) := by
  simp only [readByte, hlow, hhigh, decide_true, Bool.and_self, if_true]

theorem readByte_of_not_fits {unfinished : Unfinished} {byte : Nat}
    (h : ¬ (unfinished.low ≤ byte ∧ byte ≤ unfinished.high)) :
    readByte (some unfinished) byte = (replacement :: (readFirst byte).1, (readFirst byte).2) := by
  rw [readByte, if_neg (by simpa using h)]

/-! ## Reading what was written -/

theorem readBytes_of_begin? {n : Nat} {unfinished : Unfinished} (hn : n < 256)
    (h : begin? n = some unfinished) (rest : List UInt8) :
    readBytes none (UInt8.ofNat n :: rest) = readBytes (some unfinished) rest := by
  rw [readBytes_cons, UInt8.toNat_ofNat_of_lt' hn, readByte, readFirst_of_begin? h]
  rfl

theorem readBytes_of_fits {missing number low high n : Nat} (hn : n < 64) (hlow : low ≤ n + 0x80)
    (hhigh : n + 0x80 ≤ high) (rest : List UInt8) :
    readBytes (some ⟨missing + 2, number, low, high⟩) (UInt8.ofNat (n + 0x80) :: rest)
      = readBytes (some ⟨missing + 1, number * 64 + n, 0x80, 0xBF⟩) rest := by
  rw [readBytes_cons, UInt8.toNat_ofNat_of_lt' (show n + 0x80 < 256 by omega),
    readByte_of_fits hlow hhigh, if_neg (by simp), Nat.add_sub_cancel]
  rfl

theorem readBytes_of_fits_last {number low high n : Nat} (hn : n < 64) (hlow : low ≤ n + 0x80)
    (hhigh : n + 0x80 ≤ high) (rest : List UInt8) :
    readBytes (some ⟨1, number, low, high⟩) (UInt8.ofNat (n + 0x80) :: rest)
      = Char.ofNat (number * 64 + n) :: readBytes none rest := by
  rw [readBytes_cons, UInt8.toNat_ofNat_of_lt' (show n + 0x80 < 256 by omega),
    readByte_of_fits hlow hhigh, if_pos (Nat.le_refl 1), Nat.add_sub_cancel]
  rfl

theorem begin?_two {n : Nat} (h : 2 ≤ n) (hlt : n < 32) :
    begin? (n + 0xC0) = some ⟨1, n, 0x80, 0xBF⟩ := by
  rw [begin?, if_pos (by simp; omega), Nat.add_sub_cancel]

theorem begin?_three {n : Nat} (h : n < 16) : begin? (n + 0xE0)
    = some ⟨2, n, if n = 0 then 0xA0 else 0x80, if n = 13 then 0x9F else 0xBF⟩ := by
  rw [begin?, if_neg (by simp), if_pos (by simp; omega), Nat.add_sub_cancel]
  simp

theorem begin?_four {n : Nat} (h : n < 5) : begin? (n + 0xF0)
    = some ⟨3, n, if n = 0 then 0x90 else 0x80, if n = 4 then 0x8F else 0xBF⟩ := by
  rw [begin?, if_neg (by simp), if_neg (by simp), if_pos (by simp; omega), Nat.add_sub_cancel]
  simp

/-- The bytes of a character are read as this character. -/
theorem readBytes_utf8EncodeChar (c : Char) (rest : List UInt8) :
    readBytes none (String.utf8EncodeChar c ++ rest) = c :: readBytes none rest := by
  have hc : Char.ofNat c.toNat = c := Char.ofNat_toNat c
  have hvalid : c.toNat.isValidChar := c.valid
  rw [Nat.isValidChar] at hvalid
  unfold String.utf8EncodeChar
  generalize hn : c.val.toNat = n
  replace hn : c.toNat = n := hn
  rw [hn] at hvalid hc
  subst hc
  dsimp only
  split_ifs with h₁ h₂ h₃
  · rw [List.cons_append, List.nil_append, readBytes_cons,
      UInt8.toNat_ofNat_of_lt' (show n < 256 by omega), readByte, readFirst_of_lt (by omega)]
    rfl
  · have hnumber : n / 64 % 32 * 64 + n % 64 = n := by omega
    rw [List.cons_append, List.cons_append, List.nil_append,
      readBytes_of_begin? (by omega) (begin?_two (by omega) (by omega)),
      readBytes_of_fits_last (by omega) (by omega) (by omega), hnumber]
  · have hnumber : (n / 4096 % 16 * 64 + n / 64 % 64) * 64 + n % 64 = n := by omega
    rw [List.cons_append, List.cons_append, List.cons_append, List.nil_append,
      readBytes_of_begin? (by omega) (begin?_three (by omega)),
      readBytes_of_fits (by omega) (by split <;> omega) (by split <;> omega),
      readBytes_of_fits_last (by omega) (by omega) (by omega), hnumber]
  · have hnumber :
        ((n / 262144 % 8 * 64 + n / 4096 % 64) * 64 + n / 64 % 64) * 64 + n % 64 = n := by omega
    rw [List.cons_append, List.cons_append, List.cons_append, List.cons_append, List.nil_append,
      readBytes_of_begin? (by omega) (begin?_four (by omega)),
      readBytes_of_fits (by omega) (by split <;> omega) (by split <;> omega),
      readBytes_of_fits (by omega) (by omega) (by omega),
      readBytes_of_fits_last (by omega) (by omega) (by omega), hnumber]

theorem readBytes_flatMap (cs : List Char) :
    readBytes none (cs.flatMap String.utf8EncodeChar) = cs := by
  induction cs with
  | nil => rfl
  | cons c cs ih => rw [List.flatMap_cons, readBytes_utf8EncodeChar, ih]

@[simp] theorem ofBytes_bytes (s : String) : ofBytes (bytes s) = s := by
  rw [ofBytes, bytes_eq, readBytes_flatMap, String.ofList_toList]

theorem bytes_inj {s t : String} : bytes s = bytes t ↔ s = t := by
  constructor
  · intro h
    rw [← ofBytes_bytes s, h, ofBytes_bytes]
  · rintro rfl
    rfl

/-! ## What an unfinished character can become -/

theorem toNat_charOfNat {n : Nat} (h : n.isValidChar) : (Char.ofNat n).toNat = n := by
  rw [Char.ofNat, dif_pos h]
  rfl

theorem toNat_charOfNat_of_lt {n : Nat} (h : n < 0x80) : (Char.ofNat n).toNat = n :=
  toNat_charOfNat (Or.inl (by omega))

namespace Unfinished

variable {unfinished : Unfinished}

/-- The least number that the character can get. -/
def least (unfinished : Unfinished) : Nat :=
  (unfinished.number * 64 + (unfinished.low - 0x80)) * 64 ^ (unfinished.missing - 1)

/-- The numbers that the character can get are below this one. -/
def bound (unfinished : Unfinished) : Nat :=
  (unfinished.number * 64 + (unfinished.high - 0x80) + 1) * 64 ^ (unfinished.missing - 1)

/-- Every number that the character can get is that of a character, and not of an ASCII one. -/
structure Sound (unfinished : Unfinished) : Prop where
  low : 0x80 ≤ unfinished.low
  least : 0x80 ≤ unfinished.least
  valid : unfinished.bound ≤ 0xD800 ∨ 0xE000 ≤ unfinished.least ∧ unfinished.bound ≤ 0x110000

theorem sound_of_begin? {byte : Nat} (h : begin? byte = some unfinished) : unfinished.Sound := by
  rw [begin?] at h
  split_ifs at h <;> simp only [Bool.and_eq_true, decide_eq_true_eq] at *
  all_goals
    obtain rfl := Option.some.inj h
    refine ⟨?_, ?_, ?_⟩ <;> simp only [Unfinished.least, Unfinished.bound] <;> omega

/-- A byte that fits narrows down what the character can become. -/
theorem Sound.next (h : unfinished.Sound) {byte : Nat} (hlow : unfinished.low ≤ byte)
    (hhigh : byte ≤ unfinished.high) (hmissing : ¬ unfinished.missing ≤ 1) :
    Sound ⟨unfinished.missing - 1, unfinished.number * 64 + (byte - 0x80), 0x80, 0xBF⟩ := by
  obtain ⟨hbyte, hleast, hvalid⟩ := h
  have hpow : 64 ^ (unfinished.missing - 1) = 64 * 64 ^ (unfinished.missing - 1 - 1) := by
    rw [← Nat.pow_succ']
    congr 1
    omega
  have hleast' : unfinished.least ≤ Unfinished.least
      ⟨unfinished.missing - 1, unfinished.number * 64 + (byte - 0x80), 0x80, 0xBF⟩ := by
    simp only [Unfinished.least, Nat.sub_self, Nat.add_zero]
    rw [hpow, ← Nat.mul_assoc]
    exact Nat.mul_le_mul_right _ (by omega)
  have hbound' : Unfinished.bound
      ⟨unfinished.missing - 1, unfinished.number * 64 + (byte - 0x80), 0x80, 0xBF⟩
        ≤ unfinished.bound := by
    simp only [Unfinished.bound]
    rw [hpow, ← Nat.mul_assoc]
    exact Nat.mul_le_mul_right _ (by omega)
  refine ⟨Nat.le_refl _, Nat.le_trans hleast hleast', ?_⟩
  rcases hvalid with hvalid | ⟨hvalid, hbound⟩
  · exact Or.inl (Nat.le_trans hbound' hvalid)
  · exact Or.inr ⟨Nat.le_trans hvalid hleast', Nat.le_trans hbound' hbound⟩

/-- The character is not an ASCII one. -/
theorem Sound.last (h : unfinished.Sound) {byte : Nat} (hlow : unfinished.low ≤ byte)
    (hhigh : byte ≤ unfinished.high) (hmissing : unfinished.missing ≤ 1) :
    0x80 ≤ (Char.ofNat (unfinished.number * 64 + (byte - 0x80))).toNat := by
  obtain ⟨-, hleast, hvalid⟩ := h
  have hpow : unfinished.missing - 1 = 0 := by omega
  simp only [Unfinished.least, Unfinished.bound, hpow, Nat.pow_zero, Nat.mul_one] at hleast hvalid
  rw [toNat_charOfNat (by rw [Nat.isValidChar]; omega)]
  omega

end Unfinished

/-! ## ASCII characters among others -/

/-- What has been read so far can still become a character. -/
def Sound (state : Option Unfinished) : Prop := ∀ unfinished ∈ state, unfinished.Sound

theorem sound_none : Sound none := nofun

theorem sound_readFirst (byte : Nat) : Sound (readFirst byte).2 := by
  intro unfinished hmem
  rw [readFirst] at hmem
  split at hmem
  · cases hmem
  · split at hmem
    · next begun hbegin =>
        obtain rfl := Option.some.inj hmem
        exact Unfinished.sound_of_begin? hbegin
    · cases hmem

theorem Sound.readByte {state : Option Unfinished} (h : Sound state) (byte : Nat) :
    Sound (readByte state byte).2 := by
  cases state with
  | none => exact sound_readFirst byte
  | some unfinished =>
      by_cases hfits : unfinished.low ≤ byte ∧ byte ≤ unfinished.high
      · rw [readByte_of_fits hfits.1 hfits.2]
        split
        · exact sound_none
        · next hmissing =>
            rintro next hnext
            obtain rfl := Option.some.inj hnext
            exact (h unfinished rfl).next hfits.1 hfits.2 hmissing
      · rw [readByte_of_not_fits hfits]
        exact sound_readFirst byte

/-- An ASCII character comes from its byte. -/
theorem mem_readFirst {byte : Nat} {c : Char} (hc : c ∈ (readFirst byte).1) :
    0x80 ≤ c.toNat ∨ c.toNat = byte := by
  rw [readFirst] at hc
  split at hc
  · next hbyte =>
      rw [List.mem_singleton.1 hc, toNat_charOfNat_of_lt hbyte]
      exact Or.inr rfl
  · split at hc
    · cases hc
    · rw [List.mem_singleton.1 hc]
      exact Or.inl (by decide)

theorem mem_readByte {state : Option Unfinished} (h : Sound state) {byte : Nat} {c : Char}
    (hc : c ∈ (readByte state byte).1) : 0x80 ≤ c.toNat ∨ c.toNat = byte := by
  cases state with
  | none => exact mem_readFirst hc
  | some unfinished =>
      by_cases hfits : unfinished.low ≤ byte ∧ byte ≤ unfinished.high
      · rw [readByte_of_fits hfits.1 hfits.2] at hc
        split at hc
        · next hmissing =>
            rw [List.mem_singleton.1 hc]
            exact Or.inl ((h unfinished rfl).last hfits.1 hfits.2 hmissing)
        · cases hc
      · rw [readByte_of_not_fits hfits] at hc
        rcases List.mem_cons.1 hc with rfl | hc
        · exact Or.inl (by decide)
        · exact mem_readFirst hc

theorem mem_readBytes {state : Option Unfinished} (h : Sound state) {bs : List UInt8} {c : Char}
    (hc : c ∈ readBytes state bs) : 0x80 ≤ c.toNat ∨ ∃ byte ∈ bs, c.toNat = byte.toNat := by
  induction bs generalizing state with
  | nil =>
      cases state with
      | none => cases hc
      | some unfinished =>
          rw [List.mem_singleton.1 hc]
          exact Or.inl (by decide)
  | cons byte bs ih =>
      rw [readBytes_cons, List.mem_append] at hc
      rcases hc with hc | hc
      · exact (mem_readByte h hc).imp_right fun heq => ⟨byte, List.mem_cons_self, heq⟩
      · refine (ih (h.readByte _) hc).imp_right ?_
        rintro ⟨other, hother, heq⟩
        exact ⟨other, List.mem_cons_of_mem byte hother, heq⟩

/-- An ASCII character is read from its byte only. -/
theorem mem_of_mem_ofBytes {bs : List UInt8} {c : Char} (hc : c ∈ (ofBytes bs).toList)
    (hascii : c.toNat < 0x80) : ∃ byte ∈ bs, c.toNat = byte.toNat := by
  rw [ofBytes, String.toList_ofList] at hc
  exact (mem_readBytes sound_none hc).resolve_left (by omega)

/-- An ASCII byte is read as its character, and what stands on both sides of it is read apart. -/
theorem readBytes_append_cons {state : Option Unfinished} (h : Sound state) {byte : UInt8}
    (hbyte : byte.toNat < 0x80) (before after : List UInt8) :
    readBytes state (before ++ byte :: after)
      = readBytes state before ++ Char.ofNat byte.toNat :: readBytes none after := by
  induction before generalizing state with
  | nil =>
      rw [List.nil_append, readBytes_cons]
      cases state with
      | none =>
          rw [readByte, readFirst_of_lt hbyte]
          rfl
      | some unfinished =>
          have hlow := (h unfinished rfl).low
          rw [readByte_of_not_fits (by omega), readFirst_of_lt hbyte]
          rfl
  | cons other before ih =>
      rw [List.cons_append, readBytes_cons, readBytes_cons, ih (h.readByte _), List.append_assoc]

theorem ofBytes_append_cons {byte : UInt8} (hbyte : byte.toNat < 0x80)
    (before after : List UInt8) : ofBytes (before ++ byte :: after)
      = ofBytes before ++ String.singleton (Char.ofNat byte.toNat) ++ ofBytes after := by
  rw [← String.toList_inj]
  simp [ofBytes, readBytes_append_cons sound_none hbyte]

/-- What is unfinished is not read as ASCII text. -/
theorem exists_mem_readBytes {unfinished : Unfinished} (h : unfinished.Sound) (bs : List UInt8) :
    ∃ c ∈ readBytes (some unfinished) bs, 0x80 ≤ c.toNat := by
  induction bs generalizing unfinished with
  | nil => exact ⟨replacement, List.mem_singleton_self _, by decide⟩
  | cons byte bs ih =>
      rw [readBytes_cons]
      by_cases hfits : unfinished.low ≤ byte.toNat ∧ byte.toNat ≤ unfinished.high
      · rw [readByte_of_fits hfits.1 hfits.2]
        split
        · next hmissing =>
            exact ⟨_, List.mem_cons_self, h.last hfits.1 hfits.2 hmissing⟩
        · next hmissing => exact ih (h.next hfits.1 hfits.2 hmissing)
      · rw [readByte_of_not_fits hfits]
        exact ⟨replacement, List.mem_cons_self, by decide⟩

theorem utf8EncodeChar_of_lt {byte : UInt8} (h : byte.toNat < 0x80) :
    String.utf8EncodeChar (Char.ofNat byte.toNat) = [byte] := by
  have hval : (Char.ofNat byte.toNat).val.toNat = byte.toNat := toNat_charOfNat_of_lt h
  rw [String.utf8EncodeChar, hval, if_pos (by omega), UInt8.ofNat_toNat]

theorem flatMap_readBytes {bs : List UInt8} (h : ∀ c ∈ readBytes none bs, c.toNat < 0x80) :
    (readBytes none bs).flatMap String.utf8EncodeChar = bs := by
  induction bs with
  | nil => rfl
  | cons byte bs ih =>
      by_cases hbyte : byte.toNat < 0x80
      · rw [readBytes_cons, readByte, readFirst_of_lt hbyte] at h ⊢
        rw [List.singleton_append, List.flatMap_cons, utf8EncodeChar_of_lt hbyte,
          ih fun c hc => h c (List.mem_cons_of_mem _ hc)]
        rfl
      · -- A byte that is not ASCII is read as something that is not.
        exfalso
        rw [readBytes_cons, readByte, readFirst, if_neg hbyte] at h
        split at h
        · next unfinished hbegin =>
            obtain ⟨c, hc, hle⟩ := exists_mem_readBytes (Unfinished.sound_of_begin? hbegin) bs
            exact absurd (h c hc) (by omega)
        · exact absurd (h replacement List.mem_cons_self) (by decide)

/-- Bytes that are read as ASCII text are those of this text. -/
theorem bytes_ofBytes {bs : List UInt8} (h : ∀ c ∈ (ofBytes bs).toList, c.toNat < 0x80) :
    bytes (ofBytes bs) = bs := by
  rw [ofBytes, String.toList_ofList] at h
  rw [bytes_eq, ofBytes, String.toList_ofList, flatMap_readBytes h]

end SiteCompiler.Text
