import SiteCompiler.Text.Search
set_option autoImplicit false

/-! # Slices of a text by bytes

A position in a text is a number of bytes. Not every number will do: a slice is defined only
between two positions in order that lie in the text and at the boundary of a character (`slice?`).
It is defined exactly where the text is cut into three (`slice?_eq_some_iff`).
-/

namespace SiteCompiler.Text

/-! ## The number of bytes -/

theorem utf8Length_eq (cs : List Char) : utf8Length cs = (String.ofList cs).utf8ByteSize := by
  induction cs with
  | nil => rfl
  | cons c cs ih =>
      have hcons : String.ofList (c :: cs) = String.singleton c ++ String.ofList cs := by
        rw [String.singleton_eq_ofList, ← String.ofList_append]
        rfl
      rw [hcons, String.utf8ByteSize_append, String.utf8ByteSize_singleton, utf8Length, ih]

@[simp] theorem utf8Length_toList (text : String) : utf8Length text.toList = text.utf8ByteSize := by
  rw [utf8Length_eq, String.ofList_toList]

@[simp] theorem utf8Length_append (as bs : List Char) :
    utf8Length (as ++ bs) = utf8Length as + utf8Length bs := by
  calc utf8Length (as ++ bs) = (String.ofList (as ++ bs)).utf8ByteSize := utf8Length_eq _
    _ = (String.ofList as ++ String.ofList bs).utf8ByteSize := by rw [String.ofList_append]
    _ = (String.ofList as).utf8ByteSize + (String.ofList bs).utf8ByteSize :=
        String.utf8ByteSize_append
    _ = utf8Length as + utf8Length bs := by rw [utf8Length_eq, utf8Length_eq]

theorem utf8Length_pos {cs : List Char} (h : cs ≠ []) : 0 < utf8Length cs := by
  cases cs with
  | nil => exact absurd rfl h
  | cons c cs =>
      have hc := c.utf8Size_pos
      show 0 < c.utf8Size + utf8Length cs
      omega

/-! ## Slices -/

/-- The slice of a text from byte `start` up to byte `stop`. Both must be boundaries of characters
of the text, and in order. -/
def slice? (text : String) (start stop : Nat) : Option String :=
  if h : String.Pos.Raw.IsValid text ⟨start⟩ ∧ String.Pos.Raw.IsValid text ⟨stop⟩ ∧
      start ≤ stop then
    some (text.extract ⟨⟨start⟩, h.1⟩ ⟨⟨stop⟩, h.2.1⟩)
  else none

theorem exists_slice? {text : String} {start stop : Nat}
    (hstart : String.Pos.Raw.IsValid text ⟨start⟩) (hstop : String.Pos.Raw.IsValid text ⟨stop⟩)
    (hle : start ≤ stop) : ∃ piece, slice? text start stop = some piece :=
  ⟨_, dif_pos ⟨hstart, hstop, hle⟩⟩

/-- The length of a part of a text in front of another is the boundary of a character. -/
theorem isValid_append (before after : String) :
    String.Pos.Raw.IsValid (before ++ after) ⟨before.utf8ByteSize⟩ :=
  String.Pos.Raw.isValid_iff_exists_append.2 ⟨before, after, rfl, rfl⟩

theorem slice?_append (before piece after : String) :
    slice? (before ++ piece ++ after) before.utf8ByteSize
      (before.utf8ByteSize + piece.utf8ByteSize) = some piece := by
  have hstart : String.Pos.Raw.IsValid (before ++ piece ++ after) ⟨before.utf8ByteSize⟩ := by
    rw [String.append_assoc]
    exact isValid_append before (piece ++ after)
  have hstop : String.Pos.Raw.IsValid (before ++ piece ++ after)
      ⟨before.utf8ByteSize + piece.utf8ByteSize⟩ := by
    rw [← String.utf8ByteSize_append]
    exact isValid_append (before ++ piece) after
  have hle : before.utf8ByteSize ≤ before.utf8ByteSize + piece.utf8ByteSize := Nat.le_add_right _ _
  rw [slice?, dif_pos ⟨hstart, hstop, hle⟩, Option.some_inj, ← String.toByteArray_inj,
    String.toByteArray_extract]
  show (before ++ piece ++ after).toByteArray.extract before.utf8ByteSize
    (before.utf8ByteSize + piece.utf8ByteSize) = piece.toByteArray
  have hbefore : before.toByteArray.extract before.utf8ByteSize
      (before.utf8ByteSize + piece.utf8ByteSize) = ByteArray.empty :=
    ByteArray.extract_eq_empty_iff.2 (Nat.min_le_right _ _)
  rw [String.append_assoc, String.toByteArray_append, String.toByteArray_append,
    ByteArray.extract_append, hbefore, ByteArray.empty_append, String.size_toByteArray,
    Nat.sub_self, Nat.add_sub_cancel_left]
  exact ByteArray.extract_append_eq_left rfl

/-- **A slice is a part of the text**: it is defined exactly where the text is cut in three. -/
theorem slice?_eq_some_iff {text piece : String} {start stop : Nat} :
    slice? text start stop = some piece ↔ ∃ before after, text = before ++ piece ++ after ∧
      start = before.utf8ByteSize ∧ stop = before.utf8ByteSize + piece.utf8ByteSize := by
  constructor
  · intro h
    have hbounds : String.Pos.Raw.IsValid text ⟨start⟩ ∧ String.Pos.Raw.IsValid text ⟨stop⟩ ∧
        start ≤ stop := by
      unfold slice? at h
      split at h
      · assumption
      · cases h
    obtain ⟨hstart, hstop, hle⟩ := hbounds
    obtain ⟨before, rest, rfl, hbefore⟩ := String.Pos.Raw.isValid_iff_exists_append.1 hstart
    replace hbefore : start = before.utf8ByteSize := congrArg String.Pos.Raw.byteIdx hbefore
    -- Behind `before`, the second position is one of the rest.
    have hrest : String.Pos.Raw.IsValid rest ⟨stop - before.utf8ByteSize⟩ := by
      rcases String.Pos.Raw.isValid_append.1 hstop with hinside | ⟨-, hbehind⟩
      · have hsame : stop - before.utf8ByteSize = 0 := Nat.sub_eq_zero_of_le hinside.le_utf8ByteSize
        rw [hsame]
        exact String.Pos.Raw.isValid_zero
      · exact hbehind
    obtain ⟨inside, after, rfl, hinside⟩ := String.Pos.Raw.isValid_iff_exists_append.1 hrest
    replace hinside : stop - before.utf8ByteSize = inside.utf8ByteSize :=
      congrArg String.Pos.Raw.byteIdx hinside
    have hcut : stop = before.utf8ByteSize + inside.utf8ByteSize := by omega
    rw [← String.append_assoc, hbefore, hcut, slice?_append, Option.some_inj] at h
    exact ⟨before, after, by rw [← h, String.append_assoc], hbefore, by rw [← h, hcut]⟩
  · rintro ⟨before, after, rfl, rfl, rfl⟩
    exact slice?_append before piece after

theorem slice?_all (text : String) : slice? text 0 text.utf8ByteSize = some text := by
  have h := slice?_append "" text ""
  rwa [String.empty_append, String.append_empty, String.utf8ByteSize_empty, Nat.zero_add] at h

/-- A slice has its length, and lies in the text between two boundaries of characters. -/
theorem bounds_of_slice? {text piece : String} {start stop : Nat}
    (h : slice? text start stop = some piece) :
    stop = start + piece.utf8ByteSize ∧ stop ≤ text.utf8ByteSize ∧
      String.Pos.Raw.IsValid text ⟨start⟩ ∧ String.Pos.Raw.IsValid text ⟨stop⟩ := by
  obtain ⟨before, after, rfl, rfl, rfl⟩ := slice?_eq_some_iff.1 h
  refine ⟨rfl, ?_, ?_, ?_⟩
  · rw [String.utf8ByteSize_append, String.utf8ByteSize_append]
    exact Nat.le_add_right _ _
  · rw [String.append_assoc]
    exact isValid_append before (piece ++ after)
  · rw [← String.utf8ByteSize_append]
    exact isValid_append (before ++ piece) after

/-- Two slices that meet are one slice. -/
theorem slice?_trans {text front back : String} {start middle stop : Nat}
    (hfront : slice? text start middle = some front)
    (hback : slice? text middle stop = some back) :
    slice? text start stop = some (front ++ back) := by
  obtain ⟨before, rest, htext, rfl, rfl⟩ := slice?_eq_some_iff.1 hfront
  obtain ⟨before', after, htext', hmiddle, rfl⟩ := slice?_eq_some_iff.1 hback
  -- What stands before the second slice is the same slice of the text, found in two ways.
  have hsame : before ++ front = before' := by
    have h := slice?_append "" (before ++ front) rest
    have h' := slice?_append "" before' (back ++ after)
    rw [String.empty_append, ← htext] at h
    rw [String.empty_append, ← String.append_assoc, ← htext'] at h'
    rw [String.utf8ByteSize_append, hmiddle, h'] at h
    exact (Option.some.inj h).symm
  refine slice?_eq_some_iff.2 ⟨before, after, ?_, rfl, ?_⟩
  · rw [htext', ← hsame]
    simp only [String.append_assoc]
  · rw [String.utf8ByteSize_append]
    omega

/-- The same for lists of characters. -/
theorem slice?_ofList (before piece after : List Char) :
    slice? (String.ofList (before ++ piece ++ after)) (utf8Length before)
      (utf8Length (before ++ piece)) = some (String.ofList piece) := by
  rw [utf8Length_append, utf8Length_eq, utf8Length_eq, String.ofList_append, String.ofList_append]
  exact slice?_append _ _ _

end SiteCompiler.Text
