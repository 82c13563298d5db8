import HackStack.Text.Bytes
/-!
# Texts and their bytes

The bytes of a text are shown as that text (`lossy_utf8`). A byte of a single-byte character is in no other
character: what stands in front of it in the bytes of a text is a text too (`exists_of_append`).
-/

namespace HackStack.Text

theorem utf8_append (s t : String) : utf8 (s ++ t) = utf8 s ++ utf8 t := by
  simp [utf8]

/-! ## Showing the bytes of a text -/

theorem lossyChars_skip (skipped bytes : Bytes) :
    lossyChars skipped.length (skipped ++ bytes) = lossyChars 0 bytes := by
  induction skipped with
  | nil => rfl
  | cons b skipped ih => exact ih

theorem firstChar_encode {c : Char} {b : UInt8} {bs : Bytes} (h : String.utf8EncodeChar c = b :: bs) (rest : Bytes) :
    firstChar b (bs ++ rest) = (c, c.utf8Size) := by
  have hsize : (b :: bs).length ≤ 4 := by
    rw [← h, String.length_utf8EncodeChar]
    exact c.utf8Size_le_four
  have hdecode : ((b :: (bs ++ rest)).take 4).toByteArray.utf8DecodeChar? 0 = some c := by
    rw [← List.cons_append, List.take_append, List.take_of_length_le hsize, List.toByteArray_append, ← h,
      ← List.utf8Encode_singleton]
    exact List.utf8DecodeChar?_utf8Encode_singleton_append
  rw [firstChar, hdecode]

theorem lossyChars_encode (cs : List Char) : lossyChars 0 (cs.flatMap String.utf8EncodeChar) = cs := by
  induction cs with
  | nil => rfl
  | cons c cs ih =>
    obtain ⟨b, bs, h⟩ := List.exists_cons_of_ne_nil (String.utf8EncodeChar_ne_nil (c := c))
    have hlength : c.utf8Size - 1 = bs.length := by
      rw [← String.length_utf8EncodeChar, h, List.length_cons, Nat.add_sub_cancel]
    rw [List.flatMap_cons, h, List.cons_append, lossyChars, firstChar_encode h]
    dsimp only
    rw [hlength, lossyChars_skip, ih]

theorem lossy_utf8 (s : String) : lossy (utf8 s) = s := by
  rw [lossy, utf8, lossyChars_encode, String.ofList_toList]

/-! ## Bytes of single-byte characters -/

/-- Only a character of one byte has a byte this small. -/
theorem encode_of_mem {c : Char} {b : UInt8} (h : b ∈ String.utf8EncodeChar c) (hb : b < 0x80) :
    String.utf8EncodeChar c = [b] := by
  have hsmall : b.toNat < 128 := UInt8.lt_iff_toNat_lt.1 hb
  unfold String.utf8EncodeChar at *
  dsimp only at *
  split at h
  · next hc =>
    rw [if_pos hc]
    rw [List.mem_singleton.1 h]
  -- all bytes of longer encodings have their top bit set
  all_goals
    exfalso
    repeat' split at h
    all_goals
      simp only [List.mem_cons, List.not_mem_nil, or_false, ← UInt8.toNat_inj, UInt8.toNat_ofNat'] at h
      omega

theorem exists_chars_of_append {cs : List Char} {front back : Bytes} {b : UInt8} (hb : b < 0x80)
    (h : cs.flatMap String.utf8EncodeChar = front ++ b :: back) :
    ∃ ds : List Char, front = ds.flatMap String.utf8EncodeChar := by
  induction cs generalizing front with
  | nil => simp at h
  | cons c cs ih =>
    rw [List.flatMap_cons] at h
    rcases List.append_eq_append_iff.1 h with ⟨front', rfl, hrest⟩ | ⟨tail, hc, hrest⟩
    · obtain ⟨ds, rfl⟩ := ih hrest
      exact ⟨c :: ds, List.flatMap_cons.symm⟩
    · cases tail with
      | nil => exact ⟨[c], by rw [List.flatMap_singleton, hc, List.append_nil]⟩
      | cons b' tail =>
        -- the byte is in the encoding of `c`, which is then nothing else
        obtain ⟨rfl, -⟩ := List.cons.inj hrest
        rw [encode_of_mem (hc ▸ List.mem_append_right _ List.mem_cons_self) hb] at hc
        obtain ⟨rfl, -⟩ | ⟨-, h'⟩ := List.singleton_eq_append_iff.1 hc
        · exact ⟨[], rfl⟩
        · cases h'

/-- What is in front of such a byte in the bytes of a text are the bytes of a text. -/
theorem exists_of_append {s : String} {front back : Bytes} {b : UInt8} (hb : b < 0x80)
    (h : utf8 s = front ++ b :: back) : ∃ t, front = utf8 t := by
  obtain ⟨ds, hds⟩ := exists_chars_of_append hb h
  exact ⟨String.ofList ds, by rw [utf8, String.toList_ofList, hds]⟩

end HackStack.Text
