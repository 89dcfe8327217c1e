import Ontogram.Text.Ascending

/-!
# The order of texts is the order of their bytes

Texts are compared character by character, and names of files byte by byte. In UTF-8 this is the
same: of two characters the greater one has more bytes with a greater first byte, or as many bytes,
which are the digits of its code point in base 64.

* `encodeChar_lt` — the bytes of a character decide, whatever follows them.
* `lt_iff_bytes_lt` — the order of texts.
-/

namespace Ontogram.Text

/-- The bytes of a text in UTF-8. -/
def bytes (s : String) : List UInt8 :=
  s.toUTF8.data.toList

theorem bytes_eq (s : String) : bytes s = s.toList.flatMap String.utf8EncodeChar := by
  unfold bytes
  rw [String.toUTF8_eq_toByteArray, ← String.ofList_toList (s := s), String.toByteArray_ofList,
    String.toList_ofList]
  exact List.toList_data_toByteArray

/-! ## Characters -/

/-- Bytes that are given by their numbers are compared by these. -/
theorem cons_lt_cons_iff_of_lt {m n : Nat} (hm : m < 256) (hn : n < 256) {bs bs' : List UInt8} :
    UInt8.ofNat m :: bs < UInt8.ofNat n :: bs' ↔ m < n ∨ m = n ∧ bs < bs' := by
  rw [List.cons_lt_cons_iff, UInt8.lt_iff_toNat_lt, ← UInt8.toNat_inj, UInt8.toNat_ofNat_of_lt' hm,
    UInt8.toNat_ofNat_of_lt' hn]

/-- Code points are compared by their digits in base 64, from the first one. -/
theorem lt_digits {m n : Nat} (h : m < n) (hn : n < 0x110000) :
    m / 262144 % 8 < n / 262144 % 8 ∨ m / 262144 % 8 = n / 262144 % 8 ∧
      (m / 4096 % 64 < n / 4096 % 64 ∨ m / 4096 % 64 = n / 4096 % 64 ∧
        (m / 64 % 64 < n / 64 % 64 ∨ m / 64 % 64 = n / 64 % 64 ∧ m % 64 < n % 64)) := by
  have hthree : ∀ k, k / 4096 = k / 64 / 64 := fun k => (Nat.div_div_eq_div_mul k 64 64).symm
  have hfour : ∀ k, k / 262144 = k / 64 / 64 / 64 := fun k => by
    rw [← hthree, Nat.div_div_eq_div_mul]
  rw [hfour, hfour, hthree, hthree]
  omega

theorem codePoint_lt (c : Char) : c.val.toNat < 0x110000 := by
  rcases c.valid with h | h
  · exact Nat.lt_trans h (by decide)
  · exact h.2

/-- The bytes of a smaller character are smaller, whatever follows. -/
theorem encodeChar_lt {c d : Char} (h : c < d) (bs bs' : List UInt8) :
    String.utf8EncodeChar c ++ bs < String.utf8EncodeChar d ++ bs' := by
  have hlt : c.val.toNat < d.val.toNat := h
  have hdigits := lt_digits hlt (codePoint_lt d)
  have hd := codePoint_lt d
  unfold String.utf8EncodeChar
  dsimp only
  generalize c.val.toNat = m at *
  generalize d.val.toNat = n at *
  -- A case for each pair of lengths: the first bytes differ if the lengths do.
  repeat' split
  all_goals
    simp (disch := omega) only [List.cons_append, List.nil_append, cons_lt_cons_iff_of_lt]
    omega

/-! ## Texts -/

theorem flatMap_encodeChar_lt {cs ds : List Char} (h : cs < ds) :
    cs.flatMap String.utf8EncodeChar < ds.flatMap String.utf8EncodeChar := by
  induction cs generalizing ds with
  | nil =>
    cases ds with
    | nil => exact absurd h (List.lt_irrefl _)
    | cons d ds =>
      obtain ⟨b, bs, hbs⟩ := List.exists_cons_of_ne_nil (String.utf8EncodeChar_ne_nil (c := d))
      rw [List.flatMap_cons, hbs, List.cons_append]
      exact List.nil_lt_cons _ _
  | cons c cs ih =>
    cases ds with
    | nil => exact absurd h (List.not_lt_nil _)
    | cons d ds =>
      rw [List.flatMap_cons, List.flatMap_cons]
      rcases List.cons_lt_cons_iff.1 h with hlt | ⟨rfl, hlt⟩
      · exact encodeChar_lt hlt _ _
      · exact List.append_left_lt (ih hlt)

/-- **A text comes before another exactly if its bytes do.** -/
theorem lt_iff_bytes_lt {s t : String} : s < t ↔ bytes s < bytes t := by
  have hbytes : ∀ {s t : String}, s < t → bytes s < bytes t := fun h => by
    rw [bytes_eq, bytes_eq]
    exact flatMap_encodeChar_lt h
  refine ⟨hbytes, fun h => ?_⟩
  cases ho : order s t with
  | lt => exact orders.of_lt ho
  | eq => exact absurd (eq_of_order ho ▸ h) (List.lt_irrefl _)
  | gt => exact absurd (hbytes (orders.of_gt ho)) (List.lt_asymm h)

end Ontogram.Text
