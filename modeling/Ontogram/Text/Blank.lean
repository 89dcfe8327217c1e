/-!
# Blank characters

The characters with the Unicode property `White_Space`, and trimming by it. Zero-width characters
and the byte order mark are not blank.

* `trimmed_append` — a text is its leading blanks, its trimmed part and its trailing blanks.
-/

namespace Ontogram.Text

/-- The property `White_Space` of Unicode. -/
def isBlank (c : Char) : Bool :=
  let n := c.toNat
  (0x09 ≤ n && n ≤ 0x0D) || n == 0x20 || n == 0x85 || n == 0xA0 || n == 0x1680
    || (0x2000 ≤ n && n ≤ 0x200A) || n == 0x2028 || n == 0x2029 || n == 0x202F || n == 0x205F
    || n == 0x3000

/-- A text without the blanks at its start. -/
def trimStart (cs : List Char) : List Char :=
  cs.dropWhile isBlank

/-- A text without the blanks at its end. -/
def trimEnd (cs : List Char) : List Char :=
  (cs.reverse.dropWhile isBlank).reverse

/-- A text without the blanks at either end. -/
def trimChars (cs : List Char) : List Char :=
  trimEnd (trimStart cs)

/-- A text without the blanks at either end. -/
def trim (s : String) : String :=
  String.ofList (trimChars s.toList)

/-- Trimming the end takes away blanks only. -/
theorem trimEnd_append (cs : List Char) :
    ∃ tail, cs = trimEnd cs ++ tail ∧ ∀ c ∈ tail, isBlank c = true := by
  refine ⟨(cs.reverse.takeWhile isBlank).reverse, ?_, ?_⟩
  · rw [trimEnd, ← List.reverse_append, List.takeWhile_append_dropWhile, List.reverse_reverse]
  · intro c hc
    rw [List.mem_reverse] at hc
    exact (List.all_eq_true.1 List.all_takeWhile) c hc

/-- **A text is its leading blanks, its trimmed part and its trailing blanks.** -/
theorem trimmed_append (cs : List Char) :
    ∃ lead tail, cs = lead ++ trimChars cs ++ tail ∧ (∀ c ∈ lead, isBlank c = true)
      ∧ ∀ c ∈ tail, isBlank c = true := by
  obtain ⟨tail, he, ht⟩ := trimEnd_append (trimStart cs)
  refine ⟨cs.takeWhile isBlank, tail, ?_, ?_, ht⟩
  · rw [List.append_assoc, trimChars, ← he, trimStart, List.takeWhile_append_dropWhile]
  · intro c hc
    exact (List.all_eq_true.1 List.all_takeWhile) c hc

end Ontogram.Text
