import Ontogram.Label.Plain
import Ontogram.Proofs.Markup.Unmarked

/-!
# Labels without markup

A label with neither `<` nor `&` is trimmed as it is. If it were read as a markup fragment, a byte
order mark at its start and its NUL characters would be gone and its line breaks normalized. So the
two readings agree as long as there is nothing of this kind in the trimmed label.

* `plain_eq_plainOfMarkup_iff` — where trimming a label and reading it as markup agree.
-/

namespace Ontogram.Label

open Ontogram.Text

variable {cs : List Char} {label : String}

theorem hasMarkup_eq_false_iff : hasMarkup cs = false ↔ ∀ c ∈ cs, c ≠ '<' ∧ c ≠ '&' := by
  simp [hasMarkup]

theorem plain_of_not_hasMarkup (h : hasMarkup label.toList = false) : plain label = trim label := by
  simp only [plain, h, Bool.false_eq_true, if_false]
  rfl

/-- The character that marks the byte order at the start of a text. -/
def byteOrderMark : Char :=
  Char.ofNat 0xFEFF

theorem withoutByteOrderMark_of_head?_ne (h : cs.head? ≠ some byteOrderMark) :
    Markup.withoutByteOrderMark cs = cs :=
  if_neg h

theorem plainOfMarkup_of_unmarked (h : hasMarkup cs = false) :
    plainOfMarkup cs = trimChars ((Markup.preprocess cs).filter (· != '\x00')) := by
  rw [hasMarkup_eq_false_iff] at h
  rw [plainOfMarkup, Markup.fragmentText_of_unmarked (fun hm => (h _ hm).1 rfl)
    fun hm => (h _ hm).2 rfl]

/-- Says that a text has nothing that is read as markup is read, but for the blanks at its ends: no
byte order mark at its start, no NUL, and no carriage return. -/
structure ReadsAsMarkup (cs : List Char) : Prop where
  noByteOrderMark : cs.head? ≠ some byteOrderMark
  noNul : '\x00' ∉ cs
  noReturn : '\r' ∉ trimChars cs

theorem ReadsAsMarkup.eq (h : ReadsAsMarkup cs) (hmarkup : hasMarkup cs = false) :
    plainOfMarkup cs = trimChars cs := by
  have hpre : Markup.preprocess cs = Markup.normalizeBreaks cs :=
    congrArg Markup.normalizeBreaks (withoutByteOrderMark_of_head?_ne h.noByteOrderMark)
  have hnul : (Markup.normalizeBreaks cs).filter (· != '\x00') = Markup.normalizeBreaks cs := by
    refine List.filter_eq_self.2 fun c hc => bne_iff_ne.2 ?_
    rintro rfl
    exact (Markup.mem_of_mem_normalizeBreaks hc).elim (by decide) h.noNul
  rw [plainOfMarkup_of_unmarked hmarkup, hpre, hnul, Markup.trimChars_normalizeBreaks h.noReturn]

/-- Every character that is not blank is counted, so none of them is lost where the readings
agree. -/
theorem readsAsMarkup_of_eq (hmarkup : hasMarkup cs = false)
    (he : plainOfMarkup cs = trimChars cs) : ReadsAsMarkup cs := by
  rw [plainOfMarkup_of_unmarked hmarkup] at he
  have hcount : ∀ {c}, isBlank c = false →
      ((Markup.preprocess cs).filter (· != '\x00')).count c = cs.count c := fun hc => by
    rw [← count_trimChars hc, he, count_trimChars hc]
  refine ⟨fun hmark => ?_, fun hnul => ?_, fun hreturn => ?_⟩
  · obtain ⟨rest, rfl⟩ : ∃ rest, cs = byteOrderMark :: rest := List.head?_eq_some_iff.1 hmark
    have hmark := hcount (c := byteOrderMark) (by decide)
    have hpre : Markup.preprocess (byteOrderMark :: rest) = Markup.normalizeBreaks rest := rfl
    have hle := (List.filter_sublist (p := (· != '\x00'))
      (l := Markup.normalizeBreaks rest)).count_le byteOrderMark
    rw [Markup.count_normalizeBreaks (by decide) (by decide)] at hle
    rw [hpre, List.count_cons_self] at hmark
    omega
  · have hnone : '\x00' ∉ (Markup.preprocess cs).filter (· != '\x00') := by simp
    rw [← List.count_eq_zero, hcount (by decide), List.count_eq_zero] at hnone
    exact hnone hnul
  · rw [← he] at hreturn
    have hmem := (List.mem_filter.1 (mem_of_mem_trimChars hreturn)).1
    exact Markup.return_notMem_normalizeBreaks _ hmem

/--
**Where trimming a label and reading it as markup agree.** For a label without markup they differ
exactly if a byte order mark starts it, if it has a NUL character, or if a carriage return stands
between characters that are not blank.
-/
theorem plain_eq_plainOfMarkup_iff (h : hasMarkup label.toList = false) :
    plain label = trim label ∧
      plainOfMarkup label.toList =
        trimChars ((Markup.preprocess label.toList).filter (· != '\x00')) ∧
      (plain label = String.ofList (plainOfMarkup label.toList) ↔ ReadsAsMarkup label.toList) := by
  refine ⟨plain_of_not_hasMarkup h, plainOfMarkup_of_unmarked h, ?_⟩
  rw [plain_of_not_hasMarkup h, trim, String.ofList_inj]
  exact ⟨fun he => readsAsMarkup_of_eq h he.symm, fun hr => (hr.eq h).symm⟩

/-- Line breaks around a label are trimmed away in either reading; one inside it is not. -/
theorem plain_eq_plainOfMarkup_iff_breaks :
    (hasMarkup "\r\n M\nN\r".toList = false ∧
      plain "\r\n M\nN\r" = String.ofList (plainOfMarkup "\r\n M\nN\r".toList)) ∧
    hasMarkup "M\rN".toList = false ∧
      plain "M\rN" ≠ String.ofList (plainOfMarkup "M\rN".toList) := by
  have hends : hasMarkup "\r\n M\nN\r".toList = false := by decide
  have hinside : hasMarkup "M\rN".toList = false := by decide
  refine ⟨⟨hends, (plain_eq_plainOfMarkup_iff hends).2.2.2 ⟨by decide, by decide, by decide⟩⟩,
    hinside, fun he => ?_⟩
  exact ((plain_eq_plainOfMarkup_iff hinside).2.2.1 he).noReturn (by decide)

end Ontogram.Label
