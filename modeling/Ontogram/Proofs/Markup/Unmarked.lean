import Ontogram.Markup.Fragment
import Ontogram.Proofs.Text.Trimming

/-!
# Fragments without tags and references

A fragment with neither `<` nor `&` becomes a single text. What is read before the construction
changes the text all the same: a byte order mark at its start is dropped, CR LF and CR become LF, and
NUL is dropped.

* `run_afterText` — the construction drops NUL and keeps the rest.
* `fragmentText_of_unmarked` — the text of such a fragment.
* `trimChars_normalizeBreaks` — line breaks at the ends of a text are trimmed away in either form.
-/

namespace Ontogram.Markup

open Ontogram.Text

/-- The tree of a root with one text, whose characters are given last one first. -/
def textTree : List Char → Tree
  | [] => .ofContent (.element (ElementName.html "html"))
  | c :: cs => ⟨#[⟨.element (ElementName.html "html"), none, none, none, some (1, 1)⟩,
      ⟨.text (c :: cs), some 0, none, none, none⟩]⟩

/-- The state after a text without markup, whose characters are given last one first. -/
def Builder.afterText (chars : List Char) : Builder :=
  { Builder.start with tree := textTree chars }

variable {c : Char} {cs chars : List Char}

/-! ## The construction -/

theorem rulesInBody_character (hc : c ≠ '\x00') (b : Builder) :
    b.rulesInBody (.character c) = .done (b.reconstruct.addChar c) := by
  unfold Builder.rulesInBody
  split
  · next he => exact absurd (Token.character.inj he) hc
  · next he => rw [Token.character.inj he]
  all_goals (next he => cases he)

/-- The root has one text, which goes on. -/
theorem addChar_afterText (c : Char) (chars : List Char) :
    (Builder.afterText chars).reconstruct.addChar c = Builder.afterText (c :: chars) := by
  cases chars <;> rfl

theorem process_character (hc : c ≠ '\x00') (chars : List Char) :
    (Builder.afterText chars).process (.character c) = Builder.afterText (c :: chars) := by
  show Builder.settle 40 ((Builder.afterText chars).rulesInBody (.character c)) = _
  rw [rulesInBody_character hc, addChar_afterText]
  rfl

theorem process_nul (chars : List Char) :
    (Builder.afterText chars).process (.character '\x00') = Builder.afterText chars := rfl

theorem process_endOfText (chars : List Char) :
    (Builder.afterText chars).process .endOfText = Builder.afterText chars := rfl

theorem text_textTree (chars : List Char) :
    (textTree chars).text Builder.root = chars.reverse := by
  cases chars with
  | nil => rfl
  | cons c cs =>
    show ((c :: cs) ++ []).reverse = _
    rw [List.append_nil]

/-- One character of a text without markup is read and processed. -/
theorem step_afterText (hlt : c ≠ '<') (hamp : c ≠ '&') (cs chars : List Char) :
    (Builder.afterText chars).step (c :: cs) =
      ((Builder.afterText chars).process (.character c), cs) := by
  unfold Builder.step
  split
  · next he => cases he
  · next he => exact absurd (List.cons.inj he).1 hlt
  · next he => exact absurd (List.cons.inj he).1 hamp
  · next he =>
    obtain ⟨rfl, rfl⟩ := List.cons.inj he
    rfl

theorem run_cons_afterText (hlt : c ≠ '<') (hamp : c ≠ '&') (cs chars : List Char) :
    (Builder.afterText chars).run (c :: cs).length (c :: cs) =
      ((Builder.afterText chars).process (.character c)).run cs.length cs := by
  have hrun : ∀ b : Builder, b.run (c :: cs).length (c :: cs) =
      ((b.step (c :: cs)).1.stepRaw (b.step (c :: cs)).2).1.run cs.length
        ((b.step (c :: cs)).1.stepRaw (b.step (c :: cs)).2).2 := fun _ => rfl
  rw [hrun, step_afterText hlt hamp]
  by_cases hc : c = '\x00'
  · rw [hc, process_nul]
    rfl
  · rw [process_character hc]
    rfl

/-- **A text without markup becomes one text, without its NUL characters.** -/
theorem run_afterText (hlt : '<' ∉ cs) (hamp : '&' ∉ cs) (chars : List Char) :
    (Builder.afterText chars).run cs.length cs =
      Builder.afterText ((cs.filter (· != '\x00')).reverse ++ chars) := by
  induction cs generalizing chars with
  | nil => exact process_endOfText chars
  | cons c cs ih =>
    rw [List.mem_cons, not_or] at hlt hamp
    rw [run_cons_afterText (Ne.symm hlt.1) (Ne.symm hamp.1)]
    by_cases hc : c = '\x00'
    · rw [hc, process_nul, ih hlt.2 hamp.2, List.filter_cons_of_neg (by decide)]
    · rw [process_character hc, ih hlt.2 hamp.2, List.filter_cons_of_pos (by simpa using hc),
        List.reverse_cons, List.append_assoc, List.singleton_append]

/-! ## Line breaks -/

theorem normalizeBreaks_cons (hr : c ≠ '\r') (cs : List Char) :
    normalizeBreaks (c :: cs) = c :: normalizeBreaks cs := by
  rw [normalizeBreaks]
  · exact fun _ he => absurd he hr
  · exact hr

theorem normalizeBreaks_return (hn : cs.head? ≠ some '\n') :
    normalizeBreaks ('\r' :: cs) = '\n' :: normalizeBreaks cs := by
  rw [normalizeBreaks]
  rintro _ rfl
  exact hn rfl

theorem mem_of_mem_normalizeBreaks (hc : c ∈ normalizeBreaks cs) : c = '\n' ∨ c ∈ cs := by
  fun_induction normalizeBreaks cs with
  | case1 => cases hc
  | case2 cs ih =>
    rcases List.mem_cons.1 hc with rfl | hc
    · exact Or.inl rfl
    · exact (ih hc).imp_right fun hm => List.mem_cons_of_mem _ (List.mem_cons_of_mem _ hm)
  | case3 cs hnot ih =>
    rcases List.mem_cons.1 hc with rfl | hc
    · exact Or.inl rfl
    · exact (ih hc).imp_right (List.mem_cons_of_mem _)
  | case4 d cs hnot hnot' ih =>
    rcases List.mem_cons.1 hc with rfl | hc
    · exact Or.inr List.mem_cons_self
    · exact (ih hc).imp_right (List.mem_cons_of_mem _)

theorem return_notMem_normalizeBreaks (cs : List Char) : '\r' ∉ normalizeBreaks cs := by
  fun_induction normalizeBreaks cs with
  | case1 => exact List.not_mem_nil
  | case2 cs ih => simpa using ih
  | case3 cs hnot ih => simpa using ih
  | case4 c cs hnot hnot' ih =>
    rw [List.mem_cons, not_or]
    exact ⟨fun he => hnot' he.symm, ih⟩

/-- A character that does not belong to a line break is there as often as before. -/
theorem count_normalizeBreaks (hn : c ≠ '\n') (hr : c ≠ '\r') (cs : List Char) :
    (normalizeBreaks cs).count c = cs.count c := by
  fun_induction normalizeBreaks cs with
  | case1 => rfl
  | case2 cs ih => simp [ih, hn.symm, hr.symm]
  | case3 cs hnot ih => simp [ih, hn.symm, hr.symm]
  | case4 d cs hnot hnot' ih => simp [List.count_cons, ih]

/-- No line break goes on behind a character that does not belong to one. -/
theorem normalizeBreaks_append_cons (hn : c ≠ '\n') (hr : c ≠ '\r') (xs ys : List Char) :
    normalizeBreaks (xs ++ c :: ys) = normalizeBreaks xs ++ c :: normalizeBreaks ys := by
  fun_induction normalizeBreaks xs with
  | case1 => exact normalizeBreaks_cons hr ys
  | case2 xs ih => rw [List.cons_append, List.cons_append, normalizeBreaks, ih, List.cons_append]
  | case3 xs hnot ih =>
    have hhead : (xs ++ c :: ys).head? ≠ some '\n' := by
      cases xs with
      | nil => simpa using hn
      | cons x xs => simpa using fun he => hnot xs (by rw [he])
    rw [List.cons_append, normalizeBreaks_return hhead, ih, List.cons_append]
  | case4 x xs hnot hnot' ih =>
    rw [List.cons_append, normalizeBreaks_cons hnot', ih, List.cons_append]

theorem normalizeBreaks_append (hr : '\r' ∉ cs) (ys : List Char) :
    normalizeBreaks (cs ++ ys) = cs ++ normalizeBreaks ys := by
  induction cs with
  | nil => rfl
  | cons c cs ih =>
    rw [List.mem_cons, not_or] at hr
    rw [List.cons_append, normalizeBreaks_cons (Ne.symm hr.1), ih hr.2, List.cons_append]

theorem isBlank_normalizeBreaks (hcs : ∀ c ∈ cs, isBlank c = true) :
    ∀ c ∈ normalizeBreaks cs, isBlank c = true := by
  intro c hc
  obtain rfl | hm := mem_of_mem_normalizeBreaks hc
  · rfl
  · exact hcs c hm

/-- Line breaks are trimmed away in either form. -/
theorem trimChars_normalizeBreaks (hr : '\r' ∉ trimChars cs) :
    trimChars (normalizeBreaks cs) = trimChars cs := by
  obtain ⟨lead, tail, hcs, hlead, htail⟩ := trimmed_append cs
  cases htrim : trimChars cs with
  | nil =>
    refine trimChars_of_blank (isBlank_normalizeBreaks ?_)
    rw [hcs, htrim, List.append_nil]
    exact List.forall_mem_append.2 ⟨hlead, htail⟩
  | cons c rest =>
    have hc : isBlank c = false := isBlank_of_head?_trimChars (by rw [htrim]; rfl)
    have hn : c ≠ '\n' := by
      rintro rfl
      exact absurd hc (by decide)
    rw [htrim, List.mem_cons, not_or] at hr
    -- A character that is not blank keeps the line breaks before it apart from those behind it.
    have hbreaks : normalizeBreaks cs =
        normalizeBreaks lead ++ (c :: rest) ++ normalizeBreaks tail := by
      conv => lhs; rw [hcs, htrim]
      rw [List.append_assoc, List.cons_append, normalizeBreaks_append_cons hn (Ne.symm hr.1),
        normalizeBreaks_append hr.2, List.append_assoc, List.cons_append]
    rw [hbreaks, trimChars_append (isBlank_normalizeBreaks hlead) (isBlank_normalizeBreaks htail),
      ← htrim, trimChars_trimChars]

/-! ## The text of a fragment -/

theorem withoutByteOrderMark_suffix (cs : List Char) : withoutByteOrderMark cs <:+ cs := by
  unfold withoutByteOrderMark
  split
  · exact List.drop_suffix 1 cs
  · exact List.suffix_rfl

/-- **The text of a fragment without tags and references.** -/
theorem fragmentText_of_unmarked (hlt : '<' ∉ cs) (hamp : '&' ∉ cs) :
    fragmentText cs = (preprocess cs).filter (· != '\x00') := by
  have hmem : ∀ {c}, c ∈ preprocess cs → c = '\n' ∨ c ∈ cs := fun hc =>
    (mem_of_mem_normalizeBreaks hc).imp_right fun hm => (withoutByteOrderMark_suffix cs).subset hm
  have hlt' : '<' ∉ preprocess cs := fun hm => (hmem hm).elim (by decide) hlt
  have hamp' : '&' ∉ preprocess cs := fun hm => (hmem hm).elim (by decide) hamp
  show ((Builder.afterText []).run (preprocess cs).length (preprocess cs)).tree.text Builder.root = _
  rw [run_afterText hlt' hamp', List.append_nil]
  exact (text_textTree _).trans (List.reverse_reverse _)

end Ontogram.Markup
