import Ontogram.Text.Blank

/-!
# Trimming

Trimming takes blanks away at the ends of a text and nothing else. What stands between two
characters that are not blank stays, and each such character is still there as often as before.

* `trimChars_append` — trimming looks past blanks at either end.
* `trimChars_between` — what stands between two characters that are not blank stays.
* `count_trimChars` — a character that is not blank is there as often as before.
-/

namespace Ontogram.Text

variable {c d : Char} {cs lead tail : List Char}

theorem trimStart_append_cons (hc : isBlank c = false) (xs ys : List Char) :
    trimStart (xs ++ c :: ys) = trimStart xs ++ c :: ys := by
  have hdrop : (c :: ys).dropWhile isBlank = c :: ys :=
    List.dropWhile_cons_of_neg (by rw [hc]; decide)
  unfold trimStart
  rw [List.dropWhile_append]
  split
  · next hnil => rw [List.isEmpty_iff.1 hnil, hdrop, List.nil_append]
  · rfl

theorem trimEnd_append_cons (hc : isBlank c = false) (xs ys : List Char) :
    trimEnd (xs ++ c :: ys) = xs ++ c :: trimEnd ys := by
  have hstart := trimStart_append_cons hc ys.reverse xs.reverse
  unfold trimStart at hstart
  unfold trimEnd
  rw [List.reverse_append, List.reverse_cons, List.append_assoc, List.singleton_append, hstart]
  simp

/-- What stands between two characters that are not blank stays. -/
theorem trimChars_between (hc : isBlank c = false) (hd : isBlank d = false)
    (xs ys zs : List Char) :
    trimChars (xs ++ c :: (ys ++ d :: zs)) = trimStart xs ++ c :: (ys ++ d :: trimEnd zs) := by
  rw [trimChars, trimStart_append_cons hc, trimEnd_append_cons hc, trimEnd_append_cons hd]

/-! ## Blanks at the ends -/

theorem trimStart_append (hlead : ∀ c ∈ lead, isBlank c = true) (cs : List Char) :
    trimStart (lead ++ cs) = trimStart cs :=
  List.dropWhile_append_of_pos hlead

theorem trimEnd_append_blank (htail : ∀ c ∈ tail, isBlank c = true) (cs : List Char) :
    trimEnd (cs ++ tail) = trimEnd cs := by
  unfold trimEnd
  rw [List.reverse_append, List.dropWhile_append_of_pos fun c hc => htail c (List.mem_reverse.1 hc)]

theorem trimChars_of_blank (hcs : ∀ c ∈ cs, isBlank c = true) : trimChars cs = [] := by
  have hstart := trimStart_append hcs []
  rw [List.append_nil] at hstart
  rw [trimChars, hstart]
  rfl

/-- **Trimming looks past blanks at either end.** -/
theorem trimChars_append (hlead : ∀ c ∈ lead, isBlank c = true)
    (htail : ∀ c ∈ tail, isBlank c = true) (cs : List Char) :
    trimChars (lead ++ cs ++ tail) = trimChars cs := by
  rw [List.append_assoc, trimChars, trimStart_append hlead]
  by_cases hcs : ∀ c ∈ cs, isBlank c = true
  · have hall : ∀ c ∈ cs ++ tail, isBlank c = true :=
      List.forall_mem_append.2 ⟨hcs, htail⟩
    rw [← trimChars, trimChars_of_blank hall, trimChars_of_blank hcs]
  · obtain ⟨c, hmem, hc⟩ : ∃ c ∈ cs, isBlank c = false := by simpa using hcs
    obtain ⟨xs, ys, rfl⟩ := List.append_of_mem hmem
    rw [List.append_assoc, List.cons_append, trimStart_append_cons hc, trimEnd_append_cons hc,
      trimEnd_append_blank htail, trimChars, trimStart_append_cons hc, trimEnd_append_cons hc]

theorem trimChars_trimStart (cs : List Char) : trimChars (trimStart cs) = trimChars cs := by
  have hlead : ∀ c ∈ cs.takeWhile isBlank, isBlank c = true := fun c hc =>
    List.all_eq_true.1 List.all_takeWhile c hc
  have hcs : cs = cs.takeWhile isBlank ++ trimStart cs ++ [] := by
    rw [List.append_nil]
    exact List.takeWhile_append_dropWhile.symm
  conv => rhs; rw [hcs]
  exact (trimChars_append hlead (List.forall_mem_nil _) _).symm

theorem trimChars_trimChars (cs : List Char) : trimChars (trimChars cs) = trimChars cs := by
  obtain ⟨lead, tail, hcs, hlead, htail⟩ := trimmed_append cs
  conv => rhs; rw [hcs]
  exact (trimChars_append hlead htail _).symm

/-! ## What stays -/

theorem isBlank_of_head?_trimChars (hc : (trimChars cs).head? = some c) : isBlank c = false := by
  rw [trimChars] at hc
  cases hstart : trimStart cs with
  | nil =>
    rw [hstart] at hc
    cases hc
  | cons d rest =>
    -- Dropping stopped at `d`, so `d` is no blank and stays the first.
    have hd : isBlank d = false := by
      have hnot := List.head?_dropWhile_not isBlank cs
      rwa [← trimStart, hstart] at hnot
    have hend := trimEnd_append_cons hd [] rest
    rw [List.nil_append, List.nil_append] at hend
    rw [hstart, hend] at hc
    rw [← Option.some.inj hc, hd]

theorem mem_of_mem_trimChars (hc : c ∈ trimChars cs) : c ∈ cs := by
  obtain ⟨lead, tail, hcs, -⟩ := trimmed_append cs
  rw [hcs]
  exact List.mem_append_left _ (List.mem_append_right _ hc)

/-- **A character that is not blank is there as often as before.** -/
theorem count_trimChars (hc : isBlank c = false) (cs : List Char) :
    (trimChars cs).count c = cs.count c := by
  obtain ⟨lead, tail, hcs, hlead, htail⟩ := trimmed_append cs
  have hnone : ∀ {xs : List Char}, (∀ d ∈ xs, isBlank d = true) → xs.count c = 0 := fun hxs =>
    List.count_eq_zero.2 fun hmem => by
      rw [hxs c hmem] at hc
      cases hc
  conv => rhs; rw [hcs]
  rw [List.count_append, List.count_append, hnone hlead, hnone htail]
  omega

theorem mem_trimChars (hc : isBlank c = false) : c ∈ trimChars cs ↔ c ∈ cs := by
  rw [← List.count_pos_iff, count_trimChars hc, List.count_pos_iff]

end Ontogram.Text
